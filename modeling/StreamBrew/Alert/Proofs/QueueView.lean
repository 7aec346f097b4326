/-
The playbacks of one user as a ticket queue.

Preparing and pending playbacks wait, an unstarted playing one is
claimed, everything else has left (`Db.queue`). Whatever a statement
does to the tables, it takes one step of every user's queue
(`Effect.queueStep`): the faithful model refines the abstract queue,
and the queue discipline comes with it.
-/
import StreamBrew.Alert.Proofs.Effect

namespace StreamBrew.Alert

open Relational

variable {g : Grant} {db db' : Db} {r r' : Playback}

-- ======================== one row in a queue

theorem Playback.stage_waiting :
    r.stage = some .waiting ↔ r.status.Waiting := by
  unfold Playback.stage
  by_cases hw : r.status.Waiting
  · simp [hw]
  · by_cases hc : r.status = .playing ∧ r.startedAt = none <;>
      simp [hw, hc]

theorem Playback.stage_claimed :
    r.stage = some .claimed ↔ r.status = .playing ∧ r.startedAt = none := by
  unfold Playback.stage
  by_cases hw : r.status.Waiting
  · have hne : r.status ≠ .playing := by
      intro he
      rw [he] at hw
      simp [PlaybackStatus.Waiting] at hw
    simp [hw, hne]
  · rw [if_neg hw]
    by_cases hc : r.status = .playing ∧ r.startedAt = none
    · rw [if_pos hc]
      exact ⟨fun _ => hc, fun _ => rfl⟩
    · rw [if_neg hc]
      exact ⟨fun h => absurd h (by simp), fun h => absurd h hc⟩

/-- A ticket stands where its row stands. -/
theorem Db.queue_stage {userID : UserID} {n : Nat}
    {stage : TicketQueue.Stage} :
    (db.queue userID).stage n = some stage ↔ ∃ r ∈ db.playbacks,
      r.queueSequence = n ∧ r.userID = userID ∧ r.stage = some stage := by
  show (db.playbacks.get? n).bind _ = some stage ↔ _
  rw [Option.bind_eq_some_iff]
  constructor
  · rintro ⟨r, hg, hs⟩
    obtain ⟨hr, hn⟩ := Table.get?_eq_some.mp hg
    split at hs
    case isTrue hu => exact ⟨r, hr, hn, hu, hs⟩
    case isFalse => cases hs
  · rintro ⟨r, hr, hn, hu, hs⟩
    exact ⟨r, Table.get?_eq_some.mpr ⟨hr, hn⟩, by rw [if_pos hu, hs]⟩

/-- The arrows of the diagram move a ticket as the queue allows. -/
theorem Move.stage {has : UserID → AssetID → Prop}
    (h : Move has g r r') : TicketQueue.Move r.stage r'.stage := by
  cases h with
  | refl => exact .stay _
  | claimPreparation => exact .stay _
  | abandonSpeech hs =>
      have heq : r.abandonSpeech.stage = r.stage := by
        simp [Playback.stage, Playback.abandonSpeech, hs,
          PlaybackStatus.Waiting]
      rw [heq]
      exact .stay _
  | retry => exact .stay _
  | @attachSpeech _ hs a =>
      have heq : (r.attachSpeech a).stage = r.stage := by
        simp [Playback.stage, Playback.attachSpeech, hs,
          PlaybackStatus.Waiting]
      rw [heq]
      exact .stay _
  | handBack _ hs hstart =>
      have hr : r.stage = some .claimed := by
        simp [Playback.stage, hs, hstart, PlaybackStatus.Waiting]
      rw [hr]
      exact .handBack
  | start _ hs hstart t =>
      have hr' : Playback.stage { r with startedAt := some t } = none := by
        simp [Playback.stage, hs, PlaybackStatus.Waiting]
      rw [hr']
      exact .leave _
  | releaseMedia => exact .stay _
  | _ => exact .leave _

namespace Effect

-- ============================ the queue view

/-- A statement that takes every row along an arrow moves the tickets
of the queue as the queue allows. -/
private theorem queueStep_of_get? {playbacks : Table Playback.queueSequence}
    {userID : UserID} {sequence : Nat} (hle : db.sequence ≤ sequence)
    (h : ∀ n, playbacks.get? n = db.playbacks.get? n
      ∨ (∃ r ∈ db.playbacks.get? n, ∃ r' ∈ playbacks.get? n,
        r'.userID = r.userID ∧ TicketQueue.Move r.stage r'.stage)
      ∨ playbacks.get? n = none) :
    TicketQueue.Step (db.queue userID)
      ({ db with playbacks, sequence }.queue userID) := by
  refine .move (fun n => ?_) fun n hn => le_trans hn hle
  show TicketQueue.Move ((db.playbacks.get? n).bind _)
    ((playbacks.get? n).bind _)
  rcases h n with heq | ⟨r, hr, r', hr', huser, hmove⟩ | hnone
  · rw [heq]
    exact .stay _
  · rw [Option.mem_def.mp hr, Option.mem_def.mp hr']
    simp only [Option.bind_some, huser]
    by_cases hu : r.userID = userID
    · rw [if_pos hu, if_pos hu]
      exact hmove
    · rw [if_neg hu, if_neg hu]
      exact .stay _
  · rw [hnone]
    exact .leave _

/-- Only the claimed row changes in a claim. -/
private theorem get?_claim (hi : Inv db) {c : Playback}
    (hc : c ∈ db.playbacks) {f : Playback → Playback}
    {hf : ∀ s, (f s).queueSequence = s.queueSequence} (n : Nat) :
    (db.playbacks.update (fun s => s.playbackID = c.playbackID) f hf).get? n
      = if n = c.queueSequence then some (f c)
        else db.playbacks.get? n := by
  rw [Table.get?_update]
  by_cases hn : n = c.queueSequence
  · rw [if_pos hn, hn, Table.get?_key hc]
    simp
  · rw [if_neg hn]
    cases hg : db.playbacks.get? n with
    | none => rfl
    | some s =>
        obtain ⟨hs, hk⟩ := Table.get?_eq_some.mp hg
        have hne : s.playbackID ≠ c.playbackID := by
          intro hid
          rw [hi.ids s hs c hc hid] at hk
          exact hn hk.symm
        simp [hne]

/-- A claim takes the lowest waiting ticket of its user. -/
private theorem queueStep_claim (hi : Inv db) {c : Playback}
    (hc : c ∈ db.playbacks) (hpending : c.status = .pending)
    (hfree : ∀ s ∈ db.playbacks, s.userID = c.userID →
      s.status ≠ .playing)
    (hleast : ∀ s ∈ db.playbacks, s.InBacklog c.userID →
      c.queueSequence ≤ s.queueSequence)
    {playerID : PlayerID} {generation : Int}
    {hf : ∀ s, (Playback.assign playerID generation s).queueSequence
      = s.queueSequence} (userID : UserID) :
    TicketQueue.Step (db.queue userID) ({ db with
      playbacks := db.playbacks.update
        (fun s => s.playbackID = c.playbackID)
        (Playback.assign playerID generation) hf }.queue userID) := by
  by_cases hu : c.userID = userID
  · subst hu
    refine .claim c.queueSequence ?_ ?_ ?_ ?_ fun _ => id
    · exact Db.queue_stage.mpr ⟨c, hc, rfl, rfl,
        Playback.stage_waiting.mpr (Or.inr hpending)⟩
    · intro n hn
      obtain ⟨s, hs, -, hsu, hst⟩ := Db.queue_stage.mp hn
      exact hfree s hs hsu (Playback.stage_claimed.mp hst).1
    · intro n hn
      obtain ⟨s, hs, rfl, hsu, hst⟩ := Db.queue_stage.mp hn
      exact hleast s hs ⟨hsu, Playback.stage_waiting.mp hst⟩
    · intro n
      show ((db.playbacks.update _ _ hf).get? n).bind _ = _
      rw [get?_claim hi hc]
      by_cases hn : n = c.queueSequence
      · have hstart := ((hi.shape c hc).waiting (Or.inr hpending)).1
        have hst : (c.assign playerID generation).stage
            = some .claimed :=
          Playback.stage_claimed.mpr ⟨rfl, hstart⟩
        rw [if_pos hn, if_pos hn, Option.bind_some, hst]
        exact if_pos rfl
      · rw [if_neg hn, if_neg hn]
        rfl
  · refine .move (fun n => ?_) fun _ => id
    show TicketQueue.Move _ (((db.playbacks.update _ _ hf).get? n).bind _)
    rw [get?_claim hi hc]
    by_cases hn : n = c.queueSequence
    · have hother : (if (c.assign playerID generation).userID = userID
          then (c.assign playerID generation).stage
          else none) = none := if_neg hu
      rw [if_pos hn, Option.bind_some, hother]
      exact .leave _
    · rw [if_neg hn]
      exact .stay _

/-- An insert issues the next ticket of its user. -/
private theorem queueStep_insert {draw : Draw} {owner : UserID}
    {snapshot : Snapshot} {status : PlaybackStatus}
    (hins : db.insertPlayback draw owner snapshot status = some db')
    (hstatus : status.Waiting) (userID : UserID) :
    TicketQueue.Step (db.queue userID) (db'.queue userID) := by
  obtain ⟨-, playbacks, hadd, rfl⟩ := Db.insertPlayback_eq_some hins
  set row := draw.playback db.sequence owner snapshot status with hrow
  have hle : ∀ n ∈ (db.queue userID).issued,
      n ≤ db.sequence + 1 + draw.gap := fun n hn => by
    have hn' : n ≤ db.sequence := hn
    omega
  by_cases hu : owner = userID
  · refine .issue row.queueSequence (fun n hn => ?_) (fun n => ?_) hle
      (Nat.le_refl _)
    · have hn' : n ≤ db.sequence := hn
      show n < db.sequence + 1 + draw.gap
      omega
    · show (playbacks.get? n).bind _ = _
      rw [Table.get?_insert? hadd]
      by_cases hn : row.queueSequence = n
      · have hst : row.stage = some .waiting :=
          Playback.stage_waiting.mpr hstatus
        rw [if_pos hn, if_pos hn.symm, Option.bind_some, hst]
        exact if_pos hu
      · rw [if_neg hn, if_neg fun h => hn h.symm]
        rfl
  · refine .move (fun n => ?_) hle
    show TicketQueue.Move _ ((playbacks.get? n).bind _)
    rw [Table.get?_insert? hadd]
    by_cases hn : row.queueSequence = n
    · have hother : (if row.userID = userID then row.stage else none)
          = none := if_neg hu
      rw [if_pos hn, Option.bind_some, hother]
      exact .leave _
    · rw [if_neg hn]
      exact .stay _

/-- A statement changes a user's queue as one step may. -/
theorem queueStep (hi : Inv db) (h : Effect g db db') (userID : UserID) :
    TicketQueue.Step (db.queue userID) (db'.queue userID) := by
  have hrefl : TicketQueue.Step (db.queue userID) (db.queue userID) :=
    .move (fun _ => .stay _) (fun _ => id)
  cases h with
  | @move p _ f hf hmove =>
      refine queueStep_of_get? (Nat.le_refl _) fun n => ?_
      rw [Table.get?_update]
      cases hg : db.playbacks.get? n with
      | none => exact Or.inl rfl
      | some r =>
          by_cases hp : p r
          · have hm := hmove r (Table.mem_of_get? hg) hp
            exact Or.inr (Or.inl ⟨r, rfl, f r, by simp [hp],
              hm.userID, hm.stage⟩)
          · exact Or.inl (by simp [hp])
  | claim _ hc hpending _ _ hfree hleast =>
      exact queueStep_claim hi hc hpending hfree hleast userID
  | insert _ hins hstatus => exact queueStep_insert hins hstatus userID
  | @prune p _ hp =>
      refine queueStep_of_get? (Nat.le_refl _) fun n => ?_
      rw [Table.get?_delete]
      cases hg : db.playbacks.get? n with
      | none => exact Or.inl rfl
      | some r =>
          by_cases hp : p r
          · exact Or.inr (Or.inr (by simp [hp]))
          · exact Or.inl (by simp [hp])
  | players => exact hrefl
  | media => exact hrefl
  | donate => exact hrefl
  | rotate => exact hrefl
  | diagnose => exact hrefl

end Effect

end StreamBrew.Alert
