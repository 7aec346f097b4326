/-
What the player side guarantees on every run: who owns the playing
playback, in which order playbacks are started, and that a started
playback is never presented again.

# Starts

Only StartPlayback starts, and the playback it starts is the claimed
ticket of its user's queue (`startedBy_spec`). A start makes the ticket
leave, so everything left in the queue is above it, and the next start
is above it too. This is the log rule with `TicketQueue.Passed` as the
mark a start leaves behind.

# Presentations

The mark of a presentation is the row itself: a started row keeps its
start and its player (`Presented`), and both are columns that a
successful StartPlayback compares with its caller.
-/
import StreamBrew.Alert.Proofs.Calls

namespace StreamBrew.Alert

open Relational

variable {playerID : PlayerID} {generation : Int} {userID : UserID}
  {a : Action} {n : Nat} {now : Time}

variable {g : Grant} {db db' : Db} {r r' : Playback}

-- ================================= ownership

/-- Status and ownership of the playbacks of one user. -/
structure Ownership (userID : UserID) (db : Db) : Prop where
  single : ∀ r ∈ db.playbacks, ∀ s ∈ db.playbacks, r.userID = userID →
    s.userID = userID → r.status = .playing → s.status = .playing → r = s
  playing : ∀ r ∈ db.playbacks, r.userID = userID →
    r.status = .playing → r.finishedAt = none
      ∧ ∃ player, db.players.get? userID = some player
        ∧ r.playerID = some player.playerID
        ∧ r.playerGeneration = some player.generation
  waiting : ∀ r ∈ db.playbacks, r.userID = userID →
    r.status = .preparing ∨ r.status = .pending →
    r.startedAt = none ∧ r.finishedAt = none ∧ r.playerID = none
      ∧ r.playerGeneration = none
  finished : ∀ r ∈ db.playbacks, r.userID = userID →
    (r.finishedAt ≠ none ↔ r.status = .completed ∨ r.status = .skipped
      ∨ r.status = .expired ∨ r.status = .interrupted)
  presented : ∀ r ∈ db.playbacks, r.userID = userID →
    r.status = .completed ∨ r.status = .interrupted → r.startedAt ≠ none
  unseen : ∀ r ∈ db.playbacks, r.userID = userID →
    r.status = .expired → r.startedAt = none
  lease : ∀ r ∈ db.playbacks, r.userID = userID →
    r.preparationLeaseExpiresAt ≠ none → r.status = .preparing

/-- The invariant has ownership as a part. -/
theorem Inv.ownership (hi : Inv db) (userID : UserID) :
    Ownership userID db := by
  constructor
  case single =>
    intro r hr s hs hru hsu
    exact hi.single r hr s hs (hru.trans hsu.symm)
  case playing =>
    intro r hr hu hplay
    obtain ⟨player, hplayer, hpu, hid, hgen⟩ := hi.owned r hr hplay
    refine ⟨(hi.shape r hr).finishedAt_none (by rw [hplay]; decide), player,
      ?_, hid, hgen⟩
    rw [← hu, hpu]
    exact Table.get?_key hplayer
  case waiting => exact fun r hr _ => (hi.shape r hr).waiting
  case finished => exact fun r hr _ => (hi.shape r hr).finished
  case presented => exact fun r hr _ => (hi.shape r hr).presented
  case unseen => exact fun r hr _ => (hi.shape r hr).unseen
  case lease => exact fun r hr _ => (hi.shape r hr).lease

/-- On every run, status and ownership stay in step, whichever call
comes last. -/
theorem run_ownership (userID : UserID) (acts : List Action) :
    Ownership userID (Run.run apply Db.init acts)
      ∧ ∀ a, Ownership userID (apply (Run.run apply Db.init acts) a) := by
  have hi : Inv (Run.run apply Db.init acts) := Reachable.inv ⟨acts, rfl⟩
  exact ⟨hi.ownership userID, fun a => (hi.apply a).ownership userID⟩

-- ==================================== starts

/-- The start recorded under a queue sequence. -/
def Db.startedAt (db : Db) (n : Nat) : Option Time :=
  (db.playbacks.get? n).bind Playback.startedAt

/-- The playbacks of a user whose start a call records. -/
def startedBy (userID : UserID) (db : Db) (a : Action) : List Nat :=
  ((apply db a).playbacks.rows.filter fun r =>
    r.userID = userID ∧ r.startedAt ≠ none
      ∧ db.startedAt r.queueSequence = none).map Playback.queueSequence

theorem mem_startedBy :
    n ∈ startedBy userID db a ↔ ∃ r' ∈ (apply db a).playbacks,
      r'.queueSequence = n ∧ r'.userID = userID ∧ r'.startedAt ≠ none
        ∧ db.startedAt n = none := by
  unfold startedBy
  rw [List.mem_map]
  constructor
  · rintro ⟨r', hr', rfl⟩
    rw [List.mem_filter] at hr'
    obtain ⟨hmem, hp⟩ := hr'
    simp only [decide_eq_true_eq] at hp
    exact ⟨r', hmem, rfl, hp⟩
  · rintro ⟨r', hmem, rfl, hp⟩
    refine ⟨r', List.mem_filter.mpr ⟨hmem, ?_⟩, rfl⟩
    simp only [decide_eq_true_eq]
    exact hp

/-- Without the grant, a row keeps its start. -/
theorem Next.startedAt_eq {has : UserID → AssetID → Prop}
    (h : Next has g r r') (hg : ¬ g.start r) :
    r'.startedAt = r.startedAt := by
  rcases h with h | ⟨-, p, n, rfl⟩
  · cases h with
    | start hs => exact absurd hs hg
    | _ => rfl
  · rfl

/-- A call without the grant starts nothing. -/
theorem Steps.startedAt (hi : Inv db) (hg : ∀ r, ¬ g.start r)
    (h : Steps g db db') (hr' : r' ∈ db'.playbacks)
    (hstart : r'.startedAt ≠ none) :
    db.startedAt r'.queueSequence = r'.startedAt := by
  induction h generalizing r' with
  | refl =>
      unfold Db.startedAt
      rw [Table.get?_key hr', Option.bind_some]
  | tail hsteps heffect ih =>
      rcases heffect.origin (hi.steps hsteps) hr' with ⟨r, hr, hn⟩ | hnew
      · have heq := hn.startedAt_eq (hg r)
        rw [heq, hn.queueSequence]
        exact ih hr (heq ▸ hstart)
      · exact absurd (hnew.wellShaped.waiting hnew.waiting).1 hstart

/-- Where a started row stood before the call that started it. -/
theorem startPlayback_origin {tokenHash : TokenHash} {playbackID : PlaybackID}
    (hr' : r' ∈ (startPlayback tokenHash playerID generation playbackID now
      db).2.playbacks) :
    r' ∈ db.playbacks ∨ ∃ r ∈ db.playbacks,
      r.HeldBy tokenHash playerID generation playbackID now db
        ∧ r.status = .playing
        ∧ r' = { r with
            startedAt := some (r.startedAt.getD (jsDate now)) } := by
  unfold startPlayback at hr'
  rw [acknowledge_snd, Table.mem_update] at hr'
  obtain ⟨r, hr, he⟩ := hr'
  split at he
  case isTrue hp => exact Or.inr ⟨r, hr, hp.1, hp.2, he.symm⟩
  case isFalse => exact Or.inl (he ▸ hr)

/-- A recorded start is a StartPlayback, and the playback was claimed. -/
theorem startedBy_claimed (hi : Inv db) (hn : n ∈ startedBy userID db a) :
    ∃ tokenHash playerID generation playbackID now,
      a = .startPlayback tokenHash playerID generation playbackID now
        ∧ ∃ r ∈ db.playbacks, r.queueSequence = n ∧ r.userID = userID
          ∧ r.status = .playing ∧ r.startedAt = none := by
  obtain ⟨r', hr', rfl, hu, hstart, hbefore⟩ := mem_startedBy.mp hn
  by_cases hcall : ∃ tokenHash playerID generation playbackID now,
      a = .startPlayback tokenHash playerID generation playbackID now
  · obtain ⟨tokenHash, playerID, generation, playbackID, now, rfl⟩ := hcall
    refine ⟨_, _, _, _, _, rfl, ?_⟩
    rcases startPlayback_origin hr' with hr | ⟨r, hr, -, hplay, rfl⟩
    · unfold Db.startedAt at hbefore
      rw [Table.get?_key hr, Option.bind_some] at hbefore
      exact absurd hbefore hstart
    · refine ⟨r, hr, rfl, hu, hplay, ?_⟩
      unfold Db.startedAt at hbefore
      have hget : db.playbacks.get? r.queueSequence = some r :=
        Table.get?_key hr
      simpa [hget] using hbefore
  · have hg : ∀ r, ¬ (a.grant db).start r := by
      rintro r ⟨t, p, v, i, now, ha, -⟩
      exact hcall ⟨t, p, v, i, now, ha⟩
    have heq := (apply_steps hi a).startedAt hi hg hr' hstart
    rw [hbefore] at heq
    exact absurd heq.symm hstart

/-- A recorded start takes the claimed ticket out of the queue. -/
theorem startedBy_passed (hi : Inv db) (hn : n ∈ startedBy userID db a) :
    TicketQueue.Passed n ((apply db a).queue userID) := by
  obtain ⟨r', hr', hq, hu, hstart, -⟩ := mem_startedBy.mp hn
  obtain ⟨t, p, v, i, now, rfl, r, hr, hrq, hru, hplay, hnone⟩ :=
    startedBy_claimed hi hn
  have heffect : Effect (Action.grant db (.startPlayback t p v i now)) db
      (apply db (.startPlayback t p v i now)) :=
    effect_startPlayback t p v i now
      fun _ hr hs => ⟨_, _, _, _, _, rfl, hr, hs⟩
  have hi' := hi.effect heffect
  refine TicketQueue.passed_of_leave (hi.queue userID)
    (Db.queue_stage.mpr ⟨r, hr, hrq, hru,
      Playback.stage_claimed.mpr ⟨hplay, hnone⟩⟩)
    (heffect.queueStep hi userID) ?_
  rw [Option.eq_none_iff_forall_ne_some]
  intro stage hst
  obtain ⟨s, hs, hsq, -, hst'⟩ := Db.queue_stage.mp hst
  have heq := Table.eq_of_key hs hr' (hsq.trans hq.symm)
  subst heq
  cases stage with
  | waiting =>
      have hw := Playback.stage_waiting.mp hst'
      exact absurd ((hi'.shape s hs).waiting hw).1 hstart
  | claimed => exact absurd (Playback.stage_claimed.mp hst').2 hstart

/-- One call starts one playback of a user at most. -/
theorem startedBy_pairwise (hi : Inv db) (userID : UserID) (a : Action) :
    (startedBy userID db a).Pairwise (· < ·) := by
  have hnodup : (startedBy userID db a).Nodup :=
    (apply db a).playbacks.nodup.sublist (List.filter_sublist.map _)
  refine List.Pairwise.imp_of_mem ?_ hnodup
  intro m n hm hn hne
  obtain ⟨-, -, -, -, -, -, r, hr, rfl, hru, hrp, -⟩ :=
    startedBy_claimed hi hm
  obtain ⟨-, -, -, -, -, -, s, hs, rfl, hsu, hsp, -⟩ :=
    startedBy_claimed hi hn
  have heq := hi.single r hr s hs (hru.trans hsu.symm) hrp hsp
  exact absurd (congrArg _ heq) hne

/-- On every run, the playbacks of a user are started in the order of
their queue sequences. -/
theorem started_in_queue_order (userID : UserID) (acts : List Action) :
    (Run.log apply (startedBy userID) Db.init acts).Pairwise (· < ·) := by
  refine Run.log_pairwise Inv
    (fun n db => TicketQueue.Passed n (db.queue userID))
    ?_ ?_ ?_ ?_ ?_ Inv.init acts
  · exact fun db a hi => hi.apply a
  · exact fun db a hi => startedBy_pairwise hi userID a
  · exact fun db a hi n hn => startedBy_passed hi hn
  · exact fun db a n hi hn => (apply_steps hi a).passed hi hn
  · intro db a m n hi hm hn
    obtain ⟨-, -, -, -, -, -, r, hr, hrq, hru, hplay, hnone⟩ :=
      startedBy_claimed hi hn
    exact hm.lt (Db.queue_stage.mpr ⟨r, hr, hrq, hru,
      Playback.stage_claimed.mpr ⟨hplay, hnone⟩⟩)

-- ============================= presentations

/-- The playback a successful StartPlayback presents, and the player
generation it is presented by. -/
def presentedBy (db : Db) : Action → List (Nat × PlayerID × Int)
  | .startPlayback tokenHash playerID generation playbackID now =>
      match (startPlayback tokenHash playerID generation playbackID now
          db).1, db.playback? playbackID with
      | .ok (), some r => [(r.queueSequence, playerID, generation)]
      | _, _ => []
  | _ => []

/-- A started row, under the player that started it. -/
def Presented (playerID : PlayerID) (generation : Int) (r : Playback) :
    Prop :=
  r.WellShaped ∧ r.startedAt ≠ none ∧ r.playerID = some playerID
    ∧ r.playerGeneration = some generation

/-- A started row stays with its player and start, whatever is done. -/
theorem Presented.next {has : UserID → AssetID → Prop}
    (hr : Presented playerID generation r) (h : Next has g r r') :
    Presented playerID generation r' := by
  obtain ⟨hshape, hstart, hid, hgen⟩ := hr
  refine ⟨h.wellShaped hshape, ?_, ?_⟩
  · obtain ⟨t, ht⟩ := Option.ne_none_iff_exists'.mp hstart
    rw [h.startedAt ht]
    exact Option.some_ne_none t
  · rcases h with h | ⟨hpending, -⟩
    · obtain ⟨hid', hgen'⟩ := h.player hstart
      exact ⟨hid'.trans hid, hgen'.trans hgen⟩
    · exact absurd (hshape.waiting (Or.inr hpending)).1 hstart

/-- A presentation is a playing row of the caller that is started
afterwards. -/
theorem presentedBy_spec (hi : Inv db)
    (h : (n, playerID, generation) ∈ presentedBy db a) :
    (∃ r ∈ db.playbacks, r.queueSequence = n
        ∧ r.playerID = some playerID
        ∧ r.playerGeneration = some generation)
      ∧ Settled (Presented playerID generation) n (apply db a) := by
  unfold presentedBy at h
  split at h
  case h_2 => cases h
  case h_1 tokenHash player gen playbackID now =>
    split at h
    case h_2 => cases h
    case h_1 r hok hfound =>
      rw [List.mem_singleton] at h
      injection h with hn h
      injection h with hp hv
      subst hn hp hv
      obtain ⟨hr, hid⟩ := Table.find?_eq_some hfound
      -- the one row the update met is the row with this id
      have hheld : r.HeldBy tokenHash playerID generation playbackID now db
          ∧ r.status = .playing := by
        unfold startPlayback acknowledge at hok
        simp only at hok
        split at hok
        case isFalse => cases hok
        case isTrue hone =>
          by_contra hnot
          have hzero : db.playbacks.count (fun s =>
              s.HeldBy tokenHash playerID generation playbackID now db
                ∧ s.status = .playing) = 0 := by
            rw [Table.count_eq_zero]
            intro s hs hp
            have heq := hi.ids s hs r hr (hp.1.1.trans hid.symm)
            exact hnot (heq ▸ hp)
          rw [hzero] at hone
          cases hone
      have heffect : Effect (Action.grant db (.startPlayback tokenHash
          playerID generation playbackID now)) db (apply db (.startPlayback
          tokenHash playerID generation playbackID now)) :=
        effect_startPlayback tokenHash playerID generation playbackID now
          fun _ hr hs => ⟨_, _, _, _, _, rfl, hr, hs⟩
      obtain ⟨player, -, -, -, -, -, hassigned⟩ := hheld.1.2
      refine ⟨⟨r, hr, rfl, hassigned.2.1, hassigned.2.2⟩, ?_, ?_⟩
      · exact le_trans (hi.bound r hr) heffect.sequence_le
      · intro r' hr' hq
        refine ⟨(hi.effect heffect).shape r' hr', ?_⟩
        have hmem : r' ∈ (startPlayback tokenHash playerID generation
          playbackID now db).2.playbacks := hr'
        unfold startPlayback at hmem
        rw [acknowledge_snd, Table.mem_update] at hmem
        obtain ⟨s, hs, he⟩ := hmem
        have hsr : s = r := by
          refine Table.eq_of_key hs hr ?_
          rw [← hq, ← he]
          split <;> rfl
        subst hsr
        rw [if_pos hheld] at he
        subst he
        exact ⟨Option.some_ne_none _, hassigned.2.1, hassigned.2.2⟩

/-- On every run, all presentations of one playback are by one player
generation. -/
theorem presented_by_one_player (acts : List Action) :
    (Run.log apply presentedBy Db.init acts).Pairwise
      fun x y => x.1 = y.1 → x.2 = y.2 := by
  refine Run.log_pairwise Inv
    (fun x db => Settled (Presented x.2.1 x.2.2) x.1 db)
    ?_ ?_ ?_ ?_ ?_ Inv.init acts
  · exact fun db a hi => hi.apply a
  · intro db a _
    unfold presentedBy
    split
    case h_2 => exact List.Pairwise.nil
    case h_1 =>
      split
      · exact List.pairwise_singleton _ _
      · exact List.Pairwise.nil
  · exact fun db a hi x hx => (presentedBy_spec hi hx).2
  · exact fun db a x hi hx =>
      hx.steps hi (fun _ _ _ hr hn => hr.next hn) (apply_steps hi a)
  · rintro db a ⟨n, p, v⟩ ⟨m, p', v'⟩ hi hx hy hnm
    obtain ⟨r, hr, hq, hid, hgen⟩ := (presentedBy_spec hi hy).1
    have hn : n = m := hnm
    obtain ⟨-, -, hid', hgen'⟩ := hx.2 r hr (hq.trans hn.symm)
    rw [hid] at hid'
    rw [hgen] at hgen'
    cases hid'
    cases hgen'
    rfl

/-- A row with a recorded start. -/
def StartedAt (t : Time) (r : Playback) : Prop :=
  r.WellShaped ∧ r.startedAt = some t

theorem StartedAt.next {has : UserID → AssetID → Prop} {t : Time}
    (hr : StartedAt t r) (h : Next has g r r') : StartedAt t r' :=
  ⟨h.wellShaped hr.1, h.startedAt hr.2⟩

theorem StartedAt.not_waiting {t : Time} (hr : StartedAt t r) :
    ¬ r.status.Waiting := by
  intro hw
  have hnone := (hr.1.waiting hw).1
  rw [hr.2] at hnone
  cases hnone

/-- What the sweep before a claim leaves waiting was waiting. -/
theorem mem_swept_waiting
    (hr : r ∈ (expireBacklog userID now
      (recoverTimedOutPlayback userID now db)).playbacks)
    (hw : r.status.Waiting) : r ∈ db.playbacks := by
  unfold expireBacklog at hr
  rw [Table.mem_update] at hr
  obtain ⟨s, hs, he⟩ := hr
  split at he
  case isTrue =>
    subst he
    have hw' : PlaybackStatus.expired.Waiting := hw
    simp [PlaybackStatus.Waiting] at hw'
  case isFalse =>
    subst he
    unfold recoverTimedOutPlayback at hs
    rw [Table.mem_update] at hs
    obtain ⟨t, ht, he⟩ := hs
    split at he
    case isTrue =>
      subst he
      have hw' : (if t.startedAt = none then PlaybackStatus.expired
        else PlaybackStatus.interrupted).Waiting := hw
      split at hw' <;> simp [PlaybackStatus.Waiting] at hw'
    case isFalse => exact he ▸ ht

/-- What ClaimPlayback hands out was pending, and is the player's. -/
theorem claimPlayback_claimed (hi : Inv db) {tokenHash : TokenHash}
    {locked : List Nat} {p : Playback}
    (h : (claimPlayback tokenHash playerID generation now locked db).1
      = .ok (some p)) :
    ∃ r ∈ db.playbacks, r.status = .pending
      ∧ p = r.assign playerID generation
      ∧ p ∈ (claimPlayback tokenHash playerID generation now locked
        db).2.playbacks := by
  unfold claimPlayback at h ⊢
  split at h
  case h_1 => cases h
  case h_2 player hplayer =>
    simp only at h ⊢
    split at h
    case h_1 => cases h
    case h_2 hconfiguration =>
      split at h
      case isTrue => cases h
      case isFalse hlease =>
        rw [if_neg hlease]
        split at h
        case isTrue => cases h
        case isFalse hactive =>
          rw [if_neg hactive]
          split at h
          case h_1 => cases h
          case h_2 candidate hfirst =>
            obtain ⟨hmem, ⟨-, hclaim, -⟩, -⟩ := Table.first_eq_some hfirst
            have hpending : candidate.status = .pending := hclaim.1
            refine ⟨candidate, mem_swept_waiting hmem (Or.inr hpending),
              hpending, ?_⟩
            split at h
            case h_1 => cases h
            case h_2 playback hfound =>
              cases h
              obtain ⟨hp, hid⟩ := Table.find?_eq_some hfound
              refine ⟨?_, hp⟩
              rw [Table.mem_update] at hp
              obtain ⟨s, hs, he⟩ := hp
              have htimeOut : Effect {} db _ :=
                effect_recoverTimedOutPlayback player.userID now
              have hi₂ := (hi.effect htimeOut).effect (g := {})
                (effect_expireBacklog player.userID now)
              have hsid : s.playbackID = candidate.playbackID := by
                rw [← hid, ← he]
                split <;> rfl
              have heq := hi₂.ids s hs candidate hmem hsid
              subst heq
              rw [← he, if_pos rfl]

/-- What ClaimPlayback hands out was pending. -/
theorem claimPlayback_pending (hi : Inv db) {tokenHash : TokenHash}
    {locked : List Nat} {p : Playback}
    (h : (claimPlayback tokenHash playerID generation now locked db).1
      = .ok (some p)) :
    ∃ r ∈ db.playbacks, r.queueSequence = p.queueSequence
      ∧ r.status = .pending := by
  obtain ⟨r, hr, hpending, rfl, -⟩ := claimPlayback_claimed hi h
  exact ⟨r, hr, rfl, hpending⟩

/-- At-most-once presentation, on every run. A playback is presented
by one player generation at most; once its start is recorded it stays
as recorded, the playback never waits again, and it is never handed
out again. -/
theorem presented_at_most_once (acts : List Action) :
    (Run.log apply presentedBy Db.init acts).Pairwise
        (fun x y => x.1 = y.1 → x.2 = y.2)
      ∧ ∀ r ∈ (Run.run apply Db.init acts).playbacks, ∀ t,
        r.startedAt = some t → ∀ later : List Action,
          (∀ r' ∈ (Run.run apply Db.init (acts ++ later)).playbacks,
            r'.queueSequence = r.queueSequence →
            r'.startedAt = some t ∧ r'.status ≠ .preparing
              ∧ r'.status ≠ .pending)
          ∧ ∀ tokenHash playerID generation now locked p,
            (claimPlayback tokenHash playerID generation now locked
              (Run.run apply Db.init (acts ++ later))).1 = .ok (some p) →
            p.queueSequence ≠ r.queueSequence := by
  refine ⟨presented_by_one_player acts, fun r hr t ht later => ?_⟩
  have hi : Inv (Run.run apply Db.init acts) :=
    Reachable.inv ⟨acts, rfl⟩
  have hi' : Inv (Run.run apply Db.init (acts ++ later)) :=
    Reachable.inv ⟨acts ++ later, rfl⟩
  have hsettled : Settled (StartedAt t) r.queueSequence
      (Run.run apply Db.init (acts ++ later)) := by
    rw [Run.run_append]
    have hrun : Inv (Run.run apply (Run.run apply Db.init acts) later)
        ∧ Settled (StartedAt t) r.queueSequence
          (Run.run apply (Run.run apply Db.init acts) later) := by
      refine Run.run_preserves
        (P := fun db => Inv db ∧ Settled (StartedAt t) r.queueSequence db)
        ⟨hi, hi.bound r hr, fun s hs hq => ?_⟩ (fun db a hdb => ?_) later
      · have heq := Table.eq_of_key hs hr hq
        exact heq ▸ ⟨hi.shape r hr, ht⟩
      · exact ⟨hdb.1.apply a, hdb.2.steps hdb.1
          (fun _ _ _ hr hn => hr.next hn) (apply_steps hdb.1 a)⟩
    exact hrun.2
  refine ⟨fun r' hr' hq => ?_, fun _ _ _ _ _ p hp he => ?_⟩
  · have hs := hsettled.2 r' hr' hq
    exact ⟨hs.2, not_or.mp hs.not_waiting⟩
  · obtain ⟨s, hs, hsq, hpending⟩ := claimPlayback_pending hi' hp
    exact (hsettled.2 s hs (hsq.trans he)).not_waiting (Or.inr hpending)

end StreamBrew.Alert
