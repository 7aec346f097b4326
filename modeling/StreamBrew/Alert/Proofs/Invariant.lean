/-
Every statement keeps the invariant of the alert tables.

The invariant is kept column by column: what is a fact about one row
follows the row (`Effect.origin`), what relates two rows follows both,
and the queue discipline is the ticket queue's own. `Settled` carries
facts about one playback along a run, past its deletion: a playback is
named by its queue sequence, which is never drawn again.
-/
import StreamBrew.Alert.Proofs.QueueView

namespace StreamBrew.Alert

open Relational

variable {g : Grant} {db db' : Db} {r r' : Playback}

-- ================================== two rows

/-- A column that rows keep and that new rows draw fresh stays unique
among the rows of a kind that rows keep. -/
private theorem unique_effect {κ : Type} {P : Playback → Prop}
    {column : Playback → κ} (hi : Inv db) (h : Effect g db db')
    (hP : ∀ r r', Next db.Has g r r' → P r' → P r)
    (hcol : ∀ r r', Next db.Has g r r' → column r' = column r)
    (hunique : ∀ r ∈ db.playbacks, ∀ s ∈ db.playbacks, P r → P s →
      column r = column s → r = s)
    (hfresh : ∀ r, r.New g db db' → P r → ∀ s ∈ db.playbacks, P s →
      column s ≠ column r) :
    ∀ r' ∈ db'.playbacks, ∀ s' ∈ db'.playbacks, P r' → P s' →
      column r' = column s' → r' = s' := by
  intro r' hr' s' hs' hPr hPs he
  rcases h.origin hi hr' with ⟨r, hr, hrn⟩ | hrnew <;>
    rcases h.origin hi hs' with ⟨s, hs, hsn⟩ | hsnew
  · have heq : r = s := by
      refine hunique r hr s hs (hP r r' hrn hPr) (hP s s' hsn hPs) ?_
      rw [← hcol r r' hrn, ← hcol s s' hsn, he]
    subst heq
    refine Table.eq_of_key hr' hs' ?_
    rw [hrn.queueSequence, hsn.queueSequence]
  · refine absurd ?_ (hfresh s' hsnew hPs r hr (hP r r' hrn hPr))
    rw [← hcol r r' hrn, he]
  · refine absurd ?_ (hfresh r' hrnew hPr s hs (hP s s' hsn hPs))
    rw [← hcol s s' hsn, he]
  · refine Table.eq_of_key hr' hs' ?_
    rw [hrnew.last, hsnew.last]

-- ================================= the claim

/-- A row that plays after a statement played before, under the same
player, or was claimed by it with nothing else playing. -/
theorem Effect.playing (hi : Inv db) (h : Effect g db db')
    (hr' : r' ∈ db'.playbacks) (hplay : r'.status = .playing) :
    (∃ r ∈ db.playbacks, r.status = .playing
        ∧ r'.queueSequence = r.queueSequence ∧ r'.userID = r.userID
        ∧ r'.playerID = r.playerID
        ∧ r'.playerGeneration = r.playerGeneration)
      ∨ ((∀ s' ∈ db'.playbacks, s'.userID = r'.userID →
          s'.status = .playing → s' = r')
        ∧ r'.OwnedIn db.players) := by
  cases h with
  | @move p _ f hf hmove =>
      left
      rw [Table.mem_update] at hr'
      obtain ⟨r, hr, he⟩ := hr'
      split at he
      case isTrue hp =>
        subst he
        have hm := hmove r hr hp
        obtain ⟨hs, hid, hgen⟩ := hm.playing hplay
        exact ⟨r, hr, hs, hm.queueSequence, hm.userID, hid, hgen⟩
      case isFalse =>
        subst he
        exact ⟨r, hr, hplay, rfl, rfl, rfl, rfl⟩
  | @claim c player hf hc hpending hplayer huser hfree hleast =>
      rw [Table.mem_update] at hr'
      obtain ⟨r, hr, he⟩ := hr'
      split at he
      case isTrue hid =>
        have heq := hi.ids r hr c hc hid
        subst heq he
        right
        refine ⟨fun s' hs' hsu hsp => ?_, player, hplayer, ?_, rfl, rfl⟩
        · rw [Table.mem_update] at hs'
          obtain ⟨s, hs, hse⟩ := hs'
          split at hse
          case isTrue hsid =>
            rw [← hse, hi.ids s hs r hr hsid]
          case isFalse =>
            subst hse
            exact absurd hsp (hfree s hs hsu)
        · exact huser.symm
      case isFalse =>
        subst he
        exact Or.inl ⟨r, hr, hplay, rfl, rfl, rfl, rfl⟩
  | insert _ hins hstatus =>
      obtain ⟨-, playbacks, hadd, rfl⟩ := Db.insertPlayback_eq_some hins
      rcases (Table.mem_insert? hadd).mp hr' with hr | rfl
      · exact Or.inl ⟨r', hr, hplay, rfl, rfl, rfl, rfl⟩
      · have hs : _ = PlaybackStatus.playing := hplay
        have hw := hstatus
        simp only [Draw.playback] at hs
        rw [hs] at hw
        simp [PlaybackStatus.Waiting] at hw
  | prune hp =>
      exact Or.inl ⟨r', (Table.mem_delete.mp hr').1, hplay, rfl, rfl, rfl,
        rfl⟩
  | players => exact Or.inl ⟨r', hr', hplay, rfl, rfl, rfl, rfl⟩
  | media => exact Or.inl ⟨r', hr', hplay, rfl, rfl, rfl, rfl⟩
  | donate => exact Or.inl ⟨r', hr', hplay, rfl, rfl, rfl, rfl⟩
  | rotate => exact Or.inl ⟨r', hr', hplay, rfl, rfl, rfl, rfl⟩
  | diagnose => exact Or.inl ⟨r', hr', hplay, rfl, rfl, rfl, rfl⟩

/-- A playing row keeps its player row. -/
theorem Effect.owned (h : Effect g db db') (hr' : r' ∈ db'.playbacks)
    (hplay : r'.status = .playing) (howned : r'.OwnedIn db.players) :
    r'.OwnedIn db'.players := by
  cases h with
  | players _ hkeep => exact hkeep r' hr' hplay howned
  | insert _ hins =>
      obtain ⟨-, playbacks, -, rfl⟩ := Db.insertPlayback_eq_some hins
      exact howned
  | _ => exact howned

/-- What a configuration selects, its user has. -/
theorem Effect.selected (hi : Inv db) (h : Effect g db db') :
    ∀ c ∈ db'.configurations, ∀ a, c.Selects a → db'.Has c.userID a := by
  cases h with
  | media _ _ _ _ hselect => exact hselect
  | insert _ hins =>
      obtain ⟨-, playbacks, -, rfl⟩ := Db.insertPlayback_eq_some hins
      exact hi.selected
  | _ => exact hi.selected

/-- What a row names, its user has. -/
theorem Effect.references (hi : Inv db) (h : Effect g db db')
    (hr' : r' ∈ db'.playbacks) {a : AssetID} (ha : r'.References a) :
    db'.Has r'.userID a := by
  have hbefore : db.Has r'.userID a := by
    rcases h.origin hi hr' with ⟨r, hr, hn⟩ | hnew
    · rw [hn.userID]
      rcases hn.references ha with hra | hhas
      · exact hi.references r hr a hra
      · exact hhas
    · exact hnew.references a ha
  cases h with
  | media _ _ _ hkeep => exact hkeep r' hr' a ha hbefore
  | insert _ hins =>
      obtain ⟨-, playbacks, -, rfl⟩ := Db.insertPlayback_eq_some hins
      exact hbefore
  | _ => exact hbefore

/-- A diagnostic is about a row of the table. -/
theorem Effect.diagnosed (hi : Inv db) (h : Effect g db db') :
    ∀ d ∈ db'.rendererDiagnostics, ∃ r' ∈ db'.playbacks, d.About r' := by
  intro d hd
  obtain ⟨r, hr, habout⟩ : ∃ r ∈ db.playbacks, d.About r := by
    cases h with
    | prune _ _ hdiag => exact hi.diagnosed d (hdiag d hd).1
    | diagnose _ hdiag => exact hdiag d hd
    | insert _ hins =>
        obtain ⟨-, playbacks, -, rfl⟩ := Db.insertPlayback_eq_some hins
        exact hi.diagnosed d hd
    | _ => exact hi.diagnosed d hd
  rcases h.kept hi hr with ⟨r', hr', hn⟩ | ⟨-, -, hgone⟩
  · exact ⟨r', hr', hn.playbackID.trans habout.1, hn.userID.trans habout.2⟩
  · exact absurd habout (hgone d hd)

-- ============================== preservation

/-- Every statement keeps the invariant. -/
theorem Inv.effect (hi : Inv db) (h : Effect g db db') : Inv db' := by
  constructor
  case bound =>
    intro r' hr'
    rcases h.origin hi hr' with ⟨r, hr, hn⟩ | hnew
    · rw [hn.queueSequence]
      exact le_trans (hi.bound r hr) h.sequence_le
    · exact hnew.last.le
  case ids =>
    intro r' hr' s' hs' he
    exact unique_effect (P := fun _ => True) hi h (fun _ _ _ _ => trivial)
      (fun r r' hn => hn.playbackID)
      (fun r hr s hs _ _ => hi.ids r hr s hs)
      (fun r hnew _ s hs _ => hnew.id s hs) r' hr' s' hs' trivial trivial he
  case shape =>
    intro r' hr'
    rcases h.origin hi hr' with ⟨r, hr, hn⟩ | hnew
    · exact hn.wellShaped (hi.shape r hr)
    · exact hnew.wellShaped
  case single =>
    intro r' hr' s' hs' hu hrp hsp
    rcases h.playing hi hr' hrp with ⟨r, hr, hrs, hrq, hru, -⟩ | ⟨honly, -⟩
    · rcases h.playing hi hs' hsp with ⟨s, hs, hss, hsq, hsu, -⟩ | ⟨honly, -⟩
      · have heq : r = s := by
          refine hi.single r hr s hs ?_ hrs hss
          rw [← hru, ← hsu, hu]
        refine Table.eq_of_key hr' hs' ?_
        rw [hrq, hsq, heq]
      · exact honly r' hr' hu hrp
    · exact (honly s' hs' hu.symm hsp).symm
  case owned =>
    intro r' hr' hrp
    refine h.owned hr' hrp ?_
    rcases h.playing hi hr' hrp with ⟨r, hr, hrs, -, hru, hrid, hrg⟩ | ⟨-, ho⟩
    · obtain ⟨p, hp, hpu, hpid, hpg⟩ := hi.owned r hr hrs
      exact ⟨p, hp, hru.trans hpu, hrid.trans hpid, hrg.trans hpg⟩
    · exact ho
  case queue =>
    exact fun userID => (hi.queue userID).step (h.queueStep hi userID)
  case references => exact fun r' hr' a ha => h.references hi hr' ha
  case selected => exact h.selected hi
  case incoming =>
    intro r' hr' s' hs' hrk hsk he
    exact unique_effect (P := fun r => r.kind = .incoming) hi h
      (fun r r' hn hk => hn.kind ▸ hk) (fun r r' hn => hn.donationID)
      (fun r hr s hs => hi.incoming r hr s hs)
      (fun r hnew hk s hs => hnew.incoming hk s hs) r' hr' s' hs' hrk hsk he
  case diagnosed => exact h.diagnosed hi

/-- The empty tables meet the invariant. -/
theorem Inv.init : Inv Db.init := by
  constructor <;> try exact fun r hr => absurd hr Table.not_mem_empty
  intro userID
  have hstage : ∀ n, (Db.init.queue userID).stage n = none := fun _ => rfl
  constructor
  · intro n hn
    exact absurd (hstage n) hn
  · intro m n hm
    rw [hstage] at hm
    cases hm
  · intro m n hm
    rw [hstage] at hm
    cases hm

/-- A call keeps the invariant. -/
theorem Inv.steps (hi : Inv db) (h : Steps g db db') : Inv db' := by
  induction h with
  | refl => exact hi
  | tail _ heffect ih => exact ih.effect heffect

-- ======================= facts about one row

/-- The playback with this queue sequence was queued, and what is left
of it satisfies `P`. -/
def Settled (P : Playback → Prop) (n : Nat) (db : Db) : Prop :=
  n ≤ db.sequence ∧ ∀ r ∈ db.playbacks, r.queueSequence = n → P r

/-- What a row keeps for good, no call undoes. -/
theorem Settled.steps {P : Playback → Prop} {n : Nat} (hi : Inv db)
    (hP : ∀ has r r', P r → Next has g r r' → P r') (hn : Settled P n db)
    (h : Steps g db db') : Settled P n db' := by
  induction h with
  | refl => exact hn
  | @tail db₁ db₂ hsteps heffect ih =>
      have hi₁ := hi.steps hsteps
      refine ⟨le_trans ih.1 heffect.sequence_le, fun r' hr' hq => ?_⟩
      rcases heffect.origin hi₁ hr' with ⟨r, hr, hnext⟩ | hnew
      · exact hP _ r r' (ih.2 r hr (hnext.queueSequence ▸ hq)) hnext
      · have habove := hnew.above
        have hle := ih.1
        omega

/-- Sequence numbers are only drawn upwards. -/
theorem Steps.sequence_le (h : Steps g db db') :
    db.sequence ≤ db'.sequence := by
  induction h with
  | refl => exact Nat.le_refl _
  | tail _ heffect ih => exact le_trans ih heffect.sequence_le

/-- A row that no statement of the call may delete stays. -/
theorem Steps.kept {P : Playback → Prop} (hi : Inv db)
    (hretire : ∀ r, ¬ g.retire r)
    (hP : ∀ has r r', P r → Next has g r r' → P r') (h : Steps g db db')
    (hr : r ∈ db.playbacks) (hPr : P r) :
    ∃ r' ∈ db'.playbacks, r'.queueSequence = r.queueSequence ∧ P r' := by
  induction h with
  | refl => exact ⟨r, hr, rfl, hPr⟩
  | tail hsteps heffect ih =>
      obtain ⟨r₁, hr₁, hq₁, hP₁⟩ := ih
      rcases heffect.kept (hi.steps hsteps) hr₁ with ⟨r', hr', hn⟩ | ⟨hg, -⟩
      · exact ⟨r', hr', hn.queueSequence.trans hq₁, hP _ _ _ hP₁ hn⟩
      · exact absurd hg (hretire r₁)

/-- A queue only steps. -/
theorem Steps.passed {n : Nat} {userID : UserID} (hi : Inv db)
    (h : Steps g db db') (hn : TicketQueue.Passed n (db.queue userID)) :
    TicketQueue.Passed n (db'.queue userID) := by
  induction h with
  | refl => exact hn
  | tail hsteps heffect ih =>
      exact ih.step (heffect.queueStep (hi.steps hsteps) userID)

end StreamBrew.Alert
