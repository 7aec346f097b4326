/-
When the supervisor of the live-only listeners keeps one listener for
each user, and the run in which it does not.

A completion names a user and a credential, not a listener. As long as
it finds no entry of another listener there (`Unambiguous`), an entry is
dropped only with its own listener, and the rule of rosters applies. A
credential that is replaced and restored before the completion of the
listener in between is received makes the two confuse.
-/
import StreamBrew.Donations.LiveListeners

namespace StreamBrew.Donations

open Supervisor
open Alert (UserID)

namespace LiveListenerSupervisor

variable {s : LiveListenerSupervisor} {a : LiveListenerAction}

/-- A listener is done with when it is cancelled or its completion was
received. -/
def reading : Reading UserID RunningLiveListener LiveListener where
  worker := (·.listenerID)
  key := (·.userID)
  dismissed := fun l => l.cancelled || l.completed

/-- Entries and listeners agree. -/
structure Inv (s : LiveListenerSupervisor) : Prop where
  roster : Roster.Inv reading s
  credential : ∀ userID, ∀ listener ∈ s.running userID,
    ∀ l ∈ s.workers listener.listenerID, l.credential = listener.credential
  returned : ∀ id, ∀ l ∈ s.workers id,
    l.completed = true → l.returned = true

theorem inv_empty : Inv .empty :=
  ⟨Roster.inv_empty, fun _ _ h => (nomatch h), fun _ _ h => (nomatch h)⟩

theorem Inv.atMostOne (h : Inv s) : AtMostOne s := by
  rintro userID id id' ⟨l, hl, huser, hcancelled, hreturned⟩
    ⟨l', hl', huser', hcancelled', hreturned'⟩
  have hlive : ∀ {i l}, l ∈ s.workers i → l.cancelled = false →
      l.returned = false → reading.dismissed l = false := by
    intro i l hl hcancelled hreturned
    show (l.cancelled || l.completed) = false
    rw [hcancelled, Bool.false_or, Bool.eq_false_iff]
    intro hc
    rw [h.returned i l hl hc] at hreturned
    cases hreturned
  exact h.roster.unique hl hl' (hlive hl hcancelled hreturned)
    (hlive hl' hcancelled' hreturned') (huser.trans huser'.symm)

/-- A step that drops entries and marks listeners. -/
theorem Inv.marked (h : Inv s) (P : UserID → Prop) [DecidablePred P]
    {f : Nat → LiveListener → LiveListener}
    (hsame : ∀ id l, (f id l).toLiveListenerConnection
      = l.toLiveListenerConnection)
    (hroster : Roster.Inv reading ((s.drop P).mark f))
    (hreturned : ∀ id, ∀ l ∈ s.workers id, (f id l).completed = true →
      (f id l).returned = true) : Inv ((s.drop P).mark f) := by
  refine ⟨hroster, fun userID listener he l hl => ?_, fun id l hl => ?_⟩
  · obtain ⟨l₀, hl₀, rfl⟩ := Roster.mem_mark.mp hl
    change (if P userID then none else s.running userID)
      = some listener at he
    split at he
    case isTrue => cases he
    case isFalse =>
      rw [← h.credential userID listener he l₀ hl₀]
      exact congrArg LiveListenerConnection.credential (hsame _ l₀)
  · obtain ⟨l₀, hl₀, rfl⟩ := Roster.mem_mark.mp hl
    exact hreturned id l₀ hl₀

-- =================================== refresh

theorem Inv.cancelReplaced (h : Inv s)
    (connections : List LiveListenerConnection) :
    Inv (cancelReplaced s connections) := by
  refine h.marked _ (fun id l => ?_) (h.roster.dismiss _ (fun id l _ => ?_)
    fun id l hl => ?_) fun id l hl => ?_
  · split
    case isTrue => rfl
    case isFalse => rfl
  · split
    case isTrue => rfl
    case isFalse => rfl
  · split
    case isTrue hr => exact ⟨fun _ => Or.inr hr, fun _ => rfl⟩
    case isFalse hr =>
      exact ⟨Or.inl, fun hd => hd.resolve_right fun hr' => hr hr'⟩
  · split
    case isTrue => exact h.returned id l hl
    case isFalse => exact h.returned id l hl

/-- A listener starts where none is. -/
theorem Inv.startListener (h : Inv s) (connection : LiveListenerConnection) :
    Inv (startListener s connection) := by
  unfold LiveListenerSupervisor.startListener
  split
  case h_1 => exact h
  case h_2 hfree =>
    refine ⟨h.roster.start hfree rfl rfl rfl,
      fun userID listener he l hl => ?_, fun id l hl => ?_⟩
    · change Function.update s.running _ _ userID = some listener at he
      change Function.update s.workers _ _ _ = some l at hl
      by_cases hu : userID = connection.userID
      · subst hu
        rw [Function.update_self] at he
        cases he
        rw [Function.update_self] at hl
        cases hl
        rfl
      · rw [Function.update_of_ne hu] at he
        obtain ⟨l₀, hl₀, -⟩ := h.roster.entry userID listener he
        have hne : listener.listenerID ≠ s.started := by
          intro hid
          change l₀ ∈ s.workers listener.listenerID at hl₀
          rw [hid, h.roster.fresh s.started (Nat.le_refl _)] at hl₀
          cases hl₀
        rw [Function.update_of_ne hne] at hl
        exact h.credential userID listener he l hl
    · change Function.update s.workers _ _ id = some l at hl
      by_cases hid : id = s.started
      · subst hid
        rw [Function.update_self] at hl
        cases hl
        exact fun hc => (nomatch hc)
      · rw [Function.update_of_ne hid] at hl
        exact h.returned id l hl

theorem Inv.refresh (h : Inv s)
    (connections : Option (List LiveListenerConnection)) :
    Inv (refresh s connections) := by
  cases connections with
  | none => exact h
  | some connections =>
      exact List.foldlRecOn (motive := Inv) connections _
        (h.cancelReplaced connections)
        fun s hs connection _ => hs.startListener connection

-- =============================== completions

/-- A completion that is received finds no entry of another listener with
its user and credential. -/
def Unambiguous (s : LiveListenerSupervisor) (a : LiveListenerAction) :
    Prop :=
  ∀ listenerID, a = .complete listenerID →
    ∀ c ∈ completion s listenerID, ∀ listener ∈ s.running c.userID,
      listener.credential = c.credential →
        listener.listenerID = listenerID

theorem completion_eq_some {id : Nat} {c : LiveListenerConnection}
    (h : completion s id = some c) : ∃ l, s.workers id = some l
      ∧ l.returned = true ∧ l.toLiveListenerConnection = c := by
  unfold completion at h
  obtain ⟨l, hl, h⟩ := Option.bind_eq_some_iff.mp h
  split at h
  case isFalse => cases h
  case isTrue hreturned =>
    cases h
    exact ⟨l, hl, hreturned.1, rfl⟩

/-- The completion of a listener is received. -/
theorem Inv.complete (h : Inv s) {listenerID : Nat}
    (hu : Unambiguous s (.complete listenerID)) :
    Inv (complete s listenerID) := by
  unfold LiveListenerSupervisor.complete
  split
  case h_1 => exact h
  case h_2 c hcompletion =>
    obtain ⟨l, hl, hreturned, rfl⟩ := completion_eq_some hcompletion
    refine h.marked _ (fun id l => ?_) (h.roster.dismiss _ (fun id l _ => ?_)
      fun id l' hl' => ?_) fun id l' hl' => ?_
    · split
      case isTrue => rfl
      case isFalse => rfl
    · split
      case isTrue => rfl
      case isFalse => rfl
    · split
      case isTrue hid =>
        subst hid
        rw [hl] at hl'
        cases hl'
        have hdone : reading.dismissed { l with completed := true }
            = true := Bool.or_true _
        refine ⟨fun _ => ?_, fun _ => hdone⟩
        -- it was dismissed before, or the entry is its own
        by_cases hlive : reading.dismissed l = true
        · exact Or.inl hlive
        · have hcurrent := h.roster.others id l hl
            (Bool.not_eq_true _ ▸ hlive)
          obtain ⟨listener, he, rfl⟩ := Option.map_eq_some_iff.mp hcurrent
          have he : s.running l.userID = some listener := he
          refine Or.inr ⟨⟨rfl, ?_⟩, hcurrent⟩
          show (s.running l.userID).map (·.credential) = some l.credential
          rw [he, h.credential _ listener he l hl]
          rfl
      case isFalse hid =>
        refine ⟨Or.inl, fun hd => hd.resolve_right ?_⟩
        rintro ⟨⟨hkey, hcredential⟩, hcurrent⟩
        obtain ⟨listener, he, hworker⟩ := Option.map_eq_some_iff.mp hcurrent
        rw [he] at hcredential
        rw [hkey] at he
        exact hid (hworker.symm.trans (hu listenerID rfl _ hcompletion
          listener he (Option.some.inj hcredential)))
    · split
      case isTrue hid =>
        subst hid
        rw [hl] at hl'
        cases hl'
        exact fun _ => hreturned
      case isFalse => exact h.returned id l' hl'

/-- A listener returns. -/
theorem Inv.finish (h : Inv s) (listenerID : Nat) :
    Inv (step s (.finish listenerID)) := by
  refine ⟨h.roster.mark (fun id l _ => ?_) fun id l hl => ?_,
    fun userID listener he l hl => ?_, fun id l hl => ?_⟩
  · split
    case isTrue => rfl
    case isFalse => rfl
  · split
    case isTrue => rfl
    case isFalse => rfl
  · obtain ⟨l₀, hl₀, rfl⟩ := Roster.mem_mark.mp hl
    rw [← h.credential userID listener he l₀ hl₀]
    split
    case isTrue => rfl
    case isFalse => rfl
  · obtain ⟨l₀, hl₀, rfl⟩ := Roster.mem_mark.mp hl
    split
    case isTrue => exact fun _ => rfl
    case isFalse => exact h.returned id l₀ hl₀

theorem Inv.step (h : Inv s) (hu : Unambiguous s a) : Inv (step s a) := by
  cases a with
  | refresh connections => exact h.refresh connections
  | finish listenerID => exact h.finish listenerID
  | complete listenerID => exact h.complete hu

/-- A completion keeps the entries of other listeners exactly where it
is unambiguous. -/
theorem keepsNewer_iff : KeepsNewer s a ↔ Unambiguous s a := by
  constructor
  · rintro h listenerID rfl c hcompletion listener he hcredential
    by_contra hne
    have hkept := h listenerID rfl c.userID listener he hne
    change (LiveListenerSupervisor.complete s listenerID).running c.userID
      = some listener at hkept
    unfold LiveListenerSupervisor.complete at hkept
    rw [hcompletion] at hkept
    change (if _ then none else s.running c.userID)
      = some listener at hkept
    rw [if_pos ⟨rfl, by rw [he, ← hcredential]; rfl⟩] at hkept
    cases hkept
  · rintro h listenerID rfl userID listener he hne
    show (LiveListenerSupervisor.complete s listenerID).running userID
      = some listener
    unfold LiveListenerSupervisor.complete
    split
    case h_1 => exact he
    case h_2 c hcompletion =>
      show (if _ then none else s.running userID) = some listener
      rw [if_neg]
      · exact he
      · rintro ⟨rfl, hcredential⟩
        rw [he] at hcredential
        exact hne (h listenerID rfl c hcompletion listener he
          (Option.some.inj hcredential))

-- ====================================== runs

/-- What the supervisor is to guarantee along a run. -/
def Sound (acts : List LiveListenerAction) : Prop :=
  (∀ before after, acts = before ++ after → AtMostOne (run before))
  ∧ Run.Along LiveListenerSupervisor.step KeepsNewer .empty acts

/-- The supervisor keeps one listener for each user, and no completion
deletes the entry of another listener, in exactly those runs in which
every completion that is received is unambiguous. -/
theorem sound_iff_unambiguous (acts : List LiveListenerAction) :
    Sound acts
      ↔ Run.Along LiveListenerSupervisor.step Unambiguous .empty acts := by
  constructor
  · rintro ⟨-, hkeeps⟩
    exact hkeeps.imp fun s a => keepsNewer_iff.mp
  · intro h
    refine ⟨fun before after he => ?_, h.imp fun s a => keepsNewer_iff.mpr⟩
    exact (h.preserves inv_empty (fun s a hs hu => hs.step hu) before after
      he).atMostOne

/-- A credential is replaced and restored while the first listener for
it has still to report that it returned. -/
def restoredRun : List LiveListenerAction :=
  [.refresh (some [⟨1, "c"⟩]), .refresh (some [⟨1, "d"⟩]),
    .refresh (some [⟨1, "c"⟩]), .finish 0, .complete 0,
    .refresh (some [⟨1, "c"⟩])]

/-- The late completion deletes the entry of the restored listener, and
the next refresh starts another beside it. -/
theorem restoredRun_unsound : ¬Sound restoredRun
    ∧ Uncancelled (run restoredRun) 2 1
    ∧ Uncancelled (run restoredRun) 3 1 := by
  have htwo : Uncancelled (run restoredRun) 2 1 :=
    ⟨_, rfl, rfl, rfl, rfl⟩
  have hthree : Uncancelled (run restoredRun) 3 1 :=
    ⟨_, rfl, rfl, rfl, rfl⟩
  refine ⟨fun h => ?_, htwo, hthree⟩
  have hone := h.1 restoredRun [] (List.append_nil _).symm
  exact absurd (hone 1 2 3 htwo hthree) (by decide)

end LiveListenerSupervisor

end StreamBrew.Donations
