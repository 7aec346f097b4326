/-
Supervisors that keep one worker for each key.

# The roster

Workers are numbered as they are started and each serves one key.
`running` is the supervisor's map from keys to entries, an entry names
its worker. A worker is dismissed by a mark on it: it was cancelled, or
the supervisor has learned that it ended.

# The rule

An entry is dropped together with the dismissal of its worker and no
other, and a worker is started only for a key without an entry. Then the
entries are exactly the workers that are not dismissed (`Inv`), so a key
never has two of them (`Inv.unique`).
-/
import Mathlib.Logic.Function.Basic

namespace Supervisor

/-- The entries by key, and all workers that were ever started. -/
structure Roster (κ ε τ : Type*) where
  running : κ → Option ε
  workers : Nat → Option τ
  started : Nat

/-- How entries and workers are read. -/
structure Reading (κ ε τ : Type*) where
  worker : ε → Nat
  key : τ → κ
  dismissed : τ → Bool

namespace Roster

variable {κ ε τ : Type*}

/-- Nobody works. -/
def empty : Roster κ ε τ where
  running := fun _ => none
  workers := fun _ => none
  started := 0

/-- Entries of some keys go. -/
def drop (r : Roster κ ε τ) (P : κ → Prop) [DecidablePred P] :
    Roster κ ε τ :=
  { r with running := fun k => if P k then none else r.running k }

/-- Something happens to workers. -/
def mark (r : Roster κ ε τ) (f : Nat → τ → τ) : Roster κ ε τ :=
  { r with workers := fun i => (r.workers i).map (f i) }

/-- Start a worker; the entry is told its number. -/
def start [DecidableEq κ] (r : Roster κ ε τ) (k : κ) (entry : Nat → ε)
    (worker : τ) : Roster κ ε τ where
  running := Function.update r.running k (some (entry r.started))
  workers := Function.update r.workers r.started (some worker)
  started := r.started + 1

/-- The worker that the entry of a key names. -/
def current (v : Reading κ ε τ) (r : Roster κ ε τ) (k : κ) : Option Nat :=
  (r.running k).map v.worker

/-- The keys of workers that are not dismissed. -/
def keys (v : Reading κ ε τ) (r : Roster κ ε τ) : List κ :=
  (List.range r.started).filterMap fun i =>
    ((r.workers i).filter fun t => !v.dismissed t).map v.key

variable {v : Reading κ ε τ} {r : Roster κ ε τ}

/-- Entries and workers that are not dismissed belong to each other. -/
structure Inv (v : Reading κ ε τ) (r : Roster κ ε τ) : Prop where
  /-- An entry names a worker of its key that is not dismissed. -/
  entry : ∀ k, ∀ e ∈ r.running k,
    ∃ t ∈ r.workers (v.worker e), v.key t = k ∧ v.dismissed t = false
  /-- Every other worker is dismissed. -/
  others : ∀ i, ∀ t ∈ r.workers i, v.dismissed t = false →
    r.current v (v.key t) = some i
  fresh : ∀ i, r.started ≤ i → r.workers i = none

theorem Inv.unique (h : r.Inv v) {i i' : Nat} {t t' : τ}
    (ht : t ∈ r.workers i) (ht' : t' ∈ r.workers i')
    (hlive : v.dismissed t = false) (hlive' : v.dismissed t' = false)
    (hkey : v.key t = v.key t') : i = i' := by
  have hi := h.others i t ht hlive
  rw [hkey, h.others i' t' ht' hlive'] at hi
  exact (Option.some.inj hi).symm

/-- The keys are those that have an entry. -/
theorem Inv.mem_keys (h : r.Inv v) {k : κ} {e : ε}
    (he : e ∈ r.running k) : k ∈ r.keys v := by
  obtain ⟨t, ht, hkey, hlive⟩ := h.entry k e he
  unfold keys
  rw [List.mem_filterMap]
  refine ⟨v.worker e, List.mem_range.mpr ?_, ?_⟩
  · by_contra hge
    rw [h.fresh _ (Nat.not_lt.mp hge)] at ht
    cases ht
  · rw [Option.mem_def.mp ht, Option.filter_some, hlive, Bool.not_false,
      if_pos rfl, Option.map_some, hkey]

theorem inv_empty : (empty : Roster κ ε τ).Inv v :=
  ⟨fun _ _ h => (nomatch h), fun _ _ h => (nomatch h), fun _ _ => rfl⟩

theorem mem_mark {f : Nat → τ → τ} {i : Nat} {t : τ} :
    t ∈ (r.mark f).workers i ↔ ∃ t₀ ∈ r.workers i, f i t₀ = t := by
  show (r.workers i).map (f i) = some t ↔ _
  exact Option.map_eq_some_iff

/-- Drop entries and dismiss their workers. -/
theorem Inv.dismiss (h : r.Inv v) (P : κ → Prop) [DecidablePred P]
    {f : Nat → τ → τ}
    (hkey : ∀ i, ∀ t ∈ r.workers i, v.key (f i t) = v.key t)
    (hdismissed : ∀ i, ∀ t ∈ r.workers i, v.dismissed (f i t) = true ↔
      v.dismissed t = true
        ∨ P (v.key t) ∧ r.current v (v.key t) = some i) :
    ((r.drop P).mark f).Inv v := by
  have hkept : ∀ k e, e ∈ ((r.drop P).mark f).running k ↔
      ¬P k ∧ e ∈ r.running k := by
    intro k e
    show (if P k then none else r.running k) = some e ↔ _
    split
    case isTrue hp => exact ⟨fun h => (nomatch h), fun h => absurd hp h.1⟩
    case isFalse hp => exact ⟨fun h => ⟨hp, h⟩, And.right⟩
  refine ⟨fun k e he => ?_, fun i t ht hlive => ?_, fun i hi => ?_⟩
  · obtain ⟨hp, he⟩ := (hkept k e).mp he
    obtain ⟨t, ht, rfl, hlive⟩ := h.entry k e he
    refine ⟨f (v.worker e) t, mem_mark.mpr ⟨t, ht, rfl⟩, hkey _ t ht, ?_⟩
    rw [Bool.eq_false_iff]
    intro hd
    rcases (hdismissed _ t ht).mp hd with hd | ⟨hp', -⟩
    · rw [hlive] at hd
      cases hd
    · exact hp hp'
  · obtain ⟨t₀, ht₀, rfl⟩ := mem_mark.mp ht
    have hlive₀ : v.dismissed t₀ = false := by
      rw [Bool.eq_false_iff]
      intro hd
      rw [(hdismissed i t₀ ht₀).mpr (Or.inl hd)] at hlive
      cases hlive
    have hcurrent := h.others i t₀ ht₀ hlive₀
    rw [hkey i t₀ ht₀]
    obtain ⟨e, he, hi⟩ := Option.map_eq_some_iff.mp hcurrent
    refine Option.map_eq_some_iff.mpr ⟨e, (hkept _ e).mpr ⟨?_, he⟩, hi⟩
    intro hp
    rw [(hdismissed i t₀ ht₀).mpr (Or.inr ⟨hp, hcurrent⟩)] at hlive
    cases hlive
  · show (r.workers i).map (f i) = none
    rw [h.fresh i hi]
    rfl

/-- A mark that dismisses nobody. -/
theorem Inv.mark (h : r.Inv v) {f : Nat → τ → τ}
    (hkey : ∀ i, ∀ t ∈ r.workers i, v.key (f i t) = v.key t)
    (hdismissed : ∀ i, ∀ t ∈ r.workers i,
      v.dismissed (f i t) = v.dismissed t) : (r.mark f).Inv v := by
  have hdrop : r.drop (fun _ => False) = r := by
    unfold drop
    simp only [if_false]
  have hinv := h.dismiss (fun _ => False) hkey fun i t ht => by
    rw [hdismissed i t ht, false_and, or_false]
  rwa [hdrop] at hinv

/-- A worker starts where there is none. -/
theorem Inv.start [DecidableEq κ] (h : r.Inv v) {k : κ}
    {entry : Nat → ε} {t : τ} (hfree : r.running k = none)
    (hworker : v.worker (entry r.started) = r.started)
    (hkey : v.key t = k) (hlive : v.dismissed t = false) :
    (r.start k entry t).Inv v := by
  have hold : ∀ i, ∀ t' ∈ r.workers i, i ≠ r.started := by
    rintro i t' ht' rfl
    rw [h.fresh r.started (Nat.le_refl _)] at ht'
    cases ht'
  refine ⟨fun k' e he => ?_, fun i t' ht' hlive' => ?_, fun i hi => ?_⟩
  · change Function.update r.running _ _ k' = some e at he
    show ∃ t' ∈ Function.update r.workers _ _ _, _
    by_cases hk : k' = k
    · subst hk
      rw [Function.update_self] at he
      cases he
      rw [hworker, Function.update_self]
      exact ⟨t, rfl, hkey, hlive⟩
    · rw [Function.update_of_ne hk] at he
      obtain ⟨t', ht', hrest⟩ := h.entry k' e he
      rw [Function.update_of_ne (hold _ t' ht')]
      exact ⟨t', ht', hrest⟩
  · change Function.update r.workers _ _ i = some t' at ht'
    show (Function.update r.running _ _ _).map _ = _
    by_cases hi : i = r.started
    · subst hi
      rw [Function.update_self] at ht'
      cases ht'
      rw [hkey, Function.update_self]
      exact congrArg some hworker
    · rw [Function.update_of_ne hi] at ht'
      have hcurrent := h.others i t' ht' hlive'
      have hne : v.key t' ≠ k := by
        intro he
        rw [he] at hcurrent
        unfold current at hcurrent
        rw [hfree] at hcurrent
        cases hcurrent
      rw [Function.update_of_ne hne]
      exact hcurrent
  · have hi : r.started + 1 ≤ i := hi
    show Function.update r.workers _ _ i = none
    rw [Function.update_of_ne (by omega)]
    exact h.fresh i (by omega)

end Roster

end Supervisor
