/-
A key of a compare-and-set store.

Every write of the store takes the next revision, and a conditional
write names the revision that it expects to be the key's last. A deleted
key keeps a marker as its last record; a record that has become too old
is forgotten, and the key is as if it had never been written.

# Stale revisions

A revision that was once the last of its key and no longer is never
becomes it again (`Stale.put`, `Stale.expire`): the store refuses the
updates and deletions of whoever holds it.
-/
import Mathlib.Data.Option.Basic

namespace Revisions

variable {β : Type*}

/-- The last record of a key: a value, or the marker of a deletion. -/
structure Record (β : Type*) where
  revision : Nat
  value : Option β
  deriving Repr

/-- A key, and the last revision that the store has given to any key. -/
structure Entry (β : Type*) where
  latest : Option (Record β)
  revision : Nat
  bounded : ∀ record ∈ latest,
    0 < record.revision ∧ record.revision ≤ revision

namespace Entry

variable {e e' : Entry β} {r : Nat}

/-- A key that was never written. -/
def empty : Entry β where
  latest := none
  revision := 0
  bounded := fun _ h => nomatch h

/-- The revision of the last record, zero without one. -/
def last (e : Entry β) : Nat := e.latest.elim 0 Record.revision

/-- A write takes the next revision. -/
def put (value : Option β) (e : Entry β) : Entry β where
  latest := some { revision := e.revision + 1, value }
  revision := e.revision + 1
  bounded := by
    rintro _ ⟨⟩
    exact ⟨Nat.succ_pos _, Nat.le_refl _⟩

/-- Writes where there is no value. -/
def create (value : β) (e : Entry β) : Option (Entry β) :=
  if (e.latest.bind Record.value).isSome then none
  else some (e.put (some value))

/-- Writes if the expected revision is the last. -/
def update (value : β) (expected : Nat) (e : Entry β) : Option (Entry β) :=
  if e.last = expected then some (e.put (some value)) else none

/-- Leaves a marker if the expected revision is the last; zero expects
nothing. -/
def delete (expected : Nat) (e : Entry β) : Option (Entry β) :=
  if expected ≠ 0 ∧ e.last ≠ expected then none else some (e.put none)

/-- The last record is too old. -/
def expire (e : Entry β) : Entry β where
  latest := none
  revision := e.revision
  bounded := fun _ h => nomatch h

/-- Another key is written. -/
def elsewhere (e : Entry β) : Entry β where
  latest := e.latest
  revision := e.revision + 1
  bounded := fun record h => ⟨(e.bounded record h).1,
    Nat.le_succ_of_le (e.bounded record h).2⟩

@[simp] theorem revision_put (value : Option β) :
    (e.put value).revision = e.revision + 1 := rfl

@[simp] theorem last_put (value : Option β) :
    (e.put value).last = e.revision + 1 := rfl

@[simp] theorem revision_expire : e.expire.revision = e.revision := rfl

@[simp] theorem last_expire : e.expire.last = 0 := rfl

@[simp] theorem revision_elsewhere :
    e.elsewhere.revision = e.revision + 1 := rfl

@[simp] theorem last_elsewhere : e.elsewhere.last = e.last := rfl

theorem create_eq_some {value : β} (h : e.create value = some e') :
    e' = e.put (some value) := by
  unfold create at h
  split at h
  case isTrue => cases h
  case isFalse => exact (Option.some.inj h).symm

theorem update_eq_some {value : β} (h : e.update value r = some e') :
    e.last = r ∧ e' = e.put (some value) := by
  unfold update at h
  split at h
  case isTrue hlast => exact ⟨hlast, (Option.some.inj h).symm⟩
  case isFalse => cases h

theorem delete_eq_some (h : e.delete r = some e') (hr : 0 < r) :
    e.last = r ∧ e' = e.put none := by
  unfold delete at h
  split at h
  case isTrue => cases h
  case isFalse hguard =>
    refine ⟨?_, (Option.some.inj h).symm⟩
    by_contra hlast
    exact hguard ⟨Nat.ne_of_gt hr, hlast⟩

/-- The revision was given out, and is not the last of the key. -/
structure Stale (r : Nat) (e : Entry β) : Prop where
  given : r ≤ e.revision
  last : e.last ≠ r

theorem Stale.put (h : e.Stale r) (value : Option β) :
    (e.put value).Stale r where
  given := Nat.le_succ_of_le h.given
  last := Nat.ne_of_gt (Nat.lt_succ_of_le h.given)

theorem Stale.expire (h : e.Stale r) (hr : 0 < r) : e.expire.Stale r where
  given := h.given
  last := Nat.ne_of_lt hr

theorem Stale.elsewhere (h : e.Stale r) : e.elsewhere.Stale r where
  given := Nat.le_succ_of_le h.given
  last := h.last

end Entry

end Revisions
