/-
Tables whose rows are registers: the row under a key, or its absence,
is a register, and each statement of a transaction takes one step of
every register of the table.

A row shows its generation through `stamp`. A statement keeps to the
register discipline if it leaves the generation of a row alone or
advances it; inserts fill a register and deletes clear it.
-/
import StreamBrew.Lib.Generation
import StreamBrew.Lib.Table

namespace Generation

open Relational

variable {α κ ε β : Type*} {key : α → κ} [DecidableEq κ]
  {stamp : α → Stamped ε β} {t t' : Table key}

/-- The register under a key. -/
def register (stamp : α → Stamped ε β) (t : Table key) (k : κ) :
    Option (Stamped ε β) :=
  (t.get? k).map stamp

/-- One step of the register under a key. -/
def Renews (stamp : α → Stamped ε β) (k : κ) (t t' : Table key) : Prop :=
  Step (drawn (register stamp t k) (register stamp t' k))
    (register stamp t k) (register stamp t' k)

theorem Renews.refl (k : κ) (t : Table key) : Renews stamp k t t :=
  Step.refl _

/-- What may become of a row that a statement writes. -/
def Advances (g g' : Stamped ε β) : Prop :=
  g' = g ∨ ∃ content, g' = ⟨g.epoch, g.version + 1, content⟩

/-- An update that leaves generations alone, or advances them. -/
theorem Renews.update {p : α → Prop} [DecidablePred p] {f : α → α}
    {hf : ∀ a, key (f a) = key a} {k : κ}
    (h : ∀ a ∈ t, p a → Advances (stamp a) (stamp (f a))) :
    Renews stamp k t (t.update p f hf) := by
  unfold Renews register
  rw [Table.get?_update]
  cases ha : t.get? k with
  | none => exact .refl none
  | some a =>
      rw [Option.map_some, Option.map_some, Option.map_some]
      by_cases hp : p a
      · rw [if_pos hp]
        rcases h a (Table.mem_of_get? ha) hp with heq | ⟨content, heq⟩
        · rw [heq]
          exact .refl _
        · rw [heq]
          exact .advance (stamp a) content
      · rw [if_neg hp]
        exact .refl _

theorem Renews.delete {p : α → Prop} [DecidablePred p] {k : κ} :
    Renews stamp k t (t.delete p) := by
  unfold Renews register
  rw [Table.get?_delete]
  cases ha : t.get? k with
  | none => exact .refl none
  | some a =>
      rw [Option.filter_some]
      by_cases hp : p a
      · rw [if_neg (by simpa using hp)]
        exact .clear _
      · rw [if_pos (by simpa using hp)]
        exact .refl _

/-- An upsert fills the register, or advances it. -/
theorem Renews.upsert {a : α} {merge : α → α}
    {hm : ∀ b, key (merge b) = key b} {k : κ}
    (h : ∀ b, ∃ content, stamp (merge b)
      = ⟨(stamp b).epoch, (stamp b).version + 1, content⟩) :
    Renews stamp k t (t.upsert a merge hm) := by
  unfold Renews register
  rw [Table.get?_upsert]
  by_cases hkey : key a = k
  · rw [if_pos hkey, Option.map_some]
    cases t.get? k with
    | none => exact .fill _
    | some b =>
        rw [Option.map_some, Option.map_some, Option.getD_some]
        obtain ⟨content, heq⟩ := h b
        rw [heq]
        exact .advance (stamp b) content
  · rw [if_neg hkey]
    exact .refl _

end Generation
