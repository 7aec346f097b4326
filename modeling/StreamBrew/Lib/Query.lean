/-
Queries over the rows of tables: what a SELECT with an ORDER BY returns,
whatever the order in which the rows lie in the table.

Rows are ordered by a key (`orderBy`). Where the key tells the selected
rows apart, the result depends on which rows were selected and not on
their order (`orderBy_congr`). Which rows were selected is decided key by
key (`perm_of_get?`): two tables whose rows, seen through a condition and
a projection, are the same under every key give the same selection.
-/
import StreamBrew.Lib.Table
import Mathlib.Data.Prod.Lex

namespace Relational

variable {α β γ κ : Type*}

/-- `ORDER BY`. -/
def orderBy [LinearOrder β] (order : α → β) (rows : List α) : List α :=
  rows.mergeSort fun a b => order a ≤ order b

section

variable [LinearOrder β] {order : α → β} {l l' : List α}

theorem orderBy_perm : (orderBy order l).Perm l := List.mergeSort_perm ..

variable (order) in
/-- A projection that does not see what is ordered by. -/
theorem map_orderBy {f : α → γ} {order' : γ → β}
    (h : ∀ a, order' (f a) = order a) :
    (orderBy order l).map f = orderBy order' (l.map f) := by
  refine List.map_mergeSort fun a _ b _ => ?_
  rw [h, h]

theorem mem_orderBy {a : α} : a ∈ orderBy order l ↔ a ∈ l :=
  orderBy_perm.mem_iff

theorem pairwise_orderBy :
    (orderBy order l).Pairwise fun a b => order a ≤ order b := by
  have h : (orderBy order l).Pairwise fun a b =>
      decide (order a ≤ order b) = true := by
    refine List.pairwise_mergeSort (fun a b c hab hbc => ?_) (fun a b => ?_) l
    · simp only [decide_eq_true_eq] at hab hbc ⊢
      exact le_trans hab hbc
    · simp only [Bool.or_eq_true, decide_eq_true_eq]
      exact le_total _ _
  exact h.imp fun h => by simpa using h

variable (order) in
/-- The same rows in another order. -/
theorem orderBy_congr (h : l.Perm l')
    (hkey : ∀ a ∈ l, ∀ b ∈ l, order a = order b → a = b) :
    orderBy order l = orderBy order l' := by
  refine List.Perm.eq_of_pairwise (fun a b ha hb hab hba => ?_)
    pairwise_orderBy pairwise_orderBy
    (orderBy_perm.trans (h.trans orderBy_perm.symm))
  exact hkey a (mem_orderBy.mp ha) b (h.mem_iff.mpr (mem_orderBy.mp hb))
    (le_antisymm hab hba)

end

/-- Two tables that look the same under every key. -/
theorem Table.perm_of_get? [DecidableEq κ] {key : α → κ} {t t' : Table key}
    {p p' : α → Bool} {f : α → γ} (key' : γ → κ)
    (hkey : ∀ a, key' (f a) = key a)
    (h : ∀ k, ((t.get? k).filter p).map f = ((t'.get? k).filter p').map f) :
    ((t.rows.filter p).map f).Perm ((t'.rows.filter p').map f) := by
  have hnodup : ∀ (t : Table key) (p : α → Bool),
      ((t.rows.filter p).map f).Nodup := by
    intro t p
    refine List.Nodup.of_map key' ?_
    rw [List.map_map, show key' ∘ f = key from funext hkey]
    exact t.nodup.sublist (List.filter_sublist.map key)
  have hmem : ∀ (t : Table key) (p : α → Bool) (c : γ),
      c ∈ (t.rows.filter p).map f ↔
        ((t.get? (key' c)).filter p).map f = some c := by
    intro t p c
    rw [List.mem_map, Option.map_eq_some_iff]
    constructor
    · rintro ⟨a, ha, rfl⟩
      obtain ⟨hmem, hp⟩ := List.mem_filter.mp ha
      refine ⟨a, ?_, rfl⟩
      rw [hkey, Option.filter_eq_some_iff]
      exact ⟨get?_key (mem_def.mpr hmem), hp⟩
    · rintro ⟨a, ha, rfl⟩
      obtain ⟨hget, hp⟩ := Option.filter_eq_some_iff.mp ha
      exact ⟨a, List.mem_filter.mpr ⟨mem_def.mp (mem_of_get? hget), hp⟩, rfl⟩
  rw [List.perm_ext_iff_of_nodup (hnodup t p) (hnodup t' p')]
  intro c
  rw [hmem, hmem, h]

end Relational
