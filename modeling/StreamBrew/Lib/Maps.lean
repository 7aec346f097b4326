/-
Maps: tables that are assigned to and deleted from under one key.

`put` is an assignment `m[k] = v` of a value that carries its key, and
`erase` is `delete(m, k)`. A proof about who has an entry follows one
key through `get?_put` and `get?_erase`; a proof that something is
neither lost nor doubled while it moves between maps follows a count
through `count_put` and `count_erase`, or through `countP_modify` where the
values are the entries of a list.
-/
import StreamBrew.Lib.Table

namespace Relational.Table

variable {α κ : Type*} {key : α → κ} [DecidableEq κ]

/-- The map without a key. -/
def erase (t : Table key) (k : κ) : Table key :=
  t.delete fun a => key a = k

/-- The map with a value under its key. -/
def put (t : Table key) (a : α) : Table key where
  rows := a :: (t.erase (key a)).rows
  nodup := by
    rw [List.map_cons, List.nodup_cons]
    refine ⟨fun h => ?_, (t.erase (key a)).nodup⟩
    obtain ⟨b, hb, hkey⟩ := List.mem_map.mp h
    exact (mem_delete.mp (mem_def.mpr hb)).2 hkey

variable {t : Table key} {a b : α} {k : κ}

theorem mem_erase : b ∈ t.erase k ↔ b ∈ t ∧ key b ≠ k := mem_delete

theorem mem_put : b ∈ t.put a ↔ b = a ∨ b ∈ t ∧ key b ≠ key a := by
  rw [← mem_erase]
  exact List.mem_cons

theorem mem_put_self : a ∈ t.put a := mem_put.mpr (Or.inl rfl)

theorem get?_erase (k' : κ) :
    (t.erase k).get? k' = if k' = k then none else t.get? k' := by
  split
  case isTrue h =>
    subst h
    exact get?_eq_none.mpr fun b hb => (mem_erase.mp hb).2
  case isFalse h =>
    cases hg : t.get? k' with
    | none =>
        exact get?_eq_none.mpr fun b hb =>
          get?_eq_none.mp hg b (mem_erase.mp hb).1
    | some b =>
        obtain ⟨hb, rfl⟩ := get?_eq_some.mp hg
        exact get?_eq_some.mpr ⟨mem_erase.mpr ⟨hb, h⟩, rfl⟩

theorem get?_put (k : κ) :
    (t.put a).get? k = if k = key a then some a else t.get? k := by
  split
  case isTrue h => exact get?_eq_some.mpr ⟨mem_put_self, h.symm⟩
  case isFalse h =>
    cases hg : t.get? k with
    | none =>
        refine get?_eq_none.mpr fun b hb => ?_
        rcases mem_put.mp hb with rfl | ⟨hb, -⟩
        · exact fun he => h he.symm
        · exact get?_eq_none.mp hg b hb
    | some b =>
        obtain ⟨hb, rfl⟩ := get?_eq_some.mp hg
        exact get?_eq_some.mpr ⟨mem_put.mpr (Or.inr ⟨hb, h⟩), rfl⟩

/-- A key that is not there. -/
theorem erase_eq_self (h : t.get? k = none) : t.erase k = t :=
  delete_eq_self fun b hb => get?_eq_none.mp h b hb

-- ==================================== counts

variable {p : α → Prop} [DecidablePred p]

/-- The value under a key, and all others. -/
theorem count_erase (ha : a ∈ t) :
    (t.erase (key a)).count p + (if p a then 1 else 0) = t.count p := by
  obtain ⟨before, after, hrows⟩ := List.append_of_mem (mem_def.mp ha)
  have hnodup : (before ++ a :: after).map key
      = before.map key ++ key a :: after.map key := by simp
  have hkeys := t.nodup
  rw [hrows, hnodup, List.nodup_middle, List.nodup_cons,
    List.mem_append, not_or] at hkeys
  have hfilter : ∀ l : List α, key a ∉ l.map key →
      (l.filter fun b => !decide (key b = key a)) = l := by
    intro l hl
    refine List.filter_eq_self.mpr fun b hb => ?_
    have hne : key b ≠ key a :=
      fun he => hl (List.mem_map.mpr ⟨b, hb, he⟩)
    simpa using hne
  have herase : (t.erase (key a)).rows = before ++ after := by
    show t.rows.filter _ = _
    rw [hrows, List.filter_append, hfilter before hkeys.1.1,
      List.filter_cons_of_neg (by simp), hfilter after hkeys.1.2]
  unfold count
  rw [herase, hrows, List.countP_append, List.countP_append,
    List.countP_cons]
  simp only [decide_eq_true_eq]
  omega

/-- A new value under a key. -/
theorem count_put :
    (t.put a).count p
      = (t.erase (key a)).count p + (if p a then 1 else 0) := by
  unfold count put
  rw [List.countP_cons]
  simp only [decide_eq_true_eq]

/-- A value in place of another. -/
theorem count_replace (ha : a ∈ t) (hk : key b = key a) :
    (t.put b).count p + (if p a then 1 else 0)
      = t.count p + (if p b then 1 else 0) := by
  have herase := count_erase (p := p) ha
  rw [count_put, hk]
  omega

/-- A value under a key that was free. -/
theorem count_put_free (h : t.get? (key a) = none) :
    (t.put a).count p = t.count p + (if p a then 1 else 0) := by
  rw [count_put, erase_eq_self h]

/-- A condition that is met once is met by one value only. -/
theorem eq_of_count_le_one (h : t.count p ≤ 1) (ha : a ∈ t) (hb : b ∈ t)
    (hpa : p a) (hpb : p b) : a = b := by
  by_contra hne
  have hkey : key b ≠ key a := fun he => hne (eq_of_key hb ha he).symm
  have herase := count_erase (p := p) ha
  have hpos : 0 < (t.erase (key a)).count p :=
    count_pos (mem_erase.mpr ⟨hb, hkey⟩) hpb
  rw [if_pos hpa] at herase
  omega

omit [DecidableEq κ] in
theorem exists_of_count_pos (h : 0 < t.count p) : ∃ a ∈ t, p a := by
  by_contra hnone
  have hzero : t.count p = 0 :=
    count_eq_zero.mpr fun a ha hp => hnone ⟨a, ha, hp⟩
  omega

end Relational.Table

namespace Relational

/-- One entry of a list is replaced. -/
theorem countP_modify {α : Type*} {p : α → Bool} {f : α → α} {l : List α}
    {i : Nat} {a : α} (h : l[i]? = some a) :
    (l.modify i f).countP p + (if p a then 1 else 0)
      = l.countP p + if p (f a) then 1 else 0 := by
  induction l generalizing i with
  | nil => cases h
  | cons b l ih =>
      cases i with
      | zero =>
          cases h
          rw [List.modify_zero_cons, List.countP_cons, List.countP_cons]
          omega
      | succ i =>
          rw [List.modify_succ_cons, List.countP_cons, List.countP_cons]
          have := ih h
          omega

end Relational
