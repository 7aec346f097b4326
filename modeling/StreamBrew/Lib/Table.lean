/-
Keyed tables: the rows of a relation with one unique key, and the four
statements a transaction is made of (UPDATE, DELETE, INSERT and INSERT
.. ON CONFLICT DO UPDATE).

# The point of view

A table is a list of rows whose keys are pairwise distinct, with the
distinctness carried as a field, so no statement can build a table
that breaks its key. Read through its key it is a partial function
`get?`, and every statement has one equation through `get?`: an
update maps the row under each key, a delete filters it, an insert
adds exactly one. A proof about a transaction follows one key through
these equations and never looks at the list.

# Ranks

`rank` is the number of rows ahead of a row in a descending order:
`row_number() - 1`, and the position `OFFSET` compares with. At most
`n` rows of a table have rank below `n` (`count_rank_lt`), which is
all that a trim to the newest `n` rows relies on.
-/
import Mathlib.Data.List.MinMax
import Mathlib.Data.List.Sort
import Mathlib.Data.List.Nodup
import Mathlib.Data.List.Count
import Mathlib.Tactic

namespace Relational

variable {α κ : Type*} {key : α → κ}

/-- Rows with pairwise distinct keys. -/
structure Table {α κ : Type*} (key : α → κ) where
  rows : List α
  nodup : (rows.map key).Nodup

namespace Table

instance : Membership α (Table key) := ⟨fun t a => a ∈ t.rows⟩

theorem mem_def {t : Table key} {a : α} : a ∈ t ↔ a ∈ t.rows := Iff.rfl

-- ================================ statements

/-- The table with no rows. -/
def empty : Table key := ⟨[], by simp⟩

/-- Assignments that leave the key columns alone, where that is seen by
computing. -/
theorem keeps {f : α → α} (h : (fun a => key (f a)) = key) (a : α) :
    key (f a) = key a := congrFun h a

/-- `UPDATE .. SET f WHERE p`; the assignments leave the key alone. -/
def update (t : Table key) (p : α → Prop) [DecidablePred p] (f : α → α)
    (hf : ∀ a, key (f a) = key a) : Table key where
  rows := t.rows.map fun a => if p a then f a else a
  nodup := by
    have hkey : (t.rows.map fun a => if p a then f a else a).map key
        = t.rows.map key := by
      rw [List.map_map]
      refine List.map_congr_left fun a _ => ?_
      by_cases h : p a <;> simp [h, hf]
    rw [hkey]
    exact t.nodup

/-- `DELETE .. WHERE p`. -/
def delete (t : Table key) (p : α → Prop) [DecidablePred p] :
    Table key where
  rows := t.rows.filter fun a => !decide (p a)
  nodup := t.nodup.sublist (List.filter_sublist.map key)

/-- The first row that satisfies a condition. -/
def find? (t : Table key) (p : α → Prop) [DecidablePred p] : Option α :=
  t.rows.find? fun a => p a

/-- `SELECT count(*) .. WHERE p`. -/
def count (t : Table key) (p : α → Prop) [DecidablePred p] : Nat :=
  t.rows.countP fun a => p a

/-- `SELECT EXISTS (SELECT 1 .. WHERE p)`. -/
def Exists (t : Table key) (p : α → Prop) : Prop := ∃ a ∈ t.rows, p a

instance (t : Table key) (p : α → Prop) [DecidablePred p] :
    Decidable (t.Exists p) :=
  inferInstanceAs (Decidable (∃ a ∈ t.rows, p a))

/-- `SELECT .. WHERE p ORDER BY order LIMIT 1`. -/
def first {β : Type*} [LinearOrder β] (t : Table key) (p : α → Prop)
    [DecidablePred p] (order : α → β) : Option α :=
  (t.rows.filter fun a => p a).argmin order

variable [DecidableEq κ]

/-- The row under a key. -/
def get? (t : Table key) (k : κ) : Option α :=
  t.rows.find? fun a => key a = k

/-- `INSERT`; refused when the key is taken. -/
def insert? (t : Table key) (a : α) : Option (Table key) :=
  if h : key a ∈ t.rows.map key then none
  else some
    { rows := t.rows ++ [a]
      nodup := by
        rw [List.map_append]
        refine List.Nodup.append t.nodup (by simp) ?_
        simpa using h }

/-- `INSERT .. ON CONFLICT (key) DO NOTHING`. -/
def insertOrIgnore (t : Table key) (a : α) : Table key :=
  (t.insert? a).getD t

/-- `INSERT .. ON CONFLICT (key) DO UPDATE SET merge`. -/
def upsert (t : Table key) (a : α) (merge : α → α)
    (hm : ∀ b, key (merge b) = key b) : Table key :=
  (t.insert? a).getD (t.update (fun b => key b = key a) merge hm)

-- ================= the table through its key

omit [DecidableEq κ] in
/-- Rows of one table with one key are one row. -/
theorem eq_of_key {t : Table key} {a b : α} (ha : a ∈ t) (hb : b ∈ t)
    (h : key a = key b) : a = b :=
  List.inj_on_of_nodup_map t.nodup ha hb h

theorem get?_eq_some {t : Table key} {k : κ} {a : α} :
    t.get? k = some a ↔ a ∈ t ∧ key a = k := by
  constructor
  · intro h
    exact ⟨List.mem_of_find?_eq_some h, by simpa using List.find?_some h⟩
  · rintro ⟨ha, rfl⟩
    cases hf : t.get? (key a) with
    | none =>
        have := List.find?_eq_none.mp hf a ha
        simp at this
    | some b =>
        have hb : b ∈ t := List.mem_of_find?_eq_some hf
        have hk : key b = key a := by simpa using List.find?_some hf
        rw [eq_of_key hb ha hk]

theorem get?_eq_none {t : Table key} {k : κ} :
    t.get? k = none ↔ ∀ a ∈ t, key a ≠ k := by
  unfold get?
  rw [List.find?_eq_none]
  simp [mem_def]

/-- A row is found under its own key. -/
theorem get?_key {t : Table key} {a : α} (ha : a ∈ t) :
    t.get? (key a) = some a :=
  get?_eq_some.mpr ⟨ha, rfl⟩

theorem mem_of_get? {t : Table key} {k : κ} {a : α}
    (h : t.get? k = some a) : a ∈ t := (get?_eq_some.mp h).1

theorem key_of_get? {t : Table key} {k : κ} {a : α}
    (h : t.get? k = some a) : key a = k := (get?_eq_some.mp h).2

omit [DecidableEq κ] in
@[simp] theorem not_mem_empty {a : α} : a ∉ (empty : Table key) := by
  simp [mem_def, empty]

@[simp] theorem get?_empty (k : κ) : (empty : Table key).get? k = none := rfl

-- ---------------------------------------------------------- UPDATE

section Update

variable {t : Table key} {p : α → Prop} [DecidablePred p] {f : α → α}
  {hf : ∀ a, key (f a) = key a}

omit [DecidableEq κ] in
theorem mem_update {b : α} :
    b ∈ t.update p f hf ↔ ∃ a ∈ t, (if p a then f a else a) = b :=
  List.mem_map

theorem get?_update (k : κ) :
    (t.update p f hf).get? k
      = (t.get? k).map fun a => if p a then f a else a := by
  cases hg : t.get? k with
  | none =>
      rw [Option.map_none, get?_eq_none]
      intro b hb
      obtain ⟨a, ha, rfl⟩ := mem_update.mp hb
      have hk := get?_eq_none.mp hg a ha
      by_cases h : p a
      · simpa [h, hf] using hk
      · simpa [h] using hk
  | some a =>
      obtain ⟨ha, rfl⟩ := get?_eq_some.mp hg
      rw [Option.map_some, get?_eq_some]
      refine ⟨mem_update.mpr ⟨a, ha, rfl⟩, ?_⟩
      by_cases h : p a <;> simp [h, hf]

omit [DecidableEq κ] in
/-- An update whose condition no row meets changes nothing. -/
theorem update_eq_self (h : ∀ a ∈ t, ¬ p a) : t.update p f hf = t := by
  have hrows : (t.update p f hf).rows = t.rows := by
    unfold update
    refine (List.map_congr_left fun a ha => ?_).trans (List.map_id' _)
    simp [h a ha]
  cases t
  cases h' : Table.update _ p f hf
  rw [h'] at hrows
  cases hrows
  rfl

omit [DecidableEq κ] in
/-- An update of other columns than those of a condition. -/
theorem exists_update {q : α → Prop} (hq : ∀ a, q (f a) ↔ q a) :
    (t.update p f hf).Exists q ↔ t.Exists q := by
  constructor
  · rintro ⟨b, hb, hqb⟩
    obtain ⟨a, ha, rfl⟩ := mem_update.mp hb
    refine ⟨a, ha, ?_⟩
    by_cases h : p a
    · rw [if_pos h, hq] at hqb
      exact hqb
    · rw [if_neg h] at hqb
      exact hqb
  · rintro ⟨a, ha, hqa⟩
    refine ⟨_, mem_update.mpr ⟨a, ha, rfl⟩, ?_⟩
    by_cases h : p a
    · rw [if_pos h, hq]
      exact hqa
    · rw [if_neg h]
      exact hqa

omit [DecidableEq κ] in
/-- Counting after an update is counting the updated rows. -/
theorem count_update (q : α → Prop) [DecidablePred q] :
    (t.update p f hf).count q
      = t.count fun a => q (if p a then f a else a) := by
  unfold count update
  rw [List.countP_map]
  rfl

end Update

-- ---------------------------------------------------------- DELETE

section Delete

variable {t : Table key} {p : α → Prop} [DecidablePred p]

omit [DecidableEq κ] in
theorem mem_delete {a : α} : a ∈ t.delete p ↔ a ∈ t ∧ ¬ p a := by
  simp [mem_def, delete]

omit [DecidableEq κ] in
/-- A delete whose condition no row meets changes nothing. -/
theorem delete_eq_self (h : ∀ a ∈ t, ¬ p a) : t.delete p = t := by
  have hrows : (t.delete p).rows = t.rows :=
    List.filter_eq_self.mpr fun a ha => by simp [h a ha]
  cases t
  cases h' : Table.delete _ p
  rw [h'] at hrows
  cases hrows
  rfl

/-- A delete takes away the rows that it selects, under every key. -/
theorem get?_delete (k : κ) :
    (t.delete p).get? k = (t.get? k).filter fun a => ¬ p a := by
  cases hg : t.get? k with
  | none =>
      rw [Option.filter_none, get?_eq_none]
      intro b hb
      exact get?_eq_none.mp hg b (mem_delete.mp hb).1
  | some a =>
      obtain ⟨ha, rfl⟩ := get?_eq_some.mp hg
      by_cases h : p a
      · rw [Option.filter_some, if_neg (by simpa using h), get?_eq_none]
        intro b hb hk
        obtain ⟨hb, hnb⟩ := mem_delete.mp hb
        exact hnb (eq_of_key hb ha hk ▸ h)
      · rw [Option.filter_some, if_pos (by simpa using h), get?_eq_some]
        exact ⟨mem_delete.mpr ⟨ha, h⟩, rfl⟩

end Delete

-- ---------------------------------------------------------- INSERT

section Insert

variable {t t' : Table key} {a : α}

theorem insert?_eq_some (h : t.insert? a = some t') :
    (∀ b ∈ t, key b ≠ key a) ∧ t'.rows = t.rows ++ [a] := by
  unfold insert? at h
  split at h
  case isTrue => cases h
  case isFalse hk =>
    injection h with h
    refine ⟨fun b hb hkb => hk ?_, by rw [← h]⟩
    exact List.mem_map.mpr ⟨b, hb, hkb⟩

theorem insert?_eq_none (h : t.insert? a = none) :
    ∃ b ∈ t, key b = key a := by
  unfold insert? at h
  split at h
  case isTrue hk => simpa [mem_def] using hk
  case isFalse => cases h

/-- An insert goes through exactly when the key is free. -/
theorem insert?_isSome (h : ∀ b ∈ t, key b ≠ key a) :
    ∃ t', t.insert? a = some t' := by
  cases hi : t.insert? a with
  | none =>
      obtain ⟨b, hb, hk⟩ := insert?_eq_none hi
      exact absurd hk (h b hb)
  | some t' => exact ⟨t', rfl⟩

theorem mem_insert? (h : t.insert? a = some t') {b : α} :
    b ∈ t' ↔ b ∈ t ∨ b = a := by
  rw [mem_def, (insert?_eq_some h).2]
  simp [mem_def]

theorem get?_insert? (h : t.insert? a = some t') (k : κ) :
    t'.get? k = if key a = k then some a else t.get? k := by
  by_cases hk : key a = k
  · rw [if_pos hk, get?_eq_some]
    exact ⟨(mem_insert? h).mpr (Or.inr rfl), hk⟩
  · rw [if_neg hk]
    cases hg : t.get? k with
    | none =>
        rw [get?_eq_none]
        intro b hb
        rcases (mem_insert? h).mp hb with hb | rfl
        · exact get?_eq_none.mp hg b hb
        · exact hk
    | some c =>
        obtain ⟨hc, hck⟩ := get?_eq_some.mp hg
        rw [get?_eq_some]
        exact ⟨(mem_insert? h).mpr (Or.inl hc), hck⟩

theorem count_insert? (h : t.insert? a = some t') (q : α → Prop)
    [DecidablePred q] :
    t'.count q = t.count q + if q a then 1 else 0 := by
  unfold count
  rw [(insert?_eq_some h).2, List.countP_append, List.countP_singleton]
  simp

theorem mem_insertOrIgnore {b : α} :
    b ∈ t.insertOrIgnore a ↔ b ∈ t ∨ (b = a ∧ ∀ c ∈ t, key c ≠ key a) := by
  unfold insertOrIgnore
  cases h : t.insert? a with
  | none =>
      obtain ⟨c, hc, hk⟩ := insert?_eq_none h
      rw [Option.getD_none]
      exact ⟨Or.inl, fun hb => hb.elim id fun hb => absurd hk (hb.2 c hc)⟩
  | some t' =>
      have hfree := (insert?_eq_some h).1
      rw [Option.getD_some, mem_insert? h]
      exact ⟨fun hb => hb.imp_right fun e => ⟨e, hfree⟩,
        fun hb => hb.imp_right And.left⟩

/-- An insert under a taken key changes nothing. -/
theorem insertOrIgnore_eq_self {b : α} (hb : b ∈ t)
    (hk : key b = key a) : t.insertOrIgnore a = t := by
  unfold insertOrIgnore
  cases h : t.insert? a with
  | none => rfl
  | some t' => exact absurd hk ((insert?_eq_some h).1 b hb)

/-- An upsert adds the row, or merges it into the one that has its key. -/
theorem mem_upsert {merge : α → α} {hm : ∀ b, key (merge b) = key b}
    {b : α} : b ∈ t.upsert a merge hm
      ↔ (b = a ∧ ∀ c ∈ t, key c ≠ key a)
        ∨ ∃ c ∈ t, (if key c = key a then merge c else c) = b := by
  unfold upsert
  cases h : t.insert? a with
  | none =>
      obtain ⟨c, hc, hk⟩ := insert?_eq_none h
      rw [Option.getD_none, mem_update]
      exact ⟨Or.inr, fun hb => hb.elim (fun hb => absurd hk (hb.2 c hc)) id⟩
  | some t' =>
      have hfree := (insert?_eq_some h).1
      rw [Option.getD_some, mem_insert? h]
      constructor
      · rintro (hb | rfl)
        · exact Or.inr ⟨b, hb, if_neg (hfree b hb)⟩
        · exact Or.inl ⟨rfl, hfree⟩
      · rintro (⟨rfl, -⟩ | ⟨c, hc, he⟩)
        · exact Or.inr rfl
        · rw [if_neg (hfree c hc)] at he
          exact Or.inl (he ▸ hc)

/-- What a lookup finds after an upsert. -/
theorem get?_upsert {merge : α → α} {hm : ∀ b, key (merge b) = key b}
    (k : κ) :
    (t.upsert a merge hm).get? k
      = if key a = k then some (((t.get? k).map merge).getD a)
        else t.get? k := by
  unfold upsert
  cases h : t.insert? a with
  | none =>
      obtain ⟨c, hc, hck⟩ := insert?_eq_none h
      rw [Option.getD_none, get?_update]
      by_cases hka : key a = k
      · rw [if_pos hka, ← hka, ← hck, get?_key hc]
        simp
      · rw [if_neg hka]
        cases hg : t.get? k with
        | none => rfl
        | some d =>
            have hd : key d ≠ key a := by
              rw [key_of_get? hg]
              exact fun e => hka e.symm
            simp [hd]
  | some t' =>
      have hfree := (insert?_eq_some h).1
      rw [Option.getD_some, get?_insert? h]
      by_cases hka : key a = k
      · have hnone : t.get? k = none :=
          get?_eq_none.mpr fun b hb => hka ▸ hfree b hb
        rw [if_pos hka, if_pos hka, hnone]
        rfl
      · rw [if_neg hka, if_neg hka]

end Insert

-- ------------------------------------------------- reading statements

section Select

variable {t : Table key} {p : α → Prop} [DecidablePred p]

omit [DecidableEq κ] in
theorem find?_eq_some {a : α} (h : t.find? p = some a) : a ∈ t ∧ p a :=
  ⟨List.mem_of_find?_eq_some h, by simpa using List.find?_some h⟩

omit [DecidableEq κ] in
theorem find?_eq_none : t.find? p = none ↔ ∀ a ∈ t, ¬ p a := by
  unfold find?
  rw [List.find?_eq_none]
  simp [mem_def]

omit [DecidableEq κ] [DecidablePred p] in
theorem exists_iff : t.Exists p ↔ ∃ a ∈ t, p a := Iff.rfl

omit [DecidableEq κ] in
theorem count_eq_zero : t.count p = 0 ↔ ∀ a ∈ t, ¬ p a := by
  unfold count
  rw [List.countP_eq_zero]
  simp [mem_def]

omit [DecidableEq κ] in
theorem count_pos {a : α} (ha : a ∈ t) (h : p a) : 0 < t.count p :=
  List.countP_pos_iff.mpr ⟨a, ha, by simpa using h⟩

omit [DecidableEq κ] in
/-- A condition that no two rows meet is met by one row at most. -/
theorem count_le_one (h : ∀ a ∈ t, ∀ b ∈ t, p a → p b → a = b) :
    t.count p ≤ 1 := by
  have hnodup : (t.rows.filter fun a => p a).Nodup :=
    (List.Nodup.of_map key t.nodup).filter _
  unfold count
  rw [List.countP_eq_length_filter]
  cases hf : t.rows.filter fun a => p a with
  | nil => exact Nat.zero_le 1
  | cons a l =>
      cases l with
      | nil => exact Nat.le_refl 1
      | cons b l =>
          rw [hf] at hnodup
          have ha : a ∈ t.rows.filter fun a => p a := by simp [hf]
          have hb : b ∈ t.rows.filter fun a => p a := by simp [hf]
          rw [List.mem_filter, decide_eq_true_eq] at ha hb
          have heq := h a ha.1 b hb.1 ha.2 hb.2
          rw [heq] at hnodup
          simp at hnodup

omit [DecidableEq κ] in
theorem count_eq_one (h : ∀ a ∈ t, ∀ b ∈ t, p a → p b → a = b) :
    t.count p = 1 ↔ ∃ a ∈ t, p a := by
  have hle := count_le_one h
  constructor
  · intro hone
    by_contra hnone
    have hzero := count_eq_zero.mpr fun a ha hp => hnone ⟨a, ha, hp⟩
    omega
  · rintro ⟨a, ha, hp⟩
    have hpos := count_pos ha hp
    omega

omit [DecidableEq κ] in
theorem count_mono {q : α → Prop} [DecidablePred q]
    (h : ∀ a ∈ t, p a → q a) : t.count p ≤ t.count q :=
  List.countP_mono_left fun a ha hp => by
    simpa using h a ha (by simpa using hp)

omit [DecidableEq κ] in
/-- Counts of two tables compare when every row counted in one answers
to a row counted in the other under the same key. -/
theorem count_le_of_key {t' : Table key} {q : α → Prop} [DecidablePred q]
    (h : ∀ a' ∈ t', q a' → ∃ a ∈ t, p a ∧ key a = key a') :
    t'.count q ≤ t.count p := by
  have hnodup : ((t'.rows.filter fun a => q a).map key).Nodup :=
    t'.nodup.sublist (List.filter_sublist.map key)
  have hsub : (t'.rows.filter fun a => q a).map key
      ⊆ (t.rows.filter fun a => p a).map key := by
    intro k hk
    obtain ⟨a', ha', rfl⟩ := List.mem_map.mp hk
    rw [List.mem_filter, decide_eq_true_eq] at ha'
    obtain ⟨a, ha, hp, hkey⟩ := h a' ha'.1 ha'.2
    refine List.mem_map.mpr ⟨a, ?_, hkey⟩
    rw [List.mem_filter, decide_eq_true_eq]
    exact ⟨ha, hp⟩
  have hlen := (List.subperm_of_subset hnodup hsub).length_le
  rw [List.length_map, List.length_map] at hlen
  unfold count
  rw [List.countP_eq_length_filter, List.countP_eq_length_filter]
  exact hlen

omit [DecidableEq κ] in
/-- A weaker condition that one more row meets counts more. -/
theorem count_lt_of_mem {q : α → Prop} [DecidablePred q] {a : α}
    (h : ∀ b ∈ t, p b → q b) (ha : a ∈ t) (hq : q a) (hp : ¬ p a) :
    t.count p < t.count q := by
  have hsub : (t.rows.filter fun b => p b) ⊆ t.rows.filter fun b => q b := by
    intro b hb
    rw [List.mem_filter, decide_eq_true_eq] at hb ⊢
    exact ⟨hb.1, h b hb.1 hb.2⟩
  have hnodup : (a :: t.rows.filter fun b => p b).Nodup := by
    refine List.nodup_cons.mpr ⟨?_, (List.Nodup.of_map key t.nodup).filter _⟩
    rw [List.mem_filter, decide_eq_true_eq]
    exact fun hb => hp hb.2
  have hcons : (a :: t.rows.filter fun b => p b)
      ⊆ t.rows.filter fun b => q b := by
    refine List.cons_subset.mpr ⟨?_, hsub⟩
    rw [List.mem_filter, decide_eq_true_eq]
    exact ⟨ha, hq⟩
  have hlen := (List.subperm_of_subset hnodup hcons).length_le
  rw [List.length_cons] at hlen
  unfold count
  rw [List.countP_eq_length_filter, List.countP_eq_length_filter]
  exact hlen

omit [DecidableEq κ] in
theorem count_or_le {q : α → Prop} [DecidablePred q] :
    (t.count fun a => p a ∨ q a) ≤ t.count p + t.count q := by
  unfold count
  induction t.rows with
  | nil => exact Nat.zero_le _
  | cons a l ih =>
      rw [List.countP_cons, List.countP_cons, List.countP_cons]
      have hhead : (if decide (p a ∨ q a) = true then 1 else 0)
          ≤ (if decide (p a) = true then 1 else 0)
            + if decide (q a) = true then 1 else 0 := by
        by_cases hp : p a <;> by_cases hq : q a <;> simp [hp, hq]
      refine le_trans (Nat.add_le_add ih hhead) (le_of_eq ?_)
      exact Nat.add_add_add_comm _ _ _ _

omit [DecidableEq κ] in
theorem count_congr {q : α → Prop} [DecidablePred q]
    (h : ∀ a ∈ t, p a ↔ q a) : t.count p = t.count q :=
  Nat.le_antisymm (count_mono fun a ha => (h a ha).mp)
    (count_mono fun a ha => (h a ha).mpr)

omit [DecidableEq κ] in
/-- Counting after a delete is counting what it spares. -/
theorem count_delete {q : α → Prop} [DecidablePred q] :
    (t.delete p).count q = t.count fun a => q a ∧ ¬ p a := by
  unfold count delete
  rw [List.countP_filter]
  refine List.countP_congr fun a _ => ?_
  simp

omit [DecidableEq κ] in
theorem first_eq_some {β : Type*} [LinearOrder β] {order : α → β} {a : α}
    (h : t.first p order = some a) :
    a ∈ t ∧ p a ∧ ∀ b ∈ t, p b → order a ≤ order b := by
  have hmem := List.mem_filter.mp (List.argmin_mem h)
  refine ⟨hmem.1, by simpa using hmem.2, fun b hb hpb => ?_⟩
  exact List.le_of_mem_argmin
    (List.mem_filter.mpr ⟨hb, by simpa using hpb⟩) h

omit [DecidableEq κ] in
theorem first_eq_none {β : Type*} [LinearOrder β] {order : α → β} :
    t.first p order = none ↔ ∀ a ∈ t, ¬ p a := by
  unfold first
  rw [List.argmin_eq_none, List.filter_eq_nil_iff]
  simp [mem_def]

end Select

-- ===================================== ranks

section Rank

variable {β : Type*} [LinearOrder β]

/-- The rows of a group that come before a row when the group is
ordered by `order` descending. -/
def rank (t : Table key) (p : α → Prop) [DecidablePred p] (order : α → β)
    (a : α) : Nat :=
  t.count fun b => p b ∧ order a < order b

omit [DecidableEq κ] in
/-- A list with pairwise distinct orders holds at most `n` entries with
fewer than `n` entries ahead of them: the last of those entries has all
the others ahead of it. -/
private theorem countP_rank_lt {order : α → β} {n : Nat} :
    ∀ {l : List α}, (l.map order).Nodup →
      (l.countP fun a => l.countP (fun b => order a < order b) < n) ≤ n := by
  intro l hl
  set s := l.filter fun a => l.countP (fun b => order a < order b) < n
    with hs
  have hlen : (l.countP fun a => l.countP (fun b => order a < order b) < n)
      = s.length := List.countP_eq_length_filter
  rw [hlen]
  cases hmin : s.argmin order with
  | none =>
      rw [List.argmin_eq_none] at hmin
      simp [hmin]
  | some a =>
      have ha := List.argmin_mem hmin
      have hsl : s.Sublist l := List.filter_sublist
      have hrank : l.countP (fun b => order a < order b) < n := by
        simpa using (List.mem_filter.mp ha).2
      -- every other entry of `s` is ahead of its least one
      have hahead : s.length ≤ s.countP (fun b => order a < order b) + 1 := by
        have hnd : (s.map order).Nodup := hl.sublist (hsl.map order)
        have hsplit := List.length_eq_countP_add_countP
          (fun b => decide (order a < order b)) (l := s)
        have hone : s.countP (fun b => ¬ decide (order a < order b)) ≤ 1 := by
          have heq : s.countP (fun b => ¬ decide (order a < order b))
              = (s.map order).count (order a) := by
            rw [List.count, List.countP_map]
            refine List.countP_congr fun b hb => ?_
            have hle : order a ≤ order b := List.le_of_mem_argmin hb hmin
            simp only [decide_eq_true_eq, not_lt, Function.comp_apply,
              beq_iff_eq]
            exact ⟨fun h => le_antisymm h hle, fun h => h.le⟩
          rw [heq]
          exact List.nodup_iff_count_le_one.mp hnd _
        have hone' : s.countP (fun b => !decide (order a < order b)) ≤ 1 := by
          refine le_trans (le_of_eq ?_) hone
          refine List.countP_congr fun b _ => ?_
          simp
        simp only [Bool.not_eq_true, Bool.decide_eq_false] at hsplit
        omega
      have hmono : s.countP (fun b => order a < order b)
          ≤ l.countP (fun b => order a < order b) := hsl.countP_le
      omega

omit [DecidableEq κ] in
/-- At most `n` rows of a group have rank below `n`. -/
theorem count_rank_lt {t : Table key} {p : α → Prop} [DecidablePred p]
    {order : α → β} (ho : ∀ a ∈ t, ∀ b ∈ t, order a = order b → a = b)
    (n : Nat) : (t.count fun a => p a ∧ t.rank p order a < n) ≤ n := by
  set l := t.rows.filter fun a => p a with hl
  have hrank : ∀ a, t.rank p order a
      = l.countP fun b => order a < order b := by
    intro a
    unfold rank count
    rw [hl, List.countP_filter]
    refine List.countP_congr fun b _ => ?_
    simp [and_comm]
  have hcount : (t.count fun a => p a ∧ t.rank p order a < n)
      = l.countP fun a => l.countP (fun b => order a < order b) < n := by
    unfold count
    rw [hl, List.countP_filter]
    refine List.countP_congr fun a _ => ?_
    simp [hrank a, ← hl, and_comm]
  rw [hcount]
  refine countP_rank_lt ?_
  have hnd : t.rows.Nodup := List.Nodup.of_map key t.nodup
  refine (hnd.filter _).map_on fun a ha b hb h => ?_
  exact ho a (List.mem_filter.mp ha).1 b (List.mem_filter.mp hb).1 h

end Rank

end Table

end Relational
