/-
Feeds: a list of items that only grows at its end, and a reader that
tells new items from those it has seen by a high-water mark.

The items have distinct keys and times that never decrease, but many
items may share a time. A reader keeps the greatest time it has met and
the keys it has met at that time (`Mark`). It may be shown items again,
as long as it is shown no item before all items between that one and what
it has seen: then it takes each item once, in order (`observe_walk`).
-/
import Mathlib.Data.List.Basic
import Mathlib.Order.Basic
import Mathlib.Tactic

namespace Feed

variable {α κ τ : Type*}

-- ==================================== slices

/-- The items from one position up to another. -/
def slice (l : List α) (start stop : Nat) : List α :=
  (l.take stop).drop start

section Slices

variable {l : List α} {a b c : Nat}

@[simp] theorem length_slice :
    (slice l a b).length = min b l.length - a := by
  simp [slice]

theorem slice_of_le (h : b ≤ a) : slice l a b = [] := by
  refine List.eq_nil_of_length_eq_zero ?_
  rw [length_slice]
  omega

/-- Slices that meet. -/
theorem slice_append (hab : a ≤ b) (hbc : b ≤ c) :
    slice l a b ++ slice l b c = slice l a c := by
  have htake : l.take c = l.take b ++ slice l b c := by
    have h := List.take_append_drop b (l.take c)
    rw [List.take_take, Nat.min_eq_left hbc] at h
    exact h.symm
  rcases Nat.le_total a l.length with ha | ha
  · conv_rhs => rw [slice, htake]
    rw [List.drop_append_of_le_length (by simp; omega)]
    rfl
  · have hnil : ∀ x y, a ≤ x → slice l x y = [] := by
      intro x y hx
      refine List.eq_nil_of_length_eq_zero ?_
      rw [length_slice]
      omega
    rw [hnil a b (Nat.le_refl a), hnil b c hab, hnil a c (Nat.le_refl a)]
    rfl

theorem slice_cons (hab : a < b) (hb : b ≤ l.length) :
    slice l a b = l[a] :: slice l (a + 1) b := by
  unfold slice
  rw [List.drop_eq_getElem_cons (by simp; omega), List.getElem_take]

theorem slice_snoc (hab : a ≤ b) (hb : b < l.length) :
    slice l a (b + 1) = slice l a b ++ [l[b]] := by
  rw [← slice_append hab (Nat.le_succ b),
    slice_cons (Nat.lt_succ_self b) hb, slice_of_le (Nat.le_refl _)]

/-- The list may grow behind a slice. -/
theorem slice_grow (rest : List α) (hb : b ≤ l.length) :
    slice (l ++ rest) a b = slice l a b := by
  unfold slice
  rw [List.take_append_of_le_length hb]

theorem mem_slice {x : α} :
    x ∈ slice l a b ↔ ∃ i, ∃ h : i < l.length, a ≤ i ∧ i < b ∧ l[i] = x := by
  unfold slice
  rw [List.mem_iff_getElem]
  constructor
  · rintro ⟨i, hi, rfl⟩
    simp only [List.length_drop, List.length_take] at hi
    exact ⟨a + i, by omega, by omega, by omega, by simp⟩
  · rintro ⟨i, hi, hai, hib, rfl⟩
    refine ⟨i - a, by simp; omega, ?_⟩
    simp [Nat.add_sub_cancel' hai]

/-- What is read from a slice backwards, as long as a condition holds. -/
theorem takeWhile_slice (p : α → Bool) (hab : a ≤ b) (hb : b ≤ l.length) :
    ∃ k, a ≤ k ∧ k ≤ b
      ∧ (slice l a b).reverse.takeWhile p = (slice l k b).reverse
      ∧ (∀ x ∈ slice l k b, p x = true)
      ∧ (k = a ∧ (slice l a b).reverse.all p = true
        ∨ a < k ∧ (slice l a b).reverse.all p = false
          ∧ ∃ h : k - 1 < l.length, p l[k - 1] = false) := by
  induction b, hab using Nat.le_induction with
  | base =>
      refine ⟨a, Nat.le_refl a, Nat.le_refl a, ?_, fun x hx => ?_,
        .inl ⟨rfl, ?_⟩⟩
      · rw [slice_of_le (Nat.le_refl a)]
        rfl
      · rw [slice_of_le (Nat.le_refl a)] at hx
        cases hx
      · rw [slice_of_le (Nat.le_refl a)]
        rfl
  | succ b hab ih =>
      rw [slice_snoc hab hb, List.reverse_concat, List.takeWhile_cons,
        List.all_cons]
      cases hp : p l[b] with
      | false =>
          refine ⟨b + 1, Nat.le_succ_of_le hab, Nat.le_refl _, ?_, ?_,
            .inr ⟨Nat.lt_succ_of_le hab, rfl, hb, hp⟩⟩
          · rw [slice_of_le (Nat.le_refl _)]
            rfl
          · rw [slice_of_le (Nat.le_refl _)]
            nofun
      | true =>
          obtain ⟨k, hak, hkb, htake, hall, hend⟩ := ih (Nat.le_of_lt hb)
          refine ⟨k, hak, Nat.le_succ_of_le hkb, ?_, fun x hx => ?_, ?_⟩
          · rw [slice_snoc hkb hb, List.reverse_concat, if_pos rfl, htake]
          · rw [slice_snoc hkb hb] at hx
            rcases List.mem_append.mp hx with hx | hx
            · exact hall x hx
            · rwa [List.mem_singleton.mp hx]
          · rwa [Bool.true_and]

end Slices

/-- Slices read backwards without gaps, from the newest items on: the
items of all of them, the oldest first, with the position that was
reached and the one that was begun at. -/
inductive Walk (l : List α) : Nat → List α → Nat → Prop
  | start (n : Nat) : Walk l n [] n
  | block {older top a b : Nat} {items : List α} (h : Walk l older items top)
      (ha : a ≤ older) (hb : older ≤ b) (hlen : b ≤ l.length) :
      Walk l a (slice l a b ++ items) (max b top)

theorem Walk.grow {l : List α} {older top : Nat} {items : List α}
    (h : Walk l older items top) (rest : List α) :
    Walk (l ++ rest) older items top := by
  induction h with
  | start n => exact .start n
  | block _ ha hb hlen ih =>
      rw [← slice_grow rest hlen]
      refine .block ih ha hb ?_
      rw [List.length_append]
      exact Nat.le_add_right_of_le hlen

-- ===================================== feeds

section

variable (key : α → κ) (time : α → τ) [LinearOrder τ]

/-- Distinct keys, times that do not decrease, and a time before all. -/
structure Ordered (origin : τ) (l : List α) : Prop where
  distinct : (l.map key).Nodup
  sorted : l.Pairwise fun a b => time a ≤ time b
  origin : ∀ a ∈ l, origin < time a

/-- The greatest time met, and the keys met at it. -/
structure Mark (κ τ : Type*) where
  highWater : τ
  seen : List κ

variable [DecidableEq κ]

/-- An item is shown: the mark after it, and the item if it is new. -/
def Mark.observe (mark : Mark κ τ) (a : α) : Mark κ τ × List α :=
  if time a < mark.highWater ∨ key a ∈ mark.seen then (mark, [])
  else if mark.highWater < time a then
    ({ highWater := time a, seen := [key a] }, [a])
  else ({ mark with seen := key a :: mark.seen }, [a])

/-- Items are shown one by one. -/
def Mark.observeAll (mark : Mark κ τ) : List α → Mark κ τ × List α
  | [] => (mark, [])
  | a :: rest =>
      let (mark, new) := mark.observe key time a
      let (mark, later) := Mark.observeAll mark rest
      (mark, new ++ later)

/-- The mark after all items before `m`, where the items from `low` on
may be shown again. -/
structure Marks (origin : τ) (l : List α) (low m : Nat) (mark : Mark κ τ) :
    Prop where
  le : m ≤ l.length
  below : ∀ i (h : i < m), low ≤ i → time l[i] ≤ mark.highWater
    ∧ (time l[i] < mark.highWater ∨ key l[i] ∈ mark.seen)
  water : mark.highWater = origin
    ∨ ∃ i, ∃ h : i < m, time l[i] = mark.highWater
  seen : ∀ k ∈ mark.seen, ∃ i, ∃ h : i < m, key l[i] = k

end

section

variable {key : α → κ} {time : α → τ} [LinearOrder τ] {origin : τ}
  {l : List α} {low m : Nat} {mark : Mark κ τ}

/-- The mark before anything is shown. -/
theorem marks_origin (h : m ≤ l.length) :
    Marks key time origin l m m { highWater := origin, seen := [] } where
  le := h
  below _ hi hlow := absurd hi (Nat.not_lt.mpr hlow)
  water := .inl rfl
  seen := nofun

theorem Marks.weaken (h : Marks key time origin l low m mark) {low' : Nat}
    (hlow : low ≤ low') : Marks key time origin l low' m mark where
  le := h.le
  below i hi hle := h.below i hi (Nat.le_trans hlow hle)
  water := h.water
  seen := h.seen

/-- Items are added behind what was shown. -/
theorem Marks.grow (h : Marks key time origin l low m mark) (rest : List α) :
    Marks key time origin (l ++ rest) low m mark where
  le := by
    rw [List.length_append]
    exact Nat.le_add_right_of_le h.le
  below i hi hle := by
    rw [List.getElem_append_left (Nat.lt_of_lt_of_le hi h.le)]
    exact h.below i hi hle
  water := h.water.imp id fun ⟨i, hi, heq⟩ => ⟨i, hi, by
    rw [List.getElem_append_left (Nat.lt_of_lt_of_le hi h.le)]
    exact heq⟩
  seen k hk := by
    obtain ⟨i, hi, heq⟩ := h.seen k hk
    refine ⟨i, hi, ?_⟩
    rw [List.getElem_append_left (Nat.lt_of_lt_of_le hi h.le)]
    exact heq

/-- Nothing that was not shown is older than the mark. -/
theorem Marks.above (h : Marks key time origin l low m mark)
    (hl : Ordered key time origin l) {i : Nat} (hi : i < l.length)
    (hm : m ≤ i) : mark.highWater ≤ time l[i] := by
  rcases h.water with horigin | ⟨j, hj, heq⟩
  · rw [horigin]
    exact (hl.origin _ (List.getElem_mem hi)).le
  · rw [← heq]
    exact List.pairwise_iff_getElem.mp hl.sorted j i _ hi
      (Nat.lt_of_lt_of_le hj hm)

omit [LinearOrder τ] in
/-- A key tells the position of its item. -/
theorem index_of_key (hl : (l.map key).Nodup) {i j : Nat}
    (hi : i < l.length) (hj : j < l.length) (h : key l[i] = key l[j]) :
    i = j := by
  have hinj := (List.nodup_iff_injective_getElem.mp hl).eq_iff
    (a := ⟨i, by simpa using hi⟩) (b := ⟨j, by simpa using hj⟩)
  simp only [List.getElem_map, Fin.mk.injEq] at hinj
  exact hinj.mp h

/-- What was not shown has another key. -/
theorem Marks.unseen (h : Marks key time origin l low m mark)
    (hl : Ordered key time origin l) {i : Nat} (hi : i < l.length)
    (hm : m ≤ i) : key l[i] ∉ mark.seen := by
  intro hmem
  obtain ⟨j, hj, heq⟩ := h.seen _ hmem
  have hlt : j < l.length := Nat.lt_of_lt_of_le hj h.le
  have := index_of_key hl.distinct hlt hi heq
  omega

variable [DecidableEq κ]

theorem observeAll_append (mark : Mark κ τ) (before after : List α) :
    mark.observeAll key time (before ++ after)
      = (((mark.observeAll key time before).1.observeAll key time after).1,
        (mark.observeAll key time before).2
          ++ ((mark.observeAll key time before).1.observeAll key time
            after).2) := by
  induction before generalizing mark with
  | nil => rfl
  | cons a before ih =>
      simp only [List.cons_append, Mark.observeAll, ih, List.append_assoc]

/-- An item that was shown is not taken again. -/
theorem observe_old (h : Marks key time origin l low m mark) {i : Nat}
    (hi : i < l.length) (hm : i < m) (hlow : low ≤ i) :
    mark.observe key time l[i] = (mark, []) :=
  if_pos (h.below i hm hlow).2

/-- The next item is taken. -/
theorem observe_next (h : Marks key time origin l low m mark)
    (hl : Ordered key time origin l) (hm : m < l.length) :
    (mark.observe key time l[m]).2 = [l[m]]
      ∧ Marks key time origin l low (m + 1)
        (mark.observe key time l[m]).1 := by
  have habove := h.above hl hm (Nat.le_refl m)
  have hunseen := h.unseen hl hm (Nat.le_refl m)
  have hsorted : ∀ i, (hi : i < m) → time l[i] ≤ time l[m] := fun i hi =>
    List.pairwise_iff_getElem.mp hl.sorted i m _ hm hi
  unfold Mark.observe
  rw [if_neg (not_or.mpr ⟨not_lt.mpr habove, hunseen⟩)]
  split
  case isTrue hlt =>
    refine ⟨rfl, hm, fun i hi hlow => ?_, .inr ⟨m, Nat.lt_succ_self m, rfl⟩,
      fun k hk => ⟨m, Nat.lt_succ_self m, ?_⟩⟩
    · rcases Nat.lt_succ_iff_lt_or_eq.mp hi with hi | rfl
      · have hbelow := (h.below i hi hlow).1
        exact ⟨hsorted i hi, .inl (lt_of_le_of_lt hbelow hlt)⟩
      · exact ⟨le_refl _, .inr (List.mem_singleton_self _)⟩
    · exact (List.mem_singleton.mp hk).symm
  case isFalse hge =>
    have heq : time l[m] = mark.highWater :=
      le_antisymm (not_lt.mp hge) habove
    refine ⟨rfl, hm, fun i hi hlow => ?_, .inr ⟨m, Nat.lt_succ_self m, heq⟩,
      fun k hk => ?_⟩
    · rcases Nat.lt_succ_iff_lt_or_eq.mp hi with hi | rfl
      · obtain ⟨hle, hnew⟩ := h.below i hi hlow
        exact ⟨hle, hnew.imp id (List.mem_cons_of_mem _)⟩
      · exact ⟨heq.le, .inr List.mem_cons_self⟩
    · rcases List.mem_cons.mp hk with rfl | hk
      · exact ⟨m, Nat.lt_succ_self m, rfl⟩
      · obtain ⟨i, hi, hkey⟩ := h.seen k hk
        exact ⟨i, Nat.lt_succ_of_lt hi, hkey⟩

/-- Items that begin somewhere in what was shown: the rest is taken. -/
theorem observe_slice (h : Marks key time origin l low m mark)
    (hl : Ordered key time origin l) {a b : Nat} (hlow : low ≤ a)
    (ha : a ≤ m) (hb : b ≤ l.length) :
    (mark.observeAll key time (slice l a b)).2 = slice l m b
      ∧ Marks key time origin l low (max m b)
        (mark.observeAll key time (slice l a b)).1 := by
  induction hn : b - a generalizing a m mark with
  | zero =>
      have hab : b ≤ a := Nat.sub_eq_zero_iff_le.mp hn
      rw [slice_of_le hab, slice_of_le (Nat.le_trans hab ha),
        Nat.max_eq_left (Nat.le_trans hab ha)]
      exact ⟨rfl, h⟩
  | succ n ih =>
      have hab : a < b := by omega
      have hlt := Nat.lt_of_lt_of_le hab hb
      rw [slice_cons hab hb]
      simp only [Mark.observeAll]
      rcases Nat.lt_or_ge a m with ham | ham
      · rw [observe_old h hlt ham hlow]
        exact ih h (Nat.le_succ_of_le hlow) ham (by omega)
      · obtain rfl : a = m := Nat.le_antisymm ha ham
        obtain ⟨hnew, hmarks⟩ := observe_next h hl hlt
        obtain ⟨hrest, hend⟩ := ih hmarks (Nat.le_succ_of_le hlow)
          (Nat.le_refl _) (by omega)
        rw [hnew, hrest, slice_cons hab hb]
        refine ⟨rfl, ?_⟩
        rwa [show max a b = max (a + 1) b by omega]

/-- A walk that reaches what was shown: the rest is taken. -/
theorem observe_walk (h : Marks key time origin l low m mark)
    (hl : Ordered key time origin l) {older top : Nat} {items : List α}
    (hwalk : Walk l older items top) (hlow : low ≤ older)
    (holder : older ≤ m) :
    (mark.observeAll key time items).2 = slice l m top
      ∧ Marks key time origin l low (max m top)
        (mark.observeAll key time items).1 := by
  induction hwalk generalizing m mark with
  | start n =>
      rw [slice_of_le holder, Nat.max_eq_left holder]
      exact ⟨rfl, h⟩
  | block hwalk ha hb hlen ih =>
      rename_i older top a b items
      obtain ⟨hnew, hmarks⟩ := observe_slice h hl hlow holder hlen
      obtain ⟨hrest, hend⟩ := ih hmarks (Nat.le_trans hlow ha)
        (Nat.le_trans hb (Nat.le_max_right m b))
      rw [observeAll_append, hnew, hrest, ← Nat.max_assoc]
      refine ⟨?_, hend⟩
      rcases Nat.le_total m b with hmb | hmb
      · rw [Nat.max_eq_right hmb]
        rcases Nat.le_total b top with hbt | hbt
        · rw [Nat.max_eq_right hbt, slice_append hmb hbt]
        · rw [Nat.max_eq_left hbt, slice_of_le hbt, List.append_nil]
      · rw [Nat.max_eq_left hmb, slice_of_le hmb, List.nil_append]
        rcases Nat.le_total b top with hbt | hbt
        · rw [Nat.max_eq_right hbt]
        · rw [Nat.max_eq_left hbt, slice_of_le (Nat.le_trans hbt hmb),
            slice_of_le hmb]

end

end Feed
