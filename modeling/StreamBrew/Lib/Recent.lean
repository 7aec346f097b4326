/-
The latest of what was received: a list in the order of time, with one
entry a key and a bound on its length.

What is received replaces what has its key and takes its place before the
first that is later; then all but the latest are dropped. A list so made
stays `Ordered`, whatever is received. Where different entries differ in
key and in time, it does not matter in which order and how often they are
received: the list is the end of the sorted ones (`foldl_receive`). What
carries that is the list with all that was dropped in front of it
(`Holds`).
-/
import Mathlib.Data.List.Dedup
import Mathlib.Data.List.DropRight
import Mathlib.Data.List.Sort

namespace Recent

variable {α κ τ : Type*} [LinearOrder τ] (key : α → κ) (time : α → τ) (n : Nat)

/-- What has the key goes. -/
def remove [DecidableEq κ] (k : κ) (l : List α) : List α :=
  l.filter fun a => key a ≠ k

/-- Before the first that is later. -/
def place (a : α) (l : List α) : List α :=
  l.takeWhile (time · ≤ time a) ++ a :: l.dropWhile (time · ≤ time a)

/-- An element takes the place of one with its key, in the order of times; the
last ones stay. -/
def receive [DecidableEq κ] (l : List α) (a : α) : List α :=
  (place time a (remove key (key a) l)).rtake n

/-- The latest of some entries, in the order of time. -/
def latest [DecidableEq α] (seen : List α) : List α :=
  (seen.dedup.mergeSort fun a b => time a ≤ time b).rtake n

/-- Distinct keys in the order of times, and not too many. -/
structure Ordered (l : List α) : Prop where
  distinct : (l.map key).Nodup
  sorted : l.Pairwise fun a b => time a ≤ time b
  length_le : l.length ≤ n

variable {key time n} {a b : α} {l : List α}

-- ===================================== place

theorem place_perm (a : α) (l : List α) : (place time a l).Perm (a :: l) := by
  have hl := List.takeWhile_append_dropWhile (p := (time · ≤ time a)) (l := l)
  unfold place
  refine List.perm_middle.trans (List.Perm.cons a ?_)
  rw [hl]

theorem mem_place : b ∈ place time a l ↔ b = a ∨ b ∈ l := by
  rw [(place_perm a l).mem_iff, List.mem_cons]

theorem le_of_mem_takeWhile (h : b ∈ l.takeWhile (time · ≤ time a)) :
    time b ≤ time a :=
  of_decide_eq_true (List.all_eq_true.mp List.all_takeWhile b h)

/-- Behind the first that is later, all are later. -/
theorem lt_of_mem_dropWhile (hl : l.Pairwise fun a b => time a ≤ time b)
    (h : b ∈ l.dropWhile (time · ≤ time a)) : time a < time b := by
  induction l with
  | nil => cases h
  | cons c l ih =>
      obtain ⟨hc, htail⟩ := List.pairwise_cons.mp hl
      by_cases hle : time c ≤ time a
      · rw [List.dropWhile_cons_of_pos (by simpa using hle)] at h
        exact ih htail h
      · rw [List.dropWhile_cons_of_neg (by simpa using hle)] at h
        have hlater := lt_of_not_ge hle
        rcases List.mem_cons.mp h with rfl | h
        · exact hlater
        · exact lt_of_lt_of_le hlater (hc b h)

theorem sorted_place (a : α) (hl : l.Pairwise fun a b => time a ≤ time b) :
    (place time a l).Pairwise fun a b => time a ≤ time b := by
  unfold place
  refine List.pairwise_append.mpr ⟨hl.sublist (List.takeWhile_sublist _),
    List.pairwise_cons.mpr ⟨?_, hl.sublist (List.dropWhile_sublist _)⟩, ?_⟩
  · exact fun b hb => (lt_of_mem_dropWhile hl hb).le
  · intro b hb c hc
    have hbefore := le_of_mem_takeWhile hb
    rcases List.mem_cons.mp hc with rfl | hc
    · exact hbefore
    · exact hbefore.trans (lt_of_mem_dropWhile hl hc).le

-- =================================== receive

theorem mem_remove [DecidableEq κ] {k : κ} :
    b ∈ remove key k l ↔ b ∈ l ∧ key b ≠ k := by
  unfold remove
  rw [List.mem_filter, decide_eq_true_eq]

theorem rtake_sublist (l : List α) (n : Nat) : (l.rtake n).Sublist l :=
  List.drop_sublist _ _

theorem mem_receive [DecidableEq κ] (h : b ∈ receive key time n l a) :
    b = a ∨ b ∈ l ∧ key b ≠ key a :=
  (mem_place.mp ((rtake_sublist _ _).subset h)).imp_right mem_remove.mp

theorem Ordered.sublist {l' : List α} (h : Ordered key time n l)
    (hl : l'.Sublist l) : Ordered key time n l' where
  distinct := h.distinct.sublist (hl.map key)
  sorted := h.sorted.sublist hl
  length_le := hl.length_le.trans h.length_le

theorem Ordered.nil : Ordered key time n ([] : List α) :=
  ⟨List.nodup_nil, List.Pairwise.nil, Nat.zero_le n⟩

/-- Receiving keeps the order and the bound. -/
theorem Ordered.receive [DecidableEq κ] (h : Ordered key time n l) (a : α) :
    Ordered key time n (receive key time n l a) := by
  have hremoved : Ordered key time n (remove key (key a) l) :=
    h.sublist List.filter_sublist
  have hdistinct :
      ((place time a (remove key (key a) l)).map key).Nodup := by
    rw [((place_perm a _).map key).nodup_iff, List.map_cons, List.nodup_cons]
    refine ⟨fun hmem => ?_, hremoved.distinct⟩
    obtain ⟨b, hb, hkey⟩ := List.mem_map.mp hmem
    exact (mem_remove.mp hb).2 hkey
  refine ⟨hdistinct.sublist ((rtake_sublist _ _).map key),
    (sorted_place a hremoved.sorted).sublist (rtake_sublist _ _), ?_⟩
  unfold Recent.receive List.rtake
  rw [List.length_drop]
  omega

-- ==================================== latest

/-- Different entries differ in key and in time. -/
def Distinct (key : α → κ) (time : α → τ) (seen : List α) : Prop :=
  ∀ a ∈ seen, ∀ b ∈ seen, key a = key b ∨ time a = time b → a = b

/-- A list behind all that was dropped from it. -/
structure Holds (key : α → κ) (time : α → τ) (n : Nat) (seen dropped : List α)
    (l : List α) : Prop where
  sorted : (dropped ++ l).Pairwise fun a b => time a < time b
  mem_iff : ∀ b, b ∈ dropped ++ l ↔ b ∈ seen
  length_le : l.length ≤ n
  full : dropped = [] ∨ l.length = n

section Latest

variable {seen dropped : List α}

theorem rtake_eq_self (h : l.length ≤ n) : l.rtake n = l := by
  unfold List.rtake
  rw [Nat.sub_eq_zero_of_le h, List.drop_zero]

theorem rtake_append (h : l.length = n) (dropped : List α) :
    (dropped ++ l).rtake n = l := by
  unfold List.rtake
  rw [List.length_append, h, Nat.add_sub_cancel, List.drop_left]

theorem remove_eq_self [DecidableEq κ] {k : κ} (h : ∀ b ∈ l, key b ≠ k) :
    remove key k l = l :=
  List.filter_eq_self.mpr fun b hb => decide_eq_true (h b hb)

/-- Between the earlier and the later ones. -/
theorem place_between {before after : List α}
    (hbefore : ∀ b ∈ before, time b ≤ time a)
    (hafter : ∀ b ∈ after, time a < time b) :
    place time a (before ++ after) = before ++ a :: after := by
  have htake : (before ++ after).takeWhile (time · ≤ time a) = before := by
    rw [List.takeWhile_append_of_pos fun b hb => decide_eq_true (hbefore b hb)]
    cases after with
    | nil => simp
    | cons c after =>
        have hc := hafter c List.mem_cons_self
        rw [List.takeWhile_cons_of_neg (by simpa using hc), List.append_nil]
  have hdrop : (before ++ after).dropWhile (time · ≤ time a) = after := by
    rw [List.dropWhile_append_of_pos fun b hb => decide_eq_true (hbefore b hb)]
    cases after with
    | nil => rfl
    | cons c after =>
        have hc := hafter c List.mem_cons_self
        rw [List.dropWhile_cons_of_neg (by simpa using hc)]
  unfold place
  rw [htake, hdrop]

theorem Holds.nil : Holds key time n ([] : List α) [] [] :=
  ⟨List.Pairwise.nil, fun _ => Iff.rfl, Nat.zero_le n, Or.inl rfl⟩

/-- What is in the list stays where it is. -/
theorem receive_mem [DecidableEq κ] (h : Holds key time n seen dropped l)
    (hdistinct : Distinct key time seen) (ha : a ∈ l) :
    receive key time n l a = l := by
  obtain ⟨before, after, rfl⟩ := List.append_of_mem ha
  have hseen : ∀ b ∈ before ++ a :: after, b ∈ seen := fun b hb =>
    (h.mem_iff b).mp (List.mem_append_right _ hb)
  have hsorted := (List.pairwise_append.mp h.sorted).2.1
  obtain ⟨-, hafter, hbefore⟩ := List.pairwise_append.mp hsorted
  have hlt : ∀ b ∈ before, time b < time a := fun b hb =>
    hbefore b hb a List.mem_cons_self
  have hgt : ∀ b ∈ after, time a < time b := (List.pairwise_cons.mp hafter).1
  have hkey : ∀ b ∈ before ++ after, key b ≠ key a := by
    intro b hb heq
    have hmem : b ∈ before ++ a :: after := by
      rcases List.mem_append.mp hb with hb | hb
      · exact List.mem_append_left _ hb
      · exact List.mem_append_right _ (List.mem_cons_of_mem a hb)
    have hself := hdistinct b (hseen b hmem) a (hseen a ha) (Or.inl heq)
    subst hself
    rcases List.mem_append.mp hb with hb | hb
    · exact lt_irrefl _ (hlt b hb)
    · exact lt_irrefl _ (hgt b hb)
  have hremove : remove key (key a) (before ++ a :: after)
      = before ++ after := by
    rw [← remove_eq_self hkey]
    unfold remove
    rw [List.filter_append, List.filter_append,
      List.filter_cons_of_neg (by simp)]
  unfold receive
  rw [hremove, place_between (fun b hb => (hlt b hb).le) hgt,
    rtake_eq_self h.length_le]

/-- What was dropped is dropped again. -/
theorem receive_dropped [DecidableEq κ]
    (h : Holds key time n seen dropped l)
    (hdistinct : Distinct key time seen) (ha : a ∈ dropped) :
    receive key time n l a = l := by
  have hlater := (List.pairwise_append.mp h.sorted).2.2 a ha
  have hfull : l.length = n := h.full.resolve_left (List.ne_nil_of_mem ha)
  have hkey : ∀ b ∈ l, key b ≠ key a := by
    intro b hb heq
    have hb' := (h.mem_iff b).mp (List.mem_append_right _ hb)
    have ha' := (h.mem_iff a).mp (List.mem_append_left _ ha)
    have hself := hdistinct b hb' a ha' (Or.inl heq)
    subst hself
    exact lt_irrefl _ (hlater b hb)
  have hplace : place time a ([] ++ l) = [] ++ a :: l :=
    place_between (by simp) hlater
  rw [List.nil_append] at hplace
  unfold receive
  rw [remove_eq_self hkey, hplace]
  exact rtake_append hfull [a]

/-- Placing keeps a strict order, where times differ. -/
theorem sorted_lt_place (hl : l.Pairwise fun a b => time a < time b)
    (htime : ∀ b ∈ l, time b ≠ time a) :
    (place time a l).Pairwise fun a b => time a < time b := by
  have hle : l.Pairwise fun a b => time a ≤ time b := hl.imp le_of_lt
  have hlt : ∀ b ∈ l.takeWhile (time · ≤ time a), time b < time a :=
    fun b hb => lt_of_le_of_ne (le_of_mem_takeWhile hb)
      (htime b ((List.takeWhile_sublist _).subset hb))
  have hgt : ∀ b ∈ l.dropWhile (time · ≤ time a), time a < time b :=
    fun b hb => lt_of_mem_dropWhile hle hb
  unfold place
  refine List.pairwise_append.mpr ⟨hl.sublist (List.takeWhile_sublist _),
    List.pairwise_cons.mpr ⟨hgt, hl.sublist (List.dropWhile_sublist _)⟩, ?_⟩
  intro b hb c hc
  rcases List.mem_cons.mp hc with rfl | hc
  · exact hlt b hb
  · exact (hlt b hb).trans (hgt c hc)

/-- What is new takes its place, and where the list was full the earliest
of it all is dropped. -/
theorem Holds.receive_new [DecidableEq κ]
    (h : Holds key time n seen dropped l)
    (hkey : ∀ b ∈ seen, key b ≠ key a) (htime : ∀ b ∈ seen, time b ≠ time a) :
    ∃ dropped', Holds key time n (seen ++ [a]) dropped'
      (receive key time n l a) := by
  obtain ⟨hdropped, hl, hcross⟩ := List.pairwise_append.mp h.sorted
  have hseen : ∀ b ∈ l, b ∈ seen := fun b hb =>
    (h.mem_iff b).mp (List.mem_append_right _ hb)
  have hseen' : ∀ b ∈ dropped, b ∈ seen := fun b hb =>
    (h.mem_iff b).mp (List.mem_append_left _ hb)
  have hplace := sorted_lt_place hl fun b hb => htime b (hseen b hb)
  have hmem : ∀ b, b ∈ dropped ++ place time a l ↔ b ∈ seen ++ [a] := by
    intro b
    rw [List.mem_append, mem_place, List.mem_append, List.mem_singleton,
      ← h.mem_iff b, List.mem_append]
    tauto
  unfold receive
  rw [remove_eq_self fun b hb => hkey b (hseen b hb)]
  by_cases hfull : l.length = n
  case neg =>
    have hnil : dropped = [] := h.full.resolve_right hfull
    have hlength : (place time a l).length = l.length + 1 :=
      (place_perm a l).length_eq
    have hle := h.length_le
    subst hnil
    refine ⟨[], ?_⟩
    rw [rtake_eq_self (by omega)]
    exact ⟨hplace, hmem, by omega, Or.inl rfl⟩
  case pos =>
    have hsplit := List.takeWhile_append_dropWhile (p := (time · ≤ time a))
      (l := l)
    cases hbefore : l.takeWhile (time · ≤ time a) with
    | nil =>
        rw [hbefore, List.nil_append] at hsplit
        have hafter : ∀ b ∈ l, time a < time b := fun b hb =>
          lt_of_mem_dropWhile (hl.imp le_of_lt) (hsplit.symm ▸ hb)
        have heq : place time a l = [a] ++ l := by
          unfold place
          rw [hbefore, hsplit]
          rfl
        refine ⟨place time a dropped, ?_⟩
        rw [heq, rtake_append hfull]
        refine ⟨List.pairwise_append.mpr ⟨?_, hl, ?_⟩, ?_, h.length_le,
          Or.inr hfull⟩
        · exact sorted_lt_place hdropped fun b hb => htime b (hseen' b hb)
        · intro b hb c hc
          rcases mem_place.mp hb with rfl | hb
          · exact hafter c hc
          · exact hcross b hb c hc
        · intro b
          rw [← hmem b, List.mem_append, mem_place, List.mem_append, mem_place]
          tauto
    | cons c before =>
        have hc : c ∈ l := by
          rw [← hsplit, hbefore]
          exact List.mem_cons_self
        have hcbefore : time c < time a := by
          refine lt_of_le_of_ne (le_of_mem_takeWhile (l := l) ?_)
            (htime c (hseen c hc))
          rw [hbefore]
          exact List.mem_cons_self
        have heq : place time a l
            = [c] ++ (before ++ a :: l.dropWhile (time · ≤ time a)) := by
          unfold place
          rw [hbefore]
          rfl
        have hlength : (before
            ++ a :: l.dropWhile (time · ≤ time a)).length = n := by
          have hcount := congrArg List.length hsplit
          rw [hbefore] at hcount
          simp only [List.length_append, List.length_cons] at hcount ⊢
          omega
        refine ⟨dropped ++ [c], ?_⟩
        rw [heq, rtake_append hlength]
        rw [heq] at hplace hmem
        refine ⟨?_, ?_, hlength.le, Or.inr hlength⟩
        · rw [List.append_assoc]
          refine List.pairwise_append.mpr ⟨hdropped, hplace, ?_⟩
          intro b hb d hd
          rw [← heq] at hd
          rcases mem_place.mp hd with rfl | hd
          · exact (hcross b hb c hc).trans hcbefore
          · exact hcross b hb d hd
        · intro b
          rw [List.append_assoc]
          exact hmem b

/-- Receiving drops the oldest ones at most. -/
theorem Holds.receive [DecidableEq κ] (h : Holds key time n seen dropped l)
    (hdistinct : Distinct key time (seen ++ [a])) :
    ∃ dropped', Holds key time n (seen ++ [a]) dropped'
      (receive key time n l a) := by
  have hold : Distinct key time seen := fun b hb c hc =>
    hdistinct b (List.mem_append_left _ hb) c (List.mem_append_left _ hc)
  by_cases ha : a ∈ seen
  case pos =>
    have hsame : Recent.receive key time n l a = l := by
      rcases List.mem_append.mp ((h.mem_iff a).mpr ha) with hmem | hmem
      · exact receive_dropped h hold hmem
      · exact receive_mem h hold hmem
    rw [hsame]
    refine ⟨dropped, h.sorted, fun b => ?_, h.length_le, h.full⟩
    rw [h.mem_iff b, List.mem_append, List.mem_singleton]
    exact ⟨Or.inl, fun hb => hb.elim id fun heq => heq ▸ ha⟩
  case neg =>
    have hlast : a ∈ seen ++ [a] := by simp
    have hne : ∀ b ∈ seen, ¬(key b = key a ∨ time b = time a) := by
      intro b hb heq
      have hself := hdistinct b (List.mem_append_left _ hb) a hlast heq
      exact ha (hself ▸ hb)
    exact h.receive_new (fun b hb heq => hne b hb (Or.inl heq))
      fun b hb heq => hne b hb (Or.inr heq)

/-- The list is the latest of what was seen. -/
theorem Holds.eq_latest [DecidableEq α] (h : Holds key time n seen dropped l)
    (hdistinct : Distinct key time seen) : l = latest time n seen := by
  have hnodup : (dropped ++ l).Nodup :=
    h.sorted.imp fun hlt heq => by
      rw [heq] at hlt
      exact lt_irrefl _ hlt
  have hperm : (dropped ++ l).Perm seen.dedup :=
    (List.perm_ext_iff_of_nodup hnodup seen.nodup_dedup).mpr fun b => by
      rw [h.mem_iff b, List.mem_dedup]
  have hsorted : (seen.dedup.mergeSort fun a b => time a ≤ time b).Pairwise
      fun a b => time a ≤ time b := by
    refine (List.pairwise_mergeSort (fun a b c hab hbc => ?_)
      (fun a b => ?_) _).imp of_decide_eq_true
    · exact decide_eq_true
        ((of_decide_eq_true hab).trans (of_decide_eq_true hbc))
    · simpa using le_total (time a) (time b)
  have heq : dropped ++ l
      = seen.dedup.mergeSort fun a b => time a ≤ time b := by
    refine List.Perm.eq_of_pairwise (fun a b ha hb hab hba => ?_)
      (h.sorted.imp le_of_lt) hsorted
      (hperm.trans (List.mergeSort_perm _ _).symm)
    have hb' := List.mem_dedup.mp ((List.mergeSort_perm _ _).subset hb)
    exact hdistinct a ((h.mem_iff a).mp ha) b hb'
      (Or.inr (le_antisymm hab hba))
  unfold latest
  rw [← heq]
  rcases h.full with rfl | hfull
  · rw [List.nil_append, rtake_eq_self h.length_le]
  · rw [rtake_append hfull]

/-- In whatever order and however often entries are received, the list is
the latest of them. -/
theorem foldl_receive [DecidableEq κ] [DecidableEq α]
    (h : Distinct key time seen) :
    seen.foldl (Recent.receive key time n) [] = latest time n seen := by
  have hholds : ∃ dropped, Holds key time n seen dropped
      (seen.foldl (Recent.receive key time n) []) := by
    induction seen using List.reverseRecOn with
    | nil => exact ⟨[], Holds.nil⟩
    | append_singleton seen a ih =>
        have hold : Distinct key time seen := fun b hb c hc =>
          h b (List.mem_append_left _ hb) c (List.mem_append_left _ hc)
        obtain ⟨dropped, hdropped⟩ := ih hold
        rw [List.foldl_append]
        exact hdropped.receive h
  obtain ⟨dropped, hdropped⟩ := hholds
  exact hdropped.eq_latest h

end Latest

end Recent
