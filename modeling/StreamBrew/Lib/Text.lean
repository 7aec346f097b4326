/-
Strings of bytes, as a program with such strings has them: what comes
out of percent-encoding need not be text.

Names that are compared are of ASCII letters, so letter case matters
only as far as a letter of that alphabet is concerned (`lower`).
-/
import Mathlib.Algebra.Ring.Int.Defs
import Mathlib.Algebra.Ring.Nat
import Mathlib.Data.List.TakeWhile

namespace Text

/-- The characters of a text. -/
abbrev Chars := List Char

/-- Texts as the machine has them. -/
abbrev Bytes := List UInt8

/-- The encoding of a text. -/
def bytes (s : Chars) : Bytes := s.flatMap String.utf8EncodeChar

/-- A byte as a character, where bytes are ASCII. -/
def ascii (b : UInt8) : Char := Char.ofNat b.toNat

/-- A byte string of ASCII as a text. -/
def ofAscii (s : Bytes) : String := String.ofList (s.map ascii)

/-- Lower case as far as it gives ASCII letters: the Kelvin sign is a
`k`, and a capital `I` with a dot is an `i`. -/
def lower : Bytes → Bytes
  | 0xE2 :: 0x84 :: 0xAA :: s => 0x6B :: lower s
  | 0xC4 :: 0xB0 :: s => 0x69 :: lower s
  | b :: s => (if 0x41 ≤ b ∧ b ≤ 0x5A then b + 0x20 else b) :: lower s
  | [] => []

/-- An ASCII digit. -/
def isDigit (b : UInt8) : Bool := 0x30 ≤ b && b ≤ 0x39

/-- The number that decimal digits denote. -/
def decimal (digits : Bytes) : Nat :=
  digits.foldl (fun n b => 10 * n + (b.toNat - 0x30)) 0

/-- A decimal integer with a sign or none, within 32 bits. -/
def parseInt (s : Bytes) : Option Int :=
  let digits := match s with
    | 0x2B :: rest | 0x2D :: rest => rest
    | _ => s
  if digits.isEmpty ∨ digits.any (fun b => !isDigit b) then none
  else if s.head? = some 0x2D then
    if decimal digits ≤ 2 ^ 31 then some (-(decimal digits : Int)) else none
  else if decimal digits < 2 ^ 31 then some (decimal digits) else none

/-- What is before a separator, and what is after the first one, where
there is one. -/
def cut {α : Type} [DecidableEq α] (separator : α) (s : List α) :
    List α × Option (List α) :=
  (s.takeWhile (· ≠ separator), ((s.dropWhile (· ≠ separator)).tail?))

/-- Without some characters at the end. -/
def trimEnd {α : Type} (p : α → Bool) (s : List α) : List α :=
  (s.reverse.dropWhile p).reverse

/-- The parts of a text between runs of separators. -/
def fields {α : Type} (p : α → Bool) (s : List α) : List (List α) :=
  (s.splitOnP p).filter fun part => !part.isEmpty

-- ===================================== facts

theorem parseInt_lt {s : Bytes} {n : Int} (h : parseInt s = some n) :
    n < 2 ^ 31 := by
  unfold parseInt at h
  dsimp only at h
  repeat' split at h
  all_goals cases h
  all_goals omega

theorem mem_cut_fst {α : Type} [DecidableEq α] {separator c : α}
    {s : List α} (h : c ∈ (cut separator s).1) : c ∈ s :=
  List.takeWhile_subset _ h

theorem mem_cut_snd {α : Type} [DecidableEq α] {separator c : α}
    {s rest : List α} (h : (cut separator s).2 = some rest) (hc : c ∈ rest) :
    c ∈ s := by
  unfold cut at h
  dsimp only at h
  cases hdrop : s.dropWhile (· ≠ separator) with
  | nil => rw [hdrop] at h; cases h
  | cons d tail =>
      rw [hdrop] at h
      cases h
      have hsub := List.dropWhile_suffix (fun x => decide (x ≠ separator))
        (l := s)
      rw [hdrop] at hsub
      exact hsub.subset (List.mem_cons_of_mem d hc)

theorem mem_trimEnd {α : Type} {p : α → Bool} {s : List α} {c : α}
    (h : c ∈ trimEnd p s) : c ∈ s := by
  have hmem := (List.dropWhile_suffix p).subset (List.mem_reverse.mp h)
  exact List.mem_reverse.mp hmem

section Separator

variable {α : Type} [DecidableEq α] {s t : List α} {d : α}

theorem takeWhile_before (h : ∀ c ∈ s, c ≠ d) :
    (s ++ d :: t).takeWhile (· ≠ d) = s := by
  rw [List.takeWhile_append_of_pos]
  · rw [List.takeWhile_cons_of_neg (by simp), List.append_nil]
  · exact fun c hc => decide_eq_true (h c hc)

theorem dropWhile_before (h : ∀ c ∈ s, c ≠ d) :
    (s ++ d :: t).dropWhile (· ≠ d) = d :: t := by
  rw [List.dropWhile_append_of_pos]
  · rw [List.dropWhile_cons_of_neg (by simp)]
  · exact fun c hc => decide_eq_true (h c hc)

theorem takeWhile_absent (h : ∀ c ∈ s, c ≠ d) : s.takeWhile (· ≠ d) = s :=
  List.takeWhile_eq_self_iff.mpr fun c hc => decide_eq_true (h c hc)

theorem dropWhile_absent (h : ∀ c ∈ s, c ≠ d) : s.dropWhile (· ≠ d) = [] :=
  List.dropWhile_eq_nil_iff.mpr fun c hc => decide_eq_true (h c hc)

/-- The first separator is the one that cuts. -/
theorem cut_before (h : ∀ c ∈ s, c ≠ d) :
    cut d (s ++ d :: t) = (s, some t) := by
  unfold cut
  rw [takeWhile_before h, dropWhile_before h]
  rfl

theorem cut_absent (h : ∀ c ∈ s, c ≠ d) : cut d s = (s, none) := by
  unfold cut
  rw [takeWhile_absent h, dropWhile_absent h]
  rfl

/-- Nothing is cut where there is no separator. -/
theorem cut_none (h : (cut d s).2 = none) : (cut d s).1 = s := by
  have hs := List.takeWhile_append_dropWhile (p := (· ≠ d)) (l := s)
  unfold cut at h ⊢
  cases hd : s.dropWhile (· ≠ d) with
  | nil => rwa [hd, List.append_nil] at hs
  | cons c rest =>
      rw [hd] at h
      cases h

/-- What was cut, put together. -/
theorem cut_some (h : (cut d s).2 = some t) : s = (cut d s).1 ++ d :: t := by
  have hs := List.takeWhile_append_dropWhile (p := (· ≠ d)) (l := s)
  unfold cut at h ⊢
  cases hd : s.dropWhile (· ≠ d) with
  | nil =>
      rw [hd] at h
      cases h
  | cons c rest =>
      have hne : s.dropWhile (· ≠ d) ≠ [] := by
        rw [hd]
        exact List.cons_ne_nil c rest
      have hneg := List.head_dropWhile_not (· ≠ d) hne
      simp only [hd, List.head_cons] at hneg
      have hc : c = d := by simpa using hneg
      rw [hd] at h hs
      cases h
      rw [hc] at hs
      exact hs.symm

end Separator

-- ==================================== fields

section Fields

variable {α : Type} {p : α → Bool} {s : List α}

/-- Parts, joined by one character between two of them. -/
theorem length_intercalate (c : α) {parts : List (List α)}
    (h : parts ≠ []) :
    ([c].intercalate parts).length + 1
      = (parts.map List.length).sum + parts.length := by
  induction parts with
  | nil => exact absurd rfl h
  | cons part parts ih =>
      cases parts with
      | nil => simp
      | cons next parts =>
          have hrest := ih (List.cons_ne_nil next parts)
          rw [List.intercalate_cons_cons]
          simp only [List.length_append, List.length_cons, List.length_nil,
            List.map_cons, List.sum_cons] at hrest ⊢
          omega

/-- A split loses the separators, one for each part but the last. -/
theorem length_splitOnP (p : α → Bool) (s : List α) :
    ((s.splitOnP p).map List.length).sum + (s.splitOnP p).length
      = s.length + 1 := by
  induction s with
  | nil => rfl
  | cons c s ih =>
      rw [List.splitOnP_cons_eq_if_modifyHead]
      split
      case isTrue =>
        simp only [List.map_cons, List.length_nil, List.sum_cons,
          List.length_cons]
        omega
      case isFalse =>
        obtain ⟨part, parts, hparts⟩ :=
          List.exists_cons_of_ne_nil (List.splitOnP_ne_nil p s)
        rw [hparts] at ih ⊢
        simp only [List.modifyHead_cons, List.map_cons, List.sum_cons,
          List.length_cons] at ih ⊢
        omega

/-- Empty parts add nothing. -/
theorem sum_length_filter (parts : List (List α)) :
    ((parts.filter fun part => !part.isEmpty).map List.length).sum
      = (parts.map List.length).sum := by
  induction parts with
  | nil => rfl
  | cons part parts ih =>
      rw [List.filter_cons]
      split
      case isTrue => rw [List.map_cons, List.sum_cons, ih]; rfl
      case isFalse h =>
        have hempty : part = [] := by simpa using h
        rw [ih, hempty, List.map_cons, List.sum_cons, List.length_nil,
          Nat.zero_add]

/-- The fields of a text, joined again, are no longer than the text. -/
theorem length_join_fields_le (c : α) :
    ([c].intercalate (fields p s)).length ≤ s.length := by
  by_cases hempty : fields p s = []
  · rw [hempty]
    exact Nat.zero_le _
  · have hjoin := length_intercalate c hempty
    have hsplit := length_splitOnP p s
    have hsum := sum_length_filter (s.splitOnP p)
    have hcount := List.length_filter_le (fun part : List α =>
      !part.isEmpty) (s.splitOnP p)
    unfold fields at hjoin hempty ⊢
    omega

/-- Every character that does not separate is in a part. -/
theorem mem_splitOnP {c : α} (hc : c ∈ s) (hp : p c = false) :
    ∃ part ∈ s.splitOnP p, c ∈ part := by
  induction s with
  | nil => cases hc
  | cons d s ih =>
      rw [List.splitOnP_cons_eq_if_modifyHead]
      obtain ⟨part, parts, hparts⟩ :=
        List.exists_cons_of_ne_nil (List.splitOnP_ne_nil p s)
      split
      case isTrue hd =>
        rcases List.mem_cons.mp hc with rfl | hc
        · rw [hp] at hd
          cases hd
        · obtain ⟨q, hq, hcq⟩ := ih hc
          exact ⟨q, List.mem_cons_of_mem _ hq, hcq⟩
      case isFalse =>
        rw [hparts] at ih ⊢
        rw [List.modifyHead_cons]
        rcases List.mem_cons.mp hc with rfl | hc
        · exact ⟨_, List.mem_cons_self, List.mem_cons_self⟩
        · obtain ⟨q, hq, hcq⟩ := ih hc
          rcases List.mem_cons.mp hq with rfl | hq
          · exact ⟨_, List.mem_cons_self, List.mem_cons_of_mem d hcq⟩
          · exact ⟨q, List.mem_cons_of_mem _ hq, hcq⟩

/-- A text with something between the separators has a field. -/
theorem join_fields_ne_nil (d : α) {c : α} (hc : c ∈ s)
    (hp : p c = false) : [d].intercalate (fields p s) ≠ [] := by
  obtain ⟨part, hpart, hmem⟩ := mem_splitOnP hc hp
  have hfield : part ∈ fields p s :=
    List.mem_filter.mpr ⟨hpart, by
      cases part with
      | nil => cases hmem
      | cons => rfl⟩
  have hne := List.ne_nil_of_mem hfield
  have hjoin := length_intercalate d hne
  have hpos : 0 < part.length := List.length_pos_of_mem hmem
  have hsum : 0 < ((fields p s).map List.length).sum :=
    List.sum_pos_iff_exists_pos_nat.mpr
      ⟨_, List.mem_map_of_mem hfield, hpos⟩
  have hcount := List.length_pos_of_mem hfield
  refine List.ne_nil_of_length_pos ?_
  omega

end Fields

end Text
