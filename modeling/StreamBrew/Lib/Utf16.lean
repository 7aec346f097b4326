/-
Strings of JavaScript: sequences of 16-bit code units.

A string that is the encoding of a text is that text here, with the
number of its units as its length. The units of another string are
decoded with U+FFFD for every surrogate that stands alone, as they are
wherever the string leaves the program.
-/
import StreamBrew.Lib.Text

namespace Utf16

open Text

/-- A text as code units, paired or not. -/
abbrev Units := List UInt16

/-- The first half of a pair. -/
def isHigh (u : UInt16) : Bool := 0xD800 ≤ u && u ≤ 0xDBFF

/-- The second half of a pair. -/
def isLow (u : UInt16) : Bool := 0xDC00 ≤ u && u ≤ 0xDFFF

/-- The character of a unit on its own. -/
def single (u : UInt16) : Char :=
  if isHigh u || isLow u then '\uFFFD' else Char.ofNat u.toNat

/-- The character of a surrogate pair. -/
def pair (high low : UInt16) : Char :=
  Char.ofNat
    (0x10000 + (high.toNat - 0xD800) * 0x400 + (low.toNat - 0xDC00))

/-- The characters; a half without the other is replaced. -/
def decode : Units → Chars
  | [] => []
  | [u] => [single u]
  | u :: v :: s =>
      if isHigh u && isLow v then pair u v :: decode s
      else single u :: decode (v :: s)

/-- The `length` of a text. -/
def length (s : Chars) : Nat :=
  (s.map fun c => if c.toNat < 0x10000 then 1 else 2).sum

/-- What `\s` matches, and `trim` takes away. -/
def isSpaceCode (n : Nat) : Bool :=
  n ∈ [0x09, 0x0A, 0x0B, 0x0C, 0x0D, 0x20, 0xA0, 0x1680, 0x2028, 0x2029,
    0x202F, 0x205F, 0x3000, 0xFEFF] || (0x2000 ≤ n && n ≤ 0x200A)

/-- A character that `trim` takes away. -/
def isSpace (c : Char) : Bool := isSpaceCode c.toNat

/-- The text without the spaces at its ends. -/
def trim (s : Units) : Units :=
  trimEnd (fun u => isSpaceCode u.toNat)
    (s.dropWhile fun u => isSpaceCode u.toNat)

-- ===================================== facts

theorem isHigh_iff {u : UInt16} :
    isHigh u = true ↔ 0xD800 ≤ u.toNat ∧ u.toNat ≤ 0xDBFF := by
  unfold isHigh
  rw [Bool.and_eq_true, decide_eq_true_eq, decide_eq_true_eq,
    UInt16.le_iff_toNat_le, UInt16.le_iff_toNat_le]
  rfl

theorem isLow_iff {u : UInt16} :
    isLow u = true ↔ 0xDC00 ≤ u.toNat ∧ u.toNat ≤ 0xDFFF := by
  unfold isLow
  rw [Bool.and_eq_true, decide_eq_true_eq, decide_eq_true_eq,
    UInt16.le_iff_toNat_le, UInt16.le_iff_toNat_le]
  rfl

theorem toNat_ofNat {n : Nat} (h : n.isValidChar) :
    (Char.ofNat n).toNat = n := by
  unfold Char.ofNat
  rw [dif_pos h]
  rfl

/-- A unit on its own is a character of one unit. -/
theorem single_cases (u : UInt16) :
    (single u).toNat = u.toNat ∨ single u = '\uFFFD' := by
  unfold single
  split
  case isTrue => exact Or.inr rfl
  case isFalse h =>
    rw [Bool.or_eq_true, not_or, isHigh_iff, isLow_iff] at h
    have hlt := u.toNat_lt
    refine Or.inl (toNat_ofNat ?_)
    unfold Nat.isValidChar
    omega

theorem single_lt (u : UInt16) : (single u).toNat < 0x10000 := by
  rcases single_cases u with h | h
  · rw [h]
    exact u.toNat_lt
  · rw [h]
    decide

theorem le_pair {u v : UInt16} (hu : isHigh u = true)
    (hv : isLow v = true) : 0x10000 ≤ (pair u v).toNat := by
  rw [isHigh_iff] at hu
  rw [isLow_iff] at hv
  unfold pair
  rw [toNat_ofNat]
  · omega
  · unfold Nat.isValidChar
    omega

/-- What the characters of a string come from. -/
theorem mem_decode {s : Units} {c : Char} (h : c ∈ decode s) :
    (∃ u ∈ s, c.toNat = u.toNat) ∨ c = '\uFFFD' ∨ 0x10000 ≤ c.toNat := by
  induction s using decode.induct with
  | case1 => cases h
  | case2 u =>
      rw [decode, List.mem_singleton] at h
      subst h
      rcases single_cases u with h | h
      · exact Or.inl ⟨u, List.mem_cons_self, h⟩
      · exact Or.inr (Or.inl h)
  | case3 u v s hpair ih =>
      rw [decode, if_pos hpair] at h
      rw [Bool.and_eq_true] at hpair
      have hle := le_pair hpair.1 hpair.2
      rcases List.mem_cons.mp h with h | h
      · rw [← h] at hle
        exact Or.inr (Or.inr hle)
      · rcases ih h with ⟨w, hw, he⟩ | hother
        · exact Or.inl ⟨w, List.mem_cons_of_mem _
            (List.mem_cons_of_mem _ hw), he⟩
        · exact Or.inr hother
  | case4 u v s hpair ih =>
      rw [decode, if_neg hpair] at h
      rcases List.mem_cons.mp h with rfl | h
      · rcases single_cases u with h | h
        · exact Or.inl ⟨u, List.mem_cons_self, h⟩
        · exact Or.inr (Or.inl h)
      · rcases ih h with ⟨w, hw, he⟩ | hother
        · exact Or.inl ⟨w, List.mem_cons_of_mem _ hw, he⟩
        · exact Or.inr hother

/-- Decoding keeps the length. -/
theorem length_decode (s : Units) : length (decode s) = s.length := by
  induction s using decode.induct with
  | case1 => rfl
  | case2 u =>
      show (if (single u).toNat < 0x10000 then 1 else 2) + 0 = 1
      rw [if_pos (single_lt u), Nat.add_zero]
  | case3 u v s hpair ih =>
      rw [decode, if_pos hpair]
      rw [Bool.and_eq_true] at hpair
      show (if (pair u v).toNat < 0x10000 then 1 else 2) + length (decode s)
        = s.length + 1 + 1
      rw [if_neg (Nat.not_lt.mpr (le_pair hpair.1 hpair.2)), ih]
      omega
  | case4 u v s hpair ih =>
      rw [decode, if_neg hpair]
      show (if (single u).toNat < 0x10000 then 1 else 2)
        + length (decode (v :: s)) = (v :: s).length + 1
      rw [if_pos (single_lt u), ih]
      omega

theorem length_append (s t : Chars) :
    length (s ++ t) = length s + length t := by
  unfold length
  rw [List.map_append, List.sum_append]

end Utf16
