/-
Decimal texts: digits, and after a point more digits.
-/
import Mathlib.Algebra.Order.Field.Basic
import Mathlib.Data.Nat.Digits.Defs
import Mathlib.Data.Rat.Floor
import Mathlib.Tactic.FieldSimp
import Mathlib.Tactic.Linarith
import Mathlib.Tactic.Positivity
import Mathlib.Tactic.Ring
import StreamBrew.Lib.Text

namespace Decimal

open Text

/-- The number that digits denote. -/
def number (digits : Chars) : Nat := Nat.ofDigitChars 10 digits 0

/-- The digits of a number, with zeros in front up to a width. -/
def padded (width n : Nat) : Chars :=
  List.replicate (width - (Nat.toDigits 10 n).length) '0' ++ Nat.toDigits 10 n

/-- A number of units of 10⁻ˢ, with s digits after the point. -/
def fixed (scale units : Nat) : Chars :=
  Nat.toDigits 10 (units / 10 ^ scale)
    ++ '.' :: padded scale (units % 10 ^ scale)

/-- What a decimal text denotes. -/
def value (s : Chars) : ℚ :=
  let fraction := (cut '.' s).2.getD []
  number (cut '.' s).1 + number fraction / 10 ^ fraction.length

/-- The groups of `^(\d{1,w})(?:\.(\d{1,f}))?$`. -/
def pattern (w f : Nat) (s : Chars) : Option (Chars × Chars) :=
  let whole := (cut '.' s).1
  if whole.all Char.isDigit ∧ 1 ≤ whole.length ∧ whole.length ≤ w then
    match (cut '.' s).2 with
    | none => some (whole, [])
    | some fraction =>
        if fraction.all Char.isDigit ∧ 1 ≤ fraction.length
            ∧ fraction.length ≤ f then some (whole, fraction)
        else none
  else none

/-- One to w digits, or that and a point and one to f digits. -/
def IsAmount (w f : Nat) (s : Chars) : Prop :=
  ∃ whole : Chars, (∀ c ∈ whole, c.isDigit = true)
    ∧ 1 ≤ whole.length ∧ whole.length ≤ w
    ∧ (s = whole ∨ ∃ fraction : Chars, (∀ c ∈ fraction, c.isDigit = true)
      ∧ 1 ≤ fraction.length ∧ fraction.length ≤ f
      ∧ s = whole ++ '.' :: fraction)

/-- The nearest whole number, and the greater one of two. -/
def roundHalfUp (q : ℚ) : Int := ⌊q + 1 / 2⌋

-- ===================================== facts

theorem number_append (s t : Chars) :
    number (s ++ t) = number s * 10 ^ t.length + number t := by
  unfold number
  rw [Nat.ofDigitChars_append, Nat.ofDigitChars_eq_ofDigitChars_zero (l := t),
    Nat.mul_comm]

theorem number_toDigits (n : Nat) : number (Nat.toDigits 10 n) = n :=
  Nat.ofDigitChars_ten_toDigits

theorem number_zeros (k : Nat) : number (List.replicate k '0') = 0 := by
  unfold number
  rw [Nat.ofDigitChars_replicate_zero, Nat.mul_zero]

theorem number_digit {c : Char} (h : c.isDigit = true) (hc : number [c] = 0) :
    c = '0' := by
  have hvalue : number [c] = c.toNat - '0'.toNat := Nat.zero_add _
  have hzero : '0'.toNat = 48 := rfl
  have hrange : 48 ≤ c.toNat := by
    unfold Char.isDigit at h
    rw [Bool.and_eq_true, decide_eq_true_eq, decide_eq_true_eq] at h
    exact h.1
  refine Char.toNat_inj.mp ?_
  omega

/-- Digits that denote zero are zeros. -/
theorem number_eq_zero {digits : Chars}
    (h : ∀ c ∈ digits, c.isDigit = true) (hzero : number digits = 0) :
    digits = List.replicate digits.length '0' := by
  induction digits with
  | nil => rfl
  | cons c digits ih =>
      rw [← List.singleton_append, number_append, Nat.add_eq_zero_iff] at hzero
      have hpow : 10 ^ digits.length ≠ 0 := (Nat.pow_pos (by decide)).ne'
      have hc := (Nat.mul_eq_zero.mp hzero.1).resolve_right hpow
      rw [number_digit (h c List.mem_cons_self) hc, List.length_cons,
        List.replicate_succ,
        ← ih (fun d hd => h d (List.mem_cons_of_mem c hd)) hzero.2]

/-- So many digits are less than the next power of ten. -/
theorem number_lt {digits : Chars} (h : ∀ c ∈ digits, c.isDigit = true) :
    number digits < 10 ^ digits.length := by
  induction digits with
  | nil => exact Nat.one_pos
  | cons c digits ih =>
      have hrest := ih fun d hd => h d (List.mem_cons_of_mem c hd)
      have hvalue : number [c] = c.toNat - '0'.toNat := Nat.zero_add _
      have hzero : '0'.toNat = 48 := rfl
      have hdigit : number [c] ≤ 9 := by
        have hc := h c List.mem_cons_self
        unfold Char.isDigit at hc
        rw [Bool.and_eq_true, decide_eq_true_eq, decide_eq_true_eq] at hc
        have hle : c.toNat ≤ 57 := hc.2
        omega
      rw [← List.singleton_append, number_append, List.length_append,
        List.length_singleton, Nat.pow_add, Nat.pow_one]
      calc number [c] * 10 ^ digits.length + number digits
          < number [c] * 10 ^ digits.length + 10 ^ digits.length := by omega
        _ ≤ 9 * 10 ^ digits.length + 10 ^ digits.length :=
            Nat.add_le_add_right (Nat.mul_le_mul_right _ hdigit) _
        _ = 10 * 10 ^ digits.length := by ring

theorem number_padded (width n : Nat) : number (padded width n) = n := by
  unfold padded
  rw [number_append, number_zeros, number_toDigits, Nat.zero_mul,
    Nat.zero_add]

theorem length_padded {width n : Nat} (hwidth : 0 < width)
    (h : n < 10 ^ width) : (padded width n).length = width := by
  have hle := (Nat.length_toDigits_le_iff (by decide) hwidth).mpr h
  unfold padded
  rw [List.length_append, List.length_replicate]
  omega

theorem isDigit_toDigits {n : Nat} :
    ∀ c ∈ Nat.toDigits 10 n, c.isDigit = true :=
  fun _ hc => Nat.isDigit_of_mem_toDigits (by decide) (by decide) hc

theorem isDigit_padded {width n : Nat} :
    ∀ c ∈ padded width n, c.isDigit = true := by
  intro c hc
  rcases List.mem_append.mp hc with hc | hc
  · rw [List.eq_of_mem_replicate hc]
    rfl
  · exact isDigit_toDigits c hc

theorem ne_point {s : Chars} (h : ∀ c ∈ s, c.isDigit = true) :
    ∀ c ∈ s, c ≠ '.' := by
  intro c hc he
  subst he
  exact absurd (h '.' hc) (by decide)

section Parts

variable {whole fraction : Chars}

theorem value_parts (hwhole : ∀ c ∈ whole, c.isDigit = true) :
    value (whole ++ '.' :: fraction)
      = (number (whole ++ fraction) : ℚ) / 10 ^ fraction.length := by
  unfold value
  rw [cut_before (ne_point hwhole)]
  simp only [Option.getD_some]
  rw [number_append]
  push_cast
  field_simp

theorem pattern_parts (hwhole : ∀ c ∈ whole, c.isDigit = true)
    (hfraction : ∀ c ∈ fraction, c.isDigit = true) {w f : Nat}
    (hw : 1 ≤ whole.length ∧ whole.length ≤ w)
    (hf : 1 ≤ fraction.length ∧ fraction.length ≤ f) :
    pattern w f (whole ++ '.' :: fraction) = some (whole, fraction) := by
  unfold pattern
  rw [cut_before (ne_point hwhole)]
  simp only
  rw [if_pos ⟨List.all_eq_true.mpr hwhole, hw⟩,
    if_pos ⟨List.all_eq_true.mpr hfraction, hf⟩]

theorem pattern_whole (hwhole : ∀ c ∈ whole, c.isDigit = true) {w f : Nat}
    (hw : 1 ≤ whole.length ∧ whole.length ≤ w) :
    pattern w f whole = some (whole, []) := by
  unfold pattern
  rw [cut_absent (ne_point hwhole)]
  simp only
  rw [if_pos ⟨List.all_eq_true.mpr hwhole, hw⟩]

/-- A number without a point is one with nothing after it. -/
theorem value_whole (hwhole : ∀ c ∈ whole, c.isDigit = true) :
    value whole = value (whole ++ '.' :: []) := by
  unfold value
  rw [cut_absent (ne_point hwhole), cut_before (ne_point hwhole)]
  rfl

/-- Zeros at the end of the fraction do not count. -/
theorem value_zeros (hwhole : ∀ c ∈ whole, c.isDigit = true) (k : Nat) :
    value (whole ++ '.' :: (fraction ++ List.replicate k '0'))
      = value (whole ++ '.' :: fraction) := by
  have hpow : (10 : ℚ) ^ k ≠ 0 := by positivity
  have hpow' : (10 : ℚ) ^ fraction.length ≠ 0 := by positivity
  rw [value_parts hwhole, value_parts hwhole, ← List.append_assoc,
    number_append (whole ++ fraction), number_zeros, List.length_append,
    List.length_replicate, pow_add]
  push_cast
  field_simp
  ring

/-- The groups of a match, and what was matched. -/
theorem pattern_eq_some {w f : Nat} {s : Chars}
    (h : pattern w f s = some (whole, fraction)) :
    (∀ c ∈ whole, c.isDigit = true) ∧ (∀ c ∈ fraction, c.isDigit = true)
      ∧ (1 ≤ whole.length ∧ whole.length ≤ w) ∧ fraction.length ≤ f
      ∧ (s = whole ∧ fraction = []
        ∨ 1 ≤ fraction.length ∧ s = whole ++ '.' :: fraction) := by
  unfold pattern at h
  simp only at h
  split at h
  case isFalse => cases h
  case isTrue hw =>
    have hwhole : ∀ c ∈ (cut '.' s).1, c.isDigit = true :=
      List.all_eq_true.mp hw.1
    split at h
    case h_1 hnone =>
      cases h
      exact ⟨hwhole, by simp, hw.2, Nat.zero_le f,
        Or.inl ⟨(cut_none hnone).symm, rfl⟩⟩
    case h_2 rest hsome =>
      split at h
      case isFalse => cases h
      case isTrue hf =>
        cases h
        exact ⟨hwhole, List.all_eq_true.mp hf.1, hw.2, hf.2.2,
          Or.inr ⟨hf.2.1, cut_some hsome⟩⟩

/-- What the pattern matches. -/
theorem pattern_isSome_iff {w f : Nat} {s : Chars} :
    (pattern w f s).isSome = true ↔ IsAmount w f s := by
  constructor
  · intro h
    obtain ⟨⟨whole, fraction⟩, hs⟩ := Option.isSome_iff_exists.mp h
    obtain ⟨hwhole, hfraction, hw, hf, hcase⟩ := pattern_eq_some hs
    refine ⟨whole, hwhole, hw.1, hw.2, ?_⟩
    rcases hcase with ⟨rfl, -⟩ | ⟨hpos, rfl⟩
    · exact Or.inl rfl
    · exact Or.inr ⟨fraction, hfraction, hpos, hf, rfl⟩
  · rintro ⟨whole, hwhole, hpos, hw, rfl | ⟨fraction, hfraction, hf, hf', rfl⟩⟩
    · rw [pattern_whole hwhole ⟨hpos, hw⟩]
      rfl
    · rw [pattern_parts hwhole hfraction ⟨hpos, hw⟩ ⟨hf, hf'⟩]
      rfl

/-- A matched text denotes what its groups denote. -/
theorem value_pattern {w f : Nat} {s : Chars}
    (h : pattern w f s = some (whole, fraction)) :
    value s = value (whole ++ '.' :: fraction) := by
  obtain ⟨hwhole, -, -, -, hcase⟩ := pattern_eq_some h
  rcases hcase with ⟨rfl, rfl⟩ | ⟨-, rfl⟩
  · exact value_whole hwhole
  · rfl

/-- The digits before the point are too many. -/
theorem pattern_long (hwhole : ∀ c ∈ whole, c.isDigit = true) {w f : Nat}
    (hw : w < whole.length) :
    pattern w f (whole ++ '.' :: fraction) = none := by
  unfold pattern
  rw [cut_before (ne_point hwhole)]
  simp only
  rw [if_neg fun h => absurd h.2.2 (by omega)]

end Parts

theorem value_fixed {scale : Nat} (hscale : 0 < scale) (units : Nat) :
    value (fixed scale units) = (units : ℚ) / 10 ^ scale := by
  have hlt : units % 10 ^ scale < 10 ^ scale :=
    Nat.mod_lt _ (Nat.pow_pos (by decide))
  have hlength := length_padded hscale hlt
  unfold fixed
  rw [value_parts isDigit_toDigits, number_append, number_toDigits,
    number_padded, hlength, Nat.div_add_mod']

end Decimal
