/-
Numbers of 64 bits with a binary point that are not negative, with the
rounding of IEEE 754: to the nearest, and to an even last place halfway.

A number is its value; nothing is infinity. Values below the normal range
are not rounded as they would be there.

Whole numbers below 2⁵³ are exact (`Reads`), and the whole part of a
quotient of two of them is that of the exact quotient (`floor_div`).
-/
import Mathlib.Algebra.Order.Field.Basic
import Mathlib.Data.Int.Log
import Mathlib.Data.Rat.Floor
import Mathlib.Tactic.FieldSimp
import Mathlib.Tactic.Linarith
import Mathlib.Tactic.NormNum
import Mathlib.Tactic.Positivity
import Mathlib.Tactic.Ring

namespace Binary64

-- ================================== rounding

/-- The nearest whole number, the even one of two. -/
def roundHalfEven (x : ℚ) : Int :=
  if x - ⌊x⌋ < 1 / 2 then ⌊x⌋
  else if 1 / 2 < x - ⌊x⌋ then ⌊x⌋ + 1
  else if ⌊x⌋ % 2 = 0 then ⌊x⌋
  else ⌊x⌋ + 1

/-- The unit of the last of 53 places. -/
def ulp (x : ℚ) : ℚ := 2 ^ (Int.log 2 x - 52)

/-- The nearest number of the format, its exponent unbounded. -/
def round (x : ℚ) : ℚ :=
  if x = 0 then 0 else roundHalfEven (x / ulp x) * ulp x

/-- A number, or infinity. -/
abbrev Double := Option ℚ

/-- The nearest number; none where it would be infinite. -/
def ofRat (x : ℚ) : Double :=
  if round x < 2 ^ 1024 then some (round x) else none

/-- The nearest number to a natural one. -/
def ofNat (n : Nat) : Double := ofRat n

namespace Double

/-- The rounded sum. -/
def add (a b : Double) : Double :=
  a.bind fun x => b.bind fun y => ofRat (x + y)

/-- A product of numbers that are not zero, where one is infinity. -/
def mul (a b : Double) : Double :=
  a.bind fun x => b.bind fun y => ofRat (x * y)

/-- `Math.floor(n / d)` -/
def floorDiv (n d : Nat) : Nat := ⌊round (n / d)⌋.toNat

/-- `Number.isSafeInteger(n)` -/
def isSafeInteger (a : Double) : Bool :=
  a.any fun x => x.den = 1 && x ≤ 9007199254740991

end Double

-- ===================================== facts

theorem ulp_pos (x : ℚ) : 0 < ulp x := zpow_pos (by norm_num) _

theorem le_roundHalfEven {x : ℚ} {n : Int} (h : n ≤ x) :
    n ≤ roundHalfEven x := by
  have hfloor : n ≤ ⌊x⌋ := Int.le_floor.mpr h
  unfold roundHalfEven
  split
  case isTrue => exact hfloor
  case isFalse =>
    split
    case isTrue => omega
    case isFalse => split <;> omega

theorem roundHalfEven_intCast (n : Int) : roundHalfEven n = n := by
  unfold roundHalfEven
  rw [Int.floor_intCast, if_pos]
  rw [sub_self]
  norm_num

/-- What is less than halfway to a whole number stays below it. -/
theorem roundHalfEven_lt {x : ℚ} {n : Int} (h : x < n - 1 / 2) :
    roundHalfEven x < n := by
  have hfloor : ⌊x⌋ < n := Int.floor_lt.mpr (by linarith)
  have hle := Int.floor_le x
  unfold roundHalfEven
  split
  case isTrue => exact hfloor
  case isFalse hhalf =>
    have hnext : ⌊x⌋ + 1 < n := by
      refine lt_of_le_of_ne hfloor fun heq => ?_
      have hcast : (n : ℚ) = ⌊x⌋ + 1 := by
        rw [← heq]
        push_cast
        ring
      rw [hcast] at h
      exact hhalf (by linarith)
    split
    case isTrue => exact hnext
    case isFalse => split <;> omega

theorem ulp_le {x : ℚ} (h : 0 < x) : ulp x * 2 ^ 52 ≤ x := by
  have hle := Int.zpow_log_le_self (b := 2) (r := x) (by norm_num) h
  unfold ulp
  rw [← zpow_natCast, ← zpow_add₀ (by norm_num)]
  simpa using hle

/-- The last place of a number below 2⁵³ divides the whole numbers. -/
theorem eq_mul_ulp {x : ℚ} (hpos : 0 < x) (h : x < 2 ^ 53) (n : Nat) :
    ∃ m : Int, (n : ℚ) = m * ulp x := by
  have hlog : Int.log 2 x < 53 := by
    refine (Int.lt_zpow_iff_log_lt (b := 2) (by norm_num) hpos).mp ?_
    exact_mod_cast h
  obtain ⟨k, hk⟩ : ∃ k : Nat, Int.log 2 x - 52 = -(k : Int) :=
    ⟨(52 - Int.log 2 x).toNat, by omega⟩
  refine ⟨n * 2 ^ k, ?_⟩
  unfold ulp
  rw [hk, zpow_neg, zpow_natCast]
  push_cast
  rw [mul_assoc, mul_inv_cancel₀ (by positivity), mul_one]

/-- Whole numbers of 53 bits are exact. -/
theorem round_natCast {n : Nat} (h : n < 2 ^ 53) : round n = n := by
  rcases Nat.eq_zero_or_pos n with rfl | hn
  · simp [round]
  have hpos : (0 : ℚ) < n := by exact_mod_cast hn
  obtain ⟨m, hm⟩ := eq_mul_ulp hpos (by exact_mod_cast h) n
  have hplaces : (n : ℚ) / ulp n = m := by
    rw [div_eq_iff (ulp_pos _).ne']
    exact hm
  unfold round
  rw [if_neg hpos.ne', hplaces, roundHalfEven_intCast, ← hm]

/-- What is not below 2⁵³ does not fall below it. -/
theorem le_round {x : ℚ} (h : 2 ^ 53 ≤ x) : 2 ^ 53 ≤ round x := by
  have hpos : 0 < x := lt_of_lt_of_le (by norm_num) h
  have hlog : 53 ≤ Int.log 2 x := by
    refine (Int.zpow_le_iff_le_log (b := 2) (by norm_num) hpos).mp ?_
    exact_mod_cast h
  have hulp : 2 ≤ ulp x := by
    unfold ulp
    have hle : (2 : ℚ) ^ (1 : Int) ≤ 2 ^ (Int.log 2 x - 52) :=
      zpow_le_zpow_right₀ (by norm_num) (by omega)
    simpa using hle
  have hplaces : ((2 ^ 52 : Int) : ℚ) ≤ x / ulp x := by
    rw [le_div_iff₀ (ulp_pos x)]
    have hle := ulp_le hpos
    push_cast
    linarith
  have hrounded : ((2 ^ 52 : Int) : ℚ) ≤ roundHalfEven (x / ulp x) := by
    exact_mod_cast le_roundHalfEven hplaces
  unfold round
  rw [if_neg hpos.ne']
  calc (2 : ℚ) ^ 53 = 2 ^ 52 * 2 := by norm_num
    _ ≤ roundHalfEven (x / ulp x) * ulp x := by
        refine mul_le_mul ?_ hulp (by norm_num) ?_
        · exact_mod_cast hrounded
        · exact le_trans (by norm_num) hrounded

/-- A quotient and its rounding have the same whole part: the quotient is
farther from the next whole number than half of its last place. -/
theorem floor_div {n d : Nat} (hd : 0 < d) (h : n < 2 ^ 53) :
    Double.floorDiv n d = n / d := by
  rcases Nat.eq_zero_or_pos n with rfl | hn
  · unfold Double.floorDiv round
    rw [Nat.cast_zero, zero_div, if_pos rfl, Int.floor_zero, Nat.zero_div]
    rfl
  have hdq : (0 : ℚ) < d := by exact_mod_cast hd
  have hnq : (0 : ℚ) < n := by exact_mod_cast hn
  have hone : (1 : ℚ) ≤ d := by exact_mod_cast hd
  have hlt : (n : ℚ) < 2 ^ 53 := by exact_mod_cast h
  have hpos : (0 : ℚ) < n / d := div_pos hnq hdq
  have hsmall : (n : ℚ) / d < 2 ^ 53 :=
    lt_of_le_of_lt (div_le_self hnq.le hone) hlt
  have hulp := ulp_pos ((n : ℚ) / d)
  have hmod := Nat.div_add_mod n d
  have hrest := Nat.mod_lt n hd
  generalize n / d = k at hmod ⊢
  have hlow : (k : ℚ) ≤ n / d := by
    have hcast : (d : ℚ) * k ≤ n := by exact_mod_cast (by omega : d * k ≤ n)
    rw [le_div_iff₀ hdq]
    linarith
  have hhigh : (n : ℚ) / d ≤ k + 1 - 1 / d := by
    have hle : n + 1 ≤ d * (k + 1) := by
      rw [Nat.mul_add, Nat.mul_one]
      omega
    have hcast : (n : ℚ) + 1 ≤ d * (k + 1) := by exact_mod_cast hle
    rw [le_sub_iff_add_le, ← add_div, div_le_iff₀ hdq]
    linarith
  have hhalf : ulp ((n : ℚ) / d) / 2 < 1 / d := by
    have hle := ulp_le hpos
    rw [le_div_iff₀ hdq] at hle
    rw [lt_div_iff₀ hdq]
    nlinarith
  obtain ⟨m, hm⟩ := eq_mul_ulp hpos hsmall k
  obtain ⟨m', hm'⟩ := eq_mul_ulp hpos hsmall (k + 1)
  push_cast at hm'
  have hrounded : round ((n : ℚ) / d)
      = roundHalfEven ((n : ℚ) / d / ulp (n / d)) * ulp (n / d) :=
    if_neg hpos.ne'
  have hleft : (k : ℚ) ≤ round (n / d) := by
    have hle : m ≤ roundHalfEven ((n : ℚ) / d / ulp (n / d)) := by
      refine le_roundHalfEven ?_
      rw [le_div_iff₀ hulp, ← hm]
      exact hlow
    rw [hrounded, hm]
    exact mul_le_mul_of_nonneg_right (by exact_mod_cast hle) hulp.le
  have hright : round ((n : ℚ) / d) < k + 1 := by
    have hlt : roundHalfEven ((n : ℚ) / d / ulp (n / d)) < m' := by
      refine roundHalfEven_lt ?_
      rw [div_lt_iff₀ hulp, sub_mul, ← hm']
      linarith
    rw [hrounded, hm']
    exact mul_lt_mul_of_pos_right (by exact_mod_cast hlt) hulp
  have hfloor : ⌊round ((n : ℚ) / d)⌋ = (k : Int) := by
    rw [Int.floor_eq_iff]
    exact_mod_cast And.intro hleft hright
  unfold Double.floorDiv
  rw [hfloor]
  rfl

-- ================================== readings

/-- A computation that is exact as long as it is below 2⁵³, and stays at
or above it from there on. -/
def Reads (a : Double) (n : Nat) : Prop :=
  (n < 2 ^ 53 → a = some (n : ℚ))
    ∧ (2 ^ 53 ≤ n → ∀ x, a = some x → 2 ^ 53 ≤ x)

theorem reads_ofRat {x : ℚ} {n : Nat} (hsmall : n < 2 ^ 53 → x = n)
    (hlarge : 2 ^ 53 ≤ n → 2 ^ 53 ≤ x) : Reads (ofRat x) n := by
  constructor
  · intro h
    unfold ofRat
    rw [hsmall h, round_natCast h, if_pos]
    have hcast : (n : ℚ) < 2 ^ 53 := by exact_mod_cast h
    exact lt_trans hcast (pow_lt_pow_right₀ (by norm_num) (by norm_num))
  · intro h y hy
    unfold ofRat at hy
    split at hy
    case isTrue =>
      cases hy
      exact le_round (hlarge h)
    case isFalse => cases hy

theorem reads_ofNat (n : Nat) : Reads (ofNat n) n :=
  reads_ofRat (fun _ => rfl) fun h => by exact_mod_cast h

variable {a b : Double} {m n : Nat}

theorem Reads.nonneg {x : ℚ} (h : Reads a n) (ha : a = some x) : 0 ≤ x := by
  by_cases hn : n < 2 ^ 53
  · have hx := ha.symm.trans (h.1 hn)
    cases hx
    exact Nat.cast_nonneg n
  · exact le_trans (by norm_num) (h.2 (Nat.le_of_not_lt hn) x ha)

/-- Sums are read as sums. -/
theorem Reads.add (ha : Reads a m) (hb : Reads b n) :
    Reads (a.add b) (m + n) := by
  cases hx : a with
  | none =>
      refine ⟨fun h => ?_, fun _ x hx => nomatch hx⟩
      have hm := ha.1 (by omega)
      rw [hx] at hm
      cases hm
  | some x =>
      cases hy : b with
      | none =>
          refine ⟨fun h => ?_, fun _ x hx => nomatch hx⟩
          have hn := hb.1 (by omega)
          rw [hy] at hn
          cases hn
      | some y =>
          show Reads (ofRat (x + y)) (m + n)
          refine reads_ofRat (fun h => ?_) fun h => ?_
          · have hm := hx.symm.trans (ha.1 (by omega))
            have hn := hy.symm.trans (hb.1 (by omega))
            cases hm
            cases hn
            push_cast
            rfl
          · have hxpos := ha.nonneg hx
            have hypos := hb.nonneg hy
            by_cases hm : 2 ^ 53 ≤ m
            · exact le_add_of_le_of_nonneg (ha.2 hm x hx) hypos
            by_cases hn : 2 ^ 53 ≤ n
            · exact le_add_of_nonneg_of_le hxpos (hb.2 hn y hy)
            have hxm := hx.symm.trans (ha.1 (Nat.lt_of_not_le hm))
            have hyn := hy.symm.trans (hb.1 (Nat.lt_of_not_le hn))
            cases hxm
            cases hyn
            exact_mod_cast h

/-- Products with small numbers are read as products. -/
theorem Reads.mul (ha : Reads a m) (hn : 0 < n) (hsmall : n < 2 ^ 53) :
    Reads (a.mul (ofNat n)) (m * n) := by
  have hfactor : m ≤ m * n := Nat.le_mul_of_pos_right m hn
  cases hx : a with
  | none =>
      refine ⟨fun h => ?_, fun _ x hx => nomatch hx⟩
      have hm := ha.1 (by omega)
      rw [hx] at hm
      cases hm
  | some x =>
      rw [(reads_ofNat n).1 hsmall]
      show Reads (ofRat (x * n)) (m * n)
      refine reads_ofRat (fun h => ?_) fun h => ?_
      · have hm := hx.symm.trans (ha.1 (by omega))
        cases hm
        push_cast
        rfl
      · by_cases hm : 2 ^ 53 ≤ m
        · have hone : (1 : ℚ) ≤ n := by exact_mod_cast hn
          have hle := ha.2 hm x hx
          exact le_trans hle (le_mul_of_one_le_right (ha.nonneg hx) hone)
        · have hxm := hx.symm.trans (ha.1 (Nat.lt_of_not_le hm))
          cases hxm
          exact_mod_cast h

/-- A safe integer is one that was read exactly. -/
theorem Reads.isSafeInteger (h : Reads a n) :
    a.isSafeInteger = true ↔ n < 2 ^ 53 := by
  unfold Double.isSafeInteger
  constructor
  · intro hsafe
    by_contra hn
    obtain ⟨x, hx, hle⟩ := (Option.any_eq_true _ _).mp hsafe
    have hlarge := h.2 (Nat.le_of_not_lt hn) x hx
    have hbound := of_decide_eq_true (Bool.and_eq_true_iff.mp hle).2
    linarith
  · intro hn
    have hle : (n : ℚ) ≤ 9007199254740991 := by
      exact_mod_cast (by omega : n ≤ 9007199254740991)
    rw [h.1 hn]
    simp [hle]

end Binary64
