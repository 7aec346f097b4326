/-
Decimals of any precision, as an SQL database computes with them.

A decimal is a whole number of units of 10⁻ˢ; its scale `s` is part of
the value. Products are exact. A quotient is rounded, halves away from
zero, to a scale that the two operands determine (`divScale`): at least
their own scales, and enough for sixteen significant digits.

# The threshold rule

A rounded value is used here for one thing, to be compared with another
decimal. `le_div?_iff` and `le_round_iff` say what such a comparison
means for the exact value: a decimal that the rounded scale can
represent is at most the rounded value when it is at most half a unit
above the exact one. What rounding can and cannot change follows from
these two (`le_div?_of_le`, `le_div?_iff_le`).
-/
import Mathlib.Data.Nat.Log
import Mathlib.Tactic

/-- `units` times 10 to the power of `-scale`. -/
structure Numeric where
  units : Int
  scale : Nat
  deriving DecidableEq, Repr

namespace Numeric

/-- The number a decimal stands for. -/
def value (x : Numeric) : ℚ := x.units / 10 ^ x.scale

/-- A whole number. -/
def ofInt (n : Int) : Numeric := ⟨n, 0⟩

/-- Comparison is comparison of values, whatever the scales are. -/
instance : LE Numeric :=
  ⟨fun x y => x.units * 10 ^ y.scale ≤ y.units * 10 ^ x.scale⟩

instance (x y : Numeric) : Decidable (x ≤ y) :=
  inferInstanceAs (Decidable (_ ≤ (_ : Int)))

/-- Scales add up. -/
def mul (x y : Numeric) : Numeric :=
  ⟨x.units * y.units, x.scale + y.scale⟩

/-- The whole number nearest to `n / d`, halves away from zero. -/
def roundDiv (n d : Int) : Int :=
  n.sign * d.sign * ((2 * n.natAbs + d.natAbs) / (2 * d.natAbs) : Nat)

/-- `round(x, scale)`. -/
def round (x : Numeric) (scale : Nat) : Numeric :=
  if x.scale ≤ scale then ⟨x.units * 10 ^ (scale - x.scale), scale⟩
  else ⟨roundDiv x.units (10 ^ (x.scale - scale)), scale⟩

/-- The position and the value of the leading digit in base 10000,
where the digits are aligned at the decimal point. -/
def leading (x : Numeric) : Int × Nat :=
  if x.units = 0 then (0, 0)
  else
    let pad := (4 - x.scale % 4) % 4
    let n := x.units.natAbs * 10 ^ pad
    let position := Nat.log 10000 n
    ((position : Int) - ((x.scale + pad) / 4 : Nat), n / 10000 ^ position)

/-- The estimated position of the leading digit of a quotient. -/
def quotientWeight (x y : Numeric) : Int :=
  (leading x).1 - (leading y).1
    - if (leading x).2 ≤ (leading y).2 then 1 else 0

/-- The scale of a quotient: at least sixteen significant digits, no
less than the scales of the operands, at most 1000. -/
def divScale (x y : Numeric) : Nat :=
  min (max (max (16 - quotientWeight x y * 4).toNat x.scale) y.scale) 1000

/-- Division; there is none by zero. -/
def div? (x y : Numeric) : Option Numeric :=
  if y.units = 0 then none
  else some
    ⟨roundDiv (x.units * 10 ^ (divScale x y + y.scale))
      (y.units * 10 ^ x.scale), divScale x y⟩

-- ==================================== values

private theorem pow_pos' (s : Nat) : (0 : ℚ) < 10 ^ s := by positivity

theorem le_iff_value {x y : Numeric} : x ≤ y ↔ x.value ≤ y.value := by
  have hx := pow_pos' x.scale
  have hy := pow_pos' y.scale
  show x.units * 10 ^ y.scale ≤ y.units * 10 ^ x.scale ↔ _
  unfold value
  rw [div_le_div_iff₀ hx hy]
  exact_mod_cast Iff.rfl

@[simp] theorem value_ofInt (n : Int) : (ofInt n).value = n := by
  simp [value, ofInt]

@[simp] theorem value_mul (x y : Numeric) :
    (x.mul y).value = x.value * y.value := by
  unfold value mul
  push_cast
  rw [pow_add, mul_div_mul_comm]

instance : Preorder Numeric where
  le_refl x := le_iff_value.mpr le_rfl
  le_trans x y z hxy hyz := le_iff_value.mpr
    ((le_iff_value.mp hxy).trans (le_iff_value.mp hyz))

theorem value_nonneg {x : Numeric} : 0 ≤ x.value ↔ 0 ≤ x.units := by
  unfold value
  rw [le_div_iff₀ (pow_pos' x.scale), zero_mul]
  exact_mod_cast Iff.rfl

theorem value_pos {x : Numeric} : 0 < x.value ↔ 0 < x.units := by
  unfold value
  rw [div_pos_iff_of_pos_right (pow_pos' x.scale)]
  exact_mod_cast Iff.rfl

-- ================================== rounding

/-- A whole number is at most the rounded quotient when it is at most
the quotient and a half. -/
theorem le_roundDiv_iff {n d : Int} (hn : 0 ≤ n) (hd : 0 < d) (m : Int) :
    m ≤ roundDiv n d ↔ m * (2 * d) ≤ 2 * n + d := by
  obtain ⟨n, rfl⟩ := Int.eq_ofNat_of_zero_le hn
  obtain ⟨d, rfl⟩ := Int.eq_ofNat_of_zero_le hd.le
  have hd' : 0 < d := by exact_mod_cast hd
  have hround : roundDiv n d = ((2 * n + d) / (2 * d) : Nat) := by
    unfold roundDiv
    rw [Int.sign_eq_one_of_pos hd, Int.natAbs_natCast, Int.natAbs_natCast]
    rcases Nat.eq_zero_or_pos n with rfl | hpos
    · rw [show (2 * 0 + d) / (2 * d) = 0 from
        Nat.div_eq_of_lt (by omega)]
      simp
    · rw [Int.sign_eq_one_of_pos (by exact_mod_cast hpos)]
      simp
  rw [hround]
  push_cast
  rw [Int.le_ediv_iff_mul_le (by omega)]

theorem roundDiv_nonneg {n d : Int} (hn : 0 ≤ n) (hd : 0 < d) :
    0 ≤ roundDiv n d := by
  rw [le_roundDiv_iff hn hd]
  omega

/-- The same decimal written with more digits. -/
theorem value_rescale (m : Int) {s r : Nat} (h : s ≤ r) :
    (⟨m * 10 ^ (r - s), r⟩ : Numeric).value = (⟨m, s⟩ : Numeric).value := by
  have hs := (pow_pos' s).ne'
  have hr := (pow_pos' r).ne'
  unfold value
  push_cast
  rw [div_eq_div_iff hr hs, mul_assoc, ← pow_add, Nat.sub_add_cancel h]

/-- The threshold rule for one rounding of a fraction to scale `r`. -/
private theorem le_rounded_iff {n d : Int} (hn : 0 ≤ n) (hd : 0 < d)
    {r : Nat} {t : Numeric} (ht : t.scale ≤ r) :
    t ≤ ⟨roundDiv (n * 10 ^ r) d, r⟩
      ↔ t.value ≤ (n : ℚ) / d + 1 / (2 * 10 ^ r) := by
  have hr : (0 : ℚ) < 10 ^ r := pow_pos' r
  have hdq : (0 : ℚ) < d := by exact_mod_cast hd
  have hval := value_rescale t.units ht
  have hcmp : t ≤ ⟨roundDiv (n * 10 ^ r) d, r⟩
      ↔ t.units * 10 ^ (r - t.scale) ≤ roundDiv (n * 10 ^ r) d := by
    rw [le_iff_value, ← show _ = t.value from hval]
    unfold value
    rw [div_le_div_iff_of_pos_right hr]
    exact_mod_cast Iff.rfl
  rw [hcmp, le_roundDiv_iff (by positivity) hd,
    ← show _ = t.value from hval]
  unfold value
  rw [div_add_div _ _ hdq.ne' (by positivity),
    div_le_div_iff₀ hr (by positivity)]
  set m : Int := t.units * 10 ^ (r - t.scale)
  have key : (m : ℚ) * (d * (2 * 10 ^ r)) - (n * (2 * 10 ^ r) + d * 1) * 10 ^ r
      = ((m * (2 * d) : Int) - (2 * (n * 10 ^ r) + d : Int) : ℚ) * 10 ^ r := by
    push_cast
    ring
  rw [← sub_nonpos (a := (m : ℚ) * _), key]
  constructor
  · intro h
    have hq : ((m * (2 * d) : Int) : ℚ) ≤ (2 * (n * 10 ^ r) + d : Int) := by
      exact_mod_cast h
    exact mul_nonpos_of_nonpos_of_nonneg (sub_nonpos.mpr hq) hr.le
  · intro h
    have hq := nonpos_of_mul_nonpos_left h hr
    exact_mod_cast sub_nonpos.mp hq

/-- Rounding is within half a unit, and goes up from the half on. -/
theorem le_round_iff {x t : Numeric} (hx : 0 ≤ x.units) {r : Nat}
    (hr : r < x.scale) (ht : t.scale ≤ r) :
    t ≤ x.round r ↔ t.value ≤ x.value + 1 / (2 * 10 ^ r) := by
  have hd : (0 : Int) < 10 ^ (x.scale - r) * 10 ^ r := by positivity
  have hround : x.round r
      = ⟨roundDiv (x.units * 10 ^ r) (10 ^ (x.scale - r) * 10 ^ r), r⟩ := by
    unfold round
    rw [if_neg (by omega)]
    congr 1
    refine le_antisymm ?_ ?_
    · rw [le_roundDiv_iff (by positivity) (by positivity)]
      have h := (le_roundDiv_iff hx (d := 10 ^ (x.scale - r))
        (by positivity) _).mp le_rfl
      have hp : (0 : Int) < 10 ^ r := by positivity
      nlinarith
    · rw [le_roundDiv_iff hx (by positivity)]
      have h := (le_roundDiv_iff (n := x.units * 10 ^ r)
        (d := 10 ^ (x.scale - r) * 10 ^ r) (by positivity)
        (by positivity) _).mp le_rfl
      have hp : (0 : Int) < 10 ^ r := by positivity
      nlinarith
  have hscale : (10 : ℚ) ^ (x.scale - r) * 10 ^ r = 10 ^ x.scale := by
    rw [← pow_add, Nat.sub_add_cancel hr.le]
  rw [hround, le_rounded_iff hx hd ht]
  push_cast
  rw [hscale]
  rfl

/-- Rounding to a scale that can hold the decimal leaves its value. -/
theorem value_round {x : Numeric} {r : Nat} (h : x.scale ≤ r) :
    (x.round r).value = x.value := by
  unfold round
  rw [if_pos h]
  exact value_rescale x.units h

@[simp] theorem scale_round (x : Numeric) (r : Nat) :
    (x.round r).scale = r := by
  unfold round
  split <;> rfl

theorem round_nonneg {x : Numeric} (hx : 0 ≤ x.units) (r : Nat) :
    0 ≤ (x.round r).units := by
  unfold round
  split
  case isTrue => exact mul_nonneg hx (by positivity)
  case isFalse => exact roundDiv_nonneg hx (by positivity)

-- ============================ leading digits

/-- The leading digit bounds the value from both sides. -/
theorem leading_spec {x : Numeric} (hx : 0 < x.units) :
    1 ≤ (leading x).2 ∧ (leading x).2 < 10000
      ∧ ((leading x).2 : ℚ) * 10000 ^ (leading x).1 ≤ x.value
      ∧ x.value < ((leading x).2 + 1 : ℚ) * 10000 ^ (leading x).1 := by
  obtain ⟨pad, hpad⟩ : ∃ pad, pad = (4 - x.scale % 4) % 4 := ⟨_, rfl⟩
  obtain ⟨n, hn⟩ : ∃ n, n = x.units.natAbs * 10 ^ pad := ⟨_, rfl⟩
  obtain ⟨k, hk⟩ : ∃ k, k = (x.scale + pad) / 4 := ⟨_, rfl⟩
  have hlead : leading x
      = ((Nat.log 10000 n : Int) - k, n / 10000 ^ Nat.log 10000 n) := by
    unfold leading
    rw [if_neg (by omega), hn, hk, hpad]
  have hpos : 0 < n := by
    rw [hn]
    exact Nat.mul_pos (by omega) (by positivity)
  have hvalue : x.value = n / 10000 ^ k := by
    have hunits : (x.units : ℚ) = x.units.natAbs := by
      rw [← Int.cast_natCast, Int.natAbs_of_nonneg hx.le]
    have h4 : x.scale + pad = 4 * k := by omega
    have hbase : (10000 : ℚ) ^ k = 10 ^ (x.scale + pad) := by
      rw [h4, pow_mul]
      norm_num
    unfold value
    rw [hbase, hn, hunits, pow_add]
    push_cast
    rw [mul_div_mul_right _ _ (by positivity)]
  have hlow := Nat.pow_log_le_self 10000 hpos.ne'
  have hhigh := Nat.lt_pow_succ_log_self (b := 10000) (by norm_num) n
  rw [hlead]
  obtain ⟨p, hp⟩ : ∃ p, p = Nat.log 10000 n := ⟨_, rfl⟩
  rw [← hp] at hlow hhigh ⊢
  have hB : (0 : ℕ) < 10000 ^ p := by positivity
  have hzpow : (10000 : ℚ) ^ ((p : Int) - k) = 10000 ^ p / 10000 ^ k := by
    rw [zpow_sub₀ (by norm_num), zpow_natCast, zpow_natCast]
  have hkq : (0 : ℚ) < 10000 ^ k := by positivity
  refine ⟨?_, ?_, ?_, ?_⟩
  · exact (Nat.one_le_div_iff hB).mpr hlow
  · refine (Nat.div_lt_iff_lt_mul hB).mpr ?_
    rw [Nat.pow_succ] at hhigh
    omega
  · rw [hvalue, hzpow, ← mul_div_assoc, div_le_div_iff_of_pos_right hkq]
    exact_mod_cast Nat.div_mul_le_self n (10000 ^ p)
  · rw [hvalue, hzpow, ← mul_div_assoc, div_lt_div_iff_of_pos_right hkq]
    have h := Nat.lt_mul_div_succ n hB
    rw [mul_comm] at h
    exact_mod_cast h

/-- A larger decimal does not have a smaller leading digit. -/
theorem leading_mono {x y : Numeric} (hx : 0 < x.units)
    (hxy : x.value ≤ y.value) :
    (leading x).1 < (leading y).1
      ∨ (leading x).1 = (leading y).1
        ∧ (leading x).2 ≤ (leading y).2 := by
  have hy : 0 < y.units :=
    value_pos.mp (lt_of_lt_of_le (value_pos.mpr hx) hxy)
  obtain ⟨hone, -, hlow, -⟩ := leading_spec hx
  obtain ⟨-, hdigit, -, hhigh⟩ := leading_spec hy
  have hB : (0 : ℚ) < 10000 ^ (leading y).1 := zpow_pos (by norm_num) _
  rcases lt_trichotomy (leading x).1 (leading y).1 with h | h | h
  · exact Or.inl h
  · refine Or.inr ⟨h, ?_⟩
    rw [h] at hlow
    have hlt := lt_of_mul_lt_mul_right (hlow.trans_lt (hxy.trans_lt hhigh))
      hB.le
    have hlt' : (leading x).2 < (leading y).2 + 1 := by exact_mod_cast hlt
    omega
  · -- the position of `x` would put it above all of `y`
    exfalso
    have hstep : (10000 : ℚ) ^ ((leading y).1 + 1) ≤ 10000 ^ (leading x).1 :=
      zpow_le_zpow_right₀ (by norm_num) (by omega)
    rw [zpow_add₀ (by norm_num), zpow_one, mul_comm] at hstep
    have hone' : (1 : ℚ) ≤ (leading x).2 := by exact_mod_cast hone
    have hdigit' : ((leading y).2 : ℚ) + 1 ≤ 10000 := by
      exact_mod_cast hdigit
    have hX : (0 : ℚ) < 10000 ^ (leading x).1 := zpow_pos (by norm_num) _
    have h1 := mul_le_mul_of_nonneg_right hone' hX.le
    have h2 := mul_le_mul_of_nonneg_right hdigit' hB.le
    linarith

/-- The estimate never exceeds the leading digit of the quotient. -/
theorem quotientWeight_lt {x y : Numeric} (hx : 0 < x.units)
    (hy : 0 < y.units) :
    (10000 : ℚ) ^ quotientWeight x y < x.value / y.value := by
  obtain ⟨hone, -, hlow, -⟩ := leading_spec hx
  obtain ⟨-, hdigit, -, hhigh⟩ := leading_spec hy
  rw [lt_div_iff₀ (value_pos.mpr hy)]
  have hX : (0 : ℚ) < 10000 ^ (leading x).1 := zpow_pos (by norm_num) _
  unfold quotientWeight
  have hgap : (10000 : ℚ) ^ ((leading x).1 - (leading y).1)
      * 10000 ^ (leading y).1 = 10000 ^ (leading x).1 := by
    rw [← zpow_add₀ (by norm_num), Int.sub_add_cancel]
  have hG : (0 : ℚ) < 10000 ^ ((leading x).1 - (leading y).1) :=
    zpow_pos (by norm_num) _
  have hyB := mul_lt_mul_of_pos_left hhigh hG
  rw [mul_left_comm, hgap] at hyB
  split
  case isTrue hle =>
    rw [zpow_sub₀ (by norm_num), zpow_one, div_mul_eq_mul_div,
      div_lt_iff₀ (by norm_num)]
    have hone' : (1 : ℚ) ≤ (leading x).2 := by exact_mod_cast hone
    have hdigit' : ((leading y).2 : ℚ) + 1 ≤ 10000 := by
      exact_mod_cast hdigit
    have h1 := mul_le_mul_of_nonneg_right hone' hX.le
    have h2 := mul_le_mul_of_nonneg_right hdigit' hX.le
    linarith
  case isFalse hlt =>
    have hsucc : ((leading y).2 : ℚ) + 1 ≤ (leading x).2 := by
      exact_mod_cast Nat.lt_of_not_le hlt
    have h1 := mul_le_mul_of_nonneg_right hsucc hX.le
    rw [sub_zero]
    linarith

theorem quotientWeight_mono {x x' y : Numeric} (hx : 0 < x.units)
    (hle : x.value ≤ x'.value) :
    quotientWeight x y ≤ quotientWeight x' y := by
  unfold quotientWeight
  rcases leading_mono hx hle with h | ⟨h, hd⟩
  · split <;> split <;> omega
  · split <;> split <;> omega

-- ================================= quotients

section Div

variable {x y q : Numeric}

theorem div?_eq_none : x.div? y = none ↔ y.units = 0 := by
  unfold div?
  split <;> simp_all

theorem div?_isSome (hy : y.units ≠ 0) : ∃ q, x.div? y = some q := by
  cases h : x.div? y with
  | none => exact absurd (div?_eq_none.mp h) hy
  | some q => exact ⟨q, rfl⟩

theorem scale_div? (h : x.div? y = some q) : q.scale = divScale x y := by
  unfold div? at h
  split at h
  case isTrue => cases h
  case isFalse =>
    injection h with h
    rw [← h]

theorem div?_nonneg (hx : 0 ≤ x.units) (hy : 0 < y.units)
    (h : x.div? y = some q) : 0 ≤ q.units := by
  unfold div? at h
  rw [if_neg hy.ne'] at h
  injection h with h
  rw [← h]
  exact roundDiv_nonneg (by positivity) (by positivity)

/-- The threshold rule for a quotient. -/
theorem le_div?_iff (hx : 0 ≤ x.units) (hy : 0 < y.units)
    (h : x.div? y = some q) {t : Numeric} (ht : t.scale ≤ q.scale) :
    t ≤ q ↔ t.value ≤ x.value / y.value + 1 / (2 * 10 ^ q.scale) := by
  have hq := scale_div? h
  unfold div? at h
  rw [if_neg hy.ne'] at h
  injection h with h
  have hunits : x.units * 10 ^ (divScale x y + y.scale)
      = (x.units * 10 ^ y.scale) * 10 ^ divScale x y := by
    rw [pow_add]
    ring
  rw [hunits] at h
  have hfrac : ((x.units * 10 ^ y.scale : Int) : ℚ)
      / ((y.units * 10 ^ x.scale : Int) : ℚ) = x.value / y.value := by
    unfold value
    push_cast
    rw [div_div_div_eq, mul_comm (10 ^ x.scale : ℚ)]
  rw [hq] at ht ⊢
  rw [← h, le_rounded_iff (by positivity) (by positivity) ht, hfrac]

/-- What the exact quotient reaches, the rounded one reaches. -/
theorem le_div?_of_le (hx : 0 ≤ x.units) (hy : 0 < y.units)
    (h : x.div? y = some q) {t : Numeric} (ht : t.scale ≤ q.scale)
    (hle : t.value ≤ x.value / y.value) : t ≤ q := by
  rw [le_div?_iff hx hy h ht]
  have hhalf : (0 : ℚ) ≤ 1 / (2 * 10 ^ q.scale) := by positivity
  linarith

/-- Where the scale of a quotient by a whole number is fine enough,
comparing with the rounded quotient is comparing with the exact one: a
decimal of the scale of the dividend that exceeds the exact quotient
exceeds it by more than rounding can add. -/
theorem le_div?_iff_le (hx : 0 ≤ x.units) {d : Int} (hd : 0 < d)
    (h : x.div? (ofInt d) = some q) {t : Numeric}
    (ht : t.scale = x.scale) (hfine : 10 ^ x.scale * d < 2 * 10 ^ q.scale) :
    t ≤ q ↔ t.value ≤ x.value / d := by
  have hy : (ofInt d).units = d := rfl
  have hle : t.scale ≤ q.scale := by
    rw [ht, scale_div? h]
    by_contra hlt
    rw [not_le] at hlt
    have hpow : (10 : Int) ^ divScale x (ofInt d) * 10 ≤ 10 ^ x.scale := by
      rw [← pow_succ]
      exact pow_le_pow_right₀ (by norm_num) hlt
    rw [scale_div? h] at hfine
    have hpos : (0 : Int) < 10 ^ divScale x (ofInt d) := by positivity
    nlinarith
  constructor
  · intro htq
    rw [le_div?_iff hx (by rw [hy]; exact hd) h hle, value_ofInt] at htq
    by_contra hgt
    rw [not_le] at hgt
    have hdq : (0 : ℚ) < d := by exact_mod_cast hd
    have hs : (0 : ℚ) < 10 ^ x.scale := pow_pos' _
    -- both sides over the denominator `10 ^ scale * d`
    have hgap : x.units + 1 ≤ t.units * d := by
      rw [div_lt_iff₀ hdq] at hgt
      unfold value at hgt
      rw [ht, div_mul_eq_mul_div, div_lt_div_iff_of_pos_right hs] at hgt
      exact_mod_cast hgt
    have hgap' : x.value / d + 1 / (10 ^ x.scale * d) ≤ t.value := by
      unfold value
      rw [ht, div_div, ← add_div, div_le_div_iff₀ (by positivity) hs]
      have hq : (x.units + 1 : ℚ) ≤ t.units * d := by exact_mod_cast hgap
      nlinarith
    have hsmall : (1 : ℚ) / (2 * 10 ^ q.scale) < 1 / (10 ^ x.scale * d) := by
      refine one_div_lt_one_div_of_lt (by positivity) ?_
      exact_mod_cast hfine
    linarith
  · intro hle'
    exact le_div?_of_le hx (by rw [hy]; exact hd) h hle
      (by rw [value_ofInt]; exact hle')

/-- Below `10000 ^ (k + 1)` a quotient keeps `16 - 4k` decimals. -/
theorem le_scale_div? (hx : 0 < x.units) (hy : 0 < y.units)
    (h : x.div? y = some q) {k : Nat}
    (hlt : x.value / y.value < 10000 ^ (k + 1)) :
    16 - 4 * k ≤ q.scale := by
  have hweight : quotientWeight x y < (k + 1 : Nat) := by
    have hpow := (quotientWeight_lt hx hy).trans hlt
    rw [← zpow_natCast] at hpow
    exact (zpow_lt_zpow_iff_right₀ (by norm_num)).mp hpow
  rw [scale_div? h]
  unfold divScale
  omega

/-- The threshold rule for a quotient that is rounded once more. -/
theorem le_round_div?_iff (hx : 0 ≤ x.units) (hy : 0 < y.units)
    (h : x.div? y = some q) {t : Numeric} {r : Nat} (hr : r < q.scale)
    (ht : t.scale ≤ r) :
    t ≤ q.round r ↔ t.value
      ≤ x.value / y.value + 1 / (2 * 10 ^ r) + 1 / (2 * 10 ^ q.scale) := by
  -- half a unit of scale `r` is five units of the next scale
  obtain ⟨u, hscale, hvalue⟩ : ∃ u : Numeric, u.scale = r + 1
      ∧ u.value = t.value - 1 / (2 * 10 ^ r) := by
    refine ⟨⟨t.units * 10 ^ (r + 1 - t.scale) - 5, r + 1⟩, rfl, ?_⟩
    rw [← value_rescale t.units (show t.scale ≤ r + 1 by omega)]
    unfold value
    have hpow : (10 : ℚ) ^ (r + 1) = 10 ^ r * 10 := pow_succ _ _
    push_cast
    rw [hpow]
    field_simp
    ring
  rw [le_round_iff (div?_nonneg hx hy h) hr ht, ← sub_le_iff_le_add,
    ← hvalue, ← le_iff_value, le_div?_iff hx hy h (by omega), hvalue,
    sub_le_iff_le_add, add_right_comm]

/-- A larger dividend does not get a larger scale. -/
theorem scale_div?_anti {x' q' : Numeric} (hx : 0 < x.units)
    (hle : x.value ≤ x'.value) (hscale : x.scale = x'.scale)
    (h : x.div? y = some q) (h' : x'.div? y = some q') :
    q'.scale ≤ q.scale := by
  have hweight := quotientWeight_mono (y := y) hx hle
  rw [scale_div? h, scale_div? h']
  unfold divScale
  omega

/-- A quotient of zero by a whole number keeps sixteen decimals. -/
theorem scale_div?_zero (hx : x.units = 0) (hy : 0 < y.units)
    (hwhole : y.scale = 0) (h : x.div? y = some q) : 16 ≤ q.scale := by
  have hposition : 0 ≤ (leading y).1 := by
    unfold leading
    rw [if_neg hy.ne', hwhole]
    exact Int.sub_nonneg_of_le (by simp)
  have hweight : quotientWeight x y ≤ 0 := by
    unfold quotientWeight
    rw [show leading x = (0, 0) by unfold leading; rw [if_pos hx]]
    split <;> omega
  rw [scale_div? h]
  unfold divScale
  omega

end Div

end Numeric
