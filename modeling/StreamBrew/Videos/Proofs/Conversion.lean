/-
A currency change keeps the order of amounts and thresholds.

# Why this is not immediate

A quotient of the database is rounded twice: to the scale that the
database chooses, then to two decimals, and a larger dividend may get a
smaller scale. By the threshold rule the rounded value reaches `t` when
the exact one reaches `t` less half a cent less half a unit of the
chosen scale (`Numeric.le_round_div?_iff`), and that bound only falls
with the scale. The last case is a scale of two decimals, where the
second rounding does nothing: then the quotient exceeds 10¹⁶, so the
factor exceeds a hundredth, and two different amounts are too far apart
for the rounding to swap them.
-/
import StreamBrew.Videos.Proofs.Steps

namespace StreamBrew.Videos

variable {factor : Factor} {amount : Money} {q x : Numeric}

-- ================================ the factor

/-- The dividend of a conversion. -/
def Money.dividend (amount : Money) (factor : Factor) : Numeric :=
  amount.numeric.mul (.ofInt factor.numerator)

theorem Money.dividend_nonneg (amount : Money) (factor : Factor) :
    0 ≤ (amount.dividend factor).units := by
  show (0 : Int) ≤ (amount.1 : Int) * (factor.numerator : Int)
  positivity

theorem Money.dividend_value (amount : Money) (factor : Factor) :
    (amount.dividend factor).value
      = (amount.1 : ℚ) / 100 * factor.numerator := by
  unfold dividend
  rw [Numeric.value_mul, Numeric.value_ofInt]
  unfold Money.numeric Numeric.value
  norm_num

theorem converted_eq (h : converted amount factor = some x) :
    ∃ q, (amount.dividend factor).div? (.ofInt factor.denominator) = some q
      ∧ x = q.round 2 ∧ 0 < factor.denominator := by
  unfold converted at h
  obtain ⟨q, hq, rfl⟩ := Option.map_eq_some_iff.mp h
  refine ⟨q, hq, rfl, Nat.pos_of_ne_zero fun hz => ?_⟩
  have hnone : (amount.dividend factor).div? (.ofInt factor.denominator)
      = none := by
    rw [Numeric.div?_eq_none, hz]
    rfl
  rw [show (amount.dividend factor).div? (.ofInt factor.denominator)
    = some q from hq] at hnone
  cases hnone

theorem converted_scale (h : converted amount factor = some x) :
    x.scale = 2 := by
  obtain ⟨q, -, rfl, -⟩ := converted_eq h
  exact Numeric.scale_round q 2

theorem converted_nonneg (h : converted amount factor = some x) :
    0 ≤ x.units := by
  obtain ⟨q, hq, rfl, hpos⟩ := converted_eq h
  have hden : 0 < (Numeric.ofInt factor.denominator).units :=
    Int.natCast_pos.mpr hpos
  exact Numeric.round_nonneg
    (Numeric.div?_nonneg (amount.dividend_nonneg factor) hden hq) 2

theorem scale_dividend_div?
    (h : (amount.dividend factor).div? (.ofInt factor.denominator)
      = some q) : 2 ≤ q.scale := by
  rw [Numeric.scale_div? h]
  unfold Numeric.divScale
  have hscale : (amount.dividend factor).scale = 2 := rfl
  omega

/-- A quotient that keeps more than two decimals keeps at least four. -/
theorem scale_dividend_div?_of_lt
    (h : (amount.dividend factor).div? (.ofInt factor.denominator)
      = some q) (hlt : 2 < q.scale) : 4 ≤ q.scale := by
  rw [Numeric.scale_div? h] at hlt ⊢
  unfold Numeric.divScale at hlt ⊢
  have hscale : (amount.dividend factor).scale = 2 := rfl
  have hzero : (Numeric.ofInt factor.denominator).scale = 0 := rfl
  omega

/-- A quotient of two decimals is large, and so is its factor. -/
theorem factor_of_scale_two
    (h : (amount.dividend factor).div? (.ofInt factor.denominator)
      = some q) (hpos : 0 < (amount.dividend factor).units)
    (hd : 0 < factor.denominator) (hscale : q.scale = 2) :
    (factor.denominator : ℚ) < 100 * factor.numerator := by
  have hy : 0 < (Numeric.ofInt factor.denominator).units := by
    show (0 : Int) < (factor.denominator : Int)
    exact_mod_cast hd
  have hweight : (4 : Int) ≤ Numeric.quotientWeight
      (amount.dividend factor) (.ofInt factor.denominator) := by
    rw [Numeric.scale_div? h] at hscale
    unfold Numeric.divScale at hscale
    omega
  have hpow : (10000 : ℚ) ^ (4 : Int) ≤ 10000 ^ Numeric.quotientWeight
      (amount.dividend factor) (.ofInt factor.denominator) :=
    zpow_le_zpow_right₀ (by norm_num) hweight
  have hlarge := hpow.trans_lt (Numeric.quotientWeight_lt hpos hy)
  have hdq : (0 : ℚ) < factor.denominator := by exact_mod_cast hd
  rw [Money.dividend_value, Numeric.value_ofInt, Int.cast_natCast,
    lt_div_iff₀ hdq] at hlarge
  have hlimit : (amount.1 : ℚ) < 10 ^ 20 := by
    have hl := amount.2
    unfold moneyLimit at hl
    exact_mod_cast hl
  have hn : (0 : ℚ) ≤ factor.numerator := Nat.cast_nonneg _
  have hbound : (amount.1 : ℚ) / 100 * factor.numerator
      ≤ 10 ^ 18 * factor.numerator := by
    refine mul_le_mul_of_nonneg_right ?_ hn
    linarith
  norm_num at hlarge hbound
  linarith

/-- Two amounts are far apart after a factor above a hundredth. -/
theorem quotient_gap {a b : Money} (hab : a.1 < b.1)
    (hd : 0 < factor.denominator)
    (hfactor : (factor.denominator : ℚ) < 100 * factor.numerator) :
    (a.dividend factor).value / factor.denominator + 1 / 10000
      ≤ (b.dividend factor).value / factor.denominator := by
  have hdq : (0 : ℚ) < factor.denominator := by exact_mod_cast hd
  have hgap : (a.1 : ℚ) + 1 ≤ b.1 := by exact_mod_cast hab
  have hexpand : (b.1 : ℚ) / 100 * factor.numerator / factor.denominator
        - ((a.1 : ℚ) / 100 * factor.numerator / factor.denominator
          + 1 / 10000)
      = (((b.1 : ℚ) - a.1) * (100 * factor.numerator) - factor.denominator)
        / (10000 * factor.denominator) := by
    field_simp
    ring
  rw [Money.dividend_value, Money.dividend_value, ← sub_nonneg, hexpand]
  refine div_nonneg ?_ (by positivity)
  nlinarith

/-- When the amount in the other currency reaches a threshold. -/
theorem le_converted_iff {t : Numeric}
    (h : (amount.dividend factor).div? (.ofInt factor.denominator)
      = some q) (hd : 0 < factor.denominator) (ht : t.scale ≤ 2) :
    t ≤ q.round 2 ↔ t.value
      ≤ (amount.dividend factor).value / factor.denominator + 1 / 200
        + (if q.scale = 2 then 0 else 1 / (2 * 10 ^ q.scale)) := by
  have hden : 0 < (Numeric.ofInt factor.denominator).units :=
    Int.natCast_pos.mpr hd
  have hnonneg := amount.dividend_nonneg factor
  rcases (scale_dividend_div? h).eq_or_lt with htwo | hlt
  · rw [if_pos htwo.symm, Numeric.le_iff_value,
      Numeric.value_round htwo.symm.le, ← Numeric.le_iff_value,
      Numeric.le_div?_iff hnonneg hden h (by omega), ← htwo,
      Numeric.value_ofInt]
    norm_num
  · rw [if_neg hlt.ne', Numeric.le_round_div?_iff hnonneg hden h hlt ht,
      Numeric.value_ofInt]
    norm_num

/-- Nothing is converted to nothing. -/
theorem round_of_zero (hzero : (amount.dividend factor).units = 0)
    (h : (amount.dividend factor).div? (.ofInt factor.denominator)
      = some q) : (q.round 2).value = 0 := by
  have hq : q.units = 0 := by
    unfold Numeric.div? at h
    split at h
    case isTrue => cases h
    case isFalse =>
      injection h with h
      rw [← h, hzero]
      simp [Numeric.roundDiv]
  have hround : (q.round 2).units = 0 := by
    unfold Numeric.round
    split <;> simp [hq, Numeric.roundDiv]
  unfold Numeric.value
  rw [hround]
  simp

/-- A larger amount is converted to one that is no smaller. -/
theorem converted_mono {a b : Money} {y : Numeric}
    (hab : a.1 ≤ b.1) (hx : converted a factor = some x)
    (hy : converted b factor = some y) : x ≤ y := by
  have hynonneg := converted_nonneg hy
  obtain ⟨q, hq, rfl, hd⟩ := converted_eq hx
  obtain ⟨r, hr, rfl, -⟩ := converted_eq hy
  have hrefl : q.round 2 ≤ q.round 2 := Numeric.le_iff_value.mpr le_rfl
  rcases hab.eq_or_lt with heq | hlt
  · have hsame : a = b := Subtype.ext heq
    rw [hsame, hr] at hq
    cases hq
    exact hrefl
  rcases (a.dividend_nonneg factor).eq_or_lt with hzero | hpos
  · rw [Numeric.le_iff_value, round_of_zero hzero.symm hq]
    exact Numeric.value_nonneg.mpr hynonneg
  have htscale : (q.round 2).scale ≤ 2 := (Numeric.scale_round q 2).le
  have hle := (le_converted_iff hq hd htscale).mp hrefl
  rw [le_converted_iff hr hd htscale]
  have hvalue : (a.dividend factor).value ≤ (b.dividend factor).value := by
    have habq : (a.1 : ℚ) ≤ b.1 := by exact_mod_cast hab
    rw [Money.dividend_value, Money.dividend_value]
    gcongr
  have hquotient : (a.dividend factor).value / factor.denominator
      ≤ (b.dividend factor).value / factor.denominator := by gcongr
  have hhalf : ∀ s : Numeric, (0 : ℚ) ≤ 1 / (2 * 10 ^ s.scale) :=
    fun s => by positivity
  split at hle
  case isTrue hqtwo =>
    split
    case isTrue => linarith
    case isFalse => linarith [hhalf r]
  case isFalse hqtwo =>
    have hqlt : 2 < q.scale :=
      lt_of_le_of_ne (scale_dividend_div? hq) (Ne.symm hqtwo)
    split
    case isTrue hrtwo =>
      -- the amounts are further apart than the first rounding reaches
      have hposb : 0 < (b.dividend factor).units := by
        rw [← Numeric.value_pos] at hpos ⊢
        exact hpos.trans_le hvalue
      have hgap := quotient_gap hlt hd (factor_of_scale_two hr hposb hd hrtwo)
      have hp : (10 : ℚ) ^ 4 ≤ 10 ^ q.scale :=
        pow_le_pow_right₀ (by norm_num) (scale_dividend_div?_of_lt hq hqlt)
      have hsmall : (1 : ℚ) / (2 * 10 ^ q.scale) ≤ 1 / (2 * 10 ^ 4) := by
        gcongr
      norm_num at hsmall hle ⊢
      linarith
    case isFalse =>
      have hp : (10 : ℚ) ^ r.scale ≤ 10 ^ q.scale :=
        pow_le_pow_right₀ (by norm_num)
          (Numeric.scale_div?_anti hpos hvalue rfl hq hr)
      have hsmall : (1 : ℚ) / (2 * 10 ^ q.scale)
          ≤ 1 / (2 * 10 ^ r.scale) := by gcongr
      linarith

-- ================================ thresholds

/-- A threshold keeps whether it is the default one: at zero, or above
it. -/
theorem convertThreshold_positive {p q : VideoPriority}
    (h : convertThreshold factor p = .ok q) :
    q.minPricePerMinute.1 = 0 ↔ p.minPricePerMinute.1 = 0 := by
  rw [← q.check, ← p.check, (convertThreshold_ok h).2.2]

/-- The amount of a rounded decimal. -/
theorem ofNumeric?_ok (hscale : x.scale = 2)
    (hx : 0 ≤ x.units) (h : Money.ofNumeric? x = some amount) :
    (amount.1 : Int) = x.units := by
  unfold Money.ofNumeric? at h
  have hround : (x.round 2).units = x.units := by
    unfold Numeric.round
    rw [if_pos hscale.le, hscale]
    simp
  dsimp only at h
  split at h
  case isFalse => cases h
  case isTrue =>
    cases h
    show ((x.round 2).units.toNat : Int) = x.units
    rw [hround, Int.toNat_of_nonneg hx]

/-- What a positive threshold is converted to. -/
theorem convertThreshold_amount {p q : VideoPriority}
    (hp : ¬ p.isDefault = true) (h : convertThreshold factor p = .ok q) :
    ∃ x, converted p.minPricePerMinute factor = some x
      ∧ (q.minPricePerMinute.1 : Int) = max 1 x.units := by
  unfold convertThreshold at h
  rw [if_neg hp] at h
  split at h
  case h_1 => cases h
  case h_2 x hx =>
    refine ⟨x, hx, ?_⟩
    split at h
    case h_1 => cases h
    case h_2 amount hamount =>
      rw [(VideoPriority.withThreshold_ok h).2.2.2.2]
      have hscale := converted_scale hx
      have hle : x ≤ Money.cent.numeric ↔ x.units ≤ 1 := by
        show x.units * 10 ^ 2 ≤ 1 * 10 ^ x.scale ↔ x.units ≤ 1
        rw [hscale]
        omega
      split at hamount
      case isTrue hcent =>
        have hone := ofNumeric?_ok (x := Money.cent.numeric) rfl
          (show (0 : Int) ≤ 1 by omega) hamount
        have hcent := hle.mp hcent
        change (amount.1 : Int) = 1 at hone
        omega
      case isFalse hcent =>
        have hunits := ofNumeric?_ok hscale (converted_nonneg hx) hamount
        have hcent := mt hle.mpr hcent
        omega

/-- Thresholds keep their order, weakly. -/
theorem convertThreshold_mono {p q p' q' : VideoPriority}
    (hle : p.minPricePerMinute.1 ≤ q.minPricePerMinute.1)
    (hp : convertThreshold factor p = .ok p')
    (hq : convertThreshold factor q = .ok q') :
    p'.minPricePerMinute.1 ≤ q'.minPricePerMinute.1 := by
  by_cases hdefault : p.isDefault = true
  · rw [(convertThreshold_positive hp).mpr (p.check.mp hdefault)]
    exact Nat.zero_le _
  · have hqdefault : ¬ q.isDefault = true := by
      rw [q.check]
      intro hz
      rw [hz, Nat.le_zero] at hle
      exact hdefault (p.check.mpr hle)
    obtain ⟨x, hx, hxp⟩ := convertThreshold_amount hdefault hp
    obtain ⟨y, hy, hyq⟩ := convertThreshold_amount hqdefault hq
    have hxy : x.units ≤ y.units := by
      have hnumeric := converted_mono hle hx hy
      change x.units * 10 ^ y.scale ≤ y.units * 10 ^ x.scale at hnumeric
      rw [converted_scale hx, converted_scale hy] at hnumeric
      omega
    omega

end StreamBrew.Videos
