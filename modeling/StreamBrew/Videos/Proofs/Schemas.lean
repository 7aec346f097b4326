/-
The four normalisers of amounts agree, and which rates are zero.

A normaliser matches a pattern and writes the two groups of the match out
again, with zeros added to the fraction or taken from it. Of a text that
it has written the groups are the same number, written the way it writes
them: that gives what is returned, what it denotes and that it is returned
once more, for all four.
-/
import Mathlib.Data.List.DropRight
import StreamBrew.Videos.Schemas
import StreamBrew.Videos.Proofs.Money

namespace StreamBrew.Schemas

open Text
open Money (normalize normalizeDonationAmount trimEnd_zeros)
open Videos (QueueCurrency Factor)

variable {r s value : Chars} {m : Chars × Chars}

-- =============================== normalisers

/-- A normaliser takes what is an amount once it is trimmed, returns what
it has returned as it is, and keeps what is denoted. -/
structure Normalizes (w f : Nat) (trim : Chars → Chars)
    (normalize : Chars → Option Chars) : Prop where
  accepts : ∀ s, (normalize s).isSome = true ↔ Decimal.IsAmount w f (trim s)
  idempotent : ∀ s t, normalize s = some t → normalize t = some t
  value : ∀ s t, normalize s = some t →
    Decimal.value t = Decimal.value (trim s)

/-- Two groups of a match, written as a text. -/
structure Renders (w f : Nat) (trim : Chars → Chars)
    (render : Chars × Chars → Chars) (m : Chars × Chars) : Prop where
  /-- The text is matched again, and is written the same way. -/
  again : ∃ n, Decimal.pattern w f (trim (render m)) = some n
    ∧ render n = render m
  value : Decimal.value (render m) = Decimal.value (m.1 ++ '.' :: m.2)

section Render

variable {w f : Nat} {trim : Chars → Chars}
  {render : Chars × Chars → Chars}

/-- Where every match renders, the normaliser normalises. -/
theorem normalizes_render
    (h : ∀ s m, Decimal.pattern w f s = some m → Renders w f trim render m) :
    Normalizes w f trim fun s =>
      (Decimal.pattern w f (trim s)).map render where
  accepts := by
    intro s
    rw [Option.isSome_map, Decimal.pattern_isSome_iff]
  idempotent := by
    intro s t ht
    obtain ⟨m, hm, rfl⟩ := Option.map_eq_some_iff.mp ht
    obtain ⟨n, hn, he⟩ := (h _ m hm).again
    show (Decimal.pattern w f (trim (render m))).map render = _
    rw [hn, Option.map_some, he]
  value := by
    intro s t ht
    obtain ⟨m, hm, rfl⟩ := Option.map_eq_some_iff.mp ht
    rw [(h _ m hm).value, Decimal.value_pattern hm]

/-- Two normalisers for one kind of amounts return the same numbers. -/
theorem Normalizes.agree {g g' : Chars → Option Chars}
    (h : Normalizes w f trim g) (h' : Normalizes w f id g') (s : Chars) :
    (g s).map Decimal.value = (g' (trim s)).map Decimal.value := by
  have haccepts := (h.accepts s).trans (h'.accepts (trim s)).symm
  cases hg : g s with
  | none =>
      cases hg' : g' (trim s) with
      | none => rfl
      | some t =>
          rw [hg, hg'] at haccepts
          exact absurd (haccepts.mpr rfl) (by decide)
  | some t =>
      cases hg' : g' (trim s) with
      | none =>
          rw [hg, hg'] at haccepts
          exact absurd (haccepts.mp rfl) (by decide)
      | some t' =>
          rw [Option.map_some, Option.map_some, h.value s t hg,
            h'.value (trim s) t' hg']
          rfl

end Render

-- ================================= fractions

theorem trimEnd_append_zeros (s : Chars) (k : Nat) :
    trimEnd (· = '0') (s ++ List.replicate k '0') = trimEnd (· = '0') s := by
  unfold trimEnd
  rw [List.reverse_append, List.reverse_replicate,
    List.dropWhile_append_of_pos]
  intro c hc
  exact decide_eq_true (List.eq_of_mem_replicate hc)

theorem trimEnd_trimEnd (s : Chars) :
    trimEnd (· = '0') (trimEnd (· = '0') s) = trimEnd (· = '0') s := by
  unfold trimEnd
  rw [List.reverse_reverse, List.dropWhile_idempotent (p := (· = '0'))]

theorem trimEnd_length_le (s : Chars) :
    (trimEnd (· = '0') s).length ≤ s.length := by
  obtain ⟨k, hk⟩ := trimEnd_zeros s
  have hsum := congrArg List.length hk
  rw [List.length_append] at hsum
  omega

theorem isDigit_trimEnd (h : ∀ c ∈ s, c.isDigit = true) :
    ∀ c ∈ trimEnd (· = '0') s, c.isDigit = true :=
  fun c hc => h c (mem_trimEnd hc)

theorem isDigit_padEnd (h : ∀ c ∈ s, c.isDigit = true)
    (width : Nat) : ∀ c ∈ padEnd width s, c.isDigit = true := by
  intro c hc
  rcases List.mem_append.mp hc with hc | hc
  · exact h c hc
  · rw [List.eq_of_mem_replicate hc]
    rfl

theorem length_padEnd {width : Nat} (h : s.length ≤ width) :
    (padEnd width s).length = width := by
  unfold padEnd
  rw [List.length_append, List.length_replicate]
  omega

theorem padEnd_long {width : Nat} (h : width ≤ s.length) :
    padEnd width s = s := by
  unfold padEnd
  rw [Nat.sub_eq_zero_of_le h, List.replicate_zero, List.append_nil]

section Digits

variable {whole fraction : Chars}

theorem value_padEnd (hwhole : ∀ c ∈ whole, c.isDigit = true) (width : Nat) :
    Decimal.value (whole ++ '.' :: padEnd width fraction)
      = Decimal.value (whole ++ '.' :: fraction) :=
  Decimal.value_zeros hwhole _

variable (fraction) in
theorem value_trimEnd (hwhole : ∀ c ∈ whole, c.isDigit = true) :
    Decimal.value (whole ++ '.' :: trimEnd (· = '0') fraction)
      = Decimal.value (whole ++ '.' :: fraction) := by
  obtain ⟨k, hk⟩ := trimEnd_zeros fraction
  conv_rhs => rw [hk]
  exact (Decimal.value_zeros hwhole k).symm

end Digits

-- ============================== the patterns

theorem splitPoint_pattern {w f : Nat} {whole fraction : Chars}
    (h : Decimal.pattern w f s = some (whole, fraction)) :
    splitPoint [] s = (whole, fraction) := by
  obtain ⟨hwhole, hfraction, -, -, hcase⟩ := Decimal.pattern_eq_some h
  have hpoint : '.' ∉ whole := fun hmem =>
    Decimal.ne_point hwhole _ hmem rfl
  have hpoint' : '.' ∉ fraction := fun hmem =>
    Decimal.ne_point hfraction _ hmem rfl
  unfold splitPoint
  rcases hcase with ⟨rfl, rfl⟩ | ⟨-, rfl⟩
  · rw [List.splitOn_eq_singleton hpoint]
    rfl
  · rw [List.splitOn_append_cons_self_of_not_mem hpoint,
      List.splitOn_eq_singleton hpoint']
    rfl

/-- How a queue amount is written. -/
def renderMoney (m : Chars × Chars) : Chars := m.1 ++ '.' :: padEnd 2 m.2

theorem normalize_eq (s : Chars) :
    normalize s = (Decimal.pattern 18 2 (id s)).map renderMoney := rfl

theorem moneyAmountSchema_eq (s : Chars) :
    moneyAmountSchema s = (Decimal.pattern 18 2 (id s)).map renderMoney := by
  unfold moneyAmountSchema moneyAmountString id
  cases h : Decimal.pattern 18 2 s with
  | none => rfl
  | some m =>
      simp only [Option.isSome_some, if_true, splitPoint_pattern h]
      rfl

theorem renders_money (h : Decimal.pattern 18 2 s = some m) :
    Renders 18 2 id renderMoney m := by
  obtain ⟨whole, fraction⟩ := m
  obtain ⟨hwhole, hfraction, hw, hf, -⟩ := Decimal.pattern_eq_some h
  have hlength := length_padEnd hf
  refine ⟨⟨(whole, padEnd 2 fraction), ?_, ?_⟩, value_padEnd hwhole 2⟩
  · exact Decimal.pattern_parts hwhole (isDigit_padEnd hfraction 2) hw
      ⟨by omega, by omega⟩
  · unfold renderMoney
    rw [padEnd_long (s := padEnd 2 fraction) (by omega)]

theorem normalizes_normalize : Normalizes 18 2 id normalize :=
  funext normalize_eq ▸ normalizes_render fun _ _ => renders_money

theorem normalizes_moneyAmountSchema :
    Normalizes 18 2 id moneyAmountSchema :=
  funext moneyAmountSchema_eq ▸ normalizes_render fun _ _ => renders_money

-- ========================== donation amounts

/-- `strings.TrimSpace` -/
def trimSpace (s : Chars) : Chars :=
  (Alert.trimSpace (String.ofList s)).toList

/-- How the worker writes the amount of a donation. -/
def renderUnits (m : Chars × Chars) : Chars :=
  let fraction := trimEnd (· = '0') m.2
  if fraction = [] then m.1 else m.1 ++ '.' :: fraction

/-- How the web server writes it. -/
def renderDonation (m : Chars × Chars) : Chars :=
  let significantFraction := trimEnd (· = '0') m.2
  if significantFraction.length ≤ 2 then
    m.1 ++ '.' :: padEnd 2 significantFraction
  else m.1 ++ '.' :: significantFraction

theorem normalizeDonationAmount_eq (s : Chars) :
    normalizeDonationAmount s
      = (Decimal.pattern 20 18 (trimSpace s)).map renderUnits := rfl

theorem donationAmountSchema_eq (s : Chars) :
    donationAmountSchema s
      = (Decimal.pattern 20 18 (id s)).map renderDonation := by
  unfold donationAmountSchema donationAmountString id
  cases h : Decimal.pattern 20 18 s with
  | none => rfl
  | some m =>
      simp only [Option.isSome_some, if_true, splitPoint_pattern h,
        Option.map_some, renderDonation]
      split
      case isTrue => rfl
      case isFalse => rfl

/-- A fraction of more than two digits is long enough already. -/
theorem renderDonation_eq (m : Chars × Chars) :
    renderDonation m = m.1 ++ '.' :: padEnd 2 (trimEnd (· = '0') m.2) := by
  unfold renderDonation
  dsimp only
  split
  case isTrue => rfl
  case isFalse h => rw [padEnd_long (by omega)]

/-- A donation's match renders as itself. -/
theorem renders_donation (h : Decimal.pattern 20 18 s = some m) :
    Renders 20 18 id renderDonation m := by
  obtain ⟨whole, fraction⟩ := m
  obtain ⟨hwhole, hfraction, hw, hf, -⟩ := Decimal.pattern_eq_some h
  have hlength := trimEnd_length_le fraction
  have hpadded : (padEnd 2 (trimEnd (· = '0') fraction)).length ≤ 18
      ∧ 1 ≤ (padEnd 2 (trimEnd (· = '0') fraction)).length := by
    unfold padEnd
    rw [List.length_append, List.length_replicate]
    omega
  refine ⟨⟨(whole, padEnd 2 (trimEnd (· = '0') fraction)), ?_, ?_⟩, ?_⟩
  · rw [renderDonation_eq]
    exact Decimal.pattern_parts hwhole
      (isDigit_padEnd (isDigit_trimEnd hfraction) 2) hw ⟨hpadded.2, hpadded.1⟩
  · rw [renderDonation_eq, renderDonation_eq]
    unfold padEnd
    rw [trimEnd_append_zeros, trimEnd_trimEnd]
  · rw [renderDonation_eq]
    exact (value_padEnd hwhole 2).trans (value_trimEnd fraction hwhole)

/-- A donation's match renders as its exact units. -/
theorem renders_units (h : Decimal.pattern 20 18 s = some m) :
    Renders 20 18 trimSpace renderUnits m := by
  obtain ⟨whole, fraction⟩ := m
  obtain ⟨hwhole, hfraction, hw, hf, -⟩ := Decimal.pattern_eq_some h
  have hlength := trimEnd_length_le fraction
  have hdigits := isDigit_trimEnd hfraction
  have hvalue := value_trimEnd fraction hwhole
  have htrim := trimEnd_trimEnd fraction
  by_cases hempty : trimEnd (· = '0') fraction = []
  · have hrender : renderUnits (whole, fraction) = whole := if_pos hempty
    refine ⟨⟨(whole, []), ?_, ?_⟩, ?_⟩
    · have htrimmed : trimSpace whole = whole :=
        Money.trimSpace_amount fun c hc => Or.inl (hwhole c hc)
      rw [hrender, htrimmed]
      exact Decimal.pattern_whole hwhole hw
    · rw [hrender]
      rfl
    · rw [hrender, Decimal.value_whole hwhole, ← hvalue, hempty]
  · have hrender : renderUnits (whole, fraction)
        = whole ++ '.' :: trimEnd (· = '0') fraction := if_neg hempty
    refine ⟨⟨(whole, trimEnd (· = '0') fraction), ?_, ?_⟩, ?_⟩
    · have htrimmed : trimSpace (whole ++ '.' :: trimEnd (· = '0') fraction)
          = whole ++ '.' :: trimEnd (· = '0') fraction :=
        Money.trimSpace_digits hwhole hdigits
      rw [hrender, htrimmed]
      exact Decimal.pattern_parts hwhole hdigits hw
        ⟨List.length_pos_of_ne_nil hempty, by omega⟩
    · rw [hrender]
      unfold renderUnits
      simp only [htrim, if_neg hempty]
    · rw [hrender, hvalue]

theorem normalizes_normalizeDonationAmount :
    Normalizes 20 18 trimSpace normalizeDonationAmount :=
  funext normalizeDonationAmount_eq ▸
    normalizes_render fun _ _ => renders_units

theorem normalizes_donationAmountSchema :
    Normalizes 20 18 id donationAmountSchema :=
  funext donationAmountSchema_eq ▸
    normalizes_render fun _ _ => renders_donation

-- ==================================== result

/-- The normalisers keep what they have normalised and what is denoted.
Three take exactly the amounts of their form, and the one for donations
in the worker what is such an amount once the space around it is
trimmed. Both programs take the same texts, trimmed, and return the same
numbers. -/
theorem amounts_agree :
    Normalizes 18 2 id normalize
      ∧ Normalizes 18 2 id moneyAmountSchema
      ∧ Normalizes 20 18 trimSpace normalizeDonationAmount
      ∧ Normalizes 20 18 id donationAmountSchema
      ∧ (∀ s, (normalize s).map Decimal.value
        = (moneyAmountSchema s).map Decimal.value)
      ∧ ∀ s, (normalizeDonationAmount s).map Decimal.value
        = (donationAmountSchema (trimSpace s)).map Decimal.value :=
  ⟨normalizes_normalize, normalizes_moneyAmountSchema,
    normalizes_normalizeDonationAmount, normalizes_donationAmountSchema,
    normalizes_normalize.agree normalizes_moneyAmountSchema,
    normalizes_normalizeDonationAmount.agree normalizes_donationAmountSchema⟩

/-- An amount after a space is taken, and is no amount of that form. -/
theorem amounts_spaced :
    ¬ Normalizes 20 18 id normalizeDonationAmount := by
  intro h
  have hform := (h.accepts " 1".toList).mp (by decide)
  rw [← Decimal.pattern_isSome_iff] at hform
  exact absurd hform (by decide)

-- ===================================== rates

/-- Two zeros or more, and maybe zeros after a point. -/
def ZeroRate (value : Chars) : Prop :=
  ∃ n, value = List.replicate (n + 2) '0'
    ∨ ∃ k, value = List.replicate (n + 2) '0' ++ '.' :: List.replicate k '0'

/-- What a rate is made of. -/
theorem rate_spec (h : rate value = some r) :
    ∃ m, Decimal.pattern 18 2 value = some m ∧ r = renderMoney m
      ∧ r ≠ "0.00".toList := by
  obtain ⟨hr, hne⟩ := Option.filter_eq_some_iff.mp h
  rw [moneyAmountSchema_eq] at hr
  obtain ⟨m, hm, rfl⟩ := Option.map_eq_some_iff.mp hr
  exact ⟨m, hm, rfl, of_decide_eq_true hne⟩

/-- What is computed of a rate. -/
theorem cents_renderMoney (h : Decimal.pattern 18 2 value = some m) :
    cents (renderMoney m)
      = Decimal.number m.1 * 100 + Decimal.number (padEnd 2 m.2) := by
  obtain ⟨hwhole, hfraction, -, -, -⟩ := Decimal.pattern_eq_some h
  have hpoint : '.' ∉ m.1 := fun hmem =>
    Decimal.ne_point hwhole _ hmem rfl
  have hpoint' : '.' ∉ padEnd 2 m.2 := fun hmem =>
    Decimal.ne_point (isDigit_padEnd hfraction 2) _ hmem rfl
  unfold cents splitPoint renderMoney
  rw [List.splitOn_append_cons_self_of_not_mem hpoint,
    List.splitOn_eq_singleton hpoint']
  rfl

/-- A rate is an amount of the queue. -/
theorem cents_lt (h : rate value = some r) :
    cents r < Videos.moneyLimit := by
  obtain ⟨m, hm, rfl, -⟩ := rate_spec h
  obtain ⟨hwhole, hfraction, hw, hf, -⟩ := Decimal.pattern_eq_some hm
  have hnumber := Decimal.number_lt hwhole
  have hcents := Decimal.number_lt (isDigit_padEnd hfraction 2)
  have hpow := Nat.pow_le_pow_right (n := 10) (by decide) hw.2
  rw [length_padEnd hf] at hcents
  rw [cents_renderMoney hm]
  unfold Videos.moneyLimit
  omega

/-- The rates that are zero. -/
theorem cents_eq_zero_iff (h : rate value = some r) :
    cents r = 0 ↔ ZeroRate value := by
  obtain ⟨⟨whole, fraction⟩, hm, rfl, hne⟩ := rate_spec h
  obtain ⟨hwhole, hfraction, hw, hf, hcase⟩ := Decimal.pattern_eq_some hm
  rw [cents_renderMoney hm]
  simp only
  constructor
  · intro hzero
    have hw0 : Decimal.number whole = 0 := by omega
    have hf0 : Decimal.number (padEnd 2 fraction) = 0 := by omega
    have hwholeZeros := Decimal.number_eq_zero hwhole hw0
    have hpadded := Decimal.number_eq_zero (isDigit_padEnd hfraction 2) hf0
    rw [length_padEnd hf] at hpadded
    -- a single zero before the point is the text that is refused
    have hlong : 2 ≤ whole.length := by
      by_contra hshort
      have hone : whole.length = 1 := by omega
      refine hne ?_
      unfold renderMoney
      rw [hpadded, hwholeZeros, hone]
      rfl
    obtain ⟨n, hn⟩ := Nat.exists_eq_add_of_le' hlong
    rw [hn] at hwholeZeros
    have hfractionZeros : fraction = List.replicate fraction.length '0' :=
      List.eq_replicate_of_mem fun c hc => by
        have hmem : c ∈ padEnd 2 fraction := List.mem_append_left _ hc
        rw [hpadded] at hmem
        exact List.eq_of_mem_replicate hmem
    refine ⟨n, ?_⟩
    rcases hcase with ⟨rfl, -⟩ | ⟨-, rfl⟩
    · exact Or.inl hwholeZeros
    · refine Or.inr ⟨fraction.length, ?_⟩
      rw [← hfractionZeros, ← hwholeZeros]
  · intro hzero
    have hchars : ∀ c ∈ value, c.isDigit = true → c = '0' := by
      intro c hc hdigit
      obtain ⟨n, rfl | ⟨k, rfl⟩⟩ := hzero
      · exact List.eq_of_mem_replicate hc
      · rcases List.mem_append.mp hc with hc | hc
        · exact List.eq_of_mem_replicate hc
        · rcases List.mem_cons.mp hc with rfl | hc
          · cases hdigit
          · exact List.eq_of_mem_replicate hc
    have hsub : (∀ c ∈ whole, c ∈ value) ∧ ∀ c ∈ fraction, c ∈ value := by
      rcases hcase with ⟨rfl, rfl⟩ | ⟨-, rfl⟩
      · exact ⟨fun _ => id, by simp⟩
      · exact ⟨fun c hc => List.mem_append_left _ hc,
          fun c hc => List.mem_append_right _ (List.mem_cons_of_mem _ hc)⟩
    have hwholeZeros : whole = List.replicate whole.length '0' :=
      List.eq_replicate_of_mem fun c hc =>
        hchars c (hsub.1 c hc) (hwhole c hc)
    have hpadded : padEnd 2 fraction
        = List.replicate (padEnd 2 fraction).length '0' :=
      List.eq_replicate_of_mem fun c hc => by
        rcases List.mem_append.mp hc with hc | hc
        · exact hchars c (hsub.2 c hc) (hfraction c hc)
        · exact List.eq_of_mem_replicate hc
    rw [hwholeZeros, hpadded, Decimal.number_zeros, Decimal.number_zeros]

/-- A factor of texts is one of the model of the store. -/
theorem conversionFactor_store (h : rate value = some r)
    (source target : QueueCurrency) :
    conversionFactorForCurrencyChange source target r
      = Videos.conversionFactorForCurrencyChange source target
        ⟨cents r, cents_lt h⟩ := rfl

/-- A factor that does not divide by zero, nor makes zero of everything. -/
structure Usable (factor : Factor) : Prop where
  numerator : factor.numerator ≠ 0
  denominator : factor.denominator ≠ 0
  divides : ∀ amount, (Videos.converted amount factor).isSome = true
  keeps : ∃ amount x, Videos.converted amount factor = some x
    ∧ 0 < Numeric.value x

/-- The greatest amount of a queue. -/
def greatest : Videos.Money := ⟨Videos.moneyLimit - 1, by decide⟩

/-- What the greatest amount is converted to is at least one. -/
theorem converted_greatest {factor : Factor}
    (hd : 0 < factor.denominator)
    (h : factor.denominator * 100 ≤ greatest.1 * factor.numerator) :
    ∃ x, Videos.converted greatest factor = some x ∧ 0 < Numeric.value x := by
  obtain ⟨y, hy⟩ : ∃ y, y = Numeric.ofInt factor.denominator := ⟨_, rfl⟩
  obtain ⟨x, hx⟩ : ∃ x, x = greatest.numeric.mul
      (.ofInt factor.numerator) := ⟨_, rfl⟩
  have hxpos : 0 ≤ x.units := by
    rw [hx]
    exact Int.mul_nonneg (Int.natCast_nonneg _) (Int.natCast_nonneg _)
  have hypos : 0 < y.units := by
    rw [hy]
    exact Int.natCast_pos.mpr hd
  obtain ⟨q, hq⟩ := Numeric.div?_isSome (x := x) hypos.ne'
  have hone : Numeric.value (.ofInt 1) ≤ Numeric.value x / Numeric.value y := by
    have hdq : (0 : ℚ) < factor.denominator := by exact_mod_cast hd
    have hq : (factor.denominator : ℚ) * 100
        ≤ (greatest.1 : ℚ) * factor.numerator := by exact_mod_cast h
    rw [hx, hy, Numeric.value_mul, Numeric.value_ofInt, Numeric.value_ofInt,
      Numeric.value_ofInt]
    unfold Numeric.value Videos.Money.numeric
    push_cast
    rw [le_div_iff₀ hdq]
    linarith
  have hle := Numeric.le_div?_of_le hxpos hypos hq (t := .ofInt 1)
    (Nat.zero_le _) hone
  refine ⟨q.round 2, ?_, ?_⟩
  · unfold Videos.converted
    rw [← hx, ← hy, hq]
    rfl
  · have hround : Numeric.ofInt 1 ≤ q.round 2 := by
      by_cases hscale : q.scale ≤ 2
      · rw [Numeric.le_iff_value, Numeric.value_round hscale]
        exact Numeric.le_iff_value.mp hle
      · rw [Numeric.le_round_iff (Numeric.div?_nonneg hxpos hypos hq)
          (by omega) (Nat.zero_le _)]
        have hhalf : (0 : ℚ) ≤ 1 / (2 * 10 ^ 2) := by norm_num
        linarith [Numeric.le_iff_value.mp hle]
    have hvalue := Numeric.le_iff_value.mp hround
    rw [Numeric.value_ofInt] at hvalue
    exact lt_of_lt_of_le (by norm_num) hvalue

/-- A factor within bounds is usable unless one of its parts is zero. -/
theorem usable_iff {factor : Factor}
    (h : factor.numerator ≠ 0 → factor.denominator ≠ 0 →
      factor.denominator * 100 ≤ greatest.1 * factor.numerator) :
    Usable factor ↔ factor.numerator ≠ 0 ∧ factor.denominator ≠ 0 := by
  constructor
  · exact fun hu => ⟨hu.numerator, hu.denominator⟩
  · rintro ⟨hn, hd⟩
    refine ⟨hn, hd, fun amount => ?_,
      ⟨greatest, converted_greatest (Nat.pos_of_ne_zero hd) (h hn hd)⟩⟩
    have hy : (Numeric.ofInt factor.denominator).units ≠ 0 :=
      Int.natCast_ne_zero.mpr hd
    obtain ⟨q, hq⟩ := Numeric.div?_isSome
      (x := amount.numeric.mul (.ofInt factor.numerator)) hy
    unfold Videos.converted
    rw [hq]
    rfl

/-- A rate that is taken can be used in every change of currency exactly
where it is no zero of several digits. -/
theorem rate_usable_iff {value r : Chars} (h : rate value = some r)
    (source target : QueueCurrency) :
    Usable (conversionFactorForCurrencyChange source target r)
      ↔ ¬ ZeroRate value := by
  have hlt := cents_lt h
  have hgreatest : greatest.1 = 10 ^ 20 - 1 := rfl
  have hlimit : Videos.moneyLimit = 10 ^ 20 := rfl
  rw [← cents_eq_zero_iff h, usable_iff]
  · unfold conversionFactorForCurrencyChange
    split
    case isTrue => simp
    case isFalse => simp
  · unfold conversionFactorForCurrencyChange
    rw [hgreatest]
    split
    case isTrue =>
      intro hn _
      have hpos := Nat.pos_of_ne_zero hn
      simp only at hpos ⊢
      omega
    case isFalse =>
      intro _ _
      simp only
      omega

theorem rate_one : rate "1".toList = some "1.00".toList := by decide

/-- One ruble for a dollar is a rate that can be used. -/
theorem rate_usable_one :
    Usable (conversionFactorForCurrencyChange .usd .rub "1.00".toList) := by
  refine (rate_usable_iff rate_one .usd .rub).mpr ?_
  rw [← cents_eq_zero_iff rate_one]
  decide

/-- A zero of two digits is taken; one way it divides by zero, the other
way it makes zero of everything. -/
theorem rate_double_zero :
    rate "00".toList = some "00.00".toList
      ∧ ¬ Usable (conversionFactorForCurrencyChange .rub .usd
        "00.00".toList)
      ∧ ¬ Usable (conversionFactorForCurrencyChange .usd .rub
        "00.00".toList) := by
  refine ⟨by decide, fun h => ?_, fun h => ?_⟩
  · exact absurd h.denominator (by decide)
  · exact absurd h.numerator (by decide)

end StreamBrew.Schemas
