/-
Conversion between currencies is exact.

What is parsed of a stored amount denotes that amount: dropping zeros at
the end of the fraction divides the units and the scale by the same power
of ten. The cents are then the rounded quotient, whatever the scale was,
and the pattern that the result has to match is a bound on it.
-/
import StreamBrew.Videos.Money

namespace StreamBrew.Money

open Text
open Videos (StoreError rublesPerUnit roundDiv)

-- =================================== parsing

/-- A text of digits and points has no space around it. -/
theorem trimSpace_amount {s : Chars}
    (h : ∀ c ∈ s, c.isDigit = true ∨ c = '.') :
    (Alert.trimSpace (String.ofList s)).toList = s := by
  have hspace : ∀ c ∈ s, Alert.ttsWhitespace.contains c = false := by
    intro c hc
    cases hb : Alert.ttsWhitespace.contains c with
    | false => rfl
    | true =>
        have hall : Alert.ttsWhitespace.all
            (fun c => !(c.isDigit || c == '.')) = true := by decide
        have hd := List.all_eq_true.mp hall c (List.contains_iff_mem.mp hb)
        rcases h c hc with hdigit | rfl
        · rw [hdigit] at hd
          cases hd
        · exact absurd hd (by decide)
  have hdrop : ∀ t : Chars, (∀ c ∈ t, c ∈ s) →
      t.dropWhile Alert.ttsWhitespace.contains = t := by
    intro t ht
    cases t with
    | nil => rfl
    | cons d ds =>
        rw [List.dropWhile_cons_of_neg]
        rw [hspace d (ht d List.mem_cons_self)]
        exact Bool.false_ne_true
  unfold Alert.trimSpace
  rw [String.toList_ofList, String.toList_ofList, hdrop s fun _ => id,
    hdrop s.reverse fun _ => List.mem_reverse.mp, List.reverse_reverse]

theorem trimSpace_digits {whole fraction : Chars}
    (hwhole : ∀ c ∈ whole, c.isDigit = true)
    (hfraction : ∀ c ∈ fraction, c.isDigit = true) :
    (Alert.trimSpace (String.ofList (whole ++ '.' :: fraction))).toList
      = whole ++ '.' :: fraction := by
  refine trimSpace_amount fun c hc => ?_
  rcases List.mem_append.mp hc with hc | hc
  · exact Or.inl (hwhole c hc)
  · rcases List.mem_cons.mp hc with rfl | hc
    · exact Or.inr rfl
    · exact Or.inl (hfraction c hc)

/-- The zeros at the end of a fraction. -/
theorem trimEnd_zeros (s : Chars) :
    ∃ k, s = trimEnd (· = '0') s ++ List.replicate k '0' := by
  have hsplit := List.takeWhile_append_dropWhile
    (p := fun c : Char => decide (c = '0')) (l := s.reverse)
  have hzeros : s.reverse.takeWhile (fun c : Char => decide (c = '0'))
      = List.replicate (s.reverse.takeWhile
        (fun c : Char => decide (c = '0'))).length '0' := by
    refine List.eq_replicate_of_mem fun c hc => ?_
    have hzero := List.mem_takeWhile_imp
      (p := fun c : Char => decide (c = '0')) hc
    exact of_decide_eq_true hzero
  refine ⟨(s.reverse.takeWhile (fun c : Char => decide (c = '0'))).length, ?_⟩
  unfold trimEnd
  rw [← List.reverse_replicate, ← hzeros, ← List.reverse_append, hsplit,
    List.reverse_reverse]

theorem setString_digits {digits : Chars} (hne : digits ≠ [])
    (h : ∀ c ∈ digits, c.isDigit = true) :
    setString digits = some (Decimal.number digits) := by
  unfold setString
  rw [if_pos ⟨hne, List.all_eq_true.mpr h⟩]

/-- What is parsed of a stored amount, and how much was dropped. -/
theorem parseDonationUnits_stored {amount : Nat} (h : amount < 10 ^ 38) :
    ∃ units scale k, parseDonationUnits (donationAmountText amount)
        = some (units, scale)
      ∧ units * 10 ^ k = amount ∧ scale * 10 ^ k = 10 ^ 18 := by
  have hlt : amount % 10 ^ 18 < 10 ^ 18 := Nat.mod_lt _ (by decide)
  have hwholeLt : amount / 10 ^ 18 < 10 ^ 20 := by omega
  have hlength := Decimal.length_padded (by decide) hlt
  have hwholeLength :=
    (Nat.length_toDigits_le_iff (b := 10) (by decide) (by decide)).mpr hwholeLt
  have hnumber : Decimal.number (Nat.toDigits 10 (amount / 10 ^ 18)
      ++ Decimal.padded 18 (amount % 10 ^ 18)) = amount := by
    rw [Decimal.number_append, Decimal.number_toDigits,
      Decimal.number_padded, hlength, Nat.div_add_mod']
  have hwhole : ∀ c ∈ Nat.toDigits 10 (amount / 10 ^ 18),
      c.isDigit = true := Decimal.isDigit_toDigits
  have hfraction : ∀ c ∈ Decimal.padded 18 (amount % 10 ^ 18),
      c.isDigit = true := Decimal.isDigit_padded
  have hne : Nat.toDigits 10 (amount / 10 ^ 18) ≠ [] := Nat.toDigits_ne_nil
  unfold donationAmountText Decimal.fixed
  generalize Nat.toDigits 10 (amount / 10 ^ 18) = whole at *
  generalize Decimal.padded 18 (amount % 10 ^ 18) = fraction at *
  obtain ⟨k, hk⟩ := trimEnd_zeros fraction
  have hpattern : donationAmountPattern
      (Alert.trimSpace (String.ofList (whole ++ '.' :: fraction))).toList
      = some (whole, fraction) := by
    rw [trimSpace_digits hwhole hfraction]
    exact Decimal.pattern_parts hwhole hfraction
      ⟨List.length_pos_of_ne_nil hne, hwholeLength⟩ ⟨by omega, by omega⟩
  have hdigits : ∀ c ∈ whole ++ trimEnd (· = '0') fraction,
      c.isDigit = true := by
    intro c hc
    rcases List.mem_append.mp hc with hc | hc
    · exact hwhole c hc
    · exact hfraction c (mem_trimEnd hc)
  have hset := setString_digits (List.append_ne_nil_of_left_ne_nil hne _)
    hdigits
  have hunits : Decimal.number (whole ++ trimEnd (· = '0') fraction) * 10 ^ k
      = amount := by
    rw [← hnumber]
    conv_rhs => rw [hk, ← List.append_assoc, Decimal.number_append,
      Decimal.number_zeros, List.length_replicate, Nat.add_zero]
  have hscale : 10 ^ (trimEnd (· = '0') fraction).length * 10 ^ k
      = 10 ^ 18 := by
    have hsum := congrArg List.length hk
    rw [List.length_append, List.length_replicate, hlength] at hsum
    rw [← Nat.pow_add, ← hsum]
  refine ⟨_, _, k, ?_, hunits, hscale⟩
  unfold parseDonationUnits normalizeDonationAmount
  rw [hpattern]
  simp only [Option.map_some, Option.bind_some]
  by_cases hempty : trimEnd (· = '0') fraction = []
  · rw [hempty, List.append_nil] at hset
    rw [if_pos hempty, cut_absent (Decimal.ne_point hwhole)]
    simp only [Option.getD_none, List.append_nil, hset, hempty]
    rfl
  · rw [if_neg hempty, cut_before (Decimal.ne_point hwhole)]
    simp only [Option.getD_some, hset]
    rfl

-- ================================== rounding

/-- The amount in the other currency. -/
def exact (amount sourceRate targetRate : Nat) : ℚ :=
  amount / 10 ^ 18 * sourceRate / targetRate

/-- Its cents, rounded half up. -/
def exactCents (amount sourceRate targetRate : Nat) : Int :=
  Decimal.roundHalfUp (exact amount sourceRate targetRate * 100)

/-- Adding half of the divisor and dividing rounds half up, also where
the divisor is odd. -/
theorem roundDiv_eq {n d : Nat} (hd : 0 < d) :
    (roundDiv n d : Int) = Decimal.roundHalfUp ((n : ℚ) / d) := by
  have hdq : (0 : ℚ) < d := by exact_mod_cast hd
  have hsum :
      (n : ℚ) / d + 1 / 2 = ((2 * n + d : Nat) : ℚ) / (2 * d : Nat) := by
    push_cast
    field_simp
  have hdiv : (n + d / 2) / d = (2 * n + d) / (2 * d) := by
    have hlow := Nat.div_mul_le_self (2 * n + d) (2 * d)
    have hhigh := Nat.lt_div_mul_add (a := 2 * n + d)
      (show 0 < 2 * d by omega)
    generalize (2 * n + d) / (2 * d) = m at hlow hhigh ⊢
    have hcomm : m * (2 * d) = 2 * (m * d) := by ring
    rw [hcomm] at hlow hhigh
    refine Nat.div_eq_of_lt_le (by omega) ?_
    rw [Nat.succ_mul]
    omega
  unfold Decimal.roundHalfUp roundDiv
  rw [hsum, Rat.floor_natCast_div_natCast, hdiv, Int.natCast_ediv]

theorem exactCents_mono {amount other : Nat} (h : amount ≤ other)
    (sourceRate targetRate : Nat) :
    exactCents amount sourceRate targetRate
      ≤ exactCents other sourceRate targetRate := by
  have hq : (amount : ℚ) ≤ other := by exact_mod_cast h
  unfold exactCents Decimal.roundHalfUp exact
  refine Int.floor_le_floor ?_
  gcongr

/-- The cents that are computed are the exact ones. -/
theorem roundDiv_exact (sourceRate : Nat)
    {amount units scale k targetRate : Nat}
    (hunits : units * 10 ^ k = amount) (hscale : scale * 10 ^ k = 10 ^ 18)
    (htarget : 0 < targetRate) :
    (roundDiv (units * sourceRate * 100) (scale * targetRate) : Int)
      = exactCents amount sourceRate targetRate := by
  have hpos : 0 < scale := by
    rcases Nat.eq_zero_or_pos scale with hzero | hpos
    · rw [hzero, Nat.zero_mul] at hscale
      exact absurd hscale (by decide)
    · exact hpos
  have hscaleq : (scale : ℚ) * 10 ^ k = 10 ^ 18 := by exact_mod_cast hscale
  have hne : (scale : ℚ) ≠ 0 := by exact_mod_cast hpos.ne'
  have htne : (targetRate : ℚ) ≠ 0 := by exact_mod_cast htarget.ne'
  rw [roundDiv_eq (Nat.mul_pos hpos htarget)]
  unfold exactCents exact
  congr 1
  rw [← hunits, ← hscaleq]
  push_cast
  field_simp

theorem rublesPerUnit_pos {currency : String} {rate : Nat}
    (h : rublesPerUnit currency = some rate) : 0 < rate := by
  obtain ⟨c, -, rfl⟩ := Option.map_eq_some_iff.mp h
  cases c with
  | rub => decide
  | usd => decide
  | eur => decide

-- ==================================== output

theorem formatCents_eq (cents : Nat) :
    formatCents cents = Decimal.fixed 2 cents := rfl

/-- What is formatted matches the pattern as long as it is in range. -/
theorem amountPattern_formatCents (cents : Nat) :
    amountPattern (formatCents cents)
      = if cents < Videos.moneyLimit then
          some (Nat.toDigits 10 (cents / 100), Decimal.padded 2 (cents % 100))
        else none := by
  have hlt : cents % 100 < 10 ^ 2 := Nat.mod_lt _ (by decide)
  have hfraction := Decimal.length_padded (by decide) hlt
  have hlength : (Nat.toDigits 10 (cents / 100)).length ≤ 18
      ↔ cents / 100 < 10 ^ 18 :=
    Nat.length_toDigits_le_iff (by decide) (by decide)
  have hrange : cents < Videos.moneyLimit ↔ cents / 100 < 10 ^ 18 := by
    unfold Videos.moneyLimit
    omega
  unfold amountPattern formatCents
  split
  case isTrue h =>
    exact Decimal.pattern_parts Decimal.isDigit_toDigits
      Decimal.isDigit_padded
      ⟨Nat.length_toDigits_pos, hlength.mpr (hrange.mp h)⟩
      ⟨by omega, by omega⟩
  case isFalse h =>
    refine Decimal.pattern_long Decimal.isDigit_toDigits ?_
    have hlong := mt hlength.mp (mt hrange.mpr h)
    omega

theorem normalize_formatCents {cents : Nat} (h : cents < Videos.moneyLimit) :
    normalize (formatCents cents) = some (formatCents cents) := by
  have hlt : cents % 100 < 10 ^ 2 := Nat.mod_lt _ (by decide)
  have hfraction := Decimal.length_padded (by decide) hlt
  unfold normalize
  rw [amountPattern_formatCents, if_pos h, Option.map_some, hfraction]
  simp only [Nat.sub_self, List.replicate_zero, List.append_nil]
  rfl

/-- What a conversion gives. -/
theorem convertWithDefaultRate_eq {amount : Nat} (h : amount < 10 ^ 38)
    {source target : String} {sourceRate targetRate : Nat}
    (hsource : rublesPerUnit source = some sourceRate)
    (htarget : rublesPerUnit target = some targetRate) :
    ∃ cents : Nat, (cents : Int) = exactCents amount sourceRate targetRate
      ∧ convertWithDefaultRate (donationAmountText amount) source target
        = .ok (if cents < Videos.moneyLimit then some (formatCents cents)
          else none) := by
  obtain ⟨units, scale, k, hparse, hunits, hscale⟩ :=
    parseDonationUnits_stored h
  refine ⟨_, roundDiv_exact sourceRate hunits hscale
    (rublesPerUnit_pos htarget), ?_⟩
  unfold convertWithDefaultRate
  rw [hsource, htarget]
  simp only [hparse, amountPattern_formatCents]
  split
  case isTrue => rfl
  case isFalse => rfl

-- ==================================== result

/-- A stored `donation_amount`. -/
abbrev DonationAmount := { amount : Nat // amount < Videos.donationAmountLimit }

/-- What is converted to, of a stored amount. -/
def Converts (amount : DonationAmount) (source target : String)
    (text : Chars) : Prop :=
  convertWithDefaultRate (donationAmountText amount) source target
    = .ok (some text)

/-- Both rates, and the result has 18 digits at most before its point. -/
def InRange (amount : DonationAmount) (sourceRate targetRate : Nat) : Prop :=
  (Nat.toDigits 10
    (exactCents amount sourceRate targetRate / 100).toNat).length ≤ 18

theorem inRange_iff {amount : DonationAmount}
    {sourceRate targetRate cents : Nat}
    (h : (cents : Int) = exactCents amount sourceRate targetRate) :
    InRange amount sourceRate targetRate ↔ cents < Videos.moneyLimit := by
  unfold InRange Videos.moneyLimit
  rw [← h, Nat.length_toDigits_le_iff (by decide) (by decide)]
  omega

/-- What is converted, with the rates it is converted by. -/
theorem converts_spec {amount : DonationAmount} {source target : String}
    {text : Chars} (h : Converts amount source target text) :
    ∃ sourceRate targetRate, ∃ cents : Nat,
      rublesPerUnit source = some sourceRate
      ∧ rublesPerUnit target = some targetRate
      ∧ (cents : Int) = exactCents amount sourceRate targetRate
      ∧ cents < Videos.moneyLimit ∧ text = formatCents cents := by
  unfold Converts at h
  cases hsource : rublesPerUnit source with
  | none =>
      unfold convertWithDefaultRate at h
      rw [hsource] at h
      cases h
  | some sourceRate =>
      cases htarget : rublesPerUnit target with
      | none =>
          unfold convertWithDefaultRate at h
          rw [hsource, htarget] at h
          cases h
      | some targetRate =>
          obtain ⟨cents, hcents, he⟩ :=
            convertWithDefaultRate_eq amount.2 hsource htarget
          rw [he] at h
          split at h
          case isTrue hlt =>
            cases h
            exact ⟨sourceRate, targetRate, cents, rfl, rfl, hcents, hlt, rfl⟩
          case isFalse => cases h

theorem value_formatCents {cents : Nat} {q : Int} (h : (cents : Int) = q) :
    Decimal.value (formatCents cents) = (q : ℚ) / 100 := by
  rw [formatCents_eq, Decimal.value_fixed (by decide), ← h]
  norm_num

/-- A stored amount is converted exactly: without an error; to a result
just where both currencies have a rate and the result is in range; to
the exact amount, rounded half up to cents, in the form that amounts are
normalized to and within the range of a stored amount; and to no less
than a smaller amount. -/
theorem conversion_exact (amount : DonationAmount) (source target : String) :
    (∃ result, convertWithDefaultRate (donationAmountText amount) source target
        = .ok result)
      ∧ ((∃ text, Converts amount source target text)
        ↔ ∃ sourceRate targetRate, rublesPerUnit source = some sourceRate
          ∧ rublesPerUnit target = some targetRate
          ∧ InRange amount sourceRate targetRate)
      ∧ (∀ text, Converts amount source target text →
        ∃ sourceRate targetRate, rublesPerUnit source = some sourceRate
          ∧ rublesPerUnit target = some targetRate
          ∧ Decimal.value text
            = (exactCents amount sourceRate targetRate : ℚ) / 100
          ∧ normalize text = some text
          ∧ ∃ stored : Videos.Money, stored.numeric.value = Decimal.value text)
      ∧ ∀ (greater : DonationAmount) (text text' : Chars),
        amount.1 ≤ greater.1 → Converts amount source target text →
        Converts greater source target text' →
        Decimal.value text ≤ Decimal.value text' := by
  refine ⟨?_, ⟨?_, ?_⟩, ?_, ?_⟩
  · cases hsource : rublesPerUnit source with
    | none =>
        unfold convertWithDefaultRate
        rw [hsource]
        exact ⟨none, rfl⟩
    | some sourceRate =>
        cases htarget : rublesPerUnit target with
        | none =>
            unfold convertWithDefaultRate
            rw [hsource, htarget]
            exact ⟨none, rfl⟩
        | some targetRate =>
            obtain ⟨cents, -, he⟩ :=
              convertWithDefaultRate_eq amount.2 hsource htarget
            exact ⟨_, he⟩
  · rintro ⟨text, h⟩
    obtain ⟨sourceRate, targetRate, cents, hsource, htarget, hcents, hlt, -⟩ :=
      converts_spec h
    exact ⟨sourceRate, targetRate, hsource, htarget,
      (inRange_iff hcents).mpr hlt⟩
  · rintro ⟨sourceRate, targetRate, hsource, htarget, hrange⟩
    obtain ⟨cents, hcents, he⟩ :=
      convertWithDefaultRate_eq amount.2 hsource htarget
    rw [if_pos ((inRange_iff hcents).mp hrange)] at he
    exact ⟨_, he⟩
  · intro text h
    obtain ⟨sourceRate, targetRate, cents, hsource, htarget, hcents, hlt,
      rfl⟩ :=
      converts_spec h
    have hvalue := value_formatCents hcents
    refine ⟨sourceRate, targetRate, hsource, htarget, hvalue,
      normalize_formatCents hlt, ⟨cents, hlt⟩, ?_⟩
    rw [hvalue, ← hcents]
    show ((cents : Int) : ℚ) / 10 ^ 2 = _
    norm_num
  · intro greater text text' hle h h'
    obtain ⟨sourceRate, targetRate, cents, hsource, htarget, hcents, -, rfl⟩ :=
      converts_spec h
    obtain ⟨sourceRate', targetRate', cents', hsource', htarget', hcents', -,
      rfl⟩ := converts_spec h'
    rw [hsource] at hsource'
    rw [htarget] at htarget'
    cases hsource'
    cases htarget'
    rw [value_formatCents hcents, value_formatCents hcents']
    have hmono : (exactCents amount sourceRate targetRate : ℚ)
        ≤ exactCents greater sourceRate targetRate := by
      exact_mod_cast exactCents_mono hle sourceRate targetRate
    linarith

/-- A half cent, and a greater amount. -/
theorem conversion_exact_half :
    Converts ⟨5 * 10 ^ 15, by decide⟩ "USD" "USD" "0.01".toList
      ∧ Converts ⟨15 * 10 ^ 15, by decide⟩ "USD" "USD" "0.02".toList
      ∧ Decimal.value "0.01".toList ≤ Decimal.value "0.02".toList := by
  have hsmall : Converts ⟨5 * 10 ^ 15, by decide⟩ "USD" "USD"
      "0.01".toList := by
    unfold Converts
    decide
  have hgreat : Converts ⟨15 * 10 ^ 15, by decide⟩ "USD" "USD"
      "0.02".toList := by
    unfold Converts
    decide
  exact ⟨hsmall, hgreat,
    (conversion_exact ⟨5 * 10 ^ 15, by decide⟩ "USD" "USD").2.2.2
      ⟨15 * 10 ^ 15, by decide⟩ _ _ (by decide) hsmall hgreat⟩

-- ===================================== store

/-- Trimming a fraction divides both its digits and its unit by a power of
ten. -/
theorem trimFraction_spec (digits units : Nat) :
    ∃ k, (Videos.trimFraction digits units).1 * 10 ^ k = units
      ∧ (Videos.trimFraction digits units).2 * 10 ^ k = 10 ^ digits := by
  induction digits generalizing units with
  | zero => exact ⟨0, Nat.mul_one units, rfl⟩
  | succ digits ih =>
      unfold Videos.trimFraction
      split
      case isTrue hzero =>
        obtain ⟨k, hunits, hscale⟩ := ih (units / 10)
        refine ⟨k + 1, ?_, ?_⟩
        · rw [Nat.pow_succ, ← Nat.mul_assoc, hunits]
          omega
        · rw [Nat.pow_succ, ← Nat.mul_assoc, hscale, Nat.pow_succ]
      case isFalse => exact ⟨0, Nat.mul_one units, Nat.mul_one _⟩

theorem rublesPerUnit_code (currency : Videos.QueueCurrency) :
    rublesPerUnit currency.code = some currency.rublesPerUnit := by
  cases currency with
  | rub => decide
  | usd => decide
  | eur => decide

/-- The conversion of texts is that of the model of the store. -/
theorem convertWithDefaultRate_store (amount : DonationAmount)
    (source : String) (target : Videos.QueueCurrency) :
    convertWithDefaultRate (donationAmountText amount) source target.code
      = (Videos.convertWithDefaultRate amount source target).map
        fun queueAmount => queueAmount.map fun money =>
          formatCents money.1 := by
  unfold Videos.convertWithDefaultRate
  cases hsource : rublesPerUnit source with
  | none =>
      unfold convertWithDefaultRate
      rw [hsource]
      rfl
  | some sourceRate =>
      have htarget := rublesPerUnit_code target
      obtain ⟨cents, hcents, he⟩ :=
        convertWithDefaultRate_eq amount.2 hsource htarget
      obtain ⟨k, hunits, hscale⟩ := trimFraction_spec 18 amount
      have hstore := roundDiv_exact sourceRate hunits hscale
        (rublesPerUnit_pos htarget)
      rw [← hcents, Int.natCast_inj] at hstore
      unfold Videos.parseDonationUnits
      rw [he, if_pos amount.2]
      simp only [hstore, Videos.Money.ofCents?]
      split
      case isTrue => rfl
      case isFalse => rfl

end StreamBrew.Money
