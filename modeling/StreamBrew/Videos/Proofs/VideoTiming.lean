/-
A time in a video and its text: the text of a safe number of seconds
parses to that number, and what any text parses to has a text of its own,
which parses to it again.

Of the quotients the format takes, and of the sum the parser takes, the
rounding is `Binary64`'s: the quotients' whole parts are exact
(`floor_div`), and the sum is exact where it is safe (`Reads`).
-/
import StreamBrew.Videos.VideoTiming

namespace StreamBrew.VideoTiming

open Text
open Binary64 (Double Reads)

-- ===================================== parts

section Parts

variable {n : Nat}

theorem hours_eq (h : n < 2 ^ 53) : (getVideoTimeParts n).hours = n / 3600 :=
  Binary64.floor_div (by decide) h

theorem minutes_eq (n : Nat) :
    (getVideoTimeParts n).minutes = n % 3600 / 60 := by
  have hlt : n % 3600 < 3600 := Nat.mod_lt n (by decide)
  exact Binary64.floor_div (by decide) (by omega)

/-- The parts together are the seconds again. -/
theorem parts_total (h : n < 2 ^ 53) :
    (getVideoTimeParts n).hours * 3600 + (getVideoTimeParts n).minutes * 60
      + (getVideoTimeParts n).seconds = n := by
  have hseconds : (getVideoTimeParts n).seconds = n % 60 := rfl
  rw [hours_eq h, minutes_eq, hseconds]
  omega

theorem minutes_lt (n : Nat) : (getVideoTimeParts n).minutes < 60 := by
  rw [minutes_eq]
  omega

theorem seconds_lt (n : Nat) : (getVideoTimeParts n).seconds < 60 :=
  Nat.mod_lt n (by decide)

end Parts

-- ===================================== texts

section Texts

variable {s t : Chars}

theorem isDigits_iff :
    isDigits s = true ↔ s ≠ [] ∧ ∀ c ∈ s, c.isDigit = true := by
  unfold isDigits
  rw [Bool.and_eq_true, decide_eq_true_eq, List.all_eq_true]

theorem isDigits_toDigits (n : Nat) : isDigits (Nat.toDigits 10 n) = true :=
  isDigits_iff.mpr ⟨Nat.toDigits_ne_nil, Decimal.isDigit_toDigits⟩

theorem isSixtieth_padded {n : Nat} (h : n < 60) :
    isSixtieth (Decimal.padded 2 n) = true := by
  have hall : ∀ n < 60, isSixtieth (Decimal.padded 2 n) = true := by decide
  exact hall n h

theorem ne_colon {c : Char} (h : c.isDigit = true) : c ≠ ':' := by
  intro hc
  rw [hc] at h
  exact absurd h (by decide)

/-- Digits and colons are not blank. -/
theorem isSpace_eq_false {c : Char} (h : c.isDigit = true ∨ c = ':') :
    Utf16.isSpace c = false := by
  rcases h with h | rfl
  · have hrange : 48 ≤ c.toNat ∧ c.toNat ≤ 57 := by
      unfold Char.isDigit at h
      rw [Bool.and_eq_true, decide_eq_true_eq, decide_eq_true_eq] at h
      exact h
    have hall : ∀ n < 10, Utf16.isSpaceCode (48 + n) = false := by decide
    have hspace := hall (c.toNat - 48) (by omega)
    rwa [Nat.add_sub_cancel' hrange.1] at hspace
  · decide

/-- A text without blanks is left as it is. -/
theorem trim_eq (h : ∀ c ∈ s, Utf16.isSpace c = false) : trim s = s := by
  have hfront : s.dropWhile Utf16.isSpace = s := by
    cases s with
    | nil => rfl
    | cons c s =>
        refine List.dropWhile_cons_of_neg ?_
        rw [h c List.mem_cons_self]
        decide
  have hback : s.reverse.dropWhile Utf16.isSpace = s.reverse := by
    cases hs : s.reverse with
    | nil => rfl
    | cons c rest =>
        refine List.dropWhile_cons_of_neg ?_
        rw [h c (List.mem_reverse.mp (hs ▸ List.mem_cons_self))]
        decide
  unfold trim trimEnd
  rw [hfront, hback, List.reverse_reverse]

theorem splitOn_digits (h : ∀ c ∈ s, c.isDigit = true) :
    (s ++ ':' :: t).splitOn ':' = s :: t.splitOn ':' :=
  List.splitOn_append_cons_self_of_not_mem
    (fun hmem => ne_colon (h _ hmem) rfl) t

theorem splitOn_last (h : ∀ c ∈ s, c.isDigit = true) :
    s.splitOn ':' = [s] :=
  List.splitOn_eq_singleton fun hmem => ne_colon (h _ hmem) rfl

theorem timePattern_hours {hours minutes seconds : Nat} (hm : minutes < 60)
    (hs : seconds < 60) :
    timePattern (Nat.toDigits 10 hours ++ ':' :: (Decimal.padded 2 minutes
        ++ ':' :: Decimal.padded 2 seconds))
      = some (Nat.toDigits 10 hours, Decimal.padded 2 minutes,
          Decimal.padded 2 seconds) := by
  unfold timePattern
  rw [splitOn_digits Decimal.isDigit_toDigits,
    splitOn_digits Decimal.isDigit_padded,
    splitOn_last Decimal.isDigit_padded]
  simp only
  rw [isDigits_toDigits, isSixtieth_padded hm, isSixtieth_padded hs]
  rfl

theorem timePattern_minutes {minutes seconds : Nat} (hs : seconds < 60) :
    timePattern (Nat.toDigits 10 minutes ++ ':' :: Decimal.padded 2 seconds)
      = some (['0'], Nat.toDigits 10 minutes, Decimal.padded 2 seconds) := by
  unfold timePattern
  rw [splitOn_digits Decimal.isDigit_toDigits,
    splitOn_last Decimal.isDigit_padded]
  simp only
  rw [isDigits_toDigits, isSixtieth_padded hs]
  rfl

/-- A formatted time has no blanks to trim. -/
theorem trim_formatVideoTime (n : Nat) :
    trim (formatVideoTime n) = formatVideoTime n := by
  have hdigits : ∀ k, ∀ c ∈ Nat.toDigits 10 k, c.isDigit = true ∨ c = ':' :=
    fun _ c hc => Or.inl (Decimal.isDigit_toDigits c hc)
  have hpadded : ∀ k, ∀ c ∈ Decimal.padded 2 k, c.isDigit = true ∨ c = ':' :=
    fun _ c hc => Or.inl (Decimal.isDigit_padded c hc)
  refine trim_eq fun c hc => isSpace_eq_false ?_
  unfold formatVideoTime at hc
  simp only at hc
  split at hc
  case isTrue =>
    rcases List.mem_append.mp hc with hc | hc
    · exact hdigits _ c hc
    rcases List.mem_cons.mp hc with hc | hc
    · exact Or.inr hc
    rcases List.mem_append.mp hc with hc | hc
    · exact hpadded _ c hc
    rcases List.mem_cons.mp hc with hc | hc
    · exact Or.inr hc
    · exact hpadded _ c hc
  case isFalse =>
    rcases List.mem_append.mp hc with hc | hc
    · exact hdigits _ c hc
    rcases List.mem_cons.mp hc with hc | hc
    · exact Or.inr hc
    · exact hpadded _ c hc

end Texts

-- =================================== seconds

/-- The seconds that the groups of a match stand for. -/
def seconds (parts : Chars × Chars × Chars) : Nat :=
  Decimal.number parts.1 * 3600 + Decimal.number parts.2.1 * 60
    + Decimal.number parts.2.2

theorem reads_toNumber (digits : Chars) :
    Reads (toNumber digits) (Decimal.number digits) :=
  Binary64.reads_ofNat _

/-- What is parsed is the exact sum, where that is a safe integer. -/
theorem parseVideoTime_eq (value : Chars) :
    parseVideoTime value = (timePattern (trim value)).bind fun parts =>
      if seconds parts < 2 ^ 53 then some (seconds parts : ℚ) else none := by
  unfold parseVideoTime
  cases timePattern (trim value) with
  | none => rfl
  | some parts =>
      obtain ⟨hours, minutes, rest⟩ := parts
      have htotal : Reads _ (seconds (hours, minutes, rest)) :=
        (((reads_toNumber hours).mul (n := 3600) (by decide) (by decide)).add
          ((reads_toNumber minutes).mul (n := 60) (by decide) (by decide))).add
            (reads_toNumber rest)
      have hsafe := htotal.isSafeInteger
      simp only [Option.bind_some]
      split
      case isTrue h =>
        rw [if_pos (hsafe.mp h)]
        exact htotal.1 (hsafe.mp h)
      case isFalse h =>
        rw [if_neg fun hlt => h (hsafe.mpr hlt)]

theorem parseVideoTime_some {value : Chars} {x : ℚ}
    (h : parseVideoTime value = some x) :
    ∃ n : Nat, n < 2 ^ 53 ∧ x = n := by
  rw [parseVideoTime_eq] at h
  obtain ⟨parts, -, hparts⟩ := Option.bind_eq_some_iff.mp h
  split at hparts
  case isTrue hlt =>
    cases hparts
    exact ⟨seconds parts, hlt, rfl⟩
  case isFalse => cases hparts

/-- The groups matched in a formatted time stand for its seconds. -/
theorem timePattern_formatVideoTime {n : Nat} (h : n < 2 ^ 53) :
    ∃ parts, timePattern (formatVideoTime n) = some parts
      ∧ seconds parts = n := by
  have htotal := parts_total h
  unfold formatVideoTime
  simp only
  split
  case isTrue =>
    refine ⟨_, timePattern_hours (minutes_lt n) (seconds_lt n), ?_⟩
    unfold seconds
    rw [Decimal.number_toDigits, Decimal.number_padded, Decimal.number_padded]
    exact htotal
  case isFalse hhours =>
    refine ⟨_, timePattern_minutes (seconds_lt n), ?_⟩
    have hzero : Decimal.number ['0'] = 0 := rfl
    unfold seconds
    rw [Decimal.number_toDigits, Decimal.number_padded, hzero]
    rw [Nat.eq_zero_of_not_pos hhours] at htotal
    exact htotal

theorem parse_format {n : Nat} (h : n < 2 ^ 53) :
    parseVideoTime (formatVideoTime n) = some (n : ℚ) := by
  obtain ⟨parts, hparts, hseconds⟩ := timePattern_formatVideoTime h
  rw [parseVideoTime_eq, trim_formatVideoTime, hparts, Option.bind_some,
    hseconds, if_pos h]

-- =============================== round trips

/-- A safe number of seconds parses back from its text; and what a text
parses to has a text that parses to the same, and formats as itself. -/
theorem parseVideoTime_formatVideoTime :
    (∀ n < 2 ^ 53, parseVideoTime (formatVideoTime n) = some (n : ℚ))
      ∧ ∀ t x, parseVideoTime t = some x → ∃ n : Nat, x = n
        ∧ parseVideoTime (formatVideoTime n) = some x
        ∧ ∀ m : Nat, parseVideoTime (formatVideoTime n) = some (m : ℚ) →
          formatVideoTime m = formatVideoTime n := by
  refine ⟨fun n h => parse_format h, fun t x ht => ?_⟩
  obtain ⟨n, hn, rfl⟩ := parseVideoTime_some ht
  refine ⟨n, rfl, parse_format hn, fun m hm => ?_⟩
  have heq : (n : ℚ) = m := Option.some.inj ((parse_format hn).symm.trans hm)
  rw [Nat.cast_inj.mp heq]

/-- An hour, a minute and a second, there and back. -/
theorem parseVideoTime_formatVideoTime_hour :
    formatVideoTime 3661 = "1:01:01".toList
      ∧ parseVideoTime "1:01:01".toList = some 3661
      ∧ ∃ n : Nat, (3661 : ℚ) = n
        ∧ parseVideoTime (formatVideoTime n) = some 3661 := by
  have htext : formatVideoTime 3661 = "1:01:01".toList := by
    have hparts : getVideoTimeParts 3661 = ⟨1, 1, 1⟩ := by
      have hhours := hours_eq (n := 3661) (by decide)
      have hminutes := minutes_eq 3661
      unfold getVideoTimeParts at hhours hminutes ⊢
      simp only at hhours hminutes
      rw [hhours, hminutes]
    unfold formatVideoTime
    rw [hparts]
    decide
  have hparse := parseVideoTime_formatVideoTime.1 3661 (by decide)
  rw [htext] at hparse
  have hagain := parseVideoTime_formatVideoTime.2 _ _ hparse
  refine ⟨htext, hparse, ?_⟩
  obtain ⟨n, hn, hnum, -⟩ := hagain
  exact ⟨n, hn, hnum⟩

end StreamBrew.VideoTiming
