/-
Money amounts as texts (money.go).

The rates are those of the model of the store, which reads and writes an
amount as a number; here an amount is the text that a donation's amount
is sent as, and the text that a queue amount is stored from.
-/
import StreamBrew.Lib.Decimal
import StreamBrew.Videos.Domain

namespace StreamBrew.Money

open Text
open Videos (StoreError rublesPerUnit roundDiv)

/-- The text of a `donation_amount`, in units of 10⁻¹⁸. -/
def donationAmountText (amount : Nat) : Chars := Decimal.fixed 18 amount

/-- `^(\d{1,18})(?:\.(\d{1,2}))?$` -/
def amountPattern (amount : Chars) : Option (Chars × Chars) :=
  Decimal.pattern 18 2 amount

/-- `^(\d{1,20})(?:\.(\d{1,18}))?$` -/
def donationAmountPattern (amount : Chars) : Option (Chars × Chars) :=
  Decimal.pattern 20 18 amount

/-- Normalize: two digits behind the point. -/
def normalize (amount : Chars) : Option Chars :=
  (amountPattern amount).map fun m =>
    m.1 ++ '.' :: (m.2 ++ List.replicate (2 - m.2.length) '0')

/-- NormalizeDonationAmount: as few digits as there can be. -/
def normalizeDonationAmount (amount : Chars) : Option Chars :=
  (donationAmountPattern
    (Alert.trimSpace (String.ofList amount)).toList).map fun m =>
      let fraction := trimEnd (· = '0') m.2
      if fraction = [] then m.1 else m.1 ++ '.' :: fraction

/-- `SetString(digits, 10)` -/
def setString (digits : Chars) : Option Nat :=
  if digits ≠ [] ∧ digits.all Char.isDigit then some (Decimal.number digits)
  else none

/-- The units of an amount, and its scale. -/
def parseDonationUnits (amount : Chars) : Option (Nat × Nat) :=
  (normalizeDonationAmount amount).bind fun normalized =>
    let whole := (cut '.' normalized).1
    let fraction := (cut '.' normalized).2.getD []
    (setString (whole ++ fraction)).map fun value =>
      (value, 10 ^ fraction.length)

/-- `%s.%02d` -/
def formatCents (value : Nat) : Chars :=
  Nat.toDigits 10 (value / 100) ++ '.' :: Decimal.padded 2 (value % 100)

/-- No text where a currency is unsupported or the result is out of
range. -/
def convertWithDefaultRate (amount : Chars)
    (sourceCurrency targetCurrency : String) :
    Except StoreError (Option Chars) :=
  match rublesPerUnit sourceCurrency, rublesPerUnit targetCurrency with
  | some sourceRate, some targetRate =>
      match parseDonationUnits amount with
      | none => .error .conversion
      | some (units, scale) =>
          let converted := formatCents
            (roundDiv (units * sourceRate * 100) (scale * targetRate))
          .ok (if (amountPattern converted).isSome then some converted
            else none)
  | _, _ => .ok none

example : convertWithDefaultRate "0.004999999999999999".toList "USD" "USD"
    = .ok (some "0.00".toList) := by decide

end StreamBrew.Money
