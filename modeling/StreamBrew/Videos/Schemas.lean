/-
Amounts as the schemas of the web server take them (schemas.ts), and the
rate of a currency change (video.ts, currency.ts).

A schema takes a number as well as a text, and makes of the number what
it makes of its text: texts are what is modelled.
-/
import StreamBrew.Videos.Money

namespace StreamBrew.Schemas

open Text
open Videos (QueueCurrency Factor)

/-- `text.padEnd(width, "0")` -/
def padEnd (width : Nat) (text : Chars) : Chars :=
  text ++ List.replicate (width - text.length) '0'

/-- `const [integer, fraction = otherwise] = value.split(".")` -/
def splitPoint (otherwise : Chars) (value : Chars) : Chars × Chars :=
  let parts := value.splitOn '.'
  (parts.getD 0 [], parts.getD 1 otherwise)

-- =================================== amounts

/-- `/^\d{1,18}(?:\.\d{1,2})?$/` -/
def moneyAmountString (value : Chars) : Bool :=
  (Decimal.pattern 18 2 value).isSome

/-- The transformed text of an amount with cents. -/
def moneyAmountSchema (value : Chars) : Option Chars :=
  if moneyAmountString value then
    let parts := splitPoint [] value
    some (parts.1 ++ '.' :: padEnd 2 parts.2)
  else none

/-- `/^\d{1,20}(?:\.\d{1,18})?$/` -/
def donationAmountString (value : Chars) : Bool :=
  (Decimal.pattern 20 18 value).isSome

/-- The transformed text of an amount that may have more zeros. -/
def donationAmountSchema (value : Chars) : Option Chars :=
  if donationAmountString value then
    let parts := splitPoint [] value
    let significantFraction := trimEnd (· = '0') parts.2
    if significantFraction.length ≤ 2 then
      some (parts.1 ++ '.' :: padEnd 2 significantFraction)
    else some (parts.1 ++ '.' :: significantFraction)
  else none

-- ===================================== rates

/-- `MoneyAmountSchema.refine((rate) => rate !== "0.00")` -/
def rate (value : Chars) : Option Chars :=
  (moneyAmountSchema value).filter fun rate => rate ≠ "0.00".toList

/-- The amount of a transformed text, in cents. -/
def cents (amount : Chars) : Nat :=
  let parts := splitPoint ['0'] amount
  Decimal.number parts.1 * 100 + Decimal.number parts.2

/-- The factor of a currency change, with its rate as a text. -/
def conversionFactorForCurrencyChange (source target : QueueCurrency)
    (rate : Chars) : Factor :=
  if target.rublesPerUnit < source.rublesPerUnit then
    { numerator := cents rate, denominator := 100 }
  else { numerator := 100, denominator := cents rate }

end StreamBrew.Schemas
