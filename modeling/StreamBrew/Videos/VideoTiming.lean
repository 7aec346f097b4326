/-
Times in a video as texts (video-timing.ts).

Seconds are numbers of 64 bits: a quotient is rounded before its whole
part is taken, and the sum of what a text's parts stand for is rounded at
every step.
-/
import StreamBrew.Lib.Binary64
import StreamBrew.Lib.Decimal
import StreamBrew.Lib.Utf16

namespace StreamBrew.VideoTiming

open Text
open Binary64 (Double)

/-- Hours, minutes and seconds. -/
structure VideoTimeParts where
  hours : Nat
  minutes : Nat
  seconds : Nat

/-- The parts of a number of seconds. -/
def getVideoTimeParts (totalSeconds : Nat) : VideoTimeParts where
  hours := Double.floorDiv totalSeconds 3600
  minutes := Double.floorDiv (totalSeconds % 3600) 60
  seconds := totalSeconds % 60

/-- The text of a number of seconds, with hours where there are any. -/
def formatVideoTime (totalSeconds : Nat) : Chars :=
  let parts := getVideoTimeParts totalSeconds
  if 0 < parts.hours then
    Nat.toDigits 10 parts.hours ++ ':' :: (Decimal.padded 2 parts.minutes
      ++ ':' :: Decimal.padded 2 parts.seconds)
  else
    Nat.toDigits 10 parts.minutes ++ ':' :: Decimal.padded 2 parts.seconds

/-- `value.trim()` -/
def trim (value : Chars) : Chars :=
  trimEnd Utf16.isSpace (value.dropWhile Utf16.isSpace)

/-- `\d+` -/
def isDigits (s : Chars) : Bool := s ≠ [] && s.all Char.isDigit

/-- `[0-5]\d` -/
def isSixtieth : Chars → Bool
  | [tens, ones] => '0' ≤ tens && tens ≤ '5' && ones.isDigit
  | _ => false

/-- The hours, minutes and seconds that
`^(?:(\d+):([0-5]\d):([0-5]\d)|(\d+):([0-5]\d))$` matches. -/
def timePattern (value : Chars) : Option (Chars × Chars × Chars) :=
  match value.splitOn ':' with
  | [hours, hourMinutes, hourSeconds] =>
      if isDigits hours && isSixtieth hourMinutes && isSixtieth hourSeconds then
        some (hours, hourMinutes, hourSeconds)
      else none
  | [minutes, minuteSeconds] =>
      if isDigits minutes && isSixtieth minuteSeconds then
        some (['0'], minutes, minuteSeconds)
      else none
  | _ => none

/-- `Number(digits)` -/
def toNumber (digits : Chars) : Double := Binary64.ofNat (Decimal.number digits)

/-- Nothing is null: infinity is no safe integer. -/
def parseVideoTime (value : Chars) : Option ℚ :=
  match timePattern (trim value) with
  | none => none
  | some (hours, minutes, seconds) =>
      let totalSeconds :=
        (((toNumber hours).mul (Binary64.ofNat 3600)).add
          ((toNumber minutes).mul (Binary64.ofNat 60))).add (toNumber seconds)
      if totalSeconds.isSafeInteger then totalSeconds else none

end StreamBrew.VideoTiming
