/-
What a preparation worker has spoken (worker.go, tts.go): the message of a
playback, cut to what the synthesizer takes, in one line.

A text is valid as it comes from the database, so the check of its
encoding is not modelled.
-/
import StreamBrew.Lib.Text
import StreamBrew.Alert.Domain

namespace StreamBrew.Alert

open Text

/-- The bound in characters. -/
def maxTTSTextRunes : Nat := 500
/-- The bound in bytes. -/
def maxTTSTextBytes : Nat := 4 * 2 ^ 10

/-- A message, cut with an ellipsis. -/
def ttsPlaybackText (text : String) : String :=
  let characters := text.toList
  if characters.length ≤ maxTTSTextRunes then text
  else String.ofList (characters.take (maxTTSTextRunes - 1) ++ ['…'])

/-- Why a text is not spoken: the errors of `SynthesisInvalidText`. -/
inductive InvalidText
  | inputLimit
  | empty
  | limit
  | control (character : Char)
  deriving DecidableEq, Repr

/-- `%04X` -/
def hexadecimal (n : Nat) : Chars :=
  let digits := (Nat.toDigits 16 n).map Char.toUpper
  List.replicate (4 - digits.length) '0' ++ digits

/-- The text of the error, without its origin. -/
def InvalidText.message : InvalidText → String
  | .inputLimit => "text exceeds input limit"
  | .empty => "text is empty"
  | .limit => "text exceeds limit"
  | .control character => "text contains control character U+"
      ++ String.ofList (hexadecimal character.toNat)

/-- `unicode.IsControl` -/
def isControl (c : Char) : Bool :=
  c.toNat < 0x20 || (0x7F ≤ c.toNat && c.toNat < 0xA0)

/-- `strings.Join(strings.Fields(text), " ")` -/
def joinFields (text : String) : String :=
  String.ofList ([' '].intercalate
    (fields ttsWhitespace.contains text.toList))

/-- normalizeTTSText: white space is joined, and what cannot be spoken is
refused. -/
def normalizeTTSText (text : String) : Except InvalidText String :=
  if text.utf8ByteSize > maxTTSTextBytes then .error .inputLimit
  else
    let text := joinFields text
    if text = "" then .error .empty
    else if text.utf8ByteSize > maxTTSTextBytes
        ∨ text.toList.length > maxTTSTextRunes then .error .limit
    else match text.toList.find? isControl with
      | some character => .error (.control character)
      | none => .ok text

end StreamBrew.Alert
