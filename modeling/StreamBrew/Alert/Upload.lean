/-
The content of an asset as it is sent (http.go): how long its text can
decode to is checked before it is decoded.
-/
import StreamBrew.Alert.Domain
import StreamBrew.Lib.Base64

namespace StreamBrew.Alert

open Text

/-- `MaxAlertImageBytes` -/
def maxAlertImageBytes : Nat := 4 * 2 ^ 20

/-- `MaxAlertSoundBytes` -/
def maxAlertSoundBytes : Nat := 10 * 2 ^ 20

/-- `writeError(response, status, message)` -/
structure ErrorResponse where
  status : Nat
  message : String
  deriving DecidableEq, Repr

/-- A text that is no encoding of a content. -/
def invalidContent : ErrorResponse := ⟨400, "invalid base64 content"⟩

/-- A content over the limit of its kind. -/
def uploadTooLarge : ErrorResponse := ⟨413, "upload too large"⟩

/-- How long the content of a text is at most, as far as its length and
its padding tell; `-1` for a text that is not of whole quanta. -/
def decodedBase64Length (value : Bytes) : Int :=
  if value.length = 0 ∨ value.length % 4 ≠ 0 then -1
  else
    let length : Int := value.length / 4 * 3
    let length :=
      if value[value.length - 1]? = some Base64.padChar then length - 1
      else length
    if value[value.length - 2]? = some Base64.padChar then length - 1
    else length

/-- What is checked before the text is decoded. -/
def checkDecodedLength (maxDecoded : Nat) (contentBase64 : Bytes) :
    Except ErrorResponse Unit :=
  let decodedLength := decodedBase64Length contentBase64
  if decodedLength ≤ 0 then .error invalidContent
  else if decodedLength > maxDecoded then .error uploadTooLarge
  else .ok ()

/-- The content of a text, which is checked again. -/
def decodeContent (maxDecoded : Nat) (contentBase64 : Bytes) :
    Except ErrorResponse Bytes :=
  match checkDecodedLength maxDecoded contentBase64 with
  | .error response => .error response
  | .ok () =>
      match Base64.decodeString contentBase64 with
      | none => .error invalidContent
      | some content =>
          if content.length = 0 then .error invalidContent
          else if content.length > maxDecoded then .error uploadTooLarge
          else .ok content

/-- How much the content of an upload may be; speech is not uploaded. -/
def AssetKind.maxDecoded : AssetKind → Option Nat
  | .sound => some maxAlertSoundBytes
  | .image => some maxAlertImageBytes
  | .tts => none

/-- The content that is passed on; a kind of no known name is none. -/
def uploadAsset (kind : Option AssetKind) (contentBase64 : Bytes) :
    Except ErrorResponse Bytes :=
  match kind.bind AssetKind.maxDecoded with
  | some maxDecoded => decodeContent maxDecoded contentBase64
  | none => .error ⟨400, "invalid asset kind"⟩

end StreamBrew.Alert
