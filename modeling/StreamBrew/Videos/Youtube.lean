/-
Links to videos (youtube.go): finding them in a message, the id of a
video, and the times in a link.

The patterns are those of the source, term by term. A message is a text;
what is decoded from a link is a byte string.
-/
import StreamBrew.Lib.Regex
import StreamBrew.Lib.Url
import StreamBrew.Videos.Domain

namespace StreamBrew.Youtube

open Regex Regex.Pattern Text Url

-- ================================== patterns

/-- A character up to case, as `(?i)` folds it: the long `s` and the
Kelvin sign are folded too. -/
def sameFold (a c : Char) : Bool :=
  c.toLower = a || (a = 's' && c = 'ſ') || (a = 'k' && c = Char.ofNat 0x212A)

/-- `(?i)[a-z0-9-]` -/
def isLabelChar (c : Char) : Bool :=
  isAlphanum c || c = '-' || c = 'ſ' || c = Char.ofNat 0x212A

/-- `[^\s<>]` -/
def isPathChar (c : Char) : Bool :=
  !(c ∈ ['\t', '\n', Char.ofNat 0x0C, '\r', ' ', '<', '>'])

/-- The text, in any case. -/
def folded (text : String) : Pattern Char := literal sameFold text.toList

/-- `(?:https?://)|(?:www\.)` -/
def originPattern : Pattern Char :=
  alt (seq (folded "http") (seq (opt (folded "s")) (folded "://")))
    (folded "www.")

/-- `(?:/[^\s<>]*)?` -/
def pathPattern : Pattern Char :=
  opt (seq (folded "/") (star (char isPathChar)))

/-- The links that a message may have. -/
def urlPattern : Pattern Char :=
  alt
    (seq originPattern
      (seq (star (seq (plus (char isLabelChar)) (folded ".")))
        (seq (alt (folded "youtube.com") (folded "youtube-nocookie.com"))
          pathPattern)))
    (seq originPattern (seq (folded "youtu.be") pathPattern))

/-- `(?:(\d+)u)?` -/
def componentPattern (n : Nat) (unit : Char) : Pattern UInt8 :=
  opt (seq (group n (plus (char isDigit)))
    (char fun b => b = UInt8.ofNat unit.toNat))

/-- `^(?:(\d+)h)?(?:(\d+)m)?(?:(\d+)s)?$`, without the anchors. -/
def timestampPattern : Pattern UInt8 :=
  seq (componentPattern 1 'h')
    (seq (componentPattern 2 'm') (componentPattern 3 's'))

/-- `[A-Za-z0-9_-]` -/
def isVideoIDByte (b : UInt8) : Bool :=
  isAlphanum (ascii b) || ascii b = '_' || ascii b = '-'

/-- `^[A-Za-z0-9_-]{11}$`, without the anchors. -/
def videoIDPattern : Pattern UInt8 := times (char isVideoIDByte) 11

/-- `[!.,;:?)\]\x7d]+$` -/
def trailingURLPunctuation (c : Char) : Bool :=
  c ∈ ['!', '.', ',', ';', ':', '?', ')', ']', Char.ofNat 0x7D]

-- ===================================== links

/-- A text as bytes. -/
def name (s : String) : Bytes := bytes s.toList

/-- A link without a scheme is one to a secure page. -/
def parseURL (rawURL : Chars) : Option URL :=
  parseRequestURI <|
    if (rawURL.take 4).map Char.toLower = "www.".toList then
      "https://".toList ++ rawURL
    else rawURL

/-- The hosts that videos are linked at (Go). -/
def isYoutubeURL (parsed : URL) : Bool :=
  let host := lower parsed.hostname
  (parsed.scheme = "http".toList || parsed.scheme = "https".toList)
    && (host = name "youtu.be" || host = name "youtube.com"
      || (name ".youtube.com").isSuffixOf host
      || host = name "youtube-nocookie.com"
      || (name ".youtube-nocookie.com").isSuffixOf host)

/-- A match as it is stored. -/
def canonical (found : Chars) : Option Chars :=
  match parseURL (trimEnd trailingURLPunctuation found) with
  | none => none
  | some parsed =>
      if isYoutubeURL parsed then
        some { parsed with scheme := "https".toList }.text
      else none

/-- The links of a message, each once. -/
def extractURLs (message : Chars) : List Chars :=
  ((urlPattern.findAll message).filterMap canonical).eraseDups

/-- An identifier has eleven characters. -/
def validVideoID (id : Bytes) : Bool := (videoIDPattern.fullMatch? id).isSome

/-- `strings.EqualFold`, for a name without `k` and `s`. -/
def equalFold (s t : Bytes) : Bool :=
  s.map (fun b => (ascii b).toLower) = t.map fun b => (ascii b).toLower

/-- The segments of a path between its outer slashes. -/
def pathParts (path : Bytes) : List Bytes :=
  (trimEnd (· = 0x2F) (path.dropWhile (· = 0x2F))).splitOn 0x2F

/-- The identifier of a link, by its host and path. -/
def idOf (parsed : URL) : Bytes :=
  let id := parsed.queryValue (name "v")
  if equalFold parsed.hostname (name "youtu.be") then
    (if parsed.path.head? = some 0x2F then parsed.path.drop 1
      else parsed.path).takeWhile (· ≠ 0x2F)
  else
    match pathParts parsed.path with
    | first :: second :: _ =>
        if id = [] ∧ (first = name "embed" ∨ first = name "shorts") then
          second
        else id
    | _ => id

/-- The provider's id of the video behind a link. -/
def videoID (rawURL : Chars) : Option String :=
  match parseURL rawURL with
  | none => none
  | some parsed =>
      if isYoutubeURL parsed ∧ validVideoID (idOf parsed) then
        some (ofAscii (idOf parsed))
      else none

-- ===================================== times

/-- The largest value of 32 bits with a sign. -/
def maxInt32 : Nat := 2147483647

/-- Add a component of a timestamp; each step is checked. -/
def addComponent (total : Nat) (digits : Bytes) (multiplier : Nat) :
    Option Nat :=
  match parseInt (if digits = [] then name "0" else digits) with
  | none => none
  | some component =>
      let total := total + component.toNat * multiplier
      if maxInt32 < total then none else some total

/-- A time as whole seconds; nothing beyond the integers of the
database. -/
def parseTimestamp (value : Bytes) : Option Nat :=
  if value = [] then none
  else match (parseInt value).filter (0 ≤ ·) with
  | some seconds => some seconds.toNat
  | none =>
      match timestampPattern.fullMatch? value with
      | none => none
      | some found =>
          ((addComponent 0 (found.get 1) 3600).bind fun total =>
            addComponent total (found.get 2) 60).bind fun total =>
              addComponent total (found.get 3) 1

/-- A result of integers of 64 bits, unless it overflows. -/
def int64? (n : Int) : Option Int :=
  if -9223372036854775808 ≤ n ∧ n ≤ 9223372036854775807 then some n else none

/-- The loop of ParseTimestamp over its components, in integers of 64
bits: no result at all where an operation overflows. -/
def sumComponents : Int → List (Bytes × Int) → Option (Option Int)
  | total, [] => some (some total)
  | total, (digits, multiplier) :: components =>
      match parseInt (if digits = [] then name "0" else digits) with
      | none => some none
      | some component =>
          (int64? (component * multiplier)).bind fun product =>
            (int64? (total + product)).bind fun total =>
              if (maxInt32 : Int) < total then some none
              else sumComponents total components

/-- ParseTimestamp in integers of 64 bits. -/
def parseTimestampChecked (value : Bytes) : Option (Option Int) :=
  if value = [] then some none
  else match (parseInt value).filter (0 ≤ ·) with
  | some seconds => some (some seconds)
  | none =>
      match timestampPattern.fullMatch? value with
      | none => some none
      | some found =>
          sumComponents 0 [(found.get 1, 3600), (found.get 2, 60),
            (found.get 3, 1)]

theorem addComponent_le {total : Nat} {digits : Bytes} {multiplier n : Nat}
    (h : addComponent total digits multiplier = some n) : n ≤ maxInt32 := by
  unfold addComponent at h
  split at h
  case h_1 => cases h
  case h_2 component _ =>
    dsimp only at h
    split at h
    case isTrue => cases h
    case isFalse hle =>
      cases h
      exact not_lt.mp hle

/-- A time that is read is in the range of the database's integers. -/
theorem parseTimestamp_le {value : Bytes} {n : Nat}
    (h : parseTimestamp value = some n) : n ≤ maxInt32 := by
  unfold parseTimestamp at h
  split at h
  case isTrue => cases h
  case isFalse =>
    split at h
    case h_1 seconds hseconds =>
      cases h
      have hlt := parseInt_lt (Option.filter_eq_some_iff.mp hseconds).1
      unfold maxInt32
      omega
    case h_2 =>
      split at h
      case h_1 => cases h
      case h_2 found _ =>
        obtain ⟨total, -, htotal⟩ := Option.bind_eq_some_iff.mp h
        exact addComponent_le htotal

/-- An id has eleven characters. -/
theorem videoID_eq_some {rawURL : Chars} {id : String}
    (h : videoID rawURL = some id) :
    ∃ s : Bytes, id = ofAscii s ∧ s.length = 11
      ∧ s.all isVideoIDByte = true := by
  unfold videoID at h
  split at h
  case h_1 => cases h
  case h_2 parsed _ =>
    split at h
    case isTrue hid =>
      cases h
      obtain ⟨hlength, hall⟩ := fullMatch?_times hid.2
      exact ⟨idOf parsed, rfl, hlength, hall⟩
    case isFalse => cases h

/-- A link has no control character. -/
theorem canonical_not_ctl {found link : Chars}
    (h : canonical found = some link) : ∀ c ∈ link, isCTL c = false := by
  unfold canonical at h
  split at h
  case h_1 => cases h
  case h_2 parsed hparsed =>
    split at h
    case isFalse => cases h
    case isTrue =>
      cases h
      have hclean := parseURI_clean hparsed
      refine URL.text_not_ctl ⟨hclean.rootless, hclean.rawQuery⟩ ?_
      exact fun c hc => by
        have hall : "https".toList.all (fun c => !isCTL c) = true := by decide
        simpa using List.all_eq_true.mp hall c hc

end StreamBrew.Youtube
