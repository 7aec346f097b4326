/-
The vocabulary of donation alerts: the constants and enumerations of
domain.go, and one record for each alert table of schema.sql.

# Clock values

A clock value is a number of microseconds, which is what the database
driver sends: pgx truncates a Go time to microseconds, and comparing a
stored value with the untruncated time gives the same answer, since
stored values are whole milliseconds. A column of type `js_date` is
`timestamp(3)`: it rounds what is written to it (`jsDate`), while the
clock value a statement compares with stays unrounded.

# Records

A record keeps every column that some statement or check of the
component reads; `updated_at` columns and the bytes of a media file
are left out, as nothing reads them back. The columns of a playback
that the queue never rewrites while it is active are grouped as
`Snapshot`, the presentation snapshot of the feature description.
-/
import StreamBrew.Lib.Table

namespace StreamBrew.Alert

-- =================================== scalars

/-- Users are numbered; nothing but equality is asked of them. -/
abbrev UserID := Nat
/-- `donation_id`, a foreign key into the ingested donations. -/
abbrev DonationID := Nat
/-- A uuid is only ever compared. -/
abbrev PlaybackID := Nat
/-- `player_id`, a uuid that the service draws. -/
abbrev PlayerID := Nat
/-- `asset_id`, a uuid that the service draws. -/
abbrev AssetID := Nat
/-- The SHA-256 of an overlay token, in hexadecimal. -/
abbrev TokenHash := String
/-- Microseconds. -/
abbrev Time := Int

/-- In microseconds, as all durations here. -/
def millisecond : Time := 1000
/-- `time.Second` -/
def second : Time := 1000 * millisecond
/-- `time.Minute` -/
def minute : Time := 60 * second
/-- `24 * time.Hour` -/
def day : Time := 24 * 60 * minute

/-- Writing to a `timestamp(3)` column: round to the nearest
millisecond, halves away from zero. -/
def jsDate (t : Time) : Time :=
  if 0 ≤ t then (t + 500) / 1000 * 1000 else -((-t + 500) / 1000 * 1000)

/-- Rounding moves a time by half a millisecond at most. -/
theorem jsDate_near (t : Time) : t - 500 ≤ jsDate t ∧ jsDate t ≤ t + 500 := by
  have hround : ∀ i : Int, i - 500 ≤ (if 0 ≤ i
      then (i + 500) / 1000 * 1000 else -((-i + 500) / 1000 * 1000))
      ∧ (if 0 ≤ i then (i + 500) / 1000 * 1000
        else -((-i + 500) / 1000 * 1000)) ≤ i + 500 := by
    intro i
    split
    case isTrue => constructor <;> omega
    case isFalse => constructor <;> omega
  exact hround t

-- ================================= constants

/-- How old a donation may be when its alert is shown. -/
def maxAlertAge : Time := 10 * minute
/-- How many alerts of a user may wait. -/
def maxPendingAlerts : Nat := 100
/-- How long a player keeps its lease after a heartbeat. -/
def playerLease : Time := 15 * second
/-- How long a worker has to prepare one playback. -/
def preparationLease : Time := 2 * minute
/-- How often a preparation is tried. -/
def preparationTries : Nat := 3
/-- How long a playback may go without the next acknowledgement. -/
def playbackAcknowledgementTimeout : Time := 2 * minute
/-- Longer authors are cut. -/
def maxAlertAuthorRunes : Nat := 200
/-- Longer messages are cut. -/
def maxAlertMessageRunes : Nat := 2000
/-- How long finished playbacks are kept. -/
def terminalPlaybackRetention : Time := 30 * day
/-- How many finished playbacks of a user are kept. -/
def maxRetainedTerminalPlaybacks : Nat := 20
/-- The only voice there is. -/
def defaultTTSVoice : String := "ru"

-- ============================== enumerations

/-- Where a donation came from. -/
inductive Source
  | donationAlerts
  | donateStream
  | streamlabs
  | tourniquet
  | streamElements
  deriving DecidableEq, Repr

/-- `enum_range(NULL::donation_source)`. -/
def allSources : List Source :=
  [.donationAlerts, .donateStream, .streamlabs, .tourniquet,
    .streamElements]

/-- The name a source has in requests and in the database. -/
def Source.name : Source → String
  | .donationAlerts => "donationalerts"
  | .donateStream => "donate_stream"
  | .streamlabs => "streamlabs"
  | .tourniquet => "tourniquet"
  | .streamElements => "streamelements"

/-- The name is that of a source. -/
def validSource (name : String) : Bool :=
  (allSources.map Source.name).contains name

/-- `kind` of an asset: two that users choose, and synthesized speech. -/
inductive AssetKind
  | image
  | sound
  | tts
  deriving DecidableEq, Repr

/-- `kind` of a playback. -/
inductive PlaybackKind
  | incoming
  | replay
  | test
  deriving DecidableEq, Repr

/-- `status` of a playback; the last four are terminal. -/
inductive PlaybackStatus
  | preparing
  | pending
  | playing
  | completed
  | skipped
  | expired
  | interrupted
  deriving DecidableEq, Repr

namespace PlaybackStatus

/-- `status IN ('preparing', 'pending')`: in the backlog. -/
def Waiting (s : PlaybackStatus) : Prop := s = .preparing ∨ s = .pending

/-- `status IN ('completed', 'skipped', 'expired', 'interrupted')`. -/
def Terminal (s : PlaybackStatus) : Prop :=
  s = .completed ∨ s = .skipped ∨ s = .expired ∨ s = .interrupted

instance (s : PlaybackStatus) : Decidable s.Waiting :=
  inferInstanceAs (Decidable (_ ∨ _))

instance (s : PlaybackStatus) : Decidable s.Terminal :=
  inferInstanceAs (Decidable (_ ∨ _))

/-- A playback waits, plays or is over. -/
theorem terminal_iff (s : PlaybackStatus) :
    s.Terminal ↔ ¬ s.Waiting ∧ s ≠ .playing := by
  cases s <;> simp [Terminal, Waiting]

end PlaybackStatus

/-- What is recorded when something goes wrong with a playback. -/
inductive DiagnosticCode
  | imageUnavailable
  | soundUnavailable
  | ttsUnavailable
  | audioBlocked
  | alertExpired
  | backlogLimit
  | playbackTimeout
  | playerDisconnected
  | overlayRotated
  | playbackIssue
  deriving DecidableEq, Repr

/-- The codes that a player itself may report. -/
def validRendererDiagnostic : DiagnosticCode → Bool
  | .imageUnavailable | .soundUnavailable | .ttsUnavailable
  | .audioBlocked => true
  | _ => false

/-- How a player says that a playback ended. -/
inductive FinishOutcome
  | completed
  | interrupted
  deriving DecidableEq, Repr

/-- How a store call fails. `database` is an error of a statement, such
as a violated constraint; it rolls the transaction back. -/
inductive StoreError
  | notFound
  | invalidToken
  | leaseLost
  | conflict
  | validation (message : String)
  | unselectableAsset
  | invalidDiagnostic
  | database
  deriving DecidableEq, Repr

-- ====================================== text

/-- The Unicode White_Space characters, in code point order. -/
def ttsWhitespace : List Char :=
  ([9, 10, 11, 12, 13, 32, 133, 160, 5760, 8192, 8193, 8194, 8195, 8196,
    8197, 8198, 8199, 8200, 8201, 8202, 8232, 8233, 8239, 8287,
    12288] : List Nat).map Char.ofNat

/-- `left(text, n)`: the first `n` characters. -/
def left (text : String) (n : Nat) : String :=
  String.ofList (text.toList.take n)

/-- `trim(text)`: spaces are dropped at both ends, nothing else is. -/
def trim (text : String) : String :=
  String.ofList
    ((text.toList.dropWhile (· = ' ')).reverse.dropWhile (· = ' ')).reverse

/-- `translate(text, characters, '')`: the characters are deleted. -/
def translate (text : String) (characters : List Char) : String :=
  String.ofList (text.toList.filter fun c => !characters.contains c)

/-- `nullif(text, '')`. -/
def nullifEmpty (text : String) : Option String :=
  if text = "" then none else some text

/-- Go's `strings.TrimSpace`. -/
def trimSpace (text : String) : String :=
  String.ofList ((text.toList.dropWhile ttsWhitespace.contains).reverse
    |>.dropWhile ttsWhitespace.contains).reverse

-- =================================== records

/-- A stored donation, as far as alerts read it. The amount counts
units of 10⁻¹⁸, the scale of `donation_amount`. -/
structure Donation where
  donationID : DonationID
  source : Source
  sourceDonationID : String
  userID : UserID
  author : Option String
  message : Option String
  amount : Nat
  currency : String
  occurredAt : Time
  deriving DecidableEq, Repr

/-- A row of `donation_alert_asset`; its file is left out. -/
structure Asset where
  assetID : AssetID
  userID : UserID
  kind : AssetKind
  mimeType : String
  contentHash : String
  durationMS : Option Nat
  createdAt : Time
  deriving DecidableEq, Repr

/-- A prepared media file; `contentHash` is the SHA-256 of its bytes. -/
structure Media where
  mimeType : String
  contentHash : String
  durationMS : Nat
  deriving DecidableEq, Repr

/-- A row of `donation_alert_configuration`, with its defaults. -/
structure Configuration where
  userID : UserID
  enabled : Bool := false
  paused : Bool := false
  displayDurationMS : Nat := 7000
  soundVolume : Nat := 80
  ttsEnabled : Bool := false
  ttsVoice : String := "ru"
  ttsVolume : Nat := 80
  accentColor : String := "#f59e0b"
  imageAssetID : Option AssetID := none
  soundAssetID : Option AssetID := none
  deriving DecidableEq, Repr

/-- A row of `donation_alert_source`. -/
structure AlertSource where
  userID : UserID
  source : Source
  enabled : Bool := true
  deriving DecidableEq, Repr

/-- `PRIMARY KEY (user_id, source)`. -/
def AlertSource.key (s : AlertSource) : UserID × Source :=
  (s.userID, s.source)

/-- A row of `donation_alert_overlay`: the token of a user's overlay. -/
structure Overlay where
  userID : UserID
  tokenHash : TokenHash
  deriving DecidableEq, Repr

/-- The active player of a user: one row, under a lease. -/
structure Player where
  userID : UserID
  playerID : PlayerID
  generation : Int
  active : Bool
  visible : Bool
  connectedAt : Time
  lastSeenAt : Time
  leaseExpiresAt : Time
  deriving DecidableEq, Repr

/-- A row of `donation_alert_renderer_diagnostic`. -/
structure RendererDiagnostic where
  playbackID : PlaybackID
  userID : UserID
  code : DiagnosticCode
  occurredAt : Time
  deriving DecidableEq, Repr

/-- `PRIMARY KEY (donation_alert_playback_id, code)`. -/
def RendererDiagnostic.key (d : RendererDiagnostic) :
    PlaybackID × DiagnosticCode := (d.playbackID, d.code)

/-- What a playback presents, fixed while it is queued or playing. -/
structure Snapshot where
  kind : PlaybackKind
  donationID : Option DonationID
  source : Option Source
  author : Option String
  message : Option String
  amount : Nat
  currency : String
  imageAssetID : Option AssetID
  soundAssetID : Option AssetID
  displayDurationMS : Nat
  soundVolume : Nat
  ttsVolume : Nat
  ttsVoice : String
  accentColor : String
  createdAt : Time
  expiresAt : Time
  deriving DecidableEq, Repr

/-- A row of `donation_alert_playback`: what is presented, and how far it has
come. -/
structure Playback extends Snapshot where
  playbackID : PlaybackID
  queueSequence : Nat
  userID : UserID
  status : PlaybackStatus
  ttsAssetID : Option AssetID := none
  availableAt : Time
  startedAt : Option Time := none
  finishedAt : Option Time := none
  playerID : Option PlayerID := none
  playerGeneration : Option Int := none
  preparationGeneration : Nat := 0
  preparationAttempts : Nat := 0
  preparationLeaseExpiresAt : Option Time := none
  lastError : Option DiagnosticCode := none
  deriving DecidableEq, Repr

/-- A claimed speech preparation, as a worker holds it. -/
structure Preparation where
  playbackID : PlaybackID
  userID : UserID
  generation : Nat
  attempts : Nat
  text : String
  voice : String
  deriving DecidableEq, Repr

/-- What a user sends to change the configuration. -/
structure Settings where
  enabled : Bool
  enabledSources : List String
  displayDurationMS : Int
  soundVolume : Int
  ttsEnabled : Bool
  ttsVoice : String
  ttsVolume : Int
  accentColor : String
  imageAssetID : Option AssetID
  soundAssetID : Option AssetID
  deriving DecidableEq, Repr

/-- `^#[0-9a-fA-F]{6}$` -/
def colorPattern (text : String) : Bool :=
  match text.toList with
  | '#' :: digits => digits.length = 6 ∧ digits.all fun c =>
      ('0' ≤ c ∧ c ≤ '9') ∨ ('a' ≤ c ∧ c ≤ 'f') ∨ ('A' ≤ c ∧ c ≤ 'F')
  | _ => false

/-- The first enabled source that is unknown or repeats an earlier one. -/
def validateSources (seen : List String) : List String → Except String Unit
  | [] => .ok ()
  | name :: rest =>
      if !validSource name then
        .error ("invalid donation source " ++ name.quote)
      else if seen.contains name then
        .error ("duplicate donation source " ++ name.quote)
      else validateSources (name :: seen) rest

/-- Settings.Validate: the first violated bound is the error. -/
def Settings.validate (settings : Settings) : Except String Unit :=
  let voice := trimSpace settings.ttsVoice
  if settings.displayDurationMS < 1000
      ∨ settings.displayDurationMS > 30000 then
    .error "display duration must be between 1000 and 30000 milliseconds"
  else if settings.soundVolume < 0 ∨ settings.soundVolume > 100
      ∨ settings.ttsVolume < 0 ∨ settings.ttsVolume > 100 then
    .error "volume must be between 0 and 100"
  else if voice.utf8ByteSize < 1 ∨ voice.utf8ByteSize > 64 then
    .error "invalid TTS voice"
  else if voice ≠ defaultTTSVoice then
    .error "unsupported TTS voice"
  else if !colorPattern settings.accentColor then
    .error "invalid accent color"
  else validateSources [] settings.enabledSources

end StreamBrew.Alert
