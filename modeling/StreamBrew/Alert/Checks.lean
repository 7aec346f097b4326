/-
The constraints of the playback table, and the statement that inserts
the playback of an incoming donation as the database runs it.

# Timestamps

The database keeps a timestamp as microseconds from the year 2000,
within a range, or as one of two infinities. Adding an interval to one
raises an error where the sum is out of range; a column of type
`js_date` rounds what is written to it. Zero is that year here, as it is
where `jsDate` rounds halves away from zero.

The conditions of a `SELECT` are evaluated as they are written, and what
it selects is evaluated for the rows that they leave.

# Left out

The value NaN of a `numeric`, which the domain of an amount admits, in
the donation and in the playback alike.
-/
import StreamBrew.Alert.Queue

namespace StreamBrew.Alert

-- ================================ timestamps

/-- 4714-11-24 BC, the first timestamp. -/
def minTimestamp : Time := -211813488000000000

/-- 294277-01-01, past the last one. -/
def endTimestamp : Time := 9223371331200000000

/-- A timestamp with time zone, with its two infinities. -/
inductive Timestamp
  | minusInfinity
  | at (t : Time)
  | infinity
  deriving DecidableEq, Repr

/-- The time is one that the column can hold. -/
def InTimestamps (t : Time) : Prop := minTimestamp ≤ t ∧ t < endTimestamp

instance (t : Time) : Decidable (InTimestamps t) :=
  inferInstanceAs (Decidable (_ ∧ _))

/-- A timestamp and an interval: `timestamp out of range`. -/
def addInterval (t interval : Time) : Except StoreError Time :=
  if InTimestamps (t + interval) then .ok (t + interval)
  else .error .database

-- ==================================== checks

/-- `^[A-Z0-9][-A-Z0-9 ._()/+]{0,31}$` -/
def donationAsset (currency : String) : Bool :=
  let upper := fun c : Char => ('A' ≤ c && c ≤ 'Z') || ('0' ≤ c && c ≤ '9')
  match currency.toList with
  | c :: rest => upper c && rest.length ≤ 31
      && rest.all fun d => upper d || d ∈ "- ._()/+".toList
  | [] => false

/-- What the domain `donation_amount` is below, in units of 10⁻¹⁸. -/
def donationAmountEnd : Nat := 10 ^ 38

/-- `char_length(trim(tts_voice))` is from 1 to 64. -/
def voiceCheck (voice : String) : Bool :=
  1 ≤ (trim voice).length && (trim voice).length ≤ 64

/-- The text of a diagnostic, as `last_error` has it. -/
def DiagnosticCode.text : DiagnosticCode → String
  | .imageUnavailable => "image_unavailable"
  | .soundUnavailable => "sound_unavailable"
  | .ttsUnavailable => "tts_unavailable"
  | .audioBlocked => "audio_blocked"
  | .alertExpired => "alert_expired"
  | .backlogLimit => "backlog_limit"
  | .playbackTimeout => "playback_timeout"
  | .playerDisconnected => "player_disconnected"
  | .overlayRotated => "overlay_rotated"
  | .playbackIssue => "playback_issue"

/-- The constraints of a playback row, and those of its domains. -/
inductive PlaybackCheck
  | accentColor
  | author
  | donation
  | expiry
  | displayDuration
  | lastError
  | message
  | playerGeneration
  | preparationGeneration
  | soundVolume
  | ttsVoice
  | ttsVolume
  | amount
  | currency
  | preparationAttempts
  deriving DecidableEq, Repr

/-- Whether a row satisfies a constraint; a null does. -/
def Playback.satisfies (r : Playback) : PlaybackCheck → Bool
  | .accentColor => colorPattern r.accentColor
  | .author => r.author.all fun author => author.length ≤ 200
  | .donation =>
      (r.kind = .test && r.donationID.isNone)
        || ((r.kind = .incoming || r.kind = .replay) && r.donationID.isSome)
  | .expiry => r.createdAt < r.expiresAt
  | .displayDuration =>
      1000 ≤ r.displayDurationMS && r.displayDurationMS ≤ 30000
  | .lastError => r.lastError.all fun code => code.text.length ≤ 1000
  | .message => r.message.all fun message => message.length ≤ 2000
  | .playerGeneration => r.playerGeneration.all fun generation => 0 ≤ generation
  | .preparationGeneration => 0 ≤ r.preparationGeneration
  | .soundVolume => r.soundVolume ≤ 100
  | .ttsVoice => voiceCheck r.ttsVoice
  | .ttsVolume => r.ttsVolume ≤ 100
  | .amount => r.amount < donationAmountEnd
  | .currency => donationAsset r.currency
  | .preparationAttempts => 0 ≤ r.preparationAttempts

/-- All check constraints of the table. -/
def playbackChecks : List PlaybackCheck :=
  [.accentColor, .author, .donation, .expiry, .displayDuration, .lastError,
    .message, .playerGeneration, .preparationGeneration, .soundVolume,
    .ttsVoice, .ttsVolume, .amount, .currency, .preparationAttempts]

/-- The row satisfies every check of its table. -/
def Playback.Checked (r : Playback) : Prop :=
  ∀ check ∈ playbackChecks, r.satisfies check = true

instance (r : Playback) : Decidable r.Checked :=
  inferInstanceAs (Decidable (∀ _ ∈ _, _))

/-- A donation, with its time as the column has it. -/
structure DonationRow where
  donationID : DonationID
  source : Source
  userID : UserID
  author : Option String
  message : Option String
  amount : Nat
  currency : String
  occurredAt : Timestamp
  deriving DecidableEq, Repr

/-- A row that the donation table admits. -/
structure DonationRow.Admitted (d : DonationRow) : Prop where
  amount : d.amount < donationAmountEnd
  currency : donationAsset d.currency = true
  occurredAt : ∀ t, d.occurredAt = .at t → InTimestamps t ∧ jsDate t = t

/-- A row that the configuration table admits. -/
structure Configuration.Admitted (c : Configuration) : Prop where
  accentColor : colorPattern c.accentColor = true
  displayDuration : 1000 ≤ c.displayDurationMS ∧ c.displayDurationMS ≤ 30000
  soundVolume : c.soundVolume ≤ 100
  ttsVoice : voiceCheck c.ttsVoice = true
  ttsVolume : c.ttsVolume ≤ 100

-- ==================================== insert

/-- The row that is selected, once it is known when it expires. -/
def incomingRow (draw : Draw) (sequence : Nat) (acceptedAt expiresAt : Time)
    (configuration : Configuration) (donation : DonationRow) : Playback :=
  draw.playback sequence donation.userID
    (configuration.present .incoming (some donation.donationID)
      (some donation.source) (presentedAuthor donation.author)
      (presentedMessage donation.message) donation.amount donation.currency
      acceptedAt expiresAt)
    (initialStatus configuration donation.message)

/-- `INSERT INTO donation_alert_playback` of a row: an error where it
violates a constraint. -/
def insertChecked (r : Playback) : Except StoreError (Option Playback) :=
  if r.Checked then .ok (some r) else .error .database

/-- `$4 - make_interval(secs => $5) + interval '1 millisecond'` -/
def earliestIncoming (acceptedAt : Time) : Except StoreError Time :=
  (addInterval acceptedAt (-maxAlertAge)).bind fun earliest =>
    addInterval earliest millisecond

/-- The statement of EnqueueIncoming for a donation, the configuration
of its user and whether the source is enabled: what it inserts. -/
def insertIncoming (userID : UserID) (source : Source) (acceptedAt : Time)
    (draw : Draw) (sequence : Nat) (configuration : Configuration)
    (sourceEnabled : Bool) (donation : DonationRow) :
    Except StoreError (Option Playback) :=
  if donation.userID = userID ∧ donation.source = source
      ∧ configuration.enabled ∧ sourceEnabled then do
    let earliest ← earliestIncoming acceptedAt
    match donation.occurredAt with
    | .minusInfinity => .ok none
    | .infinity =>
        let latest ← addInterval acceptedAt maxAlertAge
        insertChecked
          (incomingRow draw sequence acceptedAt latest configuration donation)
    | .at occurredAt =>
        if occurredAt > earliest then
          let latest ← addInterval acceptedAt maxAlertAge
          let expiry ← addInterval occurredAt maxAlertAge
          insertChecked (incomingRow draw sequence acceptedAt
            (min latest expiry) configuration donation)
        else .ok none
  else .ok none

end StreamBrew.Alert
