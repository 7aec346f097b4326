/-
The playback queue: the store calls of store_queue.go, which append a
playback (an accepted donation, a test, a replay), trim the backlog,
and skip.

# A new row

The two values the database draws for a row are collected in `Draw`.
`queue_sequence` is an identity: each value is above every value drawn
before it, and transactions that failed leave gaps, so a draw is the
distance from the next value. The calls hold the configuration row
while they draw, which is why the order of the values is the order in
which these calls take effect.
-/
import StreamBrew.Alert.Store

namespace StreamBrew.Alert

open Relational

/-- The values drawn for an inserted playback. -/
structure Draw where
  playbackID : PlaybackID
  gap : Nat
  deriving DecidableEq, Repr

/-- The row that `INSERT INTO donation_alert_playback` adds; the columns
it does not name take their defaults. -/
def Draw.playback (draw : Draw) (sequence : Nat) (userID : UserID)
    (snapshot : Snapshot) (status : PlaybackStatus) : Playback :=
  { snapshot with
    playbackID := draw.playbackID
    queueSequence := sequence + 1 + draw.gap
    userID, status
    availableAt := snapshot.createdAt }

/-- `INSERT INTO donation_alert_playback`; refused when an id is
taken. -/
def Db.insertPlayback (draw : Draw) (userID : UserID)
    (snapshot : Snapshot) (status : PlaybackStatus) (db : Db) :
    Option Db :=
  let row := draw.playback db.sequence userID snapshot status
  if db.playbacks.Exists fun r => r.playbackID = draw.playbackID then none
  else (db.playbacks.insert? row).map fun playbacks =>
    { db with playbacks, sequence := row.queueSequence }

/-- `SELECT .. WHERE donation_alert_playback_id = $1`. -/
def Db.playback? (playbackID : PlaybackID) (db : Db) : Option Playback :=
  db.playbacks.find? fun r => r.playbackID = playbackID

/-- A message with something to say in its first characters. -/
def speakable (message : Option String) : Bool :=
  match message with
  | none => false
  | some text =>
      translate (left text maxAlertMessageRunes) ttsWhitespace ≠ ""

/-- The status a playback of a message starts with. -/
def initialStatus (configuration : Configuration)
    (message : Option String) : PlaybackStatus :=
  if configuration.ttsEnabled ∧ speakable message then .preparing
  else .pending

/-- The columns a new playback copies from the configuration. -/
def Configuration.present (configuration : Configuration)
    (kind : PlaybackKind) (donationID : Option DonationID)
    (source : Option Source) (author message : Option String)
    (amount : Nat) (currency : String) (createdAt expiresAt : Time) :
    Snapshot where
  kind := kind
  donationID := donationID
  source := source
  author := author
  message := message
  amount := amount
  currency := currency
  imageAssetID := configuration.imageAssetID
  soundAssetID := configuration.soundAssetID
  displayDurationMS := configuration.displayDurationMS
  soundVolume := configuration.soundVolume
  ttsVolume := configuration.ttsVolume
  ttsVoice := configuration.ttsVoice
  accentColor := configuration.accentColor
  createdAt := jsDate createdAt
  expiresAt := jsDate expiresAt

/-- `nullif(left(trim(author), 200), '')`. -/
def presentedAuthor (author : Option String) : Option String :=
  author.bind fun a => nullifEmpty (left (trim a) maxAlertAuthorRunes)

/-- `left(message, 2000)`. -/
def presentedMessage (message : Option String) : Option String :=
  message.map fun m => left m maxAlertMessageRunes

-- =================================== backlog

/-- The user's preparing and pending playbacks. -/
def Playback.InBacklog (userID : UserID) (r : Playback) : Prop :=
  r.userID = userID ∧ r.status.Waiting

instance (userID : UserID) : DecidablePred (Playback.InBacklog userID) :=
  fun _ => inferInstanceAs (Decidable (_ ∧ _))

/-- A playback that leaves the backlog unseen. -/
def Playback.expire (now : Time) (reason : DiagnosticCode)
    (r : Playback) : Playback :=
  { r with
    status := .expired
    finishedAt := some (jsDate now)
    preparationLeaseExpiresAt := none
    lastError := some reason }

theorem Playback.expire_keeps (now : Time) (reason : DiagnosticCode)
    (r : Playback) :
    (r.expire now reason).queueSequence = r.queueSequence := rfl

/-- Expire all but the newest 100 playbacks of the backlog. -/
def boundBacklog (userID : UserID) (now : Time) (db : Db) : Db :=
  { db with
    playbacks := db.playbacks.update
      (fun r => r.InBacklog userID ∧ maxPendingAlerts
        ≤ db.playbacks.rank (Playback.InBacklog userID)
          Playback.queueSequence r)
      (Playback.expire now .backlogLimit)
      (Playback.expire_keeps now .backlogLimit) }

-- =================================== enqueue

/-- The conditions of the `SELECT` that feeds the incoming playback. -/
def AcceptsIncoming (userID : UserID) (source : Source)
    (acceptedAt : Time) (configuration : Configuration)
    (donation : Donation) (db : Db) : Prop :=
  donation.userID = userID ∧ donation.source = source
    ∧ configuration.enabled
    ∧ (db.alertSources.Exists fun s =>
        s.userID = userID ∧ s.source = source ∧ s.enabled)
    ∧ donation.occurredAt > acceptedAt - maxAlertAge + millisecond

instance (userID : UserID) (source : Source) (acceptedAt : Time)
    (configuration : Configuration) (donation : Donation) (db : Db) :
    Decidable (AcceptsIncoming userID source acceptedAt configuration
      donation db) :=
  inferInstanceAs (Decidable (_ ∧ _))

/-- The donation already has its incoming playback. -/
def HasIncoming (donationID : DonationID) (db : Db) : Prop :=
  db.playbacks.Exists fun r =>
    r.kind = .incoming ∧ r.donationID = some donationID

instance (donationID : DonationID) (db : Db) :
    Decidable (HasIncoming donationID db) :=
  inferInstanceAs (Decidable (Table.Exists _ _))

/-- Queue the incoming playback of a newly inserted donation. It runs
in the caller's transaction, which an error rolls back. -/
def enqueueIncoming (userID : UserID) (donationID : DonationID)
    (source : Source) (acceptedAt : Time) (draw : Draw) (db : Db) :
    Except StoreError Db :=
  match db.configurations.get? userID with
  | none => .ok db
  | some configuration =>
      match db.donations.get? donationID with
      | none => .ok (boundBacklog userID acceptedAt db)
      | some donation =>
          if AcceptsIncoming userID source acceptedAt configuration
              donation db ∧ ¬ HasIncoming donationID db then
            match db.insertPlayback draw donation.userID
                (configuration.present .incoming donation.donationID
                  donation.source (presentedAuthor donation.author)
                  (presentedMessage donation.message) donation.amount
                  donation.currency acceptedAt
                  (min (acceptedAt + maxAlertAge)
                    (donation.occurredAt + maxAlertAge)))
                (initialStatus configuration donation.message) with
            | none => .error .database
            | some db' => .ok (boundBacklog userID acceptedAt db')
          else .ok (boundBacklog userID acceptedAt db)

/-- Store.CreateTest: a test alert is queued with the present settings. -/
def createTest (userID : UserID) (now : Time) (draw : Draw) (db : Db) :
    Outcome Playback :=
  let ensured := ensureConfiguration userID db
  match ensured.configurations.get? userID with
  | none => (.error .database, db)
  | some configuration =>
      match ensured.insertPlayback draw userID
          (configuration.present .test none none (some "StreamBrew")
            (some "This is a test donation alert.") (500 * 10 ^ 18) "RUB"
            now (now + maxAlertAge))
          (if configuration.ttsEnabled then .preparing else .pending) with
      | none => (.error .database, db)
      | some inserted =>
          let db' := boundBacklog userID now inserted
          match db'.playback? draw.playbackID with
          | none => (.error .notFound, db')
          | some playback => (.ok playback, db')

/-- Store.Replay: a finished donation alert is queued again with the present
settings. -/
def replay (userID : UserID) (sourcePlaybackID : PlaybackID) (now : Time)
    (draw : Draw) (db : Db) : Outcome Playback :=
  let ensured := ensureConfiguration userID db
  match ensured.playbacks.find? fun r =>
      r.playbackID = sourcePlaybackID ∧ r.userID = userID
        ∧ r.donationID ≠ none ∧ r.status.Terminal,
      ensured.configurations.get? userID with
  | some source, some configuration =>
      match ensured.insertPlayback draw userID
          (configuration.present .replay source.donationID source.source
            (presentedAuthor source.author)
            (presentedMessage source.message) source.amount
            source.currency now (now + maxAlertAge))
          (initialStatus configuration source.message) with
      | none => (.error .database, db)
      | some inserted =>
          let db' := boundBacklog userID now inserted
          match db'.playback? draw.playbackID with
          | none => (.error .notFound, db')
          | some playback => (.ok playback, db')
  | _, _ => (.error .notFound, db)

-- ====================================== skip

/-- The `SET` clause of Skip. -/
def Playback.skip (now : Time) (r : Playback) : Playback :=
  { r with
    status := .skipped
    finishedAt := some (jsDate now)
    preparationLeaseExpiresAt := none }

/-- Skip the playing playback, or the head of the backlog. -/
def skip (userID : UserID) (now : Time) (db : Db) :
    Outcome (Option PlaybackID) :=
  match db.configurations.get? userID with
  | none => (.ok none, db)
  | some _ =>
      match db.playbacks.first
          (fun r => r.userID = userID
            ∧ (r.status = .playing ∨ r.status.Waiting))
          (fun r => toLex (decide (r.status ≠ .playing),
            r.queueSequence)) with
      | none => (.ok none, db)
      | some candidate =>
          (.ok (some candidate.playbackID), { db with
            playbacks := db.playbacks.update
              (fun r => r.playbackID = candidate.playbackID)
              (Playback.skip now) (Table.keeps rfl) })

end StreamBrew.Alert
