/-
The worker: scanning donation messages (store.go) and looking up the
duration of a video (metadata.go).

# Leases

A claim advances the generation of a row and leases it; what the worker
does with the claimed job is guarded by that generation and by the
lease. `FOR UPDATE SKIP LOCKED` passes over rows that others hold
(`locked`).

`complete` and `completeMetadata` are transactions of several
statements. The network sits between claim and completion, and is what
`Lookup` and the list of videos stand for.
-/
import StreamBrew.Videos.Queue

namespace StreamBrew.Videos

open Relational
open Alert (UserID DonationID Time minute jsDate nullifEmpty)

/-- One more attempt; the column is an integer. -/
def nextAttempts (attempts : NonnegativeInt) :
    Except StoreError NonnegativeInt :=
  if h : attempts.1 + 1 ≤ integerMax then .ok ⟨attempts.1 + 1, h⟩
  else .error .outOfRange

-- ================================= donations

/-- The trigger behind an insert of a donation that is not parsed. -/
def enqueueDonationVideoScan (d : Donation) (now : Time) (db : Db) :
    Table VideoScan.donationID :=
  if d.videosParsedAt.isNone
      ∧ ¬ db.scans.Exists (fun s => s.donationID = d.donationID) then
    .row _ { donationID := d.donationID, availableAt := jsDate now
             check := unleased }
  else .empty

/-- An insert into the donation table, by whichever transaction of
donation ingestion. -/
def insertDonation (donation : Alert.Donation) (now : Time) (db : Db) :
    Outcome Unit :=
  let row : Donation := { toDonation := donation }
  if db.donations.Exists fun d => d.donationID = donation.donationID
      ∨ d.userID = donation.userID ∧ d.source = donation.source
        ∧ d.sourceDonationID = donation.sourceDonationID then
    .error .duplicateKey
  else if donationAmountLimit ≤ donation.amount then .error .outOfRange
  else if ¬ (Storable (donation.message.getD "")
      ∧ Storable donation.currency) then .error .encoding
  else if db.users.Exists fun u => u.userID = donation.userID then
    .ok ({ written :=
            { Db.empty with
              donations := .row _ row
              scans := enqueueDonationVideoScan row now db }
           locks := [{ userID := donation.userID, mode := .keyShare }] },
      ())
  else .error .missingRow

/-- Enqueue donations of before the trigger. -/
def backfill (now : Time) (db : Db) : Outcome Unit :=
  let scans := db.donations.rows.foldl
    (fun written d => written.overlay (enqueueDonationVideoScan d now db))
    Table.empty
  .ok ({ written := { Db.empty with scans } }, ())

-- ===================================== scans

/-- A claimed scan, with what the scan needs of its donation. -/
structure Job where
  donationID : DonationID
  generation : Nat
  attempts : NonnegativeInt
  message : Option String
  amount : Nat
  currency : String
  deriving DecidableEq, Repr

/-- A supported link found in a donation message. The scan starts every
segment at zero, so an end is after its start. -/
structure ScannedVideo where
  title : String := ""
  providerVideoID : String
  url : String
  startSeconds : NonnegativeInt := ⟨0, integerMax_nonneg⟩
  endSeconds : Option PositiveInt
  durationSeconds : Option PositiveInt := none
  timed : ∀ e ∈ endSeconds, startSeconds.1 < e.1
  deriving DecidableEq, Repr

/-- `lease_expires_at IS NULL OR lease_expires_at <= now`. -/
def LeaseFree (now : Time) (lease : Option Time) : Prop :=
  ∀ t ∈ lease, t ≤ now

instance (now : Time) : DecidablePred (LeaseFree now)
  | none => isTrue (by simp [LeaseFree])
  | some t => decidable_of_iff (t ≤ now) (by simp [LeaseFree])

/-- `lease_expires_at > now`. -/
def LeaseHeld (now : Time) (lease : Option Time) : Prop :=
  ∃ t ∈ lease, now < t

instance (now : Time) : DecidablePred (LeaseHeld now)
  | none => isFalse (by simp [LeaseHeld])
  | some t => decidable_of_iff (now < t) (by simp [LeaseHeld])

/-- The scan is due, and nobody works on it. -/
def VideoScan.Claimable (locked : List DonationID) (now : Time)
    (s : VideoScan) : Prop :=
  s.completedAt.isNone ∧ s.availableAt ≤ now
    ∧ LeaseFree now s.leaseExpiresAt ∧ s.donationID ∉ locked

instance (locked : List DonationID) (now : Time) :
    DecidablePred (VideoScan.Claimable locked now) :=
  fun _ => inferInstanceAs (Decidable (_ ∧ _ ∧ _ ∧ _))

/-- The scan is in the hands of the worker that claimed the job. -/
def VideoScan.HeldBy (job : Job) (now : Time) (s : VideoScan) : Prop :=
  s.donationID = job.donationID ∧ s.generation = job.generation
    ∧ s.completedAt.isNone ∧ LeaseHeld now s.leaseExpiresAt

instance (job : Job) (now : Time) :
    DecidablePred (VideoScan.HeldBy job now) :=
  fun _ => inferInstanceAs (Decidable (_ ∧ _ ∧ _ ∧ _))

/-- The row of a claimed scan. -/
def VideoScan.claim (leaseUntil : Time) (s : VideoScan)
    (attempts : NonnegativeInt) : VideoScan :=
  { s with
    generation := s.generation + 1
    attempts
    leaseExpiresAt := some (jsDate leaseUntil)
    completedAt := none
    check := Or.inl rfl }

/-- Store.Claim: the scan that has been due longest. -/
def claim (locked : List DonationID) (now leaseDuration : Time) (db : Db) :
    Outcome (Option Job) :=
  match db.scans.first (VideoScan.Claimable locked now)
      (fun s => toLex (s.availableAt, s.donationID)) with
  | none => .ok ({ written := .empty }, none)
  | some s =>
      match nextAttempts s.attempts with
      | .error e => .error e
      | .ok attempts =>
          .ok ({ written :=
              { Db.empty with
                scans := .row _ (s.claim (now + leaseDuration) attempts) } },
            (db.donations.get? s.donationID).map fun d =>
              { donationID := s.donationID, generation := s.generation + 1
                attempts, message := d.message, amount := d.amount
                currency := d.currency })

/-- The category stored when a scan fails. -/
def scanFailedError : String := "scan_failed"

/-- The scan is due again later. -/
def VideoScan.retry (availableAt : Time) (s : VideoScan) : VideoScan :=
  { s with
    availableAt := jsDate availableAt, leaseExpiresAt := none
    lastError := some scanFailedError, check := Or.inr rfl }

/-- Store.Retry: only by the worker that has the lease. -/
def retry (job : Job) (availableAt now : Time) (db : Db) : Outcome Unit :=
  match db.scans.find? (VideoScan.HeldBy job now) with
  | none => .error .leaseLost
  | some s => .ok
      ({ written :=
          { Db.empty with scans := .row _ (s.retry availableAt) } }, ())

/-- How far a completion is; `insert` has the amount that was converted
under the share lock and the videos that are left. -/
inductive CompleteStage
  | guard
  | convert
  | insert (queueAmount : Option Money) (videos : List ScannedVideo)
  | parsed
  | commit
  deriving DecidableEq, Repr

/-- The arguments of Complete. -/
structure Completion where
  job : Job
  videos : List ScannedVideo
  now : Time
  deriving DecidableEq, Repr

/-- The scan is done. -/
def VideoScan.complete (now : Time) (s : VideoScan) : VideoScan :=
  { s with
    completedAt := some (jsDate now), leaseExpiresAt := none
    lastError := none, check := Or.inr rfl }

/-- The first statement: the scan, where the lease is still held. -/
def Completion.guard (completion : Completion) (db : Db) :
    Except StoreError (Written × CompleteStage) :=
  match db.scans.find? (VideoScan.HeldBy completion.job completion.now) with
  | none => .error .leaseLost
  | some s => .ok
      ({ written :=
          { Db.empty with scans := .row _ (s.complete completion.now) } },
        if completion.videos.isEmpty then .parsed else .convert)

/-- `convertedQueueAmount`: the owner's currency is read under a share
lock on the user. -/
def Completion.convert (completion : Completion) (db : Db) :
    Except StoreError (Written × CompleteStage) :=
  match (db.donations.get? completion.job.donationID).bind fun d =>
      db.users.get? d.userID with
  | none => .error .missingRow
  | some user =>
      match convertWithDefaultRate completion.job.amount
          completion.job.currency user.queueCurrency with
      | .error e => .error e
      | .ok queueAmount => .ok
          ({ written := .empty
             locks := [{ userID := user.userID, mode := .share }] },
            .insert queueAmount completion.videos)

/-- The row of a scanned video. -/
def ScannedVideo.values (video : ScannedVideo) (donationID : DonationID)
    (queueAmount : Option Money) (videoID : VideoID) : VideoValues where
  videoID := videoID
  donationID := some donationID
  providerVideoID := video.providerVideoID
  url := video.url
  queueAmount := queueAmount
  startSeconds := video.startSeconds
  endSeconds := video.endSeconds
  durationSeconds := video.durationSeconds
  title := nullifEmpty video.title

/-- `INSERT INTO video .. ON CONFLICT (donation_id, provider,
provider_video_id) DO NOTHING`: the triggers and checks come before the
conflict. -/
def Db.insertScanned (donationID : DonationID) (queueAmount : Option Money)
    (video : ScannedVideo) (now : Time) (videoID : VideoID) (db : Db) :
    Except StoreError Db :=
  match db.insertVideo (video.values donationID queueAmount videoID) now with
  | .error e => .error e
  | .ok written =>
      if db.videos.Exists fun v => v.donationID = some donationID
          ∧ v.providerVideoID = video.providerVideoID then .ok .empty
      else .ok written

/-- One statement for each video that was found. -/
def Completion.insert (completion : Completion)
    (queueAmount : Option Money) (video : ScannedVideo)
    (videos : List ScannedVideo) (videoID : VideoID) (db : Db) :
    Except StoreError (Written × CompleteStage) :=
  match db.insertScanned completion.job.donationID queueAmount video
      completion.now videoID with
  | .error e => .error e
  | .ok written => .ok ({ written }, .insert queueAmount videos)

/-- The last statement: the donation has been parsed. -/
def Completion.parsed (completion : Completion) (db : Db) :
    Except StoreError (Written × CompleteStage) :=
  .ok ({ written :=
      { Db.empty with
        donations := (db.donations.select fun d =>
          d.donationID = completion.job.donationID
            ∧ d.videosParsedAt.isNone).update (fun _ => True)
          (fun d => { d with videosParsedAt := some (jsDate completion.now) })
          (fun _ => rfl) } }, .commit)

/-- The next statement of a completion; none at its commit. -/
def Completion.statement (completion : Completion) :
    CompleteStage →
      Option (Db → VideoID → Except StoreError (Written × CompleteStage))
  | .guard => some fun db _ => completion.guard db
  | .convert => some fun db _ => completion.convert db
  | .insert queueAmount (video :: videos) => some fun db videoID =>
      completion.insert queueAmount video videos videoID db
  | .insert _ [] => some fun db _ => completion.parsed db
  | .parsed => some fun db _ => completion.parsed db
  | .commit => none

-- ================================== metadata

/-- A claimed lookup. -/
structure ClaimedJob where
  videoID : VideoID
  generation : Nat
  attempts : NonnegativeInt
  providerVideoID : String
  deriving DecidableEq, Repr

/-- How a lookup fails. -/
inductive LookupError
  | invalidVideoID
  | http (status : Int) (reason : String)
  | transport
  | other
  deriving DecidableEq, Repr

/-- What the lookup gave; a failed one may have a title. -/
structure Lookup where
  durationSeconds : Except LookupError Int
  title : String

namespace LookupError

/-- The code that is stored with the job. -/
def code : LookupError → String
  | .invalidVideoID => "invalid_video_id"
  | .http _ reason => if reason = "" then "http_failure" else reason
  | .transport => "transport_failure"
  | .other => "duration_unavailable"

/-- The HTTP status that is stored with the job. -/
def status : LookupError → Option Int
  | .http status _ => some status
  | _ => none

/-- Automatic retries stop. -/
def terminal (e : LookupError) : Bool := e = .invalidVideoID

end LookupError

/-- The statement that RunMetadata begins with. -/
def enqueueMetadata (now : Time) (db : Db) : Outcome Unit :=
  let jobs := db.videos.rows.foldl
    (fun written v => written.overlay (enqueueVideoMetadataJob v now db))
    Table.empty
  .ok ({ written := { Db.empty with jobs } }, ())

/-- The job is due, and nobody works on it. -/
def MetadataJob.Claimable (locked : List VideoID) (now : Time)
    (j : MetadataJob) : Prop :=
  j.completedAt.isNone ∧ j.availableAt ≤ now
    ∧ LeaseFree now j.leaseExpiresAt ∧ j.videoID ∉ locked

instance (locked : List VideoID) (now : Time) :
    DecidablePred (MetadataJob.Claimable locked now) :=
  fun _ => inferInstanceAs (Decidable (_ ∧ _ ∧ _ ∧ _))

/-- The row of a claimed job: leased for two minutes. -/
def MetadataJob.claim (now : Time) (j : MetadataJob)
    (attempts : NonnegativeInt) : MetadataJob :=
  { j with
    generation := j.generation + 1
    attempts
    lastAttemptAt := some (jsDate now)
    leaseExpiresAt := some (jsDate (now + 2 * minute))
    completedAt := none
    check := Or.inl rfl }

/-- The job that has been due longest is claimed. -/
def claimMetadata (locked : List VideoID) (now : Time) (db : Db) :
    Outcome (Option ClaimedJob) :=
  match db.jobs.first (MetadataJob.Claimable locked now)
      (fun j => toLex (j.availableAt, j.videoID)) with
  | none => .ok ({ written := .empty }, none)
  | some j =>
      match nextAttempts j.attempts with
      | .error e => .error e
      | .ok attempts =>
          .ok ({ written :=
              { Db.empty with jobs := .row _ (j.claim now attempts) } },
            (db.videos.get? j.videoID).map fun v =>
              { videoID := j.videoID, generation := j.generation + 1
                attempts, providerVideoID := v.providerVideoID })

/-- How far the transaction behind a lookup is. -/
inductive MetadataStage
  | job
  | video
  | commit
  deriving DecidableEq, Repr

/-- What the transaction behind a lookup is given. -/
structure MetadataCompletion where
  job : ClaimedJob
  lookup : Lookup
  nextAttempt : Time
  now : Time

/-- The job is in the hands of the worker that claimed it. -/
def MetadataJob.HeldBy (job : ClaimedJob) (now : Time) (j : MetadataJob) :
    Prop :=
  j.videoID = job.videoID ∧ j.generation = job.generation
    ∧ j.completedAt.isNone ∧ LeaseHeld now j.leaseExpiresAt

instance (job : ClaimedJob) (now : Time) :
    DecidablePred (MetadataJob.HeldBy job now) :=
  fun _ => inferInstanceAs (Decidable (_ ∧ _ ∧ _ ∧ _))

namespace MetadataCompletion

variable (completion : MetadataCompletion)

/-- `lookupErr == nil || terminal`. -/
def finishes : Bool :=
  match completion.lookup.durationSeconds with
  | .ok _ => true
  | .error e => e.terminal

/-- An empty code is stored as none. -/
def lastErrorCode : Option String :=
  match completion.lookup.durationSeconds with
  | .ok _ => none
  | .error e => nullifEmpty e.code

/-- Only answers of the provider have a status. -/
def lastHTTPStatus : Option Int :=
  match completion.lookup.durationSeconds with
  | .ok _ => none
  | .error e => e.status

/-- The row of a job after its lookup. -/
def finished (j : MetadataJob) : Except StoreError MetadataJob :=
  if 64 < (completion.lastErrorCode.getD "").length then
    .error (.check .metadataJobLastErrorCodeCheck)
  else if completion.lastHTTPStatus.any fun s => s < 100 ∨ 599 < s then
    .error (.check .metadataJobLastHTTPStatusCheck)
  else .ok
    { j with
      leaseExpiresAt := none
      completedAt := if completion.finishes = true then
        some (jsDate completion.now) else none
      availableAt := jsDate completion.nextAttempt
      lastErrorCode := completion.lastErrorCode
      lastHTTPStatus := completion.lastHTTPStatus
      check := Or.inr rfl }

/-- A job that is no longer held is left alone, without an error. -/
def updateJob (db : Db) : Except StoreError (Written × MetadataStage) :=
  match db.jobs.find? (MetadataJob.HeldBy completion.job completion.now) with
  | none => .ok ({ written := .empty }, .commit)
  | some j =>
      match completion.finished j with
      | .error e => .error e
      | .ok j' => .ok
          ({ written := { Db.empty with jobs := .row _ j' } }, .video)

/-- `coalesce(title, nullif(.., ''))`. -/
def title (v : VideoValues) : Option String :=
  v.title.or (nullifEmpty completion.lookup.title)

/-- The assignments of a successful lookup: the duration, and an end
within it where the segment starts before it. -/
def timed (duration : PositiveInt) (v : VideoValues) : VideoValues :=
  { v with
    durationSeconds := some duration
    endSeconds := if v.startSeconds.1 < duration.1 then
        some (min (v.endSeconds.getD duration) duration)
      else v.endSeconds
    title := completion.title v }

/-- The first statement: title and, where it is known, duration. -/
def updateVideo (db : Db) : Except StoreError (Written × MetadataStage) :=
  let rows := match completion.lookup.durationSeconds with
    | .error _ => db.annotateVideos
        (fun v => v.videoID = completion.job.videoID)
        (fun v => { v with title := completion.title v }) (fun _ => rfl)
    | .ok durationSeconds =>
        match PositiveInt.ofInt? durationSeconds with
        | none => .error .outOfRange
        | some duration => db.updateVideos false
            (fun v => v.videoID = completion.job.videoID)
            (fun v => .ok (completion.timed duration v))
            (fun _ _ h => by cases h; rfl)
  match rows with
  | .error e => .error e
  | .ok videos => .ok ({ written := { Db.empty with videos } }, .commit)

/-- The next statement behind a lookup; none at its commit. -/
def statement : MetadataStage →
    Option (Db → Except StoreError (Written × MetadataStage))
  | .job => some completion.updateJob
  | .video => some completion.updateVideo
  | .commit => none

end MetadataCompletion

/-- The update of BackfillTitles. -/
def backfillTitle (providerVideoID title : String) (db : Db) :
    Outcome Unit :=
  match db.annotateVideos
      (fun v => v.providerVideoID = providerVideoID ∧ v.title.isNone)
      (fun v => { v with title := some title }) (fun _ => rfl) with
  | .error e => .error e
  | .ok videos => .ok ({ written := { Db.empty with videos } }, ())

end StreamBrew.Videos
