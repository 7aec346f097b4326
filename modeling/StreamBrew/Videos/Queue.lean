/-
The calls of the web server on a video queue (postgres.ts), and the
creation of a user with the default queue and priorities.

A call gives what it writes and what it returns, or the error it
throws; it takes the row lock that its foreign key or its `FOR UPDATE`
asks of the user. `updateQueue` and the transaction of
`getOrCreateUserId` hold the user's row through all of their statements
and are one call each here; `setQueueCurrency` is a transaction of
several statements, whose next statement depends on its stage.

Where a call inserts rows, it is given the values that the sequences
draw for them.
-/
import StreamBrew.Videos.Store

namespace StreamBrew.Videos

open Relational
open Alert (UserID DonationID Time minute jsDate)

-- ===================================== locks

/-- The modes of a row lock, weakest first. -/
inductive LockMode
  | keyShare
  | share
  | noKeyUpdate
  | update
  deriving DecidableEq, Repr

/-- The conflict table of row locks. -/
def LockMode.compatible : LockMode → LockMode → Bool
  | .keyShare, .update | .update, .keyShare => false
  | .keyShare, _ | _, .keyShare => true
  | .share, .share => true
  | _, _ => false

/-- A lock on the row of a user. -/
structure UserLock where
  userID : UserID
  mode : LockMode
  deriving DecidableEq, Repr

/-- Locks of different users never meet. -/
def UserLock.compatible (held lock : UserLock) : Bool :=
  held.userID != lock.userID || held.mode.compatible lock.mode

/-- What a statement does: its writes and the locks that it takes. -/
abbrev Written := Sessions.Effect Db UserLock

/-- What a call writes and returns, or how it fails. -/
abbrev Outcome (α : Type) := Except StoreError (Written × α)

-- ===================================== users

/-- The ids drawn for a new user, the default queue and the four
priorities. A sequence gives no value twice. -/
structure UserDraw where
  userID : UserID
  videoQueueID : VideoQueueID
  videoPriorityIDs : Fin 4 → VideoPriorityID
  distinct : Function.Injective videoPriorityIDs

/-- The label of the first queue. -/
def mainLabel : Label := ⟨"Main", by decide⟩

/-- `priority 0` to `priority 3` and their thresholds. -/
def defaultPriorities (draw : UserDraw) : List VideoPriority :=
  [{ videoPriorityID := draw.videoPriorityIDs 0, userID := draw.userID
     label := ⟨"priority 0", by decide⟩
     minPricePerMinute := ⟨0, moneyLimit_pos⟩, isDefault := true
     check := by decide },
   { videoPriorityID := draw.videoPriorityIDs 1, userID := draw.userID
     label := ⟨"priority 1", by decide⟩
     minPricePerMinute := ⟨5000, by decide⟩, check := by decide },
   { videoPriorityID := draw.videoPriorityIDs 2, userID := draw.userID
     label := ⟨"priority 2", by decide⟩
     minPricePerMinute := ⟨10000, by decide⟩, check := by decide },
   { videoPriorityID := draw.videoPriorityIDs 3, userID := draw.userID
     label := ⟨"priority 3", by decide⟩
     minPricePerMinute := ⟨20000, by decide⟩, check := by decide }]

/-- The row conflicts with one that is there: the same label, or a
second default priority. -/
def VideoPriority.Conflicts (p q : VideoPriority) : Prop :=
  q.userID = p.userID
    ∧ (q.label = p.label ∨ q.isDefault = true ∧ p.isDefault = true)

instance (p : VideoPriority) : DecidablePred (VideoPriority.Conflicts p) :=
  fun _ => inferInstanceAs (Decidable (_ ∧ _))

/-- `INSERT INTO video_priority .. ON CONFLICT DO NOTHING`. -/
def Db.insertPriorities (db : Db) :
    List VideoPriority → Table VideoPriority.videoPriorityID →
      Table VideoPriority.videoPriorityID
  | [], written => written
  | p :: ps, written =>
      if (db.priorities.overlay written).Exists p.Conflicts then
        db.insertPriorities ps written
      else db.insertPriorities ps (written.overlay (.row _ p))

/-- `INSERT INTO video_queue .. ON CONFLICT (user_id) WHERE is_default DO
UPDATE SET user_id = EXCLUDED.user_id`. -/
def Db.insertMainQueue (draw : UserDraw) (db : Db) :
    Except StoreError (Table VideoQueue.videoQueueID) :=
  if db.queues.Exists fun q => q.userID = draw.userID
      ∧ q.isDefault = true then .ok .empty
  else if db.queues.Exists fun q => q.videoQueueID = draw.videoQueueID
      ∨ q.userID = draw.userID ∧ q.label = mainLabel then
    .error .duplicateKey
  else .ok (.row _
    { videoQueueID := draw.videoQueueID, userID := draw.userID
      label := mainLabel, isDefault := true })

/-- The transaction of `getOrCreateUserId` for a user that is there: its
inserts add what the user does not have. -/
def completeUser (user : User) (draw : UserDraw) (db : Db) :
    Outcome UserID :=
  let draw := { draw with userID := user.userID }
  if db.priorities.Exists (fun p =>
      ∃ i, p.videoPriorityID = draw.videoPriorityIDs i) then
    .error .duplicateKey
  else match db.insertMainQueue draw with
    | .error e => .error e
    | .ok queues => .ok
      ({ written :=
          { Db.empty with
            queues
            priorities :=
              db.insertPriorities (defaultPriorities draw) .empty }
         locks := [{ userID := user.userID, mode := .noKeyUpdate }] },
        user.userID)

/-- `missed` tells that `getUserId` found no user: another call may have
created it since. -/
def getOrCreateUserId (authUserID : String) (missed : Bool)
    (draw : UserDraw) (db : Db) : Outcome UserID :=
  match db.users.find? fun u => u.authUserID = authUserID with
  | some user =>
      if missed then completeUser user draw db
      else .ok ({ written := .empty }, user.userID)
  | none =>
      if db.users.Exists (fun u => u.userID = draw.userID)
          ∨ db.priorities.Exists (fun p =>
            ∃ i, p.videoPriorityID = draw.videoPriorityIDs i) then
        .error .duplicateKey
      else match db.insertMainQueue draw with
        | .error e => .error e
        | .ok queues => .ok
          ({ written :=
              { Db.empty with
                users := .row _ { userID := draw.userID, authUserID }
                queues
                priorities :=
                  db.insertPriorities (defaultPriorities draw) .empty } },
            draw.userID)

-- ==================================== queues

/-- createQueue: the label is the user's only one. -/
def createQueue (userID : UserID) (label : Label)
    (videoQueueID : VideoQueueID) (db : Db) : Outcome VideoQueue :=
  if db.queues.Exists fun q => q.userID = userID ∧ q.label = label then
    .error (.queue .videoQueueNameTaken)
  else if db.queues.Exists fun q => q.videoQueueID = videoQueueID then
    .error .duplicateKey
  else if db.users.Exists fun u => u.userID = userID then
    let queue : VideoQueue := { videoQueueID, userID, label }
    .ok ({ written := { Db.empty with queues := .row _ queue }
           locks := [{ userID, mode := .keyShare }] }, queue)
  else .error .missingRow

/-- `UPDATE video_queue SET is_default = false WHERE .. AND is_default`. -/
def Db.clearDefaultQueue (userID : UserID) (db : Db) :
    Table VideoQueue.videoQueueID :=
  (db.queues.select fun q => q.userID = userID ∧ q.isDefault = true).update
    (fun _ => True) (fun q => { q with isDefault := false })
    (Table.keeps rfl)

/-- updateQueue: another label, and perhaps another default. -/
def updateQueue (userID : UserID) (videoQueueID : VideoQueueID)
    (label : Label) (isDefault : Bool) (db : Db) : Outcome VideoQueue :=
  match db.queues.find? fun q => q.userID = userID
      ∧ q.videoQueueID = videoQueueID with
  | none => .error (.queue .videoQueueNotFound)
  | some queue =>
      if db.queues.Exists fun q => q.userID = userID ∧ q.label = label
          ∧ q.videoQueueID ≠ videoQueueID then
        .error (.queue .videoQueueNameTaken)
      else
        let updated : VideoQueue :=
          { queue with label, isDefault := isDefault || queue.isDefault }
        .ok ({ written :=
                { Db.empty with
                  queues := (if isDefault then db.clearDefaultQueue userID
                    else .empty).overlay (.row _ updated) }
               locks := [{ userID, mode := .update }] }, updated)

-- ==================================== videos

/-- The part of a request that the router checks: an amount, and an end
after the start where there is one. -/
structure VideoDetails where
  amount : Money
  startSeconds : NonnegativeInt
  endSeconds : Option PositiveInt
  validVideoTiming : ∀ e ∈ endSeconds, startSeconds.1 < e.1

/-- The trigger behind an insert: a video of unknown duration gets a
metadata job, unless it has one. -/
def enqueueVideoMetadataJob (v : Video) (now : Time) (db : Db) :
    Table MetadataJob.videoID :=
  if v.durationSeconds.isNone
      ∧ ¬ db.jobs.Exists (fun j => j.videoID = v.videoID) then
    .row _ { videoID := v.videoID, availableAt := jsDate now
             check := unleased }
  else .empty

/-- A new row of the video table, through its triggers; refused when its
id is taken. -/
def Db.insertVideo (new : VideoValues) (now : Time) (db : Db) :
    Except StoreError Db :=
  match db.storeVideo false none new with
  | .error e => .error e
  | .ok v =>
      if db.videos.Exists fun w => w.videoID = v.videoID then
        .error .duplicateKey
      else .ok { Db.empty with
        videos := .row _ v, jobs := enqueueVideoMetadataJob v now db }

/-- `providerVideoID` is what `youtubeVideoId` reads from the URL. -/
def addManualVideo (userID : UserID) (url : String)
    (providerVideoID : Option String) (details : VideoDetails)
    (videoQueueID : Option VideoQueueID) (now : Time) (videoID : VideoID)
    (db : Db) : Outcome VideoID :=
  match providerVideoID with
  | none => .error (.queue .invalidYoutubeURL)
  | some providerVideoID =>
      match db.queues.find? fun q => q.userID = userID
          ∧ (videoQueueID.isNone ∧ q.isDefault = true
            ∨ videoQueueID = some q.videoQueueID) with
      | none => .error (.queue .videoQueueNotFound)
      | some queue =>
          match db.insertVideo
              { videoID, userID := some userID, addedAt := some (jsDate now)
                providerVideoID, url, queueAmount := some details.amount
                startSeconds := details.startSeconds
                endSeconds := details.endSeconds
                videoQueueID := some queue.videoQueueID } now with
          | .error e => .error e
          | .ok written =>
              if db.users.Exists fun u => u.userID = userID then
                .ok ({ written, locks := [{ userID, mode := .keyShare }] },
                  videoID)
              else .error .missingRow

/-- The written rows, where there are any. -/
def updatedVideos (rows : Table fun v : Video => v.videoID) :
    Outcome Unit :=
  if rows.rows.isEmpty then .error (.queue .videoNotFound)
  else .ok ({ written := { Db.empty with videos := rows } }, ())

/-- moveVideo: to another queue of the same user. -/
def moveVideo (userID : UserID) (videoID : VideoID)
    (videoQueueID : VideoQueueID) (db : Db) : Outcome Unit :=
  match db.updateVideos false
      (fun v => v.videoID = videoID ∧ OwnsVideo userID db v
        ∧ db.queues.Exists fun q => q.videoQueueID = videoQueueID
          ∧ q.userID = userID)
      (fun v => .ok { v with videoQueueID := some videoQueueID })
      (fun _ _ h => by cases h; rfl) with
  | .error e => .error e
  | .ok rows => updatedVideos rows

/-- `translateConstraintViolation`. -/
def translateConstraintViolation : StoreError → StoreError
  | .check .videoCheck1 => .queue .invalidVideoTiming
  | .check .videoPriorityCheck => .queue .invalidVideoPriorityThreshold
  | e => e

/-- updateVideo: the details that the owner may change. -/
def updateVideo (userID : UserID) (videoID : VideoID)
    (details : VideoDetails) (db : Db) : Outcome Unit :=
  match db.updateVideos false
      (fun v => v.videoID = videoID ∧ OwnsVideo userID db v)
      (fun v => .ok { v with
        queueAmount := some details.amount
        startSeconds := details.startSeconds
        endSeconds := details.endSeconds.or v.durationSeconds })
      (fun _ _ h => by cases h; rfl) with
  | .error e => .error (translateConstraintViolation e)
  | .ok rows => updatedVideos rows

/-- `UPDATE video SET f WHERE p`, where `f` names no column of the
trigger. -/
def Db.annotateVideos (p : Video → Prop) [DecidablePred p]
    (f : VideoValues → VideoValues)
    (hf : ∀ v, (f v).videoID = v.videoID) (db : Db) :
    Except StoreError (Table fun v : Video => v.videoID) :=
  db.videos.modify? p (fun v => (f v.toVideoValues).check)
    (fun v v' h => by rw [check_ok h, hf])

/-- A field that is absent is left as it is. -/
def updateStatus (userID : UserID) (videoID : VideoID)
    (watchedAt bookmarkedAt : Option (Option Time)) (db : Db) :
    Outcome Unit :=
  match db.annotateVideos
      (fun v => v.videoID = videoID ∧ OwnsVideo userID db v)
      (fun v => { v with
        watchedAt := (watchedAt.map (·.map jsDate)).getD v.watchedAt
        bookmarkedAt :=
          (bookmarkedAt.map (·.map jsDate)).getD v.bookmarkedAt })
      (fun _ => rfl) with
  | .error e => .error e
  | .ok rows => updatedVideos rows

/-- The conditions of a retry on the job. -/
def MetadataJob.Retriable (now : Time) (j : MetadataJob) : Prop :=
  (∀ lease ∈ j.leaseExpiresAt, lease ≤ now)
    ∧ ∀ attempt ∈ j.lastAttemptAt, attempt ≤ now - minute

instance (now : Time) : DecidablePred (MetadataJob.Retriable now) :=
  fun j => match h : j.leaseExpiresAt, h' : j.lastAttemptAt with
    | none, none => isTrue (by simp [MetadataJob.Retriable, h, h'])
    | some l, none => decidable_of_iff (l ≤ now)
        (by simp [MetadataJob.Retriable, h, h'])
    | none, some a => decidable_of_iff (a ≤ now - minute)
        (by simp [MetadataJob.Retriable, h, h'])
    | some l, some a => decidable_of_iff (l ≤ now ∧ a ≤ now - minute)
        (by simp [MetadataJob.Retriable, h, h'])

/-- The statement reads the video before it waits for the job row, so it
may go by a row of before the duration was known (`unseen`). -/
def retryMetadata (userID : UserID) (videoID : VideoID) (unseen : Bool)
    (now : Time) (db : Db) : Outcome Bool :=
  let jobs := (db.jobs.select fun j => j.videoID = videoID
    ∧ db.videos.Exists (fun v => v.videoID = videoID
      ∧ OwnsVideo userID db v
      ∧ (v.durationSeconds.isNone ∨ unseen = true))
    ∧ j.Retriable now).update (fun _ => True)
      (fun j => { j with
        completedAt := none, availableAt := jsDate now
        check := Or.inl rfl })
      (Table.keeps rfl)
  .ok ({ written := { Db.empty with jobs } }, !jobs.rows.isEmpty)

-- ================================ priorities

/-- A priority with another threshold, where its check accepts it. -/
def VideoPriority.withThreshold (p : VideoPriority) (amount : Money) :
    Except StoreError VideoPriority :=
  if check : p.isDefault = true ↔ amount.1 = 0 then
    .ok { p with minPricePerMinute := amount, check }
  else .error (.check .videoPriorityCheck)

theorem VideoPriority.withThreshold_ok {p q : VideoPriority} {amount : Money}
    (h : p.withThreshold amount = .ok q) :
    q.videoPriorityID = p.videoPriorityID ∧ q.userID = p.userID
      ∧ q.label = p.label ∧ q.isDefault = p.isDefault
      ∧ q.minPricePerMinute = amount := by
  unfold VideoPriority.withThreshold at h
  split at h
  case isTrue =>
    cases h
    exact ⟨rfl, rfl, rfl, rfl, rfl⟩
  case isFalse => cases h

/-- updatePriority: another label and threshold. -/
def updatePriority (userID : UserID) (videoPriorityID : VideoPriorityID)
    (label : Label) (minPricePerMinute : Money) (db : Db) :
    Outcome VideoPriority :=
  match db.priorities.find? fun p => p.userID = userID
      ∧ p.videoPriorityID = videoPriorityID with
  | none => .error (.queue .videoPriorityNotFound)
  | some p =>
      match p.withThreshold (if p.isDefault = true then Money.zero
          else minPricePerMinute) with
      | .error e => .error (translateConstraintViolation e)
      | .ok q =>
          if db.priorities.Exists fun r => r.userID = userID
              ∧ r.label = label ∧ r.videoPriorityID ≠ videoPriorityID then
            .error (.queue .videoPriorityLabelTaken)
          else
            let updated : VideoPriority := { q with label }
            .ok ({ written :=
                { Db.empty with priorities := .row _ updated } }, updated)

-- ================================== currency

/-- How far a currency change is; `previous` is the currency it read
under its lock. -/
inductive CurrencyStage
  | lock
  | thresholds (previous : QueueCurrency)
  | retain (previous : QueueCurrency)
  | amounts (previous : QueueCurrency)
  | currency (previous : QueueCurrency)
  | commit
  deriving DecidableEq, Repr

/-- The arguments of setQueueCurrency. -/
structure CurrencyChange where
  userID : UserID
  queueCurrency : QueueCurrency
  rate : Money
  deriving DecidableEq, Repr

/-- What amounts are multiplied with. -/
def CurrencyChange.factor (change : CurrencyChange)
    (previous : QueueCurrency) : Factor :=
  conversionFactorForCurrencyChange previous change.queueCurrency
    change.rate

/-- An amount in the other currency, as its column takes it. -/
def convertAmount (factor : Factor) (amount : Money) :
    Except StoreError Money :=
  match converted amount factor with
  | none => .error .divisionByZero
  | some x =>
      match Money.ofNumeric? x with
      | none => .error .outOfRange
      | some amount => .ok amount

/-- A threshold in the other currency; a positive one stays positive. -/
def convertThreshold (factor : Factor) (p : VideoPriority) :
    Except StoreError VideoPriority :=
  if p.isDefault = true then p.withThreshold .zero
  else match converted p.minPricePerMinute factor with
    | none => .error .divisionByZero
    | some x =>
        match Money.ofNumeric? (if x ≤ Money.cent.numeric then
            Money.cent.numeric else x) with
        | none => .error .outOfRange
        | some amount => p.withThreshold amount

theorem convertThreshold_videoPriorityID {factor : Factor}
    {p q : VideoPriority} (h : convertThreshold factor p = .ok q) :
    q.videoPriorityID = p.videoPriorityID := by
  unfold convertThreshold at h
  repeat' split at h
  all_goals first
    | exact (VideoPriority.withThreshold_ok h).1
    | cases h

/-- `SELECT queue_currency FROM "user" .. FOR UPDATE`. -/
def CurrencyChange.lock (change : CurrencyChange) (db : Db) :
    Except StoreError (Written × CurrencyStage) :=
  match db.users.get? change.userID with
  | none => .error .missingRow
  | some user => .ok
      ({ written := .empty
         locks := [{ userID := change.userID, mode := .update }] },
        if user.queueCurrency = change.queueCurrency then .commit
        else .thresholds user.queueCurrency)

/-- The statement that converts thresholds. -/
def CurrencyChange.thresholds (change : CurrencyChange)
    (previous : QueueCurrency) (db : Db) :
    Except StoreError (Written × CurrencyStage) :=
  match db.priorities.modify? (fun p => p.userID = change.userID)
      (convertThreshold (change.factor previous))
      (fun _ _ => convertThreshold_videoPriorityID) with
  | .error e => .error e
  | .ok priorities => .ok
      ({ written := { Db.empty with priorities } }, .retain previous)

/-- The statement that converts the amounts of videos. -/
def CurrencyChange.amounts (change : CurrencyChange)
    (previous : QueueCurrency) (db : Db) :
    Except StoreError (Written × CurrencyStage) :=
  match db.updateVideos true
      (fun v => v.queueAmount.isSome ∧ OwnsVideo change.userID db v)
      (fun v => match v.queueAmount with
        | none => .ok v
        | some amount =>
            (convertAmount (change.factor previous) amount).map fun amount =>
              { v with queueAmount := some amount })
      (fun v values h => by
        split at h
        case h_1 => cases h; rfl
        case h_2 amount hamount =>
          cases hc : convertAmount (change.factor previous) amount with
          | error e => rw [hc] at h; cases h
          | ok a => rw [hc] at h; cases h; rfl) with
  | .error e => .error e
  | .ok videos => .ok
      ({ written := { Db.empty with videos } }, .currency previous)

/-- The statement that sets the currency. -/
def CurrencyChange.currency (change : CurrencyChange) (db : Db) :
    Except StoreError (Written × CurrencyStage) :=
  .ok ({ written :=
      { Db.empty with
        users := (db.users.select fun u => u.userID = change.userID).update
          (fun _ => True)
          (fun u => { u with queueCurrency := change.queueCurrency })
          (Table.keeps rfl) }
         locks := [{ userID := change.userID, mode := .noKeyUpdate }] },
    .commit)

/-- The next statement of a currency change; none at its commit. -/
def CurrencyChange.statement (change : CurrencyChange) :
    CurrencyStage → Option (Db → Except StoreError (Written × CurrencyStage))
  | .lock => some change.lock
  | .thresholds previous => some (change.thresholds previous)
  | .retain previous => some fun _ =>
      .ok ({ written := .empty }, .amounts previous)
  | .amounts previous => some (change.amounts previous)
  | .currency _ => some change.currency
  | .commit => none

end StreamBrew.Videos
