/-
The public page of a queue: listSharedPage.

# Whose page

A page is asked for by the slug of its owner. The owner may have closed
it, may hide what videos were paid for, and may hide the videos that
were watched. The columns of a user that say so are those that the
tables of Domain.lean leave out.

# Reading

A page is put together from three statements over one state of the
database: a summary with the number of videos, the rows of one page, and
the totals of each priority. What the schemas make of the rows that come
back is a parameter (`Schemas`); a row that they refuse fails the whole
request.
-/
import StreamBrew.Lib.Query
import StreamBrew.Videos.Store
import Mathlib.Data.PNat.Defs

namespace StreamBrew.Videos

open Relational
open Alert (UserID Time)

-- =================================== records

/-- A row of the user table. -/
structure PublicUser extends User where
  slug : String
  publicQueueEnabled : Bool := true
  publicQueueShowAmounts : Bool := true
  publicQueueShowWatched : Bool := true
  deriving DecidableEq, Repr

/-- The primary key. -/
def PublicUser.key (u : PublicUser) : UserID := u.userID

/-- The tables, with all columns of the users. -/
structure PublicDb where
  db : Db
  users : Table PublicUser.key

/-- Which videos a shared page lists. -/
inductive SharedVideoStatus
  | queue
  | watched
  deriving DecidableEq, Repr

/-- What a shared page is asked for with. -/
structure SharedPageInput where
  page : ℕ+
  pageSize : ℕ+
  status : SharedVideoStatus
  videoQueueID : Option VideoQueueID := none
  deriving DecidableEq

/-- A row of the page. -/
structure SharedRow where
  videoID : VideoID
  title : Option String
  videoPriorityID : Option VideoPriorityID
  url : String
  startSeconds : NonnegativeInt
  endSeconds : Option PositiveInt
  durationSeconds : Option PositiveInt
  metadataUnavailable : Bool
  watchedAt : Option Time
  priorityLabel : Option Label
  displayAmount : Option Numeric
  displayCurrency : Option String
  createdAt : Option Time
  deriving DecidableEq, Repr

/-- The totals of a priority. -/
structure PriorityRow where
  videoPriorityID : VideoPriorityID
  label : Label
  videoCount : Nat
  remainingSeconds : Int
  deriving DecidableEq, Repr

/-- SharedVideoSchema, the schema of the totals and VideoQueueSchema:
what each makes of a row, if it accepts it. -/
structure Schemas (σ π κ : Type) where
  video : SharedRow → Option σ
  priority : PriorityRow → Option π
  queue : VideoQueue → Option κ

/-- A shared page; its items, priorities and queues are parameters. -/
structure SharedPage (σ π κ : Type) where
  items : List σ
  videoQueueID : VideoQueueID
  queues : List κ
  page : Nat
  pageSize : Nat
  priorities : List π
  showWatchedVideos : Bool
  status : SharedVideoStatus
  total : Nat
  totalPages : Nat
  deriving DecidableEq

-- ================================ pagination

/-- The part of a list that a page shows. -/
structure PaginationWindow where
  offset : Nat
  page : Nat
  totalPages : Nat
  deriving DecidableEq, Repr

/-- getPaginationWindow: a page behind the last one is the last one. -/
def getPaginationWindow (total : Nat) (requestedPage pageSize : ℕ+) :
    PaginationWindow :=
  let totalPages := (total + pageSize - 1) / pageSize
  let page := min (requestedPage : Nat) (max totalPages 1)
  { offset := (page - 1) * pageSize, page, totalPages }

-- =================================== columns

section Columns

variable (d : Db) (u : PublicUser) (v : VideoValues)

/-- `LEFT JOIN donation USING (donation_id)`. -/
def donationOf : Option Donation :=
  v.donationID.bind fun donationID => d.donations.get? donationID

/-- `LEFT JOIN video_priority USING (video_priority_id)`. -/
def priorityOf : Option VideoPriority :=
  v.videoPriorityID.bind fun videoPriorityID =>
    d.priorities.get? videoPriorityID

/-- `coalesce(donation.occurred_at, video.added_at)`. -/
def createdAt : Option Time :=
  ((donationOf d v).map fun donation => donation.occurredAt).or v.addedAt

/-- The `EXISTS` over the metadata jobs. -/
def metadataUnavailable : Bool :=
  (d.jobs.get? v.videoID).any fun job =>
    job.completedAt.isSome && job.lastErrorCode.isSome

/-- What was paid, where the owner shows it. -/
def displayAmount : Option Numeric :=
  if u.publicQueueShowAmounts then
    some (((v.queueAmount.map Money.numeric).or
      ((donationOf d v).map fun donation => ⟨donation.amount, 18⟩)).getD
        Money.zero.numeric)
  else none

/-- The currency of the amount that is shown. -/
def displayCurrency : Option String :=
  if !u.publicQueueShowAmounts then none
  else if v.queueAmount.isNone ∧ (donationOf d v).isSome then
    (donationOf d v).map fun donation => donation.currency
  else some u.queueCurrency.code

/-- A video as a shared page shows it. -/
def sharedRow : SharedRow where
  videoID := v.videoID
  title := v.title
  videoPriorityID := v.videoPriorityID
  url := v.url
  startSeconds := v.startSeconds
  endSeconds := v.endSeconds
  durationSeconds := v.durationSeconds
  metadataUnavailable := metadataUnavailable d v
  watchedAt := v.watchedAt
  priorityLabel := (priorityOf d v).map VideoPriority.label
  displayAmount := displayAmount d u v
  displayCurrency := displayCurrency d u v
  createdAt := createdAt d v

/-- The `ORDER BY` of the rows: descending, where no threshold comes
last and no time first. -/
def sharedOrder (status : SharedVideoStatus) :
    (WithBot Nat)ᵒᵈ ×ₗ (WithTop Time)ᵒᵈ ×ₗ VideoIDᵒᵈ :=
  let threshold : WithBot Nat := match status with
    | .queue => (priorityOf d v).map fun p => p.minPricePerMinute.1
    | .watched => ⊥
  let time : WithTop Time := match status with
    | .watched => v.watchedAt
    | .queue => createdAt d v
  toLex (OrderDual.toDual threshold,
    toLex (OrderDual.toDual time, OrderDual.toDual v.videoID))

/-- The condition on the columns of a video. -/
def Listed (videoQueueID : VideoQueueID) (status : SharedVideoStatus) :
    Prop :=
  ownerID v d = some u.userID ∧ v.videoQueueID = some videoQueueID
    ∧ match status with
      | .watched => v.watchedAt.isSome = true
      | .queue => v.watchedAt.isNone = true

instance (videoQueueID : VideoQueueID) (status : SharedVideoStatus) :
    Decidable (Listed d u v videoQueueID status) :=
  match status with
  | .watched => inferInstanceAs (Decidable (_ ∧ _ ∧ _ = true))
  | .queue => inferInstanceAs (Decidable (_ ∧ _ ∧ _ = true))

end Columns

-- ================================ statements

/-- The status of the request as far as the owner shows it. -/
def PublicUser.status (u : PublicUser) (status : SharedVideoStatus) :
    SharedVideoStatus :=
  if status = .watched ∧ u.publicQueueShowWatched = true then .watched
  else .queue

/-- The queue asked for, or the default one. -/
def summaryQueue (u : PublicUser) (videoQueueID : Option VideoQueueID)
    (d : Db) : Option VideoQueue :=
  d.queues.find? fun q => q.userID = u.userID
    ∧ ((videoQueueID = none ∧ q.isDefault = true)
      ∨ videoQueueID = some q.videoQueueID)

/-- `total` of the summary. -/
def sharedTotal (u : PublicUser) (videoQueueID : VideoQueueID)
    (status : SharedVideoStatus) (d : Db) : Nat :=
  (d.videos.rows.map Video.toVideoValues).countP fun v =>
    Listed d u v videoQueueID status

/-- The rows of a page. -/
def sharedRows (u : PublicUser) (videoQueueID : VideoQueueID)
    (status : SharedVideoStatus) (window : PaginationWindow) (pageSize : ℕ+)
    (d : Db) : List SharedRow :=
  let listed := (d.videos.rows.map Video.toVideoValues).filter fun v =>
    Listed d u v videoQueueID status
  (((orderBy (fun v => sharedOrder d v status) listed).drop
    window.offset).take pageSize).map (sharedRow d u)

/-- What a priority's videos of a queue that were not watched add up
to. -/
def priorityRow (videoQueueID : VideoQueueID) (d : Db) (p : VideoPriority) :
    PriorityRow :=
  let unwatched := (d.videos.rows.map Video.toVideoValues).filter fun v =>
    v.videoPriorityID = some p.videoPriorityID
      ∧ v.videoQueueID = some videoQueueID ∧ v.watchedAt = none
  { videoPriorityID := p.videoPriorityID
    label := p.label
    videoCount := unwatched.length
    remainingSeconds := (unwatched.map fun v =>
      (v.endSeconds.map fun e => (e.1 : Int) - v.startSeconds.1).getD 0).sum }

/-- The user's priorities, with their durations. -/
def priorityRows (u : PublicUser) (videoQueueID : VideoQueueID) (d : Db) :
    List PriorityRow :=
  (orderBy VideoPriority.order (d.priorities.rows.filter fun p =>
    p.userID = u.userID)).map (priorityRow videoQueueID d)

/-- The user's queues, in the order of their creation. -/
def listQueues (userID : UserID) (d : Db) : List VideoQueue :=
  orderBy VideoQueue.videoQueueID (d.queues.rows.filter fun q =>
    q.userID = userID)

/-- `z.array(schema).parse(rows)`. -/
def parseRows {α β : Type} (schema : α → Option β) (rows : List α) :
    Option (List β) := rows.mapM schema

/-- The summary is read, and then the rest; `none` where a schema
refuses a row, and `some none` where there is no page to show. -/
def listSharedPage {σ π κ : Type} (schemas : Schemas σ π κ) (slug : String)
    (input : SharedPageInput) (d : PublicDb) :
    Option (Option (SharedPage σ π κ)) :=
  match d.users.find? fun u => u.slug = slug with
  | none => some none
  | some u =>
      match summaryQueue u input.videoQueueID d.db with
      | none => some none
      | some q =>
          if !u.publicQueueEnabled then some none
          else
            let status := u.status input.status
            let total := sharedTotal u q.videoQueueID status d.db
            let window := getPaginationWindow total input.page input.pageSize
            let rows := sharedRows u q.videoQueueID status window
              input.pageSize d.db
            let priorities := match status with
              | .queue => priorityRows u q.videoQueueID d.db
              | .watched => []
            (parseRows schemas.video rows).bind fun items =>
            (parseRows schemas.queue (listQueues u.userID d.db)).bind
              fun queues =>
            (parseRows schemas.priority priorities).bind fun priorities =>
              some (some
                { items, queues, priorities, status, total
                  videoQueueID := q.videoQueueID
                  page := window.page
                  pageSize := input.pageSize
                  showWatchedVideos := u.publicQueueShowWatched
                  totalPages := window.totalPages })

end StreamBrew.Videos
