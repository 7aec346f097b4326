/-
The pages that an owner sees: listPage of the video queue (postgres.ts)
and listDonationsPage (store.ts).

A page is put together from several statements over one state of the
database. Each repeats the filter of the page; the statements that count
join other tables than the one that reads the rows. What the schemas make
of the rows that come back is a parameter, as it is for the public page,
and so is `ILIKE`. Counts fit their columns.
-/
import StreamBrew.Videos.Shared
import StreamBrew.Lib.Maps

namespace StreamBrew.Videos

open Relational
open Alert (UserID DonationID Time)

-- =================================== filters

/-- Which videos are listed. -/
inductive VideoStatus
  | all
  | notwatched
  | watched
  | bookmarked
  deriving DecidableEq, Repr

/-- The condition of a status. -/
def VideoStatus.holds (v : VideoValues) : VideoStatus → Bool
  | .all => true
  | .notwatched => v.watchedAt.isNone
  | .watched => v.watchedAt.isSome
  | .bookmarked => v.bookmarkedAt.isSome

/-- `videoPriorityId: number | "unassigned" | null` -/
inductive PriorityFilter
  | any
  | unassigned
  | priority (videoPriorityID : ℕ+)
  deriving DecidableEq

/-- The priority of the video is the one asked for. -/
def PriorityFilter.holds (v : VideoValues) : PriorityFilter → Bool
  | .any => true
  | .unassigned => v.videoPriorityID.isNone
  | .priority videoPriorityID =>
      v.videoPriorityID = some (videoPriorityID : Nat)

/-- What the videos of a page have in common. -/
structure ListFilter where
  videoPriorityID : PriorityFilter
  videoStatus : VideoStatus
  videoID : Option VideoID := none
  videoQueueID : Option VideoQueueID := none
  deriving DecidableEq

/-- What a page is asked for with. -/
structure ListPageInput extends ListFilter where
  page : ℕ+
  pageSize : ℕ+
  deriving DecidableEq

-- ================================ statements

section Statements

variable (userID : UserID) (d : Db)

/-- The queue that is asked for, that of the focused video, or the
default one. -/
def listedQueue (filter : ListFilter) : Option VideoQueue :=
  let ofVideo := (filter.videoID.bind fun videoID =>
    d.videos.get? videoID).bind fun v => v.videoQueueID
  let default := d.queues.find? fun q => q.userID = userID
    ∧ q.isDefault = true
  let chosen := (filter.videoQueueID.or ofVideo).or
    (default.map VideoQueue.videoQueueID)
  d.queues.find? fun q => q.userID = userID ∧ some q.videoQueueID = chosen

variable (videoQueueID : VideoQueueID)

/-- `coalesce(video.user_id, donation.user_id) = .. AND
video.video_queue_id = ..` -/
def ownedIn (v : VideoValues) : Bool :=
  ownerID v d = some userID && v.videoQueueID = some videoQueueID

/-- The filter of a page. -/
def ListFilter.matches (filter : ListFilter) (v : VideoValues) : Bool :=
  ownedIn userID d videoQueueID v
    && (filter.videoID.all fun videoID => v.videoID = videoID)
    && filter.videoPriorityID.holds v
    && filter.videoStatus.holds v

/-- All videos, in the order of their table. -/
def videoValues : List VideoValues := d.videos.rows.map Video.toVideoValues

/-- How many videos match the filter. -/
def listTotal (filter : ListFilter) : Nat :=
  (videoValues d).countP (filter.matches userID d videoQueueID)

/-- How many videos there are of each status. -/
structure StatusCounts where
  all : Nat
  notwatched : Nat
  watched : Nat
  bookmarked : Nat
  deriving DecidableEq, Repr

/-- The count of a status. -/
def StatusCounts.entry (counts : StatusCounts) : VideoStatus → Nat
  | .all => counts.all
  | .notwatched => counts.notwatched
  | .watched => counts.watched
  | .bookmarked => counts.bookmarked

/-- `count(*) FILTER (WHERE ..)` of the videos of a queue. -/
def statusCounts : StatusCounts :=
  let owned := (videoValues d).filter (ownedIn userID d videoQueueID)
  { all := owned.length
    notwatched := owned.countP fun v => v.watchedAt.isNone
    watched := owned.countP fun v => v.watchedAt.isSome
    bookmarked := owned.countP fun v => v.bookmarkedAt.isSome }

/-- `coalesce(video_priority_id, 0)` and `count(*)` of each group. -/
def priorityCountRows (status : VideoStatus) : List (Nat × Nat) :=
  let counted := (videoValues d).filter fun v =>
    ownedIn userID d videoQueueID v && status.holds v
  let groups := (counted.map fun v => v.videoPriorityID).dedup
  groups.map fun group =>
    (group.getD 0, counted.countP fun v => v.videoPriorityID = group)

/-- What the videos of a priority that were not watched add up to. -/
def priorityDuration (p : VideoPriority) : Nat × Int :=
  let unwatched := (videoValues d).filter fun v =>
    v.videoPriorityID = some p.videoPriorityID
      ∧ v.videoQueueID = some videoQueueID ∧ v.watchedAt = none
  (p.videoPriorityID, (unwatched.map fun v =>
    (v.endSeconds.map fun e => (e.1 : Int) - v.startSeconds.1).getD 0).sum)

/-- How long the videos of each priority are together. -/
def priorityDurationRows : List (Nat × Int) :=
  (d.priorities.rows.filter fun p => p.userID = userID).map
    (priorityDuration d videoQueueID)

/-- `Object.fromEntries`: a later entry takes the place of an earlier
one. -/
def fromEntries {β : Type} (entries : List (Nat × β)) :
    Table fun entry : Nat × β => entry.1 :=
  entries.foldl Table.put .empty

/-- Where a video came from. -/
inductive RowSource
  | donation
  | manual
  deriving DecidableEq, Repr

/-- A row of the page. -/
structure VideoRow where
  videoID : VideoID
  title : Option String
  videoQueueID : Option VideoQueueID
  videoPriorityID : Option VideoPriorityID
  providerVideoID : String
  url : String
  startSeconds : NonnegativeInt
  endSeconds : Option PositiveInt
  durationSeconds : Option PositiveInt
  metadataUnavailable : Bool
  metadataRetryAt : Option Time
  watchedAt : Option Time
  bookmarkedAt : Option Time
  priorityLabel : Option Label
  queueAmount : Option Money
  queueCurrency : QueueCurrency
  source : RowSource
  createdAt : Option Time
  donation : Option Donation
  deriving DecidableEq, Repr

/-- `available_at` of the metadata job that is not done. -/
def metadataRetryAt (v : VideoValues) : Option Time :=
  ((d.jobs.get? v.videoID).filter fun job => job.completedAt.isNone).map
    MetadataJob.availableAt

/-- A video as the page shows it. -/
def videoRow (u : User) (v : VideoValues) : VideoRow where
  videoID := v.videoID
  title := v.title
  videoQueueID := v.videoQueueID
  videoPriorityID := v.videoPriorityID
  providerVideoID := v.providerVideoID
  url := v.url
  startSeconds := v.startSeconds
  endSeconds := v.endSeconds
  durationSeconds := v.durationSeconds
  metadataUnavailable := metadataUnavailable d v
  metadataRetryAt := metadataRetryAt d v
  watchedAt := v.watchedAt
  bookmarkedAt := v.bookmarkedAt
  priorityLabel := (priorityOf d v).map VideoPriority.label
  queueAmount := v.queueAmount
  queueCurrency := u.queueCurrency
  source := if (donationOf d v).isNone then .manual else .donation
  createdAt := createdAt d v
  donation := donationOf d v

/-- The `ORDER BY` of the rows: descending, where no time comes first. -/
def listOrder (status : VideoStatus) (v : VideoValues) :
    (WithTop Time)ᵒᵈ ×ₗ VideoIDᵒᵈ :=
  let time : WithTop Time := match status with
    | .watched => v.watchedAt
    | .bookmarked => v.bookmarkedAt
    | .all | .notwatched => createdAt d v
  toLex (OrderDual.toDual time, OrderDual.toDual v.videoID)

/-- The rows of a page, joined with the user that owns them. -/
def listRows (filter : ListFilter) (window : PaginationWindow)
    (pageSize : ℕ+) : List VideoRow :=
  match d.users.get? userID with
  | none => []
  | some u =>
      let listed := (videoValues d).filter
        (filter.matches userID d videoQueueID)
      (((orderBy (listOrder d filter.videoStatus) listed).drop
        window.offset).take pageSize).map (videoRow d u)

end Statements

-- ================================== listPage

/-- VideoQueueSchema, VideoSchema and the schema of the durations. -/
structure ListSchemas (κ ι δ : Type) where
  queue : VideoQueue → Option κ
  video : VideoRow → Option ι
  duration : Nat × Int → Option (Nat × δ)

/-- A page of videos with its counts; queues, items and durations are
parameters. -/
structure VideoPage (κ ι δ : Type) where
  queue : κ
  items : List ι
  page : Nat
  pageSize : Nat
  priorityCounts : Table fun entry : Nat × Nat => entry.1
  remainingSecondsByPriorityID : Table fun entry : Nat × δ => entry.1
  statusCounts : StatusCounts
  total : Nat
  totalPages : Nat

/-- `none` where a schema refuses a row. -/
def listPage {κ ι δ : Type} (schemas : ListSchemas κ ι δ) (userID : UserID)
    (input : ListPageInput) (d : Db) :
    Option (Except VideoQueueErrorType (VideoPage κ ι δ)) :=
  let filter := input.toListFilter
  match listedQueue userID d filter with
  | none => some (.error .videoQueueNotFound)
  | some q =>
      let total := listTotal userID d q.videoQueueID filter
      let window := getPaginationWindow total input.page input.pageSize
      let rows := listRows userID d q.videoQueueID filter window
        input.pageSize
      (schemas.queue q).bind fun queue =>
      (parseRows schemas.video rows).bind fun items =>
      (parseRows schemas.duration
        (priorityDurationRows userID d q.videoQueueID)).bind fun durations =>
      some (.ok
        { queue, items, total
          page := window.page
          pageSize := input.pageSize
          priorityCounts := fromEntries
            (priorityCountRows userID d q.videoQueueID filter.videoStatus)
          remainingSecondsByPriorityID := fromEntries durations
          statusCounts := statusCounts userID d q.videoQueueID
          totalPages := window.totalPages })

-- ========================= listDonationsPage

/-- What the donations of a page have in common. -/
structure DonationFilter where
  query : String
  occurredAfter : Option Time
  donationID : Option DonationID := none
  source : Option Alert.Source := none
  deriving DecidableEq

/-- What a page is asked for with. -/
structure DonationsPageInput extends DonationFilter where
  page : ℕ+
  pageSize : ℕ+
  deriving DecidableEq

section Donations

variable (ilike : String → String → Bool) (userID : UserID)

/-- The filter of a page of donations. -/
def DonationFilter.matches (filter : DonationFilter) (r : Donation) : Bool :=
  let searchPattern := "%" ++ filter.query ++ "%"
  r.userID = userID
    && (filter.donationID.all fun donationID => r.donationID = donationID)
    && (filter.occurredAfter.all fun occurredAfter =>
      occurredAfter ≤ r.occurredAt)
    && (filter.source.all fun source => r.source = source)
    && (filter.query = ""
      || ilike (r.author.getD "") searchPattern
      || ilike (r.message.getD "") searchPattern)

/-- How many donations match the filter. -/
def donationTotal (filter : DonationFilter) (d : Db) : Nat :=
  d.donations.rows.countP (filter.matches ilike userID)

/-- `ORDER BY occurred_at DESC, donation_id DESC` -/
def donationOrder (r : Donation) : Timeᵒᵈ ×ₗ DonationIDᵒᵈ :=
  toLex (OrderDual.toDual r.occurredAt, OrderDual.toDual r.donationID)

/-- The donations of the window, the newest first. -/
def donationRows (filter : DonationFilter) (window : PaginationWindow)
    (pageSize : ℕ+) (d : Db) : List Donation :=
  let listed := d.donations.rows.filter (filter.matches ilike userID)
  ((orderBy donationOrder listed).drop window.offset).take pageSize

/-- A video of a donation. -/
structure DonationVideoRow where
  donationID : DonationID
  videoID : VideoID
  url : String
  title : Option String
  startSeconds : NonnegativeInt
  endSeconds : Option PositiveInt
  queueAmount : Option Money
  queueCurrency : QueueCurrency
  priorityLabel : Option Label
  watchedAt : Option Time
  bookmarkedAt : Option Time
  deriving DecidableEq, Repr

/-- A video with its donation and the donation's user. -/
def donationVideoRow (d : Db) (v : VideoValues) :
    Option DonationVideoRow :=
  (donationOf d v).bind fun r =>
  (d.users.get? r.userID).bind fun u =>
  if r.userID = userID then some
    { donationID := r.donationID
      videoID := v.videoID
      url := v.url
      title := v.title
      startSeconds := v.startSeconds
      endSeconds := v.endSeconds
      queueAmount := v.queueAmount
      queueCurrency := u.queueCurrency
      priorityLabel := (priorityOf d v).map VideoPriority.label
      watchedAt := v.watchedAt
      bookmarkedAt := v.bookmarkedAt }
  else none

/-- The videos of some donations. -/
def donationVideoRows (donationIDs : List DonationID) (d : Db) :
    List DonationVideoRow :=
  let listed := (videoValues d).filterMap (donationVideoRow userID d)
  orderBy DonationVideoRow.videoID
    (listed.filter fun r => donationIDs.contains r.donationID)

/-- DonationSchema and the schema of its videos. -/
structure DonationSchemas (ρ ν : Type) where
  donation : Donation → Option ρ
  video : DonationVideoRow → Option ν

/-- A donation with its videos. -/
structure DonationItem (ρ ν : Type) where
  donation : ρ
  videos : List ν
  deriving DecidableEq

/-- A page of donations. -/
structure DonationsPage (ρ ν : Type) where
  items : List (DonationItem ρ ν)
  page : Nat
  pageSize : Nat
  total : Nat
  totalPages : Nat
  deriving DecidableEq

/-- `none` where a schema refuses a row. -/
def listDonationsPage {ρ ν : Type} (schemas : DonationSchemas ρ ν)
    (input : DonationsPageInput) (d : Db) : Option (DonationsPage ρ ν) :=
  let filter := input.toDonationFilter
  let total := donationTotal ilike userID filter d
  let window := getPaginationWindow total input.page input.pageSize
  let rows := donationRows ilike userID filter window input.pageSize d
  let donationIDs := rows.map fun r => r.donationID
  (parseRows (fun r => (schemas.donation r).map fun donation =>
    (r.donationID, donation)) rows).bind fun donations =>
  (parseRows (fun r => (schemas.video r).map fun video =>
    (r.donationID, video)) (donationVideoRows userID donationIDs d)).bind
      fun videos =>
  some
    { items := donations.map fun donation =>
        { donation := donation.2
          videos := (videos.filter fun video =>
            video.1 = donation.1).map Prod.snd }
      total
      page := window.page
      pageSize := input.pageSize
      totalPages := window.totalPages }

end Donations

end StreamBrew.Videos
