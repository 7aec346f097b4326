/-
The tables of the video component, and the trigger that ranks a video.

# What a statement writes

A `Db` is a set of row versions: the committed tables are one, and so
are the rows that a statement or an open transaction has written. Every
call and every statement of this component is a function of the rows it
sees that gives the rows it writes; nothing changes in place.

# The trigger

`setVideoPriorityID` is `set_video_priority_id()`, which fires before a
row is inserted and before an update that names one of its columns. The
table's checks are made after it (`Db.storeVideo`). `retain` is the
transaction's setting `streambrew.retain_video_priority`.
-/
import StreamBrew.Lib.Sessions
import StreamBrew.Videos.Domain

namespace StreamBrew.Videos

open Relational
open Alert (UserID DonationID Time)

/-- Row versions of the tables. -/
structure Db where
  users : Table User.userID
  queues : Table VideoQueue.videoQueueID
  priorities : Table VideoPriority.videoPriorityID
  donations : Table fun d : Donation => d.donationID
  videos : Table fun v : Video => v.videoID
  scans : Table VideoScan.donationID
  jobs : Table MetadataJob.videoID

namespace Db

/-- No rows. -/
def empty : Db :=
  ⟨.empty, .empty, .empty, .empty, .empty, .empty, .empty⟩

/-- The tables with the versions of some rows in place of their own. -/
def overlay (db w : Db) : Db where
  users := db.users.overlay w.users
  queues := db.queues.overlay w.queues
  priorities := db.priorities.overlay w.priorities
  donations := db.donations.overlay w.donations
  videos := db.videos.overlay w.videos
  scans := db.scans.overlay w.scans
  jobs := db.jobs.overlay w.jobs

/-- No row has a version in both. -/
def Apart (db w : Db) : Prop :=
  db.users.Apart w.users ∧ db.queues.Apart w.queues
    ∧ db.priorities.Apart w.priorities ∧ db.donations.Apart w.donations
    ∧ db.videos.Apart w.videos ∧ db.scans.Apart w.scans
    ∧ db.jobs.Apart w.jobs

instance (db w : Db) : Decidable (db.Apart w) :=
  inferInstanceAs (Decidable (_ ∧ _ ∧ _ ∧ _ ∧ _ ∧ _ ∧ _))

end Db

instance : Sessions.Versioned Db where
  empty := Db.empty
  overlay := Db.overlay
  Apart := Db.Apart
  decidableApart _ _ := inferInstance
  overlay_empty db := by simp [Db.overlay, Db.empty]
  empty_overlay db := by simp [Db.overlay, Db.empty]
  overlay_assoc db u w := by simp [Db.overlay, Table.overlay_assoc]
  apart_symm h := ⟨h.1.symm, h.2.1.symm, h.2.2.1.symm, h.2.2.2.1.symm,
    h.2.2.2.2.1.symm, h.2.2.2.2.2.1.symm, h.2.2.2.2.2.2.symm⟩
  apart_empty _ := ⟨Table.apart_empty _, Table.apart_empty _,
    Table.apart_empty _, Table.apart_empty _, Table.apart_empty _,
    Table.apart_empty _, Table.apart_empty _⟩
  apart_overlay h h' := ⟨h.1.overlay h'.1, h.2.1.overlay h'.2.1,
    h.2.2.1.overlay h'.2.2.1, h.2.2.2.1.overlay h'.2.2.2.1,
    h.2.2.2.2.1.overlay h'.2.2.2.2.1,
    h.2.2.2.2.2.1.overlay h'.2.2.2.2.2.1,
    h.2.2.2.2.2.2.overlay h'.2.2.2.2.2.2⟩

-- =============================== the trigger

/-- `coalesce(user_id, (SELECT user_id FROM donation ..))`. -/
def ownerID (v : VideoValues) (db : Db) : Option UserID :=
  v.userID.or (v.donationID.bind fun donationID =>
    (db.donations.get? donationID).map fun d => d.userID)

/-- A queue of the user. -/
def VideoQueue.OwnedBy (owner : Option UserID) (q : VideoQueue) : Prop :=
  owner = some q.userID

instance (owner : Option UserID) : DecidablePred (VideoQueue.OwnedBy owner) :=
  fun _ => inferInstanceAs (Decidable (_ = _))

/-- A priority of the user. -/
def VideoPriority.OwnedBy (owner : Option UserID) (p : VideoPriority) :
    Prop := owner = some p.userID

instance (owner : Option UserID) :
    DecidablePred (VideoPriority.OwnedBy owner) :=
  fun _ => inferInstanceAs (Decidable (_ = _))

/-- `amount * 60 / (end - start)`; nothing where the database raises a
division by zero. -/
def pricePerMinute (amount : Money) (startSeconds : NonnegativeInt)
    (endSeconds : PositiveInt) : Option Numeric :=
  (amount.numeric.mul (.ofInt 60)).div?
    (.ofInt ((endSeconds.1 : Int) - startSeconds.1))

/-- An update that keeps the assignment of a row: its ranking columns
are what they were, apart from an amount under `retain`. -/
def Keeps (retain : Bool) (old : VideoValues) (new : VideoValues) : Prop :=
  (new.queueAmount = old.queueAmount ∨ retain = true)
    ∧ new.startSeconds = old.startSeconds
    ∧ new.endSeconds = old.endSeconds
    ∧ new.donationID = old.donationID
    ∧ new.userID = old.userID
    ∧ new.videoPriorityID = old.videoPriorityID
    ∧ old.videoPriorityID.isSome

instance (retain : Bool) (old new : VideoValues) :
    Decidable (Keeps retain old new) :=
  inferInstanceAs (Decidable (_ ∧ _ ∧ _ ∧ _ ∧ _ ∧ _ ∧ _))

/-- `ORDER BY min_price_per_minute DESC, video_priority_id ASC`. -/
def VideoPriority.order (p : VideoPriority) :
    OrderDual Nat ×ₗ VideoPriorityID :=
  toLex (OrderDual.toDual p.minPricePerMinute.1, p.videoPriorityID)

/-- The highest threshold of the owner that a price reaches. -/
def highestPriority (owner : Option UserID) (price : Numeric) (db : Db) :
    Option VideoPriority :=
  db.priorities.first
    (fun p => p.OwnedBy owner ∧ p.minPricePerMinute.numeric ≤ price)
    VideoPriority.order

/-- The row with its queue: the owner's default one where the statement
gave none. -/
def withQueue (owner : Option UserID) (new : VideoValues) (db : Db) :
    VideoValues :=
  if new.videoQueueID.isNone then
    { new with
      videoQueueID := (db.queues.find? fun q => q.OwnedBy owner
        ∧ q.isDefault = true).map VideoQueue.videoQueueID }
  else new

/-- The priority that the trigger writes to a row that is not
unranked. -/
def assignPriority (owner : Option UserID) (new : VideoValues) (db : Db) :
    Except TriggerError VideoValues :=
  match new.queueAmount, new.endSeconds with
  | some amount, some endSeconds =>
      match pricePerMinute amount new.startSeconds endSeconds with
      | none => .error .divisionByZero
      | some price =>
          match highestPriority owner price db with
          | none => .error .noVideoPriority
          | some p => .ok
              { new with videoPriorityID := some p.videoPriorityID }
  | _, _ => .ok { new with videoPriorityID := none }

/-- The trigger `set_video_priority_id`. -/
def setVideoPriorityID (retain : Bool) (old : Option VideoValues)
    (new : VideoValues) (db : Db) : Except TriggerError VideoValues :=
  let owner := ownerID new db
  let new := withQueue owner new db
  if ¬ db.queues.Exists (fun q =>
      new.videoQueueID = some q.videoQueueID ∧ q.OwnedBy owner) then
    .error .queueOwner
  else if new.videoPriorityID.isSome ∧ ¬ db.priorities.Exists (fun p =>
      new.videoPriorityID = some p.videoPriorityID ∧ p.OwnedBy owner) then
    .error .priorityOwner
  else if new.Unranked then .ok { new with videoPriorityID := none }
  else if old.any fun old => Keeps retain old new then .ok new
  else assignPriority owner new db

/-- A row on its way into the video table: the trigger, then the
checks. -/
def Db.storeVideo (retain : Bool) (old : Option VideoValues)
    (new : VideoValues) (db : Db) : Except StoreError Video :=
  match setVideoPriorityID retain old new db with
  | .error e => .error (.trigger e)
  | .ok values => values.check

-- ================================ statements

/-- `ownershipPredicate`: the video was added by the user, or belongs to
a donation of the user. -/
def OwnsVideo (userID : UserID) (db : Db) (v : Video) : Prop :=
  v.userID = some userID ∨ db.donations.Exists fun d =>
    v.donationID = some d.donationID ∧ d.userID = userID

instance (userID : UserID) (db : Db) : DecidablePred (OwnsVideo userID db) :=
  fun _ => inferInstanceAs (Decidable (_ ∨ _))

theorem check_ok {values : VideoValues} {v : Video}
    (h : values.check = .ok v) : v.toVideoValues = values := by
  unfold VideoValues.check at h
  repeat' split at h
  all_goals cases h
  rfl

theorem withQueue_videoID (owner : Option UserID) (new : VideoValues)
    (db : Db) : (withQueue owner new db).videoID = new.videoID := by
  unfold withQueue
  split <;> rfl

theorem assignPriority_videoID {owner : Option UserID}
    {new values : VideoValues} {db : Db}
    (h : assignPriority owner new db = .ok values) :
    values.videoID = new.videoID := by
  unfold assignPriority at h
  repeat' split at h
  all_goals cases h
  all_goals rfl

/-- The trigger leaves the key alone. -/
theorem storeVideo_videoID {retain : Bool} {old : Option VideoValues}
    {new : VideoValues} {db : Db} {v : Video}
    (h : db.storeVideo retain old new = .ok v) :
    v.videoID = new.videoID := by
  unfold Db.storeVideo at h
  split at h
  case h_1 => cases h
  case h_2 values hvalues =>
    rw [check_ok h, ← withQueue_videoID (ownerID new db) new db]
    unfold setVideoPriorityID at hvalues
    dsimp only at hvalues
    repeat' split at hvalues
    case isTrue => cases hvalues
    case isTrue => cases hvalues
    case isTrue => cases hvalues; rfl
    case isTrue => cases hvalues; rfl
    case isFalse => exact assignPriority_videoID hvalues

/-- `UPDATE video SET f WHERE p`, where `f` names a column of the
trigger. -/
def Db.updateVideos (retain : Bool) (p : Video → Prop) [DecidablePred p]
    (f : VideoValues → Except StoreError VideoValues)
    (hf : ∀ v values, f v = .ok values → values.videoID = v.videoID)
    (db : Db) : Except StoreError (Table fun v : Video => v.videoID) :=
  db.videos.modify? p
    (fun v => (f v.toVideoValues).bind fun values =>
      db.storeVideo retain (some v.toVideoValues) values)
    (fun v v' h => by
      cases hv : f v.toVideoValues with
      | error e => rw [hv] at h; cases h
      | ok values =>
          rw [hv] at h
          exact (storeVideo_videoID h).trans (hf _ _ hv))

end StreamBrew.Videos
