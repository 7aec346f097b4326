/-
The video component as one machine: any caller may make any call at any
time, transactions of several statements are interleaved with each other
and with the calls, and anything may be cut.

A call whose rows or locks another open transaction holds waits. What a
failed call throws and what a call returns are not part of the machine;
the statements are the functions of the store modules.
-/
import StreamBrew.Videos.Ingest

namespace StreamBrew.Videos

open Alert (UserID DonationID Time)

/-- A call of one statement, or one that holds the user's row through
all of its statements. -/
inductive Call
  | getOrCreateUserId (authUserID : String) (missed : Bool)
      (draw : UserDraw)
  | createQueue (userID : UserID) (label : Label)
      (videoQueueID : VideoQueueID)
  | updateQueue (userID : UserID) (videoQueueID : VideoQueueID)
      (label : Label) (isDefault : Bool)
  | addManualVideo (userID : UserID) (url : String)
      (providerVideoID : Option String) (details : VideoDetails)
      (videoQueueID : Option VideoQueueID) (now : Time) (videoID : VideoID)
  | moveVideo (userID : UserID) (videoID : VideoID)
      (videoQueueID : VideoQueueID)
  | updateVideo (userID : UserID) (videoID : VideoID)
      (details : VideoDetails)
  | updateStatus (userID : UserID) (videoID : VideoID)
      (watchedAt bookmarkedAt : Option (Option Time))
  | retryMetadata (userID : UserID) (videoID : VideoID) (unseen : Bool)
      (now : Time)
  | updatePriority (userID : UserID) (videoPriorityID : VideoPriorityID)
      (label : Label) (minPricePerMinute : Money)
  | insertDonation (donation : Alert.Donation) (now : Time)
  | backfill (now : Time)
  | claim (locked : List DonationID) (now leaseDuration : Time)
  | retry (job : Job) (availableAt now : Time)
  | enqueueMetadata (now : Time)
  | claimMetadata (locked : List VideoID) (now : Time)
  | backfillTitle (providerVideoID title : String)

/-- What a call writes. -/
def Call.perform (db : Db) : Call → Except StoreError Written
  | .getOrCreateUserId authUserID missed draw =>
      (Videos.getOrCreateUserId authUserID missed draw db).map Prod.fst
  | .createQueue userID label videoQueueID =>
      (Videos.createQueue userID label videoQueueID db).map Prod.fst
  | .updateQueue userID videoQueueID label isDefault =>
      (Videos.updateQueue userID videoQueueID label isDefault db).map Prod.fst
  | .addManualVideo userID url providerVideoID details videoQueueID now
      videoID =>
      (Videos.addManualVideo userID url providerVideoID details videoQueueID
        now videoID db).map Prod.fst
  | .moveVideo userID videoID videoQueueID =>
      (Videos.moveVideo userID videoID videoQueueID db).map Prod.fst
  | .updateVideo userID videoID details =>
      (Videos.updateVideo userID videoID details db).map Prod.fst
  | .updateStatus userID videoID watchedAt bookmarkedAt =>
      (Videos.updateStatus userID videoID watchedAt bookmarkedAt db).map
        Prod.fst
  | .retryMetadata userID videoID unseen now =>
      (Videos.retryMetadata userID videoID unseen now db).map Prod.fst
  | .updatePriority userID videoPriorityID label minPricePerMinute =>
      (Videos.updatePriority userID videoPriorityID label minPricePerMinute
        db).map Prod.fst
  | .insertDonation donation now =>
      (Videos.insertDonation donation now db).map Prod.fst
  | .backfill now => (Videos.backfill now db).map Prod.fst
  | .claim locked now leaseDuration =>
      (Videos.claim locked now leaseDuration db).map Prod.fst
  | .retry job availableAt now =>
      (Videos.retry job availableAt now db).map Prod.fst
  | .enqueueMetadata now => (Videos.enqueueMetadata now db).map Prod.fst
  | .claimMetadata locked now =>
      (Videos.claimMetadata locked now db).map Prod.fst
  | .backfillTitle providerVideoID title =>
      (Videos.backfillTitle providerVideoID title db).map Prod.fst

/-- A transaction of several statements, and how far it is. -/
inductive Txn
  | setQueueCurrency (change : CurrencyChange) (stage : CurrencyStage)
  | complete (completion : Completion) (stage : CompleteStage)
  | completeMetadata (completion : MetadataCompletion)
      (stage : MetadataStage)

/-- A transaction before its first statement. -/
def Txn.fresh : Txn → Bool
  | .setQueueCurrency _ stage => stage = .lock
  | .complete _ stage => stage = .guard
  | .completeMetadata _ stage => stage = .job

/-- The next statement; the value drawn is the id of an inserted
video. -/
def Txn.statement : Txn →
    Option (Db → VideoID → Except StoreError (Written × Txn))
  | .setQueueCurrency change stage =>
      (change.statement stage).map fun f db _ =>
        (f db).map fun r => (r.1, .setQueueCurrency change r.2)
  | .complete completion stage =>
      (completion.statement stage).map fun f db videoID =>
        (f db videoID).map fun r => (r.1, .complete completion r.2)
  | .completeMetadata completion stage =>
      (completion.statement stage).map fun f db _ =>
        (f db).map fun r => (r.1, .completeMetadata completion r.2)

/-- The programs of the component. -/
def programs : Sessions.Programs Db UserLock Call Txn VideoID StoreError where
  call call db := call.perform db
  fresh := Txn.fresh
  statement := Txn.statement
  compatible := UserLock.compatible
  compatible_symm held lock := by
    have hmode : held.mode.compatible lock.mode
        = lock.mode.compatible held.mode := by
      cases held.mode <;> cases lock.mode <;> rfl
    simp only [UserLock.compatible, hmode, bne_comm]

/-- Sessions of many connections to the database. -/
abbrev World := Sessions.World Db UserLock Call Txn
/-- What happens to them. -/
abbrev Action := Sessions.Action Call Txn VideoID

/-- The world after some actions, from empty tables. -/
def World.after (actions : List Action) : World :=
  Run.run (Sessions.step programs) (.init .empty) actions

end StreamBrew.Videos
