/-
What a step writes to each table, for every call and every statement at
once.

`Wrote` collects it: each row written to the users, the priorities, the
donations, the videos, the scans or the jobs comes about in one of the
ways that its table knows (`UserWrite`, `PriorityWrite`,
`DonationWrite`, `VideoWrite`, `ScanWrite`, `JobWrite`). The guarantees
of the component go by these alone; only what has to be written, and not
merely what may be, is taken from the lemmas about single statements.
-/
import StreamBrew.Videos.Proofs.Sound

namespace StreamBrew.Videos

open Relational
open Alert (UserID DonationID Time jsDate)

-- ==================================== tables

/-- The users that a call or a statement may write. -/
inductive UserWrite (db : Db) : Source → User → Prop
  | created {authUserID : String} {missed : Bool} {draw : UserDraw}
      (hfree : ∀ u ∈ db.users, u.userID ≠ draw.userID) :
      UserWrite db (.inl (.getOrCreateUserId authUserID missed draw))
        { userID := draw.userID, authUserID }
  | changed {change : CurrencyChange} {previous : QueueCurrency} {u : User}
      (hu : u ∈ db.users) (hid : u.userID = change.userID) :
      UserWrite db (.inr (.setQueueCurrency change (.currency previous)))
        { u with queueCurrency := change.queueCurrency }

/-- The priorities that it may write. -/
inductive PriorityWrite (db : Db) : Source → VideoPriority → Prop
  | created {authUserID : String} {missed : Bool} {draw : UserDraw}
      {p : VideoPriority} (hp : p ∈ defaultPriorities draw)
      (huser : ∀ u ∈ db.users, u.userID ≠ p.userID) :
      PriorityWrite db (.inl (.getOrCreateUserId authUserID missed draw)) p
  | completed {authUserID : String} {draw : UserDraw} {user : User}
      {p : VideoPriority} (huser : user ∈ db.users)
      (hauth : db.users.find? (fun u => u.authUserID = authUserID)
        = some user)
      (hp : p ∈ defaultPriorities { draw with userID := user.userID }) :
      PriorityWrite db (.inl (.getOrCreateUserId authUserID true draw)) p
  | updated {userID : UserID} {priorityID : VideoPriorityID} {label : Label}
      {minPrice : Money} {p q : VideoPriority} (hp : p ∈ db.priorities)
      (hid : q.videoPriorityID = p.videoPriorityID)
      (huser : q.userID = p.userID) (hdefault : q.isDefault = p.isDefault) :
      PriorityWrite db (.inl (.updatePriority userID priorityID label
        minPrice)) q
  | converted {change : CurrencyChange} {previous : QueueCurrency}
      {p q : VideoPriority} (hp : p ∈ db.priorities)
      (huser : p.userID = change.userID)
      (h : convertThreshold (change.factor previous) p = .ok q) :
      PriorityWrite db
        (.inr (.setQueueCurrency change (.thresholds previous))) q

/-- The donations that it may write. -/
inductive DonationWrite (db : Db) : Source → Donation → Prop
  | inserted {donation : Alert.Donation} {now : Time}
      (hfree : ∀ d ∈ db.donations, d.donationID ≠ donation.donationID) :
      DonationWrite db (.inl (.insertDonation donation now))
        { toDonation := donation }
  | parsed {completion : Completion} {stage : CompleteStage}
      {d d' : Donation} (hd : d ∈ db.donations)
      (hid : d'.donationID = d.donationID) (huser : d'.userID = d.userID) :
      DonationWrite db (.inr (.complete completion stage)) d'

/-- The scans that it may write. -/
inductive ScanWrite (db : Db) : Source → VideoScan → Prop
  | new {call : Call} {s : VideoScan} (h : s.New db) :
      ScanWrite db (.inl call) s
  | claimed {locked : List DonationID} {now leaseDuration : Time}
      {s : VideoScan} {attempts : NonnegativeInt} (hs : s ∈ db.scans)
      (hclaimable : s.Claimable locked now) :
      ScanWrite db (.inl (.claim locked now leaseDuration))
        (s.claim (now + leaseDuration) attempts)
  | retried {job : Job} {availableAt now : Time} {s : VideoScan}
      (hs : s ∈ db.scans) (hheld : s.HeldBy job now) :
      ScanWrite db (.inl (.retry job availableAt now)) (s.retry availableAt)
  | completed {completion : Completion} {s : VideoScan} (hs : s ∈ db.scans)
      (hheld : s.HeldBy completion.job completion.now) :
      ScanWrite db (.inr (.complete completion .guard))
        (s.complete completion.now)

/-- A row that is written to the jobs, beside some videos. -/
inductive JobWrite (db : Db) (videos : Table fun v : Video => v.videoID) :
    Source → MetadataJob → Prop
  | new {source : Source} {j : MetadataJob} (h : j.New db)
      (hvideo : ∃ v ∈ db.videos.overlay videos, v.videoID = j.videoID) :
      JobWrite db videos source j
  | claimed {locked : List VideoID} {now : Time} {j : MetadataJob}
      {attempts : NonnegativeInt} (hj : j ∈ db.jobs)
      (hclaimable : j.Claimable locked now) :
      JobWrite db videos (.inl (.claimMetadata locked now))
        (j.claim now attempts)
  | retried {userID : UserID} {videoID : VideoID} {unseen : Bool}
      {now : Time} {j j' : MetadataJob} (hj : j ∈ db.jobs)
      (hid : j.videoID = videoID) (hretriable : j.Retriable now)
      (hj' : j' = { j with
        completedAt := none, availableAt := jsDate now
        check := Or.inl rfl }) :
      JobWrite db videos (.inl (.retryMetadata userID videoID unseen now)) j'
  | finished {completion : MetadataCompletion} {j j' : MetadataJob}
      (hj : j ∈ db.jobs) (hheld : j.HeldBy completion.job completion.now)
      (hj' : completion.finished j = .ok j') :
      JobWrite db videos (.inr (.completeMetadata completion .job)) j'

-- ==================================== a step

/-- Everything that was written has a reason. -/
structure Wrote (db : Db) (source : Source) (w : Db) : Prop where
  users : ∀ u ∈ w.users, UserWrite db source u
  priorities : ∀ p ∈ w.priorities, PriorityWrite db source p
  donations : ∀ d ∈ w.donations, DonationWrite db source d
  videos : ∀ v ∈ w.videos, VideoWrite db source v
  scans : ∀ s ∈ w.scans, ScanWrite db source s
  jobs : ∀ j ∈ w.jobs, JobWrite db w.videos source j

theorem wrote_empty (db : Db) (source : Source) : Wrote db source .empty where
  users _ h := absurd h Table.not_mem_empty
  priorities _ h := absurd h Table.not_mem_empty
  donations _ h := absurd h Table.not_mem_empty
  videos _ h := absurd h Table.not_mem_empty
  scans _ h := absurd h Table.not_mem_empty
  jobs _ h := absurd h Table.not_mem_empty

theorem ChangesVideos.wrote {db : Db} {source : Source} {w : Written}
    (h : ChangesVideos db (Change db source) w) :
    Wrote db source w.written := by
  obtain ⟨rows, rfl, hrows⟩ := h
  refine { wrote_empty db source with
    videos := fun v hv => ?_
    jobs := fun j hj => absurd hj Table.not_mem_empty }
  obtain ⟨old, hold, hchange⟩ := hrows v hv
  exact VideoWrite.changed hold hchange

/-- Finding or creating a user writes what it may. -/
theorem getOrCreateUserId_wrote {authUserID : String} {missed : Bool}
    {draw : UserDraw} {db : Db} {r : Written × UserID}
    (h : getOrCreateUserId authUserID missed draw db = .ok r) :
    Wrote db (.inl (.getOrCreateUserId authUserID missed draw))
      r.1.written := by
  unfold getOrCreateUserId at h
  split at h
  case h_1 user hfound =>
    split at h
    case isFalse => cases h; exact wrote_empty _ _
    case isTrue hmissed =>
      subst hmissed
      unfold completeUser at h
      simp only at h
      split at h
      case isTrue => cases h
      case isFalse =>
        split at h
        case h_1 => cases h
        case h_2 queues hqueues =>
          cases h
          refine { wrote_empty db _ with priorities := fun p hp => ?_ }
          rcases mem_insertPriorities hp with hp | hp
          · exact absurd hp Table.not_mem_empty
          · exact PriorityWrite.completed (Table.find?_eq_some hfound).1
              hfound hp
  case h_2 =>
  split at h
  case isTrue => cases h
  case isFalse hfresh =>
  rw [not_or] at hfresh
  split at h
  case h_1 => cases h
  case h_2 queues hqueues =>
  cases h
  refine { wrote_empty db _ with
    users := fun u hu => ?_, priorities := fun p hp => ?_ }
  · rw [Table.mem_row.mp hu]
    exact UserWrite.created fun u hu he => hfresh.1 ⟨u, hu, he⟩
  · rcases mem_insertPriorities hp with hp | hp
    · exact absurd hp Table.not_mem_empty
    · refine PriorityWrite.created hp fun u hu he => ?_
      exact hfresh.1 ⟨u, hu, he.trans (defaultPriorities_userID hp).1⟩

/-- Updating a priority writes what it may. -/
theorem updatePriority_wrote {userID : UserID}
    {priorityID : VideoPriorityID} {label : Label} {minPrice : Money}
    {db : Db} {r : Written × VideoPriority}
    (h : updatePriority userID priorityID label minPrice db = .ok r) :
    Wrote db (.inl (.updatePriority userID priorityID label minPrice))
      r.1.written := by
  unfold updatePriority at h
  split at h
  case h_1 => cases h
  case h_2 p hp =>
  split at h
  case h_1 => cases h
  case h_2 q hq =>
  split at h
  case isTrue => cases h
  case isFalse =>
    cases h
    obtain ⟨hid, hu, -, hd, -⟩ := VideoPriority.withThreshold_ok hq
    refine { wrote_empty db _ with priorities := fun q' hq' => ?_ }
    rw [Table.mem_row.mp hq']
    exact PriorityWrite.updated (Table.find?_eq_some hp).1 hid hu hd

/-- Every call writes what it may. -/
theorem call_wrote {call : Call} {db : Db} {effect : Written}
    (h : call.perform db = .ok effect) :
    Wrote db (.inl call) effect.written := by
  cases call with
  | getOrCreateUserId authUserID missed draw =>
      obtain ⟨r, hr, rfl⟩ := map_eq_ok h
      exact getOrCreateUserId_wrote hr
  | createQueue userID label queueID =>
      obtain ⟨r, hr, rfl⟩ := map_eq_ok h
      obtain ⟨queues, hw⟩ := createQueue_ok hr
      rw [hw]
      exact { wrote_empty db _ with }
  | updateQueue userID queueID label isDefault =>
      obtain ⟨r, hr, rfl⟩ := map_eq_ok h
      obtain ⟨queues, hw⟩ := updateQueue_ok hr
      rw [hw]
      exact { wrote_empty db _ with }
  | addManualVideo userID url providerVideoID details queueID now videoID =>
      obtain ⟨r, hr, rfl⟩ := map_eq_ok h
      obtain ⟨v, new, hw, -, hfree, hstored, huser, hdonation, -⟩ :=
        addManualVideo_ok hr
      rw [hw]
      refine { wrote_empty db _ with
        videos := fun w hw => ?_, jobs := fun j hj => ?_ }
      · rw [Table.mem_row.mp hw]
        exact VideoWrite.added hfree huser hdonation hstored
      · obtain ⟨hid, hnew⟩ := mem_enqueueVideoMetadataJob hj
        exact JobWrite.new hnew ⟨v, Table.mem_overlay.mpr
          (Or.inl (Table.mem_row.mpr rfl)), hid.symm⟩
  | moveVideo userID videoID queueID =>
      obtain ⟨r, hr, rfl⟩ := map_eq_ok h
      exact (moveVideo_ok hr).wrote
  | updateVideo userID videoID details =>
      obtain ⟨r, hr, rfl⟩ := map_eq_ok h
      exact (updateVideo_ok hr).wrote
  | updateStatus userID videoID watchedAt bookmarkedAt =>
      obtain ⟨r, hr, rfl⟩ := map_eq_ok h
      exact (updateStatus_ok hr).wrote
  | retryMetadata userID videoID unseen now =>
      obtain ⟨r, hr, rfl⟩ :=
        map_eq_ok (x := Videos.retryMetadata userID videoID unseen now db) h
      obtain ⟨jobs, hw, hjobs⟩ := retryMetadata_ok hr
      rw [hw]
      refine { wrote_empty db _ with jobs := fun j' hj' => ?_ }
      obtain ⟨j, hj, hid, hretriable, he⟩ := hjobs j' hj'
      exact JobWrite.retried hj hid hretriable he
  | updatePriority userID priorityID label minPrice =>
      obtain ⟨r, hr, rfl⟩ := map_eq_ok h
      exact updatePriority_wrote hr
  | insertDonation donation now =>
      obtain ⟨r, hr, rfl⟩ := map_eq_ok h
      obtain ⟨hw, hfree, -⟩ := insertDonation_ok hr
      rw [hw]
      refine { wrote_empty db _ with
        donations := fun d hd => ?_, scans := fun s hs => ?_ }
      · rw [Table.mem_row.mp hd]
        exact DonationWrite.inserted hfree
      · exact ScanWrite.new (mem_enqueueDonationVideoScan hs).2
  | backfill now =>
      obtain ⟨r, hr, rfl⟩ := map_eq_ok (x := Videos.backfill now db) h
      obtain ⟨scans, hw, hscans⟩ := backfill_ok hr
      rw [hw]
      exact { wrote_empty db _ with
        scans := fun s hs => ScanWrite.new (hscans s hs) }
  | claim locked now leaseDuration =>
      obtain ⟨r, hr, rfl⟩ := map_eq_ok h
      rcases claim_ok hr with rfl | ⟨s, hs, hclaimable, attempts, rfl⟩
      · exact wrote_empty db _
      · refine { wrote_empty db _ with scans := fun s' hs' => ?_ }
        rw [Table.mem_row.mp hs']
        exact ScanWrite.claimed hs hclaimable
  | retry job availableAt now =>
      obtain ⟨r, hr, rfl⟩ := map_eq_ok h
      obtain ⟨s, hs, hheld, hw⟩ := retry_ok hr
      rw [hw]
      refine { wrote_empty db _ with scans := fun s' hs' => ?_ }
      rw [Table.mem_row.mp hs']
      exact ScanWrite.retried hs hheld
  | enqueueMetadata now =>
      obtain ⟨r, hr, rfl⟩ := map_eq_ok (x := Videos.enqueueMetadata now db) h
      obtain ⟨jobs, hw, hjobs⟩ := enqueueMetadata_ok hr
      rw [hw]
      refine { wrote_empty db _ with jobs := fun j hj => ?_ }
      obtain ⟨hnew, v, hv, hid⟩ := hjobs j hj
      exact JobWrite.new hnew
        ⟨v, by simpa [Db.empty] using hv, hid⟩
  | claimMetadata locked now =>
      obtain ⟨r, hr, rfl⟩ := map_eq_ok h
      rcases claimMetadata_ok hr with rfl | ⟨j, hj, hclaimable, attempts, rfl⟩
      · exact wrote_empty db _
      · refine { wrote_empty db _ with jobs := fun j' hj' => ?_ }
        rw [Table.mem_row.mp hj']
        exact JobWrite.claimed hj hclaimable
  | backfillTitle providerVideoID title =>
      obtain ⟨r, hr, rfl⟩ := map_eq_ok h
      exact (backfillTitle_ok hr).wrote

-- ============================== transactions

/-- Every statement of a change of currency writes what it may. -/
theorem CurrencyChange.statement_wrote {change : CurrencyChange}
    {stage : CurrencyStage} {db : Db} {f}
    (hf : change.statement stage = some f) {r : Written × CurrencyStage}
    (h : f db = .ok r) :
    Wrote db (.inr (.setQueueCurrency change stage)) r.1.written := by
  cases stage with
  | lock =>
      cases hf
      rw [(lock_ok h).1]
      exact wrote_empty db _
  | thresholds previous =>
      cases hf
      obtain ⟨-, priorities, hr, hrows, -⟩ := thresholds_ok h
      rw [hr]
      refine { wrote_empty db _ with priorities := fun q hq => ?_ }
      obtain ⟨p, hp, hu, hconvert⟩ := hrows q hq
      exact PriorityWrite.converted hp hu hconvert
  | retain previous =>
      cases hf
      cases h
      exact wrote_empty db _
  | amounts previous =>
      cases hf
      obtain ⟨-, videos, hr, hrows, -⟩ := amounts_ok h
      rw [hr]
      refine { wrote_empty db _ with
        videos := fun v hv => ?_
        jobs := fun j hj => absurd hj Table.not_mem_empty }
      obtain ⟨old, hold, hchange⟩ := hrows v hv
      exact VideoWrite.changed hold hchange
  | currency previous =>
      cases hf
      obtain ⟨-, users, hr, hrows⟩ := currency_ok h
      rw [hr]
      refine { wrote_empty db _ with users := fun u' hu' => ?_ }
      obtain ⟨u, hu, hid, rfl⟩ := (hrows u').mp hu'
      exact UserWrite.changed hu hid
  | commit => cases hf

theorem Completion.parsed_wrote {completion : Completion} {db : Db}
    {stage : CompleteStage} {r : Written × CompleteStage}
    (h : completion.parsed db = .ok r) :
    Wrote db (.inr (.complete completion stage)) r.1.written := by
  obtain ⟨-, donations, hr, hrows⟩ := parsed_ok h
  rw [hr]
  refine { wrote_empty db _ with donations := fun d' hd' => ?_ }
  obtain ⟨d, hd, hid, hu⟩ := hrows d' hd'
  exact DonationWrite.parsed hd hid hu

/-- Every statement of a scan's completion writes what it may. -/
theorem Completion.statement_wrote {completion : Completion}
    {stage : CompleteStage} {db : Db} {f}
    (hf : completion.statement stage = some f) {videoID : VideoID}
    {r : Written × CompleteStage} (h : f db videoID = .ok r) :
    Wrote db (.inr (.complete completion stage)) r.1.written := by
  cases stage with
  | guard =>
      cases hf
      obtain ⟨-, s, hs, hheld, hr⟩ := guard_ok h
      rw [hr]
      refine { wrote_empty db _ with scans := fun s' hs' => ?_ }
      rw [Table.mem_row.mp hs']
      exact ScanWrite.completed hs hheld
  | convert =>
      cases hf
      obtain ⟨d, -, -, user, -, -, amount, -, hr, -⟩ := convert_ok h
      rw [hr]
      exact wrote_empty db _
  | insert queueAmount videos =>
      cases videos with
      | nil =>
          cases hf
          exact parsed_wrote h
      | cons video videos =>
          cases hf
          obtain ⟨-, ⟨hr, -⟩ | ⟨v, hr, hfree, hnew, hstored⟩⟩ := insert_ok h
          · rw [hr]
            exact wrote_empty db _
          · rw [hr]
            refine { wrote_empty db _ with
              videos := fun w hw => ?_, jobs := fun j hj => ?_ }
            · rw [Table.mem_row.mp hw]
              exact VideoWrite.scanned hfree hnew hstored
            · obtain ⟨hid, hjob⟩ := mem_enqueueVideoMetadataJob hj
              exact JobWrite.new hjob ⟨v, Table.mem_overlay.mpr
                (Or.inl (Table.mem_row.mpr rfl)), hid.symm⟩
  | parsed =>
      cases hf
      exact parsed_wrote h
  | commit => cases hf

/-- Every statement of a lookup's completion writes what it may. -/
theorem MetadataCompletion.statement_wrote
    {completion : MetadataCompletion} {stage : MetadataStage} {db : Db} {f}
    (hf : completion.statement stage = some f) {r : Written × MetadataStage}
    (h : f db = .ok r) :
    Wrote db (.inr (.completeMetadata completion stage)) r.1.written := by
  cases stage with
  | job =>
      cases hf
      rcases updateJob_ok h with ⟨rfl, -⟩ | ⟨j, hj, hheld, j', hj', rfl⟩
      · exact wrote_empty db _
      · refine { wrote_empty db _ with jobs := fun k hk => ?_ }
        rw [Table.mem_row.mp hk]
        exact JobWrite.finished hj hheld hj'
  | video =>
      cases hf
      exact (updateVideo_ok h).2.wrote
  | commit => cases hf

theorem Next.wrote {txn txn' : Txn} {db : Db} {videoID : VideoID}
    {effect : Written} (h : Next txn db videoID effect txn') :
    Wrote db (.inr txn) effect.written := by
  cases h with
  | setQueueCurrency hf hr => exact CurrencyChange.statement_wrote hf hr
  | complete hf hr => exact Completion.statement_wrote hf hr
  | completeMetadata hf hr => exact MetadataCompletion.statement_wrote hf hr

theorem statement_wrote {txn txn' : Txn} {statement}
    (hnext : txn.statement = some statement) {db : Db} {videoID : VideoID}
    {effect : Written} (h : statement db videoID = .ok (effect, txn')) :
    Wrote db (.inr txn) effect.written := (statement_next hnext h).wrote

end StreamBrew.Videos
