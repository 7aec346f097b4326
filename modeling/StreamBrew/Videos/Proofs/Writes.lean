/-
What each statement writes: one inversion lemma a statement, by which
all later proofs go.

A row written to the video table is new, or a version of a row that was
there, and `VideoWrite` and `Change` say by what: its owner adds or
edits it, it comes from a scan, it moves, its amount is converted, its
duration becomes known, or only columns change that no ranking goes by.
A version keeps its id and where it comes from
(`Change.keeps_source`).
-/
import StreamBrew.Videos.Proofs.References

namespace StreamBrew.Videos

open Relational
open Alert (UserID DonationID Time jsDate)

variable {now : Time} {userID : UserID}

-- =================================== changes

/-- The columns of a video that are never changed. -/
structure VideoSource where
  videoID : VideoID
  donationID : Option DonationID
  userID : Option UserID
  addedAt : Option Time
  providerVideoID : String
  url : String

/-- What of a video never changes. -/
def VideoValues.source (v : VideoValues) : VideoSource :=
  ⟨v.videoID, v.donationID, v.userID, v.addedAt, v.providerVideoID, v.url⟩

/-- The row that `updateVideo` asks for. -/
def VideoDetails.values (details : VideoDetails) (v : VideoValues) :
    VideoValues :=
  { v with
    queueAmount := some details.amount
    startSeconds := details.startSeconds
    endSeconds := details.endSeconds.or v.durationSeconds }


/-- How a statement changes a row of the video table. -/
inductive Change (db : Db) : Source → Video → Video → Prop
  | edited {userID : UserID} {videoID : VideoID} {details : VideoDetails}
      {old v : Video} (hid : old.videoID = videoID)
      (hown : Owns db userID old.toVideoValues)
      (h : Stored db false (some old.toVideoValues)
        (details.values old.toVideoValues) v) :
      Change db (.inl (.updateVideo userID videoID details)) old v
  | moved {userID : UserID} {videoID : VideoID} {queueID : VideoQueueID}
      {old v : Video} (hid : old.videoID = videoID)
      (hown : Owns db userID old.toVideoValues)
      (h : Stored db false (some old.toVideoValues)
        { old.toVideoValues with videoQueueID := some queueID } v) :
      Change db (.inl (.moveVideo userID videoID queueID)) old v
  | status {userID : UserID} {videoID : VideoID}
      {watchedAt bookmarkedAt : Option (Option Time)} {old v : Video}
      {watched bookmarked : Option Time} (hid : old.videoID = videoID)
      (hv : v.toVideoValues = { old.toVideoValues with
        watchedAt := watched, bookmarkedAt := bookmarked }) :
      Change db (.inl (.updateStatus userID videoID watchedAt bookmarkedAt))
        old v
  | backfilled {providerVideoID title : String} {old v : Video}
      (htitle : old.title.isNone)
      (hv : v.toVideoValues = { old.toVideoValues with
        title := some title }) :
      Change db (.inl (.backfillTitle providerVideoID title)) old v
  | converted {change : CurrencyChange} {previous : QueueCurrency}
      {old v : Video} {amount amount' : Money}
      (hown : Owns db change.userID old.toVideoValues)
      (hamount : old.queueAmount = some amount)
      (hconvert : convertAmount (change.factor previous) amount
        = .ok amount')
      (h : Stored db true (some old.toVideoValues)
        { old.toVideoValues with queueAmount := some amount' } v) :
      Change db (.inr (.setQueueCurrency change (.amounts previous))) old v
  | timed {completion : MetadataCompletion} {durationSeconds : Int}
      {duration : PositiveInt} {old v : Video}
      (hid : old.videoID = completion.job.videoID)
      (hlookup : completion.lookup.durationSeconds = .ok durationSeconds)
      (hduration : PositiveInt.ofInt? durationSeconds = some duration)
      (h : Stored db false (some old.toVideoValues)
        (completion.timed duration old.toVideoValues) v) :
      Change db (.inr (.completeMetadata completion .video)) old v
  | titled {completion : MetadataCompletion} {e : LookupError}
      {old v : Video} (hid : old.videoID = completion.job.videoID)
      (hlookup : completion.lookup.durationSeconds = .error e)
      (hv : v.toVideoValues = { old.toVideoValues with
        title := completion.title old.toVideoValues }) :
      Change db (.inr (.completeMetadata completion .video)) old v

namespace Change

variable {db : Db} {source : Source} {old v : Video}

/-- A change keeps the id of a row and where it comes from. -/
theorem keeps_source (h : Change db source old v) :
    v.source = old.source := by
  cases h with
  | edited _ _ h => rw [h.values]; rfl
  | moved _ _ h => rw [h.values]; rfl
  | status _ hv => rw [hv]; rfl
  | backfilled _ hv => rw [hv]; rfl
  | converted _ _ _ h => rw [h.values]; rfl
  | timed _ _ _ h => rw [h.values]; rfl
  | titled _ _ hv => rw [hv]; rfl

theorem videoID (h : Change db source old v) : v.videoID = old.videoID :=
  congrArg VideoSource.videoID h.keeps_source

/-- A changed row refers to what the statement saw. -/
theorem refers (hdb : db.Good) (hold : old ∈ db.videos)
    (h : Change db source old v) : VideoRefers db v := by
  cases h with
  | edited _ _ h => exact h.refers hdb
  | moved _ _ h => exact h.refers hdb
  | status _ hv => exact (hdb.video old hold).annotate hv
  | backfilled _ hv => exact (hdb.video old hold).annotate hv
  | converted _ _ _ h => exact h.refers hdb
  | timed _ _ _ h => exact h.refers hdb
  | titled _ _ hv => exact (hdb.video old hold).annotate hv

end Change

/-- A row that a statement writes to the video table. -/
inductive VideoWrite (db : Db) : Source → Video → Prop
  | added {userID : UserID} {url : String} {providerVideoID : Option String}
      {details : VideoDetails} {queueID : Option VideoQueueID} {now : Time}
      {videoID : VideoID} {v : Video} {new : VideoValues}
      (hfree : ∀ w ∈ db.videos, w.videoID ≠ v.videoID)
      (huser : new.userID = some userID) (hdonation : new.donationID = none)
      (h : Stored db false none new v) :
      VideoWrite db (.inl (.addManualVideo userID url providerVideoID details
        queueID now videoID)) v
  | scanned {completion : Completion} {queueAmount : Option Money}
      {video : ScannedVideo} {videos : List ScannedVideo}
      {videoID : VideoID} {v : Video}
      (hfree : ∀ w ∈ db.videos, w.videoID ≠ v.videoID)
      (hnew : ∀ w ∈ db.videos,
        w.donationID = some completion.job.donationID →
          w.providerVideoID ≠ video.providerVideoID)
      (h : Stored db false none (video.values completion.job.donationID
        queueAmount videoID) v) :
      VideoWrite db
        (.inr (.complete completion (.insert queueAmount (video :: videos))))
        v
  | changed {source : Source} {old v : Video} (hold : old ∈ db.videos)
      (h : Change db source old v) : VideoWrite db source v

-- ============================= video updates

/-- What an update writes are stored changes of selected videos. -/
theorem mem_updateVideos {retain : Bool} {p : Video → Prop}
    [DecidablePred p] {f : VideoValues → Except StoreError VideoValues}
    {hf : ∀ v values, f v = .ok values → values.videoID = v.videoID}
    {db : Db} {rows : Table fun v : Video => v.videoID}
    (h : db.updateVideos retain p f hf = .ok rows) {v : Video}
    (hv : v ∈ rows) :
    ∃ old ∈ db.videos, p old ∧ ∃ new, f old.toVideoValues = .ok new
      ∧ Stored db retain (some old.toVideoValues) new v := by
  obtain ⟨old, hold, hp, hstore⟩ := Table.of_mem_modify? h hv
  cases hnew : f old.toVideoValues with
  | error e => rw [hnew] at hstore; cases hstore
  | ok new =>
      rw [hnew] at hstore
      exact ⟨old, hold, hp, new, hnew, storeVideo_stored hstore⟩

/-- Every row that an update selects has a version. -/
theorem updateVideos_all {retain : Bool} {p : Video → Prop}
    [DecidablePred p] {f : VideoValues → Except StoreError VideoValues}
    {hf : ∀ v values, f v = .ok values → values.videoID = v.videoID}
    {db : Db} {rows : Table fun v : Video => v.videoID}
    (h : db.updateVideos retain p f hf = .ok rows) {old : Video}
    (hold : old ∈ db.videos) (hp : p old) :
    ∃ v ∈ rows, v.videoID = old.videoID := by
  obtain ⟨v, hv, hstore⟩ := Table.mem_modify? h hold hp
  cases hnew : f old.toVideoValues with
  | error e => rw [hnew] at hstore; cases hstore
  | ok new =>
      rw [hnew] at hstore
      exact ⟨v, hv, (storeVideo_videoID hstore).trans (hf _ _ hnew)⟩

/-- An update fails at a video that it selects. -/
theorem updateVideos_error {retain : Bool} {p : Video → Prop}
    [DecidablePred p] {f : VideoValues → Except StoreError VideoValues}
    {hf : ∀ v values, f v = .ok values → values.videoID = v.videoID}
    {db : Db} {e : StoreError}
    (h : db.updateVideos retain p f hf = .error e) :
    ∃ old ∈ db.videos, p old ∧ (f old.toVideoValues = .error e
      ∨ ∃ new, f old.toVideoValues = .ok new
        ∧ db.storeVideo retain (some old.toVideoValues) new = .error e) := by
  obtain ⟨old, hold, hp, hstore⟩ := Table.modify?_error h
  refine ⟨old, hold, hp, ?_⟩
  cases hnew : f old.toVideoValues with
  | error e' =>
      rw [hnew] at hstore
      cases hstore
      exact Or.inl rfl
  | ok new =>
      rw [hnew] at hstore
      exact Or.inr ⟨new, rfl, hstore⟩

theorem mem_annotateVideos {p : Video → Prop} [DecidablePred p]
    {f : VideoValues → VideoValues}
    {hf : ∀ v, (f v).videoID = v.videoID} {db : Db}
    {rows : Table fun v : Video => v.videoID}
    (h : db.annotateVideos p f hf = .ok rows) {v : Video} (hv : v ∈ rows) :
    ∃ old ∈ db.videos, p old ∧ v.toVideoValues = f old.toVideoValues := by
  obtain ⟨old, hold, hp, hcheck⟩ := Table.of_mem_modify? h hv
  exact ⟨old, hold, hp, check_ok hcheck⟩

theorem updatedVideos_ok {rows : Table fun v : Video => v.videoID}
    {r : Written × Unit} (h : updatedVideos rows = .ok r) :
    r.1 = { written := { Db.empty with videos := rows } } := by
  unfold updatedVideos at h
  split at h
  case isTrue => cases h
  case isFalse => cases h; rfl

/-- Nothing but rows of the video table, each of them changed. -/
def ChangesVideos (db : Db) (P : Video → Video → Prop) (w : Written) :
    Prop :=
  ∃ rows, w = { written := { Db.empty with videos := rows } }
    ∧ ∀ v ∈ rows, ∃ old ∈ db.videos, P old v

theorem moveVideo_ok {videoID : VideoID}
    {queueID : VideoQueueID} {db : Db} {r : Written × Unit}
    (h : moveVideo userID videoID queueID db = .ok r) :
    ChangesVideos db
      (Change db (.inl (.moveVideo userID videoID queueID))) r.1 := by
  unfold moveVideo at h
  split at h
  case h_1 => cases h
  case h_2 rows hrows =>
    refine ⟨rows, updatedVideos_ok h, fun v hv => ?_⟩
    obtain ⟨old, hold, ⟨hid, hown, -⟩, new, hnew, hstored⟩ :=
      mem_updateVideos hrows hv
    cases hnew
    exact ⟨old, hold, Change.moved hid (ownsVideo_iff.mp hown) hstored⟩

theorem updateVideo_ok {videoID : VideoID}
    {details : VideoDetails} {db : Db} {r : Written × Unit}
    (h : updateVideo userID videoID details db = .ok r) :
    ChangesVideos db
      (Change db (.inl (.updateVideo userID videoID details))) r.1 := by
  unfold updateVideo at h
  split at h
  case h_1 => cases h
  case h_2 rows hrows =>
    refine ⟨rows, updatedVideos_ok h, fun v hv => ?_⟩
    obtain ⟨old, hold, ⟨hid, hown⟩, new, hnew, hstored⟩ :=
      mem_updateVideos hrows hv
    cases hnew
    exact ⟨old, hold, Change.edited hid (ownsVideo_iff.mp hown) hstored⟩

theorem updateStatus_ok {videoID : VideoID}
    {watchedAt bookmarkedAt : Option (Option Time)} {db : Db}
    {r : Written × Unit}
    (h : updateStatus userID videoID watchedAt bookmarkedAt db = .ok r) :
    ChangesVideos db (Change db
      (.inl (.updateStatus userID videoID watchedAt bookmarkedAt))) r.1 := by
  unfold updateStatus at h
  split at h
  case h_1 => cases h
  case h_2 rows hrows =>
    refine ⟨rows, updatedVideos_ok h, fun v hv => ?_⟩
    obtain ⟨old, hold, ⟨hid, -⟩, hvalues⟩ := mem_annotateVideos hrows hv
    exact ⟨old, hold, Change.status hid hvalues⟩

theorem backfillTitle_ok {providerVideoID title : String} {db : Db}
    {r : Written × Unit}
    (h : backfillTitle providerVideoID title db = .ok r) :
    ChangesVideos db
      (Change db (.inl (.backfillTitle providerVideoID title))) r.1 := by
  unfold backfillTitle at h
  split at h
  case h_1 => cases h
  case h_2 rows hrows =>
    cases h
    refine ⟨rows, rfl, fun v hv => ?_⟩
    obtain ⟨old, hold, ⟨-, hnone⟩, hvalues⟩ := mem_annotateVideos hrows hv
    exact ⟨old, hold, Change.backfilled hnone hvalues⟩

-- ==================================== queues

theorem createQueue_ok {label : Label}
    {queueID : VideoQueueID} {db : Db} {r : Written × VideoQueue}
    (h : createQueue userID label queueID db = .ok r) :
    ∃ queues, r.1.written = { Db.empty with queues } := by
  unfold createQueue at h
  repeat' split at h
  all_goals cases h
  exact ⟨_, rfl⟩

theorem updateQueue_ok {queueID : VideoQueueID}
    {label : Label} {isDefault : Bool} {db : Db} {r : Written × VideoQueue}
    (h : updateQueue userID queueID label isDefault db = .ok r) :
    ∃ queues, r.1.written = { Db.empty with queues } := by
  unfold updateQueue at h
  split at h
  case h_1 => cases h
  case h_2 =>
    split at h
    case isTrue => cases h
    case isFalse =>
      cases h
      exact ⟨_, rfl⟩

-- =================================== inserts

theorem insertVideo_ok {new : VideoValues} {db written : Db}
    (h : db.insertVideo new now = .ok written) :
    ∃ v, written = { Db.empty with
        videos := .row _ v, jobs := enqueueVideoMetadataJob v now db }
      ∧ (∀ w ∈ db.videos, w.videoID ≠ v.videoID)
      ∧ Stored db false none new v := by
  unfold Db.insertVideo at h
  split at h
  case h_1 => cases h
  case h_2 v hv =>
    split at h
    case isTrue => cases h
    case isFalse hfree =>
      cases h
      exact ⟨v, rfl, fun w hw he => hfree ⟨w, hw, he⟩, storeVideo_stored hv⟩

/-- A manual video is inserted with its job. -/
theorem addManualVideo_ok {url : String}
    {providerVideoID : Option String} {details : VideoDetails}
    {queueID : Option VideoQueueID} {videoID : VideoID}
    {db : Db} {r : Written × VideoID}
    (h : addManualVideo userID url providerVideoID details queueID now
      videoID db = .ok r) :
    ∃ v new, r.1.written = { Db.empty with
        videos := .row _ v, jobs := enqueueVideoMetadataJob v now db }
      ∧ r.1.locks = [{ userID, mode := .keyShare }]
      ∧ (∀ w ∈ db.videos, w.videoID ≠ v.videoID)
      ∧ Stored db false none new v ∧ new.userID = some userID
      ∧ new.donationID = none ∧ new.queueAmount = some details.amount
      ∧ ∃ u ∈ db.users, u.userID = userID := by
  unfold addManualVideo at h
  split at h
  case h_1 => cases h
  case h_2 =>
  split at h
  case h_1 => cases h
  case h_2 =>
  split at h
  case h_1 => cases h
  case h_2 written hwritten =>
  split at h
  case isFalse => cases h
  case isTrue huser =>
    cases h
    obtain ⟨v, rfl, hfree, hstored⟩ := insertVideo_ok hwritten
    exact ⟨v, _, rfl, rfl, hfree, hstored, rfl, rfl, rfl, huser⟩

/-- A scan's insert writes one video and its job, and goes on with the rest. -/
theorem Completion.insert_ok {completion : Completion}
    {queueAmount : Option Money} {video : ScannedVideo}
    {videos : List ScannedVideo} {videoID : VideoID} {db : Db}
    {r : Written × CompleteStage}
    (h : completion.insert queueAmount video videos videoID db = .ok r) :
    r.2 = .insert queueAmount videos
      ∧ (r.1 = { written := .empty }
          ∧ (∃ v ∈ db.videos, v.donationID = some completion.job.donationID
            ∧ v.providerVideoID = video.providerVideoID)
        ∨ ∃ v, r.1 = { written := { Db.empty with
              videos := .row _ v
              jobs := enqueueVideoMetadataJob v completion.now db } }
          ∧ (∀ w ∈ db.videos, w.videoID ≠ v.videoID)
          ∧ (∀ w ∈ db.videos,
              w.donationID = some completion.job.donationID →
                w.providerVideoID ≠ video.providerVideoID)
          ∧ Stored db false none (video.values completion.job.donationID
            queueAmount videoID) v) := by
  unfold Completion.insert at h
  split at h
  case h_1 => cases h
  case h_2 written hwritten =>
    cases h
    refine ⟨rfl, ?_⟩
    unfold Db.insertScanned at hwritten
    split at hwritten
    case h_1 => cases hwritten
    case h_2 written' hinsert =>
      obtain ⟨v, rfl, hfree, hstored⟩ := insertVideo_ok hinsert
      split at hwritten
      case isTrue hex =>
        cases hwritten
        exact Or.inl ⟨rfl, hex⟩
      case isFalse hnot =>
        cases hwritten
        refine Or.inr ⟨v, rfl, hfree, fun w hw hd hp => ?_, hstored⟩
        exact hnot ⟨w, hw, hd, hp⟩

-- =========================== currency change

namespace CurrencyChange

variable {change : CurrencyChange} {previous : QueueCurrency} {db : Db}
  {r : Written × CurrencyStage}

theorem lock_ok (h : change.lock db = .ok r) :
    r.1 = { written := .empty
            locks := [{ userID := change.userID, mode := .update }] }
      ∧ ∃ user ∈ db.users, user.userID = change.userID
        ∧ r.2 = if user.queueCurrency = change.queueCurrency then .commit
          else .thresholds user.queueCurrency := by
  unfold lock at h
  split at h
  case h_1 => cases h
  case h_2 user huser =>
    cases h
    exact ⟨rfl, user, Table.mem_of_get? huser, Table.key_of_get? huser, rfl⟩

/-- The thresholds' statement writes priorities only. -/
theorem thresholds_ok (h : change.thresholds previous db = .ok r) :
    r.2 = .retain previous ∧ ∃ priorities,
      r.1 = { written := { Db.empty with priorities } }
        ∧ (∀ q ∈ priorities, ∃ p ∈ db.priorities, p.userID = change.userID
          ∧ convertThreshold (change.factor previous) p = .ok q)
        ∧ ∀ p ∈ db.priorities, p.userID = change.userID →
          ∃ q ∈ priorities,
            convertThreshold (change.factor previous) p = .ok q := by
  unfold thresholds at h
  split at h
  case h_1 => cases h
  case h_2 priorities hp =>
    cases h
    exact ⟨rfl, priorities, rfl, fun q hq => Table.of_mem_modify? hp hq,
      fun p hmem hu => Table.mem_modify? hp hmem hu⟩

/-- The amounts' statement writes videos only. -/
theorem amounts_ok (h : change.amounts previous db = .ok r) :
    r.2 = .currency previous ∧ ∃ videos,
      r.1 = { written := { Db.empty with videos } }
        ∧ (∀ v ∈ videos, ∃ old ∈ db.videos, Change db
          (.inr (.setQueueCurrency change (.amounts previous))) old v)
        ∧ ∀ old ∈ db.videos, old.queueAmount.isSome →
          Owns db change.userID old.toVideoValues →
            ∃ v ∈ videos, v.videoID = old.videoID := by
  unfold amounts at h
  split at h
  case h_1 => cases h
  case h_2 videos hvideos =>
    cases h
    refine ⟨rfl, videos, rfl, fun v hv => ?_, fun old hold hs hown => ?_⟩
    · obtain ⟨old, hold, ⟨hs, hown⟩, new, hnew, hstored⟩ :=
        mem_updateVideos hvideos hv
      obtain ⟨amount, hamount⟩ := Option.isSome_iff_exists.mp hs
      rw [hamount] at hnew
      dsimp only at hnew
      cases hc : convertAmount (change.factor previous) amount with
      | error e => rw [hc] at hnew; cases hnew
      | ok amount' =>
          rw [hc] at hnew
          cases hnew
          exact ⟨old, hold,
            Change.converted (ownsVideo_iff.mp hown) hamount hc hstored⟩
    · exact updateVideos_all hvideos hold ⟨hs, ownsVideo_iff.mpr hown⟩

theorem currency_ok (h : change.currency db = .ok r) :
    r.2 = .commit ∧ ∃ users, r.1.written = { Db.empty with users }
      ∧ ∀ u', u' ∈ users ↔ ∃ u ∈ db.users, u.userID = change.userID
        ∧ u' = { u with queueCurrency := change.queueCurrency } := by
  unfold currency at h
  cases h
  refine ⟨rfl, _, rfl, fun u' => ?_⟩
  rw [Table.mem_update]
  constructor
  · intro ⟨u, hu, he⟩
    obtain ⟨hmem, hid⟩ := Table.mem_select.mp hu
    rw [if_pos trivial] at he
    exact ⟨u, hmem, hid, he.symm⟩
  · intro ⟨u, hu, hid, he⟩
    exact ⟨u, Table.mem_select.mpr ⟨hu, hid⟩, by rw [if_pos trivial, he]⟩

end CurrencyChange

-- =============================== completions

namespace Completion

variable {completion : Completion} {db : Db} {r : Written × CompleteStage}

theorem guard_ok (h : completion.guard db = .ok r) :
    (r.2 = if completion.videos.isEmpty then .parsed else .convert)
      ∧ ∃ s ∈ db.scans, s.HeldBy completion.job completion.now
        ∧ r.1 = { written := { Db.empty with
            scans := .row _ (s.complete completion.now) } } := by
  unfold guard at h
  split at h
  case h_1 => cases h
  case h_2 s hs =>
    cases h
    obtain ⟨hmem, hheld⟩ := Table.find?_eq_some hs
    exact ⟨rfl, s, hmem, hheld, rfl⟩

/-- The price of a scan is converted from its donation's to its user's
currency. -/
theorem convert_ok (h : completion.convert db = .ok r) :
    ∃ d ∈ db.donations, d.donationID = completion.job.donationID
      ∧ ∃ user ∈ db.users, user.userID = d.userID
      ∧ ∃ queueAmount, convertWithDefaultRate completion.job.amount
          completion.job.currency user.queueCurrency = .ok queueAmount
        ∧ r.1 = { written := .empty
                  locks := [{ userID := user.userID, mode := .share }] }
        ∧ r.2 = .insert queueAmount completion.videos := by
  unfold convert at h
  split at h
  case h_1 => cases h
  case h_2 user huser =>
    obtain ⟨d, hd, hu⟩ := Option.bind_eq_some_iff.mp huser
    split at h
    case h_1 => cases h
    case h_2 queueAmount hq =>
      cases h
      have hid := Table.key_of_get? hd
      exact ⟨d, Table.mem_of_get? hd, hid, user, Table.mem_of_get? hu,
        Table.key_of_get? hu, queueAmount, hq, rfl, rfl⟩

theorem parsed_ok (h : completion.parsed db = .ok r) :
    r.2 = .commit ∧ ∃ donations, r.1 = { written := { Db.empty with
          donations } }
      ∧ ∀ d' ∈ donations, ∃ d ∈ db.donations, d'.donationID = d.donationID
        ∧ d'.userID = d.userID := by
  unfold parsed at h
  cases h
  refine ⟨rfl, _, rfl, fun d' hd' => ?_⟩
  obtain ⟨d, hd, he⟩ := Table.mem_update.mp hd'
  rw [if_pos trivial] at he
  rw [← he]
  exact ⟨d, (Table.mem_select.mp hd).1, rfl, rfl⟩

end Completion

-- =================================== lookups

namespace MetadataCompletion

variable {completion : MetadataCompletion} {db : Db}
  {r : Written × MetadataStage}

theorem finished_ok {j j' : MetadataJob}
    (h : completion.finished j = .ok j') :
    j'.videoID = j.videoID ∧ j'.generation = j.generation
      ∧ j'.leaseExpiresAt = none
      ∧ (j'.completedAt.isSome ↔ completion.finishes = true) := by
  unfold finished at h
  split at h
  case isTrue => cases h
  case isFalse =>
    split at h
    case isTrue => cases h
    case isFalse =>
      cases h
      refine ⟨rfl, rfl, rfl, ?_⟩
      by_cases hf : completion.finishes = true <;> simp [hf]

/-- A completion takes its job, or nothing where it does not hold it. -/
theorem updateJob_ok (h : completion.updateJob db = .ok r) :
    (r = ({ written := .empty }, .commit)
        ∧ ∀ j ∈ db.jobs, ¬ j.HeldBy completion.job completion.now)
      ∨ ∃ j ∈ db.jobs, j.HeldBy completion.job completion.now
        ∧ ∃ j', completion.finished j = .ok j'
          ∧ r = ({ written := { Db.empty with jobs := .row _ j' } },
            .video) := by
  unfold updateJob at h
  split at h
  case h_1 hnone =>
    cases h
    exact Or.inl ⟨rfl, Table.find?_eq_none.mp hnone⟩
  case h_2 j hj =>
    obtain ⟨hmem, hheld⟩ := Table.find?_eq_some hj
    split at h
    case h_1 => cases h
    case h_2 j' hj' =>
      cases h
      exact Or.inr ⟨j, hmem, hheld, j', hj', rfl⟩

/-- Only a job that is held is refused. -/
theorem updateJob_error {e : StoreError}
    (h : completion.updateJob db = .error e) :
    ∃ j ∈ db.jobs, j.HeldBy completion.job completion.now
      ∧ completion.finished j = .error e := by
  unfold updateJob at h
  split at h
  case h_1 => cases h
  case h_2 j hj =>
    obtain ⟨hmem, hheld⟩ := Table.find?_eq_some hj
    split at h
    case h_1 hfinished =>
      cases h
      exact ⟨j, hmem, hheld, hfinished⟩
    case h_2 => cases h

theorem title_of_isSome {v : VideoValues} (h : v.title.isSome) :
    completion.title v = v.title := by
  unfold title
  cases ht : v.title with
  | none => rw [ht] at h; cases h
  | some t => rfl

theorem updateVideo_ok (h : completion.updateVideo db = .ok r) :
    r.2 = .commit ∧ ChangesVideos db
      (Change db (.inr (.completeMetadata completion .video))) r.1 := by
  unfold updateVideo at h
  dsimp only at h
  split at h
  case h_1 => cases h
  case h_2 videos hvideos =>
    cases h
    refine ⟨rfl, videos, rfl, fun v hv => ?_⟩
    split at hvideos
    case h_1 e hlookup =>
      obtain ⟨old, hold, hid, hvalues⟩ := mem_annotateVideos hvideos hv
      exact ⟨old, hold, Change.titled hid hlookup hvalues⟩
    case h_2 durationSeconds hlookup =>
      split at hvideos
      case h_1 => cases hvideos
      case h_2 duration hduration =>
        obtain ⟨old, hold, hid, new, hnew, hstored⟩ :=
          mem_updateVideos hvideos hv
        cases hnew
        exact ⟨old, hold, Change.timed hid hlookup hduration hstored⟩

/-- A successful lookup changes the row of its video. -/
theorem updateVideo_all (h : completion.updateVideo db = .ok r)
    {durationSeconds : Int}
    (hlookup : completion.lookup.durationSeconds = .ok durationSeconds)
    {old : Video} (hold : old ∈ db.videos)
    (hid : old.videoID = completion.job.videoID) :
    ∃ v ∈ r.1.written.videos, v.videoID = old.videoID := by
  unfold updateVideo at h
  dsimp only at h
  split at h
  case h_1 => cases h
  case h_2 videos hvideos =>
    cases h
    rw [hlookup] at hvideos
    dsimp only at hvideos
    split at hvideos
    case h_1 => cases hvideos
    case h_2 duration _ => exact updateVideos_all hvideos hold hid

end MetadataCompletion

-- =============================== scans, jobs

/-- The scan of a donation that has none. -/
def VideoScan.New (db : Db) (s : VideoScan) : Prop :=
  (∀ t ∈ db.scans, t.donationID ≠ s.donationID)
    ∧ s.generation = 0 ∧ s.completedAt.isNone ∧ s.leaseExpiresAt.isNone

/-- The job of a video that has none. -/
def MetadataJob.New (db : Db) (j : MetadataJob) : Prop :=
  (∀ k ∈ db.jobs, k.videoID ≠ j.videoID)
    ∧ j.generation = 0 ∧ j.completedAt.isNone ∧ j.leaseExpiresAt.isNone

theorem mem_enqueueDonationVideoScan {d : Donation} {db : Db}
    {s : VideoScan} (h : s ∈ enqueueDonationVideoScan d now db) :
    s.donationID = d.donationID ∧ s.New db := by
  unfold enqueueDonationVideoScan at h
  split at h
  case isTrue hnew =>
    rw [Table.mem_row.mp h]
    exact ⟨rfl, fun t ht he => hnew.2 ⟨t, ht, he⟩, rfl, rfl, rfl⟩
  case isFalse => exact absurd h Table.not_mem_empty

theorem mem_enqueueVideoMetadataJob {v : Video} {db : Db}
    {j : MetadataJob} (h : j ∈ enqueueVideoMetadataJob v now db) :
    j.videoID = v.videoID ∧ j.New db := by
  unfold enqueueVideoMetadataJob at h
  split at h
  case isTrue hnew =>
    rw [Table.mem_row.mp h]
    exact ⟨rfl, fun k hk he => hnew.2 ⟨k, hk, he⟩, rfl, rfl, rfl⟩
  case isFalse => exact absurd h Table.not_mem_empty

/-- A statement that writes rows for each row of a table. -/
theorem mem_foldl_overlay {α β κ : Type*} [DecidableEq κ] {key : β → κ}
    {f : α → Table key} {l : List α} {written : Table key} {b : β}
    (h : b ∈ l.foldl (fun written a => written.overlay (f a)) written) :
    b ∈ written ∨ ∃ a ∈ l, b ∈ f a := by
  induction l generalizing written with
  | nil => exact Or.inl h
  | cons a l ih =>
      rcases ih h with h | ⟨a', ha', h⟩
      · rcases Table.mem_overlay.mp h with h | ⟨h, -⟩
        · exact Or.inr ⟨a, List.mem_cons_self, h⟩
        · exact Or.inl h
      · exact Or.inr ⟨a', List.mem_cons_of_mem a ha', h⟩

theorem backfill_ok {db : Db} {r : Written × Unit}
    (h : backfill now db = .ok r) :
    ∃ scans, r.1 = { written := { Db.empty with scans } }
      ∧ ∀ s ∈ scans, s.New db := by
  unfold backfill at h
  cases h
  refine ⟨_, rfl, fun s hs => ?_⟩
  rcases mem_foldl_overlay hs with hs | ⟨d, -, hs⟩
  · exact absurd hs Table.not_mem_empty
  · exact (mem_enqueueDonationVideoScan hs).2

theorem enqueueMetadata_ok {db : Db} {r : Written × Unit}
    (h : enqueueMetadata now db = .ok r) :
    ∃ jobs, r.1 = { written := { Db.empty with jobs } }
      ∧ ∀ j ∈ jobs, j.New db
        ∧ ∃ v ∈ db.videos, v.videoID = j.videoID := by
  unfold enqueueMetadata at h
  cases h
  refine ⟨_, rfl, fun j hj => ?_⟩
  rcases mem_foldl_overlay hj with hj | ⟨v, hv, hj⟩
  · exact absurd hj Table.not_mem_empty
  · obtain ⟨hid, hnew⟩ := mem_enqueueVideoMetadataJob hj
    exact ⟨hnew, v, hv, hid.symm⟩

/-- A donation is inserted with its scan. -/
theorem insertDonation_ok {donation : Alert.Donation}
    {db : Db} {r : Written × Unit}
    (h : insertDonation donation now db = .ok r) :
    r.1 = { written := { Db.empty with
              donations := .row _ { toDonation := donation }
              scans := enqueueDonationVideoScan
                { toDonation := donation } now db }
            locks := [{ userID := donation.userID, mode := .keyShare }] }
      ∧ (∀ d ∈ db.donations, d.donationID ≠ donation.donationID)
      ∧ donation.amount < donationAmountLimit
      ∧ Storable (donation.message.getD "") ∧ Storable donation.currency
      ∧ ∃ u ∈ db.users, u.userID = donation.userID := by
  unfold insertDonation at h
  dsimp only at h
  split at h
  case isTrue => cases h
  case isFalse hfree =>
  split at h
  case isTrue => cases h
  case isFalse hamount =>
  split at h
  case isTrue => cases h
  case isFalse htext =>
  split at h
  case isFalse => cases h
  case isTrue huser =>
    cases h
    rw [not_not] at htext
    exact ⟨rfl, fun d hd he => hfree ⟨d, hd, Or.inl he⟩,
      not_le.mp hamount, htext.1, htext.2, huser⟩

/-- A claim takes a scan that is due, or nothing. -/
theorem claim_ok {locked : List DonationID} {leaseDuration : Time}
    {db : Db} {r : Written × Option Job}
    (h : claim locked now leaseDuration db = .ok r) :
    r = ({ written := .empty }, none)
      ∨ ∃ s ∈ db.scans, s.Claimable locked now ∧ ∃ attempts,
        r = ({ written := { Db.empty with
                scans := .row _ (s.claim (now + leaseDuration) attempts) } },
            (db.donations.get? s.donationID).map fun d =>
              { donationID := s.donationID, generation := s.generation + 1
                attempts, message := d.message, amount := d.amount
                currency := d.currency }) := by
  unfold claim at h
  split at h
  case h_1 => cases h; exact Or.inl rfl
  case h_2 s hs =>
    obtain ⟨hmem, hclaimable, -⟩ := Table.first_eq_some hs
    split at h
    case h_1 => cases h
    case h_2 attempts _ =>
      cases h
      exact Or.inr ⟨s, hmem, hclaimable, attempts, rfl⟩

theorem retry_ok {job : Job} {availableAt : Time} {db : Db}
    {r : Written × Unit} (h : retry job availableAt now db = .ok r) :
    ∃ s ∈ db.scans, s.HeldBy job now
      ∧ r.1 = { written := { Db.empty with
          scans := .row _ (s.retry availableAt) } } := by
  unfold retry at h
  split at h
  case h_1 => cases h
  case h_2 s hs =>
    cases h
    obtain ⟨hmem, hheld⟩ := Table.find?_eq_some hs
    exact ⟨s, hmem, hheld, rfl⟩

/-- A claim takes a lookup that is due, or nothing. -/
theorem claimMetadata_ok {locked : List VideoID} {db : Db}
    {r : Written × Option ClaimedJob}
    (h : claimMetadata locked now db = .ok r) :
    r = ({ written := .empty }, none)
      ∨ ∃ j ∈ db.jobs, j.Claimable locked now ∧ ∃ attempts,
        r = ({ written := { Db.empty with
                jobs := .row _ (j.claim now attempts) } },
            (db.videos.get? j.videoID).map fun v =>
              { videoID := j.videoID, generation := j.generation + 1
                attempts, providerVideoID := v.providerVideoID }) := by
  unfold claimMetadata at h
  split at h
  case h_1 => cases h; exact Or.inl rfl
  case h_2 j hj =>
    obtain ⟨hmem, hclaimable, -⟩ := Table.first_eq_some hj
    split at h
    case h_1 => cases h
    case h_2 attempts _ =>
      cases h
      exact Or.inr ⟨j, hmem, hclaimable, attempts, rfl⟩

/-- A retry of lookups writes jobs only. -/
theorem retryMetadata_ok {videoID : VideoID}
    {unseen : Bool} {db : Db} {r : Written × Bool}
    (h : retryMetadata userID videoID unseen now db = .ok r) :
    ∃ jobs, r.1 = { written := { Db.empty with jobs } }
      ∧ ∀ j' ∈ jobs, ∃ j ∈ db.jobs, j.videoID = videoID
        ∧ j.Retriable now ∧ j' = { j with
            completedAt := none, availableAt := jsDate now
            check := Or.inl rfl } := by
  unfold retryMetadata at h
  cases h
  refine ⟨_, rfl, fun j' hj' => ?_⟩
  obtain ⟨j, hj, he⟩ := Table.mem_update.mp hj'
  rw [if_pos trivial] at he
  obtain ⟨hmem, hid, -, hretriable⟩ := Table.mem_select.mp hj
  exact ⟨j, hmem, hid, hretriable, he.symm⟩

-- ============================== transactions

/-- How a transaction goes on. -/
inductive Next : Txn → Db → VideoID → Written → Txn → Prop
  | setQueueCurrency {change : CurrencyChange} {stage : CurrencyStage} {f}
      {db : Db} {videoID : VideoID} {r : Written × CurrencyStage}
      (hf : change.statement stage = some f) (hr : f db = .ok r) :
      Next (.setQueueCurrency change stage) db videoID r.1
        (.setQueueCurrency change r.2)
  | complete {completion : Completion} {stage : CompleteStage} {f}
      {db : Db} {videoID : VideoID} {r : Written × CompleteStage}
      (hf : completion.statement stage = some f) (hr : f db videoID = .ok r) :
      Next (.complete completion stage) db videoID r.1
        (.complete completion r.2)
  | completeMetadata {completion : MetadataCompletion}
      {stage : MetadataStage} {f} {db : Db} {videoID : VideoID}
      {r : Written × MetadataStage}
      (hf : completion.statement stage = some f) (hr : f db = .ok r) :
      Next (.completeMetadata completion stage) db videoID r.1
        (.completeMetadata completion r.2)

/-- What the next statement of a transaction does, and where it goes on. -/
theorem statement_next {txn txn' : Txn} {statement}
    (hnext : txn.statement = some statement) {db : Db} {videoID : VideoID}
    {effect : Written} (h : statement db videoID = .ok (effect, txn')) :
    Next txn db videoID effect txn' := by
  cases txn with
  | setQueueCurrency change stage =>
      obtain ⟨f, hf, rfl⟩ := Option.map_eq_some_iff.mp hnext
      obtain ⟨r, hr, he⟩ := map_eq_ok h
      cases he
      exact Next.setQueueCurrency hf hr
  | complete completion stage =>
      obtain ⟨f, hf, rfl⟩ := Option.map_eq_some_iff.mp hnext
      obtain ⟨r, hr, he⟩ := map_eq_ok h
      cases he
      exact Next.complete hf hr
  | completeMetadata completion stage =>
      obtain ⟨f, hf, rfl⟩ := Option.map_eq_some_iff.mp hnext
      obtain ⟨r, hr, he⟩ := map_eq_ok h
      cases he
      exact Next.completeMetadata hf hr

end StreamBrew.Videos
