/-
The metadata worker beside the edits of the owner.

The worker reads a video, goes to the network, and writes back; what it
writes is computed from the row that its last statement locks, so it
holds for the row at the commit (`LookedUp`), and no other transaction
writes that row or its job in between (`MetadataProgress.stable`). A
completion that finds its job in other hands, or its lease over, writes
nothing at all.
-/
import StreamBrew.Videos.Proofs.Currency

namespace StreamBrew.Videos

open Relational
open Alert (UserID DonationID Time)

variable {db w : Db} {completion : MetadataCompletion}

-- =================================== lookups

/-- What a lookup makes of the row of its video. -/
structure LookedUp (completion : MetadataCompletion) (v v' : Video) :
    Prop where
  videoID : v'.videoID = v.videoID
  start : v'.startSeconds = v.startSeconds
  amount : v'.queueAmount = v.queueAmount
  title : v.title.isSome → v'.title = v.title
  /-- With the duration known, a segment that starts before it ends
  within it. -/
  within : ∀ n, completion.lookup.durationSeconds = .ok n →
    ∃ d, v'.durationSeconds = some d ∧ (d.1 : Int) = n
      ∧ (v'.startSeconds.1 < d.1 →
        ∃ e, v'.endSeconds = some e ∧ e.1 ≤ d.1)

theorem PositiveInt.ofInt?_eq_some {n : Int} {d : PositiveInt}
    (h : PositiveInt.ofInt? n = some d) : (d.1 : Int) = n := by
  unfold PositiveInt.ofInt? at h
  split at h
  case isTrue hpos =>
    cases h
    show (n.toNat : Int) = n
    omega
  case isFalse => cases h

/-- A lookup that changes a video changes its own video by what it found. -/
theorem Change.lookedUp {old v : Video}
    (h : Change db (.inr (.completeMetadata completion .video)) old v) :
    old.videoID = completion.job.videoID ∧ LookedUp completion old v := by
  have hid := h.videoID
  cases h with
  | titled hjob hlookup hv =>
      refine ⟨hjob, hid, by rw [hv], by rw [hv], fun hs => ?_, fun n hn => ?_⟩
      · rw [hv]
        exact MetadataCompletion.title_of_isSome hs
      · rw [hlookup] at hn
        cases hn
  | @timed _ n duration _ _ hjob hlookup hduration hstored =>
      have hv := hstored.values
      refine ⟨hjob, hid, by rw [hv]; rfl, by rw [hv]; rfl, fun hs => ?_,
        fun m hm => ?_⟩
      · rw [hv]
        exact MetadataCompletion.title_of_isSome hs
      · rw [hlookup] at hm
        cases hm
        refine ⟨duration, by rw [hv]; rfl,
          PositiveInt.ofInt?_eq_some hduration, ?_⟩
        rw [hv]
        intro hlt
        change old.startSeconds.1 < duration.1 at hlt
        refine ⟨min (old.endSeconds.getD duration) duration, ?_, ?_⟩
        · show (if old.startSeconds.1 < duration.1 then _ else _) = _
          rw [if_pos hlt]
        · exact min_le_right (old.endSeconds.getD duration) duration

-- ================================== progress

/-- The job is in the hands of the completion, and what becomes of it. -/
structure Taken (db : Db) (completion : MetadataCompletion)
    (jobs : Table MetadataJob.videoID) : Prop where
  taken : ∃ j ∈ db.jobs, j.HeldBy completion.job completion.now
    ∧ ∃ j', completion.finished j = .ok j' ∧ jobs = .row _ j'

/-- What a completion of a lookup has written, by its stage. -/
inductive MetadataProgress (db w : Db) (completion : MetadataCompletion) :
    MetadataStage → Prop
  | job (hw : w = .empty) : MetadataProgress db w completion .job
  | video (hjobs : Taken db completion w.jobs) (hvideos : w.videos = .empty) :
      MetadataProgress db w completion .video
  | stale (hw : w = .empty) : MetadataProgress db w completion .commit
  | done (hjobs : Taken db completion w.jobs)
      (hvideos : ∀ v' ∈ w.videos, ∃ v ∈ db.videos,
        v.videoID = completion.job.videoID ∧ LookedUp completion v v')
      (hall : ∀ n, completion.lookup.durationSeconds = .ok n →
        ∃ v' ∈ w.videos, v'.videoID = completion.job.videoID) :
      MetadataProgress db w completion .commit

/-- A transaction behind a lookup has made this progress. -/
def Txn.Looks (db w : Db) : Txn → Prop
  | .completeMetadata completion stage => MetadataProgress db w completion stage
  | _ => True

/-- The jobs are those of videos; each open lookup is where it says. -/
def lookups : Sessions.Facts Db UserLock Call Txn where
  good _ db := ∀ j ∈ db.jobs, ∃ v ∈ db.videos, v.videoID = j.videoID
  held _ db s := (∀ j ∈ s.written.jobs,
      ∃ v ∈ (db.overlay s.written).videos, v.videoID = j.videoID)
    ∧ s.txn.Looks db s.written

theorem exists_video {a b : Table fun v : Video => v.videoID} {id : VideoID}
    (h : ∃ v ∈ a, v.videoID = id) : ∃ v ∈ a.overlay b, v.videoID = id := by
  obtain ⟨v, hv, hid⟩ := h
  obtain ⟨v', hv', hk, -⟩ := Table.exists_overlay (w := b) hv
  exact ⟨v', hv', hk.trans hid⟩

/-- A written job is that of a video, where the jobs seen are. -/
theorem Wrote.job_video {source : Source} (h : Wrote db source w)
    (hdb : ∀ j ∈ db.jobs, ∃ v ∈ db.videos, v.videoID = j.videoID)
    {j : MetadataJob} (hj : j ∈ w.jobs) :
    ∃ v ∈ (db.overlay w).videos, v.videoID = j.videoID := by
  cases h.jobs j hj with
  | new _ hvideo => exact hvideo
  | @claimed _ _ j₀ _ hj₀ _ => exact exists_video (hdb j₀ hj₀)
  | retried hj₀ _ _ he =>
      obtain ⟨v, hv, hid⟩ := hdb _ hj₀
      rw [he]
      exact exists_video ⟨v, hv, hid⟩
  | finished hj₀ _ hfinished =>
      rw [(MetadataCompletion.finished_ok hfinished).1]
      exact exists_video (hdb _ hj₀)

theorem jobs_overlay
    (hdb : ∀ j ∈ db.jobs, ∃ v ∈ db.videos, v.videoID = j.videoID)
    (hw : ∀ j ∈ w.jobs, ∃ v ∈ (db.overlay w).videos,
      v.videoID = j.videoID) :
    ∀ j ∈ (db.overlay w).jobs, ∃ v ∈ (db.overlay w).videos,
      v.videoID = j.videoID := by
  intro j hj
  rcases Table.mem_overlay.mp hj with hj | ⟨hj, -⟩
  · exact hw j hj
  · exact exists_video (hdb j hj)

theorem Taken.stable {w' : Db}
    (h : Taken db completion w.jobs) (hapart : w.Apart w') :
    Taken (db.overlay w') completion w.jobs := by
  obtain ⟨j, hj, hheld, j', hfinished, hjobs⟩ := h.taken
  refine ⟨j, mem_overlay_of_apart hapart.2.2.2.2.2.2 hj (b := j') ?_ ?_,
    hheld, j', hfinished, hjobs⟩
  · rw [hjobs]
    exact Table.mem_row.mpr rfl
  · exact (MetadataCompletion.finished_ok hfinished).1

/-- The progress of a completion stays true past the commits of others. -/
theorem MetadataProgress.stable {w' : Db} {stage : MetadataStage}
    (h : MetadataProgress db w completion stage) (hapart : w.Apart w') :
    MetadataProgress (db.overlay w') w completion stage := by
  cases h with
  | job hw => exact MetadataProgress.job hw
  | video hjobs hvideos =>
      exact MetadataProgress.video (hjobs.stable hapart) hvideos
  | stale hw => exact MetadataProgress.stale hw
  | done hjobs hvideos hall =>
      refine MetadataProgress.done (hjobs.stable hapart) (fun v' hv' => ?_)
        hall
      obtain ⟨v, hv, hid, hlooked⟩ := hvideos v' hv'
      exact ⟨v, mem_overlay_of_apart hapart.2.2.2.2.1 hv hv' hlooked.videoID,
        hid, hlooked⟩

/-- Each statement of a completion carries its progress on. -/
theorem metadata_progress {stage : MetadataStage}
    (hjobs : ∀ j ∈ db.jobs, ∃ v ∈ db.videos, v.videoID = j.videoID)
    (h : MetadataProgress db w completion stage) {f}
    (hf : completion.statement stage = some f) {r : Written × MetadataStage}
    (hr : f (db.overlay w) = .ok r) :
    MetadataProgress db (w.overlay r.1.written) completion r.2 := by
  cases h with
  | job hw =>
      cases hf
      rw [hw, overlay_empty] at hr
      rw [hw, empty_overlay]
      rcases MetadataCompletion.updateJob_ok hr with
        ⟨rfl, -⟩ | ⟨j, hj, hheld, j', hfinished, rfl⟩
      · exact MetadataProgress.stale rfl
      · exact MetadataProgress.video ⟨j, hj, hheld, j', hfinished, rfl⟩ rfl
  | video htaken hvideos =>
      cases hf
      obtain ⟨hstage, rows, heffect, hrows⟩ :=
        MetadataCompletion.updateVideo_ok hr
      have hview : (db.overlay w).videos = db.videos := by
        show db.videos.overlay w.videos = db.videos
        rw [hvideos, Table.overlay_empty]
      have hall : ∀ n, completion.lookup.durationSeconds = .ok n →
          ∀ v ∈ (db.overlay w).videos, v.videoID = completion.job.videoID →
            ∃ v' ∈ r.1.written.videos, v'.videoID = v.videoID :=
        fun _ hn _ => MetadataCompletion.updateVideo_all hr hn
      rw [heffect] at hall
      rw [hstage, heffect]
      have hwritten : (w.overlay { Db.empty with videos := rows }).videos
          = rows := by
        show w.videos.overlay rows = rows
        rw [hvideos, Table.empty_overlay]
      refine MetadataProgress.done ?_ ?_ ?_
      · rw [show (w.overlay { Db.empty with videos := rows }).jobs = w.jobs
          from Table.overlay_empty _]
        exact htaken
      · rw [hwritten]
        intro v' hv'
        obtain ⟨v, hv, hchange⟩ := hrows v' hv'
        rw [hview] at hv
        exact ⟨v, hv, hchange.lookedUp⟩
      · rw [hwritten]
        intro n hn
        obtain ⟨j, hj, hheld, -⟩ := htaken.taken
        obtain ⟨v, hv, hid⟩ := hjobs j hj
        rw [← hview] at hv
        obtain ⟨v', hv', hid'⟩ := hall n hn v hv (hid.trans hheld.1)
        exact ⟨v', hv', hid'.trans (hid.trans hheld.1)⟩
  | stale => cases hf
  | done => cases hf

theorem Next.looks {txn txn' : Txn} {videoID : VideoID}
    {effect : Written} (h : Next txn (db.overlay w) videoID effect txn')
    (hjobs : ∀ j ∈ db.jobs, ∃ v ∈ db.videos, v.videoID = j.videoID)
    (hlooks : txn.Looks db w) :
    txn'.Looks db (w.overlay effect.written) := by
  cases h with
  | setQueueCurrency => trivial
  | complete => trivial
  | completeMetadata hf hr => exact metadata_progress hjobs hlooks hf hr

/-- What a transaction has looked up stays true past the commits of others. -/
theorem lookups_stable {w' : Db} {txn : Txn} (hapart : w.Apart w')
    (h : (∀ j ∈ w.jobs, ∃ v ∈ (db.overlay w).videos, v.videoID = j.videoID)
      ∧ txn.Looks db w) :
    (∀ j ∈ w.jobs, ∃ v ∈ ((db.overlay w').overlay w).videos,
        v.videoID = j.videoID)
      ∧ txn.Looks (db.overlay w') w := by
  refine ⟨fun j hj => ?_, ?_⟩
  · obtain ⟨v, hv, hid⟩ := h.1 j hj
    rcases Table.mem_overlay.mp hv with hv | ⟨hv, -⟩
    · exact ⟨v, Table.mem_overlay.mpr (Or.inl hv), hid⟩
    · exact exists_video (exists_video ⟨v, hv, hid⟩)
  · cases txn with
    | setQueueCurrency => trivial
    | complete => trivial
    | completeMetadata completion stage =>
        exact MetadataProgress.stable h.2 hapart

/-- The lookups are kept by every step. -/
theorem lookups_inductive : Sessions.Inductive programs lookups where
  call hgood hcall :=
    jobs_overlay hgood fun _ hj => (call_wrote hcall).job_video hgood hj
  start {log db sessionID txn} _ hfresh := by
    refine ⟨fun _ hj => absurd hj Table.not_mem_empty, ?_⟩
    cases txn with
    | setQueueCurrency => trivial
    | complete => trivial
    | completeMetadata completion stage =>
        have hstage : stage = .job := of_decide_eq_true hfresh
        rw [hstage]
        exact MetadataProgress.job rfl
  statement {log db s statement draw effect txn} hgood hheld hnext hok := by
    have hstep := statement_next hnext hok
    have hview := jobs_overlay hgood hheld.1
    have hassoc : db.overlay (s.written.overlay effect.written)
        = (db.overlay s.written).overlay effect.written :=
      (Sessions.Versioned.overlay_assoc _ _ _).symm
    refine ⟨fun j hj => ?_, hstep.looks hgood hheld.2⟩
    show ∃ v ∈ (db.overlay (s.written.overlay effect.written)).videos, _
    rw [hassoc]
    rcases Table.mem_overlay.mp hj with hj | ⟨hj, -⟩
    · exact hstep.wrote.job_video hview hj
    · exact exists_video (hheld.1 j hj)
  commit hgood hheld _ := jobs_overlay hgood hheld.1
  stable_call _ hheld _ hlets := lookups_stable hlets.1 hheld
  stable_commit _ hheld _ _ hlets := lookups_stable hlets.1 hheld

-- ==================================== commit

/-- What the commit behind a lookup does to the store. -/
structure MetadataCompleted (completion : MetadataCompletion)
    (before after : Db) : Prop where
  /-- The claimed generation is the current one, its lease runs, and its
  job has come to its end. -/
  finished : ∃ j ∈ before.jobs, j.HeldBy completion.job completion.now
    ∧ ∃ j' ∈ after.jobs, completion.finished j = .ok j'
  videos : ∀ v' ∈ after.videos, v' ∈ before.videos
    ∨ ∃ v ∈ before.videos, v.videoID = completion.job.videoID
      ∧ LookedUp completion v v'
  /-- Right after a successful lookup its video ends within its duration,
  unless it starts after it. -/
  within : ∀ n, completion.lookup.durationSeconds = .ok n →
    ∀ v' ∈ after.videos, v'.videoID = completion.job.videoID →
      ∃ d, v'.durationSeconds = some d ∧ (d.1 : Int) = n
        ∧ (v'.startSeconds.1 < d.1 →
          ∃ e, v'.endSeconds = some e ∧ e.1 ≤ d.1)

theorem MetadataProgress.completed
    (h : MetadataProgress db w completion .commit) :
    (w = .empty ∧ db.overlay w = db)
      ∨ (∃ j', j' ∈ w.jobs)
        ∧ MetadataCompleted completion db (db.overlay w) := by
  cases h with
  | stale hw =>
      refine Or.inl ⟨hw, ?_⟩
      rw [hw, overlay_empty]
  | done hjobs hvideos hall =>
      obtain ⟨j, hj, hheld, j', hfinished, hrow⟩ := hjobs.taken
      have hj' : j' ∈ w.jobs := by
        rw [hrow]
        exact Table.mem_row.mpr rfl
      refine Or.inr ⟨⟨j', hj'⟩, ⟨j, hj, hheld, j', ?_, hfinished⟩,
        fun v' hv' => ?_, fun n hn v' hv' hid => ?_⟩
      · exact Table.mem_overlay.mpr (Or.inl hj')
      · rcases Table.mem_overlay.mp hv' with hw | ⟨hdb, -⟩
        · exact Or.inr (hvideos v' hw)
        · exact Or.inl hdb
      · obtain ⟨v, hv, hvid⟩ := hall n hn
        have heq : v = v' := Table.eq_of_key
          (Table.mem_overlay.mpr (Or.inl hv)) hv' (hvid.trans hid.symm)
        obtain ⟨v₀, -, -, hlooked⟩ := hvideos v hv
        rw [← heq]
        exact hlooked.within n hn

/-- The next step of a transaction behind a lookup, by its stage. The
guard decides: with the job in the hands of the worker its row is taken,
and otherwise the transaction goes to its commit with nothing written.
The commit of one that has taken its job completes the lookup; that of
one that has not changes nothing. Before the commit a statement waits
while another session is in its way, and one that fails ends the
transaction. -/
inductive MetadataStep (completion : MetadataCompletion) (w : World)
    (s : Sessions.Session Db UserLock Txn) : MetadataStage → World → Prop
  | stale
      (hstale : ∀ j ∈ w.db.jobs,
        ¬ j.HeldBy completion.job completion.now) :
      MetadataStep completion w s .job (w.extend s.sessionID
        { written := .empty } (.completeMetadata completion .commit))
  | taken {j j' : MetadataJob} (hj : j ∈ w.db.jobs)
      (hheld : j.HeldBy completion.job completion.now)
      (hfinished : completion.finished j = .ok j') :
      MetadataStep completion w s .job (w.extend s.sessionID
        { written := { Db.empty with jobs := .row _ j' } }
        (.completeMetadata completion .video))
  | waits {j j' : MetadataJob} (hj : j ∈ w.db.jobs)
      (hheld : j.HeldBy completion.job completion.now)
      (hfinished : completion.finished j = .ok j')
      (hbusy : ¬ w.Free programs (some s.sessionID)
        { written := { Db.empty with jobs := .row _ j' } }) :
      MetadataStep completion w s .job w
  | refused {j : MetadataJob} {e : StoreError} (hj : j ∈ w.db.jobs)
      (hheld : j.HeldBy completion.job completion.now)
      (hfinished : completion.finished j = .error e) :
      MetadataStep completion w s .job (w.drop s.sessionID)
  | wrote {effect : Written}
      (hvideo : completion.updateVideo (w.view s)
        = .ok (effect, .commit)) :
      MetadataStep completion w s .video (w.extend s.sessionID effect
        (.completeMetadata completion .commit))
  | blocked {effect : Written}
      (hvideo : completion.updateVideo (w.view s)
        = .ok (effect, .commit))
      (hbusy : ¬ w.Free programs (some s.sessionID) effect) :
      MetadataStep completion w s .video w
  | failed {e : StoreError}
      (hvideo : completion.updateVideo (w.view s) = .error e) :
      MetadataStep completion w s .video (w.drop s.sessionID)
  | unchanged {w' : World} (hwritten : s.written = .empty)
      (hdb : w'.db = w.db) : MetadataStep completion w s .commit w'
  | completed {w' : World} (htaken : ∃ j', j' ∈ s.written.jobs)
      (hdone : MetadataCompleted completion w.db w'.db) :
      MetadataStep completion w s .commit w'

/-- The guard reads the committed jobs: its transaction has written
nothing yet. -/
theorem metadataStep_job {w : World} {s : Sessions.Session Db UserLock Txn}
    (hs : s ∈ w.sessions) (htxn : s.txn = .completeMetadata completion .job)
    (hempty : s.written = .empty) (draw : VideoID) :
    MetadataStep completion w s .job
      (Sessions.step programs w (.proceed s.sessionID draw)) := by
  have hview : w.view s = w.db := by
    show w.db.overlay s.written = w.db
    rw [hempty, overlay_empty]
  have hnext : programs.statement s.txn = some fun db _ =>
      (completion.updateJob db).map fun r =>
        (r.1, .completeMetadata completion r.2) := by
    rw [htxn]
    rfl
  cases hguard : completion.updateJob w.db with
  | error e =>
      rw [Sessions.step_failed hs hnext (e := e)
        (by rw [hview, hguard]; rfl)]
      obtain ⟨j, hj, hheld, hfinished⟩ :=
        MetadataCompletion.updateJob_error hguard
      exact .refused hj hheld hfinished
  | ok r =>
      have hok : (completion.updateJob (w.view s)).map (fun r =>
          (r.1, Txn.completeMetadata completion r.2))
            = .ok (r.1, .completeMetadata completion r.2) := by
        rw [hview, hguard]
        rfl
      rcases MetadataCompletion.updateJob_ok hguard with
        ⟨rfl, hstale⟩ | ⟨j, hj, hheld, j', hfinished, rfl⟩
      · rw [Sessions.step_ran hs hnext hok (w.free_nothing _)]
        exact .stale hstale
      · by_cases hfree : w.Free programs (some s.sessionID)
            { written := { Db.empty with jobs := .row _ j' } }
        · rw [Sessions.step_ran hs hnext hok hfree]
          exact .taken hj hheld hfinished
        · rw [Sessions.step_waits hs hnext hok hfree]
          exact .waits hj hheld hfinished hfree

/-- The statement that writes the looked-up video, in full. -/
theorem metadataStep_video {w : World} {s : Sessions.Session Db UserLock Txn}
    (hs : s ∈ w.sessions) (htxn : s.txn = .completeMetadata completion .video)
    (draw : VideoID) :
    MetadataStep completion w s .video
      (Sessions.step programs w (.proceed s.sessionID draw)) := by
  have hnext : programs.statement s.txn = some fun db _ =>
      (completion.updateVideo db).map fun r =>
        (r.1, .completeMetadata completion r.2) := by
    rw [htxn]
    rfl
  cases hvideo : completion.updateVideo (w.view s) with
  | error e =>
      rw [Sessions.step_failed hs hnext (e := e) (by rw [hvideo]; rfl)]
      exact .failed hvideo
  | ok r =>
      obtain ⟨effect, stage⟩ := r
      obtain rfl : stage = .commit :=
        (MetadataCompletion.updateVideo_ok hvideo).1
      have hok : (completion.updateVideo (w.view s)).map (fun r =>
          (r.1, Txn.completeMetadata completion r.2))
            = .ok (effect, .completeMetadata completion .commit) := by
        rw [hvideo]
        rfl
      by_cases hfree : w.Free programs (some s.sessionID) effect
      · rw [Sessions.step_ran hs hnext hok hfree]
        exact .wrote hvideo
      · rw [Sessions.step_waits hs hnext hok hfree]
        exact .blocked hvideo hfree

/-- A retry leaves a job alone whose lease runs. -/
theorem retryMetadata_keeps {w : World} {userID : UserID}
    {videoID : VideoID} {unseen : Bool} {now : Time} {j : MetadataJob}
    (hj : j ∈ w.db.jobs) (hlease : LeaseHeld now j.leaseExpiresAt) :
    j ∈ (Sessions.step programs w
      (.call (.retryMetadata userID videoID unseen now))).db.jobs := by
  rcases Sessions.step_call w (Call.retryMetadata userID videoID unseen now)
    with hw | ⟨effect, hcall, hw⟩
  · rw [hw]
    exact hj
  · rw [hw]
    refine Table.mem_overlay.mpr (Or.inr ⟨hj, fun j' hj' hid => ?_⟩)
    have hwrote : Wrote w.db
        (.inl (.retryMetadata userID videoID unseen now)) effect.written :=
      call_wrote hcall
    have hwrite := hwrote.jobs j' hj'
    cases hwrite with
    | new h _ => exact h.1 j hj hid.symm
    | retried hj₀ _ hretriable he =>
        have heq : _ = j := Table.eq_of_key hj₀ hj (by rw [← hid, he])
        obtain ⟨lease, hmem, hlt⟩ := hlease
        rw [heq] at hretriable
        exact absurd (hretriable.1 lease hmem) (not_le.mpr hlt)

/-- A claim of a job writes no video. -/
theorem claimMetadata_videos {w : World} {locked : List VideoID}
    {now : Time} {v : Video} :
    v ∈ (Sessions.step programs w
        (.call (.claimMetadata locked now))).db.videos
      ↔ v ∈ w.db.videos := by
  rcases Sessions.step_call w (Call.claimMetadata locked now)
    with hw | ⟨effect, hcall, hw⟩
  · rw [hw]
  · rw [hw]
    obtain ⟨r, hr, rfl⟩ := map_eq_ok hcall
    have hvideos : r.1.written.videos = .empty := by
      rcases claimMetadata_ok hr with rfl | ⟨j, -, -, attempts, rfl⟩
      · rfl
      · rfl
    show v ∈ w.db.videos.overlay r.1.written.videos ↔ v ∈ w.db.videos
    rw [hvideos, Table.overlay_empty]

/-- In every reachable world: a set end is after the start; a claim writes
no video; a completion goes on as `MetadataStep` says, so that one whose
claim is stale changes nothing and one that holds its job ends in
`MetadataCompleted`, and commits nothing before; a retry leaves a leased
job alone. -/
theorem lookups_fenced (actions : List Action) :
    (∀ v ∈ (World.after actions).db.videos, ∀ e, v.endSeconds = some e →
        v.startSeconds.1 < e.1)
      ∧ (∀ locked now v, v ∈ (Sessions.step programs (World.after actions)
            (.call (.claimMetadata locked now))).db.videos
          ↔ v ∈ (World.after actions).db.videos)
      ∧ (∀ s ∈ (World.after actions).sessions, ∀ completion stage,
        s.txn = .completeMetadata completion stage → ∀ draw,
          MetadataStep completion (World.after actions) s stage
              (Sessions.step programs (World.after actions)
                (.proceed s.sessionID draw))
            ∧ (stage ≠ .commit →
              (Sessions.step programs (World.after actions)
                (.proceed s.sessionID draw)).db
                  = (World.after actions).db))
      ∧ ∀ userID videoID unseen now, ∀ j ∈ (World.after actions).db.jobs,
        LeaseHeld now j.leaseExpiresAt →
          j ∈ (Sessions.step programs (World.after actions)
            (.call (.retryMetadata userID videoID unseen now))).db.jobs := by
  have hw := reachable_after actions
  obtain ⟨-, hheld⟩ := lookups_inductive.reachable
    (fun _ hj => absurd hj Table.not_mem_empty) hw
  refine ⟨fun v _ e he => v.timed e he, fun _ _ _ => claimMetadata_videos,
    ?_, fun _ _ _ _ j hj hlease => retryMetadata_keeps hj hlease⟩
  intro s hs completion stage htxn draw
  have hlooks := (hheld s hs).2
  rw [htxn] at hlooks
  cases hstage : stage with
  | commit =>
      refine ⟨?_, fun hne => absurd rfl hne⟩
      have hend : programs.statement s.txn = none := by
        rw [htxn, hstage]
        rfl
      rw [hstage] at hlooks
      rw [Sessions.step_commit hs hend draw]
      rcases MetadataProgress.completed hlooks with
        ⟨hempty, hsame⟩ | ⟨htaken, hcompleted⟩
      · exact .unchanged hempty hsame
      · exact .completed htaken hcompleted
  | job =>
      rw [hstage] at htxn hlooks
      obtain ⟨statement, hnext⟩ : ∃ statement,
          programs.statement s.txn = some statement := by
        rw [htxn]
        exact ⟨_, rfl⟩
      refine ⟨metadataStep_job hs htxn ?_ draw,
        fun _ => (Sessions.step_statement hs hnext draw).1⟩
      cases hlooks with
      | job hempty => exact hempty
  | video =>
      rw [hstage] at htxn
      obtain ⟨statement, hnext⟩ : ∃ statement,
          programs.statement s.txn = some statement := by
        rw [htxn]
        exact ⟨_, rfl⟩
      exact ⟨metadataStep_video hs htxn draw,
        fun _ => (Sessions.step_statement hs hnext draw).1⟩

end StreamBrew.Videos
