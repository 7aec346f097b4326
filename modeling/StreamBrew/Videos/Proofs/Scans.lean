/-
The scan of a donation is completed at most once, by the worker that
holds it.

# The argument

The guard of a completion writes the row of the scan, so nobody else
writes that row before the completion commits: the row that it found in
its hands is still the committed one then (`Completing.stable`). A
version of a scan never replaces a completed row (`ScanVersion`), and a
video of a donation comes with the commit of a completion of its scan
(`ScanLands`). So the log has one completion of a donation or none, and
its videos are the rows of that commit (`ScanHistory`). A generation is
the claim of one worker, as a claim advances it (`Fenced`).
-/
import StreamBrew.Videos.Proofs.Metadata

namespace StreamBrew.Videos

open Relational
open Alert (UserID DonationID Time)

-- =================================== history

/-- A completion of the scan of a donation. -/
def completes (donationID : DonationID) : Source → Bool
  | .inr (.complete completion _) => completion.job.donationID = donationID
  | _ => false

/-- The write is that of a claim. -/
def isClaim : Source → Bool
  | .inl (.claim _ _ _) => true
  | _ => false

/-- A claim of the scan of a donation, with the generation it draws. -/
def claims (donationID : DonationID) (generation : Nat) (c : Commit) :
    Bool :=
  isClaim c.source && c.written.scans.rows.any fun s =>
    decide (s.donationID = donationID ∧ s.generation = generation)

/-- The row of the first of the scanned videos with its id. -/
def ScannedAs (videos : List ScannedVideo) (donationID : DonationID)
    (v : Video) : Prop :=
  ∃ video, videos.find? (fun x => x.providerVideoID = v.providerVideoID)
      = some video
    ∧ ∃ queueAmount, v.toVideoValues
      = (video.values donationID queueAmount v.videoID).placed
        v.videoQueueID v.videoPriorityID

/-- The rows of all scanned videos, one an id. -/
structure ScannedRows (videos : List ScannedVideo) (donationID : DonationID)
    (rows : Table fun v : Video => v.videoID) : Prop where
  each : ∀ v ∈ rows, ScannedAs videos donationID v
  all : ∀ video ∈ videos, ∃ v ∈ rows,
    v.providerVideoID = video.providerVideoID
  one : ∀ v ∈ rows, ∀ v' ∈ rows,
    v.providerVideoID = v'.providerVideoID → v = v'

/-- What the log and the tables say of the scan of a donation. -/
inductive ScanHistory (log : List Commit) (db : Db)
    (donationID : DonationID) : Prop
  | waiting (hlog : log.filter (fun c => completes donationID c.source) = [])
      (hscan : ∀ s ∈ db.scans, s.donationID = donationID →
        s.completedAt = none)
      (hvideos : ∀ v ∈ db.videos, v.donationID ≠ some donationID)
  | completed (c : Commit) (completion : Completion)
      (hsource : c.source = .inr (.complete completion .commit))
      (hlog : log.filter (fun c => completes donationID c.source) = [c])
      (hscan : ∃ s ∈ db.scans, s.donationID = donationID
        ∧ s.completedAt.isSome)
      (hrows : ScannedRows completion.videos donationID c.written.videos)
      (hvideos : ∀ source : VideoSource,
        source.donationID = some donationID →
          ((∃ v ∈ db.videos, v.source = source)
            ↔ ∃ v ∈ c.written.videos, v.source = source))

/-- The generations of the committed claims, and that each is drawn
once. -/
structure Fenced (log : List Commit) (db : Db) : Prop where
  current : ∀ c ∈ log, ∀ donationID generation,
    claims donationID generation c = true →
      ∃ s ∈ db.scans, s.donationID = donationID ∧ generation ≤ s.generation
  once : ∀ donationID generation,
    (log.filter (claims donationID generation)).length ≤ 1

-- =================================== effects

/-- A completion that passed its guard has written the rows of some of
its videos. -/
structure Completing (db w : Db) (completion : Completion)
    (done : List ScannedVideo) : Prop where
  scan : ∃ s ∈ db.scans, s.HeldBy completion.job completion.now
    ∧ w.scans = .row _ (s.complete completion.now)
  fresh : ∀ v ∈ w.videos, ∀ x ∈ db.videos, x.videoID ≠ v.videoID
  scanned : ScannedRows done completion.job.donationID w.videos

/-- A version of a scan, against the row it replaces. -/
structure ScanVersion (db : Db) (source : Source) (s : VideoScan) :
    Prop where
  replaced : ∀ s₀ ∈ db.scans, s₀.donationID = s.donationID →
    s₀.completedAt = none ∧ s₀.generation ≤ s.generation
  completed : s.completedAt.isSome → completes s.donationID source = true
  claimed : isClaim source = true → ∀ s₀ ∈ db.scans,
    s₀.donationID = s.donationID → s₀.generation < s.generation

/-- A version of a video is that of a row, or new; one of a donation
comes with a completion. -/
def VideoVersion (db : Db) (source : Source) (v : Video) : Prop :=
  (∃ old ∈ db.videos, v.source = old.source)
    ∨ (∀ x ∈ db.videos, x.videoID ≠ v.videoID)
      ∧ ∀ donationID, v.donationID = some donationID →
        completes donationID source = true

/-- What is known of an effect on the scans when it commits. -/
structure ScanLands (db : Db) (source : Source) (w : Db) : Prop where
  videos : ∀ v ∈ w.videos, VideoVersion db source v
  scans : ∀ s ∈ w.scans, ScanVersion db source s
  complete : ∀ completion stage, source = .inr (.complete completion stage) →
    stage = .commit ∧ Completing db w completion completion.videos

theorem completes_eq_true {donationID : DonationID} {source : Source}
    (h : completes donationID source = true) :
    ∃ completion stage, source = .inr (.complete completion stage)
      ∧ completion.job.donationID = donationID := by
  unfold completes at h
  split at h
  case h_1 completion stage =>
    exact ⟨completion, stage, rfl, of_decide_eq_true h⟩
  case h_2 => cases h

theorem claims_eq_true {donationID : DonationID} {generation : Nat}
    {c : Commit} (h : claims donationID generation c = true) :
    isClaim c.source = true ∧ ∃ s ∈ c.written.scans,
      s.donationID = donationID ∧ s.generation = generation := by
  obtain ⟨hclaim, hany⟩ := Bool.and_eq_true_iff.mp h
  obtain ⟨s, hs, hrow⟩ := List.any_eq_true.mp hany
  exact ⟨hclaim, s, hs, of_decide_eq_true hrow⟩

section Lands

variable {log : List Commit} {db w : Db} {source : Source}
  {donationID : DonationID}

/-- A completed scan is never replaced. -/
theorem ScanLands.keeps_completed (h : ScanLands db source w)
    {s : VideoScan} (hs : s ∈ db.scans) (hdone : s.completedAt.isSome) :
    s ∈ (db.overlay w).scans := by
  refine Table.mem_overlay.mpr (Or.inr ⟨hs, fun s' hs' hid => ?_⟩)
  have hnone := ((h.scans s' hs').replaced s hs hid.symm).1
  rw [hnone] at hdone
  cases hdone

/-- A version keeps where a video comes from. -/
theorem ScanLands.keeps_source (h : ScanLands db source w) {v : Video}
    (hv : v ∈ db.videos) :
    ∃ v' ∈ (db.overlay w).videos, v'.source = v.source := by
  obtain ⟨v', hv', hid, rfl | hw⟩ := Table.exists_overlay (w := w.videos) hv
  · exact ⟨v', hv', rfl⟩
  · rcases h.videos v' hw with ⟨old, hold, hsource⟩ | ⟨hfresh, -⟩
    · have heq : old = v := Table.eq_of_key hold hv
        ((source_videoID hsource).symm.trans hid)
      exact ⟨v', hv', by rw [hsource, heq]⟩
    · exact absurd hid.symm (hfresh v hv)

/-- Beside a completion, no video of the donation is new. -/
theorem ScanLands.source_known (h : ScanLands db source w)
    (hnot : completes donationID source = false) {v : Video}
    (hv : v ∈ (db.overlay w).videos) (hd : v.donationID = some donationID) :
    ∃ v₀ ∈ db.videos, v₀.source = v.source := by
  rcases Table.mem_overlay.mp hv with hw | ⟨hdb, -⟩
  · rcases h.videos v hw with ⟨old, hold, hsource⟩ | ⟨-, hcompletes⟩
    · exact ⟨old, hold, hsource.symm⟩
    · rw [hcompletes donationID hd] at hnot
      cases hnot
  · exact ⟨v, hdb, rfl⟩

theorem source_donationID {v w : VideoValues} (h : v.source = w.source) :
    v.donationID = w.donationID := congrArg VideoSource.donationID h

theorem ScannedAs.donation {videos : List ScannedVideo} {v : Video}
    (h : ScannedAs videos donationID v) : v.donationID = some donationID := by
  obtain ⟨video, -, amount, hv⟩ := h
  rw [hv]
  rfl

/-- The history of a donation whose scan the effect does not complete. -/
theorem ScanHistory.keep (h : ScanHistory log db donationID)
    (hw : ScanLands db source w)
    (hnot : completes donationID source = false) :
    ScanHistory (log ++ [⟨source, w⟩]) (db.overlay w) donationID := by
  have hfilter : (log ++ [(⟨source, w⟩ : Commit)]).filter
        (fun c : Commit => completes donationID c.source)
      = log.filter fun c => completes donationID c.source := by
    rw [List.filter_append]
    simp [hnot]
  cases h with
  | waiting hlog hscan hvideos =>
      refine ScanHistory.waiting (hfilter.trans hlog) (fun s hs hd => ?_)
        fun v hv hd => ?_
      · rcases Table.mem_overlay.mp hs with hsw | ⟨hdb, -⟩
        · cases hc : s.completedAt with
          | none => rfl
          | some t =>
              have hcompletes := (hw.scans s hsw).completed
                (by rw [hc]; rfl)
              rw [hd, hnot] at hcompletes
              cases hcompletes
        · exact hscan s hdb hd
      · obtain ⟨v₀, hv₀, hsource⟩ := hw.source_known hnot hv hd
        exact hvideos v₀ hv₀ ((source_donationID hsource).trans hd)
  | completed c completion hsource hlog hscan hrows hvideos =>
      refine ScanHistory.completed c completion hsource
        (hfilter.trans hlog) ?_ hrows fun key hkey => ?_
      · obtain ⟨s, hs, hd, hdone⟩ := hscan
        exact ⟨s, hw.keeps_completed hs hdone, hd, hdone⟩
      · rw [← hvideos key hkey]
        constructor
        · intro ⟨v, hv, hvkey⟩
          have hd : v.donationID = some donationID := by
            rw [← hkey, ← hvkey]
            rfl
          obtain ⟨v₀, hv₀, hv₀source⟩ := hw.source_known hnot hv hd
          exact ⟨v₀, hv₀, hv₀source.trans hvkey⟩
        · intro ⟨v, hv, hvkey⟩
          obtain ⟨v', hv', hv'source⟩ := hw.keeps_source hv
          exact ⟨v', hv', hv'source.trans hvkey⟩

/-- The history of a donation whose scan the effect completes. -/
theorem ScanHistory.complete {completion : Completion}
    (h : ScanHistory log db completion.job.donationID)
    (hw : Completing db w completion completion.videos) :
    ScanHistory (log ++ [⟨.inr (.complete completion .commit), w⟩])
      (db.overlay w) completion.job.donationID := by
  obtain ⟨s, hs, ⟨hid, -, hopen, -⟩, hscans⟩ := hw.scan
  cases h with
  | completed c completion' hsource hlog hscan hrows hvideos =>
      exfalso
      obtain ⟨s', hs', hid', hdone⟩ := hscan
      rw [Table.eq_of_key hs' hs (hid'.trans hid.symm)] at hdone
      rw [Option.isNone_iff_eq_none.mp hopen] at hdone
      cases hdone
  | waiting hlog hscan hvideos =>
      refine ScanHistory.completed ⟨.inr (.complete completion .commit), w⟩
        completion rfl ?_ ?_ hw.scanned fun key hkey => ?_
      · rw [List.filter_append, hlog]
        simp [completes]
      · refine ⟨s.complete completion.now, Table.mem_overlay.mpr (Or.inl ?_),
          hid, rfl⟩
        rw [hscans]
        exact Table.mem_row.mpr rfl
      · constructor
        · intro ⟨v, hv, hvkey⟩
          rcases Table.mem_overlay.mp hv with hvw | ⟨hdb, -⟩
          · exact ⟨v, hvw, hvkey⟩
          · refine absurd ?_ (hvideos v hdb)
            rw [← hkey, ← hvkey]
            rfl
        · intro ⟨v, hv, hvkey⟩
          exact ⟨v, Table.mem_overlay.mpr (Or.inl hv), hvkey⟩

theorem ScanHistory.lands (h : ∀ d, ScanHistory log db d)
    (hw : ScanLands db source w) (donationID : DonationID) :
    ScanHistory (log ++ [⟨source, w⟩]) (db.overlay w) donationID := by
  cases hc : completes donationID source with
  | false => exact (h donationID).keep hw hc
  | true =>
      obtain ⟨completion, stage, rfl, rfl⟩ := completes_eq_true hc
      obtain ⟨rfl, hcompleting⟩ := hw.complete completion stage rfl
      exact (h _).complete hcompleting

/-- A commit that lands keeps the fences. -/
theorem Fenced.lands (h : Fenced log db) (hw : ScanLands db source w) :
    Fenced (log ++ [⟨source, w⟩]) (db.overlay w) where
  current c hc d g hclaims := by
    rcases List.mem_append.mp hc with hc | hc
    · obtain ⟨s, hs, hid, hle⟩ := h.current c hc d g hclaims
      obtain ⟨s', hs', hid', rfl | hsw⟩ :=
        Table.exists_overlay (w := w.scans) hs
      · exact ⟨s', hs', hid, hle⟩
      · have hgen := ((hw.scans s' hsw).replaced s hs hid'.symm).2
        exact ⟨s', hs', hid'.trans hid, hle.trans hgen⟩
    · rw [List.mem_singleton.mp hc] at hclaims
      obtain ⟨-, s, hs, hid, hg⟩ := claims_eq_true hclaims
      exact ⟨s, Table.mem_overlay.mpr (Or.inl hs), hid, hg.ge⟩
  once d g := by
    rw [List.filter_append, List.length_append]
    cases hnew : claims d g ⟨source, w⟩ with
    | false => simpa [hnew] using h.once d g
    | true =>
        obtain ⟨hclaim, s, hs, hid, hg⟩ := claims_eq_true hnew
        -- an earlier claim of the generation is behind that of the row
        have hnone : log.filter (claims d g) = [] := by
          refine List.filter_eq_nil_iff.mpr fun c hc hclaims => ?_
          obtain ⟨s₀, hs₀, hid₀, hle⟩ := h.current c hc d g hclaims
          have hlt := (hw.scans s hs).claimed hclaim s₀ hs₀
            (hid₀.trans hid.symm)
          omega
        simp [hnone, hnew]

end Lands

-- ===================================== calls

theorem VideoWrite.version {db : Db} {call : Call} {v : Video}
    (h : VideoWrite db (.inl call) v) : VideoVersion db (.inl call) v := by
  generalize hs : (Sum.inl call : Source) = source at h
  cases h with
  | added hfree _ hdonation hstored =>
      refine Or.inr ⟨hfree, fun d hd => ?_⟩
      rw [hstored.values] at hd
      exact absurd (hdonation.symm.trans hd) (by simp)
  | scanned => cases hs
  | changed hold hchange => exact Or.inl ⟨_, hold, hchange.keeps_source⟩

theorem ScanWrite.version {db : Db} {call : Call} {s : VideoScan}
    (h : ScanWrite db (.inl call) s) : ScanVersion db (.inl call) s := by
  generalize hs : (Sum.inl call : Source) = source at h
  cases h with
  | new hnew =>
      obtain ⟨hfree, -, hopen, -⟩ := hnew
      refine ⟨fun s₀ hs₀ hid => absurd hid (hfree s₀ hs₀), fun hdone => ?_,
        fun _ s₀ hs₀ hid => absurd hid (hfree s₀ hs₀)⟩
      rw [Option.isNone_iff_eq_none.mp hopen] at hdone
      cases hdone
  | @claimed locked now leaseDuration s attempts hs' hclaimable =>
      have hsame : ∀ s₀ ∈ db.scans, s₀.donationID = s.donationID → s₀ = s :=
        fun s₀ hs₀ hid => Table.eq_of_key hs₀ hs' hid
      refine ⟨fun s₀ hs₀ hid => ?_, fun hdone => (by cases hdone),
        fun _ s₀ hs₀ hid => ?_⟩
      · rw [hsame s₀ hs₀ hid]
        exact ⟨Option.isNone_iff_eq_none.mp hclaimable.1, Nat.le_succ _⟩
      · rw [hsame s₀ hs₀ hid]
        exact Nat.lt_succ_self _
  | @retried job availableAt now s hs' hheld =>
      have hopen : s.completedAt = none :=
        Option.isNone_iff_eq_none.mp hheld.2.2.1
      refine ⟨fun s₀ hs₀ hid => ?_, fun hdone => ?_,
        fun hclaim => by cases hclaim⟩
      · rw [Table.eq_of_key hs₀ hs' hid]
        exact ⟨hopen, le_rfl⟩
      · change s.completedAt.isSome = true at hdone
        rw [hopen] at hdone
        cases hdone
  | completed => cases hs

theorem call_scan_lands {call : Call} {db : Db} {effect : Written}
    (h : call.perform db = .ok effect) :
    ScanLands db (.inl call) effect.written where
  videos v hv := ((call_wrote h).videos v hv).version
  scans s hs := ((call_wrote h).scans s hs).version
  complete _ _ hs := by cases hs

-- ============================== transactions

/-- The scanned videos that a completion has still to write. -/
def Completion.left (completion : Completion) :
    CompleteStage → List ScannedVideo
  | .guard | .convert => completion.videos
  | .insert _ videos => videos
  | .parsed | .commit => []

/-- What an open completion has written, by its stage. -/
def ScanProgress (db w : Db) (completion : Completion)
    (stage : CompleteStage) : Prop :=
  stage = .guard ∧ w = .empty
    ∨ stage ≠ .guard ∧ ∃ done, done ++ completion.left stage
        = completion.videos
      ∧ Completing db w completion done

/-- What is known of the rows of an open transaction. -/
def Txn.Scans (db w : Db) : Txn → Prop
  | .complete completion stage => ScanProgress db w completion stage
  | _ => (∀ s, s ∉ w.scans) ∧ ∀ v ∈ w.videos, ∃ old ∈ db.videos,
      v.source = old.source

theorem scannedRows_nil (donationID : DonationID) :
    ScannedRows [] donationID .empty where
  each _ hv := absurd hv Table.not_mem_empty
  all _ hvideo := by cases hvideo
  one _ hv := absurd hv Table.not_mem_empty

/-- One more of the scanned videos, new to the donation. -/
theorem ScannedRows.insert {done : List ScannedVideo}
    {donationID : DonationID} {rows : Table fun v : Video => v.videoID}
    (h : ScannedRows done donationID rows) {video : ScannedVideo}
    {v : Video} {queueAmount : Option Money}
    (hv : v.toVideoValues = (video.values donationID queueAmount
      v.videoID).placed v.videoQueueID v.videoPriorityID)
    (hnew : ∀ x ∈ rows, x.providerVideoID ≠ video.providerVideoID)
    (hfree : ∀ x ∈ rows, x.videoID ≠ v.videoID) :
    ScannedRows (done ++ [video]) donationID (rows.overlay (.row _ v)) := by
  have hprovider : v.providerVideoID = video.providerVideoID := by
    rw [hv]
    rfl
  have hmem : ∀ x, x ∈ rows.overlay (.row _ v) ↔ x = v ∨ x ∈ rows := by
    intro x
    rw [Table.mem_overlay, Table.mem_row]
    constructor
    · rintro (rfl | ⟨hx, -⟩)
      · exact Or.inl rfl
      · exact Or.inr hx
    · rintro (rfl | hx)
      · exact Or.inl rfl
      · refine Or.inr ⟨hx, fun y hy => ?_⟩
        rw [Table.mem_row.mp hy]
        exact (hfree x hx).symm
  refine ⟨fun x hx => ?_, fun video' hvideo' => ?_,
    fun x hx y hy hxy => ?_⟩
  · rcases (hmem x).mp hx with rfl | hx
    · refine ⟨video, ?_, queueAmount, hv⟩
      -- none of those before has the id, as none of the rows has it
      have hnone : done.find? (fun y =>
          decide (y.providerVideoID = x.providerVideoID)) = none := by
        refine List.find?_eq_none.mpr fun y hy he => ?_
        obtain ⟨z, hz, hzy⟩ := h.all y hy
        exact hnew z hz
          (hzy.trans ((of_decide_eq_true he).trans hprovider))
      rw [List.find?_append, hnone]
      simp [hprovider]
    · obtain ⟨video₀, hfind, hvalues⟩ := h.each x hx
      refine ⟨video₀, ?_, hvalues⟩
      rw [List.find?_append, hfind]
      rfl
  · rcases List.mem_append.mp hvideo' with hvideo' | hvideo'
    · obtain ⟨x, hx, hid⟩ := h.all video' hvideo'
      exact ⟨x, (hmem x).mpr (Or.inr hx), hid⟩
    · rw [List.mem_singleton.mp hvideo']
      exact ⟨v, (hmem v).mpr (Or.inl rfl), hprovider⟩
  · rcases (hmem x).mp hx with hxv | hxr
    · rcases (hmem y).mp hy with hyv | hyr
      · rw [hxv, hyv]
      · rw [hxv, hprovider] at hxy
        exact absurd hxy.symm (hnew y hyr)
    · rcases (hmem y).mp hy with hyv | hyr
      · rw [hyv, hprovider] at hxy
        exact absurd hxy (hnew x hxr)
      · exact h.one x hxr y hyr hxy

/-- One that the donation has already. -/
theorem ScannedRows.skip {done : List ScannedVideo}
    {donationID : DonationID} {rows : Table fun v : Video => v.videoID}
    (h : ScannedRows done donationID rows) {video : ScannedVideo}
    {x : Video} (hx : x ∈ rows)
    (hid : x.providerVideoID = video.providerVideoID) :
    ScannedRows (done ++ [video]) donationID rows where
  each v hv := by
    obtain ⟨video₀, hfind, hvalues⟩ := h.each v hv
    refine ⟨video₀, ?_, hvalues⟩
    rw [List.find?_append, hfind]
    rfl
  all video' hvideo' := by
    rcases List.mem_append.mp hvideo' with hvideo' | hvideo'
    · exact h.all video' hvideo'
    · rw [List.mem_singleton.mp hvideo']
      exact ⟨x, hx, hid⟩
  one := h.one

section Completing

variable {log : List Commit} {db w : Db} {completion : Completion}
  {done : List ScannedVideo}

/-- The donation of an open scan has no committed video. -/
theorem Completing.no_video (h : Completing db w completion done)
    (hhistory : ScanHistory log db completion.job.donationID) :
    ∀ v ∈ db.videos, v.donationID ≠ some completion.job.donationID := by
  obtain ⟨s, hs, ⟨hid, -, hopen, -⟩, -⟩ := h.scan
  cases hhistory with
  | waiting _ _ hvideos => exact hvideos
  | completed _ _ _ _ hscan _ _ =>
      obtain ⟨s', hs', hid', hcompleted⟩ := hscan
      rw [Table.eq_of_key hs' hs (hid'.trans hid.symm),
        Option.isNone_iff_eq_none.mp hopen] at hcompleted
      cases hcompleted

/-- The last statement writes the donation only. -/
theorem Completing.parsed (h : Completing db w completion done)
    {r : Written × CompleteStage}
    (hr : completion.parsed (db.overlay w) = .ok r) :
    r.2 = .commit ∧ Completing db (w.overlay r.1.written) completion done := by
  obtain ⟨hstage, donations, heffect, -⟩ := Completion.parsed_ok hr
  rw [heffect]
  have hvideos : (w.overlay { Db.empty with donations }).videos
      = w.videos := Table.overlay_empty _
  have hscans : (w.overlay { Db.empty with donations }).scans
      = w.scans := Table.overlay_empty _
  refine ⟨hstage, ?_, ?_, ?_⟩
  · rw [hscans]
    exact h.scan
  · rw [hvideos]
    exact h.fresh
  · rw [hvideos]
    exact h.scanned

/-- An insert of one more video, or of one that the donation has. -/
theorem Completing.insert (h : Completing db w completion done)
    (hhistory : ScanHistory log db completion.job.donationID)
    {amount : Option Money} {video : ScannedVideo}
    {videos : List ScannedVideo} {videoID : VideoID}
    {r : Written × CompleteStage}
    (hr : completion.insert amount video videos videoID (db.overlay w)
      = .ok r) :
    r.2 = .insert amount videos
      ∧ Completing db (w.overlay r.1.written) completion
        (done ++ [video]) := by
  obtain ⟨hstage, hcases⟩ := Completion.insert_ok hr
  refine ⟨hstage, ?_⟩
  have hsub : ∀ x ∈ w.videos, x ∈ (db.overlay w).videos :=
    fun x hx => Table.mem_overlay.mpr (Or.inl hx)
  rcases hcases with ⟨heffect, x, hx, hxd, hxid⟩
    | ⟨v, heffect, hfree, hnew, hstored⟩
  · rw [heffect, overlay_empty]
    refine ⟨h.scan, h.fresh, ?_⟩
    rcases Table.mem_overlay.mp hx with hxw | ⟨hxdb, -⟩
    · exact h.scanned.skip hxw hxid
    · exact absurd hxd (h.no_video hhistory x hxdb)
  · rw [heffect]
    refine ⟨?_, fun x hx y hy he => ?_, ?_⟩
    · obtain ⟨s, hs, hheld, hscans⟩ := h.scan
      refine ⟨s, hs, hheld, ?_⟩
      rw [← hscans]
      exact Table.overlay_empty _
    · rcases Table.mem_overlay.mp hx with hxv | ⟨hxw, -⟩
      · obtain ⟨z, hz, hzid, -⟩ := Table.exists_overlay (w := w.videos) hy
        rw [Table.mem_row.mp hxv] at he
        exact hfree z hz (hzid.trans he)
      · exact h.fresh x hxw y hy he
    · have hid : v.videoID = videoID := by
        rw [hstored.values]
        rfl
      have hvalues := hstored.values
      rw [← hid] at hvalues
      refine h.scanned.insert hvalues (fun x hx => ?_)
        fun x hx => hfree x (hsub x hx)
      exact hnew x (hsub x hx) (h.scanned.each x hx).donation

/-- A completion at its next statement. -/
theorem scan_progress {stage : CompleteStage}
    (hhistory : ScanHistory log db completion.job.donationID)
    (h : ScanProgress db w completion stage) {f}
    (hf : completion.statement stage = some f) {videoID : VideoID}
    {r : Written × CompleteStage}
    (hr : f (db.overlay w) videoID = .ok r) :
    ScanProgress db (w.overlay r.1.written) completion r.2 := by
  rcases h with ⟨rfl, hw⟩ | ⟨hguard, done, hdone, hcompleting⟩
  · cases hf
    rw [hw, overlay_empty] at hr
    obtain ⟨hstage, s, hs, hheld, heffect⟩ := Completion.guard_ok hr
    rw [hw, empty_overlay, heffect, hstage]
    refine Or.inr ⟨?_, [], ?_, ?_⟩
    · split <;> simp
    · split
      case isTrue hnil =>
        rw [List.isEmpty_iff.mp hnil]
        rfl
      case isFalse => rfl
    · exact ⟨⟨s, hs, hheld, rfl⟩, fun _ hv => absurd hv Table.not_mem_empty,
        scannedRows_nil _⟩
  cases stage with
  | guard => exact absurd rfl hguard
  | convert =>
      cases hf
      obtain ⟨_, _, _, _, _, _, amount, _, heffect, hstage⟩ :=
        Completion.convert_ok hr
      rw [heffect, hstage, overlay_empty]
      exact Or.inr ⟨by simp, done, hdone, hcompleting⟩
  | insert amount videos =>
      cases videos with
      | nil =>
          cases hf
          obtain ⟨hstage, hparsed⟩ := hcompleting.parsed hr
          rw [hstage]
          exact Or.inr ⟨by simp, done, hdone, hparsed⟩
      | cons video videos =>
          cases hf
          obtain ⟨hstage, hinserted⟩ := hcompleting.insert hhistory hr
          rw [hstage]
          refine Or.inr ⟨by simp, done ++ [video], ?_, hinserted⟩
          rw [← hdone, List.append_assoc]
          rfl
  | parsed =>
      cases hf
      obtain ⟨hstage, hparsed⟩ := hcompleting.parsed hr
      rw [hstage]
      exact Or.inr ⟨by simp, done, hdone, hparsed⟩
  | commit => cases hf

/-- No other effect touches what an open completion has seen. -/
theorem Completing.stable {w' : Db} (h : Completing db w completion done)
    (hapart : w.Apart w') : Completing (db.overlay w') w completion done where
  scan := by
    obtain ⟨s, hs, hheld, hscans⟩ := h.scan
    refine ⟨s, mem_overlay_of_apart hapart.2.2.2.2.2.1 hs
      (b := s.complete completion.now) ?_ rfl, hheld, hscans⟩
    rw [hscans]
    exact Table.mem_row.mpr rfl
  fresh v hv x hx := by
    rcases Table.mem_overlay.mp hx with hx | ⟨hx, -⟩
    · exact (hapart.2.2.2.2.1 v hv x hx).symm
    · exact h.fresh v hv x hx
  scanned := h.scanned

end Completing

/-- A currency change or a lookup writes no scan and no new video. -/
theorem Wrote.unscanned {db w e : Db} {txn : Txn}
    (h : Wrote (db.overlay w) (.inr txn) e)
    (hnot : ∀ completion stage, txn ≠ .complete completion stage)
    (hscans : ∀ s, s ∉ w.scans)
    (hvideos : ∀ v ∈ w.videos, ∃ old ∈ db.videos, v.source = old.source) :
    (∀ s, s ∉ (w.overlay e).scans)
      ∧ ∀ v ∈ (w.overlay e).videos, ∃ old ∈ db.videos,
        v.source = old.source := by
  refine ⟨fun s hs => ?_, fun v hv => ?_⟩
  · rcases Table.mem_overlay.mp hs with hs | ⟨hs, -⟩
    · have hwrite := h.scans s hs
      generalize hsource : (Sum.inr txn : Source) = source at hwrite
      cases hwrite with
      | new | claimed | retried => cases hsource
      | completed => exact hnot _ _ (Sum.inr.inj hsource)
    · exact hscans s hs
  · rcases Table.mem_overlay.mp hv with hv | ⟨hv, -⟩
    · have hwrite := h.videos v hv
      generalize hsource : (Sum.inr txn : Source) = source at hwrite
      cases hwrite with
      | added => cases hsource
      | scanned => exact absurd (Sum.inr.inj hsource) (hnot _ _)
      | changed hold hchange =>
          rcases Table.mem_overlay.mp hold with hold | ⟨hold, -⟩
          · obtain ⟨old, hold₀, hsame⟩ := hvideos _ hold
            exact ⟨old, hold₀, hchange.keeps_source.trans hsame⟩
          · exact ⟨_, hold, hchange.keeps_source⟩
    · exact hvideos v hv

theorem Txn.Scans.next {log : List Commit} {db w : Db} {txn txn' : Txn}
    {videoID : VideoID} {effect : Written}
    (hhistory : ∀ d, ScanHistory log db d) (h : txn.Scans db w)
    (hnext : Next txn (db.overlay w) videoID effect txn') :
    txn'.Scans db (w.overlay effect.written) := by
  have hwrote := hnext.wrote
  cases hnext with
  | setQueueCurrency =>
      exact hwrote.unscanned (fun _ _ he => by cases he) h.1 h.2
  | complete hf hr => exact scan_progress (hhistory _) h hf hr
  | completeMetadata =>
      exact hwrote.unscanned (fun _ _ he => by cases he) h.1 h.2

/-- The progress of a scan stays true past the commits of others. -/
theorem Txn.Scans.stable {db w w' : Db} {txn : Txn} (h : txn.Scans db w)
    (hapart : w.Apart w') : txn.Scans (db.overlay w') w := by
  have hother : ((∀ s, s ∉ w.scans) ∧ ∀ v ∈ w.videos,
        ∃ old ∈ db.videos, v.source = old.source) →
      (∀ s, s ∉ w.scans) ∧ ∀ v ∈ w.videos,
        ∃ old ∈ (db.overlay w').videos, v.source = old.source := by
    refine fun h => ⟨h.1, fun v hv => ?_⟩
    obtain ⟨old, hold, hsource⟩ := h.2 v hv
    exact ⟨old, mem_overlay_of_apart hapart.2.2.2.2.1 hold hv
      (source_videoID hsource), hsource⟩
  cases txn with
  | setQueueCurrency => exact hother h
  | complete completion stage =>
      rcases h with hguard | ⟨hguard, done, hdone, hcompleting⟩
      · exact Or.inl hguard
      · exact Or.inr ⟨hguard, done, hdone, hcompleting.stable hapart⟩
  | completeMetadata => exact hother h

/-- A transaction that is through lands. -/
theorem Txn.Scans.lands {db w : Db} {txn : Txn} (h : txn.Scans db w)
    (hend : txn.statement = none) : ScanLands db (.inr txn) w := by
  have hother : ((∀ s, s ∉ w.scans) ∧ ∀ v ∈ w.videos,
        ∃ old ∈ db.videos, v.source = old.source) →
      (∀ completion stage, txn ≠ .complete completion stage) →
      ScanLands db (.inr txn) w := by
    refine fun h hnot => ⟨fun v hv => Or.inl (h.2 v hv),
      fun s hs => absurd hs (h.1 s), fun completion stage hs => ?_⟩
    exact absurd (Sum.inr.inj hs) (hnot completion stage)
  cases txn with
  | setQueueCurrency => exact hother h fun _ _ he => by cases he
  | completeMetadata => exact hother h fun _ _ he => by cases he
  | complete completion stage =>
      have hstage : stage = .commit := by
        cases stage with
        | commit => rfl
        | insert amount videos => cases videos <;> cases hend
        | guard | convert | parsed => cases hend
      rw [hstage] at h ⊢
      rcases h with ⟨hguard, -⟩ | ⟨-, done, hdone, hcompleting⟩
      · cases hguard
      have hall : done = completion.videos := by
        rw [← hdone]
        exact (List.append_nil done).symm
      rw [hall] at hcompleting
      refine ⟨fun v hv => Or.inr ⟨hcompleting.fresh v hv, fun d hd => ?_⟩,
        fun s hs => ?_, fun completion' stage' hs => ?_⟩
      · rw [(hcompleting.scanned.each v hv).donation] at hd
        exact decide_eq_true (Option.some.inj hd)
      · obtain ⟨s₀, hs₀, ⟨hid, -, hopen, -⟩, hscans⟩ := hcompleting.scan
        rw [hscans] at hs
        rw [Table.mem_row.mp hs]
        refine ⟨fun s₁ hs₁ hid₁ => ?_, fun _ => decide_eq_true hid.symm,
          fun hclaim => by cases hclaim⟩
        rw [Table.eq_of_key hs₁ hs₀ hid₁]
        exact ⟨Option.isNone_iff_eq_none.mp hopen, le_rfl⟩
      · cases hs
        exact ⟨rfl, hcompleting⟩

-- ================================= every run

/-- The histories of all scans, and what open transactions wrote. -/
def scanning : Sessions.Facts Db UserLock Call Txn where
  good log db := (∀ d, ScanHistory log db d) ∧ Fenced log db
  held _ db s := s.txn.Scans db s.written

theorem scans_fresh {db : Db} {txn : Txn} (h : txn.fresh = true) :
    txn.Scans db .empty := by
  cases txn with
  | setQueueCurrency | completeMetadata =>
      exact ⟨fun _ => Table.not_mem_empty,
        fun _ hv => absurd hv Table.not_mem_empty⟩
  | complete completion stage => exact Or.inl ⟨of_decide_eq_true h, rfl⟩

theorem scanning_inductive : Sessions.Inductive programs scanning where
  call hgood hcall :=
    ⟨ScanHistory.lands hgood.1 (call_scan_lands hcall),
      hgood.2.lands (call_scan_lands hcall)⟩
  start _ hfresh := scans_fresh hfresh
  statement hgood hheld hnext hok :=
    hheld.next hgood.1 (statement_next hnext hok)
  commit hgood hheld hend :=
    ⟨ScanHistory.lands hgood.1 (hheld.lands hend),
      hgood.2.lands (hheld.lands hend)⟩
  stable_call _ hheld _ hlets := hheld.stable hlets.1
  stable_commit _ hheld _ _ hlets := hheld.stable hlets.1

theorem scanning_empty : scanning.good [] .empty := by
  refine ⟨fun d => ?_, fun c hc => ?_, fun _ _ => Nat.zero_le 1⟩
  case refine_2 => cases hc
  exact ScanHistory.waiting rfl (fun _ hs => absurd hs Table.not_mem_empty)
    fun _ hv => absurd hv Table.not_mem_empty

-- ===================================== steps

/-- The holder of a scan commits its completion. -/
def CommitsScan (before after : World) (donationID : DonationID) : Prop :=
  ∃ s ∈ before.sessions, ∃ completion,
    s.txn = .complete completion .commit
      ∧ completion.job.donationID = donationID
      ∧ (∃ scan ∈ before.db.scans,
        scan.HeldBy completion.job completion.now)
      ∧ after = (before.commit (.inr s.txn) s.written).drop s.sessionID

/-- What a step does to scans and to the videos of donations. -/
structure ScanStep (before after : World) : Prop where
  /-- A completed scan stays as it is. -/
  completed : ∀ s ∈ before.db.scans, s.completedAt.isSome →
    s ∈ after.db.scans
  /-- A new video of a donation comes with the completion of its scan. -/
  inserted : ∀ v ∈ after.db.videos, ∀ donationID,
    v.donationID = some donationID →
      (∃ v₀ ∈ before.db.videos, v₀.source = v.source)
        ∨ CommitsScan before after donationID

/-- Every step from a good world is one that scans allow. -/
theorem scanStep {w w' : World} (h : scanning.On w)
    (hstep : Sessions.Step programs w w') : ScanStep w w' := by
  have hsame : ∀ {w' : World}, w'.db = w.db → ScanStep w w' := by
    intro w' hdb
    refine ⟨fun s hs _ => ?_, fun v hv _ _ => Or.inl ⟨v, ?_, rfl⟩⟩
    · rw [hdb]
      exact hs
    · rw [← hdb]
      exact hv
  cases hstep with
  | idle => exact hsame rfl
  | start => exact hsame rfl
  | statement => exact hsame rfl
  | drop => exact hsame rfl
  | call hcall hfree =>
      have hlands := call_scan_lands hcall
      exact ⟨fun s hs hdone => hlands.keeps_completed hs hdone,
        fun v hv d hd => Or.inl (hlands.source_known rfl hv hd)⟩
  | @commit s hs hend =>
      have hheld : s.txn.Scans w.db s.written := h.2 s hs
      have hlands := hheld.lands hend
      refine ⟨fun s' hs' hdone => hlands.keeps_completed hs' hdone,
        fun v hv d hd => ?_⟩
      cases hc : completes d (.inr s.txn) with
      | false => exact Or.inl (hlands.source_known hc hv hd)
      | true =>
          obtain ⟨completion, stage, hsource, hid⟩ := completes_eq_true hc
          obtain ⟨hstage, hcompleting⟩ := hlands.complete _ _ hsource
          obtain ⟨scan, hscan, hheldBy, -⟩ := hcompleting.scan
          rw [hstage] at hsource
          exact Or.inr ⟨s, hs, completion, Sum.inr.inj hsource, hid,
            ⟨scan, hscan, hheldBy⟩, rfl⟩

/-- Only the holder of a scan reschedules it. -/
theorem retry_held {w : World} {job : Job} {availableAt now : Time}
    {s : VideoScan} (hs : s ∈ (Sessions.step programs w
      (.call (.retry job availableAt now))).db.scans) :
    s ∈ w.db.scans
      ∨ ∃ s₀ ∈ w.db.scans, s₀.HeldBy job now ∧ s = s₀.retry availableAt := by
  rcases Sessions.step_call w (Call.retry job availableAt now)
    with hw | ⟨effect, hcall, hw⟩
  · rw [hw] at hs
    exact Or.inl hs
  · rw [hw] at hs
    obtain ⟨r, hr, rfl⟩ := map_eq_ok hcall
    rcases Table.mem_overlay.mp hs with hs | ⟨hs, -⟩
    · obtain ⟨s₀, hs₀, hheld, heffect⟩ := retry_ok hr
      rw [heffect] at hs
      exact Or.inr ⟨s₀, hs₀, hheld, Table.mem_row.mp hs⟩
    · exact Or.inl hs

/-- In every reachable world a donation has the videos of the one
completion of its scan, or none while it has no completion. -/
theorem scans_fenced (actions : List Action) :
    (∀ donationID, ScanHistory (World.after actions).log
        (World.after actions).db donationID)
      ∧ Fenced (World.after actions).log (World.after actions).db
      ∧ (∀ action, ScanStep (World.after actions)
        (Sessions.step programs (World.after actions) action))
      ∧ ∀ job availableAt now, ∀ s ∈ (Sessions.step programs
          (World.after actions) (.call (.retry job availableAt now))).db.scans,
        s ∈ (World.after actions).db.scans
          ∨ ∃ s₀ ∈ (World.after actions).db.scans,
            s₀.HeldBy job now ∧ s = s₀.retry availableAt := by
  have hw := reachable_after actions
  have hscanning := scanning_inductive.reachable scanning_empty hw
  exact ⟨hscanning.1.1, hscanning.1.2,
    fun action => scanStep hscanning (Sessions.step_cases _ action),
    fun _ _ _ _ hs => retry_held hs⟩

end StreamBrew.Videos
