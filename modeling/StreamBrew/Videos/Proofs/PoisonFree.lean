/-
No message makes its scan fail.

What the scan takes from a link has passed the parser of the link: the
id has eleven characters of ASCII, the link itself is written without
control characters, and an end is positive and in range. So the row of
a scanned video passes the checks, and the trigger, which finds the
default queue and the default priority of the owner, divides by a
positive number of seconds. What is left is the guard, which fails for
the owner of a lost lease, and an id that is taken already, which is
what drawing it from a sequence excludes.
-/
import StreamBrew.Videos.Scan
import StreamBrew.Videos.Proofs.Scans

namespace StreamBrew.Videos

open Relational
open Alert (UserID DonationID Time)
open Youtube Text

-- ================================ the videos

/-- The columns of a scanned video are such as the table takes, whatever
the other columns of the row are. -/
structure Insertable (video : ScannedVideo) : Prop where
  providerVideoID : Storable video.providerVideoID
  /-- The format of the provider. -/
  length : video.providerVideoID.length = 11
  url : Storable video.url
  start : video.startSeconds.1 = 0
  duration : video.durationSeconds = none
  title : Alert.nullifEmpty video.title = none

theorem storable_of_not_ctl {s : Chars}
    (h : ∀ c ∈ s, Url.isCTL c = false) : Storable (String.ofList s) := by
  unfold Storable
  rw [String.toList_ofList]
  exact fun hc => by
    have := h _ hc
    cases this

theorem isVideoIDByte_not_ctl {b : UInt8} (h : isVideoIDByte b = true) :
    Url.isCTL (ascii b) = false := by
  unfold isVideoIDByte at h
  simp only [Bool.or_eq_true, decide_eq_true_eq] at h
  rcases h with (h | h) | h
  · exact Url.isAlphanum_not_ctl h
  · rw [h]
    rfl
  · rw [h]
    rfl

theorem scanVideo_insertable {found link : Chars}
    (hlink : canonical found = some link) {video : ScannedVideo}
    (h : scanVideo link = some video) : Insertable video := by
  obtain ⟨id, hid, rfl⟩ := Option.map_eq_some_iff.mp h
  obtain ⟨s, rfl, hlength, hall⟩ := videoID_eq_some hid
  refine ⟨storable_of_not_ctl fun c hc => ?_, ?_,
    storable_of_not_ctl (canonical_not_ctl hlink), rfl, rfl, rfl⟩
  · obtain ⟨b, hb, rfl⟩ := List.mem_map.mp hc
    exact isVideoIDByte_not_ctl (List.all_eq_true.mp hall b hb)
  · show (String.ofList (s.map ascii)).length = 11
    simp [hlength]

/-- Every video that a message links to. -/
theorem scanVideos_insertable {message : Option String}
    {video : ScannedVideo} (h : video ∈ scanVideos message) :
    Insertable video := by
  cases message with
  | none => cases h
  | some message =>
      obtain ⟨link, hlink, hvideo⟩ := List.mem_filterMap.mp h
      obtain ⟨found, -, hcanonical⟩ :=
        List.mem_filterMap.mp (List.mem_eraseDups.mp hlink)
      exact scanVideo_insertable hcanonical hvideo

-- ============================ the completion

/-- The donation of a completion has a stored amount, and an owner with
a default queue and a default priority, which is the one at zero. -/
structure Scannable (db : Db) (completion : Completion) : Prop where
  amount : completion.job.amount < donationAmountLimit
  owner : ∃ d ∈ db.donations, d.donationID = completion.job.donationID
    ∧ ∃ u ∈ db.users, u.userID = d.userID
      ∧ (∃ q ∈ db.queues, q.userID = u.userID ∧ q.isDefault = true)
      ∧ ∃ p ∈ db.priorities, p.userID = u.userID ∧ p.isDefault = true

/-- How a statement may still fail: the lease is lost, or the id drawn
for the row is taken. -/
def Excused (db : Db) (videoID : VideoID) (e : StoreError) : Prop :=
  e = .leaseLost ∨ e = .duplicateKey ∧ ∃ v ∈ db.videos, v.videoID = videoID

section Statement

variable {db : Db} {completion : Completion} {videoID : VideoID}
  {e : StoreError}

theorem guard_excused (h : completion.guard db = .error e) :
    e = .leaseLost := by
  unfold Completion.guard at h
  split at h
  case h_1 =>
    cases h
    rfl
  case h_2 => cases h

/-- A stored amount is converted, or has no amount in the currency. -/
theorem convertWithDefaultRate_ok {amount : Nat}
    (h : amount < donationAmountLimit) (source : String)
    (target : QueueCurrency) :
    ∃ queueAmount, convertWithDefaultRate amount source target
      = .ok queueAmount := by
  unfold convertWithDefaultRate
  split
  case h_1 => exact ⟨none, rfl⟩
  case h_2 =>
    unfold parseDonationUnits
    rw [if_pos h]
    exact ⟨_, rfl⟩

/-- The conversion of a scan's price never fails. -/
theorem convert_excused (hdb : Scannable db completion) :
    completion.convert db ≠ .error e := by
  intro h
  obtain ⟨d, hd, hid, u, hu, huid, -⟩ := hdb.owner
  have huser : (db.donations.get? completion.job.donationID).bind
      (fun d => db.users.get? d.userID) = some u := by
    have hget : db.donations.get? d.donationID = some d := Table.get?_key hd
    rw [← hid, hget]
    show db.users.get? d.userID = some u
    rw [← huid]
    exact Table.get?_key hu
  obtain ⟨amount, hamount⟩ := convertWithDefaultRate_ok hdb.amount
    completion.job.currency u.queueCurrency
  unfold Completion.convert at h
  rw [huser] at h
  dsimp only at h
  rw [hamount] at h
  cases h

theorem check_eq_ok {v : VideoValues} (he : v.Encoded)
    (hq : v.videoQueueID.isSome) (hs : v.Sourced) (ht : v.Timed)
    (hn : v.Titled) : v.check = .ok ⟨v, he, hq, hs, ht, hn⟩ := by
  unfold VideoValues.check
  rw [dif_pos he, dif_pos hq, dif_pos hs, dif_pos ht, dif_pos hn]

/-- The row of a scanned video passes the checks. -/
theorem scanned_check {video : ScannedVideo} (h : Insertable video)
    {donationID : DonationID} {queueAmount : Option Money}
    {queueID : Option VideoQueueID} (hqueue : queueID.isSome)
    {priorityID : Option VideoPriorityID} :
    ∃ v, ((video.values donationID queueAmount videoID).placed queueID
      priorityID).check = .ok v := by
  have htitle := h.title
  have hencoded : ((video.values donationID queueAmount videoID).placed
      queueID priorityID).Encoded := by
    refine ⟨h.providerVideoID, h.url, ?_⟩
    show Storable ((Alert.nullifEmpty video.title).getD "")
    rw [htitle]
    decide
  have htitled : ((video.values donationID queueAmount videoID).placed
      queueID priorityID).Titled := by
    intro title hmem
    change title ∈ Alert.nullifEmpty video.title at hmem
    rw [htitle] at hmem
    cases hmem
  exact ⟨_, check_eq_ok hencoded hqueue (Or.inl ⟨rfl, rfl, rfl⟩) video.timed
    htitled⟩

/-- The insert of a scanned video fails only where its id is not fresh. -/
theorem insert_excused (hdb : Scannable db completion)
    {queueAmount : Option Money} {video : ScannedVideo}
    (hvideo : Insertable video) {videos : List ScannedVideo}
    (h : completion.insert queueAmount video videos videoID db = .error e) :
    Excused db videoID e := by
  obtain ⟨d, hd, hid, u, hu, huid, ⟨q, hq, hqu, hqd⟩, p, hp, hpu, hpd⟩ :=
    hdb.owner
  have hplaceable : Placeable db
      (video.values completion.job.donationID queueAmount videoID)
      u.userID :=
    { owned := Or.inr ⟨rfl, d, hd, congrArg some hid.symm, huid.symm⟩
      queue := ⟨q, hq, hqu, Or.inl ⟨rfl, hqd⟩⟩
      priority := fun id hid => by cases hid
      defaultPriority := ⟨p, hp, hpu, hpd⟩
      timed := fun _ => video.timed }
  unfold Completion.insert at h
  split at h
  case h_2 => cases h
  case h_1 e' he' =>
    cases h
    unfold Db.insertScanned at he'
    split at he'
    case h_2 =>
      split at he'
      case isTrue => cases he'
      case isFalse => cases he'
    case h_1 e'' he'' =>
      cases he'
      unfold Db.insertVideo at he''
      split at he''
      case h_1 e₀ he₀ =>
        exfalso
        unfold Db.storeVideo at he₀
        split at he₀
        case h_1 e₁ he₁ => exact setVideoPriorityID_error hplaceable e₁ he₁
        case h_2 values hvalues =>
          obtain ⟨queueID, priorityID, rfl, -, ⟨q', -, hq', -⟩, -⟩ :=
            setVideoPriorityID_ok hvalues
          obtain ⟨v, hv⟩ : ∃ v, ((video.values completion.job.donationID
              queueAmount videoID).placed queueID priorityID).check = .ok v :=
            scanned_check hvideo (by rw [hq']; rfl)
          rw [hv] at he₀
          cases he₀
      case h_2 v hv =>
        split at he''
        case isFalse => cases he''
        case isTrue hex =>
          cases he''
          obtain ⟨w, hw, hwid⟩ := hex
          exact Or.inr ⟨rfl, w, hw, hwid.trans (storeVideo_videoID hv)⟩

/-- A statement of a completion with videos that its message links to
has no other failures. -/
theorem statement_excused {stage : CompleteStage}
    (hdb : Scannable db completion)
    (hvideos : ∀ video ∈ completion.left stage,
      video ∈ scanVideos completion.job.message) {f}
    (hf : completion.statement stage = some f)
    (h : f db videoID = .error e) : Excused db videoID e := by
  cases stage with
  | guard =>
      cases hf
      exact Or.inl (guard_excused h)
  | convert =>
      cases hf
      exact absurd h (convert_excused hdb)
  | insert queueAmount videos =>
      cases videos with
      | nil =>
          cases hf
          cases h
      | cons video videos =>
          cases hf
          have hvideo := hvideos video (List.mem_cons_self ..)
          exact insert_excused hdb (scanVideos_insertable hvideo) h
  | parsed =>
      cases hf
      cases h
  | commit => cases hf

end Statement

-- ================================= every run

/-- An open completion has only videos of its list left. -/
theorem ScanProgress.left_subset {db w : Db} {completion : Completion}
    {stage : CompleteStage} (h : ScanProgress db w completion stage) :
    ∀ video ∈ completion.left stage, video ∈ completion.videos := by
  rcases h with ⟨rfl, -⟩ | ⟨-, done, hdone, -⟩
  · exact fun _ hvideo => hvideo
  · intro video hvideo
    rw [← hdone]
    exact List.mem_append_right done hvideo

/-- The owner that a session sees has a queue and a priority. -/
theorem scannable_view {w : World}
    (hw : Sessions.Reachable programs .empty w) {s} (hs : s ∈ w.sessions)
    {completion : Completion}
    (hamount : completion.job.amount < donationAmountLimit)
    (hdonation : ∃ d ∈ w.db.donations,
      d.donationID = completion.job.donationID) :
    Scannable (w.view s) completion := by
  obtain ⟨d, hd, hid⟩ := hdonation
  have hgood := reachable_view_good hw hs
  obtain ⟨d', hd', hid', -⟩ :=
    ((reachable_sound hw).2 s hs).1.1.keeps.donations d hd
  obtain ⟨u, hu, huid⟩ := hgood.donationUser d' hd'
  exact ⟨hamount, d', hd', hid'.trans hid, u, hu, huid,
    hgood.defaultQueue u hu, hgood.defaultPriority u hu⟩

/-- Whatever the message is, its scan completes unless its lease is lost
or the store has no fresh id: each video that it links to passes the
checks of its columns; no statement of a completion fails otherwise,
where the owner of the donation has a default queue and a default
priority; and in every reachable world each owner has them. -/
theorem scans_poison_free :
    (∀ message, ∀ video ∈ scanVideos message, Insertable video)
      ∧ (∀ db completion stage, Scannable db completion →
        (∀ video ∈ completion.left stage,
          video ∈ scanVideos completion.job.message) →
        ∀ f, completion.statement stage = some f → ∀ videoID e,
          f db videoID = .error e → Excused db videoID e)
      ∧ ∀ actions, ∀ s ∈ (World.after actions).sessions,
        ∀ completion stage, s.txn = .complete completion stage →
          completion.videos = scanVideos completion.job.message →
          completion.job.amount < donationAmountLimit →
          (∃ d ∈ (World.after actions).db.donations,
            d.donationID = completion.job.donationID) →
          ∀ videoID a, (World.after actions).attempt programs
              (.proceed s.sessionID videoID) = some a →
            ∀ e, a.result = .error e →
              Excused ((World.after actions).view s) videoID e := by
  refine ⟨fun _ _ hvideo => scanVideos_insertable hvideo,
    fun db completion stage hdb hvideos f hf videoID e h =>
      statement_excused hdb hvideos hf h, ?_⟩
  intro actions s hs completion stage htxn hvideos hamount hdonation videoID
    a hattempt e he
  have hw := reachable_after actions
  have hscans : s.txn.Scans (World.after actions).db s.written :=
    (scanning_inductive.reachable scanning_empty hw).2 s hs
  rw [htxn] at hscans
  cases hnext : programs.statement s.txn with
  | none =>
      rw [Sessions.attempt_commit hs hnext videoID] at hattempt
      cases hattempt
  | some statement =>
      rw [Sessions.attempt_proceed hs hnext videoID] at hattempt
      cases hattempt
      rw [htxn] at hnext
      obtain ⟨f, hf, rfl⟩ := Option.map_eq_some_iff.mp hnext
      refine statement_excused (scannable_view hw hs hamount hdonation)
        (fun video hvideo => ?_) hf (map_eq_error (map_eq_error he))
      rw [← hvideos]
      exact ScanProgress.left_subset hscans video hvideo

end StreamBrew.Videos
