/-
Every statement is sound: what it writes extends what it saw, and refers
to it. From this and the rule of the session machine, every store that a
run commits is `Good`, and so is every view of an open transaction.
-/
import StreamBrew.Videos.Proofs.Writes

namespace StreamBrew.Videos

open Relational
open Alert (UserID DonationID Time)

variable {db : Db} {draw : UserDraw} {p : VideoPriority} {userID : UserID}

-- ================================= no writes

theorem sound_empty (view : Db) : Sound view .empty :=
  sound_work

theorem ChangesVideos.sound {P : Video → Video → Prop} {w : Written}
    (hP : ∀ old ∈ db.videos, ∀ v, P old v → VideoRefers db v)
    (h : ChangesVideos db P w) : Sound db w.written := by
  obtain ⟨rows, rfl, hrows⟩ := h
  refine sound_videos fun v hv => ?_
  obtain ⟨old, hold, hpv⟩ := hrows v hv
  exact hP old hold v hpv

-- ===================================== users

/-- Inserted priorities add none but those given. -/
theorem mem_insertPriorities {ps : List VideoPriority}
    {written : Table VideoPriority.videoPriorityID}
    (h : p ∈ db.insertPriorities ps written) : p ∈ written ∨ p ∈ ps := by
  induction ps generalizing written with
  | nil => exact Or.inl h
  | cons q ps ih =>
      unfold Db.insertPriorities at h
      split at h
      case isTrue =>
        exact (ih h).imp_right fun h => List.mem_cons_of_mem q h
      case isFalse =>
        rcases ih h with h | h
        · rcases Table.mem_overlay.mp h with h | ⟨h, -⟩
          · rw [Table.mem_row.mp h]
            exact Or.inr List.mem_cons_self
          · exact Or.inl h
        · exact Or.inr (List.mem_cons_of_mem q h)

/-- An inserted row stays, as the others have other ids. -/
theorem insertPriorities_keeps {ps : List VideoPriority}
    {written : Table VideoPriority.videoPriorityID} (hp : p ∈ written)
    (hids : ∀ q ∈ ps, q.videoPriorityID ≠ p.videoPriorityID) :
    p ∈ db.insertPriorities ps written := by
  induction ps generalizing written with
  | nil => exact hp
  | cons q ps ih =>
      have hrest : ∀ r ∈ ps, r.videoPriorityID ≠ p.videoPriorityID :=
        fun r hr => hids r (List.mem_cons_of_mem q hr)
      unfold Db.insertPriorities
      split
      case isTrue => exact ih hp hrest
      case isFalse =>
        refine ih (Table.mem_overlay.mpr (Or.inr ⟨hp, fun b hb => ?_⟩)) hrest
        rw [Table.mem_row.mp hb]
        exact hids q List.mem_cons_self

/-- A user without priorities gets the default one. -/
theorem insertPriorities_default
    (hnone : ∀ p ∈ db.priorities, p.userID ≠ draw.userID) :
    ∃ p ∈ db.insertPriorities (defaultPriorities draw) .empty,
      p.userID = draw.userID ∧ p.isDefault = true := by
  unfold defaultPriorities Db.insertPriorities
  rw [if_neg]
  · refine ⟨_, insertPriorities_keeps
      (Table.mem_overlay.mpr (Or.inl (Table.mem_row.mpr rfl))) ?_, rfl, rfl⟩
    intro q hq
    have hne : ∀ {i j}, i ≠ j →
        draw.videoPriorityIDs i ≠ draw.videoPriorityIDs j :=
      fun hij he => hij (draw.distinct he)
    simp only [List.mem_cons, List.not_mem_nil, or_false] at hq
    rcases hq with rfl | rfl | rfl
    · exact hne (by decide)
    · exact hne (by decide)
    · exact hne (by decide)
  · rintro ⟨q, hq, hqu, -⟩
    rw [← Table.mem_def, Table.overlay_empty] at hq
    exact hnone q hq hqu

theorem defaultPriorities_userID
    (h : p ∈ defaultPriorities draw) : p.userID = draw.userID
      ∧ ∃ i, p.videoPriorityID = draw.videoPriorityIDs i := by
  unfold defaultPriorities at h
  simp only [List.mem_cons, List.not_mem_nil, or_false] at h
  rcases h with rfl | rfl | rfl | rfl
  · exact ⟨rfl, 0, rfl⟩
  · exact ⟨rfl, 1, rfl⟩
  · exact ⟨rfl, 2, rfl⟩
  · exact ⟨rfl, 3, rfl⟩

/-- A user has its default queue already, or gets one. -/
theorem insertMainQueue_ok {queues : Table VideoQueue.videoQueueID}
    (h : db.insertMainQueue draw = .ok queues) :
    (queues = .empty ∧ ∃ q ∈ db.queues, q.userID = draw.userID
        ∧ q.isDefault = true)
      ∨ ∃ q, queues = .row _ q ∧ q.userID = draw.userID
        ∧ q.isDefault = true
        ∧ ∀ q' ∈ db.queues, q'.videoQueueID ≠ q.videoQueueID := by
  unfold Db.insertMainQueue at h
  split at h
  case isTrue hex =>
    cases h
    exact Or.inl ⟨rfl, hex⟩
  case isFalse =>
    split at h
    case isTrue => cases h
    case isFalse hfree =>
      cases h
      refine Or.inr ⟨_, rfl, rfl, rfl, fun q' hq' he => ?_⟩
      exact hfree ⟨q', hq', Or.inl he⟩

/-- A user that is there has a default queue, and gets priorities
only. -/
theorem completeUser_ok {user : User}
    (hdb : db.Good) (huser : user ∈ db.users) {r : Written × UserID}
    (h : completeUser user draw db = .ok r) :
    ∃ priorities, r.1.written = { Db.empty with priorities }
      ∧ r.1.locks = [{ userID := user.userID, mode := .noKeyUpdate }]
      ∧ (∀ q ∈ priorities, q.userID = user.userID)
      ∧ ∀ q ∈ priorities, ∀ p ∈ db.priorities,
        p.videoPriorityID ≠ q.videoPriorityID := by
  unfold completeUser at h
  simp only at h
  have hqueue : db.insertMainQueue { draw with userID := user.userID }
      = .ok .empty := if_pos (hdb.defaultQueue user huser)
  rw [hqueue] at h
  split at h
  case isTrue => cases h
  case isFalse hfree =>
    cases h
    have hnew : ∀ q ∈ db.insertPriorities
        (defaultPriorities { draw with userID := user.userID }) .empty,
        q.userID = user.userID
          ∧ ∃ i, q.videoPriorityID = draw.videoPriorityIDs i := by
      intro q hq
      rcases mem_insertPriorities hq with hq | hq
      · exact absurd hq Table.not_mem_empty
      · exact defaultPriorities_userID hq
    refine ⟨_, rfl, rfl, fun q hq => (hnew q hq).1, fun q hq p hp he => ?_⟩
    obtain ⟨-, i, hi⟩ := hnew q hq
    exact hfree ⟨p, hp, i, he.trans hi⟩

theorem completeUser_sound {user : User}
    (hdb : db.Good) (huser : user ∈ db.users) {r : Written × UserID}
    (h : completeUser user draw db = .ok r) : Sound db r.1.written := by
  obtain ⟨priorities, hw, -, howner, hfree⟩ := completeUser_ok hdb huser h
  rw [hw]
  refine ⟨{ extends_empty db with priorities := ?_ },
    { refers_empty _ with priorityUser := ?_ }⟩
  · intro p hp
    refine ⟨p, Table.mem_overlay.mpr (Or.inr ⟨hp, fun q hq he => ?_⟩),
      rfl, rfl, rfl⟩
    exact hfree q hq p hp he.symm
  · intro q hq
    exact ⟨user, by simpa [Db.overlay, Db.empty] using huser,
      (howner q hq).symm⟩

/-- Finding or creating a user is sound. -/
theorem getOrCreateUserId_sound {authUserID : String} {missed : Bool}
    (hdb : db.Good) {r : Written × UserID}
    (h : getOrCreateUserId authUserID missed draw db = .ok r) :
    Sound db r.1.written := by
  unfold getOrCreateUserId at h
  split at h
  case h_1 user hfound =>
    split at h
    case isTrue =>
      exact completeUser_sound hdb (Table.find?_eq_some hfound).1 h
    case isFalse => cases h; exact sound_empty db
  case h_2 =>
  split at h
  case isTrue => cases h
  case isFalse hfresh =>
  rw [not_or] at hfresh
  obtain ⟨huser, hids⟩ := hfresh
  split at h
  case h_1 => cases h
  case h_2 queues hqueues =>
  cases h
  have hnone : ∀ p ∈ db.priorities, p.userID ≠ draw.userID := by
    intro p hp he
    obtain ⟨u, hu, hid⟩ := hdb.priorityUser p hp
    exact huser ⟨u, hu, hid.trans he⟩
  obtain ⟨p, hp, hpu, hpd⟩ := insertPriorities_default hnone
  have hnew : ∀ q ∈ db.insertPriorities (defaultPriorities draw) .empty,
      q.userID = draw.userID
        ∧ ∃ i, q.videoPriorityID = draw.videoPriorityIDs i := by
    intro q hq
    rcases mem_insertPriorities hq with hq | hq
    · exact absurd hq Table.not_mem_empty
    · exact defaultPriorities_userID hq
  have hqueue := insertMainQueue_ok hqueues
  have hoverlaid : ∀ q ∈ db.queues, q ∈ db.queues.overlay queues := by
    intro q hq
    rcases hqueue with ⟨rfl, -⟩ | ⟨q', rfl, -, -, hfree⟩
    · rw [Table.overlay_empty]; exact hq
    · refine Table.mem_overlay.mpr (Or.inr ⟨hq, fun b hb => ?_⟩)
      rw [Table.mem_row.mp hb]
      exact (hfree q hq).symm
  refine ⟨{ extends_empty db with
      users := ?_, queues := ?_, defaultQueues := ?_, priorities := ?_ },
    { refers_empty _ with
      defaultQueue := ?_, defaultPriority := ?_, queueUser := ?_
      priorityUser := ?_ }⟩
  · intro u hu
    obtain ⟨u', hu', hid, -⟩ := Table.exists_overlay hu
    exact ⟨u', hu', hid⟩
  · intro q hq
    exact ⟨q, hoverlaid q hq, rfl, rfl⟩
  · intro q hq hd
    exact ⟨q, hoverlaid q hq, rfl, hd⟩
  · intro q hq
    refine ⟨q, Table.mem_overlay.mpr (Or.inr ⟨hq, fun b hb he => ?_⟩),
      rfl, rfl, rfl⟩
    obtain ⟨-, i, hi⟩ := hnew b hb
    exact hids ⟨q, hq, i, he.symm.trans hi⟩
  · intro u hu
    rw [Table.mem_row.mp hu]
    rcases hqueue with ⟨-, q, hq, hqu, hqd⟩ | ⟨q, rfl, hqu, hqd, -⟩
    · exact ⟨q, hoverlaid q hq, hqu, hqd⟩
    · exact ⟨q, Table.mem_overlay.mpr (Or.inl (Table.mem_row.mpr rfl)),
        hqu, hqd⟩
  · intro u hu
    rw [Table.mem_row.mp hu]
    exact ⟨p, Table.mem_overlay.mpr (Or.inl hp), hpu, hpd⟩
  · intro q hq
    refine ⟨_, Table.mem_overlay.mpr (Or.inl (Table.mem_row.mpr rfl)), ?_⟩
    rcases hqueue with ⟨rfl, -⟩ | ⟨q', rfl, hqu, -, -⟩
    · exact absurd hq Table.not_mem_empty
    · rw [Table.mem_row.mp hq]
      exact hqu.symm
  · intro q hq
    exact ⟨_, Table.mem_overlay.mpr (Or.inl (Table.mem_row.mpr rfl)),
      (hnew q hq).1.symm⟩

-- ==================================== queues

/-- Creating a queue is sound. -/
theorem createQueue_sound {label : Label}
    {queueID : VideoQueueID} {r : Written × VideoQueue}
    (h : createQueue userID label queueID db = .ok r) :
    Sound db r.1.written := by
  unfold createQueue at h
  split at h
  case isTrue => cases h
  case isFalse =>
  split at h
  case isTrue => cases h
  case isFalse hfree =>
  split at h
  case isFalse => cases h
  case isTrue huser =>
  cases h
  obtain ⟨u, hu, huid⟩ := huser
  have hu : u ∈ db.users := hu
  have hstay : ∀ q ∈ db.queues, q ∈ db.queues.overlay
      (.row _ { videoQueueID := queueID, userID, label }) := by
    intro q hq
    refine Table.mem_overlay.mpr (Or.inr ⟨hq, fun b hb he => ?_⟩)
    rw [Table.mem_row.mp hb] at he
    exact hfree ⟨q, hq, he.symm⟩
  refine ⟨{ extends_empty db with queues := ?_, defaultQueues := ?_ },
    { refers_empty _ with queueUser := ?_ }⟩
  · exact fun q hq => ⟨q, hstay q hq, rfl, rfl⟩
  · exact fun q hq hd => ⟨q, hstay q hq, rfl, hd⟩
  · intro q hq
    rw [Table.mem_row.mp hq]
    exact ⟨u, by simpa [Db.overlay, Db.empty] using hu, huid⟩

theorem mem_clearDefaultQueue {q : VideoQueue}
    (h : q ∈ db.clearDefaultQueue userID) :
    ∃ q₀ ∈ db.queues, q₀.userID = userID
      ∧ q = { q₀ with isDefault := false } := by
  unfold Db.clearDefaultQueue at h
  obtain ⟨q₀, hq₀, he⟩ := Table.mem_update.mp h
  rw [if_pos trivial] at he
  obtain ⟨hmem, hu, -⟩ := Table.mem_select.mp hq₀
  exact ⟨q₀, hmem, hu, he.symm⟩

/-- Changing queues of one user keeps a default one for every user. -/
theorem updateQueue_sound {queueID : VideoQueueID}
    {label : Label} {isDefault : Bool} (hdb : db.Good)
    {r : Written × VideoQueue}
    (h : updateQueue userID queueID label isDefault db = .ok r) :
    Sound db r.1.written := by
  unfold updateQueue at h
  split at h
  case h_1 => cases h
  case h_2 queue hqueue =>
  obtain ⟨hmem, hqu, hqid⟩ := Table.find?_eq_some hqueue
  split at h
  case isTrue => cases h
  case isFalse =>
  cases h
  obtain ⟨updated, hupdated⟩ : ∃ q : VideoQueue, q = { queue with
    label, isDefault := isDefault || queue.isDefault } := ⟨_, rfl⟩
  obtain ⟨written, hwritten⟩ : ∃ w : Table VideoQueue.videoQueueID,
      w = (if isDefault then db.clearDefaultQueue userID
        else .empty).overlay (.row _ updated) := ⟨_, rfl⟩
  rw [hupdated] at hwritten
  show Sound db { Db.empty with queues := _ }
  rw [← hwritten]
  rw [← hupdated] at hwritten
  -- a written row is a version of a row of the same user
  have hversion : ∀ q' ∈ written, ∃ q₀ ∈ db.queues,
      q'.videoQueueID = q₀.videoQueueID ∧ q'.userID = q₀.userID
        ∧ q₀.userID = userID := by
    intro q' hq'
    rw [hwritten] at hq'
    rcases Table.mem_overlay.mp hq' with hq' | ⟨hq', -⟩
    · rw [Table.mem_row.mp hq', hupdated]
      exact ⟨queue, hmem, rfl, rfl, hqu⟩
    · split at hq'
      case isTrue =>
        obtain ⟨q₀, hq₀, hu, rfl⟩ := mem_clearDefaultQueue hq'
        exact ⟨q₀, hq₀, rfl, rfl, hu⟩
      case isFalse => exact absurd hq' Table.not_mem_empty
  have hin : updated ∈ db.queues.overlay written := by
    rw [hwritten]
    exact Table.mem_overlay.mpr (Or.inl
      (Table.mem_overlay.mpr (Or.inl (Table.mem_row.mpr rfl))))
  have huser : updated.userID = userID := by rw [hupdated]; exact hqu
  refine ⟨{ extends_empty db with queues := ?_, defaultQueues := ?_ },
    { refers_empty _ with queueUser := ?_ }⟩
  · intro q hq
    obtain ⟨q', hq', hk, rfl | hw⟩ := Table.exists_overlay (w := written) hq
    · exact ⟨q', hq', rfl, rfl⟩
    · obtain ⟨q₀, hq₀, hid, hu, -⟩ := hversion q' hw
      have heq : q₀ = q := Table.eq_of_key hq₀ hq (hid.symm.trans hk)
      exact ⟨q', hq', hk, by rw [hu, heq]⟩
  · intro q hq hd
    obtain ⟨q', hq', hk, rfl | hw⟩ := Table.exists_overlay (w := written) hq
    · exact ⟨q', hq', rfl, hd⟩
    · -- the queue of this user that is the default one now
      obtain ⟨q₀, hq₀, hid, hu, hu₀⟩ := hversion q' hw
      have heq : q₀ = q := Table.eq_of_key hq₀ hq (hid.symm.trans hk)
      by_cases hset : isDefault = true
      · exact ⟨updated, hin, by rw [huser, ← heq, hu₀],
          by rw [hupdated, hset]; rfl⟩
      · have hrow : written = .row _ updated := by
          rw [hwritten, if_neg hset, Table.empty_overlay]
        rw [hrow] at hw
        have hqq : q' = updated := Table.mem_row.mp hw
        have hqueue' : queue = q := by
          refine Table.eq_of_key hmem hq ?_
          rw [← hk, hqq, hupdated]
        refine ⟨updated, hin, by rw [huser, ← heq, hu₀], ?_⟩
        rw [hupdated]
        show (isDefault || queue.isDefault) = true
        rw [hqueue', hd, Bool.or_true]
  · intro q' hq'
    obtain ⟨q₀, hq₀, -, hu, -⟩ := hversion q' hq'
    obtain ⟨u, hu', hid⟩ := hdb.queueUser q₀ hq₀
    exact ⟨u, by simpa [Db.overlay, Db.empty] using hu', hid.trans hu.symm⟩

-- ================================ priorities

/-- Versions of priorities with other thresholds and labels. -/
theorem sound_priorities (hdb : db.Good)
    {priorities : Table VideoPriority.videoPriorityID}
    (h : ∀ q ∈ priorities, ∃ p ∈ db.priorities,
      q.videoPriorityID = p.videoPriorityID ∧ q.userID = p.userID
        ∧ q.isDefault = p.isDefault) :
    Sound db { Db.empty with priorities } := by
  refine ⟨{ extends_empty db with priorities := ?_ },
    { refers_empty _ with priorityUser := ?_ }⟩
  · intro p hp
    obtain ⟨q, hq, hk, rfl | hw⟩ := Table.exists_overlay (w := priorities) hp
    · exact ⟨q, hq, rfl, rfl, rfl⟩
    · obtain ⟨p', hp', hid, hu, hd⟩ := h q hw
      have heq : p' = p := Table.eq_of_key hp' hp (hid.symm.trans hk)
      exact ⟨q, hq, hk, by rw [hu, heq], by rw [hd, heq]⟩
  · intro q hq
    obtain ⟨p, hp, -, hu, -⟩ := h q hq
    obtain ⟨u, hu', hid⟩ := hdb.priorityUser p hp
    exact ⟨u, by simpa [Db.overlay, Db.empty] using hu', hid.trans hu.symm⟩

/-- Updating a priority is sound. -/
theorem updatePriority_sound
    {priorityID : VideoPriorityID} {label : Label} {minPrice : Money}
    (hdb : db.Good) {r : Written × VideoPriority}
    (h : updatePriority userID priorityID label minPrice db = .ok r) :
    Sound db r.1.written := by
  unfold updatePriority at h
  split at h
  case h_1 => cases h
  case h_2 p hp =>
  split at h
  case h_1 => cases h
  case h_2 q hq =>
  split at h
  case isTrue => cases h
  case isFalse =>
    cases h
    obtain ⟨hid, hu, -, hd, -⟩ := VideoPriority.withThreshold_ok hq
    refine sound_priorities hdb fun q' hq' => ?_
    rw [Table.mem_row.mp hq']
    exact ⟨p, (Table.find?_eq_some hp).1, hid, hu, hd⟩

theorem convertThreshold_ok {factor : Factor} {q : VideoPriority}
    (h : convertThreshold factor p = .ok q) :
    q.videoPriorityID = p.videoPriorityID ∧ q.userID = p.userID
      ∧ q.isDefault = p.isDefault := by
  unfold convertThreshold at h
  split at h
  case isTrue =>
    obtain ⟨hid, hu, -, hd, -⟩ := VideoPriority.withThreshold_ok h
    exact ⟨hid, hu, hd⟩
  case isFalse =>
    split at h
    case h_1 => cases h
    case h_2 =>
      split at h
      case h_1 => cases h
      case h_2 =>
        obtain ⟨hid, hu, -, hd, -⟩ := VideoPriority.withThreshold_ok h
        exact ⟨hid, hu, hd⟩

-- ================================= donations

theorem insertDonation_sound {donation : Alert.Donation} {now : Time}
    {r : Written × Unit} (h : insertDonation donation now db = .ok r) :
    Sound db r.1.written := by
  obtain ⟨hr, hfree, -, -, -, u, hu, huid⟩ := insertDonation_ok h
  rw [hr]
  refine ⟨{ extends_empty db with donations := ?_ },
    { refers_empty _ with donationUser := ?_ }⟩
  · intro d hd
    refine ⟨d, Table.mem_overlay.mpr (Or.inr ⟨hd, fun b hb he => ?_⟩),
      rfl, rfl⟩
    rw [Table.mem_row.mp hb] at he
    exact hfree d hd he.symm
  · intro d hd
    rw [Table.mem_row.mp hd]
    exact ⟨u, by simpa [Db.overlay, Db.empty] using hu, huid⟩

-- ============================== transactions

/-- Rewritten users are sound where they keep their ids. -/
theorem sound_users (hdb : db.Good) {users : Table User.userID}
    (h : ∀ u' ∈ users, ∃ u ∈ db.users, u'.userID = u.userID) :
    Sound db { Db.empty with users } := by
  refine ⟨{ extends_empty db with users := ?_ },
    { refers_empty _ with defaultQueue := ?_, defaultPriority := ?_ }⟩
  · intro u hu
    obtain ⟨u', hu', hk, -⟩ := Table.exists_overlay (w := users) hu
    exact ⟨u', hu', hk⟩
  · intro u' hu'
    obtain ⟨u, hu, hid⟩ := h u' hu'
    obtain ⟨q, hq, hqu, hqd⟩ := hdb.defaultQueue u hu
    exact ⟨q, by simpa [Db.overlay, Db.empty] using hq, hqu.trans hid.symm,
      hqd⟩
  · intro u' hu'
    obtain ⟨u, hu, hid⟩ := h u' hu'
    obtain ⟨p, hp, hpu, hpd⟩ := hdb.defaultPriority u hu
    exact ⟨p, by simpa [Db.overlay, Db.empty] using hp, hpu.trans hid.symm,
      hpd⟩

/-- Rewritten donations are sound where they keep their ids and their users. -/
theorem sound_donations (hdb : db.Good)
    {donations : Table fun d : Donation => d.donationID}
    (h : ∀ d' ∈ donations, ∃ d ∈ db.donations,
      d'.donationID = d.donationID ∧ d'.userID = d.userID) :
    Sound db { Db.empty with donations } := by
  refine ⟨{ extends_empty db with donations := ?_ },
    { refers_empty _ with donationUser := ?_ }⟩
  · intro d hd
    obtain ⟨d', hd', hk, rfl | hw⟩ := Table.exists_overlay (w := donations) hd
    · exact ⟨d', hd', rfl, rfl⟩
    · obtain ⟨d₀, hd₀, hid, hu⟩ := h d' hw
      have heq : d₀ = d := Table.eq_of_key hd₀ hd (hid.symm.trans hk)
      exact ⟨d', hd', hk, by rw [hu, heq]⟩
  · intro d' hd'
    obtain ⟨d, hd, -, hu⟩ := h d' hd'
    obtain ⟨u, hu', hid⟩ := hdb.donationUser d hd
    exact ⟨u, by simpa [Db.overlay, Db.empty] using hu', hid.trans hu.symm⟩

/-- A statement inside a transaction writes no queue. -/
def SoundStatement (db written : Db) : Prop :=
  Sound db written ∧ written.queues = .empty

/-- Every statement of a change of currency is sound. -/
theorem CurrencyChange.statement_sound {change : CurrencyChange}
    {stage : CurrencyStage} (hdb : db.Good) {f}
    (hf : change.statement stage = some f) {r : Written × CurrencyStage}
    (h : f db = .ok r) : SoundStatement db r.1.written := by
  cases stage with
  | lock =>
      cases hf
      rw [(lock_ok h).1]
      exact ⟨sound_empty db, rfl⟩
  | thresholds previous =>
      cases hf
      obtain ⟨-, priorities, hr, hrows, -⟩ := thresholds_ok h
      rw [hr]
      refine ⟨sound_priorities hdb fun q hq => ?_, rfl⟩
      obtain ⟨p, hp, -, hconvert⟩ := hrows q hq
      exact ⟨p, hp, convertThreshold_ok hconvert⟩
  | retain previous =>
      cases hf
      cases h
      exact ⟨sound_empty db, rfl⟩
  | amounts previous =>
      cases hf
      obtain ⟨-, videos, hr, hrows, -⟩ := amounts_ok h
      rw [hr]
      refine ⟨sound_videos fun v hv => ?_, rfl⟩
      obtain ⟨old, hold, hchange⟩ := hrows v hv
      exact hchange.refers hdb hold
  | currency previous =>
      cases hf
      obtain ⟨-, users, hr, hrows⟩ := currency_ok h
      rw [hr]
      refine ⟨sound_users hdb fun u' hu' => ?_, rfl⟩
      obtain ⟨u, hu, -, rfl⟩ := (hrows u').mp hu'
      exact ⟨u, hu, rfl⟩
  | commit => cases hf

theorem Completion.parsed_sound {completion : Completion}
    (hdb : db.Good) {r : Written × CompleteStage}
    (h : completion.parsed db = .ok r) : SoundStatement db r.1.written := by
  obtain ⟨-, donations, hr, hrows⟩ := parsed_ok h
  rw [hr]
  exact ⟨sound_donations hdb hrows, rfl⟩

/-- Every statement of a scan's completion is sound. -/
theorem Completion.statement_sound {completion : Completion}
    {stage : CompleteStage} (hdb : db.Good) {f}
    (hf : completion.statement stage = some f) {videoID : VideoID}
    {r : Written × CompleteStage} (h : f db videoID = .ok r) :
    SoundStatement db r.1.written := by
  cases stage with
  | guard =>
      cases hf
      obtain ⟨-, s, -, -, hr⟩ := guard_ok h
      rw [hr]
      exact ⟨sound_work, rfl⟩
  | convert =>
      cases hf
      obtain ⟨d, -, -, user, -, -, amount, -, hr, -⟩ := convert_ok h
      rw [hr]
      exact ⟨sound_empty db, rfl⟩
  | insert queueAmount videos =>
      cases videos with
      | nil =>
          cases hf
          exact parsed_sound hdb h
      | cons video videos =>
          cases hf
          obtain ⟨-, ⟨hr, -⟩ | ⟨v, hr, -, -, hstored⟩⟩ := insert_ok h
          · rw [hr]
            exact ⟨sound_empty db, rfl⟩
          · rw [hr]
            refine ⟨sound_videos fun w hw => ?_, rfl⟩
            rw [Table.mem_row.mp hw]
            exact hstored.refers hdb
  | parsed =>
      cases hf
      exact parsed_sound hdb h
  | commit => cases hf

/-- Every statement of a lookup's completion is sound. -/
theorem MetadataCompletion.statement_sound {completion : MetadataCompletion}
    {stage : MetadataStage} (hdb : db.Good) {f}
    (hf : completion.statement stage = some f) {r : Written × MetadataStage}
    (h : f db = .ok r) : SoundStatement db r.1.written := by
  cases stage with
  | job =>
      cases hf
      rcases updateJob_ok h with ⟨rfl, -⟩ | ⟨j, -, -, j', -, rfl⟩
      · exact ⟨sound_empty db, rfl⟩
      · exact ⟨sound_work, rfl⟩
  | video =>
      cases hf
      obtain ⟨-, rows, hr, hrows⟩ := updateVideo_ok h
      rw [hr]
      refine ⟨sound_videos fun v hv => ?_, rfl⟩
      obtain ⟨old, hold, hchange⟩ := hrows v hv
      exact hchange.refers hdb hold
  | commit => cases hf

-- ================================ every call

/-- Every call is sound. -/
theorem sound_call {call : Call} (hdb : db.Good) {effect : Written}
    (h : call.perform db = .ok effect) : Sound db effect.written := by
  cases call with
  | getOrCreateUserId authUserID missed draw =>
      obtain ⟨r, hr, rfl⟩ := map_eq_ok h
      exact getOrCreateUserId_sound hdb hr
  | createQueue userID label queueID =>
      obtain ⟨r, hr, rfl⟩ := map_eq_ok h
      exact createQueue_sound hr
  | updateQueue userID queueID label isDefault =>
      obtain ⟨r, hr, rfl⟩ := map_eq_ok h
      exact updateQueue_sound hdb hr
  | addManualVideo userID url providerVideoID details queueID now videoID =>
      obtain ⟨r, hr, rfl⟩ := map_eq_ok h
      obtain ⟨v, new, hw, -, -, hstored, -⟩ := addManualVideo_ok hr
      rw [hw]
      refine sound_videos fun w hw => ?_
      rw [Table.mem_row.mp hw]
      exact hstored.refers hdb
  | moveVideo userID videoID queueID =>
      obtain ⟨r, hr, rfl⟩ := map_eq_ok h
      exact (moveVideo_ok hr).sound fun old hold v hv => hv.refers hdb hold
  | updateVideo userID videoID details =>
      obtain ⟨r, hr, rfl⟩ := map_eq_ok h
      exact (updateVideo_ok hr).sound fun old hold v hv => hv.refers hdb hold
  | updateStatus userID videoID watchedAt bookmarkedAt =>
      obtain ⟨r, hr, rfl⟩ := map_eq_ok h
      exact (updateStatus_ok hr).sound fun old hold v hv => hv.refers hdb hold
  | retryMetadata userID videoID unseen now =>
      obtain ⟨r, hr, rfl⟩ :=
        map_eq_ok (x := Videos.retryMetadata userID videoID unseen now db) h
      obtain ⟨jobs, hw, -⟩ := retryMetadata_ok hr
      rw [hw]
      exact sound_work
  | updatePriority userID priorityID label minPrice =>
      obtain ⟨r, hr, rfl⟩ := map_eq_ok h
      exact updatePriority_sound hdb hr
  | insertDonation donation now =>
      obtain ⟨r, hr, rfl⟩ := map_eq_ok h
      exact insertDonation_sound hr
  | backfill now =>
      obtain ⟨r, hr, rfl⟩ :=
        map_eq_ok (x := Videos.backfill now db) h
      obtain ⟨scans, hw, -⟩ := backfill_ok hr
      rw [hw]
      exact sound_work
  | claim locked now leaseDuration =>
      obtain ⟨r, hr, rfl⟩ := map_eq_ok h
      rcases claim_ok hr with rfl | ⟨s, -, -, attempts, rfl⟩
      · exact sound_empty db
      · exact sound_work
  | retry job availableAt now =>
      obtain ⟨r, hr, rfl⟩ := map_eq_ok h
      obtain ⟨s, -, -, hw⟩ := retry_ok hr
      rw [hw]
      exact sound_work
  | enqueueMetadata now =>
      obtain ⟨r, hr, rfl⟩ :=
        map_eq_ok (x := Videos.enqueueMetadata now db) h
      obtain ⟨jobs, hw, -⟩ := enqueueMetadata_ok hr
      rw [hw]
      exact sound_work
  | claimMetadata locked now =>
      obtain ⟨r, hr, rfl⟩ := map_eq_ok h
      rcases claimMetadata_ok hr with rfl | ⟨j, -, -, attempts, rfl⟩
      · exact sound_empty db
      · exact sound_work
  | backfillTitle providerVideoID title =>
      obtain ⟨r, hr, rfl⟩ := map_eq_ok h
      exact (backfillTitle_ok hr).sound fun old hold v hv => hv.refers hdb hold

/-- The next statement of a transaction, whichever one it is. -/
theorem Next.sound {txn txn' : Txn} (hdb : db.Good)
    {videoID : VideoID} {effect : Written}
    (h : Next txn db videoID effect txn') :
    SoundStatement db effect.written := by
  cases h with
  | setQueueCurrency hf hr => exact CurrencyChange.statement_sound hdb hf hr
  | complete hf hr => exact Completion.statement_sound hdb hf hr
  | completeMetadata hf hr =>
      exact MetadataCompletion.statement_sound hdb hf hr

-- ================================= every run

/-- A completion that is about to insert has read its donation. -/
def Txn.DonationRead (view : Db) : Txn → Prop
  | .complete completion (.insert _ _) =>
      ∃ d ∈ view.donations, d.donationID = completion.job.donationID
  | _ => True

theorem Txn.DonationRead.mono {a b : Db} (h : Extends a b) {txn : Txn}
    (hread : txn.DonationRead a) : txn.DonationRead b := by
  unfold DonationRead at hread ⊢
  split
  case h_1 =>
    obtain ⟨d, hd, hid⟩ := hread
    obtain ⟨d', hd', hid', -⟩ := h.donations d hd
    exact ⟨d', hd', hid'.trans hid⟩
  case h_2 => trivial

/-- A transaction that has read its donation goes on with it. -/
theorem Next.donationRead {txn txn' : Txn} {view : Db} {videoID : VideoID}
    {effect : Written} (h : Next txn view videoID effect txn')
    (hread : txn.DonationRead view) : txn'.DonationRead view := by
  cases h with
  | setQueueCurrency => trivial
  | completeMetadata => trivial
  | @complete completion stage f db videoID r hf hr =>
      cases stage with
      | guard =>
          cases hf
          obtain ⟨hr2, -⟩ := Completion.guard_ok hr
          rw [hr2]
          split <;> trivial
      | convert =>
          cases hf
          obtain ⟨d, hd, hid, user, -, -, amount, -, -, hr2⟩ :=
            Completion.convert_ok hr
          rw [hr2]
          exact ⟨d, hd, hid⟩
      | insert queueAmount videos =>
          cases videos with
          | nil =>
              cases hf
              obtain ⟨hr2, -⟩ := Completion.parsed_ok hr
              rw [hr2]
              trivial
          | cons video videos =>
              cases hf
              obtain ⟨hr2, -⟩ := Completion.insert_ok hr
              rw [hr2]
              exact hread
      | parsed =>
          cases hf
          obtain ⟨hr2, -⟩ := Completion.parsed_ok hr
          rw [hr2]
          trivial
      | commit => cases hf

/-- The committed rows refer to each other; what a session has written
goes with them. -/
def soundness : Sessions.Facts Db UserLock Call Txn where
  good _ db := db.Good
  held _ db s := SoundStatement db s.written
    ∧ s.txn.DonationRead (db.overlay s.written)

theorem soundness_stable {written : Db} {s : Sessions.Session Db UserLock Txn}
    (hsound : Sound db written)
    (hheld : SoundStatement db s.written
      ∧ s.txn.DonationRead (db.overlay s.written))
    (hapart : s.written.Apart written) :
    SoundStatement (db.overlay written) s.written
      ∧ s.txn.DonationRead ((db.overlay written).overlay s.written) :=
  ⟨⟨hheld.1.1.stable hheld.1.2 hsound hapart, hheld.1.2⟩,
    hheld.2.mono (hsound.keeps.overlay hheld.1.2)⟩

/-- Soundness is kept by every step. -/
theorem soundness_inductive : Sessions.Inductive programs soundness where
  call hgood hcall := (sound_call hgood hcall).good hgood
  start {log db sessionID txn} _ hfresh := by
    refine ⟨⟨sound_empty _, rfl⟩, ?_⟩
    cases txn with
    | complete completion stage =>
        have hstage : stage = .guard := of_decide_eq_true hfresh
        rw [hstage]
        trivial
    | setQueueCurrency | completeMetadata => trivial
  statement {log db s statement draw effect txn} hgood hheld hnext hok := by
    have hview : (db.overlay s.written).Good := hheld.1.1.good hgood
    have hstep := statement_next hnext hok
    obtain ⟨hsound, hqueues⟩ := hstep.sound hview
    refine ⟨⟨hheld.1.1.overlay hsound, ?_⟩, ?_⟩
    · show s.written.queues.overlay effect.written.queues = .empty
      rw [hheld.1.2, hqueues, Table.overlay_empty]
    · show txn.DonationRead (db.overlay (s.written.overlay effect.written))
      rw [show db.overlay (s.written.overlay effect.written)
          = (db.overlay s.written).overlay effect.written from
        (Sessions.Versioned.overlay_assoc _ _ _).symm]
      exact (hstep.donationRead hheld.2).mono hsound.keeps
  commit hgood hheld _ := hheld.1.1.good hgood
  stable_call hgood hheld hcall hlets :=
    soundness_stable (sound_call hgood hcall) hheld hlets.1
  stable_commit _ hheld hother _ hlets :=
    soundness_stable hother.1.1 hheld hlets.1

theorem reachable_sound {w : World}
    (h : Sessions.Reachable programs .empty w) : soundness.On w :=
  soundness_inductive.reachable (refers_empty _) h

theorem reachable_after (actions : List Action) :
    Sessions.Reachable programs .empty (World.after actions) :=
  ⟨actions, rfl⟩

/-- The committed rows of every reachable world refer to each other. -/
theorem reachable_good {w : World}
    (h : Sessions.Reachable programs .empty w) : w.db.Good :=
  (reachable_sound h).1

/-- So do the rows that a session sees. -/
theorem reachable_view_good {w : World}
    (h : Sessions.Reachable programs .empty w) {s}
    (hs : s ∈ w.sessions) : (w.view s).Good :=
  ((reachable_sound h).2 s hs).1.1.good (reachable_good h)

end StreamBrew.Videos
