/-
The default queue of a user, and the owner of what a video is in.

That a user has a default queue and that a video refers to rows of its
owner are part of `Db.Good`. What is left is that no user has a second
default queue. A queue is written in three ways (`QueueWrites`): a new
default one where the user has none, a new one that is not default, and
a version of a queue that either was the default one, or becomes it with
all others of the user cleared in the same statement. No transaction of
several statements writes a queue, so the calls are all there is to
check.
-/
import StreamBrew.Videos.Proofs.Sound

namespace StreamBrew.Videos

open Relational
open Alert (UserID DonationID Time)

-- ==================================== writes

/-- A new queue leaves its user with one default queue. -/
def VideoQueue.Addable (db : Db) (q : VideoQueue) : Prop :=
  q.isDefault = true → ∀ q' ∈ db.queues, q'.userID = q.userID →
    q'.isDefault = false

/-- What a call writes to the queues. -/
inductive QueueWrites (db : Db) : Table VideoQueue.videoQueueID → Prop
  | none : QueueWrites db .empty
  | added {q : VideoQueue} (h : q.Addable db) : QueueWrites db (.row _ q)
  | updated {queue q : VideoQueue} {isDefault : Bool}
      (hqueue : queue ∈ db.queues)
      (hid : q.videoQueueID = queue.videoQueueID)
      (huser : q.userID = queue.userID)
      (hdefault : q.isDefault = (isDefault || queue.isDefault)) :
      QueueWrites db ((if isDefault then db.clearDefaultQueue queue.userID
        else .empty).overlay (.row _ q))

theorem insertMainQueue_writes {draw : UserDraw} {db : Db}
    {queues : Table VideoQueue.videoQueueID}
    (h : db.insertMainQueue draw = .ok queues) : QueueWrites db queues := by
  unfold Db.insertMainQueue at h
  split at h
  case isTrue => cases h; exact QueueWrites.none
  case isFalse hnone =>
    split at h
    case isTrue => cases h
    case isFalse =>
      cases h
      refine QueueWrites.added fun _ q' hq' huser => ?_
      cases hd : q'.isDefault with
      | false => rfl
      | true => exact absurd ⟨q', hq', huser, hd⟩ hnone

/-- Creating a user adds its default queue where it has none. -/
theorem getOrCreateUserId_writes {authUserID : String} {missed : Bool}
    {draw : UserDraw} {db : Db} {r : Written × UserID}
    (h : getOrCreateUserId authUserID missed draw db = .ok r) :
    QueueWrites db r.1.written.queues := by
  unfold getOrCreateUserId at h
  split at h
  case h_1 user _ =>
    split at h
    case isTrue =>
      unfold completeUser at h
      simp only at h
      split at h
      case isTrue => cases h
      case isFalse =>
        split at h
        case h_1 => cases h
        case h_2 queues hqueues =>
          cases h
          exact insertMainQueue_writes hqueues
    case isFalse => cases h; exact QueueWrites.none
  case h_2 =>
    split at h
    case isTrue => cases h
    case isFalse =>
      split at h
      case h_1 => cases h
      case h_2 queues hqueues =>
        cases h
        exact insertMainQueue_writes hqueues

theorem createQueue_writes {userID : UserID} {label : Label}
    {queueID : VideoQueueID} {db : Db} {r : Written × VideoQueue}
    (h : createQueue userID label queueID db = .ok r) :
    QueueWrites db r.1.written.queues := by
  unfold createQueue at h
  repeat' split at h
  all_goals cases h
  refine QueueWrites.added fun hdefault => ?_
  cases hdefault

theorem updateQueue_writes {userID : UserID} {queueID : VideoQueueID}
    {label : Label} {isDefault : Bool} {db : Db} {r : Written × VideoQueue}
    (h : updateQueue userID queueID label isDefault db = .ok r) :
    QueueWrites db r.1.written.queues := by
  unfold updateQueue at h
  split at h
  case h_1 => cases h
  case h_2 queue hqueue =>
    obtain ⟨hmem, hu, -⟩ := Table.find?_eq_some hqueue
    split at h
    case isTrue => cases h
    case isFalse =>
      cases h
      rw [← hu]
      exact QueueWrites.updated hmem rfl rfl rfl

/-- Every call writes queues as one of these. -/
theorem call_queues {call : Call} {db : Db} {effect : Written}
    (h : call.perform db = .ok effect) :
    QueueWrites db effect.written.queues := by
  cases call with
  | getOrCreateUserId authUserID missed draw =>
      obtain ⟨r, hr, rfl⟩ := map_eq_ok h
      exact getOrCreateUserId_writes hr
  | createQueue userID label queueID =>
      obtain ⟨r, hr, rfl⟩ := map_eq_ok h
      exact createQueue_writes hr
  | updateQueue userID queueID label isDefault =>
      obtain ⟨r, hr, rfl⟩ := map_eq_ok h
      exact updateQueue_writes hr
  | addManualVideo userID url providerVideoID details queueID now videoID =>
      obtain ⟨r, hr, rfl⟩ := map_eq_ok h
      obtain ⟨v, new, hw, -⟩ := addManualVideo_ok hr
      rw [hw]
      exact QueueWrites.none
  | moveVideo userID videoID queueID =>
      obtain ⟨r, hr, rfl⟩ := map_eq_ok h
      obtain ⟨rows, hw, -⟩ := moveVideo_ok hr
      rw [hw]
      exact QueueWrites.none
  | updateVideo userID videoID details =>
      obtain ⟨r, hr, rfl⟩ := map_eq_ok h
      obtain ⟨rows, hw, -⟩ := updateVideo_ok hr
      rw [hw]
      exact QueueWrites.none
  | updateStatus userID videoID watchedAt bookmarkedAt =>
      obtain ⟨r, hr, rfl⟩ := map_eq_ok h
      obtain ⟨rows, hw, -⟩ := updateStatus_ok hr
      rw [hw]
      exact QueueWrites.none
  | retryMetadata userID videoID unseen now =>
      obtain ⟨r, hr, rfl⟩ :=
        map_eq_ok (x := Videos.retryMetadata userID videoID unseen now db) h
      obtain ⟨jobs, hw, -⟩ := retryMetadata_ok hr
      rw [hw]
      exact QueueWrites.none
  | updatePriority userID priorityID label minPrice =>
      obtain ⟨r, hr, rfl⟩ := map_eq_ok h
      unfold Videos.updatePriority at hr
      repeat' split at hr
      all_goals cases hr
      exact QueueWrites.none
  | insertDonation donation now =>
      obtain ⟨r, hr, rfl⟩ := map_eq_ok h
      obtain ⟨hw, -⟩ := insertDonation_ok hr
      rw [hw]
      exact QueueWrites.none
  | backfill now =>
      obtain ⟨r, hr, rfl⟩ := map_eq_ok (x := Videos.backfill now db) h
      obtain ⟨scans, hw, -⟩ := backfill_ok hr
      rw [hw]
      exact QueueWrites.none
  | claim locked now leaseDuration =>
      obtain ⟨r, hr, rfl⟩ := map_eq_ok h
      rcases claim_ok hr with rfl | ⟨s, -, -, attempts, rfl⟩
      · exact QueueWrites.none
      · exact QueueWrites.none
  | retry job availableAt now =>
      obtain ⟨r, hr, rfl⟩ := map_eq_ok h
      obtain ⟨s, -, -, hw⟩ := retry_ok hr
      rw [hw]
      exact QueueWrites.none
  | enqueueMetadata now =>
      obtain ⟨r, hr, rfl⟩ := map_eq_ok (x := Videos.enqueueMetadata now db) h
      obtain ⟨jobs, hw, -⟩ := enqueueMetadata_ok hr
      rw [hw]
      exact QueueWrites.none
  | claimMetadata locked now =>
      obtain ⟨r, hr, rfl⟩ := map_eq_ok h
      rcases claimMetadata_ok hr with rfl | ⟨j, -, -, attempts, rfl⟩
      · exact QueueWrites.none
      · exact QueueWrites.none
  | backfillTitle providerVideoID title =>
      obtain ⟨r, hr, rfl⟩ := map_eq_ok h
      obtain ⟨rows, hw, -⟩ := backfillTitle_ok hr
      rw [hw]
      exact QueueWrites.none

-- ================================== defaults

/-- No user has two default queues. -/
def OneDefault (queues : Table VideoQueue.videoQueueID) : Prop :=
  ∀ q ∈ queues, ∀ q' ∈ queues, q.isDefault = true → q'.isDefault = true →
    q.userID = q'.userID → q = q'

/-- Pairs with one row in question, and those without it. -/
theorem oneDefault_of {queues : Table VideoQueue.videoQueueID}
    (new : VideoQueue)
    (hold : ∀ q ∈ queues, q ≠ new → ∀ q' ∈ queues, q' ≠ new →
      q.isDefault = true → q'.isDefault = true → q.userID = q'.userID →
      q = q')
    (hnew : ∀ q ∈ queues, q ≠ new → q.isDefault = true →
      new.isDefault = true → q.userID ≠ new.userID) :
    OneDefault queues := by
  intro q hq q' hq' hd hd' huser
  by_cases hqn : q = new
  · by_cases hqn' : q' = new
    · rw [hqn, hqn']
    · exact absurd (huser.symm.trans (congrArg _ hqn))
        (hnew q' hq' hqn' hd' (hqn ▸ hd))
  · by_cases hqn' : q' = new
    · exact absurd (huser.trans (congrArg _ hqn'))
        (hnew q hq hqn hd (hqn' ▸ hd'))
    · exact hold q hq hqn q' hq' hqn' hd hd' huser

theorem OneDefault.added {db : Db} (hdb : OneDefault db.queues)
    {new : VideoQueue} (h : new.Addable db) :
    OneDefault (db.queues.overlay (.row _ new)) := by
  have hmem : ∀ q ∈ db.queues.overlay (.row _ new), q ≠ new →
      q ∈ db.queues := by
    intro q hq hne
    rcases Table.mem_overlay.mp hq with hq | ⟨hq, -⟩
    · exact absurd (Table.mem_row.mp hq) hne
    · exact hq
  refine oneDefault_of new ?_ ?_
  · intro q hq hne q' hq' hne'
    exact hdb q (hmem q hq hne) q' (hmem q' hq' hne')
  · intro q hq hne hd hnew huser
    have hfalse := h hnew q (hmem q hq hne) huser
    rw [hd] at hfalse
    cases hfalse

/-- The default queue of a user may become another one. -/
theorem OneDefault.updated {db : Db} (hdb : OneDefault db.queues)
    {queue new : VideoQueue} {isDefault : Bool} (hqueue : queue ∈ db.queues)
    (hid : new.videoQueueID = queue.videoQueueID)
    (huser : new.userID = queue.userID)
    (hdefault : new.isDefault = (isDefault || queue.isDefault)) :
    OneDefault (db.queues.overlay
      ((if isDefault then db.clearDefaultQueue queue.userID
        else .empty).overlay (.row _ new))) := by
  -- a default queue is the new version, or was there, is another one than
  -- this, and has no other version
  have hmem : ∀ q ∈ db.queues.overlay
      ((if isDefault then db.clearDefaultQueue queue.userID
        else .empty).overlay (.row _ new)), q ≠ new → q.isDefault = true →
      q ∈ db.queues ∧ q ≠ queue
        ∧ (isDefault = true → q.userID ≠ queue.userID) := by
    intro q hq hne hd
    rcases Table.mem_overlay.mp hq with hq | ⟨hq, hother⟩
    · rcases Table.mem_overlay.mp hq with hq | ⟨hq, -⟩
      · exact absurd (Table.mem_row.mp hq) hne
      · split at hq
        case isTrue =>
          obtain ⟨q₀, -, -, rfl⟩ := mem_clearDefaultQueue hq
          cases hd
        case isFalse => exact absurd hq Table.not_mem_empty
    · have hold : q ∈ db.queues := hq
      have hkey : q ≠ queue := by
        rintro rfl
        exact hother new (Table.mem_overlay.mpr
          (Or.inl (Table.mem_row.mpr rfl))) hid
      refine ⟨hold, hkey, fun hset hu => ?_⟩
      subst hset
      have hclear : { q with isDefault := false }
          ∈ db.clearDefaultQueue queue.userID := by
        refine Table.mem_update.mpr ⟨q, ?_, if_pos trivial⟩
        exact Table.mem_select.mpr ⟨hold, hu, hd⟩
      refine hother { q with isDefault := false } ?_ rfl
      refine Table.mem_overlay.mpr (Or.inr ⟨hclear, fun b hb he => ?_⟩)
      rw [Table.mem_row.mp hb, hid] at he
      exact hkey (Table.eq_of_key hold hqueue he.symm)
  refine oneDefault_of new ?_ ?_
  · intro q hq hne q' hq' hne' hd hd'
    exact hdb q (hmem q hq hne hd).1 q' (hmem q' hq' hne' hd').1 hd hd'
  · intro q hq hne hd hnew hqu
    obtain ⟨hold, hkey, hcleared⟩ := hmem q hq hne hd
    rw [huser] at hqu
    rw [hdefault] at hnew
    cases isDefault with
    | true => exact hcleared rfl hqu
    | false => exact hkey (hdb q hold queue hqueue hd hnew hqu)

theorem QueueWrites.oneDefault {db : Db} {w : Table VideoQueue.videoQueueID}
    (h : QueueWrites db w) (hdb : OneDefault db.queues) :
    OneDefault (db.queues.overlay w) := by
  cases h with
  | none => rw [Table.overlay_empty]; exact hdb
  | added h => exact hdb.added h
  | updated hqueue hid huser hdefault =>
      exact hdb.updated hqueue hid huser hdefault

-- ====================================== runs

/-- No user has two default queues; what a session has written does not
matter, as it has written no queues. -/
def defaults : Sessions.Facts Db UserLock Call Txn where
  good _ db := OneDefault db.queues
  held _ _ _ := True

theorem defaults_given : Sessions.Given programs soundness defaults where
  call h hcall := (call_queues hcall).oneDefault h.2
  start _ _ := trivial
  statement _ _ _ _ := trivial
  commit {log db s} h hs _ := by
    show OneDefault (db.queues.overlay s.written.queues)
    rw [hs.1.1.2, Table.overlay_empty]
    exact h.2
  stable_call _ _ _ _ := trivial
  stable_commit _ _ _ _ _ := trivial

theorem reachable_oneDefault {w : World}
    (h : Sessions.Reachable programs .empty w) : OneDefault w.db.queues :=
  ((soundness_inductive.and defaults_given).reachable
    ⟨refers_empty _, fun _ hq => absurd hq Table.not_mem_empty⟩ h).1.2

/-- In every reachable world each user has exactly one default queue,
and every video is in a queue of its owner and has a priority of its
owner or none. -/
theorem queues_owned (actions : List Action) :
    (∀ u ∈ (World.after actions).db.users,
      ∃! q, q ∈ (World.after actions).db.queues
        ∧ q.userID = u.userID ∧ q.isDefault = true)
      ∧ ∀ v ∈ (World.after actions).db.videos,
        ∃ userID, ownerID v.toVideoValues (World.after actions).db
            = some userID
          ∧ (∃ u ∈ (World.after actions).db.users, u.userID = userID)
          ∧ (∃ q ∈ (World.after actions).db.queues,
            v.videoQueueID = some q.videoQueueID ∧ q.userID = userID)
          ∧ ∀ id, v.videoPriorityID = some id →
            ∃ p ∈ (World.after actions).db.priorities,
              p.videoPriorityID = id ∧ p.userID = userID := by
  have hw := reachable_after actions
  refine ⟨fun u hu => ?_, fun v hv => ?_⟩
  · obtain ⟨q, hq, huser, hd⟩ := (reachable_good hw).defaultQueue u hu
    refine ⟨q, ⟨hq, huser, hd⟩, ?_⟩
    rintro q' ⟨hq', huser', hd'⟩
    exact reachable_oneDefault hw q' hq' q hq hd' hd
      (huser'.trans huser.symm)
  · have hrefers := (reachable_good hw).video v hv
    obtain ⟨u, hu, howns⟩ := hrefers.owner
    refine ⟨u.userID, ownerID_eq_some.mpr howns, ⟨u, hu, rfl⟩, ?_, ?_⟩
    · obtain ⟨q, hq, hid, hqowns⟩ := hrefers.queue
      exact ⟨q, hq, hid, hqowns.unique howns⟩
    · intro id hid
      obtain ⟨p, hp, hpid, hpowns⟩ := hrefers.priority id hid
      exact ⟨p, hp, hpid, hpowns.unique howns⟩

end StreamBrew.Videos
