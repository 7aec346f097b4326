/-
What the rows of the component refer to, and that no commit takes a
reference away.

`Refers ctx rows` says of each of the rows that what it refers to is
among `ctx`: the default queue and priority of a user, the owner of a
queue, a priority, a donation or a video, and the queue and priority of
a video; and that the video is ranked as the trigger would have it.
These facts name columns that are never changed, so they survive
wherever the rows referred to do (`Extends`). `Sound` is what a
statement has to show: its rows extend what it saw, and refer to it.
-/
import StreamBrew.Videos.Proofs.Trigger

namespace StreamBrew.Videos

open Relational
open Alert (UserID DonationID Time)

/-- Every row that can be referred to is in the other set too, with the
same columns that a reference goes by. -/
structure Extends (a b : Db) : Prop where
  users : ∀ u ∈ a.users, ∃ u' ∈ b.users, u'.userID = u.userID
  queues : ∀ q ∈ a.queues, ∃ q' ∈ b.queues,
    q'.videoQueueID = q.videoQueueID ∧ q'.userID = q.userID
  defaultQueues : ∀ q ∈ a.queues, q.isDefault = true →
    ∃ q' ∈ b.queues, q'.userID = q.userID ∧ q'.isDefault = true
  priorities : ∀ p ∈ a.priorities, ∃ p' ∈ b.priorities,
    p'.videoPriorityID = p.videoPriorityID ∧ p'.userID = p.userID
      ∧ p'.isDefault = p.isDefault
  donations : ∀ d ∈ a.donations, ∃ d' ∈ b.donations,
    d'.donationID = d.donationID ∧ d'.userID = d.userID

theorem Extends.refl (a : Db) : Extends a a where
  users u hu := ⟨u, hu, rfl⟩
  queues q hq := ⟨q, hq, rfl, rfl⟩
  defaultQueues q hq hd := ⟨q, hq, rfl, hd⟩
  priorities p hp := ⟨p, hp, rfl, rfl, rfl⟩
  donations d hd := ⟨d, hd, rfl, rfl⟩

theorem Extends.trans {a b c : Db} (hab : Extends a b)
    (hbc : Extends b c) : Extends a c where
  users u hu := by
    obtain ⟨v, hv, hvu⟩ := hab.users u hu
    obtain ⟨w, hw, hwv⟩ := hbc.users v hv
    exact ⟨w, hw, hwv.trans hvu⟩
  queues q hq := by
    obtain ⟨r, hr, hrid, hru⟩ := hab.queues q hq
    obtain ⟨s, hs, hsid, hsu⟩ := hbc.queues r hr
    exact ⟨s, hs, hsid.trans hrid, hsu.trans hru⟩
  defaultQueues q hq hd := by
    obtain ⟨r, hr, hru, hrd⟩ := hab.defaultQueues q hq hd
    obtain ⟨s, hs, hsu, hsd⟩ := hbc.defaultQueues r hr hrd
    exact ⟨s, hs, hsu.trans hru, hsd⟩
  priorities p hp := by
    obtain ⟨q, hq, hqid, hqu, hqd⟩ := hab.priorities p hp
    obtain ⟨r, hr, hrid, hru, hrd⟩ := hbc.priorities q hq
    exact ⟨r, hr, hrid.trans hqid, hru.trans hqu, hrd.trans hqd⟩
  donations d hd := by
    obtain ⟨e, he, heid, heu⟩ := hab.donations d hd
    obtain ⟨f, hf, hfid, hfu⟩ := hbc.donations e he
    exact ⟨f, hf, hfid.trans heid, hfu.trans heu⟩

theorem Owns.mono {a b : Db} (h : Extends a b) {u : UserID}
    {v : VideoValues} (hv : Owns a u v) : Owns b u v := by
  rcases hv with hv | ⟨hn, d, hd, hvd, hdu⟩
  · exact Or.inl hv
  · obtain ⟨d', hd', hid, hu⟩ := h.donations d hd
    exact Or.inr ⟨hn, d', hd', by rw [hid]; exact hvd, hu.trans hdu⟩

-- ================================ references

/-- What a video refers to is there, and the video is ranked. -/
structure VideoRefers (ctx : Db) (v : Video) : Prop where
  owner : ∃ u ∈ ctx.users, Owns ctx u.userID v.toVideoValues
  queue : ∃ q ∈ ctx.queues, v.videoQueueID = some q.videoQueueID
    ∧ Owns ctx q.userID v.toVideoValues
  priority : ∀ id, v.videoPriorityID = some id →
    ∃ p ∈ ctx.priorities, p.videoPriorityID = id
      ∧ Owns ctx p.userID v.toVideoValues
  ranked : v.videoPriorityID = none ↔ v.Unranked

/-- Rows refer to rows of the database. -/
structure Refers (ctx rows : Db) : Prop where
  defaultQueue : ∀ u ∈ rows.users, ∃ q ∈ ctx.queues,
    q.userID = u.userID ∧ q.isDefault = true
  defaultPriority : ∀ u ∈ rows.users, ∃ p ∈ ctx.priorities,
    p.userID = u.userID ∧ p.isDefault = true
  queueUser : ∀ q ∈ rows.queues, ∃ u ∈ ctx.users, u.userID = q.userID
  priorityUser : ∀ p ∈ rows.priorities, ∃ u ∈ ctx.users,
    u.userID = p.userID
  donationUser : ∀ d ∈ rows.donations, ∃ u ∈ ctx.users,
    u.userID = d.userID
  video : ∀ v ∈ rows.videos, VideoRefers ctx v

/-- A video's references stay good while the database grows. -/
theorem VideoRefers.mono {a b : Db} (h : Extends a b) {v : Video}
    (hv : VideoRefers a v) : VideoRefers b v where
  owner := by
    obtain ⟨u, hu, hown⟩ := hv.owner
    obtain ⟨u', hu', hid⟩ := h.users u hu
    exact ⟨u', hu', by rw [hid]; exact hown.mono h⟩
  queue := by
    obtain ⟨q, hq, hid, hown⟩ := hv.queue
    obtain ⟨q', hq', hid', hu'⟩ := h.queues q hq
    exact ⟨q', hq', by rw [hid, hid'], by rw [hu']; exact hown.mono h⟩
  priority id hid := by
    obtain ⟨p, hp, hpid, hown⟩ := hv.priority id hid
    obtain ⟨p', hp', hid', hu', -⟩ := h.priorities p hp
    exact ⟨p', hp', hid'.trans hpid, by rw [hu']; exact hown.mono h⟩
  ranked := hv.ranked

/-- The references of rows stay good while the database grows. -/
theorem Refers.mono {a b rows : Db} (h : Extends a b)
    (hr : Refers a rows) : Refers b rows where
  defaultQueue u hu := by
    obtain ⟨q, hq, hqu, hqd⟩ := hr.defaultQueue u hu
    obtain ⟨q', hq', hu', hd'⟩ := h.defaultQueues q hq hqd
    exact ⟨q', hq', hu'.trans hqu, hd'⟩
  defaultPriority u hu := by
    obtain ⟨p, hp, hpu, hpd⟩ := hr.defaultPriority u hu
    obtain ⟨p', hp', -, hu', hd'⟩ := h.priorities p hp
    exact ⟨p', hp', hu'.trans hpu, hd'.trans hpd⟩
  queueUser q hq := by
    obtain ⟨u, hu, hid⟩ := hr.queueUser q hq
    obtain ⟨u', hu', hid'⟩ := h.users u hu
    exact ⟨u', hu', hid'.trans hid⟩
  priorityUser p hp := by
    obtain ⟨u, hu, hid⟩ := hr.priorityUser p hp
    obtain ⟨u', hu', hid'⟩ := h.users u hu
    exact ⟨u', hu', hid'.trans hid⟩
  donationUser d hd := by
    obtain ⟨u, hu, hid⟩ := hr.donationUser d hd
    obtain ⟨u', hu', hid'⟩ := h.users u hu
    exact ⟨u', hu', hid'.trans hid⟩
  video v hv := (hr.video v hv).mono h

/-- An overlay refers to what its parts do. -/
theorem Refers.overlay {ctx a b : Db} (ha : Refers ctx a)
    (hb : Refers ctx b) : Refers ctx (a.overlay b) where
  defaultQueue u hu := (Table.mem_overlay.mp hu).elim (hb.defaultQueue u)
    fun h => ha.defaultQueue u h.1
  defaultPriority u hu := (Table.mem_overlay.mp hu).elim
    (hb.defaultPriority u) fun h => ha.defaultPriority u h.1
  queueUser q hq := (Table.mem_overlay.mp hq).elim (hb.queueUser q)
    fun h => ha.queueUser q h.1
  priorityUser p hp := (Table.mem_overlay.mp hp).elim (hb.priorityUser p)
    fun h => ha.priorityUser p h.1
  donationUser d hd := (Table.mem_overlay.mp hd).elim (hb.donationUser d)
    fun h => ha.donationUser d h.1
  video v hv := (Table.mem_overlay.mp hv).elim (hb.video v)
    fun h => ha.video v h.1

-- ==================================== stores

/-- Every row of a store refers to the store. -/
def Db.Good (db : Db) : Prop := Refers db db

/-- What a statement writes on what it sees. -/
structure Sound (view written : Db) : Prop where
  keeps : Extends view (view.overlay written)
  refers : Refers (view.overlay written) written

theorem Sound.good {view written : Db} (h : Sound view written)
    (hview : view.Good) : (view.overlay written).Good :=
  (hview.mono h.keeps).overlay h.refers

/-- A statement of a transaction goes on what was written before. -/
theorem Sound.overlay {db a b : Db} (ha : Sound db a)
    (hb : Sound (db.overlay a) b) : Sound db (a.overlay b) := by
  have hassoc : db.overlay (a.overlay b) = (db.overlay a).overlay b :=
    (Sessions.Versioned.overlay_assoc db a b).symm
  refine ⟨?_, ?_⟩
  · rw [hassoc]
    exact ha.keeps.trans hb.keeps
  · rw [hassoc]
    exact (ha.refers.mono hb.keeps).overlay hb.refers

/-- What is there after one overlay is there, in some version, after
another one. -/
theorem Extends.overlay {a b w : Db} (h : Extends a b)
    (hqueues : w.queues = .empty) :
    Extends (a.overlay w) (b.overlay w) where
  users u hu := by
    rcases Table.mem_overlay.mp hu with hu | ⟨hu, -⟩
    · exact ⟨u, Table.mem_overlay.mpr (Or.inl hu), rfl⟩
    · obtain ⟨u', hu', hid⟩ := h.users u hu
      obtain ⟨u'', hu'', hid', -⟩ := Table.exists_overlay (w := w.users) hu'
      exact ⟨u'', hu'', hid'.trans hid⟩
  queues q hq := by
    rw [show (a.overlay w).queues = a.queues.overlay w.queues from rfl,
      hqueues, Table.overlay_empty] at hq
    rw [show (b.overlay w).queues = b.queues.overlay w.queues from rfl,
      hqueues, Table.overlay_empty]
    exact h.queues q hq
  defaultQueues q hq hd := by
    rw [show (a.overlay w).queues = a.queues.overlay w.queues from rfl,
      hqueues, Table.overlay_empty] at hq
    rw [show (b.overlay w).queues = b.queues.overlay w.queues from rfl,
      hqueues, Table.overlay_empty]
    exact h.defaultQueues q hq hd
  priorities p hp := by
    rcases Table.mem_overlay.mp hp with hp | ⟨hp, hnot⟩
    · exact ⟨p, Table.mem_overlay.mpr (Or.inl hp), rfl, rfl, rfl⟩
    · obtain ⟨q, hq, hid, hu, hd⟩ := h.priorities p hp
      refine ⟨q, Table.mem_overlay.mpr (Or.inr ⟨hq, ?_⟩), hid, hu, hd⟩
      rw [hid]
      exact hnot
  donations d hd := by
    rcases Table.mem_overlay.mp hd with hd | ⟨hd, hnot⟩
    · exact ⟨d, Table.mem_overlay.mpr (Or.inl hd), rfl, rfl⟩
    · obtain ⟨e, he, hid, hu⟩ := h.donations d hd
      refine ⟨e, Table.mem_overlay.mpr (Or.inr ⟨he, ?_⟩), hid, hu⟩
      rw [hid]
      exact hnot

/-- What is there before an overlay is there after it, where the overlay
keeps the references of a store that what was written apart from it
extends. -/
theorem Extends.beside {db a w : Db} (hapart : w.Apart a)
    (hw : Extends db (db.overlay w)) (hqueues : w.queues = .empty)
    (hdb : Extends db (db.overlay a)) :
    Extends (db.overlay a) ((db.overlay a).overlay w) := by
  have hover := hdb.overlay hqueues
  refine ⟨?_, ?_, ?_, ?_, ?_⟩
  · intro u _
    obtain ⟨u', hu', hid, -⟩ :=
      Table.exists_overlay (w := w.users) ‹u ∈ (db.overlay a).users›
    exact ⟨u', hu', hid⟩
  · intro q hq
    rw [show ((db.overlay a).overlay w).queues
      = (db.overlay a).queues.overlay w.queues from rfl, hqueues,
      Table.overlay_empty]
    exact ⟨q, hq, rfl, rfl⟩
  · intro q hq hd
    rw [show ((db.overlay a).overlay w).queues
      = (db.overlay a).queues.overlay w.queues from rfl, hqueues,
      Table.overlay_empty]
    exact ⟨q, hq, rfl, hd⟩
  · intro p hp
    rcases Table.mem_overlay.mp hp with hpa | ⟨hpdb, -⟩
    · refine ⟨p, Table.mem_overlay.mpr (Or.inr ⟨hp, fun q hq => ?_⟩),
        rfl, rfl, rfl⟩
      exact hapart.2.2.1 q hq p hpa
    · obtain ⟨q, hq, hid, hu, hd⟩ := hw.priorities p hpdb
      obtain ⟨r, hr, hid', hu', hd'⟩ := hover.priorities q hq
      exact ⟨r, hr, hid'.trans hid, hu'.trans hu, hd'.trans hd⟩
  · intro d hd
    rcases Table.mem_overlay.mp hd with hda | ⟨hddb, -⟩
    · refine ⟨d, Table.mem_overlay.mpr (Or.inr ⟨hd, fun e he => ?_⟩),
        rfl, rfl⟩
      exact hapart.2.2.2.1 e he d hda
    · obtain ⟨e, he, hid, hu⟩ := hw.donations d hddb
      obtain ⟨f, hf, hid', hu'⟩ := hover.donations e he
      exact ⟨f, hf, hid'.trans hid, hu'.trans hu⟩

/-- What an open transaction has written stays sound when another one
commits. -/
theorem Sound.stable {db a w : Db} (hw : Sound db w)
    (hqueues : w.queues = .empty) (ha : Sound db a)
    (hapart : w.Apart a) : Sound (db.overlay a) w where
  keeps := Extends.beside hapart hw.keeps hqueues ha.keeps
  refers := hw.refers.mono (ha.keeps.overlay hqueues)

-- ============================== written rows

/-- A row through the trigger refers to what the trigger saw. -/
theorem Stored.refers {db : Db} (hdb : db.Good) {retain : Bool}
    {old : Option VideoValues} {new : VideoValues} {v : Video}
    (h : Stored db retain old new v) : VideoRefers db v where
  owner := by
    obtain ⟨q, hq, -, hown⟩ := h.queueOwner
    obtain ⟨u, hu, hid⟩ := hdb.queueUser q hq
    exact ⟨u, hu, by rw [hid]; exact h.owns.mpr hown⟩
  queue := by
    obtain ⟨q, hq, hid, hown⟩ := h.queueOwner
    exact ⟨q, hq, hid, h.owns.mpr hown⟩
  priority _ hid := h.priorityOwner hid
  ranked := h.ranked

/-- Columns that no reference goes by. -/
theorem VideoRefers.annotate {ctx : Db} {old v : Video}
    (h : VideoRefers ctx old) {title : Option String}
    {watchedAt bookmarkedAt : Option Time}
    (hv : v.toVideoValues
      = { old.toVideoValues with title, watchedAt, bookmarkedAt }) :
    VideoRefers ctx v where
  owner := by
    rw [hv]
    exact h.owner
  queue := by
    rw [hv]
    exact h.queue
  priority := by
    rw [hv]
    exact h.priority
  ranked := by
    rw [hv]
    exact h.ranked

/-- No rows refer to anything. -/
theorem refers_empty (ctx : Db) : Refers ctx .empty where
  defaultQueue _ hu := absurd hu Table.not_mem_empty
  defaultPriority _ hu := absurd hu Table.not_mem_empty
  queueUser _ hq := absurd hq Table.not_mem_empty
  priorityUser _ hp := absurd hp Table.not_mem_empty
  donationUser _ hd := absurd hd Table.not_mem_empty
  video _ hv := absurd hv Table.not_mem_empty

theorem extends_empty (view : Db) : Extends view (view.overlay .empty) := by
  rw [show view.overlay .empty = view from
    Sessions.Versioned.overlay_empty view]
  exact Extends.refl view

/-- A statement that writes to the video table and to what hangs on it
alone. -/
theorem sound_videos {view : Db} {videos : Table fun v : Video => v.videoID}
    {scans : Table VideoScan.donationID} {jobs : Table MetadataJob.videoID}
    (h : ∀ v ∈ videos, VideoRefers view v) :
    Sound view { Db.empty with videos, scans, jobs } := by
  have hkeeps : Extends view
      (view.overlay { Db.empty with videos, scans, jobs }) :=
    { extends_empty view with }
  exact ⟨hkeeps, { refers_empty _ with
    video := fun v hv => (h v hv).mono hkeeps }⟩

/-- A statement that writes to the scans and jobs alone. -/
theorem sound_work {view : Db} {scans : Table VideoScan.donationID}
    {jobs : Table MetadataJob.videoID} :
    Sound view { Db.empty with scans, jobs } :=
  sound_videos fun v hv => absurd (show v ∈ Db.empty.videos from hv)
    Table.not_mem_empty

end StreamBrew.Videos
