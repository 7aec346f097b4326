/-
What a walk through the pages of a listing shows.

The rows of a page are a stretch of one ordered list (`listed`,
`sharedListed`, `donationsListed`). Each order ends with the identifier of
the row, so it is strict (`orderBy_strict`): the list depends on which
rows match, not on the order in which the database comes upon them
(`SameRows`), and every page cuts its stretch from the same list. The
counts are of the same rows as the pages, although the statements that
count join other tables: the owner of a video is a user.

Grouped by priority, the videos of a status are counted once each
(`sum_priorityCountRows`); under a name that only one group has, a group
has its own count (`get?_priorityCounts`).
-/
import StreamBrew.Lib.Pages
import StreamBrew.Videos.Listing

namespace StreamBrew.Videos

open Relational
open Alert (UserID DonationID Time)
open Pages (Shown Walk)

-- ================================== ordering

section Order

variable {α β : Type*} [LinearOrder β] {order : α → β} {l l' : List α}

/-- The rows that meet a condition, each of them once, in an order. -/
structure Lists (rows all : List α) (p : α → Bool) (order : α → β) :
    Prop where
  mem : ∀ a, a ∈ rows ↔ a ∈ all ∧ p a = true
  sorted : rows.Pairwise fun a b => order a < order b

theorem lists_orderBy {p : α → Bool} (hl : l.Nodup)
    (hkey : ∀ a ∈ l, ∀ b ∈ l, order a = order b → a = b) :
    Lists (orderBy order (l.filter p)) l p order where
  mem a := by rw [mem_orderBy, List.mem_filter]
  sorted := by
    have hnodup : (orderBy order (l.filter p)).Nodup :=
      orderBy_perm.nodup_iff.mpr (hl.filter p)
    have hboth := pairwise_orderBy.and hnodup
    refine hboth.imp_of_mem fun {a b} ha hb h => ?_
    have ha' := (List.mem_filter.mp (mem_orderBy.mp ha)).1
    have hb' := (List.mem_filter.mp (mem_orderBy.mp hb)).1
    exact lt_of_le_of_ne h.1 fun heq => h.2 (hkey a ha' b hb' heq)

/-- Rows that meet the same condition, come upon in another order. -/
theorem orderBy_filter_perm {p p' : α → Bool} (h : l.Perm l')
    (hp : ∀ a ∈ l, p a = p' a)
    (hkey : ∀ a ∈ l, ∀ b ∈ l, order a = order b → a = b) :
    orderBy order (l.filter p) = orderBy order (l'.filter p') := by
  rw [List.filter_congr hp]
  refine orderBy_congr order (h.filter p') fun a ha b hb => ?_
  exact hkey a (List.mem_filter.mp ha).1 b (List.mem_filter.mp hb).1

/-- Rows in groups are counted once each. -/
theorem sum_countP_dedup {γ : Type*} [DecidableEq γ] (f : α → γ) (l : List α) :
    ((l.map f).dedup.map fun c => l.countP fun a => f a = c).sum
      = l.length := by
  have hsum := List.sum_map_count_dedup_eq_length (l.map f)
  rw [List.length_map] at hsum
  rw [← hsum]
  refine congrArg List.sum (List.map_congr_left fun c _ => ?_)
  rw [List.count, List.countP_map]
  refine List.countP_congr fun a _ => ?_
  rw [Function.comp_apply, decide_eq_true_iff, beq_iff_eq]

end Order

theorem getPaginationWindow_eq (total : Nat) (k size : ℕ+) :
    getPaginationWindow total k size
      = { offset := (Pages.shownPage total size k - 1) * size
          page := Pages.shownPage total size k
          totalPages := Pages.count total size } := rfl

theorem parseRows_map {α β γ : Type} (f : α → β) (schema : β → Option γ)
    (rows : List α) :
    parseRows schema (rows.map f) = rows.mapM fun a => schema (f a) :=
  List.mapM_map

-- ==================================== videos

/-- The same rows, come upon in another order. -/
structure SameRows (d d' : Db) : Prop where
  users : d'.users = d.users
  queues : d'.queues = d.queues
  priorities : d'.priorities = d.priorities
  jobs : d'.jobs = d.jobs
  donations : d'.donations.rows.Perm d.donations.rows
  videos : d'.videos.rows.Perm d.videos.rows

theorem get?_perm {α κ : Type*} [DecidableEq κ] {key : α → κ}
    {t t' : Table key} (h : t'.rows.Perm t.rows) (k : κ) :
    t'.get? k = t.get? k := by
  cases hg : t.get? k with
  | none =>
      exact Table.get?_eq_none.mpr fun a ha =>
        Table.get?_eq_none.mp hg a (h.mem_iff.mp ha)
  | some a =>
      obtain ⟨ha, hk⟩ := Table.get?_eq_some.mp hg
      exact Table.get?_eq_some.mpr ⟨h.mem_iff.mpr ha, hk⟩

section Same

variable {d d' : Db} (h : SameRows d d') (v : VideoValues)

include h

theorem donationOf_same : donationOf d' v = donationOf d v := by
  unfold donationOf
  exact congrArg _ (funext fun k => get?_perm h.donations k)

theorem createdAt_same : createdAt d' v = createdAt d v := by
  rw [createdAt, donationOf_same h, createdAt]

theorem ownerID_same : ownerID v d' = ownerID v d := by
  have hdonation (k : DonationID) : d'.donations.get? k = d.donations.get? k :=
    get?_perm h.donations k
  simp only [ownerID, hdonation]

theorem priorityOf_same : priorityOf d' v = priorityOf d v := by
  rw [priorityOf, h.priorities, priorityOf]

theorem metadataUnavailable_same :
    metadataUnavailable d' v = metadataUnavailable d v := by
  rw [metadataUnavailable, h.jobs, metadataUnavailable]

theorem videoRow_same (u : User) : videoRow d' u v = videoRow d u v := by
  rw [videoRow, videoRow, donationOf_same h, createdAt_same h,
    priorityOf_same h, metadataUnavailable_same h, metadataRetryAt, h.jobs,
    metadataRetryAt]

end Same

theorem nodup_videoValues (d : Db) : (videoValues d).Nodup := by
  refine List.Nodup.of_map VideoValues.videoID ?_
  rw [videoValues, List.map_map]
  exact d.videos.nodup

theorem videoID_inj {d : Db} {v w : VideoValues} (hv : v ∈ videoValues d)
    (hw : w ∈ videoValues d) (h : v.videoID = w.videoID) : v = w := by
  obtain ⟨a, ha, rfl⟩ := List.mem_map.mp hv
  obtain ⟨b, hb, rfl⟩ := List.mem_map.mp hw
  exact congrArg Video.toVideoValues (Table.eq_of_key (t := d.videos) ha hb h)

theorem listOrder_inj {d : Db} {status : VideoStatus} {v w : VideoValues}
    (hv : v ∈ videoValues d) (hw : w ∈ videoValues d)
    (h : listOrder d status v = listOrder d status w) : v = w := by
  refine videoID_inj hv hw ?_
  have hlast := congrArg (fun x => (ofLex x).2) h
  exact OrderDual.toDual.injective hlast

-- ================================== listPage

section ListPage

variable {κ ι δ : Type} (schemas : ListSchemas κ ι δ) (userID : UserID)
  (filter : ListFilter) (pageSize : ℕ+) (d : Db)

/-- What is shown of a page of videos. -/
def listRequest (k : ℕ+) : Option (Shown ι) :=
  ((listPage schemas userID { filter with page := k, pageSize } d).bind
    Except.toOption).map fun p => ⟨p.items, p.page, p.total, p.totalPages⟩

/-- All videos that match, in the order of the pages. -/
def listed (videoQueueID : VideoQueueID) : List VideoValues :=
  orderBy (listOrder d filter.videoStatus)
    ((videoValues d).filter (filter.matches userID d videoQueueID))

/-- What the database promises: the owner of a video is a user, and
priorities are numbered from one. -/
structure Db.Keyed (d : Db) : Prop where
  owner : ∀ v ∈ d.videos, ∀ userID, ownerID v.toVideoValues d = some userID →
    (d.users.get? userID).isSome = true
  priority : ∀ v ∈ d.videos, ∀ videoPriorityID,
    v.videoPriorityID = some videoPriorityID → 0 < videoPriorityID

variable {schemas userID filter pageSize d} {videoQueueID : VideoQueueID}

theorem matches_owner {v : VideoValues}
    (h : filter.matches userID d videoQueueID v = true) :
    ownerID v d = some userID := by
  simp only [ListFilter.matches, ownedIn, Bool.and_eq_true,
    decide_eq_true_eq] at h
  exact h.1.1.1.1

/-- A video that matches has a user to be joined with. -/
theorem user_of_matches (hd : d.Keyed) {v : VideoValues}
    (hv : v ∈ videoValues d)
    (h : filter.matches userID d videoQueueID v = true) :
    ∃ u, d.users.get? userID = some u := by
  obtain ⟨row, hrow, rfl⟩ := List.mem_map.mp hv
  exact Option.isSome_iff_exists.mp
    (hd.owner row hrow userID (matches_owner h))

theorem listTotal_eq :
    listTotal userID d videoQueueID filter
      = (listed userID filter d videoQueueID).length := by
  rw [listTotal, listed, orderBy_perm.length_eq, List.countP_eq_length_filter]

/-- What the rows of a page read as. -/
def readVideo (schemas : ListSchemas κ ι δ) (userID : UserID) (d : Db)
    (v : VideoValues) : Option ι :=
  (d.users.get? userID).bind fun u => schemas.video (videoRow d u v)

/-- The rows of a page are a stretch of the videos that match. -/
theorem parse_listRows (hd : d.Keyed) (k : ℕ+) :
    parseRows schemas.video (listRows userID d videoQueueID filter
        (getPaginationWindow (listTotal userID d videoQueueID filter) k
          pageSize) pageSize)
      = (Pages.page (listed userID filter d videoQueueID) pageSize
          (Pages.shownPage (listed userID filter d videoQueueID).length
            pageSize k - 1)).mapM (readVideo schemas userID d) := by
  rw [getPaginationWindow_eq, listTotal_eq, listRows]
  cases hu : d.users.get? userID with
  | none =>
      have hnone : listed userID filter d videoQueueID = [] := by
        refine List.eq_nil_iff_forall_not_mem.mpr fun v hv => ?_
        obtain ⟨hv, hmatches⟩ := List.mem_filter.mp (mem_orderBy.mp hv)
        obtain ⟨u, hu'⟩ := user_of_matches hd hv hmatches
        rw [hu] at hu'
        cases hu'
      rw [hnone, Pages.page, List.drop_nil, List.take_nil]
      rfl
  | some u =>
      have hread : readVideo schemas userID d
          = fun v => schemas.video (videoRow d u v) := by
        funext v
        rw [readVideo, hu, Option.bind_some]
      rw [hread]
      exact parseRows_map _ _ _

/-- The requests for the pages of a queue. -/
theorem listRequest_eq (hd : d.Keyed) {q : VideoQueue}
    (hq : listedQueue userID d filter = some q) :
    listRequest schemas userID filter pageSize d
      = Pages.answer (readVideo schemas userID d)
          (listed userID filter d q.videoQueueID) pageSize fun _ =>
            (schemas.queue q).isSome && (parseRows schemas.duration
              (priorityDurationRows userID d q.videoQueueID)).isSome := by
  funext k
  rw [listRequest, listPage]
  simp only [hq, Pages.answer]
  rw [← parse_listRows hd, getPaginationWindow_eq, listTotal_eq]
  cases schemas.queue q with
  | none => rfl
  | some queue =>
      rw [Option.bind_some, Option.isSome_some, Bool.true_and]
      cases parseRows schemas.video _ with
      | none => cases (parseRows schemas.duration _).isSome <;> rfl
      | some items =>
          rw [Option.bind_some]
          cases parseRows schemas.duration _ with
          | none => rfl
          | some durations => rfl

theorem listed_lists :
    Lists (listed userID filter d videoQueueID) (videoValues d)
      (filter.matches userID d videoQueueID)
      (listOrder d filter.videoStatus) :=
  lists_orderBy (nodup_videoValues d) fun _ hv _ hw => listOrder_inj hv hw

end ListPage

-- ==================================== counts

/-- Entries with distinct keys are all put in. -/
theorem foldl_put {β : Type} {entries : List (Nat × β)}
    {t : Table fun entry : Nat × β => entry.1}
    (h : (entries.map Prod.fst ++ t.rows.map Prod.fst).Nodup) :
    (entries.foldl Table.put t).rows = entries.reverse ++ t.rows := by
  induction entries generalizing t with
  | nil => rfl
  | cons e entries ih =>
      have hnew : (t.put e).rows = e :: t.rows := by
        refine congrArg (e :: ·) (congrArg Table.rows (Table.erase_eq_self ?_))
        refine Table.get?_eq_none.mpr fun a ha heq => ?_
        have heq : a.1 = e.1 := heq
        rw [List.map_cons, List.cons_append, List.nodup_cons, ← heq] at h
        exact h.1 (List.mem_append_right _ (List.mem_map_of_mem ha))
      have hnodup : (entries.map Prod.fst
          ++ (t.put e).rows.map Prod.fst).Nodup := by
        rw [hnew, List.map_cons]
        exact List.perm_middle.nodup_iff.mpr h
      rw [List.foldl_cons, ih hnodup, hnew, List.reverse_cons,
        List.append_assoc]
      rfl

theorem fromEntries_rows {β : Type} {entries : List (Nat × β)}
    (h : (entries.map Prod.fst).Nodup) :
    (fromEntries entries).rows = entries.reverse := by
  have hnodup : (entries.map Prod.fst
      ++ (Table.empty : Table fun entry : Nat × β => entry.1).rows.map
        Prod.fst).Nodup := by
    rw [show (Table.empty : Table fun entry : Nat × β => entry.1).rows = []
      from rfl, List.map_nil, List.append_nil]
    exact h
  rw [fromEntries, foldl_put hnodup]
  exact List.append_nil _

section Counts

variable (userID : UserID) (d : Db) (videoQueueID : VideoQueueID)
  (status : VideoStatus)

/-- The videos of a queue with a status. -/
def counted : List VideoValues :=
  (videoValues d).filter fun v =>
    ownedIn userID d videoQueueID v && status.holds v

theorem length_counted :
    (counted userID d videoQueueID status).length
      = (statusCounts userID d videoQueueID).entry status := by
  have hfilter : counted userID d videoQueueID status
      = ((videoValues d).filter (ownedIn userID d videoQueueID)).filter
        status.holds := by
    rw [List.filter_filter, counted]
    exact List.filter_congr fun v _ => Bool.and_comm _ _
  rw [hfilter, ← List.countP_eq_length_filter]
  cases status with
  | all => exact congrFun List.countP_true _
  | notwatched | watched | bookmarked => rfl

/-- Each video is counted in one group. -/
theorem sum_priorityCountRows :
    ((priorityCountRows userID d videoQueueID status).map Prod.snd).sum
      = (counted userID d videoQueueID status).length := by
  have hsum := sum_countP_dedup (fun v => v.videoPriorityID)
    (counted userID d videoQueueID status)
  rw [← hsum, priorityCountRows, List.map_map]
  rfl

variable {userID d videoQueueID status}

theorem mem_counted {v : VideoValues}
    (h : v ∈ counted userID d videoQueueID status) : v ∈ videoValues d :=
  (List.mem_filter.mp h).1

/-- No priority has the name of the group without one. -/
theorem getD_inj (hd : d.Keyed) {g g' : Option VideoPriorityID}
    (hg : g ∈ (counted userID d videoQueueID status).map
      fun v => v.videoPriorityID)
    (hg' : g' = none ∨ ∃ n : Nat, g' = some n ∧ 0 < n)
    (h : g.getD 0 = g'.getD 0) : g = g' := by
  have hpos : ∀ n, g = some n → 0 < n := by
    intro n hn
    obtain ⟨v, hv, heq⟩ := List.mem_map.mp hg
    obtain ⟨row, hrow, rfl⟩ := List.mem_map.mp (mem_counted hv)
    exact hd.priority row hrow n (heq.trans hn)
  cases g with
  | none =>
      rcases hg' with rfl | ⟨n, rfl, hn⟩
      · rfl
      · exact absurd h (Nat.ne_of_lt hn)
  | some m =>
      have hm := hpos m rfl
      rcases hg' with rfl | ⟨n, rfl, hn⟩
      · exact absurd h (Nat.ne_of_gt hm)
      · exact congrArg some h

theorem nodup_priorityCountRows (hd : d.Keyed) :
    ((priorityCountRows userID d videoQueueID status).map Prod.fst).Nodup := by
  rw [priorityCountRows, List.map_map]
  refine List.Nodup.map_on (fun g hg g' hg' h => ?_) (List.nodup_dedup _)
  refine getD_inj hd (List.mem_dedup.mp hg) ?_ h
  cases g' with
  | none => exact Or.inl rfl
  | some n =>
      obtain ⟨v, hv, heq⟩ := List.mem_map.mp (List.mem_dedup.mp hg')
      obtain ⟨row, hrow, rfl⟩ := List.mem_map.mp (mem_counted hv)
      exact Or.inr ⟨n, rfl, hd.priority row hrow n heq⟩

/-- The count of a group, under its name. -/
theorem get?_priorityCounts (hd : d.Keyed) {group : Option VideoPriorityID}
    (hgroup : group = none ∨ ∃ n : Nat, group = some n ∧ 0 < n) :
    (((fromEntries (priorityCountRows userID d videoQueueID status)).get?
        (group.getD 0)).map Prod.snd).getD 0
      = (counted userID d videoQueueID status).countP
          fun v => v.videoPriorityID = group := by
  have hmem {e : Nat × Nat} :
      e ∈ fromEntries (priorityCountRows userID d videoQueueID status)
        ↔ e ∈ priorityCountRows userID d videoQueueID status := by
    rw [Table.mem_def, fromEntries_rows (nodup_priorityCountRows hd),
      List.mem_reverse]
  by_cases hin : group ∈ (counted userID d videoQueueID status).map
      fun v => v.videoPriorityID
  · have hentry : (group.getD 0, (counted userID d videoQueueID status).countP
          fun v => v.videoPriorityID = group)
        ∈ priorityCountRows userID d videoQueueID status :=
      List.mem_map.mpr ⟨group, List.mem_dedup.mpr hin, rfl⟩
    rw [Table.get?_eq_some.mpr ⟨hmem.mpr hentry, rfl⟩]
    rfl
  · have hnone : (fromEntries
        (priorityCountRows userID d videoQueueID status)).get?
          (group.getD 0) = none := by
      refine Table.get?_eq_none.mpr fun e he heq => ?_
      obtain ⟨g, hg, rfl⟩ := List.mem_map.mp (hmem.mp he)
      have hg := List.mem_dedup.mp hg
      rw [← getD_inj hd hg hgroup heq] at hin
      exact hin hg
    rw [hnone, Option.map_none, Option.getD_none, eq_comm,
      List.countP_eq_zero]
    intro v hv heq
    exact hin (List.mem_map.mpr ⟨v, hv, of_decide_eq_true heq⟩)

/-- Without a focused video, a page lists what its entry counts. -/
theorem listTotal_entry (hd : d.Keyed) {filter : ListFilter}
    (hfocus : filter.videoID = none) {group : Option VideoPriorityID}
    (hgroup : group = none ∨ ∃ n : Nat, group = some n ∧ 0 < n)
    (hfilter : ∀ v, filter.videoPriorityID.holds v
      = decide (v.videoPriorityID = group)) :
    listTotal userID d videoQueueID filter
      = (((fromEntries (priorityCountRows userID d videoQueueID
          filter.videoStatus)).get? (group.getD 0)).map Prod.snd).getD 0 := by
  rw [get?_priorityCounts hd hgroup, listTotal, counted, List.countP_filter]
  refine List.countP_congr fun v _ => ?_
  rw [ListFilter.matches, hfocus, hfilter]
  simp only [Option.all_none, Bool.and_true, Bool.and_eq_true]
  tauto

end Counts

-- ============================= the same rows

section SameRows

variable {d d' : Db}

theorem videoValues_same (h : SameRows d d') :
    (videoValues d').Perm (videoValues d) := h.videos.map _

theorem Db.Keyed.same (hd : d.Keyed) (h : SameRows d d') : d'.Keyed where
  owner v hv userID howner := by
    rw [h.users]
    rw [ownerID_same h] at howner
    exact hd.owner v (h.videos.mem_iff.mp hv) userID howner
  priority v hv := hd.priority v (h.videos.mem_iff.mp hv)

variable {κ ι δ : Type} {schemas : ListSchemas κ ι δ} {userID : UserID}
  {filter : ListFilter} {pageSize : ℕ+}

theorem listedQueue_same (h : SameRows d d') :
    listedQueue userID d' filter = listedQueue userID d filter := by
  have hvideo (k : VideoID) : d'.videos.get? k = d.videos.get? k :=
    get?_perm h.videos k
  simp only [listedQueue, hvideo, h.queues]

theorem listed_same (h : SameRows d d') (videoQueueID : VideoQueueID) :
    listed userID filter d' videoQueueID
      = listed userID filter d videoQueueID := by
  have horder : listOrder d' filter.videoStatus
      = listOrder d filter.videoStatus := by
    funext v
    simp only [listOrder, createdAt_same h]
  rw [listed, horder]
  refine orderBy_filter_perm (videoValues_same h) (fun v _ => ?_)
    fun v hv w hw heq => ?_
  · simp only [ListFilter.matches, ownedIn, ownerID_same h]
  · have hv' := (videoValues_same h).mem_iff.mp hv
    have hw' := (videoValues_same h).mem_iff.mp hw
    exact listOrder_inj hv' hw' heq

theorem readVideo_same (h : SameRows d d') :
    readVideo schemas userID d' = readVideo schemas userID d := by
  funext v
  simp only [readVideo, h.users, videoRow_same h]

theorem priorityDurationRows_same (h : SameRows d d')
    (videoQueueID : VideoQueueID) :
    priorityDurationRows userID d' videoQueueID
      = priorityDurationRows userID d videoQueueID := by
  rw [priorityDurationRows, h.priorities, priorityDurationRows]
  refine List.map_congr_left fun p _ => ?_
  rw [priorityDuration, priorityDuration]
  have hperm := (videoValues_same h).filter fun v =>
    v.videoPriorityID = some p.videoPriorityID
      ∧ v.videoQueueID = some videoQueueID ∧ v.watchedAt = none
  exact congrArg _ (hperm.map _).sum_eq

theorem listRequest_same (h : SameRows d d') (hd : d.Keyed) {q : VideoQueue}
    (hq : listedQueue userID d filter = some q) :
    listRequest schemas userID filter pageSize d'
      = listRequest schemas userID filter pageSize d := by
  have hq' : listedQueue userID d' filter = some q := by
    rw [listedQueue_same h, hq]
  rw [listRequest_eq hd hq, listRequest_eq (hd.same h) hq', listed_same h,
    readVideo_same h, priorityDurationRows_same h]

end SameRows

-- ============================ listSharedPage

section SharedPage

variable {σ π κ : Type} (schemas : Schemas σ π κ) (slug : String)
  (status : SharedVideoStatus) (videoQueueID : Option VideoQueueID)
  (pageSize : ℕ+) (d : PublicDb)

/-- What is shown of a public page. -/
def sharedRequest (k : ℕ+) : Option (Shown σ) :=
  ((listSharedPage schemas slug ⟨k, pageSize, status, videoQueueID⟩ d).bind
    id).map fun p => ⟨p.items, p.page, p.total, p.totalPages⟩

/-- All videos that are listed, in the order of the pages. -/
def sharedListed (u : PublicUser) (videoQueueID : VideoQueueID)
    (status : SharedVideoStatus) (d : Db) : List VideoValues :=
  orderBy (fun v => sharedOrder d v status)
    ((videoValues d).filter fun v => Listed d u v videoQueueID status)

variable {schemas slug status videoQueueID pageSize d} {u : PublicUser}
  {q : VideoQueue}

theorem sharedOrder_inj {d : Db} {status : SharedVideoStatus}
    {v w : VideoValues} (hv : v ∈ videoValues d) (hw : w ∈ videoValues d)
    (h : sharedOrder d v status = sharedOrder d w status) : v = w := by
  refine videoID_inj hv hw ?_
  have hlast := congrArg (fun x => (ofLex (ofLex x).2).2) h
  exact OrderDual.toDual.injective hlast

theorem sharedListed_lists {d : Db} {videoQueueID : VideoQueueID} :
    Lists (sharedListed u videoQueueID status d) (videoValues d)
      (fun v => Listed d u v videoQueueID status)
      (fun v => sharedOrder d v status) :=
  lists_orderBy (nodup_videoValues d) fun _ hv _ hw => sharedOrder_inj hv hw

theorem sharedTotal_listed {d : Db} {videoQueueID : VideoQueueID} :
    sharedTotal u videoQueueID status d
      = (sharedListed u videoQueueID status d).length := by
  rw [sharedTotal, sharedListed, orderBy_perm.length_eq,
    List.countP_eq_length_filter]
  rfl

/-- The rows of a page are a stretch of the videos that are listed. -/
theorem parse_sharedRows {d : Db} {videoQueueID : VideoQueueID} (k : ℕ+) :
    parseRows schemas.video (sharedRows u videoQueueID status
        (getPaginationWindow (sharedTotal u videoQueueID status d) k
          pageSize) pageSize d)
      = (Pages.page (sharedListed u videoQueueID status d) pageSize
          (Pages.shownPage (sharedListed u videoQueueID status d).length
            pageSize k - 1)).mapM fun v =>
              schemas.video (sharedRow d u v) := by
  rw [getPaginationWindow_eq, sharedTotal_listed]
  exact parseRows_map _ _ _

/-- The totals of the priorities, for the status that has them. -/
def sharedPriorities (u : PublicUser) (videoQueueID : VideoQueueID)
    (status : SharedVideoStatus) (d : Db) : List PriorityRow :=
  match status with
  | .queue => priorityRows u videoQueueID d
  | .watched => []

/-- The requests for the pages of an open queue. -/
theorem sharedRequest_eq
    (hu : d.users.find? (fun u => u.slug = slug) = some u)
    (henabled : u.publicQueueEnabled = true)
    (hq : summaryQueue u videoQueueID d.db = some q) :
    sharedRequest schemas slug status videoQueueID pageSize d
      = Pages.answer (fun v => schemas.video (sharedRow d.db u v))
          (sharedListed u q.videoQueueID (u.status status) d.db) pageSize
          fun _ => (parseRows schemas.queue
              (listQueues u.userID d.db)).isSome
            && (parseRows schemas.priority (sharedPriorities u
              q.videoQueueID (u.status status) d.db)).isSome := by
  funext k
  rw [sharedRequest, listSharedPage]
  simp only [hu, hq, henabled, Bool.not_true, Bool.false_eq_true, if_false,
    Pages.answer]
  rw [← parse_sharedRows, getPaginationWindow_eq, sharedTotal_listed]
  cases parseRows schemas.video _ with
  | none =>
      cases parseRows schemas.queue _ with
      | none => rfl
      | some queues =>
          cases parseRows schemas.priority (sharedPriorities _ _ _ _) with
          | none => rfl
          | some priorities => rfl
  | some items =>
      rw [Option.bind_some]
      cases parseRows schemas.queue _ with
      | none => rfl
      | some queues =>
          rw [Option.bind_some, Option.isSome_some, Bool.true_and]
          show Option.map _ (Option.bind ((parseRows schemas.priority
            (sharedPriorities u q.videoQueueID (u.status status) d.db)).bind
              _) id) = _
          cases parseRows schemas.priority _ with
          | none => rfl
          | some priorities => rfl

theorem sharedRow_same {d d' : Db} (h : SameRows d d') (v : VideoValues) :
    sharedRow d' u v = sharedRow d u v := by
  simp only [sharedRow, displayAmount, displayCurrency, donationOf_same h,
    createdAt_same h, priorityOf_same h, metadataUnavailable_same h]

/-- The shared list does not depend on the order of the rows. -/
theorem sharedListed_same {d d' : Db} (h : SameRows d d')
    (videoQueueID : VideoQueueID) :
    sharedListed u videoQueueID status d'
      = sharedListed u videoQueueID status d := by
  have horder : (fun v => sharedOrder d' v status)
      = fun v => sharedOrder d v status := by
    funext v
    simp only [sharedOrder, priorityOf_same h, createdAt_same h]
  rw [sharedListed, horder]
  refine orderBy_filter_perm (videoValues_same h) (fun v _ => ?_)
    fun v hv w hw heq => ?_
  · refine decide_eq_decide.mpr ?_
    unfold Listed
    rw [ownerID_same h]
  · have hv' := (videoValues_same h).mem_iff.mp hv
    have hw' := (videoValues_same h).mem_iff.mp hw
    exact sharedOrder_inj hv' hw' heq

/-- The shared priorities do not depend on the order of the rows. -/
theorem sharedPriorities_same {d d' : Db} (h : SameRows d d')
    (videoQueueID : VideoQueueID) (status : SharedVideoStatus) :
    sharedPriorities u videoQueueID status d'
      = sharedPriorities u videoQueueID status d := by
  cases status with
  | watched => rfl
  | queue =>
      show priorityRows u videoQueueID d' = priorityRows u videoQueueID d
      rw [priorityRows, h.priorities, priorityRows]
      refine List.map_congr_left fun p _ => ?_
      have hperm := (videoValues_same h).filter fun v =>
        v.videoPriorityID = some p.videoPriorityID
          ∧ v.videoQueueID = some videoQueueID ∧ v.watchedAt = none
      simp only [priorityRow, PriorityRow.mk.injEq, true_and]
      exact ⟨hperm.length_eq, (hperm.map _).sum_eq⟩

/-- The answer to a shared request does not depend on the order of the rows. -/
theorem sharedRequest_same {d' : Db} (h : SameRows d.db d')
    (hu : d.users.find? (fun u => u.slug = slug) = some u)
    (henabled : u.publicQueueEnabled = true)
    (hq : summaryQueue u videoQueueID d.db = some q) :
    sharedRequest schemas slug status videoQueueID pageSize { d with db := d' }
      = sharedRequest schemas slug status videoQueueID pageSize d := by
  have hq' : summaryQueue u videoQueueID d' = some q := by
    rw [summaryQueue, h.queues]
    exact hq
  have hqueues : listQueues u.userID d' = listQueues u.userID d.db := by
    rw [listQueues, h.queues, listQueues]
  have hu' : ({ d with db := d' } : PublicDb).users.find?
      (fun u => u.slug = slug) = some u := hu
  rw [sharedRequest_eq hu henabled hq, sharedRequest_eq hu' henabled hq',
    sharedListed_same h, sharedPriorities_same h, hqueues]
  simp only [sharedRow_same h]

end SharedPage

-- ========================= listDonationsPage

theorem mapM_pair {α β γ : Type} (f : α → Option β) (g : α → γ) (l : List α) :
    (l.mapM fun a => (f a).map fun b => (g a, b)).map (List.map Prod.snd)
      = l.mapM f := by
  induction l with
  | nil => rfl
  | cons a l ih =>
      rw [List.mapM_cons, List.mapM_cons, ← ih]
      cases f a with
      | none => rfl
      | some b =>
          cases l.mapM fun a => (f a).map fun b => (g a, b) with
          | none => rfl
          | some r => rfl

section DonationsPage

variable {ρ ν : Type} (ilike : String → String → Bool) (userID : UserID)
  (schemas : DonationSchemas ρ ν) (filter : DonationFilter) (pageSize : ℕ+)
  (d : Db)

/-- What is shown of a page of donations. -/
def donationsRequest (k : ℕ+) : Option (Shown ρ) :=
  (listDonationsPage ilike userID schemas
    { filter with page := k, pageSize } d).map fun p =>
      ⟨p.items.map DonationItem.donation, p.page, p.total, p.totalPages⟩

/-- All donations that match, in the order of the pages. -/
def donationsListed : List Donation :=
  orderBy donationOrder
    (d.donations.rows.filter (filter.matches ilike userID))

/-- What the schema makes of the videos of some donations. -/
def parseVideos (donations : List Donation) : Option (List (DonationID × ν)) :=
  parseRows (fun r => (schemas.video r).map fun video => (r.donationID, video))
    (donationVideoRows userID (donations.map fun r => r.donationID) d)

variable {ilike userID schemas filter pageSize d}

theorem donationOrder_inj {a b : Donation} (ha : a ∈ d.donations.rows)
    (hb : b ∈ d.donations.rows) (h : donationOrder a = donationOrder b) :
    a = b := by
  have hlast := congrArg (fun x => (ofLex x).2) h
  exact Table.eq_of_key (t := d.donations) ha hb
    (OrderDual.toDual.injective hlast)

theorem donationsListed_lists :
    Lists (donationsListed ilike userID filter d) d.donations.rows
      (filter.matches ilike userID) donationOrder :=
  lists_orderBy (List.Nodup.of_map _ d.donations.nodup)
    fun _ ha _ hb => donationOrder_inj ha hb

theorem donationTotal_listed :
    donationTotal ilike userID filter d
      = (donationsListed ilike userID filter d).length := by
  rw [donationTotal, donationsListed, orderBy_perm.length_eq,
    List.countP_eq_length_filter]

theorem donationRows_listed (k : ℕ+) :
    donationRows ilike userID filter
        (getPaginationWindow (donationsListed ilike userID filter d).length k
          pageSize) pageSize d
      = Pages.page (donationsListed ilike userID filter d) pageSize
          (Pages.shownPage (donationsListed ilike userID filter d).length
            pageSize k - 1) := rfl

/-- The requests for the pages of donations. -/
theorem donationsRequest_eq :
    donationsRequest ilike userID schemas filter pageSize d
      = Pages.answer schemas.donation (donationsListed ilike userID filter d)
          pageSize fun shown => (parseVideos userID schemas d
            (Pages.page (donationsListed ilike userID filter d) pageSize
              (shown - 1))).isSome := by
  funext k
  rw [donationsRequest, listDonationsPage]
  simp only [Pages.answer]
  rw [donationTotal_listed, donationRows_listed, ← mapM_pair schemas.donation
    fun r => r.donationID]
  generalize hpage : Pages.page (donationsListed ilike userID filter d)
    pageSize _ = rows
  have hvideos : parseRows (fun r => (schemas.video r).map fun video =>
      (r.donationID, video)) (donationVideoRows userID
        (rows.map fun r => r.donationID) d)
      = parseVideos userID schemas d rows := rfl
  rw [hvideos]
  cases parseVideos userID schemas d rows with
  | none =>
      cases parseRows _ rows with
      | none => rfl
      | some donations => rfl
  | some videos =>
      rw [getPaginationWindow_eq, Option.isSome_some, ← parseRows]
      cases parseRows _ rows with
      | none => rfl
      | some donations =>
          simp only [Option.bind_some, Option.map_some, List.map_map]
          rfl

theorem donationVideoRow_same {d' : Db} (h : SameRows d d')
    (v : VideoValues) :
    donationVideoRow userID d' v = donationVideoRow userID d v := by
  simp only [donationVideoRow, donationOf_same h, h.users, priorityOf_same h]

theorem videoID_of_row {v : VideoValues} {r : DonationVideoRow}
    (h : donationVideoRow userID d v = some r) : r.videoID = v.videoID := by
  obtain ⟨donation, -, h⟩ := Option.bind_eq_some_iff.mp h
  obtain ⟨u, -, h⟩ := Option.bind_eq_some_iff.mp h
  split at h
  case isTrue => cases h; rfl
  case isFalse => cases h

/-- The videos of the donations do not depend on the order of the rows. -/
theorem donationVideoRows_same {d' : Db} (h : SameRows d d')
    (donationIDs : List DonationID) :
    donationVideoRows userID donationIDs d'
      = donationVideoRows userID donationIDs d := by
  have hrow : donationVideoRow userID d' = donationVideoRow userID d :=
    funext fun v => donationVideoRow_same h v
  simp only [donationVideoRows, hrow]
  refine orderBy_filter_perm ((videoValues_same h).filterMap _)
    (fun _ _ => rfl) fun a ha b hb heq => ?_
  obtain ⟨v, hv, hav⟩ := List.mem_filterMap.mp ha
  obtain ⟨w, hw, hbw⟩ := List.mem_filterMap.mp hb
  have hvideo : v = w := by
    refine videoID_inj ((videoValues_same h).mem_iff.mp hv)
      ((videoValues_same h).mem_iff.mp hw) ?_
    rw [← videoID_of_row hav, ← videoID_of_row hbw, heq]
  rw [hvideo, hbw] at hav
  exact (Option.some.inj hav).symm

/-- The answer to a donations request does not depend on the order of the
rows. -/
theorem donationsRequest_same {d' : Db} (h : SameRows d d') :
    donationsRequest ilike userID schemas filter pageSize d'
      = donationsRequest ilike userID schemas filter pageSize d := by
  have hlisted : donationsListed ilike userID filter d'
      = donationsListed ilike userID filter d := by
    refine orderBy_filter_perm h.donations (fun _ _ => rfl) ?_
    intro a ha b hb heq
    exact donationOrder_inj (h.donations.mem_iff.mp ha)
      (h.donations.mem_iff.mp hb) heq
  have hvideos (donations : List Donation) :
      parseVideos userID schemas d' donations
        = parseVideos userID schemas d donations := by
    rw [parseVideos, donationVideoRows_same h, parseVideos]
  rw [donationsRequest_eq, donationsRequest_eq, hlisted]
  simp only [hvideos]

end DonationsPage

-- ==================================== result

/-- The name of the entry that counts what a filter by priority lists. -/
def PriorityFilter.entry : PriorityFilter → Option Nat
  | .any => none
  | .unassigned => some 0
  | .priority videoPriorityID => some videoPriorityID

/-- The totals of a page agree: a page of a priority lists what the entry
of the priority counts, and the entries add up to that of the status. -/
structure VideoPage.Counted {κ ι δ : Type} (p : VideoPage κ ι δ)
    (filter : ListFilter) : Prop where
  entry : filter.videoID = none → ∀ name,
    filter.videoPriorityID.entry = some name →
      p.total = ((p.priorityCounts.get? name).map Prod.snd).getD 0
  sum : (p.priorityCounts.rows.map Prod.snd).sum
    = p.statusCounts.entry filter.videoStatus

/-- The counts of a page are those of the whole list. -/
theorem listPage_counted {κ ι δ : Type} {schemas : ListSchemas κ ι δ}
    {userID : UserID} {input : ListPageInput} {d : Db} (hd : d.Keyed)
    {p : VideoPage κ ι δ}
    (h : listPage schemas userID input d = some (.ok p)) :
    p.Counted input.toListFilter := by
  rw [listPage] at h
  split at h
  case h_1 => cases h
  case h_2 q hq =>
    obtain ⟨queue, -, h⟩ := Option.bind_eq_some_iff.mp h
    obtain ⟨items, -, h⟩ := Option.bind_eq_some_iff.mp h
    obtain ⟨durations, -, h⟩ := Option.bind_eq_some_iff.mp h
    cases h
    refine ⟨fun hfocus name hname => ?_, ?_⟩
    · cases hpriority : input.videoPriorityID with
      | any => rw [hpriority] at hname; cases hname
      | unassigned =>
          rw [hpriority] at hname
          cases hname
          refine listTotal_entry hd hfocus (Or.inl rfl) fun v => ?_
          rw [hpriority, PriorityFilter.holds]
          cases v.videoPriorityID <;> rfl
      | priority videoPriorityID =>
          rw [hpriority] at hname
          cases hname
          refine listTotal_entry hd hfocus
            (Or.inr ⟨videoPriorityID, rfl, videoPriorityID.pos⟩) fun v => ?_
          rw [hpriority, PriorityFilter.holds]
    · rw [fromEntries_rows (nodup_priorityCountRows hd), List.map_reverse,
        List.sum_reverse, sum_priorityCountRows, length_counted]

/-- The pages of the three listings, of any state of the database and with
any filter and page size. All rows that match are listed by the pages,
each once and in the order stated, whatever the order in which the
database comes upon them; and the totals agree. -/
theorem pages_partition {κ ι δ σ π τ ρ ν : Type}
    (schemas : ListSchemas κ ι δ) (sharedSchemas : Schemas σ π τ)
    (donationSchemas : DonationSchemas ρ ν) (ilike : String → String → Bool)
    (pageSize : ℕ+) (d : PublicDb) (hd : d.db.Keyed) :
    (∀ userID filter q, listedQueue userID d.db filter = some q →
      (∃ rows, Lists rows (videoValues d.db)
          (filter.matches userID d.db q.videoQueueID)
          (listOrder d.db filter.videoStatus)
        ∧ Walk (readVideo schemas userID d.db) rows pageSize
          (listRequest schemas userID filter pageSize d.db)
        ∧ ((∀ v ∈ rows, (readVideo schemas userID d.db v).isSome) →
          (schemas.queue q).isSome →
          (parseRows schemas.duration
            (priorityDurationRows userID d.db q.videoQueueID)).isSome →
          ∀ k, (listRequest schemas userID filter pageSize d.db k).isSome))
      ∧ (∀ d', SameRows d.db d' →
        listRequest schemas userID filter pageSize d'
          = listRequest schemas userID filter pageSize d.db)
      ∧ ∀ k p, listPage schemas userID { filter with page := k, pageSize }
          d.db = some (.ok p) → p.Counted filter)
    ∧ (∀ slug status videoQueueID u q,
      d.users.find? (fun u => u.slug = slug) = some u →
      u.publicQueueEnabled = true →
      summaryQueue u videoQueueID d.db = some q →
      (∃ rows, Lists rows (videoValues d.db)
          (fun v => Listed d.db u v q.videoQueueID (u.status status))
          (fun v => sharedOrder d.db v (u.status status))
        ∧ Walk (fun v => sharedSchemas.video (sharedRow d.db u v)) rows
          pageSize
          (sharedRequest sharedSchemas slug status videoQueueID pageSize d)
        ∧ ((∀ v ∈ rows,
            (sharedSchemas.video (sharedRow d.db u v)).isSome) →
          (parseRows sharedSchemas.queue (listQueues u.userID d.db)).isSome →
          (parseRows sharedSchemas.priority (sharedPriorities u
            q.videoQueueID (u.status status) d.db)).isSome →
          ∀ k, (sharedRequest sharedSchemas slug status videoQueueID pageSize
            d k).isSome))
      ∧ ∀ d', SameRows d.db d' →
        sharedRequest sharedSchemas slug status videoQueueID pageSize
            { d with db := d' }
          = sharedRequest sharedSchemas slug status videoQueueID pageSize d)
    ∧ ∀ userID filter,
      (∃ rows, Lists rows d.db.donations.rows (filter.matches ilike userID)
          donationOrder
        ∧ Walk donationSchemas.donation rows pageSize
          (donationsRequest ilike userID donationSchemas filter pageSize d.db)
        ∧ ((∀ r ∈ rows, (donationSchemas.donation r).isSome) →
          (∀ r, (donationSchemas.video r).isSome) →
          ∀ k, (donationsRequest ilike userID donationSchemas filter pageSize
            d.db k).isSome))
      ∧ ∀ d', SameRows d.db d' →
        donationsRequest ilike userID donationSchemas filter pageSize d'
          = donationsRequest ilike userID donationSchemas filter pageSize
            d.db := by
  refine ⟨fun userID filter q hq => ⟨⟨_, listed_lists, ?_, ?_⟩,
      fun d' h => listRequest_same h hd hq,
      fun k p h => listPage_counted hd h⟩,
    fun slug status videoQueueID u q hu henabled hq =>
      ⟨⟨_, sharedListed_lists, ?_, ?_⟩,
        fun d' h => sharedRequest_same h hu henabled hq⟩,
    fun userID filter => ⟨⟨_, donationsListed_lists, ?_, ?_⟩,
      fun d' h => donationsRequest_same h⟩⟩
  · rw [listRequest_eq hd hq]
    exact Pages.walk_answer
  · intro hread hqueue hduration
    rw [listRequest_eq hd hq]
    refine Pages.answer_isSome hread fun _ => ?_
    rw [hqueue, hduration, Bool.and_self]
  · rw [sharedRequest_eq hu henabled hq]
    exact Pages.walk_answer
  · intro hread hqueues hpriorities
    rw [sharedRequest_eq hu henabled hq]
    refine Pages.answer_isSome hread fun _ => ?_
    rw [hqueues, hpriorities, Bool.and_self]
  · rw [donationsRequest_eq]
    exact Pages.walk_answer
  · intro hread hvideos
    rw [donationsRequest_eq]
    refine Pages.answer_isSome hread fun _ => ?_
    refine Pages.mapM_isSome fun r _ => ?_
    rw [Option.isSome_map, hvideos]

section Witness

/-- A video that the owner has added. -/
def manualVideo (videoID : VideoID) (addedAt : Time) : Video :=
  { videoID, userID := some 1, addedAt := some addedAt
    providerVideoID := "v", url := "u", queueAmount := none
    startSeconds := ⟨0, integerMax_nonneg⟩, endSeconds := none, title := none
    videoQueueID := some 1
    encoded := ⟨(by decide : Storable "v"), (by decide : Storable "u"),
      (by decide : Storable "")⟩
    queued := Eq.refl true
    sourced := .inr ⟨rfl, rfl, rfl⟩
    timed := fun _ h => by cases h
    titled := fun _ h => by cases h }

/-- The queue of the first user. -/
def mainQueue : VideoQueue :=
  { videoQueueID := 1, userID := 1, isDefault := true
    label := ⟨"main", by decide⟩ }

/-- A user with one queue, and two videos added at the same time. -/
def listingDb : PublicDb where
  db := { Db.empty with
    users := ⟨[{ userID := 1, authUserID := "owner" }], by decide⟩
    queues := ⟨[mainQueue], by decide⟩
    videos := ⟨[manualVideo 1 0, manualVideo 2 0], by decide⟩ }
  users := ⟨[{ userID := 1, authUserID := "owner", slug := "owner" }],
    by decide⟩

/-- Nothing is refused, and of a video its identifier is read. -/
def idSchemas : ListSchemas VideoQueue VideoID Int :=
  ⟨some, fun r => some r.videoID, some⟩

/-- Every video matches. -/
def anyVideo : ListFilter :=
  { videoPriorityID := .any, videoStatus := .all }

/-- A queue of two videos, listed one to a page. -/
theorem pages_partition_two :
    listedQueue 1 listingDb.db anyVideo = some mainQueue
      ∧ listTotal 1 listingDb.db mainQueue.videoQueueID anyVideo = 2
      ∧ ∃ rows, Lists rows (videoValues listingDb.db)
          (anyVideo.matches 1 listingDb.db mainQueue.videoQueueID)
          (listOrder listingDb.db anyVideo.videoStatus)
        ∧ Walk (readVideo idSchemas 1 listingDb.db) rows 1
          (listRequest idSchemas 1 anyVideo 1 listingDb.db) := by
  have hkeyed : listingDb.db.Keyed := by
    refine ⟨fun v hv userID howner => ?_, fun v hv videoPriorityID h => ?_⟩
    · rcases List.mem_cons.mp hv with rfl | hv
      · cases howner; rfl
      · cases List.mem_singleton.mp hv
        cases howner
        rfl
    · rcases List.mem_cons.mp hv with rfl | hv
      · cases h
      · cases List.mem_singleton.mp hv
        cases h
  have hqueue : listedQueue 1 listingDb.db anyVideo = some mainQueue := by
    decide
  have sharedSchemas : Schemas VideoID Nat Nat :=
    ⟨fun r => some r.videoID, fun p => some p.videoCount,
      fun q => some q.videoQueueID⟩
  have donationSchemas : DonationSchemas DonationID VideoID :=
    ⟨fun r => some r.donationID, fun r => some r.videoID⟩
  obtain ⟨hlist, -⟩ := pages_partition idSchemas sharedSchemas
    donationSchemas (fun _ _ => false) 1 listingDb hkeyed
  obtain ⟨⟨rows, hrows, hwalk, -⟩, -⟩ := hlist 1 anyVideo mainQueue hqueue
  exact ⟨hqueue, by decide, rows, hrows, hwalk⟩

end Witness

end StreamBrew.Videos
