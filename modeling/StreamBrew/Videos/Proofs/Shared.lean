/-
What the public page of a queue tells.

Two states of the database are told apart by what their owner hides:
authors and messages always, amounts where the owner hides amounts, and
watched videos where the owner hides those (`Alike`). Every statement
behind a page reads the videos through a condition that no hidden video
meets, and through columns that say the same before and after redaction.
So whatever a statement selects from one state is a permutation of what
it selects from the other (`selected_perm`): counts and sums do not see
a permutation, and the order of a page ends with the identifier of the
video, so it does not either.
-/
import StreamBrew.Videos.Shared

namespace StreamBrew.Videos

open Relational Relational.Table
open Alert (UserID Time)

variable {u : PublicUser} {d d' : Db} {v w : VideoValues}

-- =============================== definitions

/-- The columns of a donation that a page may tell. -/
def Donation.redact (u : PublicUser) (donation : Donation) : Donation :=
  { donation with
    author := none
    message := none
    amount := if u.publicQueueShowAmounts then donation.amount else 0
    currency := if u.publicQueueShowAmounts then donation.currency else "" }

/-- The columns of a video that a page may tell. -/
def VideoValues.redact (u : PublicUser) (v : VideoValues) : VideoValues :=
  { v with
    queueAmount := if u.publicQueueShowAmounts then v.queueAmount else none }

/-- A video of the owner that was watched, where the owner hides those. -/
def Hidden (u : PublicUser) (d : Db) (v : VideoValues) : Prop :=
  u.publicQueueShowWatched = false ∧ v.watchedAt.isSome = true
    ∧ ownerID v d = some u.userID

instance : Decidable (Hidden u d v) :=
  inferInstanceAs (Decidable (_ ∧ _ ∧ _))

/-- What there is to tell of the video under an identifier. -/
def shown (u : PublicUser) (d : Db) (videoID : VideoID) :
    Option VideoValues :=
  ((d.videos.get? videoID).filter fun v => ¬ Hidden u d v.toVideoValues).map
    fun v => v.toVideoValues.redact u

/-- The states differ in nothing but what the owner hides. -/
structure Alike (u : PublicUser) (d d' : Db) : Prop where
  queues : d.queues = d'.queues
  priorities : d.priorities = d'.priorities
  donations : ∀ donationID,
    (d.donations.get? donationID).map (Donation.redact u)
      = (d'.donations.get? donationID).map (Donation.redact u)
  videos : ∀ videoID, shown u d videoID = shown u d' videoID
  jobs : ∀ videoID, (shown u d videoID).isSome = true →
    d.jobs.get? videoID = d'.jobs.get? videoID

/-- The same of all tables, for the user under a slug. -/
structure PublicAlike (slug : String) (d d' : PublicDb) : Prop where
  users : d.users = d'.users
  alike : ∀ u, d.users.find? (fun u => u.slug = slug) = some u →
    Alike u d.db d'.db

-- ================================= donations

section Redacted

variable (h : Alike u d d')

include h

theorem donationOf_redact (v : VideoValues) :
    (donationOf d v).map (Donation.redact u)
      = (donationOf d' v).map (Donation.redact u) := by
  unfold donationOf
  cases v.donationID with
  | none => rfl
  | some donationID => exact h.donations donationID

/-- A column that redaction leaves alone. -/
theorem donation_column {α : Type} {f : Donation → α}
    (hf : ∀ donation : Donation, f (donation.redact u) = f donation)
    (v : VideoValues) :
    (donationOf d v).map f = (donationOf d' v).map f := by
  have hredact := congrArg (Option.map f) (donationOf_redact h v)
  rw [Option.map_map, Option.map_map,
    show f ∘ Donation.redact u = f from funext hf] at hredact
  exact hredact

theorem createdAt_alike (v : VideoValues) :
    createdAt d v = createdAt d' v := by
  unfold createdAt
  rw [donation_column h (fun _ => rfl)]

theorem ownerID_alike (v : VideoValues) : ownerID v d = ownerID v d' := by
  have howner : ∀ db : Db, ownerID v db
      = v.userID.or ((donationOf db v).map fun x => x.userID) := by
    intro db
    unfold ownerID donationOf
    rw [Option.map_bind]
    rfl
  rw [howner, howner, donation_column h (fun _ => rfl)]

theorem priorityOf_alike (v : VideoValues) :
    priorityOf d v = priorityOf d' v := by
  unfold priorityOf
  rw [h.priorities]

theorem sharedOrder_alike (v : VideoValues) (status : SharedVideoStatus) :
    sharedOrder d v status = sharedOrder d' v status := by
  unfold sharedOrder
  rw [createdAt_alike h, priorityOf_alike h]

theorem listed_alike (v : VideoValues) (videoQueueID : VideoQueueID)
    (status : SharedVideoStatus) :
    Listed d u v videoQueueID status ↔ Listed d' u v videoQueueID status := by
  unfold Listed
  rw [ownerID_alike h]

theorem displayAmount_alike (v : VideoValues) :
    displayAmount d u v = displayAmount d' u v := by
  unfold displayAmount
  split
  case isTrue hshow =>
    rw [donation_column h (f := fun x : Donation => (⟨x.amount, 18⟩ : Numeric))
      fun x => by simp [Donation.redact, hshow]]
  case isFalse => rfl

theorem displayCurrency_alike (v : VideoValues) :
    displayCurrency d u v = displayCurrency d' u v := by
  have hsome : (donationOf d v).isSome = (donationOf d' v).isSome := by
    have := congrArg Option.isSome (donationOf_redact h v)
    rwa [Option.isSome_map, Option.isSome_map] at this
  unfold displayCurrency
  rw [hsome]
  split
  case isTrue => rfl
  case isFalse hshow =>
    rw [donation_column h (f := fun x : Donation => x.currency) fun x => by
      simpa [Donation.redact] using
        fun hhide => absurd hhide (by simpa using hshow)]

end Redacted

-- ==================================== videos

section

variable (u d v)

@[simp] theorem donationOf_redacted :
    donationOf d (v.redact u) = donationOf d v := rfl

@[simp] theorem ownerID_redacted : ownerID (v.redact u) d = ownerID v d := rfl

theorem listed_redacted (videoQueueID : VideoQueueID)
    (status : SharedVideoStatus) :
    Listed d u (v.redact u) videoQueueID status
      ↔ Listed d u v videoQueueID status := Iff.rfl

theorem sharedOrder_redacted (status : SharedVideoStatus) :
    sharedOrder d (v.redact u) status = sharedOrder d v status := rfl

/-- A row of the page does not see the redaction. -/
theorem sharedRow_redacted : sharedRow d u (v.redact u) = sharedRow d u v := by
  have hamount : displayAmount d u (v.redact u) = displayAmount d u v := by
    unfold displayAmount
    split
    case isTrue hshow => simp [VideoValues.redact, hshow]
    case isFalse => rfl
  have hcurrency : displayCurrency d u (v.redact u)
      = displayCurrency d u v := by
    unfold displayCurrency
    split
    case isTrue => rfl
    case isFalse hshow =>
      have hshow : u.publicQueueShowAmounts = true := by simpa using hshow
      simp [VideoValues.redact, hshow]
  unfold sharedRow
  rw [hamount, hcurrency]
  rfl

end

/-- The order of a page tells videos apart. -/
theorem videoID_of_sharedOrder {status : SharedVideoStatus}
    (h : sharedOrder d v status = sharedOrder d w status) :
    v.videoID = w.videoID := by
  have hlast := congrArg (fun x => (ofLex (ofLex x).2).2) h
  exact OrderDual.toDual.injective hlast

/-- The videos that satisfy a condition, redacted. -/
def selected (u : PublicUser) (d : Db) (p : VideoValues → Bool) :
    List VideoValues :=
  ((d.videos.rows.map Video.toVideoValues).filter p).map
    (VideoValues.redact u)

/-- A condition that no hidden video meets, and that does not see the
redaction. -/
structure Discreet (u : PublicUser) (d : Db) (p : VideoValues → Bool) :
    Prop where
  redact : ∀ v, p (v.redact u) = p v
  hidden : ∀ v, p v = true → ¬ Hidden u d v

theorem selected_eq {p : VideoValues → Bool} (hp : Discreet u d p) :
    selected u d p
      = ((d.videos.rows.filter fun v => ¬ Hidden u d v.toVideoValues).map
          fun v => v.toVideoValues.redact u).filter p := by
  unfold selected
  rw [List.filter_map, List.filter_map, List.filter_filter, List.map_map]
  refine congrArg _ (List.filter_congr fun v _ => ?_)
  have hhidden := hp.hidden v.toVideoValues
  simp only [Function.comp_apply, hp.redact]
  cases hv : p v.toVideoValues with
  | false => rfl
  | true => simp [hhidden hv]

/-- Such a condition selects the same videos. -/
theorem selected_perm (h : Alike u d d') {p : VideoValues → Bool}
    (hp : Discreet u d p) (hp' : Discreet u d' p) :
    (selected u d p).Perm (selected u d' p) := by
  rw [selected_eq hp, selected_eq hp']
  refine List.Perm.filter p ?_
  exact perm_of_get? VideoValues.videoID (fun _ => rfl) h.videos

/-- What is selected is told of. -/
theorem shown_of_selected {p : VideoValues → Bool} (hp : Discreet u d p)
    (hv : v ∈ selected u d p) : shown u d v.videoID = some v := by
  obtain ⟨w, hw, rfl⟩ := List.mem_map.mp hv
  obtain ⟨hmem, hpw⟩ := List.mem_filter.mp hw
  obtain ⟨row, hrow, rfl⟩ := List.mem_map.mp hmem
  have hget := get?_key (mem_def.mpr hrow)
  unfold shown
  rw [show (row.toVideoValues.redact u).videoID = row.videoID from rfl, hget]
  simp [hp.hidden _ hpw]

/-- Different videos are selected. -/
theorem selected_inj {p : VideoValues → Bool} (hp : Discreet u d p)
    (hv : v ∈ selected u d p) (hw : w ∈ selected u d p)
    (h : v.videoID = w.videoID) : v = w := by
  have hv := shown_of_selected hp hv
  rw [h, shown_of_selected hp hw] at hv
  exact (Option.some.inj hv).symm

theorem sharedRow_alike (h : Alike u d d') {p : VideoValues → Bool}
    (hp : Discreet u d p) (hv : v ∈ selected u d p) :
    sharedRow d u v = sharedRow d' u v := by
  have hjob : metadataUnavailable d v = metadataUnavailable d' v := by
    unfold metadataUnavailable
    rw [h.jobs v.videoID (by rw [shown_of_selected hp hv]; rfl)]
  unfold sharedRow
  rw [hjob, priorityOf_alike h, displayAmount_alike h,
    displayCurrency_alike h, createdAt_alike h]

-- ================================ statements

/-- The status that is shown lists no hidden video. -/
theorem discreet_listed (u : PublicUser) (d : Db)
    (videoQueueID : VideoQueueID) (status : SharedVideoStatus) :
    Discreet u d fun v => Listed d u v videoQueueID (u.status status) where
  redact v := by simp only [listed_redacted]
  hidden v hlisted hhidden := by
    obtain ⟨hshow, hwatched, -⟩ := hhidden
    have hqueue : u.status status = .queue := by
      unfold PublicUser.status
      rw [hshow, if_neg (by simp)]
    have hlisted := of_decide_eq_true hlisted
    rw [hqueue] at hlisted
    have hnone := hlisted.2.2
    rw [Option.isNone_iff_eq_none] at hnone
    rw [hnone] at hwatched
    cases hwatched

/-- The videos behind the totals of a priority. -/
theorem discreet_unwatched (u : PublicUser) (d : Db)
    (videoQueueID : VideoQueueID) (p : VideoPriority) :
    Discreet u d fun v => v.videoPriorityID = some p.videoPriorityID
      ∧ v.videoQueueID = some videoQueueID ∧ v.watchedAt = none where
  redact _ := rfl
  hidden v hunwatched hhidden := by
    obtain ⟨-, hwatched, -⟩ := hhidden
    rw [(of_decide_eq_true hunwatched).2.2] at hwatched
    cases hwatched

/-- What the condition of the page selects. -/
theorem listed_perm (h : Alike u d d') (videoQueueID : VideoQueueID)
    (status : SharedVideoStatus) :
    (selected u d fun v =>
        Listed d u v videoQueueID (u.status status)).Perm
      (selected u d' fun v =>
        Listed d' u v videoQueueID (u.status status)) := by
  have hsame : (fun v => decide (Listed d u v videoQueueID (u.status status)))
      = fun v => decide (Listed d' u v videoQueueID (u.status status)) :=
    funext fun v => decide_eq_decide.mpr (listed_alike h v _ _)
  have hdiscreet := discreet_listed u d' videoQueueID status
  rw [← hsame] at hdiscreet ⊢
  exact selected_perm h (discreet_listed u d videoQueueID status) hdiscreet

theorem sharedTotal_eq (videoQueueID : VideoQueueID)
    (status : SharedVideoStatus) :
    sharedTotal u videoQueueID status d
      = (selected u d fun v => Listed d u v videoQueueID status).length := by
  unfold sharedTotal selected
  rw [List.length_map, List.countP_eq_length_filter]

theorem sharedTotal_alike (h : Alike u d d') (videoQueueID : VideoQueueID)
    (status : SharedVideoStatus) :
    sharedTotal u videoQueueID (u.status status) d
      = sharedTotal u videoQueueID (u.status status) d' := by
  rw [sharedTotal_eq, sharedTotal_eq]
  exact (listed_perm h videoQueueID status).length_eq

/-- The rows of a page, from the redacted videos. -/
theorem sharedRows_eq (videoQueueID : VideoQueueID)
    (status : SharedVideoStatus) (window : PaginationWindow)
    (pageSize : ℕ+) :
    sharedRows u videoQueueID status window pageSize d
      = (((orderBy (fun v => sharedOrder d v status)
          (selected u d fun v => Listed d u v videoQueueID status)).drop
            window.offset).take pageSize).map (sharedRow d u) := by
  have hrow : sharedRow d u ∘ VideoValues.redact u = sharedRow d u :=
    funext fun v => sharedRow_redacted u d v
  unfold sharedRows selected
  rw [← map_orderBy (fun v => sharedOrder d v status)
    (fun v => sharedOrder_redacted u d v status), ← List.map_drop,
    ← List.map_take, List.map_map, hrow]

/-- The shared rows are the same to every alike state. -/
theorem sharedRows_alike (h : Alike u d d') (videoQueueID : VideoQueueID)
    (status : SharedVideoStatus) (window : PaginationWindow)
    (pageSize : ℕ+) :
    sharedRows u videoQueueID (u.status status) window pageSize d
      = sharedRows u videoQueueID (u.status status) window pageSize d' := by
  have hdiscreet := discreet_listed u d videoQueueID status
  have horder : (fun v => sharedOrder d v (u.status status))
      = fun v => sharedOrder d' v (u.status status) :=
    funext fun v => sharedOrder_alike h v _
  have hsorted := orderBy_congr
    (fun v => sharedOrder d v (u.status status))
    (listed_perm h videoQueueID status) fun v hv w hw heq =>
      selected_inj hdiscreet hv hw (videoID_of_sharedOrder heq)
  rw [sharedRows_eq, sharedRows_eq, ← horder, ← hsorted]
  refine List.map_congr_left fun v hv => ?_
  exact sharedRow_alike h hdiscreet
    (mem_orderBy.mp (List.mem_of_mem_drop (List.mem_of_mem_take hv)))

/-- The totals of a priority, from the redacted videos. -/
theorem priorityRow_eq (u : PublicUser) (videoQueueID : VideoQueueID)
    (p : VideoPriority) :
    priorityRow videoQueueID d p =
      let unwatched := selected u d fun v =>
        v.videoPriorityID = some p.videoPriorityID
          ∧ v.videoQueueID = some videoQueueID ∧ v.watchedAt = none
      { videoPriorityID := p.videoPriorityID
        label := p.label
        videoCount := unwatched.length
        remainingSeconds := (unwatched.map fun v =>
          (v.endSeconds.map fun e => (e.1 : Int) - v.startSeconds.1).getD
            0).sum } := by
  unfold priorityRow selected
  simp only [List.length_map, List.map_map]
  rfl

theorem priorityRow_alike (h : Alike u d d') (videoQueueID : VideoQueueID)
    (p : VideoPriority) :
    priorityRow videoQueueID d p = priorityRow videoQueueID d' p := by
  have hperm := selected_perm h (discreet_unwatched u d videoQueueID p)
    (discreet_unwatched u d' videoQueueID p)
  rw [priorityRow_eq u, priorityRow_eq u]
  simp only
  rw [hperm.length_eq, (hperm.map _).sum_eq]

theorem priorityRows_alike (h : Alike u d d') (videoQueueID : VideoQueueID) :
    priorityRows u videoQueueID d = priorityRows u videoQueueID d' := by
  unfold priorityRows
  rw [h.priorities]
  exact List.map_congr_left fun p _ => priorityRow_alike h videoQueueID p

-- ==================================== result

section Page

variable {σ π κ : Type} (schemas : Schemas σ π κ) (slug : String)
  (input : SharedPageInput)

/-- The whole page is the same to every alike state. -/
theorem listSharedPage_alike {d d' : PublicDb} (h : PublicAlike slug d d') :
    listSharedPage schemas slug input d
      = listSharedPage schemas slug input d' := by
  unfold listSharedPage
  rw [← h.users]
  cases huser : d.users.find? fun u => u.slug = slug with
  | none => rfl
  | some u =>
      have halike := h.alike u huser
      have hqueue : summaryQueue u input.videoQueueID d.db
          = summaryQueue u input.videoQueueID d'.db := by
        unfold summaryQueue
        rw [halike.queues]
      simp only
      rw [← hqueue]
      cases summaryQueue u input.videoQueueID d.db with
      | none => rfl
      | some q =>
          simp only
          rw [sharedTotal_alike halike, sharedRows_alike halike,
            priorityRows_alike halike]
          unfold listQueues
          rw [halike.queues]

theorem listSharedPage_closed {d : PublicDb} {u : PublicUser}
    (huser : d.users.find? (fun u => u.slug = slug) = some u)
    (hclosed : u.publicQueueEnabled = false) :
    listSharedPage schemas slug input d = some none := by
  unfold listSharedPage
  rw [huser]
  simp only
  cases summaryQueue u input.videoQueueID d.db with
  | none => rfl
  | some q => simp only [hclosed, Bool.not_false, if_true]

/-- States that differ in what the owner hides have the same pages, and
the owner who has closed the queue has none. -/
theorem listSharedPage_private (d : PublicDb) :
    (∀ d', PublicAlike slug d d' →
      listSharedPage schemas slug input d
        = listSharedPage schemas slug input d')
    ∧ ∀ u, d.users.find? (fun u => u.slug = slug) = some u →
      u.publicQueueEnabled = false →
      listSharedPage schemas slug input d = some none :=
  ⟨fun _ h => listSharedPage_alike schemas slug input h,
    fun _ huser hclosed =>
      listSharedPage_closed schemas slug input huser hclosed⟩

end Page

/-- A donation, as its donor and its amount have it. -/
def sampleDonation (author : Option String) (amount : Nat) : Donation :=
  { donationID := 1, source := .donationAlerts, sourceDonationID := "1"
    userID := 1, author, message := none, amount, currency := "RUB"
    occurredAt := 0 }

/-- A video of the first user's donation. -/
def sampleVideo (videoID : VideoID) (queueAmount : Option Money)
    (watchedAt : Option Time) : Video :=
  { videoID, donationID := some 1, providerVideoID := "v", url := "u"
    queueAmount, startSeconds := ⟨0, integerMax_nonneg⟩, endSeconds := none
    watchedAt, title := some "t", videoQueueID := some 1
    encoded := ⟨(by decide : Storable "v"), (by decide : Storable "u"),
      (by decide : Storable "t")⟩
    queued := Eq.refl true
    sourced := .inl ⟨rfl, rfl, rfl⟩
    timed := fun _ h => by cases h
    titled := fun _ h => by cases h; decide }

/-- A user who hides amounts and watched videos, and one queue. -/
def sampleDb (donation : Donation) (videos : Table fun v : Video => v.videoID) :
    PublicDb where
  db := { Db.empty with
    queues := ⟨[{ videoQueueID := 1, userID := 1, isDefault := true
                  label := ⟨"queue", by decide⟩ }], by decide⟩
    donations := ⟨[donation], by simp⟩
    videos }
  users := ⟨[{ userID := 1, authUserID := "", slug := "slug"
               publicQueueShowAmounts := false
               publicQueueShowWatched := false }], by decide⟩

/-- Another author, other amounts and one more watched video. -/
theorem listSharedPage_private_hidden :
    listSharedPage ⟨some, some, some⟩ "slug"
        { page := 1, pageSize := 20, status := .queue }
        (sampleDb (sampleDonation none 5)
          ⟨[sampleVideo 1 none none], by decide⟩)
      = listSharedPage ⟨some, some, some⟩ "slug"
        { page := 1, pageSize := 20, status := .queue }
        (sampleDb (sampleDonation (some "author") 7)
          ⟨[sampleVideo 2 none (some 0),
            sampleVideo 1 (some ⟨9, by decide⟩) none], by decide⟩) := by
  refine (listSharedPage_private ⟨some, some, some⟩ "slug" _ _).1 _ ⟨rfl, ?_⟩
  intro u hu
  cases hu
  refine ⟨rfl, rfl, fun donationID => ?_, fun videoID => ?_, fun _ _ => rfl⟩
  · by_cases h : 1 = donationID
    · subst h
      rfl
    · simp [sampleDb, sampleDonation, get?, h]
  · by_cases h : 1 = videoID
    · subst h
      decide
    · by_cases h' : 2 = videoID
      · subst h'
        decide
      · simp [shown, sampleDb, sampleVideo, get?, h, h']

end StreamBrew.Videos
