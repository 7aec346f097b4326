/-
What the priority trigger does to a row, and when it cannot fail.

`Stored` is the whole effect of the trigger and the checks on a written
row: nothing but the queue and the priority differs from what the
statement gave, the priority is null exactly for an unranked row, and an
assigned one was kept or is the best of its owner. `storeVideo_stored`
derives it once; every later proof goes by it and never opens the
trigger. `storeVideo_no_trigger_error` is the other half: with an owner
that has its default priority, and a segment that ends after its start,
the trigger accepts the row.
-/
import StreamBrew.Videos.History

namespace StreamBrew.Videos

open Relational
open Alert (UserID DonationID Time)

-- ==================================== owners

/-- The owner of a row is the user that added it, or the user of its
donation. -/
def Owns (db : Db) (owner : UserID) (v : VideoValues) : Prop :=
  v.userID = some owner ∨ v.userID = none
    ∧ ∃ d ∈ db.donations, v.donationID = some d.donationID
      ∧ d.userID = owner

/-- The owner that the trigger finds is the video's owner. -/
theorem ownerID_eq_some {db : Db} {owner : UserID} {v : VideoValues} :
    ownerID v db = some owner ↔ Owns db owner v := by
  unfold ownerID Owns
  cases v.userID with
  | some u => simp
  | none =>
      rw [Option.none_or]
      simp only [reduceCtorEq, false_or, true_and]
      cases v.donationID with
      | none => simp
      | some donationID =>
          rw [Option.bind_some, Option.map_eq_some_iff]
          constructor
          · rintro ⟨d, hd, hu⟩
            exact ⟨d, Table.mem_of_get? hd,
              congrArg some (Table.key_of_get? hd).symm, hu⟩
          · rintro ⟨d, hd, hk, hu⟩
            exact ⟨d, Table.get?_eq_some.mpr ⟨hd, (Option.some.inj hk).symm⟩,
              hu⟩

theorem Owns.unique {db : Db} {u u' : UserID} {v : VideoValues}
    (h : Owns db u v) (h' : Owns db u' v) : u = u' :=
  Option.some.inj
    ((ownerID_eq_some.mpr h).symm.trans (ownerID_eq_some.mpr h'))

/-- On a row of the table, `ownershipPredicate` names the owner. -/
theorem ownsVideo_iff {db : Db} {userID : UserID} {v : Video} :
    OwnsVideo userID db v ↔ Owns db userID v.toVideoValues := by
  unfold OwnsVideo Owns
  constructor
  · rintro (h | ⟨d, hd, hv, hu⟩)
    · exact Or.inl h
    · refine Or.inr ⟨?_, d, hd, hv, hu⟩
      rcases v.sourced with ⟨-, hn, -⟩ | ⟨hd', -, -⟩
      · exact Option.isNone_iff_eq_none.mp hn
      · rw [hv] at hd'
        cases hd'
  · rintro (h | ⟨-, d, hd, hv, hu⟩)
    · exact Or.inl h
    · exact Or.inr ⟨d, hd, hv, hu⟩

-- =============================== assignments

/-- The priority has the highest threshold of the owner that the price
of the row reaches; of equal ones, the first. -/
def Best (db : Db) (v : VideoValues) (id : VideoPriorityID) : Prop :=
  ∃ amount ∈ v.queueAmount, ∃ e ∈ v.endSeconds,
    ∃ price ∈ pricePerMinute amount v.startSeconds e,
      ∃ p ∈ db.priorities, p.videoPriorityID = id
        ∧ Owns db p.userID v
        ∧ p.minPricePerMinute.numeric ≤ price
        ∧ ∀ q ∈ db.priorities, q.userID = p.userID →
            q.minPricePerMinute.numeric ≤ price →
            q.minPricePerMinute.1 ≤ p.minPricePerMinute.1
              ∧ (q.minPricePerMinute = p.minPricePerMinute →
                p.videoPriorityID ≤ q.videoPriorityID)

/-- Rows that differ in the queue and the priority alone. -/
def VideoValues.placed (new : VideoValues)
    (queueID : Option VideoQueueID) (priorityID : Option VideoPriorityID) :
    VideoValues :=
  { new with videoQueueID := queueID, videoPriorityID := priorityID }

theorem withQueue_eq (owner : Option UserID) (new : VideoValues) (db : Db) :
    withQueue owner new db = new.placed
      (withQueue owner new db).videoQueueID new.videoPriorityID := by
  unfold withQueue
  split <;> rfl

theorem withQueue_isSome {owner : Option UserID} {new : VideoValues}
    {db : Db} (h : new.videoQueueID.isSome) :
    withQueue owner new db = new := by
  unfold withQueue
  rw [if_neg]
  rw [Option.isNone_iff_eq_none]
  intro hn
  rw [hn] at h
  cases h

/-- The highest threshold, by the order of the statement. -/
theorem highestPriority_spec {owner : Option UserID} {price : Numeric}
    {db : Db} {p : VideoPriority}
    (h : highestPriority owner price db = some p) :
    p ∈ db.priorities ∧ owner = some p.userID
      ∧ p.minPricePerMinute.numeric ≤ price
      ∧ ∀ q ∈ db.priorities, owner = some q.userID →
          q.minPricePerMinute.numeric ≤ price →
          q.minPricePerMinute.1 ≤ p.minPricePerMinute.1
            ∧ (q.minPricePerMinute = p.minPricePerMinute →
              p.videoPriorityID ≤ q.videoPriorityID) := by
  obtain ⟨hp, ⟨howner, hle⟩, hleast⟩ := Table.first_eq_some h
  refine ⟨hp, howner, hle, fun q hq hqowner hqle => ?_⟩
  have horder := hleast q hq ⟨hqowner, hqle⟩
  unfold VideoPriority.order at horder
  rw [Prod.Lex.toLex_le_toLex] at horder
  rcases horder with hlt | ⟨heq, hid⟩
  · have hlt' : q.minPricePerMinute.1 < p.minPricePerMinute.1 :=
      OrderDual.toDual_lt_toDual.mp hlt
    exact ⟨hlt'.le, fun he => absurd (congrArg Subtype.val he) hlt'.ne⟩
  · exact ⟨(OrderDual.toDual_inj.mp heq).symm.le, fun _ => hid⟩

/-- Unranked rows are told by the ranking columns. -/
theorem unranked_placed {new : VideoValues} {q : Option VideoQueueID}
    {p : Option VideoPriorityID} :
    (new.placed q p).Unranked ↔ new.Unranked := Iff.rfl

/-- A priority that is assigned is the highest for the video's price. -/
theorem assignPriority_ok {owner : Option UserID} {new values : VideoValues}
    {db : Db} (hrank : ¬ new.Unranked)
    (h : assignPriority owner new db = .ok values) :
    ∃ amount ∈ new.queueAmount, ∃ e ∈ new.endSeconds,
      ∃ price ∈ pricePerMinute amount new.startSeconds e,
        ∃ p, highestPriority owner price db = some p
          ∧ values
            = { new with videoPriorityID := some p.videoPriorityID } := by
  unfold assignPriority at h
  split at h
  case h_1 amount e hamount hend =>
    split at h
    case h_1 => cases h
    case h_2 price hprice =>
      split at h
      case h_1 => cases h
      case h_2 p hp =>
        cases h
        exact ⟨amount, hamount, e, hend, price, hprice, p, hp, rfl⟩
  case h_2 hnone =>
    exfalso
    unfold VideoValues.Unranked at hrank
    cases ha : new.queueAmount with
    | none => exact hrank (Or.inl (by rw [ha]; rfl))
    | some amount =>
        cases he : new.endSeconds with
        | none => exact hrank (Or.inr (Or.inl (by rw [he]; rfl)))
        | some e => exact hnone amount e ha he

/-- How the trigger decides the priority of a row. -/
inductive Decision (db : Db) (retain : Bool) (old : Option VideoValues)
    (new : VideoValues) : Option VideoPriorityID → Prop
  | unranked (h : new.Unranked) : Decision db retain old new none
  | kept {o : VideoValues} {id : VideoPriorityID} (hrank : ¬ new.Unranked)
      (hold : old = some o) (hkeeps : Keeps retain o new)
      (hid : o.videoPriorityID = some id)
      (howner : ∃ p ∈ db.priorities, p.videoPriorityID = id
        ∧ Owns db p.userID new) :
      Decision db retain old new (some id)
  | assigned {id : VideoPriorityID} (hrank : ¬ new.Unranked)
      (hkeeps : ∀ o, old = some o → ¬ Keeps retain o new)
      (hbest : Best db new id) : Decision db retain old new (some id)

theorem assignPriority_best {new values : VideoValues} {db : Db}
    (hrank : ¬ new.Unranked)
    (h : assignPriority (ownerID new db) new db = .ok values) :
    ∃ id, values = new.placed new.videoQueueID (some id)
      ∧ Best db new id := by
  obtain ⟨amount, hamount, e, hend, price, hprice, p, hp, rfl⟩ :=
    assignPriority_ok hrank h
  obtain ⟨hmem, howner, hle, hhighest⟩ := highestPriority_spec hp
  refine ⟨p.videoPriorityID, rfl, amount, hamount, e, hend, price, hprice,
    p, hmem, rfl, ownerID_eq_some.mp howner, hle, fun q hq hqu hqle => ?_⟩
  exact hhighest q hq (by rw [howner, hqu]) hqle

/-- The trigger places the row in a queue of its owner and decides its
priority. -/
theorem setVideoPriorityID_ok {db : Db} {retain : Bool}
    {old : Option VideoValues} {new values : VideoValues}
    (h : setVideoPriorityID retain old new db = .ok values) :
    ∃ queueID priorityID, values = new.placed queueID priorityID
      ∧ (new.videoQueueID.isSome → queueID = new.videoQueueID)
      ∧ (∃ q ∈ db.queues, queueID = some q.videoQueueID
        ∧ Owns db q.userID new)
      ∧ Decision db retain old new priorityID := by
  have hgiven : new.videoQueueID.isSome →
      (withQueue (ownerID new db) new db).videoQueueID
        = new.videoQueueID := fun hs => by rw [withQueue_isSome hs]
  unfold setVideoPriorityID at h
  dsimp only at h
  rw [withQueue_eq] at h
  obtain ⟨queueID, hq⟩ :
      ∃ q, q = (withQueue (ownerID new db) new db).videoQueueID := ⟨_, rfl⟩
  rw [← hq] at h hgiven
  split at h
  case isTrue => cases h
  case isFalse hqueue =>
  rw [not_not] at hqueue
  obtain ⟨q, hmem, hqid, hqowner⟩ := hqueue
  have hin : ∃ q ∈ db.queues, queueID = some q.videoQueueID
      ∧ Owns db q.userID new :=
    ⟨q, hmem, hqid, ownerID_eq_some.mp hqowner⟩
  split at h
  case isTrue => cases h
  case isFalse hpriority =>
  split at h
  case isTrue hun =>
    injection h with h
    exact ⟨queueID, none, h.symm, hgiven, hin,
      Decision.unranked (unranked_placed.mp hun)⟩
  case isFalse hrank =>
  split at h
  case isTrue hkeeps =>
    injection h with h
    obtain ⟨o, rfl, hko⟩ : ∃ o, old = some o ∧ Keeps retain o new := by
      cases old with
      | none => cases hkeeps
      | some o =>
          rw [Option.any_some, decide_eq_true_eq] at hkeeps
          exact ⟨o, rfl, hkeeps⟩
    obtain ⟨id, hid⟩ := Option.isSome_iff_exists.mp hko.2.2.2.2.2.2
    have hnew : new.videoPriorityID = some id :=
      hko.2.2.2.2.2.1.trans hid
    have hex : db.priorities.Exists fun p =>
        new.videoPriorityID = some p.videoPriorityID
          ∧ p.OwnedBy (ownerID new db) := by
      by_contra hnot
      exact hpriority ⟨by rw [show _ = some id from hnew]; rfl, hnot⟩
    obtain ⟨p, hp, hpid, hpowner⟩ := hex
    rw [hnew] at hpid
    refine ⟨queueID, some id, ?_, hgiven, hin, Decision.kept hrank rfl hko
      hid ⟨p, hp, (Option.some.inj hpid).symm, ownerID_eq_some.mp hpowner⟩⟩
    rw [← h, hnew]
  case isFalse hkeeps =>
    obtain ⟨id, hvalues, hbest⟩ := assignPriority_best hrank h
    refine ⟨queueID, some id, hvalues, hgiven, hin,
      Decision.assigned hrank (fun o ho hko => hkeeps ?_) hbest⟩
    rw [ho, Option.any_some, decide_eq_true_eq]
    exact hko

/-- What the trigger and the checks make of a row. -/
structure Stored (db : Db) (retain : Bool) (old : Option VideoValues)
    (new : VideoValues) (v : Video) : Prop where
  values : v.toVideoValues = new.placed v.videoQueueID v.videoPriorityID
  queue : new.videoQueueID.isSome → v.videoQueueID = new.videoQueueID
  queueOwner : ∃ q ∈ db.queues, v.videoQueueID = some q.videoQueueID
    ∧ Owns db q.userID new
  decision : Decision db retain old new v.videoPriorityID

/-- A video that is stored went through the trigger. -/
theorem storeVideo_stored {db : Db} {retain : Bool}
    {old : Option VideoValues} {new : VideoValues} {v : Video}
    (h : db.storeVideo retain old new = .ok v) :
    Stored db retain old new v := by
  unfold Db.storeVideo at h
  split at h
  case h_1 => cases h
  case h_2 values hvalues =>
    have hv := check_ok h
    obtain ⟨queueID, priorityID, rfl, hqueue, howner, hdecision⟩ :=
      setVideoPriorityID_ok hvalues
    have hq : v.videoQueueID = queueID := by rw [hv]; rfl
    have hp : v.videoPriorityID = priorityID := by rw [hv]; rfl
    refine ⟨by rw [hq, hp]; exact hv, ?_, ?_, ?_⟩
    · rw [hq]; exact hqueue
    · rw [hq]; exact howner
    · rw [hp]; exact hdecision

namespace Stored

variable {db : Db} {retain : Bool} {old : Option VideoValues}
  {new : VideoValues} {v : Video}

/-- The owner of the row is that of the values given. -/
theorem owns (h : Stored db retain old new v) {db' : Db} {u : UserID} :
    Owns db' u v.toVideoValues ↔ Owns db' u new := by
  rw [h.values]
  exact Iff.rfl

theorem unranked (h : Stored db retain old new v) :
    v.Unranked ↔ new.Unranked := by
  rw [h.values]
  exact Iff.rfl

/-- The priority is null exactly for an unranked row. -/
theorem ranked (h : Stored db retain old new v) :
    v.videoPriorityID = none ↔ v.Unranked := by
  rw [h.unranked]
  have hdecision := h.decision
  cases hp : v.videoPriorityID with
  | none =>
      rw [hp] at hdecision
      cases hdecision with
      | unranked hun => exact ⟨fun _ => hun, fun _ => rfl⟩
  | some id =>
      rw [hp] at hdecision
      have hrank : ¬ new.Unranked := by
        cases hdecision with
        | kept hrank _ _ _ _ => exact hrank
        | assigned hrank _ _ => exact hrank
      exact ⟨fun he => (by cases he), fun hun => absurd hun hrank⟩

/-- An assigned priority is one of the owner. -/
theorem priorityOwner (h : Stored db retain old new v)
    {id : VideoPriorityID} (hid : v.videoPriorityID = some id) :
    ∃ p ∈ db.priorities, p.videoPriorityID = id
      ∧ Owns db p.userID v.toVideoValues := by
  have hdecision := h.decision
  rw [hid] at hdecision
  cases hdecision with
  | kept _ _ _ _ howner =>
      obtain ⟨p, hp, hpid, hpowner⟩ := howner
      exact ⟨p, hp, hpid, h.owns.mpr hpowner⟩
  | assigned _ _ hbest =>
      obtain ⟨_, _, _, _, _, _, p, hp, hpid, hpowner, _⟩ := hbest
      exact ⟨p, hp, hpid, h.owns.mpr hpowner⟩

/-- An assignment that is kept is the one of before. -/
theorem keeps {o : VideoValues} (h : Stored db retain (some o) new v)
    (hkeeps : Keeps retain o new) (hrank : ¬ new.Unranked) :
    v.videoPriorityID = o.videoPriorityID := by
  have hdecision := h.decision
  generalize hid : v.videoPriorityID = id at hdecision
  cases hdecision with
  | unranked hun => exact absurd hun hrank
  | kept _ hold _ hid' _ =>
      cases hold
      exact hid'.symm
  | assigned _ hnot _ => exact absurd hkeeps (hnot o rfl)

end Stored

-- ================================ no failure

/-- An owner with a queue for the row and the default priority. -/
structure Placeable (db : Db) (new : VideoValues) (owner : UserID) :
    Prop where
  owned : Owns db owner new
  queue : ∃ q ∈ db.queues, q.userID = owner
    ∧ (new.videoQueueID = none ∧ q.isDefault = true
      ∨ new.videoQueueID = some q.videoQueueID)
  priority : ∀ id, new.videoPriorityID = some id →
    ∃ p ∈ db.priorities, p.videoPriorityID = id ∧ p.userID = owner
  defaultPriority : ∃ p ∈ db.priorities, p.userID = owner
    ∧ p.isDefault = true
  timed : ¬ new.Unranked → new.Timed

/-- The price of a segment that ends after its start is a number, and
not a negative one. -/
theorem pricePerMinute_nonneg {amount : Money} {s : NonnegativeInt}
    {e : PositiveInt} (h : s.1 < e.1) :
    ∃ price, pricePerMinute amount s e = some price ∧ 0 ≤ price.units := by
  have hd : 0 < (Numeric.ofInt ((e.1 : Int) - s.1)).units := by
    show (0 : Int) < (e.1 : Int) - s.1
    omega
  have hx : 0 ≤ (amount.numeric.mul (.ofInt 60)).units := by
    show (0 : Int) ≤ (amount.1 : Int) * 60
    omega
  obtain ⟨price, hprice⟩ := Numeric.div?_isSome
    (x := amount.numeric.mul (.ofInt 60)) hd.ne'
  exact ⟨price, hprice, Numeric.div?_nonneg hx hd hprice⟩

theorem zero_le_price {p : VideoPriority} (hp : p.isDefault = true)
    {price : Numeric} (h : 0 ≤ price.units) :
    p.minPricePerMinute.numeric ≤ price := by
  rw [Numeric.le_iff_value]
  have hz : p.minPricePerMinute.numeric.value = 0 := by
    unfold Money.numeric Numeric.value
    rw [p.check.mp hp]
    simp
  rw [hz]
  exact Numeric.value_nonneg.mpr h

/-- With a segment that ends after its start, and a default priority,
there is a priority to assign. -/
theorem assignPriority_error {db : Db} {new : VideoValues}
    {owner : Option UserID} {u : UserID} (htimed : new.Timed)
    (howner : owner = some u)
    (hdefault : ∃ p ∈ db.priorities, p.userID = u ∧ p.isDefault = true)
    (e : TriggerError) : assignPriority owner new db ≠ .error e := by
  unfold assignPriority
  split
  case h_2 => exact fun he => by cases he
  case h_1 amount e' hamount hend =>
    obtain ⟨price, hprice, hnonneg⟩ :=
      @pricePerMinute_nonneg amount _ _ (htimed e' hend)
    rw [hprice]
    dsimp only
    split
    case h_2 => exact fun he => by cases he
    case h_1 hnone =>
      exfalso
      obtain ⟨p, hp, hpu, hd⟩ := hdefault
      refine Table.first_eq_none.mp hnone p hp ⟨?_, ?_⟩
      · show owner = some p.userID
        rw [howner, hpu]
      · exact zero_le_price hd hnonneg

/-- The trigger accepts a row that can be placed. -/
theorem setVideoPriorityID_error {db : Db} {retain : Bool}
    {old : Option VideoValues} {new : VideoValues} {owner : UserID}
    (h : Placeable db new owner) (e : TriggerError) :
    setVideoPriorityID retain old new db ≠ .error e := by
  have howner := ownerID_eq_some.mpr h.owned
  have hqueue : db.queues.Exists fun q =>
      (withQueue (ownerID new db) new db).videoQueueID
          = some q.videoQueueID
        ∧ q.OwnedBy (ownerID new db) := by
    obtain ⟨q, hq, hqu, hqid⟩ := h.queue
    have hqowner : q.OwnedBy (ownerID new db) := by
      show ownerID new db = some q.userID
      rw [howner, hqu]
    rcases hqid with ⟨hnone, hdefault⟩ | hsome
    · unfold withQueue
      rw [if_pos (by rw [hnone]; rfl)]
      cases hf : db.queues.find? fun q => q.OwnedBy (ownerID new db)
          ∧ q.isDefault = true with
      | none =>
          exact absurd ⟨hqowner, hdefault⟩
            (Table.find?_eq_none.mp hf q hq)
      | some q' =>
          obtain ⟨hq', hq'owner, -⟩ := Table.find?_eq_some hf
          exact ⟨q', hq', rfl, hq'owner⟩
    · rw [withQueue_isSome (by rw [hsome]; rfl)]
      exact ⟨q, hq, hsome, hqowner⟩
  unfold setVideoPriorityID
  dsimp only
  rw [if_neg (not_not.mpr hqueue), withQueue_eq]
  split
  case isTrue hpriority =>
    exfalso
    obtain ⟨hsome, hnot⟩ := hpriority
    obtain ⟨id, hid⟩ := Option.isSome_iff_exists.mp hsome
    obtain ⟨p, hp, hpid, hpu⟩ := h.priority id hid
    exact hnot ⟨p, hp, by rw [hpid]; exact hid,
      show ownerID new db = some p.userID by rw [howner, hpu]⟩
  case isFalse =>
  split
  case isTrue => exact fun he => by cases he
  case isFalse hrank =>
  split
  case isTrue => exact fun he => by cases he
  case isFalse =>
    refine assignPriority_error ?_ howner h.defaultPriority e
    exact h.timed hrank

end StreamBrew.Videos
