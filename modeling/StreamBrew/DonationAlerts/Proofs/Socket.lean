/-
What a publication does to a session, on its two ways into it: in the
reply to a subscribe command, and in a push.

A publication with data is handled alike on both (`emitPublication`):
it moves the position to its own, unless `emit` refuses its donation.
One without data ends a session that finds it in a reply, and is passed
over when it is pushed; one that does not decode makes the whole reply
undecodable, and is ignored when it is pushed. `recovered_like_pushed_iff`
says that these two are all that tells the ways apart.
-/
import StreamBrew.DonationAlerts.Socket
import Mathlib.Tactic

namespace StreamBrew.DonationAlerts.Socket

open Pass

variable {Json Donation : Type} {codec : Codec Json Donation}
variable {emit : List Donation → Donation → Bool}
variable {s t : Session Json Donation}
variable {publication : SocketPublication Json}

-- ================================= positions

@[simp] theorem setPosition_position (position : StreamPosition)
    (s : Session Json Donation) :
    (s.setPosition position).position = position := rfl

@[simp] theorem setPosition_calls (position : StreamPosition)
    (s : Session Json Donation) : (s.setPosition position).calls = s.calls :=
  rfl

@[simp] theorem setPosition_start (position : StreamPosition)
    (s : Session Json Donation) : (s.setPosition position).start = s.start :=
  rfl

@[simp] theorem at_offset (position : StreamPosition)
    (publication : SocketPublication Json) :
    (position.at publication).offset = publication.offset := rfl

@[simp] theorem advance_calls :
    (advancePosition publication s).calls = s.calls := by
  unfold advancePosition
  split <;> rfl

@[simp] theorem advance_start :
    (advancePosition publication s).start = s.start := by
  unfold advancePosition
  split <;> rfl

@[simp] theorem advance_channel :
    (advancePosition publication s).channel = s.channel := by
  unfold advancePosition
  split <;> rfl

@[simp] theorem advance_pending :
    (advancePosition publication s).pending = s.pending := by
  unfold advancePosition
  split <;> rfl

@[simp] theorem advance_requested :
    (advancePosition publication s).requested = s.requested := by
  unfold advancePosition
  split <;> rfl

@[simp] theorem advance_epoch :
    (advancePosition publication s).position.epoch = s.position.epoch := by
  unfold advancePosition
  split <;> rfl

@[simp] theorem advance_valid :
    (advancePosition publication s).position.valid = s.position.valid := by
  unfold advancePosition
  split <;> rfl

theorem advance_position (hvalid : s.position.valid = true) :
    (advancePosition publication s).position = s.position.at publication := by
  unfold advancePosition
  rw [if_neg (by simp [hvalid])]
  rfl

theorem advance_offset (hvalid : s.position.valid = true) :
    (advancePosition publication s).position.offset = publication.offset := by
  rw [advance_position hvalid, at_offset]

-- =========================== one publication

/-- The ways emitPublication ends. -/
inductive Emits (codec : Codec Json Donation)
    (emit : List Donation → Donation → Bool) (s : Session Json Donation)
    (publication : SocketPublication Json) :
    Session Json Donation × Option SessionError → Prop
  | missing (hdata : publication.data = none) :
      Emits codec emit s publication (s, some .missingData)
  | invalid {data : Json} (hdata : publication.data = some data)
      (hdonation : codec.donation data = none) :
      Emits codec emit s publication (advancePosition publication s, none)
  | accepted {data : Json} {donation : Donation}
      (hdata : publication.data = some data)
      (hdonation : codec.donation data = some donation)
      (hemit : emit s.donations donation = true) :
      Emits codec emit s publication
        (advancePosition publication (s.call publication donation true), none)
  | refused {data : Json} {donation : Donation}
      (hdata : publication.data = some data)
      (hdonation : codec.donation data = some donation)
      (hemit : emit s.donations donation = false) :
      Emits codec emit s publication
        (s.call publication donation false, some .emit)

/-- How a publication may be emitted. -/
theorem emit_cases (codec : Codec Json Donation)
    (emit : List Donation → Donation → Bool) (s : Session Json Donation)
    (publication : SocketPublication Json) :
    Emits codec emit s publication
      (emitPublication codec emit s publication) := by
  unfold emitPublication
  cases hdata : publication.data with
  | none => exact .missing hdata
  | some data =>
      cases hdonation : codec.donation data with
      | none =>
          simp only [hdonation]
          exact .invalid hdata hdonation
      | some donation =>
          simp only [hdonation]
          cases hemit : emit s.donations donation with
          | true => exact .accepted hdata hdonation hemit
          | false => exact .refused hdata hdonation hemit

theorem handle_missing (hdata : publication.data = none) :
    handlePublication codec emit s publication
      = (advancePosition publication s, none) := by
  unfold handlePublication
  rw [hdata, Option.isNone_none, if_pos rfl]

theorem handle_data (hdata : publication.data ≠ none) :
    handlePublication codec emit s publication
      = emitPublication codec emit s publication := by
  unfold handlePublication
  rw [if_neg (by simpa using hdata)]

/-- A push of the channel. -/
theorem push_own {push : SocketPush Json}
    (htype : push.type.getD pushPublication = pushPublication)
    (hchannel : push.channel = s.channel) (hne : s.channel ≠ "") :
    handlePush codec emit s push
      = (push.data.bind codec.publication).elim (s, none)
        (handlePublication codec emit s) := by
  unfold handlePush
  simp only [htype, if_true, hchannel, hne, if_false, ne_eq,
    not_true_eq_false]
  cases push.data.bind codec.publication <;> rfl

/-- A push of a publication of another channel, or of none. -/
theorem push_foreign {push : SocketPush Json}
    (htype : push.type.getD pushPublication = pushPublication)
    (hchannel : push.channel ≠ s.channel) :
    handlePush codec emit s push = (s, none) := by
  unfold handlePush
  simp only [htype, if_true, hchannel, ne_eq, not_false_eq_true]
  split <;> rfl

-- ============================== publications

section Publications

variable {publications : List (SocketPublication Json)}
variable {error : Option SessionError}

/-- What no publication changes. -/
structure Session.Extends (s t : Session Json Donation) : Prop where
  channel : t.channel = s.channel
  epoch : t.position.epoch = s.position.epoch
  valid : t.position.valid = s.position.valid
  pending : t.pending = s.pending
  requested : t.requested = s.requested
  calls : s.calls <+: t.calls

theorem Session.Extends.refl (s : Session Json Donation) : s.Extends s :=
  ⟨rfl, rfl, rfl, rfl, rfl, List.prefix_refl _⟩

theorem Session.Extends.trans {u : Session Json Donation}
    (h : s.Extends t) (h' : t.Extends u) : s.Extends u :=
  ⟨h'.channel.trans h.channel, h'.epoch.trans h.epoch,
    h'.valid.trans h.valid, h'.pending.trans h.pending,
    h'.requested.trans h.requested, h.calls.trans h'.calls⟩

theorem extends_advance (s : Session Json Donation) :
    s.Extends (advancePosition publication s) :=
  ⟨advance_channel, advance_epoch, advance_valid, advance_pending,
    advance_requested, advance_calls.symm ▸ List.prefix_refl _⟩

theorem extends_call (donation : Donation) (accepted : Bool) :
    s.Extends (s.call publication donation accepted) :=
  ⟨rfl, rfl, rfl, rfl, rfl, List.prefix_append _ _⟩

theorem emit_extends
    (h : emitPublication codec emit s publication = (t, error)) :
    s.Extends t := by
  have hcases := emit_cases codec emit s publication
  rw [h] at hcases
  cases hcases with
  | missing => exact .refl s
  | invalid => exact extends_advance s
  | accepted => exact (extends_call _ true).trans (extends_advance _)
  | refused => exact extends_call _ false

theorem handle_extends
    (h : handlePublication codec emit s publication = (t, error)) :
    s.Extends t := by
  by_cases hdata : publication.data = none
  · rw [handle_missing hdata] at h
    cases h
    exact extends_advance s
  · rw [handle_data hdata] at h
    exact emit_extends h

/-- The position after a pushed publication: as it was where `emit` has
refused, else that of the publication. -/
theorem handle_position (hvalid : s.position.valid = true)
    (h : handlePublication codec emit s publication = (t, error)) :
    t.position = s.position ∧ error.isSome
        ∧ t.calls.length = s.calls.length + 1
      ∨ t.position = s.position.at publication ∧ error = none := by
  by_cases hdata : publication.data = none
  · rw [handle_missing hdata] at h
    cases h
    exact .inr ⟨advance_position hvalid, rfl⟩
  · rw [handle_data hdata] at h
    have hcases := emit_cases codec emit s publication
    rw [h] at hcases
    cases hcases with
    | missing hnone => exact absurd hnone hdata
    | invalid => exact .inr ⟨advance_position hvalid, rfl⟩
    | accepted => exact .inr ⟨advance_position hvalid, rfl⟩
    | refused => exact .inl ⟨rfl, rfl, List.length_append⟩

end Publications

-- ==================================== pushes

/-- The publications of a list follow a position in their stream. -/
def Following (position : StreamPosition)
    (publications : List (SocketPublication Json)) : Prop :=
  (position.offset :: publications.map (·.offset)).Pairwise (· < ·)

section Pushed

variable {publications : List (SocketPublication Json)}
variable {error : Option SessionError}

theorem Following.head {position : StreamPosition}
    (h : Following position (publication :: publications)) :
    position.offset < publication.offset :=
  List.rel_of_pairwise_cons h List.mem_cons_self

theorem Following.tail {before position : StreamPosition}
    (h : Following before (publication :: publications))
    (hposition : position.offset = publication.offset) :
    Following position publications := by
  rw [Following, hposition]
  exact (List.pairwise_cons.mp h).2

/-- Pushes move a position forward only. -/
theorem pushed_offset (hvalid : s.position.valid = true)
    (hfollow : Following s.position publications)
    (h : pass (handlePublication codec emit) s publications = (t, error)) :
    s.position.offset ≤ t.position.offset := by
  induction publications generalizing s with
  | nil =>
      cases h
      exact le_rfl
  | cons publication rest ih =>
      cases hx : handlePublication codec emit s publication with
      | mk u first =>
          rcases handle_position hvalid hx with
            ⟨hposition, hfirst, -⟩ | ⟨hposition, rfl⟩
          · obtain ⟨e, rfl⟩ := Option.isSome_iff_exists.mp hfirst
            rw [pass_cons_error hx] at h
            cases h
            rw [hposition]
          · rw [pass_cons_ok hx] at h
            have hu : u.position.offset = publication.offset := by
              rw [hposition, at_offset]
            have hle := ih ((handle_extends hx).valid.trans hvalid)
              (hfollow.tail hu) h
            exact hfollow.head.le.trans (hu ▸ hle)

/-- A publication that is pushed leaves its mark: the position moves, or
`emit` was called. -/
theorem pushed_moves (hvalid : s.position.valid = true)
    (hfollow : Following s.position (publication :: publications))
    (h : pass (handlePublication codec emit) s (publication :: publications)
      = (t, error)) :
    s.position.offset < t.position.offset
      ∨ s.calls.length < t.calls.length := by
  cases hx : handlePublication codec emit s publication with
  | mk u first =>
      rcases handle_position hvalid hx with
        ⟨-, hfirst, hcalls⟩ | ⟨hposition, rfl⟩
      · obtain ⟨e, rfl⟩ := Option.isSome_iff_exists.mp hfirst
        rw [pass_cons_error hx] at h
        cases h
        exact .inr (by omega)
      · rw [pass_cons_ok hx] at h
        have hu : u.position.offset = publication.offset := by
          rw [hposition, at_offset]
        have hle := pushed_offset ((handle_extends hx).valid.trans hvalid)
          (hfollow.tail hu) h
        exact .inl (hfollow.head.trans_le (hu ▸ hle))

/-- Pushes that end without an error end at the last of them. -/
theorem pushed_last (hvalid : s.position.valid = true)
    (h : pass (handlePublication codec emit) s publications = (t, none)) :
    t.position = publications.getLast?.elim s.position s.position.at := by
  induction publications generalizing s with
  | nil =>
      cases h
      rfl
  | cons publication rest ih =>
      cases hx : handlePublication codec emit s publication with
      | mk u first =>
          rcases handle_position hvalid hx with
            ⟨-, hfirst, -⟩ | ⟨hposition, rfl⟩
          · obtain ⟨e, rfl⟩ := Option.isSome_iff_exists.mp hfirst
            rw [pass_cons_error hx] at h
            cases h
          · rw [pass_cons_ok hx] at h
            rw [ih ((handle_extends hx).valid.trans hvalid) h, hposition]
            cases rest with
            | nil => rfl
            | cons next rest =>
                rw [List.getLast?_cons_cons, List.getLast?_cons]
                rfl

end Pushed

-- ================================= both ways

/-- Up to the first donation that `emit` refuses, no publication is
without its data. -/
def Intact (codec : Codec Json Donation)
    (emit : List Donation → Donation → Bool) :
    List Donation → List (SocketPublication Json) → Bool
  | _, [] => true
  | history, publication :: rest =>
      match publication.data with
      | none => false
      | some data =>
          match codec.donation data with
          | none => Intact codec emit history rest
          | some donation =>
              !emit history donation
                || Intact codec emit (history ++ [donation]) rest

/-- Where no data is missing, the ways of a publication are one. -/
theorem pass_intact {publications : List (SocketPublication Json)}
    (h : Intact codec emit s.donations publications = true) :
    pass (emitPublication codec emit) s publications
      = pass (handlePublication codec emit) s publications := by
  induction publications generalizing s with
  | nil => rfl
  | cons publication rest ih =>
      unfold Intact at h
      have hcases := emit_cases codec emit s publication
      cases hx : emitPublication codec emit s publication with
      | mk t error =>
          rw [hx] at hcases
          cases hcases with
          | missing hdata =>
              simp only [hdata] at h
              cases h
          | invalid hdata hdonation =>
              simp only [hdata, hdonation] at h
              have hy := (handle_data (by simp [hdata])).trans hx
              rw [pass_cons_ok hx, pass_cons_ok hy]
              exact ih (by rwa [Session.donations, advance_calls])
          | accepted hdata hdonation hemit =>
              simp only [hdata, hdonation, hemit, Bool.not_true,
                Bool.false_or] at h
              have hy := (handle_data (by simp [hdata])).trans hx
              rw [pass_cons_ok hx, pass_cons_ok hy]
              refine ih ?_
              rw [Session.donations, advance_calls, Session.call,
                List.map_append]
              exact h
          | refused hdata hdonation hemit =>
              have hy := (handle_data (by simp [hdata])).trans hx
              rw [pass_cons_error hx, pass_cons_error hy]

/-- Where data is missing, a reply ends the session before it, and pushes
go on behind it. -/
theorem pass_not_intact {publications : List (SocketPublication Json)}
    (hvalid : s.position.valid = true)
    (hfollow : Following s.position publications)
    (h : Intact codec emit s.donations publications = false) :
    ∃ t e, pass (emitPublication codec emit) s publications = (t, some e)
      ∧ t.position.offset < (pass (handlePublication codec emit) s
        publications).1.position.offset := by
  induction publications generalizing s with
  | nil => cases h
  | cons publication rest ih =>
      unfold Intact at h
      have hcases := emit_cases codec emit s publication
      cases hx : emitPublication codec emit s publication with
      | mk t error =>
          rw [hx] at hcases
          cases hcases with
          | missing hdata =>
              refine ⟨s, .missingData, pass_cons_error hx rest, ?_⟩
              rw [pass_cons_ok (handle_missing hdata)]
              have hle := pushed_offset (advance_valid.trans hvalid)
                (hfollow.tail (advance_offset hvalid))
                (rfl : pass (handlePublication codec emit) _ rest = _)
              rw [advance_offset hvalid] at hle
              exact hfollow.head.trans_le hle
          | invalid hdata hdonation =>
              simp only [hdata, hdonation] at h
              have hy := (handle_data (by simp [hdata])).trans hx
              rw [pass_cons_ok hx, pass_cons_ok hy]
              exact ih (advance_valid.trans hvalid)
                (hfollow.tail (advance_offset hvalid))
                (by rwa [Session.donations, advance_calls])
          | accepted hdata hdonation hemit =>
              simp only [hdata, hdonation, hemit, Bool.not_true,
                Bool.false_or] at h
              have hy := (handle_data (by simp [hdata])).trans hx
              rw [pass_cons_ok hx, pass_cons_ok hy]
              refine ih (advance_valid.trans hvalid)
                (hfollow.tail (advance_offset hvalid)) ?_
              rw [Session.donations, advance_calls, Session.call,
                List.map_append]
              exact h
          | refused hdata hdonation hemit =>
              simp only [hdata, hdonation, hemit, Bool.not_false,
                Bool.true_or] at h
              cases h

/-- A publication as the server has it. -/
structure Sent (Json : Type) where
  channel : String
  document : Json

/-- Its push. -/
def Sent.push (x : Sent Json) : SocketPush Json :=
  { channel := x.channel, data := some x.document }

/-- What the server has on a channel. -/
def documents (channel : String) (xs : List (Sent Json)) : List Json :=
  (xs.filter (·.channel = channel)).map (·.document)

/-- The reply that recovers what follows a position. -/
def recovery (codec : Codec Json Donation) (position : StreamPosition)
    (documents : List Json) : SubscriptionResult Json :=
  let last := (documents.filterMap codec.publication).getLast?.elim position
    position.at
  { recoverable := true
    recovered := true
    epoch := position.epoch
    sequence := last.sequence
    generation := last.generation
    publications := documents.reverse }

/-- What `emit` was called with and whether it succeeded, the position
that is retained, and whether the session has ended in an error. -/
def outcome (r : Session Json Donation × Option SessionError) :
    List (Donation × Bool) × StreamPosition × Bool :=
  (r.1.calls.map fun call => (call.donation, call.accepted), r.1.position,
    r.2.isSome)

theorem donationChannel_ne (userID : String) : donationChannel userID ≠ "" := by
  intro h
  have hlength := congrArg (·.toList.length) h
  simp [donationChannel] at hlength

/-- Pushes of the channel are handled as their publications. -/
theorem pass_pushes {channel : String} (hs : s.channel = channel)
    (hne : channel ≠ "") (xs : List (Sent Json)) :
    pass (handlePush codec emit) s (xs.map Sent.push)
      = pass (handlePublication codec emit) s
        ((documents channel xs).filterMap codec.publication) := by
  let read (x : Sent Json) : Option (SocketPublication Json) :=
    if x.channel = channel then codec.publication x.document else none
  have hread : (documents channel xs).filterMap codec.publication
      = xs.filterMap read := by
    rw [documents, List.filterMap_map, List.filterMap_filter]
    refine List.filterMap_congr fun x _ => ?_
    by_cases hx : x.channel = channel <;> simp [read, hx]
  rw [hread, ← pass_filterMap, pass_map]
  have hstep (x : Sent Json) (u : Session Json Donation)
      (hu : u.channel = channel) : handlePush codec emit u x.push
        = (read x).elim (u, none) (handlePublication codec emit u) := by
    by_cases hx : x.channel = channel
    · rw [push_own rfl (hx.trans hu.symm) (hu ▸ hne)]
      simp only [read, if_pos hx]
      rfl
    · rw [push_foreign rfl (fun h => hx (h.trans hu))]
      simp only [read, if_neg hx]
      rfl
  refine pass_congr (K := fun u => u.channel = channel) ?_
    (fun x _ u hu => hstep x u hu) hs
  intro x _ u v hu hv
  rw [hstep x u hu] at hv
  cases hx : read x with
  | none =>
      rw [hx] at hv
      cases hv
      exact hu
  | some publication =>
      rw [hx] at hv
      exact (handle_extends hv).channel.trans hu

/-- The reply, where all its publications decode. -/
theorem handle_recovery {documents : List Json}
    (hvalid : s.position.valid = true) (hepoch : s.position.epoch ≠ "")
    (hdecode : ∀ d ∈ documents, (codec.publication d).isSome) :
    handleSubscribed codec emit s (recovery codec s.position documents)
      = match pass (emitPublication codec emit) s.setSubscribed
          (documents.filterMap codec.publication) with
        | (t, some error) => (t, some error)
        | (t, none) =>
            (t.setPosition
              (recovery codec s.position documents).baseline, none) := by
  obtain ⟨publications, hpublications⟩ := Option.isSome_iff_exists.mp
    (mapM_isSome_iff.mpr fun d (hd : d ∈ documents.reverse) =>
      hdecode d (List.mem_reverse.mp hd))
  have hmap := (filterMap_of_mapM hpublications).1
  unfold handleSubscribed
  have hp : (recovery codec s.position documents).publications
      = documents.reverse := rfl
  have he : (recovery codec s.position documents).epoch = s.position.epoch :=
    rfl
  have hr (listed : List (SocketPublication Json)) :
      s.setSubscribed.resume (recovery codec s.position documents) listed
        = s.setSubscribed := if_pos ⟨hvalid, rfl⟩
  rw [hp, hpublications, hmap]
  simp only [he, hepoch, and_false, if_false, hr, List.filterMap_reverse,
    List.reverse_reverse]
  rfl

theorem recovery_baseline {documents : List Json}
    (hvalid : s.position.valid = true) :
    (recovery codec s.position documents).baseline
      = (documents.filterMap codec.publication).getLast?.elim s.position
        s.position.at := by
  unfold recovery SubscriptionResult.baseline
  cases (documents.filterMap codec.publication).getLast? with
  | none => simp only [Option.elim, ← hvalid]
  | some publication => simp only [Option.elim, StreamPosition.at, hvalid]

/-- A reply with a publication that does not decode. -/
theorem handle_undecodable {subscribed : SubscriptionResult Json}
    (h : ¬ ∀ d ∈ subscribed.publications, (codec.publication d).isSome) :
    handleSubscribed codec emit s subscribed
      = (s, some (.invalidResult .subscribe)) := by
  rw [← mapM_isSome_iff, Bool.not_eq_true, Option.isSome_eq_false_iff,
    Option.isNone_iff_eq_none] at h
  unfold handleSubscribed
  rw [h]

/-- Publications that follow a position do the same in a reply and as
pushes when all on the channel decode and, up to the first donation that
`emit` refuses, have their data; and only then. -/
theorem recovered_like_pushed_iff (codec : Codec Json Donation)
    (emit : List Donation → Donation → Bool) (userID : String)
    (s : Session Json Donation) (xs : List (Sent Json))
    (hchannel : s.channel = donationChannel userID)
    (hvalid : s.position.valid = true) (hepoch : s.position.epoch ≠ "")
    (hfollow : Following s.position
      ((documents s.channel xs).filterMap codec.publication)) :
    outcome (handleSubscribed codec emit s
        (recovery codec s.position (documents s.channel xs)))
      = outcome (pass (handlePush codec emit) s.setSubscribed
        (xs.map Sent.push))
    ↔ (∀ d ∈ documents s.channel xs, (codec.publication d).isSome)
      ∧ Intact codec emit s.donations
        ((documents s.channel xs).filterMap codec.publication) := by
  have hne : s.channel ≠ "" := by
    rw [hchannel]
    exact donationChannel_ne userID
  have hsubscribed : s.setSubscribed.channel = s.channel := rfl
  rw [pass_pushes hsubscribed hne xs]
  generalize hdocuments : documents s.channel xs = documents at *
  generalize hpubs : documents.filterMap codec.publication = publications at *
  by_cases hdecode : ∀ d ∈ documents, (codec.publication d).isSome
  · rw [handle_recovery hvalid hepoch hdecode, hpubs]
    cases hintact : Intact codec emit s.donations publications with
    | true =>
        refine iff_of_true ?_ ⟨hdecode, rfl⟩
        rw [pass_intact (s := s.setSubscribed) hintact]
        cases hpass : pass (handlePublication codec emit) s.setSubscribed
          publications with
        | mk t error =>
            cases error with
            | some e => rfl
            | none =>
                have hlast := pushed_last (s := s.setSubscribed) hvalid hpass
                rw [recovery_baseline hvalid, hpubs]
                exact congrArg (fun position =>
                  (t.calls.map fun call => (call.donation, call.accepted),
                    position, false)) hlast.symm
    | false =>
        refine iff_of_false ?_ fun h => Bool.false_ne_true h.2
        obtain ⟨t, e, ht, hlt⟩ :=
          pass_not_intact (s := s.setSubscribed) hvalid hfollow hintact
        rw [ht]
        intro h
        have hposition : t.position = _ := congrArg (·.2.1) h
        rw [hposition] at hlt
        exact lt_irrefl _ hlt
  · refine iff_of_false ?_ fun h => hdecode h.1
    rw [handle_undecodable
      (fun h => hdecode fun d hd => h d (List.mem_reverse.mpr hd))]
    intro h
    cases publications with
    | nil => cases congrArg (·.2.2) h
    | cons publication rest =>
        cases hpass : pass (handlePublication codec emit) s.setSubscribed
          (publication :: rest) with
        | mk t error =>
            rw [hpass] at h
            have hposition : s.position = t.position := congrArg (·.2.1) h
            have hcalls := congrArg (·.1.length) h
            simp only [outcome, List.length_map] at hcalls
            rcases pushed_moves (s := s.setSubscribed) hvalid hfollow hpass
              with hlt | hlt
            · exact hlt.ne (congrArg StreamPosition.offset hposition)
            · exact hlt.ne hcalls

/-- Documents of a channel, by what they hold. -/
inductive Sample
  | publication (sequence : UInt32) (data : Option Sample)
  | donation (id : Nat)
  | connected
  | push (value : SocketPush Sample)
  | subscribed (value : SubscriptionResult Sample)

/-- A document of another kind has none of a publication's fields. -/
def sampleCodec : Codec Sample Nat where
  connect
    | .connected => some { client := "c", version := "2" }
    | _ => none
  subscription
    | .subscribed value => some value
    | _ => none
  refresh _ := none
  push
    | .push value => some value
    | _ => none
  publication
    | .publication sequence data => some ⟨sequence, 0, data⟩
    | _ => some ⟨0, 0, none⟩
  unsubscribe _ := none
  disconnect _ := none
  donation
    | .donation id => some id
    | _ => none

/-- A session that stands in a stream. -/
def sampleSession : Session Sample Nat :=
  { channel := donationChannel "7"
    result := { position := ⟨"e", 3, 0, true⟩ } }

/-- One publication without data: the reply fails, and its push is passed
over. -/
theorem recovered_missing_data :
    let xs : List (Sent Sample) :=
      [⟨donationChannel "7", .publication 4 none⟩]
    Following sampleSession.position
        ((documents sampleSession.channel xs).filterMap
          sampleCodec.publication)
      ∧ outcome (handleSubscribed sampleCodec (fun _ _ => true) sampleSession
          (recovery sampleCodec sampleSession.position
            (documents sampleSession.channel xs)))
        = ([], ⟨"e", 3, 0, true⟩, true)
      ∧ outcome (pass (handlePush sampleCodec fun _ _ => true)
          sampleSession.setSubscribed (xs.map Sent.push))
        = ([], ⟨"e", 4, 0, true⟩, false) := by
  refine ⟨?_, rfl, rfl⟩
  simp only [Following]
  decide

/-- Two publications, recovered and pushed. -/
theorem recovered_like_pushed_two :
    let xs : List (Sent Sample) :=
      [⟨donationChannel "7", .publication 4 (some (.donation 1))⟩,
        ⟨"other", .connected⟩,
        ⟨donationChannel "7", .publication 5 (some .connected)⟩]
    outcome (handleSubscribed sampleCodec (fun _ _ => true) sampleSession
        (recovery sampleCodec sampleSession.position
          (documents sampleSession.channel xs)))
      = outcome (pass (handlePush sampleCodec fun _ _ => true)
        sampleSession.setSubscribed (xs.map Sent.push)) := by
  intro xs
  refine (recovered_like_pushed_iff sampleCodec (fun _ _ => true) "7"
    sampleSession xs rfl rfl (by decide) ?_).mpr ⟨?_, rfl⟩
  · unfold Following
    decide
  · intro d _
    cases d <;> rfl

end StreamBrew.DonationAlerts.Socket
