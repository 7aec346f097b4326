/-
What a batch does to the donations and the alert queue.

A batch is a sequence of turns, and a turn either changes nothing or
inserts one donation and queues its alert (`Turn`). What a batch does
is proved of one turn and carried along; the order of the batch and
the donations it skips do not come up again.
-/
import Mathlib.Logic.Relation
import StreamBrew.Alert.Proofs.Calls
import StreamBrew.Donations.System

namespace StreamBrew.Donations

open Relational
open Alert (UserID DonationID Time Source Draw)

variable {donations : List Donation} {draws : List DonationDraw}

/-- One turn of a batch of the user. -/
inductive Turn (source : Source) (userID : UserID)
    (origin : IngestionOrigin) (acceptedAt : Time) :
    Alert.Db → Alert.Db → Prop
  | ignore (db : Alert.Db) : Turn source userID origin acceptedAt db db
  | insert {db inserted db' : Alert.Db} {row : Alert.Donation}
      {draw : Draw} (huser : row.userID = userID)
      (hsource : row.source = source)
      (hinsert : db.insertDonation row = some inserted)
      (hqueue : if origin = .initialHistory then db' = inserted
        else Alert.enqueueIncoming userID row.donationID source acceptedAt
          draw inserted = .ok db') :
      Turn source userID origin acceptedAt db db'

/-- The turns of a batch. -/
abbrev Turns (source : Source) (userID : UserID)
    (origin : IngestionOrigin) (acceptedAt : Time) :
    Alert.Db → Alert.Db → Prop :=
  Relation.ReflTransGen (Turn source userID origin acceptedAt)

variable {source : Source} {userID : UserID} {origin : IngestionOrigin}
  {acceptedAt : Time} {db db' : Alert.Db}

-- ================================ statements

/-- What an insert that went through has added. -/
theorem insertDonation_eq_some {row : Alert.Donation}
    (h : db.insertDonation row = some db') :
    ¬ Stored row.userID row.source row.sourceDonationID db
      ∧ (∀ d ∈ db.donations, d.donationID ≠ row.donationID)
      ∧ (∀ d, d ∈ db'.donations ↔ d ∈ db.donations ∨ d = row)
      ∧ db' = { db with donations := db'.donations } := by
  unfold Alert.Db.insertDonation at h
  split at h
  case isTrue => cases h
  case isFalse hfree =>
    obtain ⟨donations, hins, rfl⟩ := Option.map_eq_some_iff.mp h
    exact ⟨hfree, (Table.insert?_eq_some hins).1,
      fun d => Table.mem_insert? hins, rfl⟩

/-- Queueing an alert writes the playbacks only. -/
theorem enqueueIncoming_frame {donationID : DonationID} {draw : Draw}
    (h : Alert.enqueueIncoming userID donationID source acceptedAt draw db
      = .ok db') :
    db' = { db with
      playbacks := db'.playbacks, sequence := db'.sequence } := by
  unfold Alert.enqueueIncoming at h
  split at h
  case h_1 => cases h; rfl
  case h_2 c hc =>
    split at h
    case h_1 => cases h; rfl
    case h_2 donation hdonation =>
      split at h
      case isFalse => cases h; rfl
      case isTrue =>
        split at h
        case h_1 => cases h
        case h_2 inserted hins =>
          obtain ⟨-, playbacks, -, rfl⟩ :=
            Alert.Db.insertPlayback_eq_some hins
          cases h
          rfl

-- ===================================== turns

namespace Turn

/-- A turn keeps the donations and the configuration. -/
theorem frame (h : Turn source userID origin acceptedAt db db') :
    (∀ d ∈ db.donations, d ∈ db'.donations)
      ∧ db'.configurations = db.configurations
      ∧ db'.alertSources = db.alertSources := by
  cases h with
  | ignore => exact ⟨fun d hd => hd, rfl, rfl⟩
  | @insert inserted _ row draw _ _ hinsert hqueue =>
      obtain ⟨-, -, hmem, hframe⟩ := insertDonation_eq_some hinsert
      have hkept : ∀ d ∈ db.donations, d ∈ inserted.donations :=
        fun d hd => (hmem d).mpr (Or.inl hd)
      rw [hframe] at hqueue hkept
      split at hqueue
      case isTrue =>
        rw [hqueue]
        exact ⟨hkept, rfl, rfl⟩
      case isFalse =>
        rw [enqueueIncoming_frame hqueue]
        exact ⟨hkept, rfl, rfl⟩

end Turn

theorem Turns.frame (h : Turns source userID origin acceptedAt db db') :
    (∀ d ∈ db.donations, d ∈ db'.donations)
      ∧ db'.configurations = db.configurations
      ∧ db'.alertSources = db.alertSources := by
  induction h with
  | refl => exact ⟨fun d hd => hd, rfl, rfl⟩
  | tail _ hturn ih =>
      obtain ⟨hkept, hconfigurations, hsources⟩ := hturn.frame
      exact ⟨fun d hd => hkept d (ih.1 d hd), hconfigurations.trans ih.2.1,
        hsources.trans ih.2.2⟩

theorem Stored.turns {sourceDonationID : String}
    (h : Stored userID source sourceDonationID db)
    (hturns : Turns source userID origin acceptedAt db db') :
    Stored userID source sourceDonationID db' := by
  obtain ⟨d, hd, hcolumns⟩ := h
  exact ⟨d, hturns.frame.1 d hd, hcolumns⟩

-- =================================== batches

/-- What a delivered donation is stored as. -/
theorem Donation.row_eq_some {donation : Donation} {donationID : DonationID}
    {row : Alert.Donation}
    (h : donation.row source userID donationID = some row) :
    row.userID = userID ∧ row.source = source
      ∧ row.donationID = donationID
      ∧ row.sourceDonationID = donation.sourceDonationID := by
  unfold Donation.row at h
  obtain ⟨amount, -, h⟩ := Option.bind_eq_some_iff.mp h
  split at h
  case isTrue => cases h; exact ⟨rfl, rfl, rfl, rfl⟩
  case isFalse => cases h

/-- A turn of the loop leaves the donation stored. -/
theorem turn_of_insertDonation {donation : Donation} {draw : DonationDraw}
    (h : insertDonation source userID origin acceptedAt donation draw db
      = .ok db') :
    Turn source userID origin acceptedAt db db'
      ∧ Stored userID source donation.sourceDonationID db' := by
  unfold insertDonation at h
  split at h
  case h_1 => cases h
  case h_2 row hrow =>
    obtain ⟨huser, hsource, hid, hreference⟩ := Donation.row_eq_some hrow
    split at h
    case isTrue hstored => cases h; exact ⟨.ignore db, hstored⟩
    case isFalse =>
      split at h
      case h_1 => cases h
      case h_2 inserted hinsert =>
        have hturn : Turn source userID origin acceptedAt db db' := by
          have hqueue : if origin = .initialHistory then db' = inserted
              else Alert.enqueueIncoming userID row.donationID source
                acceptedAt draw.playback inserted = .ok db' := by
            split at h
            case isTrue horigin =>
              cases h
              rw [if_pos horigin]
            case isFalse horigin =>
              rw [if_neg horigin, hid]
              split at h
              case h_1 => cases h
              case h_2 hqueue => cases h; exact hqueue
          exact .insert huser hsource hinsert hqueue
        refine ⟨hturn, ?_⟩
        have hrow' : row ∈ db'.donations := by
          have hmem := (insertDonation_eq_some hinsert).2.2.1
          split at h
          case isTrue => cases h; exact (hmem row).mpr (Or.inr rfl)
          case isFalse =>
            split at h
            case h_1 => cases h
            case h_2 hqueue =>
              cases h
              rw [enqueueIncoming_frame hqueue]
              exact (hmem row).mpr (Or.inr rfl)
        exact ⟨row, hrow', huser, hsource, hreference⟩

/-- A batch that was stored is turns, and all of it is stored. -/
theorem turns_of_insertOrdered
    (h : insertOrdered source userID origin acceptedAt donations draws db
      = .ok db') :
    Turns source userID origin acceptedAt db db'
      ∧ ∀ d ∈ donations, Stored userID source d.sourceDonationID db' := by
  induction donations generalizing draws db with
  | nil =>
      cases h
      exact ⟨.refl, fun d hd => absurd hd List.not_mem_nil⟩
  | cons donation donations ih =>
      cases draws with
      | nil => cases h
      | cons draw draws =>
          unfold insertOrdered at h
          split at h
          case h_1 => cases h
          case h_2 middle hfirst =>
            obtain ⟨hturn, hstored⟩ := turn_of_insertDonation hfirst
            obtain ⟨hturns, hrest⟩ := ih h
            refine ⟨hturns.head hturn, fun d hd => ?_⟩
            rcases List.mem_cons.mp hd with rfl | hd
            · exact hstored.turns hturns
            · exact hrest d hd

/-- What a turn of the loop adds is the row of the donation. -/
theorem row_of_insertDonation {donation : Donation} {draw : DonationDraw}
    (h : insertDonation source userID origin acceptedAt donation draw db
      = .ok db') :
    ∀ d ∈ db'.donations, d ∈ db.donations
      ∨ donation.row source userID d.donationID = some d := by
  intro d hd
  unfold insertDonation at h
  split at h
  case h_1 => cases h
  case h_2 row hrow =>
    split at h
    case isTrue => cases h; exact Or.inl hd
    case isFalse =>
      split at h
      case h_1 => cases h
      case h_2 inserted hinsert =>
        have hdonations : db'.donations = inserted.donations := by
          split at h
          case isTrue => cases h; rfl
          case isFalse =>
            split at h
            case h_1 => cases h
            case h_2 hqueue =>
              cases h
              rw [enqueueIncoming_frame hqueue]
        rw [hdonations] at hd
        rcases ((insertDonation_eq_some hinsert).2.2.1 d).mp hd with
          hd | rfl
        · exact Or.inl hd
        · obtain ⟨-, -, hid, -⟩ := Donation.row_eq_some hrow
          exact Or.inr (hid ▸ hrow)

/-- What a batch adds are rows of its donations. -/
theorem rows_of_insertOrdered
    (h : insertOrdered source userID origin acceptedAt donations draws db
      = .ok db') :
    ∀ d ∈ db'.donations, d ∈ db.donations
      ∨ ∃ donation ∈ donations,
        donation.row source userID d.donationID = some d := by
  induction donations generalizing draws db with
  | nil =>
      cases h
      exact fun d hd => Or.inl hd
  | cons donation donations ih =>
      cases draws with
      | nil => cases h
      | cons draw draws =>
          unfold insertOrdered at h
          split at h
          case h_1 => cases h
          case h_2 middle hfirst =>
            intro d hd
            rcases ih h d hd with hd | ⟨other, hmem, hrow⟩
            · rcases row_of_insertDonation hfirst d hd with hd | hrow
              · exact Or.inl hd
              · exact Or.inr ⟨donation, List.mem_cons_self, hrow⟩
            · exact Or.inr ⟨other, List.mem_cons_of_mem _ hmem, hrow⟩

theorem rows_of_insertDonations
    (h : insertDonations source userID donations origin acceptedAt draws db
      = .ok db') :
    ∀ d ∈ db'.donations, d ∈ db.donations
      ∨ ∃ donation ∈ donations,
        donation.row source userID d.donationID = some d := by
  intro d hd
  rcases rows_of_insertOrdered h d hd with hd | ⟨donation, hmem, hrow⟩
  · exact Or.inl hd
  · refine Or.inr ⟨donation, ?_, hrow⟩
    exact (List.mem_insertionSort Donation.Before).mp hmem

/-- A batch in any order is stored like an ordered one. -/
theorem turns_of_insertDonations
    (h : insertDonations source userID donations origin acceptedAt draws db
      = .ok db') :
    Turns source userID origin acceptedAt db db'
      ∧ ∀ d ∈ donations, Stored userID source d.sourceDonationID db' := by
  obtain ⟨hturns, hstored⟩ := turns_of_insertOrdered h
  refine ⟨hturns, fun d hd => hstored d ?_⟩
  exact (List.mem_insertionSort Donation.Before).mpr hd

end StreamBrew.Donations
