/-
Every donation is stored once, and alerted as the batch that stored it
first decides.

# One donation

Which batch stores a donation first is decided by one insert, and with
it whether the donation gets an incoming playback (`Turn.new`). Every
later turn, of whichever batch, either skips the donation or stores
another one, and no other call queues incoming playbacks: what was
decided stays (`hasIncoming_perform`), until the history of playbacks is
pruned.

# Two invariants

`Known` says that an incoming playback has its donation, so a donation
that is new has no playback yet. `SingleReference` is the uniqueness
that the insert checks.
-/
import StreamBrew.Donations.Proofs.Batch

namespace StreamBrew.Donations

open Relational
open Alert (UserID DonationID Time Source Draw HasIncoming Grant Steps Inv
  AcceptsIncoming)

variable {draws : List DonationDraw}

variable {source : Source} {userID : UserID} {origin : IngestionOrigin}
  {acceptedAt : Time} {db db' : Alert.Db} {g : Grant}
  {donationID : DonationID}

-- ================================ invariants

/-- One donation for each source reference of a user. -/
def SingleReference (db : Alert.Db) : Prop :=
  ∀ d ∈ db.donations, ∀ d' ∈ db.donations, d.userID = d'.userID →
    d.source = d'.source → d.sourceDonationID = d'.sourceDonationID →
    d = d'

/-- The id names a stored donation. -/
def Issued (donationID : DonationID) (db : Alert.Db) : Prop :=
  ∃ d ∈ db.donations, d.donationID = donationID

/-- Every incoming playback has its donation. -/
def Known (db : Alert.Db) : Prop :=
  ∀ donationID, HasIncoming donationID db → Issued donationID db

/-- The number of incoming playbacks of a donation. -/
def incomingCount (donationID : DonationID) (db : Alert.Db) : Nat :=
  db.playbacks.count fun r =>
    r.kind = .incoming ∧ r.donationID = some donationID

private theorem incoming_eq (hi : Inv db) :
    ∀ r ∈ db.playbacks, ∀ s ∈ db.playbacks,
      (r.kind = .incoming ∧ r.donationID = some donationID) →
      (s.kind = .incoming ∧ s.donationID = some donationID) → r = s :=
  fun r hr s hs hrd hsd =>
    hi.incoming r hr s hs hrd.1 hsd.1 (hrd.2.trans hsd.2.symm)

theorem incomingCount_le_one (hi : Inv db) :
    incomingCount donationID db ≤ 1 :=
  Table.count_le_one (incoming_eq hi)

theorem incomingCount_eq_one (hi : Inv db) :
    incomingCount donationID db = 1 ↔ HasIncoming donationID db :=
  Table.count_eq_one (incoming_eq hi)

theorem incomingCount_eq_zero :
    incomingCount donationID db = 0 ↔ ¬ HasIncoming donationID db := by
  unfold incomingCount
  rw [Table.count_eq_zero]
  exact ⟨fun h ⟨r, hr, hd⟩ => h r hr hd, fun h r hr hd => h ⟨r, hr, hd⟩⟩

-- =============================== alert calls

/-- An incoming playback was there before, or the call may queue it. -/
theorem steps_hasIncoming (hi : Inv db) (h : Steps g db db')
    (hin : HasIncoming donationID db') :
    HasIncoming donationID db ∨ g.incoming donationID := by
  induction h with
  | refl => exact Or.inl hin
  | tail hsteps heffect ih =>
      obtain ⟨r', hr', hkind, hdonation⟩ := hin
      rcases heffect.origin (hi.steps hsteps) hr' with ⟨r, hr, hn⟩ | hnew
      · exact ih ⟨r, hr, hn.kind ▸ hkind, hn.donationID ▸ hdonation⟩
      · obtain ⟨d, hd, hg⟩ := hnew.accepted hkind
        rw [hdonation] at hd
        injection hd with hd
        exact Or.inr (hd ▸ hg)

/-- A call that deletes no playback keeps the incoming ones. -/
theorem steps_keepsIncoming (hi : Inv db) (hretire : ∀ r, ¬ g.retire r)
    (h : Steps g db db') (hin : HasIncoming donationID db) :
    HasIncoming donationID db' := by
  obtain ⟨r, hr, hincoming⟩ := hin
  obtain ⟨r', hr', -, hincoming'⟩ := Alert.Steps.kept
    (P := fun r => r.kind = .incoming ∧ r.donationID = some donationID)
    hi hretire (fun _ r r' hr hn => ⟨hn.kind.trans hr.1,
      hn.donationID.trans hr.2⟩) h hr hincoming
  exact ⟨r', hr', hincoming'⟩

/-- A call that stores no donation leaves the donations alone. -/
theorem steps_donations (hdonate : ∀ d, ¬ g.donate d)
    (h : Steps g db db') (d : Alert.Donation) :
    d ∈ db'.donations ↔ d ∈ db.donations := by
  induction h with
  | refl => exact Iff.rfl
  | tail _ heffect ih =>
      rw [← ih]
      cases heffect with
      | donate donations hkeep hnew =>
          exact ⟨fun hd => (hnew d hd).resolve_right (hdonate d), hkeep d⟩
      | insert _ hins =>
          obtain ⟨-, playbacks, -, rfl⟩ :=
            Alert.Db.insertPlayback_eq_some hins
          exact Iff.rfl
      | _ => exact Iff.rfl

-- ================================== one turn

/-- What one turn of a batch may do. -/
def turnGrant (userID : UserID) (row : Alert.Donation) : Grant where
  queue u := u = userID
  donate d := d = row
  incoming donationID := donationID = row.donationID

/-- A turn is nothing, or the statements that store a new donation. -/
theorem Turn.steps (hi : Inv db)
    (h : Turn source userID origin acceptedAt db db') :
    db' = db ∨ ∃ row : Alert.Donation, ¬ Issued row.donationID db
      ∧ Issued row.donationID db'
      ∧ Steps (turnGrant userID row) db db' := by
  cases h with
  | ignore => exact Or.inl rfl
  | @insert inserted _ row draw huser hsource hinsert hqueue =>
      obtain ⟨-, hfree, hmem, -⟩ := insertDonation_eq_some hinsert
      have hrow : row ∈ inserted.donations := (hmem row).mpr (Or.inr rfl)
      have hstore : Steps (turnGrant userID row) db inserted := by
        have hsteps : Steps (turnGrant userID row) db
            ((db.insertDonation row).getD db) :=
          Alert.steps_insertDonation row rfl
        rw [hinsert] at hsteps
        exact hsteps
      refine Or.inr ⟨row, fun ⟨d, hd, hid⟩ => hfree d hd hid, ?_⟩
      split at hqueue
      case isTrue =>
        subst hqueue
        exact ⟨⟨row, hrow, rfl⟩, hstore⟩
      case isFalse =>
        refine ⟨⟨row, ?_, rfl⟩, hstore.trans
          (Alert.steps_enqueueIncoming (hi.steps hstore) rfl rfl hqueue)⟩
        rw [enqueueIncoming_frame hqueue]
        exact hrow

theorem Turn.inv (hi : Inv db)
    (h : Turn source userID origin acceptedAt db db') : Inv db' := by
  rcases h.steps hi with rfl | ⟨row, -, -, hsteps⟩
  · exact hi
  · exact hi.steps hsteps

/-- No turn changes the alert of a donation stored before. -/
theorem Turn.hasIncoming (hi : Inv db)
    (h : Turn source userID origin acceptedAt db db')
    (hissued : Issued donationID db) :
    HasIncoming donationID db' ↔ HasIncoming donationID db := by
  rcases h.steps hi with rfl | ⟨row, hnew, -, hsteps⟩
  · exact Iff.rfl
  · constructor
    · intro hin
      rcases steps_hasIncoming hi hsteps hin with hin | hg
      · exact hin
      · exact absurd (show donationID = row.donationID from hg)
          fun he => hnew (he ▸ hissued)
    · intro hin
      exact steps_keepsIncoming hi (fun r hr => hr) hsteps hin

/-- Trimming the backlog deletes nothing. -/
theorem hasIncoming_boundBacklog {now : Time} :
    HasIncoming donationID (Alert.boundBacklog userID now db)
      ↔ HasIncoming donationID db := by
  unfold HasIncoming Alert.boundBacklog
  rw [Table.exists_update]
  exact fun r => Iff.rfl

/-- The configuration of the user accepts the donation. -/
def Accepts (userID : UserID) (source : Source) (acceptedAt : Time)
    (donation : Alert.Donation) (db : Alert.Db) : Prop :=
  ∃ c, db.configurations.get? userID = some c
    ∧ AcceptsIncoming userID source acceptedAt c donation db

/-- Queueing the alert of a donation that has none queues one exactly
where the configuration accepts the donation. -/
theorem enqueueIncoming_hasIncoming {donation : Alert.Donation}
    {draw : Draw}
    (hdonation : db.donations.get? donationID = some donation)
    (hnone : ¬ HasIncoming donationID db)
    (h : Alert.enqueueIncoming userID donationID source acceptedAt draw db
      = .ok db') :
    HasIncoming donationID db'
      ↔ Accepts userID source acceptedAt donation db := by
  unfold Alert.enqueueIncoming at h
  unfold Accepts
  split at h
  case h_1 hc =>
    cases h
    rw [hc]
    refine ⟨fun hin => absurd hin hnone, fun hc' => ?_⟩
    obtain ⟨c, hc', -⟩ := hc'
    cases hc'
  case h_2 c hc =>
    rw [hc]
    rw [hdonation] at h
    simp only at h
    split at h
    case isFalse hrefused =>
      cases h
      rw [hasIncoming_boundBacklog]
      refine ⟨fun hin => absurd hin hnone, fun haccepts => ?_⟩
      obtain ⟨c', hc', haccepts⟩ := haccepts
      cases hc'
      exact absurd ⟨haccepts, hnone⟩ hrefused
    case isTrue haccepts =>
      split at h
      case h_1 => cases h
      case h_2 inserted hins =>
        cases h
        rw [hasIncoming_boundBacklog]
        refine ⟨fun _ => ⟨c, rfl, haccepts.1⟩, fun _ => ?_⟩
        obtain ⟨-, playbacks, hadd, rfl⟩ :=
          Alert.Db.insertPlayback_eq_some hins
        refine ⟨_, (Table.mem_insert? hadd).mpr (Or.inr rfl), rfl, ?_⟩
        exact congrArg some (Table.key_of_get? hdonation)

/-- The donation that a turn stores is one of the user and source of the
batch, and it is alerted exactly where it is not history and accepted. -/
theorem Turn.new (hknown : Known db)
    (h : Turn source userID origin acceptedAt db db')
    {d : Alert.Donation} (hd : d ∈ db'.donations)
    (hnew : d ∉ db.donations) :
    d.userID = userID ∧ d.source = source
      ∧ ¬ Stored d.userID d.source d.sourceDonationID db
      ∧ (∀ d' ∈ db'.donations, d' ∈ db.donations ∨ d' = d)
      ∧ (HasIncoming d.donationID db' ↔ origin ≠ .initialHistory
        ∧ Accepts userID source acceptedAt d db) := by
  cases h with
  | ignore => exact absurd hd hnew
  | @insert inserted _ row draw huser hsource hinsert hqueue =>
      obtain ⟨hfree, hid, hmem, hframe⟩ := insertDonation_eq_some hinsert
      have hdonations : db'.donations = inserted.donations := by
        split at hqueue
        case isTrue => rw [hqueue]
        case isFalse => rw [enqueueIncoming_frame hqueue]
      rw [hdonations] at hd ⊢
      have heq : d = row := ((hmem d).mp hd).resolve_left hnew
      subst heq
      refine ⟨huser, hsource, hfree, fun d' => (hmem d').mp, ?_⟩
      have hnone : ¬ HasIncoming d.donationID inserted := by
        intro hin
        rw [hframe] at hin
        obtain ⟨e, he, heid⟩ := hknown d.donationID hin
        exact hid e he heid
      split at hqueue
      case isTrue horigin =>
        subst hqueue
        exact ⟨fun hin => absurd hin hnone,
          fun ⟨horigin', _⟩ => absurd horigin horigin'⟩
      case isFalse horigin =>
        have hget : inserted.donations.get? d.donationID = some d :=
          Table.get?_eq_some.mpr ⟨hd, rfl⟩
        rw [enqueueIncoming_hasIncoming hget hnone hqueue, hframe]
        exact ⟨fun haccepts => ⟨horigin, haccepts⟩, And.right⟩

theorem Issued.turn (h : Turn source userID origin acceptedAt db db')
    (hissued : Issued donationID db) : Issued donationID db' := by
  obtain ⟨d, hd, hid⟩ := hissued
  exact ⟨d, h.frame.1 d hd, hid⟩

/-- What holds of the donations and their alerts at all times. -/
structure Ingested (db : Alert.Db) : Prop where
  inv : Inv db
  known : Known db
  single : SingleReference db

/-- A turn keeps the invariants. -/
theorem Ingested.turn (hi : Ingested db)
    (h : Turn source userID origin acceptedAt db db') : Ingested db' := by
  constructor
  case inv => exact h.inv hi.inv
  case known =>
    intro donationID hin
    rcases h.steps hi.inv with rfl | ⟨row, -, hissued, hsteps⟩
    · exact hi.known donationID hin
    · rcases steps_hasIncoming hi.inv hsteps hin with hin | hg
      · exact (hi.known donationID hin).turn h
      · exact (show donationID = row.donationID from hg) ▸ hissued
  case single =>
    have hclash : ∀ d ∈ db'.donations, ∀ d' ∈ db'.donations,
        d ∉ db.donations → d.userID = d'.userID → d.source = d'.source →
        d.sourceDonationID = d'.sourceDonationID → d = d' := by
      intro d hd d' hd' hnew huser hsource hreference
      obtain ⟨-, -, hfree, honly, -⟩ := h.new hi.known hd hnew
      rcases honly d' hd' with hd' | heq
      · exact absurd ⟨d', hd', huser.symm, hsource.symm, hreference.symm⟩
          hfree
      · exact heq.symm
    intro d hd d' hd' huser hsource hreference
    by_cases hnew : d ∈ db.donations
    · by_cases hnew' : d' ∈ db.donations
      · exact hi.single d hnew d' hnew' huser hsource hreference
      · exact (hclash d' hd' d hd hnew' huser.symm hsource.symm
          hreference.symm).symm
    · exact hclash d hd d' hd' hnew huser hsource hreference

-- =================================== batches

theorem Ingested.turns (hi : Ingested db)
    (h : Turns source userID origin acceptedAt db db') : Ingested db' := by
  induction h with
  | refl => exact hi
  | tail _ hturn ih => exact ih.turn hturn

theorem Turns.hasIncoming (hi : Ingested db)
    (h : Turns source userID origin acceptedAt db db')
    (hissued : Issued donationID db) :
    Issued donationID db'
      ∧ (HasIncoming donationID db' ↔ HasIncoming donationID db) := by
  induction h with
  | refl => exact ⟨hissued, Iff.rfl⟩
  | tail hturns hturn ih =>
      exact ⟨ih.1.turn hturn,
        (hturn.hasIncoming (hi.turns hturns).inv ih.1).trans ih.2⟩

/-- A donation that a batch stores first is alerted exactly where the
batch is not history and the configuration accepts the donation. -/
theorem turns_new (hi : Ingested db)
    (h : Turns source userID origin acceptedAt db db')
    {d : Alert.Donation} (hd : d ∈ db'.donations)
    (hnew : d ∉ db.donations) :
    d.userID = userID ∧ d.source = source
      ∧ (HasIncoming d.donationID db' ↔ origin ≠ .initialHistory
        ∧ Accepts userID source acceptedAt d db) := by
  induction h with
  | refl => exact absurd hd hnew
  | @tail middle last hturns hturn ih =>
      have hi' := hi.turns hturns
      by_cases hmiddle : d ∈ middle.donations
      · obtain ⟨huser, hsource, hiff⟩ := ih hmiddle
        exact ⟨huser, hsource,
          (hturn.hasIncoming hi'.inv ⟨d, hmiddle, rfl⟩).trans hiff⟩
      · obtain ⟨huser, hsource, -, -, hiff⟩ :=
          hturn.new hi'.known hd hmiddle
        obtain ⟨-, hconfigurations, hsources⟩ := Turns.frame hturns
        refine ⟨huser, hsource, hiff.trans ?_⟩
        unfold Accepts AcceptsIncoming
        rw [hconfigurations, hsources]

-- ===================================== calls

/-- The batch that a call stores. -/
def Call.batch : Call → Option (Source × UserID × IngestionOrigin × Time)
  | .saveConnectionWithDonations provider userID _ _ _ _ =>
      some (provider.source, userID, .initialHistory, zeroTime)
  | .saveDonations provider version _ origin acceptedAt _ =>
      some (provider.source, version.userID, origin, acceptedAt)
  | .insertDonateStreamDonations userID _ _ origin acceptedAt _ =>
      some (.donateStream, userID, origin, acceptedAt)
  | .insertTourniquetDonations userID _ _ origin acceptedAt _ =>
      some (.tourniquet, userID, origin, acceptedAt)
  | _ => none

/-- The donations that a call delivers. -/
def Call.donations : Call → List Donation
  | .saveConnectionWithDonations _ _ _ batch _ _ => batch.donations
  | .saveDonations _ _ batch _ _ _ => batch.donations
  | .insertDonateStreamDonations _ _ donations _ _ _ => donations
  | .insertTourniquetDonations _ _ donations _ _ _ => donations
  | _ => []

/-- What the caller of a batch is told. -/
def batchAnswer (database : Db) : Call → Except StoreError Unit
  | .saveConnectionWithDonations provider userID connection batch now
      draws =>
      (saveConnectionWithDonations provider userID connection batch now
        draws database).1
  | .saveDonations provider version batch origin acceptedAt draws =>
      (saveDonations provider version batch origin acceptedAt draws
        database).1
  | .insertDonateStreamDonations userID widgetToken donations origin
      acceptedAt draws =>
      (insertDonateStreamDonations userID widgetToken donations origin
        acceptedAt draws database).1
  | .insertTourniquetDonations userID widgetToken donations origin
      acceptedAt draws =>
      (insertTourniquetDonations userID widgetToken donations origin
        acceptedAt draws database).1
  | _ => .ok ()

/-- The call prunes the history of playbacks. -/
def Call.Prunes : Call → Prop
  | .alert action => ∃ now, action.1 = .pruneHistory now
  | _ => False

theorem turns_commit {database written : Db} {donations : List Donation}
    :
    Turns source userID origin acceptedAt database.alert
      (database.commit written (insertDonations source userID donations
        origin acceptedAt draws database.alert)).2.alert := by
  cases hins : insertDonations source userID donations origin acceptedAt
      draws database.alert with
  | error e => exact .refl
  | ok alert => exact (turns_of_insertDonations hins).1

theorem turns_insertWidgetDonations {database : Db} {saved : Prop}
    [Decidable saved] {donations : List Donation}
    :
    Turns source userID origin acceptedAt database.alert
      (insertWidgetDonations source saved userID donations origin
        acceptedAt draws database).2.alert := by
  unfold insertWidgetDonations
  split
  case isTrue => exact .refl
  case isFalse =>
    split
    case isTrue => exact turns_commit
    case isFalse => exact .refl

/-- What a call does to the alert tables: the turns of its batch, an
alert call, or nothing. -/
theorem perform_alert (database : Db) (call : Call) :
    (∃ source userID origin acceptedAt,
        call.batch = some (source, userID, origin, acceptedAt)
          ∧ Turns source userID origin acceptedAt database.alert
            (perform database call).alert)
      ∨ (∃ action, call = .alert action)
      ∨ (perform database call).alert = database.alert := by
  cases call with
  | saveConnectionWithDonations provider user connection batch now draws =>
      refine Or.inl ⟨_, _, _, _, rfl, ?_⟩
      show Turns _ _ _ _ database.alert
        (saveConnectionWithDonations ..).2.alert
      unfold saveConnectionWithDonations
      split
      case h_1 => exact .refl
      case h_2 => exact turns_commit
  | saveDonations provider version batch batchOrigin time draws =>
      refine Or.inl ⟨_, _, _, _, rfl, ?_⟩
      show Turns _ _ _ _ database.alert (saveDonations ..).2.alert
      unfold saveDonations
      split
      case isTrue => exact turns_commit
      case isFalse => exact .refl
  | insertDonateStreamDonations =>
      exact Or.inl ⟨_, _, _, _, rfl, turns_insertWidgetDonations⟩
  | insertTourniquetDonations =>
      exact Or.inl ⟨_, _, _, _, rfl, turns_insertWidgetDonations⟩
  | alert action => exact Or.inr (Or.inl ⟨action, rfl⟩)
  | setTokensIfVersion provider version tokens =>
      right; right
      show (setTokensIfVersion ..).2.alert = _
      unfold setTokensIfVersion
      split
      case isTrue => rfl
      case isFalse => rfl
  | requireReauthorizationIfVersion provider version =>
      right; right
      show (requireReauthorizationIfVersion ..).2.alert = _
      unfold requireReauthorizationIfVersion
      split
      case isTrue => rfl
      case isFalse => rfl
  | markConnectionErrorIfVersion provider version =>
      right; right
      show (markConnectionErrorIfVersion ..).2.alert = _
      unfold markConnectionErrorIfVersion
      split
      case isTrue => rfl
      case isFalse => rfl
  | saveDonateStreamConnection user group token =>
      right; right
      show (saveDonateStreamConnection ..).2.alert = _
      unfold saveDonateStreamConnection
      split
      case isTrue => rfl
      case isFalse => rfl
  | saveTourniquetConnection user token =>
      right; right
      show (saveTourniquetConnection ..).2.alert = _
      unfold saveTourniquetConnection
      split
      case isTrue => rfl
      case isFalse => rfl
  | _ => exact Or.inr (Or.inr rfl)

-- =================================== answers

/-- What the transaction of a batch leaves, by its answer: an accepted
batch has stored each donation that it delivered and adds no other, and
a refused one has changed nothing. -/
structure Settles (source : Source) (userID : UserID)
    (donations : List Donation) (answer : Except StoreError Unit)
    (database database' : Db) : Prop where
  stores : answer = .ok () → ∀ donation ∈ donations,
    Stored userID source donation.sourceDonationID database'.alert
  rows : ∀ d ∈ database'.alert.donations, d ∈ database.alert.donations
    ∨ ∃ donation ∈ donations,
      donation.row source userID d.donationID = some d
  refused : answer ≠ .ok () → database' = database

/-- A refused batch leaves the database as it was. -/
theorem Settles.of_refused {database : Db} {donations : List Donation}
    {e : StoreError} :
    Settles source userID donations (.error e) database database where
  stores := fun h => by cases h
  rows := fun d hd => Or.inl hd
  refused := fun _ => rfl

/-- An accepted batch has stored all its donations. -/
theorem settles_commit {database written : Db} {donations : List Donation}
    {outcome : Outcome Unit}
    (h : database.commit written (insertDonations source userID donations
      origin acceptedAt draws database.alert) = outcome) :
    Settles source userID donations outcome.1 database outcome.2 := by
  cases hins : insertDonations source userID donations origin acceptedAt
      draws database.alert with
  | error e =>
      rw [hins] at h
      subst h
      exact .of_refused
  | ok alert =>
      rw [hins] at h
      subst h
      constructor
      case stores => exact fun _ => (turns_of_insertDonations hins).2
      case rows => exact rows_of_insertDonations hins
      case refused => exact fun hne => absurd rfl hne

/-- So has an accepted batch of a widget. -/
theorem settles_insertWidgetDonations {database : Db} {saved : Prop}
    [Decidable saved] {donations : List Donation} {outcome : Outcome Unit}
    (h : insertWidgetDonations source saved userID donations origin
      acceptedAt draws database = outcome) :
    Settles source userID donations outcome.1 database outcome.2 := by
  unfold insertWidgetDonations at h
  split at h
  case isTrue hnone =>
    subst hnone h
    constructor
    case stores => exact fun _ donation hmem => absurd hmem List.not_mem_nil
    case rows => exact fun d hd => Or.inl hd
    case refused => exact fun hne => absurd rfl hne
  case isFalse =>
    split at h
    case isTrue => exact settles_commit h
    case isFalse =>
      subst h
      exact .of_refused

/-- Every batch settles, whichever of the four calls makes it. -/
theorem settles_perform {database : Db} {call : Call}
    (h : call.batch = some (source, userID, origin, acceptedAt)) :
    Settles source userID call.donations (batchAnswer database call) database
      (perform database call) := by
  cases call with
  | saveConnectionWithDonations provider user connection batch now draws =>
      cases h
      show Settles _ _ _ (saveConnectionWithDonations ..).1 _
        (saveConnectionWithDonations ..).2
      unfold saveConnectionWithDonations
      split
      case h_1 => exact .of_refused
      case h_2 written hsave => exact settles_commit rfl
  | saveDonations provider version batch batchOrigin time draws =>
      cases h
      show Settles _ _ _ (saveDonations ..).1 _ (saveDonations ..).2
      unfold saveDonations
      split
      case isTrue => exact settles_commit rfl
      case isFalse => exact .of_refused
  | insertDonateStreamDonations =>
      cases h
      exact settles_insertWidgetDonations rfl
  | insertTourniquetDonations =>
      cases h
      exact settles_insertWidgetDonations rfl
  | _ => cases h

-- ============================ the alert side

/-- The grant of an alert call that no batch makes. -/
theorem grant_of_not_ingests (db : Alert.Db) {a : Alert.Action}
    (ha : ¬ Ingests a) :
    (∀ donationID, ¬ (a.grant db).incoming donationID)
      ∧ ∀ d, ¬ (a.grant db).donate d := by
  constructor
  · intro donationID hg
    obtain ⟨user, source, time, draw, rfl⟩ := hg
    exact ha trivial
  · intro d hg
    obtain rfl : a = .insertDonation d := hg
    exact ha trivial

/-- Calls that ingest nothing keep what was ingested. -/
theorem Ingested.alert (hi : Ingested db) {a : Alert.Action}
    (ha : ¬ Ingests a) : Ingested (Alert.apply db a) := by
  have hsteps := Alert.apply_steps hi.inv a
  obtain ⟨hincoming, hdonate⟩ := grant_of_not_ingests db ha
  have hsame := steps_donations hdonate hsteps
  constructor
  case inv => exact hi.inv.apply a
  case known =>
    intro donationID hin
    rcases steps_hasIncoming hi.inv hsteps hin with hin | hg
    · obtain ⟨d, hd, hid⟩ := hi.known donationID hin
      exact ⟨d, (hsame d).mpr hd, hid⟩
    · exact absurd hg (hincoming donationID)
  case single =>
    intro d hd d' hd'
    exact hi.single d ((hsame d).mp hd) d' ((hsame d').mp hd')

variable {database : Db}

theorem Ingested.perform (hi : Ingested database.alert) (call : Call) :
    Ingested (perform database call).alert := by
  rcases perform_alert database call with
    ⟨_, _, _, _, -, hturns⟩ | ⟨action, rfl⟩ | he
  · exact hi.turns hturns
  · exact hi.alert action.2
  · rw [he]
    exact hi

theorem ingested_run (calls : List Call) :
    Ingested (Run.run perform Db.init calls).alert := by
  refine Run.run_preserves (P := fun s : Db => Ingested s.alert) ?_
    (fun s call hs => hs.perform call) calls
  refine ⟨.init, fun donationID hin => ?_, fun d hd => ?_⟩
  · obtain ⟨r, hr, -⟩ := hin
    cases hr
  · cases hd

variable {d : Alert.Donation}

/-- A stored donation stays, and no call changes its alert, apart from
pruning it. -/
theorem hasIncoming_perform (hi : Ingested database.alert) (call : Call)
    (hd : d ∈ database.alert.donations) :
    d ∈ (perform database call).alert.donations
      ∧ (HasIncoming d.donationID (perform database call).alert →
        HasIncoming d.donationID database.alert)
      ∧ (¬ call.Prunes → HasIncoming d.donationID database.alert →
        HasIncoming d.donationID (perform database call).alert) := by
  rcases perform_alert database call with
    ⟨_, _, _, _, -, hturns⟩ | ⟨action, rfl⟩ | he
  · obtain ⟨-, hiff⟩ := hturns.hasIncoming hi ⟨d, hd, rfl⟩
    exact ⟨(Turns.frame hturns).1 d hd, hiff.mp, fun _ => hiff.mpr⟩
  · have hsteps := Alert.apply_steps hi.inv action.1
    obtain ⟨hincoming, hdonate⟩ :=
      grant_of_not_ingests database.alert action.2
    refine ⟨(steps_donations hdonate hsteps d).mpr hd, fun hin => ?_,
      fun hprunes hin => ?_⟩
    · exact (steps_hasIncoming hi.inv hsteps hin).resolve_right
        (hincoming d.donationID)
    · refine steps_keepsIncoming hi.inv (fun r hr => ?_) hsteps hin
      obtain ⟨now, hnow, -⟩ := hr
      exact hprunes ⟨now, hnow⟩
  · rw [he]
    exact ⟨hd, id, fun _ => id⟩

/-- A donation stays, and gets no second playback. -/
theorem hasIncoming_run (hi : Ingested database.alert)
    (hd : d ∈ database.alert.donations) (calls : List Call) :
    d ∈ (Run.run perform database calls).alert.donations
      ∧ (HasIncoming d.donationID (Run.run perform database calls).alert →
        HasIncoming d.donationID database.alert)
      ∧ ((∀ call ∈ calls, ¬ call.Prunes) →
        HasIncoming d.donationID database.alert →
        HasIncoming d.donationID
          (Run.run perform database calls).alert) := by
  induction calls generalizing database with
  | nil => exact ⟨hd, id, fun _ => id⟩
  | cons call calls ih =>
      obtain ⟨hd', hback, hkeep⟩ := hasIncoming_perform hi call hd
      obtain ⟨ihd, ihback, ihkeep⟩ := ih (hi.perform call) hd'
      refine ⟨ihd, fun hin => hback (ihback hin), fun hprunes hin => ?_⟩
      refine ihkeep (fun c hc => hprunes c (List.mem_cons_of_mem _ hc)) ?_
      exact hkeep (hprunes call List.mem_cons_self) hin

/-- What is stored of a user stays stored. -/
theorem stored_run {sourceDonationID : String}
    (hi : Ingested database.alert)
    (h : Stored userID source sourceDonationID database.alert)
    (calls : List Call) :
    Stored userID source sourceDonationID
      (Run.run perform database calls).alert := by
  obtain ⟨d, hd, hcolumns⟩ := h
  exact ⟨d, (hasIncoming_run hi hd calls).1, hcolumns⟩

-- ============================== exactly once

/-- In every run of batches and all other calls there is one donation
for each source reference of a user, and at most one incoming playback
for each donation. An accepted batch has stored each donation that it
delivered, and they stay stored; a refused one has changed nothing. Take
the call that first stores a donation: it is a batch for the user and
source of the donation, which delivered it, and from then on the donation
is stored. If the batch is initial history, or the user's configuration
does not accept the donation, it never gets an incoming playback. If the
batch is live or recovery and the configuration accepts the donation, it
has exactly one, unless the history of playbacks is pruned. -/
theorem ingested_exactly_once (calls : List Call) :
    SingleReference (Run.run perform Db.init calls).alert
    ∧ (∀ donationID,
        incomingCount donationID (Run.run perform Db.init calls).alert ≤ 1)
    ∧ (∀ (before : List Call) (call : Call) (after : List Call),
        calls = before ++ call :: after →
        ∀ source userID origin acceptedAt,
          call.batch = some (source, userID, origin, acceptedAt) →
          (batchAnswer (Run.run perform Db.init before) call = .ok () →
            ∀ donation ∈ call.donations,
              Stored userID source donation.sourceDonationID
                (Run.run perform Db.init calls).alert)
          ∧ (batchAnswer (Run.run perform Db.init before) call ≠ .ok () →
            perform (Run.run perform Db.init before) call
              = Run.run perform Db.init before))
    ∧ ∀ (before : List Call) (call : Call) (after : List Call),
        calls = before ++ call :: after →
        ∀ d ∈ (perform (Run.run perform Db.init before)
            call).alert.donations,
          d ∉ (Run.run perform Db.init before).alert.donations →
          ∃ source userID origin acceptedAt,
            call.batch = some (source, userID, origin, acceptedAt)
            ∧ d.userID = userID ∧ d.source = source
            ∧ (∃ donation ∈ call.donations,
              donation.row source userID d.donationID = some d)
            ∧ d ∈ (Run.run perform Db.init calls).alert.donations
            ∧ (origin = .initialHistory →
              incomingCount d.donationID
                (Run.run perform Db.init calls).alert = 0)
            ∧ (¬ Accepts userID source acceptedAt d
                (Run.run perform Db.init before).alert →
              incomingCount d.donationID
                (Run.run perform Db.init calls).alert = 0)
            ∧ (origin ≠ .initialHistory →
              Accepts userID source acceptedAt d
                (Run.run perform Db.init before).alert →
              (∀ later ∈ after, ¬ later.Prunes) →
              incomingCount d.donationID
                (Run.run perform Db.init calls).alert = 1) := by
  have hi := ingested_run calls
  have hrun : ∀ (before : List Call) (call : Call) (after : List Call),
      calls = before ++ call :: after →
      Run.run perform Db.init calls = Run.run perform
        (perform (Run.run perform Db.init before) call) after := by
    intro before call after hcalls
    rw [hcalls, Run.run_append, Run.run_cons]
  refine ⟨hi.single, fun donationID => incomingCount_le_one hi.inv, ?_, ?_⟩
  · intro before call after hcalls source userID origin acceptedAt hbatch
    have hsettles : Settles source userID call.donations
        (batchAnswer (Run.run perform Db.init before) call)
        (Run.run perform Db.init before)
        (perform (Run.run perform Db.init before) call) :=
      settles_perform hbatch
    refine ⟨fun hok donation hmem => ?_, hsettles.refused⟩
    rw [hrun before call after hcalls]
    exact stored_run ((ingested_run before).perform call)
      (hsettles.stores hok donation hmem) after
  · intro before call after hcalls d hd hnew
    have hbefore := ingested_run before
    rcases perform_alert (Run.run perform Db.init before) call with
      ⟨source, userID, origin, acceptedAt, hbatch, hturns⟩ | ⟨a, rfl⟩ | he
    · obtain ⟨huser, hsource, hiff⟩ := turns_new hbefore hturns hd hnew
      have hrow := ((settles_perform hbatch).rows d hd).resolve_left hnew
      obtain ⟨hstays, hback, hkeep⟩ :=
        hasIncoming_run (hbefore.perform call) hd after
      rw [← hrun before call after hcalls] at hback hkeep hstays
      refine ⟨source, userID, origin, acceptedAt, hbatch, huser, hsource,
        hrow, hstays, fun horigin => ?_, fun haccepts => ?_,
        fun horigin haccepts hprunes => ?_⟩
      · rw [incomingCount_eq_zero]
        exact fun hin => (hiff.mp (hback hin)).1 horigin
      · rw [incomingCount_eq_zero]
        exact fun hin => haccepts (hiff.mp (hback hin)).2
      · rw [incomingCount_eq_one hi.inv]
        exact hkeep hprunes (hiff.mpr ⟨horigin, haccepts⟩)
    · have hsteps := Alert.apply_steps hbefore.inv a.1
      obtain ⟨-, hdonate⟩ := grant_of_not_ingests
        (Run.run perform Db.init before).alert a.2
      exact absurd ((steps_donations hdonate hsteps d).mp hd) hnew
    · rw [he] at hd
      exact absurd hd hnew

end StreamBrew.Donations
