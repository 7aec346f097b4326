/-
Rejected rows and the history checkpoint.

A provider's endpoint may return rows that are not valid donations. They
are never stored, but they count for the checkpoint: what a pass
persists is the id of the newest row, valid or rejected.
-/
import StreamBrew.Donations.Proofs.Checkpoints
import StreamBrew.StreamElements.Proofs.Client
import StreamBrew.Streamlabs.Proofs.Client

namespace StreamBrew.Donations

open Relational
open Alert (UserID Time)

/-- A pass over a history, and what it saves the batch with. -/
inductive HistoryPass
  | initial (userID : UserID) (connection : ProviderConnection)
      (now : Time)
  | live (version : ConnectionVersion) (acceptedAt : Time)
  | recovery (version : ConnectionVersion) (acceptedAt : Time)

/-- The save at the end of a pass. -/
def HistoryPass.save (provider : Provider) (batch : DonationBatch)
    (draws : List DonationDraw) (db : Db) : HistoryPass → Outcome Unit
  | .initial userID connection now =>
      saveConnectionWithDonations provider userID connection batch now
        draws db
  | .live version acceptedAt =>
      saveDonations provider version batch .live acceptedAt draws db
  | .recovery version acceptedAt =>
      saveDonations provider version batch .recovery acceptedAt draws db

/-- The user whose connection a pass reads. -/
def HistoryPass.userID : HistoryPass → UserID
  | .initial userID _ _ => userID
  | .live version _ | .recovery version _ => version.userID

/-- The checkpoint that a connection keeps where its pass gives none: an
initial import replaces the connection. -/
def HistoryPass.kept (provider : Provider) (db : Db) :
    HistoryPass → Option String
  | .initial _ _ _ => none
  | .live version _ | .recovery version _ =>
      (db.connections.get? (provider, version.userID)).bind
        (·.historyCheckpoint)

/-- What the save of a pass does to the connections: one that is accepted
leaves the connection of the user with the checkpoint, and every other
as it was; one that is refused changes nothing. -/
structure HistoryPass.Persists (pass : HistoryPass) (provider : Provider)
    (checkpoint : Option String) (db : Db) (outcome : Outcome Unit) :
    Prop where
  accepted : outcome.1 = .ok () →
    ∃ r', outcome.2.connections.get? (provider, pass.userID) = some r'
      ∧ r'.historyCheckpoint = (checkpoint <|> pass.kept provider db)
  others : ∀ key, key ≠ (provider, pass.userID) →
    outcome.2.connections.get? key = db.connections.get? key
  refused : outcome.1 ≠ .ok () → outcome.2 = db

theorem HistoryPass.Persists.of_refused {pass : HistoryPass}
    {provider : Provider} {checkpoint : Option String} {db : Db}
    {e : StoreError} :
    pass.Persists provider checkpoint db (.error e, db) where
  accepted := fun h => by cases h
  others := fun _ _ => rfl
  refused := fun _ => rfl

/-- A transaction persists what it has written to the connections. -/
theorem persists_commit {pass : HistoryPass} {provider : Provider}
    {checkpoint : Option String} {db written : Db}
    (hwritten : ∃ r',
      written.connections.get? (provider, pass.userID) = some r'
        ∧ r'.historyCheckpoint = (checkpoint <|> pass.kept provider db))
    (hothers : ∀ key, key ≠ (provider, pass.userID) →
      written.connections.get? key = db.connections.get? key)
    (inserted : Except StoreError Alert.Db) :
    pass.Persists provider checkpoint db (db.commit written inserted) := by
  cases inserted with
  | error e => exact .of_refused
  | ok alert =>
      constructor
      case accepted => exact fun _ => hwritten
      case others => exact hothers
      case refused => exact fun hne => absurd rfl hne

/-- The row that a generation's calls write is the one of its user. -/
theorem key_of_usable {provider : Provider} {version : ConnectionVersion}
    {r : ConnectionRow} (h : r.Usable provider version) :
    r.key = (provider, version.userID) := by
  obtain ⟨⟨hprovider, hversion⟩, -⟩ := h
  unfold ConnectionRow.key
  rw [hprovider, ← hversion]
  rfl

/-- An accepted batch persists its donations and nothing that was rejected. -/
theorem persists_saveDonations {pass : HistoryPass} {provider : Provider}
    {version : ConnectionVersion} {batch : DonationBatch}
    {origin : IngestionOrigin} {acceptedAt : Time}
    {draws : List DonationDraw} {db : Db}
    (huser : pass.userID = version.userID)
    (hkept : pass.kept provider db
      = (db.connections.get? (provider, version.userID)).bind
        (·.historyCheckpoint)) :
    pass.Persists provider batch.checkpoint db
      (saveDonations provider version batch origin acceptedAt draws
        db) := by
  unfold saveDonations
  split
  case isFalse => exact .of_refused
  case isTrue husable =>
    obtain ⟨r, hr, hr'⟩ := husable
    have hget : db.connections.get? (provider, version.userID) = some r :=
      Table.get?_eq_some.mpr ⟨hr, key_of_usable hr'⟩
    apply persists_commit
    case hwritten =>
      refine ⟨{ r with historyCheckpoint :=
        batch.checkpoint <|> r.historyCheckpoint }, ?_, ?_⟩
      · rw [huser, Table.get?_update, hget, Option.map_some, if_pos hr']
      · rw [hkept, hget]
        rfl
    case hothers =>
      intro key hkey
      rw [Table.get?_update]
      cases hother : db.connections.get? key with
      | none => rfl
      | some other =>
          have hunusable : ¬ other.Usable provider version := by
            intro husable
            have hown := (Table.key_of_get? hother).symm.trans
              (key_of_usable husable)
            exact hkey (huser ▸ hown)
          rw [Option.map_some, if_neg hunusable]

/-- Every pass persists the checkpoint of its batch. -/
theorem persists_save (provider : Provider) (pass : HistoryPass)
    (batch : DonationBatch) (draws : List DonationDraw) (db : Db) :
    pass.Persists provider batch.checkpoint db
      (pass.save provider batch draws db) := by
  cases pass with
  | initial userID connection now =>
      show HistoryPass.Persists _ _ _ _ (saveConnectionWithDonations ..)
      unfold saveConnectionWithDonations
      split
      case h_1 => exact .of_refused
      case h_2 written hsave =>
        unfold Db.saveConnection at hsave
        split at hsave
        case isTrue => cases hsave
        case isFalse =>
          injection hsave with hsave
          subst hsave
          apply persists_commit
          case hwritten =>
            rw [show HistoryPass.userID (.initial userID connection now)
              = userID from rfl, Table.get?_upsert]
            refine ⟨_, if_pos rfl, ?_⟩
            have hnone : (batch.checkpoint <|> HistoryPass.kept provider db
                (.initial userID connection now)) = batch.checkpoint := by
              cases batch.checkpoint <;> rfl
            rw [hnone]
            cases db.connections.get? (provider, userID) <;> rfl
          case hothers =>
            intro key hkey
            rw [Table.get?_upsert]
            exact if_neg fun he => hkey he.symm
  | live version acceptedAt => exact persists_saveDonations rfl rfl
  | recovery version acceptedAt => exact persists_saveDonations rfl rfl

variable {Json : Type}

/-- The checkpoint that a pass persists is the id of the newest row of
the history, valid or rejected: for Streamlabs of every pass (the one
before, where the first page is empty), for StreamElements of the
initial traversal, and none of any other. Of the rows read the valid
ones, and no other, are the donations of the batch, and the rest, and no
other, are reported as rejected. -/
theorem checkpoint_newest_row (codec : Streamlabs.RowCodec Json)
    (tips : StreamElements.TipCodec Json)
    (parseTime : String → Option Time) (pass : HistoryPass)
    (draws : List DonationDraw) (db : Db) :
    (∀ checkpoint pages history,
      Streamlabs.getDonations codec checkpoint pages
        = some (.ok history) →
      history.checkpoint
        = ((Streamlabs.newest codec pages).map (·.id) <|> checkpoint)
      ∧ (∀ row ∈ Streamlabs.newest codec pages, ∀ d,
        row.donation = .ok d →
          history.checkpoint = some d.sourceDonationID)
      ∧ (Streamlabs.streamlabsBatch history).donations
        = (Streamlabs.donated (Streamlabs.rowsRead codec checkpoint
          pages)).map Streamlabs.Donation.toBatch
      ∧ history.rejected = Streamlabs.refused
        (Streamlabs.rowsRead codec checkpoint pages)
      ∧ pass.Persists .streamlabs history.checkpoint db
        (pass.save .streamlabs (Streamlabs.streamlabsBatch history) draws
          db))
    ∧ ∀ channelID checkpoint occurredAfter pages history,
      StreamElements.getDonations tips parseTime channelID checkpoint
        occurredAfter pages = some (.ok history) →
      history.checkpoint
        = (if checkpoint = none ∧ occurredAfter = none then
          (StreamElements.newest pages).map (StreamElements.tipID tips)
          else none)
      ∧ (checkpoint = none ∧ occurredAfter = none →
        ∀ body ∈ StreamElements.newest pages, ∀ d,
          StreamElements.decodeTip tips parseTime
              (Alert.trimSpace channelID) body = some d →
            history.checkpoint = some d.sourceDonationID)
      ∧ (StreamElements.streamElementsBatch history).donations
        = (StreamElements.donated tips parseTime
          (Alert.trimSpace channelID)
          (StreamElements.docsRead 0 1 pages)).map
            StreamElements.Donation.toBatch
      ∧ history.rejected = StreamElements.refused tips parseTime
        (Alert.trimSpace channelID) (StreamElements.docsRead 0 1 pages)
      ∧ pass.Persists .streamElements history.checkpoint db
        (pass.save .streamElements
          (StreamElements.streamElementsBatch history) draws db) := by
  constructor
  · intro checkpoint pages history h
    obtain ⟨hcheckpoint, hdonations, hrejected⟩ :=
      Streamlabs.getDonations_ok h
    refine ⟨hcheckpoint, ?_, congrArg _ hdonations, hrejected,
      persists_save _ pass (Streamlabs.streamlabsBatch history) draws db⟩
    intro row hrow d hd
    have hsound : row.Sound := by
      unfold Streamlabs.newest at hrow
      split at hrow
      case h_1 =>
        cases hrow
        exact Streamlabs.sound_decodeDonation codec _
      case h_2 => cases hrow
    rw [hcheckpoint, Option.mem_def.mp hrow, (hsound d hd).1]
    rfl
  · intro channelID checkpoint occurredAfter pages history h
    obtain ⟨hcheckpoint, hdonations, hrejected⟩ :=
      StreamElements.getDonations_ok h
    refine ⟨hcheckpoint, ?_, congrArg _ hdonations, hrejected,
      persists_save _ pass (StreamElements.streamElementsBatch history)
        draws db⟩
    intro hinitial body hbody d hd
    rw [hcheckpoint, if_pos hinitial, Option.mem_def.mp hbody,
      (StreamElements.decodeTip_eq_some hd).1]
    rfl

-- ================================ a bad head

/-- Rows as their id and their other fields. -/
def pairCodec : Streamlabs.RowCodec (String × Option Streamlabs.RawDonation)
    where
  identity := fun body => some body.1
  fields := fun body => body.2

/-- The fields of a valid donation. -/
def validFields : Streamlabs.RawDonation :=
  { createdAt := "1438576556", currency := "USD", amount := "2" }

/-- A page whose newest row is malformed. -/
def malformedHead :
    List (Option (List (String × Option Streamlabs.RawDonation))) :=
  [some [("40", none), ("20", some validFields)], some []]

/-- The account whose history is imported. -/
def importedConnection : ProviderConnection :=
  { accessToken := "a", refreshToken := "r", sourceUserID := "s" }

/-- The same rows as tips. -/
def pairTips :
    StreamElements.TipCodec (String × Option Streamlabs.RawDonation) where
  identity := fun body => some body.1
  tip := fun body => body.2.map fun raw =>
    { id := body.1
      channel := "c"
      amount := raw.amount
      currency := raw.currency
      createdAt := raw.createdAt }
  tip_identity := fun body raw h => by
    obtain ⟨_, _, rfl⟩ := Option.map_eq_some_iff.mp h
    rfl

/-- What is drawn for the one valid row. -/
def importDraws : List DonationDraw :=
  [{ donationID := 1, playback := { playbackID := 1, gap := 0 } }]

/-- An import of these rows by either provider reports "40", stores "20"
and leaves its connection with the checkpoint "40". -/
theorem checkpoint_newest_row_malformed :
    (∃ history, Streamlabs.getDonations pairCodec none malformedHead
        = some (.ok history) ∧ history.checkpoint = some "40"
      ∧ history.rejected.map (·.sourceDonationID) = ["40"]
      ∧ (Streamlabs.streamlabsBatch history).donations.map
          (·.sourceDonationID) = ["20"]
      ∧ ∃ r', ((HistoryPass.initial 1 importedConnection 0).save
          .streamlabs (Streamlabs.streamlabsBatch history) importDraws
          Db.init).2.connections.get? (.streamlabs, 1) = some r'
        ∧ r'.historyCheckpoint = some "40")
      ∧ ∃ history, StreamElements.getDonations pairTips
          (fun _ => some 0) "c" none none
          [some { docs := [("40", none), ("20", some validFields)] }]
            = some (.ok history)
        ∧ history.checkpoint = some "40"
        ∧ history.rejected.map (·.sourceDonationID) = ["40"] := by
  have hnewest := checkpoint_newest_row pairCodec pairTips
    (fun _ => some 0) (.initial 1 importedConnection 0) importDraws Db.init
  constructor
  · obtain ⟨history, hrun⟩ : ∃ history, Streamlabs.getDonations pairCodec
        none malformedHead = some (.ok history) := ⟨_, rfl⟩
    obtain ⟨hcheckpoint, -, hdonations, hrejected, hpersists⟩ :=
      hnewest.1 none malformedHead history hrun
    refine ⟨history, hrun, hcheckpoint, by rw [hrejected]; decide,
      by rw [hdonations]; decide, ?_⟩
    obtain ⟨r', hr', hmoved⟩ := hpersists.accepted (by cases hrun; decide)
    exact ⟨r', hr', hmoved.trans (by rw [hcheckpoint]; rfl)⟩
  · obtain ⟨history, hrun⟩ : ∃ history, StreamElements.getDonations
        pairTips (fun _ => some 0) "c" none none
        [some { docs := [("40", none), ("20", some validFields)] }]
          = some (.ok history) := ⟨_, rfl⟩
    obtain ⟨hcheckpoint, -, -, hrejected, -⟩ :=
      hnewest.2 _ _ _ _ history hrun
    exact ⟨history, hrun, hcheckpoint, by rw [hrejected]; decide⟩

/-- The import of this history rejects the newest row, and persists its
id. -/
theorem malformed_head_checkpoint :
    ∃ history, Streamlabs.getDonations pairCodec none malformedHead
        = some (.ok history)
      ∧ history.donations.map (·.sourceDonationID) = ["20"]
      ∧ history.rejected
        = [{ sourceDonationID := "40", error := .malformed }]
      ∧ ∃ r ∈ ((HistoryPass.initial 1 importedConnection 0).save
          .streamlabs (Streamlabs.streamlabsBatch history)
          importDraws Db.init).2.connections,
        r.historyCheckpoint = some "40" := by
  refine ⟨_, rfl, ?_, ?_, ?_⟩
  · decide
  · decide
  · decide

end StreamBrew.Donations
