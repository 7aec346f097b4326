/-
What a store call does to the saved connections.

# Generations

A saved connection is a register: the connect time is its epoch, the
token version its version, and the provider account with its tokens the
content (`Connection.stamped`). Every call is one step of every such
register (`renews_perform`), so the content of a generation never changes
under its version.

# Guards

A call that names a generation changes nothing while that generation is
not the stored one (`perform_stale`). The condition is part of each
statement, so this holds of every state, whatever led to it.
-/
import StreamBrew.Lib.Registers
import StreamBrew.Donations.Application

namespace StreamBrew.Donations

open Relational Generation
open Alert (UserID Time)

-- =============================== generations

/-- The generation that a connection is a copy of. -/
def Connection.stamped (c : Connection) :
    Stamped Time ProviderConnection where
  epoch := c.connectedAt
  version := c.tokenVersion
  content :=
    { sourceUserID := c.sourceUserID
      accessToken := c.accessToken
      refreshToken := c.refreshToken }

/-- The saved connection of a user, as a register. -/
def Db.register (provider : Provider) (userID : UserID) (db : Db) :
    Option (Stamped Time ProviderConnection) :=
  (db.connections.get? (provider, userID)).map fun r =>
    r.toConnection.stamped

/-- The connect time of a connection that a call creates. -/
def connectedAt (provider : Provider) (userID : UserID) (db db' : Db) :
    List Time :=
  drawn (db.register provider userID) (db'.register provider userID)

variable {provider : Provider} {userID : UserID} {db db' : Db}

/-- The saved connection of a user takes one step. -/
def Renews (provider : Provider) (userID : UserID) (db db' : Db) : Prop :=
  Step (connectedAt provider userID db db') (db.register provider userID)
    (db'.register provider userID)

theorem Renews.of_eq (h : db'.connections = db.connections) :
    Renews provider userID db db' := by
  have hsame : Generation.Renews (fun r : ConnectionRow =>
      r.toConnection.stamped) (provider, userID) db.connections
      db'.connections := by
    rw [h]
    exact .refl _ _
  exact hsame

/-- An update that leaves the generation alone, or advances it. -/
theorem Renews.update {p : ConnectionRow → Prop} [DecidablePred p]
    {f : ConnectionRow → ConnectionRow} {hf : ∀ r, (f r).key = r.key}
    (h : ∀ r : ConnectionRow,
      (f r).toConnection.stamped = r.toConnection.stamped
      ∨ ∃ content, (f r).toConnection.stamped
        = ⟨r.connectedAt, r.tokenVersion + 1, content⟩) :
    Renews provider userID db
      { db with connections := db.connections.update p f hf } := by
  show Generation.Renews (fun r : ConnectionRow => r.toConnection.stamped)
    (provider, userID) db.connections (db.connections.update p f hf)
  exact .update fun r _ _ => h r

theorem Renews.delete {p : ConnectionRow → Prop} [DecidablePred p] :
    Renews provider userID db
      { db with connections := db.connections.delete p } :=
  Generation.Renews.delete

/-- An upsert fills the register, or advances it. -/
theorem Renews.upsert {a : ConnectionRow}
    {merge : ConnectionRow → ConnectionRow}
    {hm : ∀ r, (merge r).key = r.key}
    (h : ∀ r, ∃ content, (merge r).toConnection.stamped
      = ⟨r.connectedAt, r.tokenVersion + 1, content⟩) :
    Renews provider userID db
      { db with connections := db.connections.upsert a merge hm } :=
  Generation.Renews.upsert h

-- ================================= the calls

theorem commit_eq (written : Db) (alert : Except StoreError Alert.Db) :
    (db.commit written alert).2 = db
      ∨ ∃ a, (db.commit written alert).2 = { written with alert := a } := by
  cases alert with
  | error e => exact Or.inl rfl
  | ok a => exact Or.inr ⟨a, rfl⟩

theorem renews_commit {written : Db} {alert : Except StoreError Alert.Db}
    (h : Renews provider userID db written) :
    Renews provider userID db (db.commit written alert).2 := by
  rcases commit_eq written alert with he | ⟨a, he⟩
  · rw [he]
    exact .of_eq rfl
  · rw [he]
    exact h

theorem insertWidgetDonations_connections {source : Alert.Source}
    {saved : Prop} [Decidable saved] {donations : List Donation}
    {origin : IngestionOrigin} {acceptedAt : Time}
    {draws : List DonationDraw} :
    (insertWidgetDonations source saved userID donations origin acceptedAt
      draws db).2.connections = db.connections := by
  unfold insertWidgetDonations
  split
  case isTrue => rfl
  case isFalse =>
    split
    case isFalse => rfl
    case isTrue =>
      rcases commit_eq db (insertDonations source userID donations origin
        acceptedAt draws db.alert) with he | ⟨a, he⟩
      · rw [he]
      · rw [he]

/-- Connecting creates the connection, or replaces its account under a
new version. -/
theorem renews_saveConnection {user : UserID}
    {connection : ProviderConnection} {checkpoint : Option String}
    {now : Time} {service : Provider}
    (h : db.saveConnection service user connection checkpoint now
      = some db') : Renews provider userID db db' := by
  unfold Db.saveConnection at h
  split at h
  case isTrue => cases h
  case isFalse =>
    injection h with h
    rw [← h]
    exact .upsert fun r => ⟨_, rfl⟩

/-- Every call is a step of every saved connection. -/
theorem renews_perform (call : Call) :
    Renews provider userID db (perform db call) := by
  cases call with
  | saveConnectionWithDonations service user connection batch now draws =>
      show Renews _ _ db (saveConnectionWithDonations ..).2
      unfold saveConnectionWithDonations
      split
      case h_1 => exact .of_eq rfl
      case h_2 written hsave =>
        exact renews_commit (renews_saveConnection hsave)
  | saveDonations service version batch origin acceptedAt draws =>
      show Renews _ _ db (saveDonations ..).2
      unfold saveDonations
      split
      case isFalse => exact .of_eq rfl
      case isTrue => exact renews_commit (.update fun r => Or.inl rfl)
  | setTokensIfVersion service version tokens =>
      show Renews _ _ db (setTokensIfVersion ..).2
      unfold setTokensIfVersion
      split
      case isTrue => exact .of_eq rfl
      case isFalse => exact .update fun r => Or.inr ⟨_, rfl⟩
  | disconnect service user => exact .delete
  | requireReauthorizationIfVersion service version =>
      show Renews _ _ db (requireReauthorizationIfVersion ..).2
      unfold requireReauthorizationIfVersion
      split
      case isTrue => exact .delete
      case isFalse => exact .update fun r => Or.inl rfl
  | markConnectionErrorIfVersion service version =>
      show Renews _ _ db (markConnectionErrorIfVersion ..).2
      unfold markConnectionErrorIfVersion
      split
      case isTrue => exact .of_eq rfl
      case isFalse => exact .update fun r => Or.inl rfl
  | saveDonateStreamConnection user group token =>
      show Renews _ _ db (saveDonateStreamConnection ..).2
      unfold saveDonateStreamConnection
      split
      case isTrue => exact .of_eq rfl
      case isFalse => exact .of_eq rfl
  | insertDonateStreamDonations =>
      exact .of_eq insertWidgetDonations_connections
  | disconnectDonateStream => exact .of_eq rfl
  | disconnectDonateStreamIfToken => exact .of_eq rfl
  | saveTourniquetConnection user token =>
      show Renews _ _ db (saveTourniquetConnection ..).2
      unfold saveTourniquetConnection
      split
      case isTrue => exact .of_eq rfl
      case isFalse => exact .of_eq rfl
  | insertTourniquetDonations =>
      exact .of_eq insertWidgetDonations_connections
  | disconnectTourniquet => exact .of_eq rfl
  | alert => exact .of_eq rfl

-- ==================================== guards

/-- The generation a call is guarded by. -/
def Call.guard : Call → Option (Provider × ConnectionVersion)
  | .saveDonations provider version _ _ _ _
  | .setTokensIfVersion provider version _
  | .requireReauthorizationIfVersion provider version
  | .markConnectionErrorIfVersion provider version =>
      some (provider, version)
  | _ => none

/-- The stored connection is of exactly this generation. -/
def Current (provider : Provider) (version : ConnectionVersion)
    (db : Db) : Prop :=
  db.connections.Exists (ConnectionRow.Is provider version)

instance (provider : Provider) (version : ConnectionVersion) (db : Db) :
    Decidable (Current provider version db) :=
  inferInstanceAs (Decidable (Table.Exists _ _))

variable {version : ConnectionVersion}

theorem updateIfVersion_stale (h : ¬ Current provider version db)
    {f : ConnectionRow → ConnectionRow} (hf : ∀ r, (f r).key = r.key) :
    (db.updateIfVersion provider version f hf).2 = db := by
  have hnone : ∀ r ∈ db.connections, ¬ r.Usable provider version :=
    fun r hr hu => h ⟨r, hr, hu.1⟩
  unfold Db.updateIfVersion
  simp only
  rw [Table.update_eq_self hnone]

/-- A guarded call changes nothing at all unless its generation is the
stored one. -/
theorem perform_stale {call : Call}
    (hguard : call.guard = some (provider, version))
    (h : ¬ Current provider version db) : perform db call = db := by
  have hnone : ¬ db.connections.Exists
      (ConnectionRow.Usable provider version) :=
    fun ⟨r, hr, hu⟩ => h ⟨r, hr, hu.1⟩
  cases call with
  | saveDonations service v batch origin acceptedAt draws =>
      cases hguard
      show (saveDonations ..).2 = db
      unfold saveDonations
      rw [if_neg hnone]
  | setTokensIfVersion service v tokens =>
      cases hguard
      show (setTokensIfVersion ..).2 = db
      unfold setTokensIfVersion
      split
      case isTrue => rfl
      case isFalse => exact updateIfVersion_stale h _
  | requireReauthorizationIfVersion service v =>
      cases hguard
      show (requireReauthorizationIfVersion ..).2 = db
      unfold requireReauthorizationIfVersion
      split
      case isTrue =>
        unfold disconnectIfVersion
        simp only
        rw [Table.delete_eq_self fun r hr his => h ⟨r, hr, his⟩]
      case isFalse hse =>
        have hprovider := not_not.mp hse
        subst hprovider
        exact updateIfVersion_stale h _
  | markConnectionErrorIfVersion service v =>
      cases hguard
      show (markConnectionErrorIfVersion ..).2 = db
      unfold markConnectionErrorIfVersion
      split
      case isTrue => rfl
      case isFalse hse =>
        have hprovider := not_not.mp hse
        subst hprovider
        exact updateIfVersion_stale h _
  | _ => cases hguard

end StreamBrew.Donations
