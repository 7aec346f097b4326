/-
Chat connections and chat sources: their tables, and the store calls of
store.go that write or select them.

# Credentials

A connection row holds the credentials of one provider account. They
are encrypted at rest with the one key of the service, so a row is
written here as what it decrypts to. `token_version` counts the
credentials a row has held; it is the guard of every call that acts on
credentials someone read earlier.

# Identifiers

`gen_random_uuid()` returns a new value with each call. Identifiers are
numbered in the order in which they are drawn, and a database keeps how
many it has drawn.
-/
import StreamBrew.Alert.Domain

namespace StreamBrew.Chat

open Relational
open Alert (UserID Time jsDate minute)

-- =================================== records

/-- `chat_provider_connection_id`, by its place among the drawn ones. -/
abbrev ConnectionID := Nat
/-- `chat_source_id`, likewise. -/
abbrev SourceID := Nat

/-- `MaxSources`. -/
def maxSources : Nat := 20

/-- `chat_provider` -/
inductive Provider
  | youtube
  | twitch
  | kick
  | boosty
  | vkVideo
  deriving DecidableEq, Repr

/-- `chat_provider_connection_status` -/
inductive ConnectionStatus
  | connected
  | refreshRequired
  | error
  deriving DecidableEq, Repr

/-- What `token_version` counts. -/
structure Secrets where
  accessToken : Option String
  refreshToken : Option String
  oauthDeviceID : Option String
  accessTokenExpiresAt : Option Time
  scopes : List String
  deriving DecidableEq, Repr

/-- A row of chat_provider_connection. -/
structure Connection extends Secrets where
  connectionID : ConnectionID
  userID : UserID
  provider : Provider
  providerUserID : String
  displayName : String
  status : ConnectionStatus := .connected
  tokenVersion : Nat := 1
  deriving DecidableEq, Repr

/-- A source as the service reads it. -/
structure Source where
  sourceID : SourceID
  connectionID : ConnectionID
  provider : Provider
  providerSourceID : String
  displayName : String
  sourceURL : String
  position : Nat
  enabled : Bool := true
  deriving DecidableEq, Repr

/-- A row of chat_source. -/
structure SourceRow extends Source where
  userID : UserID
  deriving DecidableEq, Repr

/-- The primary key. -/
def SourceRow.key (r : SourceRow) : SourceID := r.sourceID

/-- What is needed to act for an account. -/
structure ProviderCredentials where
  accessToken : String
  refreshToken : String
  deviceID : String
  expiresAt : Option Time
  scopes : List String
  tokenVersion : Nat
  deriving DecidableEq, Repr

/-- A source with the credentials of its connection. -/
structure ConnectedSource where
  source : Source
  credentials : ProviderCredentials
  connectionStatus : ConnectionStatus
  deriving DecidableEq, Repr

/-- The same, with its owner. -/
structure OwnedConnectedSource where
  userID : UserID
  connectedSource : ConnectedSource
  deriving DecidableEq, Repr

/-- The account that a user has authorized. -/
structure SaveConnection where
  provider : Provider
  providerUserID : String
  displayName : String
  accessToken : String
  refreshToken : String
  oauthDeviceID : String
  accessTokenExpiresAt : Option Time
  scopes : List String
  deriving DecidableEq, Repr

/-- The source that is connected with it. -/
structure SaveSource where
  provider : Provider
  providerSourceID : String
  displayName : String
  sourceURL : String
  deriving DecidableEq, Repr

/-- How a store call fails. -/
inductive StoreError
  | providersDiffer
  | providerAccountConnectedElsewhere
  | chatSourceLimitReached
  | database
  deriving DecidableEq, Repr

/-- What becomes of a statement: its reply arrives, its reply is lost,
or it has no effect. -/
inductive Reply
  | answered
  | lost
  | failed
  deriving DecidableEq, Repr

/-- The tables of connected accounts. -/
structure Db where
  connections : Table Connection.connectionID
  sources : Table SourceRow.key
  /-- identifiers drawn so far -/
  connectionIDs : Nat := 0
  sourceIDs : Nat := 0

/-- Without rows. -/
def Db.init : Db := { connections := .empty, sources := .empty }

-- ==================================== checks

/-- `CHECK (char_length(..) >= 1 AND char_length(..) <= 200)`. -/
def nameCheck (name : String) : Prop := 1 ≤ name.length ∧ name.length ≤ 200

instance (name : String) : Decidable (nameCheck name) :=
  inferInstanceAs (Decidable (_ ∧ _))

/-- The checks of a connection row. -/
def Connection.Checked (r : Connection) : Prop :=
  nameCheck r.displayName ∧ nameCheck r.providerUserID
    ∧ (r.oauthDeviceID.all fun deviceID => nameCheck deviceID) = true

instance (r : Connection) : Decidable r.Checked :=
  inferInstanceAs (Decidable (_ ∧ _))

/-- The checks of a source row. -/
def SourceRow.Checked (r : SourceRow) : Prop :=
  nameCheck r.displayName ∧ nameCheck r.providerSourceID
    ∧ r.position < maxSources

instance (r : SourceRow) : Decidable r.Checked :=
  inferInstanceAs (Decidable (_ ∧ _))

-- ================================ connecting

/-- optionalEncryption, and `NULLIF(.., '')`. -/
def optional (value : String) : Option String :=
  if value = "" then none else some value

/-- The row of a provider account that was not connected before. -/
def SaveConnection.row (userID : UserID) (connectionID : ConnectionID)
    (c : SaveConnection) : Connection where
  connectionID
  userID
  provider := c.provider
  providerUserID := c.providerUserID
  displayName := c.displayName
  accessToken := optional c.accessToken
  refreshToken := optional c.refreshToken
  oauthDeviceID := optional c.oauthDeviceID
  accessTokenExpiresAt := c.accessTokenExpiresAt.map jsDate
  scopes := c.scopes

/-- The `DO UPDATE` clause of saveConnection. -/
def SaveConnection.reconnect (c : SaveConnection) (r : Connection) :
    Connection :=
  { r with
    displayName := c.displayName
    accessToken := optional c.accessToken
    refreshToken := (optional c.refreshToken).or r.refreshToken
    oauthDeviceID := (optional c.oauthDeviceID).or r.oauthDeviceID
    accessTokenExpiresAt := c.accessTokenExpiresAt.map jsDate
    scopes := c.scopes
    status := .connected
    tokenVersion := r.tokenVersion + 1 }

/-- `INSERT .. ON CONFLICT (provider, provider_user_id) DO UPDATE .. WHERE
user_id = EXCLUDED.user_id`. An identifier is drawn and the proposed row
is checked in either case; an updated row meets the checks when the
proposed one does. -/
def saveConnection (userID : UserID) (connection : SaveConnection)
    (db : Db) : Except StoreError (ConnectionID × Db) :=
  let row := connection.row userID db.connectionIDs
  if ¬ row.Checked then .error .database
  else
    let drawn := { db with connectionIDs := db.connectionIDs + 1 }
    match db.connections.find? fun r => r.provider = row.provider
        ∧ r.providerUserID = row.providerUserID with
    | none =>
        match db.connections.insert? row with
        | some connections =>
            .ok (row.connectionID, { drawn with connections })
        | none => .error .database
    | some current =>
        if current.userID ≠ userID then
          .error .providerAccountConnectedElsewhere
        else
          .ok (current.connectionID, { drawn with
            connections := db.connections.update
              (fun r => r.connectionID = current.connectionID)
              connection.reconnect (Table.keeps rfl) })

/-- The position of a source: its own, or the lowest free one. -/
def sourcePosition (userID : UserID) (source : SaveSource) (db : Db) :
    Option Nat :=
  match db.sources.find? fun r => r.userID = userID
      ∧ r.provider = source.provider
      ∧ r.providerSourceID = source.providerSourceID with
  | some r => some r.position
  | none => (List.range maxSources).find? fun slot =>
      ¬ db.sources.Exists fun r => r.userID = userID ∧ r.position = slot

/-- The row of a source that is new. -/
def SaveSource.row (userID : UserID) (connectionID : ConnectionID)
    (position : Nat) (sourceID : SourceID) (source : SaveSource) :
    SourceRow where
  sourceID
  connectionID
  userID
  position
  provider := source.provider
  providerSourceID := source.providerSourceID
  displayName := source.displayName
  sourceURL := source.sourceURL

/-- The `DO UPDATE` clause: the source points to the connection. -/
def SaveSource.repoint (connectionID : ConnectionID) (source : SaveSource)
    (r : SourceRow) : SourceRow :=
  { r with
    connectionID
    displayName := source.displayName
    sourceURL := source.sourceURL
    enabled := true }

/-- `INSERT INTO chat_source .. ON CONFLICT (user_id, provider,
provider_source_id) DO UPDATE`. -/
def saveSource (userID : UserID) (connectionID : ConnectionID)
    (source : SaveSource) (position : Nat) (db : Db) :
    Except StoreError (SourceID × Db) :=
  let row := source.row userID connectionID position db.sourceIDs
  if ¬ row.Checked then .error .database
  else
    let drawn := { db with sourceIDs := db.sourceIDs + 1 }
    match db.sources.find? fun r => r.userID = userID
        ∧ r.provider = row.provider
        ∧ r.providerSourceID = row.providerSourceID with
    | none =>
        match db.sources.insert? row with
        | some sources => .ok (row.sourceID, { drawn with sources })
        | none => .error .database
    | some current =>
        .ok (current.sourceID, { drawn with
          sources := db.sources.update
            (fun r => r.sourceID = current.sourceID)
            (source.repoint connectionID) (Table.keeps rfl) })

/-- SaveProviderAccount: one transaction, under a lock per user. -/
def saveProviderAccount (userID : UserID) (connection : SaveConnection)
    (source : SaveSource) (db : Db) : Except StoreError SourceID × Db :=
  if connection.provider ≠ source.provider then
    (.error .providersDiffer, db)
  else
    match saveConnection userID connection db with
    | .error e => (.error e, db)
    | .ok (connectionID, connected) =>
        match sourcePosition userID source connected with
        | none => (.error .chatSourceLimitReached, db)
        | some position =>
            match saveSource userID connectionID source position
                connected with
            | .error e => (.error e, db)
            | .ok (sourceID, saved) => (.ok sourceID, saved)

-- ========================= the version guard

/-- The guarded row: `WHERE chat_provider_connection_id = .. AND
token_version = ..`. -/
def Connection.At (connectionID : ConnectionID) (expectedVersion : Nat)
    (r : Connection) : Prop :=
  r.connectionID = connectionID ∧ r.tokenVersion = expectedVersion

instance (connectionID : ConnectionID) (expectedVersion : Nat) :
    DecidablePred (Connection.At connectionID expectedVersion) :=
  fun _ => inferInstanceAs (Decidable (_ ∧ _))

/-- The `SET` clause of UpdateConnectionCredentials. -/
def Connection.renew (accessToken refreshToken : String)
    (expiresAt : Option Time) (r : Connection) : Connection :=
  { r with
    accessToken := some accessToken
    refreshToken := (optional refreshToken).or r.refreshToken
    accessTokenExpiresAt := expiresAt.map jsDate
    tokenVersion := r.tokenVersion + 1
    status := .connected }

/-- The new version, or nothing when another write came first. -/
def updateConnectionCredentials (connectionID : ConnectionID)
    (expectedVersion : Nat) (accessToken refreshToken : String)
    (expiresAt : Option Time) (db : Db) : Option Nat × Db :=
  let found := db.connections.find?
    (Connection.At connectionID expectedVersion)
  (found.map fun r => r.tokenVersion + 1, { db with
    connections := db.connections.update
      (Connection.At connectionID expectedVersion)
      (Connection.renew accessToken refreshToken expiresAt)
      (Table.keeps rfl) })

/-- The guarded write of a rejection, and whether it took effect. -/
def markRefreshRequired (connectionID : ConnectionID)
    (expectedVersion : Nat) (db : Db) : Bool × Db :=
  (decide (db.connections.count
      (Connection.At connectionID expectedVersion) = 1), { db with
    connections := db.connections.update
      (Connection.At connectionID expectedVersion)
      (fun r => { r with status := .refreshRequired })
      (Table.keeps rfl) })

-- ============================= other writers

/-- Disconnect; the sources of the connection go with it. -/
def disconnect (userID : UserID) (connectionID : ConnectionID) (db : Db) :
    Db :=
  if db.connections.Exists fun r => r.userID = userID
      ∧ r.connectionID = connectionID then
    { db with
      connections := db.connections.delete fun r => r.userID = userID
        ∧ r.connectionID = connectionID
      sources := db.sources.delete fun r =>
        r.connectionID = connectionID }
  else db

/-- setSourceEnabled, and whether the source was found. -/
def setSourceEnabled (userID : UserID) (sourceID : SourceID)
    (enabled : Bool) (db : Db) : Bool × Db :=
  (decide (db.sources.count (fun r => r.userID = userID
      ∧ r.sourceID = sourceID) = 1), { db with
    sources := db.sources.update
      (fun r => r.userID = userID ∧ r.sourceID = sourceID)
      (fun r => { r with enabled }) (Table.keeps rfl) })

-- ================================= selecting

/-- The columns of a connection that scanConnectedSource reads, with
the empty string for a missing one. -/
def Connection.credentials (r : Connection) : ProviderCredentials where
  accessToken := r.accessToken.getD ""
  refreshToken := r.refreshToken.getD ""
  deviceID := r.oauthDeviceID.getD ""
  expiresAt := r.accessTokenExpiresAt
  scopes := r.scopes
  tokenVersion := r.tokenVersion

/-- One row of `chat_source JOIN chat_provider_connection`. -/
def SourceRow.connected (s : SourceRow) (r : Connection) :
    OwnedConnectedSource where
  userID := s.userID
  connectedSource :=
    { source := s.toSource
      credentials := r.credentials
      connectionStatus := r.status }

/-- The enabled sources that meet a condition, each with its
connection. -/
def selectSources (p : SourceRow → Connection → Prop)
    [∀ s r, Decidable (p s r)] (db : Db) : List OwnedConnectedSource :=
  db.sources.rows.flatMap fun s =>
    (db.connections.rows.filter fun r => r.connectionID = s.connectionID
      ∧ r.userID = s.userID ∧ s.enabled = true ∧ p s r).map s.connected

/-- loadConnectedSources, for GetEnabledSources and GetSource: sources of
connections in any status. -/
def loadConnectedSources (userID : UserID) (sourceID : Option SourceID)
    (db : Db) : List OwnedConnectedSource :=
  selectSources (fun s _ => s.userID = userID
    ∧ ∀ wanted ∈ sourceID, s.sourceID = wanted) db

/-- getAllEnabledSources: the sources that can be collected. -/
def getAllEnabledSources (db : Db) : List OwnedConnectedSource :=
  selectSources (fun _ r => r.status = .connected) db

end StreamBrew.Chat
