/-
The store of donation ingestion: the calls of store.go over the saved
connections, the donations and the alert queue.

# Guarded calls

A listener or a history worker reads a connection and goes on using it
while others replace it. Each of its calls names the generation that it
read, and its first statement writes the connection row under that
condition (`ConnectionRow.Is`): that statement locks the row, so the
call is one step, and no row written is `staleCredentials`.

# Transactions that are cut

The two values the database draws for a new donation come from a list,
one entry for each donation. Where the list is shorter than the batch
the transaction is cut there: its context ended, or the database went
away. A cut transaction leaves nothing behind, like a failed one.
-/
import Mathlib.Data.String.Basic
import Mathlib.Data.Prod.Lex
import StreamBrew.Donations.Domain

namespace StreamBrew.Donations

open Relational
open Alert (UserID DonationID Time Source Draw jsDate)

/-- Why a call fails. -/
inductive StoreError
  | staleCredentials
  | database
  deriving DecidableEq, Repr

/-- The alert tables with the donations, and the connection tables. -/
structure Db where
  alert : Alert.Db
  connections : Table ConnectionRow.key
  donateStream : Table DonateStreamConnection.userID
  tourniquet : Table TourniquetConnection.userID

/-- The database before any call. -/
def Db.init : Db where
  alert := .init
  connections := .empty
  donateStream := .empty
  tourniquet := .empty

/-- What a caller sees of a call, and the database after it. -/
abbrev Outcome (α : Type) := Except StoreError α × Db

-- ================================= donations

/-- The values drawn for an inserted donation and its playback. -/
structure DonationDraw where
  donationID : DonationID
  playback : Draw
  deriving DecidableEq, Repr

/-- `(user_id, source, source_donation_id)` is taken. -/
def Stored (userID : UserID) (source : Source) (sourceDonationID : String)
    (db : Alert.Db) : Prop :=
  db.donations.Exists fun d => d.userID = userID ∧ d.source = source
    ∧ d.sourceDonationID = sourceDonationID

instance (userID : UserID) (source : Source) (sourceDonationID : String)
    (db : Alert.Db) :
    Decidable (Stored userID source sourceDonationID db) :=
  inferInstanceAs (Decidable (Table.Exists _ _))

/-- One turn of the loop of `insertDonations`: insert or ignore, and
queue the alert of what was inserted. -/
def insertDonation (source : Source) (userID : UserID)
    (origin : IngestionOrigin) (acceptedAt : Time) (donation : Donation)
    (draw : DonationDraw) (db : Alert.Db) : Except StoreError Alert.Db :=
  match donation.row source userID draw.donationID with
  | none => .error .database
  | some row =>
      if Stored userID source donation.sourceDonationID db then .ok db
      else match db.insertDonation row with
        | none => .error .database
        | some inserted =>
            if origin = .initialHistory then .ok inserted
            else match Alert.enqueueIncoming userID draw.donationID source
                acceptedAt draw.playback inserted with
              | .error _ => .error .database
              | .ok db' => .ok db'

/-- The order in which a batch is stored: by time, then by id. -/
def Donation.Before (left right : Donation) : Prop :=
  toLex (left.occurredAt, left.sourceDonationID)
    ≤ toLex (right.occurredAt, right.sourceDonationID)

instance : DecidableRel Donation.Before :=
  fun _ _ => inferInstanceAs (Decidable (_ ≤ _))

/-- A stable sort. -/
def orderedDonations (donations : List Donation) : List Donation :=
  donations.insertionSort Donation.Before

/-- Store donations one after another; where the draws run out, the
transaction is cut. -/
def insertOrdered (source : Source) (userID : UserID)
    (origin : IngestionOrigin) (acceptedAt : Time) :
    List Donation → List DonationDraw → Alert.Db →
      Except StoreError Alert.Db
  | [], _, db => .ok db
  | _ :: _, [], _ => .error .database
  | donation :: donations, draw :: draws, db =>
      match insertDonation source userID origin acceptedAt donation draw
          db with
      | .error e => .error e
      | .ok db' => insertOrdered source userID origin acceptedAt donations
          draws db'

/-- insertDonations: the oldest donation first. -/
def insertDonations (source : Source) (userID : UserID)
    (donations : List Donation) (origin : IngestionOrigin)
    (acceptedAt : Time) (draws : List DonationDraw) (db : Alert.Db) :
    Except StoreError Alert.Db :=
  insertOrdered source userID origin acceptedAt
    (orderedDonations donations) draws db

/-- Commit the donations of a transaction together with what it wrote
to the connections, or nothing. -/
def Db.commit (db written : Db) :
    Except StoreError Alert.Db → Outcome Unit
  | .error e => (.error e, db)
  | .ok alert => (.ok (), { written with alert })

-- ====================== provider connections

/-- What the application reads of the connections of a provider. -/
def connections (provider : Provider) (db : Db) : List Connection :=
  (db.connections.rows.filter fun r => r.provider = provider
    ∧ (provider = .streamElements → r.status = .connected)).map
      ConnectionRow.toConnection

/-- The `DO UPDATE` clause of SaveConnectionWithDonations. -/
def ConnectionRow.reconnect (connection : ProviderConnection)
    (checkpoint : Option String) (r : ConnectionRow) : ConnectionRow :=
  { r with
    sourceUserID := connection.sourceUserID
    accessToken := connection.accessToken
    refreshToken := connection.refreshToken
    historyCheckpoint := checkpoint
    tokenVersion := r.tokenVersion + 1
    status := .connected }

/-- `INSERT .. ON CONFLICT (user_id) DO UPDATE`; refused when another
user has the provider account, or the version is at its end. -/
def Db.saveConnection (provider : Provider) (userID : UserID)
    (connection : ProviderConnection) (checkpoint : Option String)
    (now : Time) (db : Db) : Option Db :=
  if db.connections.Exists (fun r => r.provider = provider
        ∧ r.userID ≠ userID ∧ r.sourceUserID = connection.sourceUserID)
      ∨ db.connections.Exists (fun r => r.provider = provider
        ∧ r.userID = userID ∧ integerMax ≤ r.tokenVersion) then none
  else some { db with
    connections := db.connections.upsert
      { provider, userID
        sourceUserID := connection.sourceUserID
        accessToken := connection.accessToken
        refreshToken := connection.refreshToken
        historyCheckpoint := checkpoint
        tokenVersion := 1
        connectedAt := jsDate now }
      (ConnectionRow.reconnect connection checkpoint) (Table.keeps rfl) }

/-- providerStore.SaveConnectionWithDonations: the connection and its history
together. -/
def saveConnectionWithDonations (provider : Provider) (userID : UserID)
    (connection : ProviderConnection) (batch : DonationBatch) (now : Time)
    (draws : List DonationDraw) (db : Db) : Outcome Unit :=
  match db.saveConnection provider userID connection batch.checkpoint
      now with
  | none => (.error .database, db)
  | some written => db.commit written
      (insertDonations provider.source userID batch.donations
        .initialHistory zeroTime draws db.alert)

/-- `connectionVersionCondition`, in the table of the provider. -/
def ConnectionRow.Is (provider : Provider) (version : ConnectionVersion)
    (r : ConnectionRow) : Prop :=
  r.provider = provider ∧ r.toConnection.version = version

instance (provider : Provider) (version : ConnectionVersion) :
    DecidablePred (ConnectionRow.Is provider version) :=
  fun _ => inferInstanceAs (Decidable (_ ∧ _))

/-- The condition with the status filter that StreamElements adds. -/
def ConnectionRow.Usable (provider : Provider)
    (version : ConnectionVersion) (r : ConnectionRow) : Prop :=
  r.Is provider version
    ∧ (provider = .streamElements → r.status = .connected)

instance (provider : Provider) (version : ConnectionVersion) :
    DecidablePred (ConnectionRow.Usable provider version) :=
  fun _ => inferInstanceAs (Decidable (_ ∧ _))

/-- providerStore.SaveDonations: the batch and its checkpoint, for the
connection as it was read. -/
def saveDonations (provider : Provider) (version : ConnectionVersion)
    (batch : DonationBatch) (origin : IngestionOrigin) (acceptedAt : Time)
    (draws : List DonationDraw) (db : Db) : Outcome Unit :=
  if db.connections.Exists (ConnectionRow.Usable provider version) then
    db.commit
      { db with
        connections := db.connections.update
          (ConnectionRow.Usable provider version)
          (fun r => { r with
            historyCheckpoint :=
              batch.checkpoint <|> r.historyCheckpoint })
          (Table.keeps rfl) }
      (insertDonations provider.source version.userID batch.donations
        origin acceptedAt draws db.alert)
  else (.error .staleCredentials, db)

/-- An `UPDATE` of the row of a generation, and whether there was one. -/
def Db.updateIfVersion (provider : Provider) (version : ConnectionVersion)
    (f : ConnectionRow → ConnectionRow) (hf : ∀ r, (f r).key = r.key)
    (db : Db) : Outcome Bool :=
  (.ok (db.connections.Exists (ConnectionRow.Usable provider version)),
    { db with
      connections := db.connections.update
        (ConnectionRow.Usable provider version) f hf })

/-- providerStore.SetTokensIfVersion: the tokens and the version change
together. -/
def setTokensIfVersion (provider : Provider) (version : ConnectionVersion)
    (tokens : Tokens) (db : Db) : Outcome Bool :=
  if db.connections.Exists (fun r => r.Usable provider version
      ∧ integerMax ≤ r.tokenVersion) then (.error .database, db)
  else db.updateIfVersion provider version
    (fun r => { r with
      refreshToken := tokens.refreshToken
      accessToken := tokens.accessToken
      tokenVersion := r.tokenVersion + 1 })
    (Table.keeps rfl)

/-- providerStore.Disconnect -/
def disconnect (provider : Provider) (userID : UserID) (db : Db) : Db :=
  { db with
    connections := db.connections.delete fun r =>
      r.provider = provider ∧ r.userID = userID }

/-- providerStore.DisconnectIfVersion: only the connection as it was read. -/
def disconnectIfVersion (provider : Provider)
    (version : ConnectionVersion) (db : Db) : Outcome Bool :=
  (.ok (db.connections.Exists (ConnectionRow.Is provider version)),
    { db with
      connections :=
        db.connections.delete (ConnectionRow.Is provider version) })

/-- providerStore.RequireReauthorizationIfVersion: StreamElements keeps the
row, the others lose it. -/
def requireReauthorizationIfVersion (provider : Provider)
    (version : ConnectionVersion) (db : Db) : Outcome Bool :=
  if provider ≠ .streamElements then
    disconnectIfVersion provider version db
  else db.updateIfVersion .streamElements version
    (fun r => { r with status := .reauthorizationRequired })
    (Table.keeps rfl)

/-- providerStore.MarkConnectionErrorIfVersion: there is a status for
StreamElements only. -/
def markConnectionErrorIfVersion (provider : Provider)
    (version : ConnectionVersion) (db : Db) : Outcome Bool :=
  if provider ≠ .streamElements then (.ok false, db)
  else db.updateIfVersion .streamElements version
    (fun r => { r with status := .error }) (Table.keeps rfl)

-- ======================== widget connections

/-- The `DO UPDATE` clause of SaveDonateStreamConnection. -/
def DonateStreamConnection.replace (widgetGroupUID widgetToken : String)
    (r : DonateStreamConnection) : DonateStreamConnection :=
  { r with widgetGroupUID, widgetToken }

/-- The `DO UPDATE` clause of SaveTourniquetConnection. -/
def TourniquetConnection.replace (widgetToken : String)
    (r : TourniquetConnection) : TourniquetConnection :=
  { r with widgetToken }

/-- Another user's widget group is refused. -/
def saveDonateStreamConnection (userID : UserID)
    (widgetGroupUID widgetToken : String) (db : Db) : Outcome Unit :=
  if db.donateStream.Exists fun r =>
      r.userID ≠ userID ∧ r.widgetGroupUID = widgetGroupUID then
    (.error .database, db)
  else (.ok (), { db with
    donateStream := db.donateStream.upsert
      { userID, widgetGroupUID, widgetToken }
      (.replace widgetGroupUID widgetToken) (Table.keeps rfl) })

/-- Another user's widget token is refused. -/
def saveTourniquetConnection (userID : UserID) (widgetToken : String)
    (db : Db) : Outcome Unit :=
  if !validWidgetToken widgetToken ∨ db.tourniquet.Exists fun r =>
      r.userID ≠ userID ∧ r.widgetToken = widgetToken then
    (.error .database, db)
  else (.ok (), { db with
    tourniquet := db.tourniquet.upsert { userID, widgetToken }
      (.replace widgetToken) (Table.keeps rfl) })

/-- The donations of a widget, stored while its token is the saved
one. -/
def insertWidgetDonations (source : Source) (saved : Prop)
    [Decidable saved] (userID : UserID) (donations : List Donation)
    (origin : IngestionOrigin) (acceptedAt : Time)
    (draws : List DonationDraw) (db : Db) : Outcome Unit :=
  if donations = [] then (.ok (), db)
  else if saved then db.commit db
    (insertDonations source userID donations origin acceptedAt draws
      db.alert)
  else (.error .staleCredentials, db)

/-- Store.InsertDonateStreamDonations: for the widget with this token. -/
def insertDonateStreamDonations (userID : UserID) (widgetToken : String)
    (donations : List Donation) (origin : IngestionOrigin)
    (acceptedAt : Time) (draws : List DonationDraw) (db : Db) :
    Outcome Unit :=
  insertWidgetDonations .donateStream
    (db.donateStream.Exists fun r =>
      r.userID = userID ∧ r.widgetToken = widgetToken)
    userID donations origin acceptedAt draws db

/-- Store.InsertTourniquetDonations: for the widget with this token. -/
def insertTourniquetDonations (userID : UserID) (widgetToken : String)
    (donations : List Donation) (origin : IngestionOrigin)
    (acceptedAt : Time) (draws : List DonationDraw) (db : Db) :
    Outcome Unit :=
  insertWidgetDonations .tourniquet
    (db.tourniquet.Exists fun r =>
      r.userID = userID ∧ r.widgetToken = widgetToken)
    userID donations origin acceptedAt draws db

/-- Store.DisconnectDonateStream -/
def disconnectDonateStream (userID : UserID) (db : Db) : Db :=
  { db with donateStream := db.donateStream.delete (·.userID = userID) }

/-- Store.DisconnectDonateStreamIfToken: only the widget as it was read. -/
def disconnectDonateStreamIfToken (userID : UserID)
    (widgetToken : String) (db : Db) : Outcome Bool :=
  (.ok (db.donateStream.Exists fun r =>
      r.userID = userID ∧ r.widgetToken = widgetToken),
    { db with
      donateStream := db.donateStream.delete fun r =>
        r.userID = userID ∧ r.widgetToken = widgetToken })

/-- Store.DisconnectTourniquet -/
def disconnectTourniquet (userID : UserID) (db : Db) : Db :=
  { db with tourniquet := db.tourniquet.delete (·.userID = userID) }

end StreamBrew.Donations
