/-
Connecting provider accounts while others connect and disconnect:
`SaveProviderAccount` (store.go) as a transaction of its statements, and
`Disconnect` and `SetSourceEnabled`, which do not take its lock.

The statements are those of the store's model, on the rows that are not
deleted; a deleted row stays as a version that says so. The identifiers of
new rows are drawn by the database. A statement that waits for a row or
for the lock of its user does nothing, and runs later.
-/
import StreamBrew.Chat.Store
import StreamBrew.Lib.Sessions

namespace StreamBrew.Chat.Slots

open Relational
open Alert (UserID)

-- ==================================== tables

/-- A row as a transaction has left it: deleted or there. -/
structure Version (α : Type) where
  row : α
  deleted : Bool := false
  deriving DecidableEq, Repr

/-- The primary key of connections. -/
def connectionKey (v : Version Connection) : ConnectionID :=
  v.row.connectionID

/-- The primary key of sources. -/
def sourceKey (v : Version SourceRow) : SourceID := v.row.sourceID

/-- The tables as transactions see them. -/
structure Db where
  connections : Table connectionKey
  sources : Table sourceKey

namespace Db

/-- Nothing was written. -/
def empty : Db := ⟨.empty, .empty⟩

/-- What a transaction has written hides what is there. -/
def overlay (db w : Db) : Db :=
  ⟨db.connections.overlay w.connections, db.sources.overlay w.sources⟩

/-- Two writes touch different rows. -/
def Apart (db w : Db) : Prop :=
  db.connections.Apart w.connections ∧ db.sources.Apart w.sources

instance (db w : Db) : Decidable (db.Apart w) :=
  inferInstanceAs (Decidable (_ ∧ _))

end Db

instance : Sessions.Versioned Db where
  empty := Db.empty
  overlay := Db.overlay
  Apart := Db.Apart
  decidableApart _ _ := inferInstance
  overlay_empty db := by simp [Db.overlay, Db.empty]
  empty_overlay db := by simp [Db.overlay, Db.empty]
  overlay_assoc db u w := by simp [Db.overlay, Table.overlay_assoc]
  apart_symm h := ⟨h.1.symm, h.2.symm⟩
  apart_empty _ := ⟨Table.apart_empty _, Table.apart_empty _⟩
  apart_overlay h h' := ⟨h.1.overlay h'.1, h.2.overlay h'.2⟩

/-- The rows that are not deleted. -/
def liveRows {α κ : Type} (key : α → κ)
    (t : Table fun v : Version α => key v.row) : Table key where
  rows := (t.rows.filter fun v => !v.deleted).map Version.row
  nodup := by
    rw [List.map_map]
    exact t.nodup.sublist (List.filter_sublist.map _)

/-- The tables as a statement reads them. -/
def Db.live (db : Db) : Chat.Db where
  connections := liveRows Connection.connectionID db.connections
  sources := liveRows SourceRow.key db.sources

-- ===================================== locks

/-- What a transaction locks. -/
inductive Lock
  /-- `pg_advisory_xact_lock(hashtext('chat_source'), user_id)` -/
  | user (userID : UserID)
  /-- the unique key of a connection -/
  | account (provider : Provider) (providerUserID : String)
  deriving DecidableEq, Repr

/-- What a statement does: its writes and the locks that it takes. -/
abbrev Written := Sessions.Effect Db Lock

-- =============================== transaction

/-- The next statement, with what was read before. -/
inductive Stage
  | lock
  | connection
  | position (connectionID : ConnectionID)
  | source (connectionID : ConnectionID) (position : Nat)
  | done (position : Nat) (sourceID : SourceID)
  deriving DecidableEq, Repr

/-- A call of SaveProviderAccount that is under way. -/
structure Txn where
  userID : UserID
  connection : SaveConnection
  source : SaveSource
  stage : Stage
  deriving DecidableEq, Repr

/-- A statement fails, or writes and goes on. -/
abbrev Outcome := Except StoreError (Written × Stage)

/-- saveConnection, with the identifier that is drawn. -/
def Txn.saveConnection (t : Txn) (db : Db) (connectionID : ConnectionID) :
    Outcome :=
  let row := t.connection.row t.userID connectionID
  let locks := [Lock.account row.provider row.providerUserID]
  if ¬ row.Checked then .error .database
  else
    match db.live.connections.find? fun r => r.provider = row.provider
        ∧ r.providerUserID = row.providerUserID with
    | none =>
        if db.connections.Exists fun v => connectionKey v = connectionID then
          .error .database
        else .ok
          ({ written := { Db.empty with connections := .row _ { row } }
             locks }, .position connectionID)
    | some current =>
        if current.userID ≠ t.userID then
          .error .providerAccountConnectedElsewhere
        else .ok
          ({ written :=
              { Db.empty with
                connections :=
                  .row _ { row := t.connection.reconnect current } }
             locks }, .position current.connectionID)

/-- The fourth statement: the first free place, or the limit. -/
def Txn.choosePosition (t : Txn) (db : Db) (connectionID : ConnectionID) :
    Outcome :=
  match sourcePosition t.userID t.source db.live with
  | none => .error .chatSourceLimitReached
  | some position =>
      .ok ({ written := .empty }, .source connectionID position)

/-- The rows of one source. -/
def IsSource (userID : UserID) (source : SaveSource) (r : SourceRow) : Prop :=
  r.userID = userID ∧ r.provider = source.provider
    ∧ r.providerSourceID = source.providerSourceID

instance (userID : UserID) (source : SaveSource) :
    DecidablePred (IsSource userID source) :=
  fun _ => inferInstanceAs (Decidable (_ ∧ _ ∧ _))

/-- A new row may not have the position of another one of the user. -/
def Txn.saveSource (t : Txn) (db : Db) (connectionID : ConnectionID)
    (position : Nat) (sourceID : SourceID) : Outcome :=
  let row := t.source.row t.userID connectionID position sourceID
  if ¬ row.Checked then .error .database
  else
    match db.live.sources.find? (IsSource t.userID t.source) with
    | none =>
        if db.sources.Exists fun v => sourceKey v = sourceID then
          .error .database
        else if db.live.sources.Exists fun r => r.userID = t.userID
            ∧ r.position = position then .error .database
        else .ok
          ({ written := { Db.empty with sources := .row _ { row } } },
            .done position sourceID)
    | some current => .ok
        ({ written :=
            { Db.empty with
              sources := .row _
                { row := t.source.repoint connectionID current } } },
          .done position current.sourceID)

/-- The statement that a transaction is at. -/
def Txn.statement (t : Txn) :
    Option (Db → Nat → Except StoreError (Written × Txn)) :=
  let next (f : Db → Nat → Outcome) : Db → Nat →
      Except StoreError (Written × Txn) :=
    fun db draw => (f db draw).map fun r => (r.1, { t with stage := r.2 })
  match t.stage with
  | .lock => some (next fun _ _ =>
      .ok ({ written := .empty, locks := [.user t.userID] }, .connection))
  | .connection => some (next t.saveConnection)
  | .position connectionID => some (next fun db _ =>
      t.choosePosition db connectionID)
  | .source connectionID position => some (next fun db sourceID =>
      t.saveSource db connectionID position sourceID)
  | .done _ _ => none

-- ============================= other writers

/-- The calls of one statement. -/
inductive Call
  | disconnect (userID : UserID) (connectionID : ConnectionID)
  | setSourceEnabled (userID : UserID) (sourceID : SourceID) (enabled : Bool)
  deriving DecidableEq, Repr

/-- The sources of a connection go with it. -/
def disconnect (userID : UserID) (connectionID : ConnectionID) (db : Db) :
    Db :=
  let owned (v : Version Connection) : Prop :=
    v.deleted = false ∧ v.row.userID = userID
      ∧ v.row.connectionID = connectionID
  have : DecidablePred owned := fun _ =>
    inferInstanceAs (Decidable (_ ∧ _ ∧ _))
  if db.connections.Exists owned then
    { connections := (db.connections.select owned).update (fun _ => True)
        (fun v => { v with deleted := true }) (Table.keeps rfl)
      sources :=
        (db.sources.select fun v => v.deleted = false
          ∧ v.row.connectionID = connectionID).update (fun _ => True)
            (fun v => { v with deleted := true }) (Table.keeps rfl) }
  else .empty

/-- The one statement of setSourceEnabled. -/
def setSourceEnabled (userID : UserID) (sourceID : SourceID)
    (enabled : Bool) (db : Db) : Db :=
  { Db.empty with
    sources :=
      (db.sources.select fun v => v.deleted = false
        ∧ v.row.userID = userID ∧ v.row.sourceID = sourceID).update
          (fun _ => True) (fun v => { v with row := { v.row with enabled } })
          (Table.keeps rfl) }

/-- What a call writes. -/
def Call.perform (db : Db) : Call → Except StoreError Written
  | .disconnect userID connectionID =>
      .ok { written := Slots.disconnect userID connectionID db }
  | .setSourceEnabled userID sourceID enabled =>
      .ok { written := Slots.setSourceEnabled userID sourceID enabled db }

-- =================================== machine

/-- The calls and transactions of the table, with their locks. -/
def programs : Sessions.Programs Db Lock Call Txn Nat StoreError where
  call call db := call.perform db
  fresh t := t.stage = .lock && t.connection.provider = t.source.provider
  statement := Txn.statement
  compatible held lock := held != lock
  compatible_symm _ _ := bne_comm

/-- Sessions of many connections to the database. -/
abbrev World := Sessions.World Db Lock Call Txn

/-- One of them. -/
abbrev Session := Sessions.Session Db Lock Txn

/-- What has been committed. -/
abbrev Commit := Sessions.Commit Db Call Txn

/-- The worlds that some run from empty tables ends in. -/
abbrev Reachable (w : World) : Prop := Sessions.Reachable programs Db.empty w

end StreamBrew.Chat.Slots
