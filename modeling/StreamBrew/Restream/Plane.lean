/-
The control plane of the restream nodes: `RestreamStore` (store.ts) over
its tables in schema.sql, as one machine of interleaved transactions.

`authorizePublisher` and `heartbeat` are transactions of several
statements, whose next statement depends on their stage. The others are
one statement each, or hold the user's row through all of their
statements (`createDestination`, `deleteDestination`), and are one call
each here. A statement that meets a key which another transaction is
about to free fails here at once; that it would have waited is the run
in which it comes later.

A row that is deleted stays as a version that says so. Users are not
deleted. The ids of new rows are drawn by the database.
-/
import Mathlib.Data.List.Sort
import StreamBrew.Alert.Domain
import StreamBrew.Lib.Sessions
import StreamBrew.Restream.Controller

namespace StreamBrew.Restream.Plane

open Relational
open Alert (UserID Time jsDate)

-- ==================================== tables

/-- A uuid is only ever compared. -/
abbrev DestinationID := String
/-- Likewise. -/
abbrev SessionID := String

/-- A row of `restream_ingest`. -/
structure Ingest where
  userID : UserID
  streamKeyHash : String
  deriving DecidableEq, Repr

/-- A row of `restream_destination`; the key is what its ciphertext
decrypts to. -/
structure SavedDestination where
  destinationID : DestinationID
  userID : UserID
  serverURL : String
  streamKey : String
  enabled : Bool := true
  position : Nat
  deleted : Bool := false
  deriving DecidableEq, Repr

/-- `status` of a session. -/
inductive SessionStatus
  | connecting
  | live
  | ended
  deriving DecidableEq, Repr

/-- A row of `restream_session`. -/
structure RestreamSession where
  sessionID : SessionID
  userID : UserID
  nodeID : String
  publisherID : String
  status : SessionStatus := .connecting
  startedAt : Time
  liveAt : Option Time := none
  lastHeartbeatAt : Time
  endedAt : Option Time := none
  deriving DecidableEq, Repr

/-- A row of `restream_session_destination`. -/
structure SessionDestination where
  sessionID : SessionID
  destinationID : DestinationID
  userID : UserID
  state : ForwardState := .idle
  outboundBytes : Nat := 0
  deleted : Bool := false
  deriving DecidableEq, Repr

/-- The primary key. -/
def SessionDestination.key (d : SessionDestination) :
    SessionID × DestinationID := (d.sessionID, d.destinationID)

/-- `restream_session_check`. -/
def RestreamSession.Shaped (s : RestreamSession) : Prop :=
  match s.status with
  | .connecting => s.liveAt = none ∧ s.endedAt = none
  | .live => s.liveAt.isSome ∧ s.endedAt = none
  | .ended => s.endedAt.isSome

instance (s : RestreamSession) : Decidable s.Shaped := by
  unfold RestreamSession.Shaped
  split <;> exact inferInstance

/-- The checks of the table. -/
def RestreamSession.Check (s : RestreamSession) : Prop :=
  s.Shaped
    ∧ 1 ≤ s.nodeID.length ∧ s.nodeID.length ≤ 64
    ∧ 1 ≤ s.publisherID.length ∧ s.publisherID.length ≤ 128

instance (s : RestreamSession) : Decidable s.Check :=
  inferInstanceAs (Decidable (_ ∧ _ ∧ _ ∧ _ ∧ _))

/-- `status <> 'ended'`. -/
def RestreamSession.active (s : RestreamSession) : Bool :=
  s.status != .ended

/-- Row versions of the tables. -/
structure Db where
  ingests : Table Ingest.userID
  destinations : Table SavedDestination.destinationID
  sessions : Table RestreamSession.sessionID
  sessionDestinations : Table SessionDestination.key

namespace Db

/-- Nothing was written. -/
def empty : Db := ⟨.empty, .empty, .empty, .empty⟩

/-- The tables with the versions of some rows in place of their own. -/
def overlay (db w : Db) : Db where
  ingests := db.ingests.overlay w.ingests
  destinations := db.destinations.overlay w.destinations
  sessions := db.sessions.overlay w.sessions
  sessionDestinations := db.sessionDestinations.overlay w.sessionDestinations

/-- No row has a version in both. -/
def Apart (db w : Db) : Prop :=
  db.ingests.Apart w.ingests ∧ db.destinations.Apart w.destinations
    ∧ db.sessions.Apart w.sessions
    ∧ db.sessionDestinations.Apart w.sessionDestinations

instance (db w : Db) : Decidable (db.Apart w) :=
  inferInstanceAs (Decidable (_ ∧ _ ∧ _ ∧ _))

end Db

instance : Sessions.Versioned Db where
  empty := Db.empty
  overlay := Db.overlay
  Apart := Db.Apart
  decidableApart _ _ := inferInstance
  overlay_empty db := by simp [Db.overlay, Db.empty]
  empty_overlay db := by simp [Db.overlay, Db.empty]
  overlay_assoc db u w := by simp [Db.overlay, Table.overlay_assoc]
  apart_symm h := ⟨h.1.symm, h.2.1.symm, h.2.2.1.symm, h.2.2.2.symm⟩
  apart_empty _ := ⟨Table.apart_empty _, Table.apart_empty _,
    Table.apart_empty _, Table.apart_empty _⟩
  apart_overlay h h' := ⟨h.1.overlay h'.1, h.2.1.overlay h'.2.1,
    h.2.2.1.overlay h'.2.2.1, h.2.2.2.overlay h'.2.2.2⟩

-- ===================================== locks

/-- What is locked: a row, or a key of a unique index. -/
inductive LockTarget
  | ingest (userID : UserID)
  | streamKeyHash (hash : String)
  | user (userID : UserID)
  | destination (destinationID : DestinationID)
  /-- `restream_session_active_user_idx` -/
  | activeUser (userID : UserID)
  /-- `restream_session_active_publisher_idx` -/
  | activePublisher (nodeID publisherID : String)
  deriving DecidableEq, Repr

/-- A lock; the one that a foreign key takes is shared. -/
structure Lock where
  target : LockTarget
  shared : Bool := false
  deriving DecidableEq, Repr

/-- Only shared locks of one target are held together. -/
def Lock.compatible (held lock : Lock) : Bool :=
  held.target != lock.target || held.shared && lock.shared

/-- What a statement does: its writes and the locks that it takes. -/
abbrev Written := Sessions.Effect Db Lock

/-- Why a call fails. -/
inductive StoreError
  | duplicateKey
  | check
  | missingRow
  | destinationLimit
  | destinationNotFound
  deriving DecidableEq, Repr

/-- What a call writes and returns, or how it fails. -/
abbrev Outcome (α : Type) := Except StoreError (Written × α)

/-- The checks of the table, at each write. -/
def RestreamSession.stored (s : RestreamSession) :
    Except StoreError RestreamSession :=
  if s.Check then .ok s else .error .check

theorem RestreamSession.stored_ok {s s' : RestreamSession}
    (h : s.stored = .ok s') : s' = s ∧ s.Check := by
  unfold RestreamSession.stored at h
  split at h
  case isTrue hcheck =>
    cases h
    exact ⟨rfl, hcheck⟩
  case isFalse => cases h

-- =============================== ingest keys

/-- `hashIngestKey` is the digest of `node:crypto`. -/
def rotateIngestKey (hashIngestKey : String → String) (userID : UserID)
    (key : String) (db : Db) : Outcome String :=
  let streamKeyHash := hashIngestKey key
  if db.ingests.Exists fun i => i.streamKeyHash = streamKeyHash
      ∧ i.userID ≠ userID then .error .duplicateKey
  else .ok
    ({ written :=
        { Db.empty with ingests := .row _ { userID, streamKeyHash } }
       locks := [{ target := .ingest userID },
        { target := .streamKeyHash streamKeyHash }] }, key)

-- ============================== destinations

/-- How many destinations a user may have. -/
def maxRestreamDestinations : Nat := 3

/-- The destinations of a user, `ORDER BY "position"`. -/
def Db.destinationsOf (db : Db) (userID : UserID) :
    List SavedDestination :=
  (db.destinations.rows.filter fun d =>
    d.userID = userID ∧ d.deleted = false).insertionSort
      fun d e => d.position ≤ e.position

/-- Another destination of the user is at the position. -/
def Db.Occupied (db : Db) (d : SavedDestination) : Prop :=
  db.destinations.Exists fun e => e.userID = d.userID
    ∧ e.deleted = false ∧ e.position = d.position
    ∧ e.destinationID ≠ d.destinationID

instance (db : Db) (d : SavedDestination) : Decidable (db.Occupied d) :=
  inferInstanceAs (Decidable (Table.Exists _ _))

/-- RestreamStore.createDestination: the last of the user's destinations,
while there are fewer than three. -/
def createDestination (userID : UserID) (serverURL streamKey : String)
    (destinationID : DestinationID) (db : Db) : Outcome DestinationID :=
  let count := (db.destinationsOf userID).length
  let destination : SavedDestination :=
    { destinationID, userID, serverURL, streamKey, position := count }
  if maxRestreamDestinations ≤ count then .error .destinationLimit
  else if db.destinations.Exists fun d => d.destinationID = destinationID then
    .error .duplicateKey
  else if db.Occupied destination then .error .duplicateKey
  else .ok
    ({ written :=
        { Db.empty with destinations := .row _ destination }
       locks := [{ target := .user userID }] }, destinationID)

/-- The destination of the user with the id. -/
def Db.destinationOf (db : Db) (userID : UserID)
    (destinationID : DestinationID) : Option SavedDestination :=
  db.destinations.find? fun d => d.destinationID = destinationID
    ∧ d.userID = userID ∧ d.deleted = false

/-- RestreamStore.updateDestination: without a key, the stored one stays. -/
def updateDestination (userID : UserID) (destinationID : DestinationID)
    (serverURL : String) (streamKey : Option String) (db : Db) :
    Outcome Unit :=
  match db.destinationOf userID destinationID with
  | none => .error .destinationNotFound
  | some d => .ok
      ({ written :=
          { Db.empty with
            destinations := .row _
              { d with
                serverURL, streamKey := streamKey.getD d.streamKey } } }, ())

/-- RestreamStore.setDestinationEnabled -/
def setDestinationEnabled (userID : UserID) (destinationID : DestinationID)
    (enabled : Bool) (db : Db) : Outcome Unit :=
  match db.destinationOf userID destinationID with
  | none => .error .destinationNotFound
  | some d => .ok
      ({ written :=
          { Db.empty with destinations := .row _ { d with enabled } } }, ())

/-- Move the remaining destinations up, one row at a time from the
lowest. -/
def Db.compact (db : Db) : Nat → List SavedDestination →
    Except StoreError Db
  | _, [] => .ok .empty
  | position, d :: remaining =>
      if d.position = position then db.compact (position + 1) remaining
      else
        let moved := { d with position }
        if db.Occupied moved then .error .duplicateKey
        else
          let written := { Db.empty with destinations := .row _ moved }
          ((db.overlay written).compact (position + 1) remaining).map
            written.overlay

/-- `DELETE FROM restream_destination`, which takes the rows of its
sessions with it. -/
def Db.deleteDestination (db : Db) (d : SavedDestination) : Db :=
  { Db.empty with
    destinations := .row _ { d with deleted := true }
    sessionDestinations :=
      (db.sessionDestinations.select fun e =>
        e.destinationID = d.destinationID).update
          (fun _ => True) (fun e => { e with deleted := true })
          (Table.keeps rfl) }

/-- RestreamStore.deleteDestination: those behind it move up. -/
def deleteDestination (userID : UserID) (destinationID : DestinationID)
    (db : Db) : Outcome Unit :=
  match db.destinationOf userID destinationID with
  | none => .error .destinationNotFound
  | some d =>
      let deleted := db.deleteDestination d
      let db := db.overlay deleted
      match db.compact 0 (db.destinationsOf userID) with
      | .error e => .error e
      | .ok moved => .ok
          ({ written := deleted.overlay moved
             locks := [{ target := .user userID },
              { target := .destination destinationID }] }, ())

-- ================================== sessions

/-- `SET status = 'ended', ended_at = now(), last_heartbeat_at = now()`. -/
def RestreamSession.finish (now : Time) (s : RestreamSession) :
    RestreamSession :=
  { s with
    status := .ended
    endedAt := some (jsDate now)
    lastHeartbeatAt := jsDate now }

/-- `SET status = 'live', live_at = coalesce(live_at, now()), ..`. -/
def RestreamSession.beat (now : Time) (s : RestreamSession) :
    RestreamSession :=
  { s with
    status := .live
    liveAt := some (s.liveAt.getD (jsDate now))
    lastHeartbeatAt := jsDate now }

/-- An UPDATE of session rows by a function that keeps their id. -/
def Db.updateSessions (db : Db) (p : RestreamSession → Prop)
    [DecidablePred p] (f : RestreamSession → RestreamSession)
    (hf : ∀ s, (f s).sessionID = s.sessionID) :
    Except StoreError (Table RestreamSession.sessionID) :=
  db.sessions.modify? p (fun s => (f s).stored) fun s s' h => by
    rw [(RestreamSession.stored_ok h).1, hf]

/-- `WHERE restream_session_id = .. AND node_id = .. AND status <>
'ended'`. -/
def RestreamSession.Is (nodeID : String) (sessionID : SessionID)
    (s : RestreamSession) : Prop :=
  s.sessionID = sessionID ∧ s.nodeID = nodeID ∧ s.active = true

instance (nodeID : String) (sessionID : SessionID) :
    DecidablePred (RestreamSession.Is nodeID sessionID) :=
  fun _ => inferInstanceAs (Decidable (_ ∧ _ ∧ _))

/-- Gives whether there was a session to end. -/
def endSession (nodeID : String) (sessionID : SessionID) (now : Time)
    (db : Db) : Outcome Bool :=
  (db.updateSessions (RestreamSession.Is nodeID sessionID)
    (RestreamSession.finish now) fun _ => rfl).map fun rows =>
      ({ written := { Db.empty with sessions := rows } }, !rows.rows.isEmpty)

-- ======================== authorizePublisher

/-- What RestreamStore.authorizePublisher is called with. -/
structure AuthorizePublisher where
  nodeID : String
  publisherID : String
  path : String
  now : Time
  deriving DecidableEq, Repr

/-- The next statement, with what was read before. -/
inductive AuthorizeStage
  | ingest
  | destinations (userID : UserID)
  | previous (userID : UserID) (destinations : List SavedDestination)
  | session (userID : UserID) (destinations : List SavedDestination)
  | link (userID : UserID) (sessionID : SessionID) (next : SavedDestination)
      (rest destinations : List SavedDestination)
  | done (granted : Option (UserID × Authorization))
  deriving DecidableEq, Repr

/-- The URL that the node forwards to: the key is its fragment. -/
def targetURL (serverURL streamKey : String) : String :=
  serverURL ++ "#" ++ streamKey

/-- What is returned. -/
def authorization (sessionID : SessionID)
    (destinations : List SavedDestination) : Authorization where
  sessionID
  destinations := destinations.map fun d =>
    { id := d.destinationID, targetURL := targetURL d.serverURL d.streamKey }

/-- The loop over the destinations. -/
def linking (userID : UserID) (sessionID : SessionID)
    (destinations : List SavedDestination) :
    List SavedDestination → AuthorizeStage
  | [] => .done (some (userID, authorization sessionID destinations))
  | next :: rest => .link userID sessionID next rest destinations

/-- `INSERT INTO restream_session`, past the checks and the unique
keys. -/
def Db.insertSession (db : Db) (s : RestreamSession) :
    Except StoreError Written :=
  if db.sessions.Exists fun t => t.sessionID = s.sessionID then
    .error .duplicateKey
  else if db.sessions.Exists fun t => t.active = true
      ∧ (t.userID = s.userID
        ∨ t.nodeID = s.nodeID ∧ t.publisherID = s.publisherID) then
    .error .duplicateKey
  else s.stored.map fun s =>
    { written := { Db.empty with sessions := .row _ s }
      locks := [{ target := .activeUser s.userID },
        { target := .activePublisher s.nodeID s.publisherID },
        { target := .user s.userID, shared := true }] }

/-- `INSERT INTO restream_session_destination`. -/
def Db.insertSessionDestination (db : Db) (d : SessionDestination) :
    Except StoreError Written :=
  if db.sessionDestinations.Exists fun e => e.key = d.key then
    .error .duplicateKey
  else if (db.destinationOf d.userID d.destinationID).isNone then
    .error .missingRow
  else .ok
    { written := { Db.empty with sessionDestinations := .row _ d }
      locks := [{ target := .destination d.destinationID
                  shared := true }] }

/-- The session id is drawn by the database. -/
def AuthorizePublisher.statement (hashIngestKey : String → String)
    (c : AuthorizePublisher) : AuthorizeStage →
      Option (Db → SessionID → Outcome AuthorizeStage)
  | .ingest => some fun db _ =>
      match db.ingests.find? fun i =>
          i.streamKeyHash = hashIngestKey c.path with
      | none => .ok ({ written := .empty }, .done none)
      | some i => .ok
          ({ written := .empty
             locks := [{ target := .ingest i.userID }] },
            .destinations i.userID)
  | .destinations userID => some fun db _ =>
      match (db.destinationsOf userID).filter fun d => d.enabled with
      | [] => .ok ({ written := .empty }, .done none)
      | d :: rest => .ok ({ written := .empty }, .previous userID (d :: rest))
  | .previous userID destinations => some fun db _ =>
      (db.updateSessions (fun s => s.userID = userID ∧ s.active = true)
        (RestreamSession.finish c.now) fun _ => rfl).map fun rows =>
          ({ written := { Db.empty with sessions := rows } },
            .session userID destinations)
  | .session userID destinations => some fun db sessionID =>
      (db.insertSession
        { sessionID, userID, nodeID := c.nodeID
          publisherID := c.publisherID, startedAt := jsDate c.now
          lastHeartbeatAt := jsDate c.now }).map fun written =>
            (written, linking userID sessionID destinations destinations)
  | .link userID sessionID next rest destinations => some fun db _ =>
      (db.insertSessionDestination
        { sessionID, destinationID := next.destinationID, userID }).map
          fun written =>
            (written, linking userID sessionID destinations rest)
  | .done _ => none

-- ================================= heartbeat

/-- What RestreamStore.heartbeat is called with. -/
structure Heartbeat where
  nodeID : String
  sessionID : SessionID
  destinations : List DestinationState
  now : Time
  deriving DecidableEq, Repr

/-- The statement that a heartbeat is at. -/
inductive HeartbeatStage
  | session
  | destination (next : DestinationState) (rest : List DestinationState)
  | done (found : Bool)
  deriving DecidableEq, Repr

/-- The loop over the reported states. -/
def reporting : List DestinationState → HeartbeatStage
  | [] => .done true
  | next :: rest => .destination next rest

/-- `SET state = .., outbound_bytes = greatest(outbound_bytes, ..)`. -/
def SessionDestination.report (d : SessionDestination)
    (state : DestinationState) : SessionDestination :=
  { d with
    state := state.state
    outboundBytes := max d.outboundBytes state.outboundBytes }

/-- The session is kept alive, and then each destination is written. -/
def Heartbeat.statement (c : Heartbeat) : HeartbeatStage →
    Option (Db → Outcome HeartbeatStage)
  | .session => some fun db =>
      (db.updateSessions (RestreamSession.Is c.nodeID c.sessionID)
        (RestreamSession.beat c.now) fun _ => rfl).map fun rows =>
          ({ written := { Db.empty with sessions := rows } },
            if rows.rows.isEmpty then .done false
            else reporting c.destinations)
  | .destination next rest => some fun db =>
      let rows := (db.sessionDestinations.select fun d =>
        d.key = (c.sessionID, next.destinationID) ∧ d.deleted = false).update
          (fun _ => True) (fun d => d.report next) (Table.keeps rfl)
      .ok ({ written := { Db.empty with sessionDestinations := rows } },
        reporting rest)
  | .done _ => none

-- =================================== machine

/-- The calls of one statement. -/
inductive Call
  | rotateIngestKey (userID : UserID) (key : String)
  | createDestination (userID : UserID) (serverURL streamKey : String)
      (destinationID : DestinationID)
  | updateDestination (userID : UserID) (destinationID : DestinationID)
      (serverURL : String) (streamKey : Option String)
  | setDestinationEnabled (userID : UserID)
      (destinationID : DestinationID) (enabled : Bool)
  | deleteDestination (userID : UserID) (destinationID : DestinationID)
  | endSession (nodeID : String) (sessionID : SessionID) (now : Time)
  deriving DecidableEq, Repr

/-- What a call writes. -/
def Call.perform (hashIngestKey : String → String) (db : Db) :
    Call → Except StoreError Written
  | .rotateIngestKey userID key =>
      (Plane.rotateIngestKey hashIngestKey userID key db).map Prod.fst
  | .createDestination userID serverURL streamKey destinationID =>
      (Plane.createDestination userID serverURL streamKey destinationID
        db).map Prod.fst
  | .updateDestination userID destinationID serverURL streamKey =>
      (Plane.updateDestination userID destinationID serverURL streamKey
        db).map Prod.fst
  | .setDestinationEnabled userID destinationID enabled =>
      (Plane.setDestinationEnabled userID destinationID enabled db).map
        Prod.fst
  | .deleteDestination userID destinationID =>
      (Plane.deleteDestination userID destinationID db).map Prod.fst
  | .endSession nodeID sessionID now =>
      (Plane.endSession nodeID sessionID now db).map Prod.fst

/-- A transaction of several statements, and how far it is. -/
inductive Txn
  | authorizePublisher (call : AuthorizePublisher) (stage : AuthorizeStage)
  | heartbeat (call : Heartbeat) (stage : HeartbeatStage)
  deriving DecidableEq, Repr

/-- A transaction that has not begun. -/
def Txn.fresh : Txn → Bool
  | .authorizePublisher _ stage => stage = .ingest
  | .heartbeat _ stage => stage = .session

/-- The statement that a transaction is at. -/
def Txn.statement (hashIngestKey : String → String) : Txn →
    Option (Db → SessionID → Except StoreError (Written × Txn))
  | .authorizePublisher call stage =>
      (call.statement hashIngestKey stage).map fun f db sessionID =>
        (f db sessionID).map fun r => (r.1, .authorizePublisher call r.2)
  | .heartbeat call stage =>
      (call.statement stage).map fun f db _ =>
        (f db).map fun r => (r.1, .heartbeat call r.2)

/-- The calls and transactions of the control plane, with their locks. -/
def programs (hashIngestKey : String → String) :
    Sessions.Programs Db Lock Call Txn SessionID StoreError where
  call call db := call.perform hashIngestKey db
  fresh := Txn.fresh
  statement := Txn.statement hashIngestKey
  compatible := Lock.compatible
  compatible_symm held lock := by
    simp only [Lock.compatible, bne_comm, Bool.and_comm]

/-- Sessions of many connections to the database. -/
abbrev World := Sessions.World Db Lock Call Txn
/-- What happens to them. -/
abbrev Action := Sessions.Action Call Txn SessionID

/-- The world after some actions, from empty tables. -/
def World.after (hashIngestKey : String → String) (actions : List Action) :
    World :=
  Run.run (Sessions.step (programs hashIngestKey)) (.init .empty) actions

end StreamBrew.Restream.Plane
