/-
The integrations of application.go: listeners and history workers that
use saved connections while others replace them.

# Tasks

A listener is one run of `listen`, a history job one connection waiting
for `syncConnectionHistory`. Both start from a copy of a connection that
was read at some moment; a listener moves its copy on when it has
refreshed the tokens itself. What a provider answers (a batch, an error,
fresh tokens) is part of the action, and so is the order in which tasks
go on: a task may be slow, cancelled and still running, or one of many
for the same connection.

# Steps

A step is what a task does between two store calls, with the call at
its end. Reading a connection, starting a task and stopping it are steps
of their own. Every other store call, by whomever, is `store`.
-/
import StreamBrew.Donations.System

namespace StreamBrew.Donations

open Relational
open Alert (UserID Time)

/-- What an adapter tells about an error of its provider;
`hadAuthorizedSession` is there where the error tells it. -/
structure Failure where
  unauthorized : Bool
  permanent : Bool
  hadAuthorizedSession : Option Bool := none
  deriving DecidableEq, Repr

/-- A run of `listen`: its saved connection, as far as it knows, and a
refresh failure it has still to record. -/
structure Listener where
  listenerID : Nat
  provider : Provider
  connection : Connection
  refreshedBeforeAuthorization : Bool := false
  unrecorded : Option Failure := none
  deriving DecidableEq, Repr

/-- A connection whose history is to be fetched. -/
structure HistoryJob where
  jobID : Nat
  provider : Provider
  connection : Connection
  deriving DecidableEq, Repr

-- ================================= listeners

/-- A permanent failure is recorded with the connection. -/
def recordPermanentConnectionError (provider : Provider)
    (version : ConnectionVersion) (failure : Failure) (db : Db) : Db :=
  if failure.permanent then
    (markConnectionErrorIfVersion provider version db).2
  else db

/-- The callback of the provider's run. An error is the run's to
return. -/
def Listener.emit (listener : Listener) (batch : DonationBatch)
    (acceptedAt : Time) (draws : List DonationDraw) (db : Db) :
    Option Listener × Db :=
  match saveDonations listener.provider listener.connection.version batch
      .live acceptedAt draws db with
  | (.ok (), db') => (some { listener with
      connection := { listener.connection with
        historyCheckpoint := batch.checkpoint } }, db')
  | (.error _, db') => (some listener, db')

/-- The listener after it has stored refreshed tokens. -/
def Listener.refreshed (listener : Listener) (tokens : Tokens) :
    Listener :=
  { listener with
    connection := { listener.connection with
      accessToken := tokens.accessToken
      refreshToken := tokens.refreshToken
      tokenVersion := listener.connection.tokenVersion + 1 }
    refreshedBeforeAuthorization := true }

/-- The provider's run returned an error; `refresh` is what refreshing
the tokens gives, where it comes to that. -/
def Listener.fail (listener : Listener) (failure : Failure)
    (refresh : Except Failure Tokens) (db : Db) : Option Listener × Db :=
  let provider := listener.provider
  let version := listener.connection.version
  if !failure.unauthorized then
    (none, recordPermanentConnectionError provider version failure db)
  else if listener.refreshedBeforeAuthorization
      ∧ failure.hadAuthorizedSession = some false then
    (none, (requireReauthorizationIfVersion provider version db).2)
  else match refresh with
    | .error refreshFailure =>
        if refreshFailure.unauthorized then
          match requireReauthorizationIfVersion provider version db with
          | (.ok true, db') => (some { listener with
              unrecorded := some refreshFailure }, db')
          | (_, db') => (none, db')
        else (none, recordPermanentConnectionError provider version
          refreshFailure db)
    | .ok tokens =>
        match setTokensIfVersion provider version tokens db with
        | (.ok true, db') => (some (listener.refreshed tokens), db')
        | (_, db') => (none, db')

/-- The last call of a listener whose refresh was refused. -/
def Listener.record (listener : Listener) (db : Db) :
    Option Listener × Db :=
  match listener.unrecorded with
  | none => (some listener, db)
  | some failure => (none, recordPermanentConnectionError
      listener.provider listener.connection.version failure db)

/-- A listener with a failure to record does nothing else. -/
def Listener.whileRunning (f : Listener → Db → Option Listener × Db)
    (listener : Listener) (db : Db) : Option Listener × Db :=
  if listener.unrecorded = none then f listener db
  else (some listener, db)

-- =================================== history

/-- The history was fetched, or could not be. -/
def syncConnectionHistory (job : HistoryJob)
    (fetched : Except Failure DonationBatch) (acceptedAt : Time)
    (draws : List DonationDraw) (db : Db) : Db :=
  match fetched with
  | .error failure => recordPermanentConnectionError job.provider
      job.connection.version failure db
  | .ok batch => (saveDonations job.provider job.connection.version batch
      .recovery acceptedAt draws db).2

-- ==================================== system

/-- The database, the listeners that run, and the queued history jobs. -/
structure State where
  db : Db
  listeners : Table Listener.listenerID
  jobs : Table HistoryJob.jobID

/-- Nothing is connected. -/
def State.init : State where
  db := .init
  listeners := .empty
  jobs := .empty

/-- The store calls of owners, listeners and jobs. -/
inductive Action
  | startListener (listenerID : Nat) (provider : Provider)
      (userID : UserID)
  | emit (listenerID : Nat) (batch : DonationBatch) (acceptedAt : Time)
      (draws : List DonationDraw)
  | fail (listenerID : Nat) (failure : Failure)
      (refresh : Except Failure Tokens)
  | record (listenerID : Nat)
  | stopListener (listenerID : Nat)
  | startHistory (jobID : Nat) (provider : Provider) (userID : UserID)
  | syncHistory (jobID : Nat) (fetched : Except Failure DonationBatch)
      (acceptedAt : Time) (draws : List DonationDraw)
  | stopHistory (jobID : Nat)
  | store (call : Call)

/-- The connection of a user, as `Connections` lists it. -/
def readConnection (provider : Provider) (userID : UserID) (db : Db) :
    Option Connection :=
  (connections provider db).find? fun c => c.userID = userID

/-- A listener goes on: the rest of its state after a step. -/
def State.goOn (s : State) (listenerID : Nat)
    (f : Listener → Db → Option Listener × Db) : State :=
  match s.listeners.get? listenerID with
  | none => s
  | some listener =>
      match f listener s.db with
      | (none, db) => { s with
          db, listeners := s.listeners.delete (·.listenerID = listenerID) }
      | (some next, db) => { s with
          db
          listeners := s.listeners.update (·.listenerID = listenerID)
            (fun l => { next with listenerID := l.listenerID })
            (Table.keeps rfl) }

/-- One step of a task, or of the store. -/
def step (s : State) : Action → State
  | .startListener listenerID provider userID =>
      match readConnection provider userID s.db with
      | none => s
      | some connection => { s with
          listeners := s.listeners.insertOrIgnore
            { listenerID, provider, connection } }
  | .emit listenerID batch acceptedAt draws =>
      s.goOn listenerID (Listener.whileRunning fun l db =>
        l.emit batch acceptedAt draws db)
  | .fail listenerID failure refresh =>
      s.goOn listenerID (Listener.whileRunning fun l db =>
        l.fail failure refresh db)
  | .record listenerID => s.goOn listenerID Listener.record
  | .stopListener listenerID => { s with
      listeners := s.listeners.delete (·.listenerID = listenerID) }
  | .startHistory jobID provider userID =>
      match readConnection provider userID s.db with
      | none => s
      | some connection => { s with
          jobs := s.jobs.insertOrIgnore { jobID, provider, connection } }
  | .syncHistory jobID fetched acceptedAt draws =>
      match s.jobs.get? jobID with
      | none => s
      | some job => { s with
          db := syncConnectionHistory job fetched acceptedAt draws s.db
          jobs := s.jobs.delete (·.jobID = jobID) }
  | .stopHistory jobID => { s with
      jobs := s.jobs.delete (·.jobID = jobID) }
  | .store call => { s with db := perform s.db call }

end StreamBrew.Donations
