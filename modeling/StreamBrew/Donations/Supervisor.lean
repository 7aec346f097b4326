/-
The supervisor of the listeners of one integration, application.go.

# Goroutines

The supervisor is handed the completions of its listeners and refreshes
them now and then; it does one thing at a time. A listener is a
goroutine of its own. A refresh reads the connections once and then
looks at its listeners one after another, while they go on: so the read,
each look and the starts are steps.

# The shared version

A listener that refreshes its tokens publishes the next version before
it saves them. Publishing and saving are two steps here; everything else
a listener does is as in the model of `listen`.
-/
import StreamBrew.Lib.Supervisor
import StreamBrew.Donations.Application

namespace StreamBrew.Donations

open Supervisor
open Alert (UserID Time)

/-- The supervisor's view of one listener. Its number stands for the
cancel function and for the pointer to the shared version. -/
structure RunningListener where
  listenerID : Nat
  sourceUserID : String
  connectedAt : Time
  deriving DecidableEq, Repr

/-- The goroutine of a listener: the connection it was started for, its
run of `listen`, the shared version, fresh tokens it has still to save,
and what became of it. -/
structure ListenerTask where
  connection : Connection
  listener : Listener
  tokenVersion : Nat
  unsaved : Option Tokens := none
  cancelled : Bool := false
  returned : Bool := false
  completed : Bool := false
  deriving DecidableEq, Repr

/-- A refresh under way: what `Connections` returned, and the users in
`running` whose listeners are still to be looked at. -/
structure Refresh where
  snapshot : List Connection
  unchecked : List UserID
  deriving DecidableEq, Repr

/-- One provider's integration: its database, its listeners, and a refresh
that is under way. -/
structure Integration where
  provider : Provider
  db : Db
  supervisor : Roster UserID RunningListener ListenerTask
  refreshing : Option Refresh

/-- Nothing is connected. -/
def Integration.init (provider : Provider) : Integration where
  provider
  db := .init
  supervisor := .empty
  refreshing := none

-- ================================= listeners

/-- How a save of tokens may end: the answer comes, or it is lost after
the save or together with it. -/
inductive SaveOutcome
  | answered
  | unanswered
  | lost
  deriving DecidableEq, Repr

namespace ListenerTask

/-- `listen` went on, or returned. -/
def goOn (task : ListenerTask) : Option Listener → ListenerTask
  | some listener => { task with listener }
  | none => { task with returned := true }

/-- A step of `listen` between two refreshes of the tokens. -/
def perform (f : Listener → Db → Option Listener × Db)
    (task : ListenerTask) (db : Db) : ListenerTask × Db :=
  if task.unsaved = none then
    let (next, db) := task.listener.whileRunning f db
    (task.goOn next, db)
  else (task, db)

/-- Whether an error of the provider's run makes the listener refresh
its tokens. -/
def refreshes (task : ListenerTask) (failure : Failure) : Bool :=
  failure.unauthorized ∧ ¬(task.listener.refreshedBeforeAuthorization
    ∧ failure.hadAuthorizedSession = some false)

/-- `tokenVersion.Store(int64(nextVersion))`. -/
def publish (task : ListenerTask) (tokens : Tokens) : ListenerTask :=
  { task with
    tokenVersion := task.listener.connection.tokenVersion + 1
    unsaved := some tokens }

/-- The provider's run returned an error. -/
def fail (task : ListenerTask) (failure : Failure)
    (refresh : Except Failure Tokens) (db : Db) : ListenerTask × Db :=
  match refresh with
  | .ok tokens =>
      if task.refreshes failure ∧ task.unsaved = none
          ∧ task.listener.unrecorded = none then (task.publish tokens, db)
      else task.perform (fun l db => l.fail failure refresh db) db
  | .error _ => task.perform (fun l db => l.fail failure refresh db) db

/-- `SetTokensIfVersion` with the fresh tokens. Every failed save ends
the listener. -/
def save (task : ListenerTask) (outcome : SaveOutcome) (db : Db) :
    ListenerTask × Db :=
  match task.unsaved with
  | none => (task, db)
  | some tokens =>
      let ended := { task with unsaved := none, returned := true }
      let stored := setTokensIfVersion task.listener.provider
        task.listener.connection.version tokens db
      match outcome with
      | .lost => (ended, db)
      | .unanswered => (ended, stored.2)
      | .answered => match stored with
          | (.ok true, db') => ({ task with
              unsaved := none
              listener := task.listener.refreshed tokens }, db')
          | (_, db') => (ended, db')

/-- The provider's run ended without an error, or the context did. -/
def finish (task : ListenerTask) (db : Db) : ListenerTask × Db :=
  if task.unsaved = none then ({ task with returned := true }, db)
  else (task, db)

end ListenerTask

namespace Integration

/-- A listener takes a step, unless it has returned. -/
def listen (s : Integration) (listenerID : Nat)
    (f : ListenerTask → Db → ListenerTask × Db) : Integration :=
  match s.supervisor.workers listenerID with
  | none => s
  | some task =>
      if task.returned then s else
        { s with
          db := (f task s.db).2
          supervisor := s.supervisor.mark fun id t =>
            if id = listenerID then (f task s.db).1 else t }

-- =================================== refresh

/-- The users in `running`. -/
def users (s : Integration) : List UserID :=
  (List.range s.supervisor.started).filterMap fun id =>
    (s.supervisor.workers id).bind fun task =>
      if (s.supervisor.running task.connection.userID).map (·.listenerID)
          = some id then some task.connection.userID else none

/-- `byUserID`, where the last connection of a user wins. -/
def byUserID (connections : List Connection) (userID : UserID) :
    Option Connection :=
  connections.reverse.find? (·.userID = userID)

/-- `listener.tokenVersion.Load()`. -/
def load (s : Integration) (listener : RunningListener) : Nat :=
  match s.supervisor.workers listener.listenerID with
  | some task => task.tokenVersion
  | none => 0

/-- `replacedBy`, with the version that was loaded. -/
def ReplacedBy (listener : RunningListener) (tokenVersion : Nat)
    (connection : Connection) : Prop :=
  connection.sourceUserID ≠ listener.sourceUserID
    ∨ connection.connectedAt ≠ listener.connectedAt
    ∨ connection.tokenVersion > tokenVersion

instance (listener : RunningListener) (tokenVersion : Nat)
    (connection : Connection) :
    Decidable (ReplacedBy listener tokenVersion connection) :=
  inferInstanceAs (Decidable (_ ∨ _))

/-- The listener of a user, if there is one, does not serve the
connection of a snapshot. -/
def Replaced (s : Integration) (connections : List Connection)
    (userID : UserID) : Prop :=
  ∃ listener ∈ s.supervisor.running userID,
    ∀ connection ∈ byUserID connections userID,
      ReplacedBy listener (s.load listener) connection

instance (s : Integration) (connections : List Connection) :
    DecidablePred (s.Replaced connections) := fun userID =>
  match h : s.supervisor.running userID with
  | none => isFalse fun ⟨listener, hl, _⟩ => by rw [h] at hl; cases hl
  | some listener => decidable_of_iff
      (∀ connection ∈ byUserID connections userID,
        ReplacedBy listener (s.load listener) connection)
      ⟨fun hc => ⟨listener, h, hc⟩, fun ⟨l, hl, hc⟩ => by
        rw [h] at hl; cases hl; exact hc⟩

/-- A refresh begins with the connections as they are. -/
def read (s : Integration) : Integration :=
  if s.refreshing = none then { s with
    refreshing := some
      { snapshot := connections s.provider s.db, unchecked := s.users } }
  else s

/-- One turn of the first loop of `refreshListeners`. -/
def check (s : Integration) (userID : UserID) : Integration :=
  match s.refreshing with
  | none => s
  | some refresh =>
      if userID ∈ refresh.unchecked then
        { s with
          refreshing := some { refresh with
            unchecked := refresh.unchecked.filter (· ≠ userID) }
          supervisor := (s.supervisor.drop fun u =>
            u = userID ∧ s.Replaced refresh.snapshot u).mark
              fun listenerID task =>
                if (task.connection.userID = userID
                    ∧ s.Replaced refresh.snapshot task.connection.userID)
                    ∧ (s.supervisor.running task.connection.userID).map
                      (·.listenerID) = some listenerID then
                  { task with cancelled := true } else task }
      else s

/-- One turn of the second loop of `refreshListeners`. -/
def startListener (provider : Provider)
    (supervisor : Roster UserID RunningListener ListenerTask)
    (connection : Connection) :
    Roster UserID RunningListener ListenerTask :=
  match supervisor.running connection.userID with
  | some _ => supervisor
  | none => supervisor.start connection.userID
      (fun listenerID =>
        { listenerID, sourceUserID := connection.sourceUserID
          connectedAt := connection.connectedAt })
      { connection
        listener :=
          { listenerID := supervisor.started, provider, connection }
        tokenVersion := connection.tokenVersion }

/-- The second loop, when the first is through. -/
def startListeners (s : Integration) : Integration :=
  match s.refreshing with
  | some { snapshot, unchecked := [] } =>
      { s with
        refreshing := none
        supervisor := snapshot.foldl (startListener s.provider)
          s.supervisor }
  | _ => s

/-- The completion of a listener is received; its entry is deleted when
it has the same shared version. -/
def complete (s : Integration) (listenerID : Nat) : Integration :=
  match s.supervisor.workers listenerID with
  | none => s
  | some task =>
      if s.refreshing = none ∧ task.returned ∧ ¬task.completed then
        { s with
          supervisor := (s.supervisor.drop fun userID =>
            userID = task.connection.userID
              ∧ (s.supervisor.running userID).map (·.listenerID)
                = some listenerID).mark fun id t =>
                  if id = listenerID then { t with completed := true }
                  else t }
      else s

end Integration

-- =================================== machine

/-- The steps of the loop, of listeners and of owners. -/
inductive SupervisorAction
  | read
  | check (userID : UserID)
  | startListeners
  | complete (listenerID : Nat)
  | emit (listenerID : Nat) (batch : DonationBatch) (acceptedAt : Time)
      (draws : List DonationDraw)
  | fail (listenerID : Nat) (failure : Failure)
      (refresh : Except Failure Tokens)
  | record (listenerID : Nat)
  | save (listenerID : Nat) (outcome : SaveOutcome)
  | finish (listenerID : Nat)
  /-- A store call by anyone else. -/
  | store (call : Call)

namespace Integration

/-- One step of the integration. -/
def step (s : Integration) : SupervisorAction → Integration
  | .read => s.read
  | .check userID => s.check userID
  | .startListeners => s.startListeners
  | .complete listenerID => s.complete listenerID
  | .emit listenerID batch acceptedAt draws =>
      s.listen listenerID (ListenerTask.perform fun l db =>
        l.emit batch acceptedAt draws db)
  | .fail listenerID failure refresh =>
      s.listen listenerID fun task db => task.fail failure refresh db
  | .record listenerID => s.listen listenerID fun task db =>
      if task.unsaved = none then
        (task.goOn (task.listener.record db).1, (task.listener.record db).2)
      else (task, db)
  | .save listenerID outcome =>
      s.listen listenerID fun task db => task.save outcome db
  | .finish listenerID => s.listen listenerID ListenerTask.finish
  | .store call => { s with db := Donations.perform s.db call }

/-- The integration after a run. -/
def run (provider : Provider) (acts : List SupervisorAction) :
    Integration :=
  Run.run step (.init provider) acts

-- ============================ what it is for

/-- A listener that runs and was not cancelled. -/
def Uncancelled (s : Integration) (listenerID : Nat) (userID : UserID) :
    Prop :=
  ∃ task ∈ s.supervisor.workers listenerID,
    task.connection.userID = userID ∧ task.cancelled = false
      ∧ task.returned = false

/-- No user has two listeners that were not cancelled. -/
def AtMostOne (s : Integration) : Prop :=
  ∀ userID id id', s.Uncancelled id userID → s.Uncancelled id' userID →
    id = id'

/-- The account, connect time, version and tokens of two connections are
the same. -/
def SameGeneration (c c' : Connection) : Prop :=
  c.version = c'.version ∧ c.accessToken = c'.accessToken
    ∧ c.refreshToken = c'.refreshToken

instance (c c' : Connection) : Decidable (SameGeneration c c') :=
  inferInstanceAs (Decidable (_ ∧ _))

/-- The task has read or saved the connection, or is saving it. -/
def Wrote (task : ListenerTask) (c : Connection) : Prop :=
  SameGeneration c task.listener.connection
    ∨ ∃ tokens ∈ task.unsaved,
      SameGeneration c (task.listener.refreshed tokens).connection

instance (task : ListenerTask) (c : Connection) :
    Decidable (Wrote task c) :=
  inferInstanceAs (Decidable (_ ∨ _))

/-- At some moment of the run the listener has read or saved the
connection, or was saving it. -/
def Own (provider : Provider) (acts : List SupervisorAction)
    (listenerID : Nat) (c : Connection) : Prop :=
  ∃ before ∈ acts.inits,
    ∃ task ∈ (run provider before).supervisor.workers listenerID,
      Wrote task c

instance (provider : Provider) (acts : List SupervisorAction)
    (listenerID : Nat) (c : Connection) :
    Decidable (Own provider acts listenerID c) :=
  inferInstanceAs (Decidable (∃ before ∈ acts.inits, _))

/-- The listener has published a version that it did not save, and as
long as this connection is the stored one, its save changes nothing and
ends it. -/
def Overtaken (provider : Provider) (task : ListenerTask)
    (c : Connection) : Prop :=
  c.tokenVersion = task.tokenVersion
    ∧ (task.returned = true ∨ task.unsaved.isSome = true
      ∧ ∀ outcome db, readConnection provider c.userID db = some c →
        task.save outcome db
          = ({ task with unsaved := none, returned := true }, db))

/-- When a refresh has looked at all listeners, those that run uncancelled
serve a connection that they have read or saved. -/
def CancelsReplaced (provider : Provider)
    (acts : List SupervisorAction) : Prop :=
  ∀ refresh ∈ (run provider acts).refreshing, refresh.unchecked = [] →
    ∀ listenerID userID, (run provider acts).Uncancelled listenerID userID →
      ∃ c ∈ byUserID refresh.snapshot userID,
        Own provider acts listenerID c

end Integration

end StreamBrew.Donations
