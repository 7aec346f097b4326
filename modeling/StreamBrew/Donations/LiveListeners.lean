/-
The supervisor of the live-only listeners, live_listeners.go.

One goroutine keeps a listener for each saved credential: it is handed
snapshots of the credentials and the completions of listeners, in any
order. A listener is a goroutine of its own; it may return at any
moment, cancelled or not, and its completion may be received at any
later one.
-/
import StreamBrew.Lib.Run
import StreamBrew.Lib.Supervisor
import StreamBrew.Alert.Domain

namespace StreamBrew.Donations

open Supervisor
open Alert (UserID)

/-- What is listened to, and with which credential. -/
structure LiveListenerConnection where
  userID : UserID
  credential : String
  deriving DecidableEq, Repr

/-- An entry of `running`. The number stands for the cancel function. -/
structure RunningLiveListener where
  listenerID : Nat
  credential : String
  deriving DecidableEq, Repr

/-- A goroutine that was started for a connection: whether its context
is cancelled, whether `listen` has returned, and whether its completion
was received. -/
structure LiveListener extends LiveListenerConnection where
  cancelled : Bool := false
  returned : Bool := false
  completed : Bool := false
  deriving DecidableEq, Repr

/-- The supervisor: `running` and all listeners it has started. -/
abbrev LiveListenerSupervisor :=
  Roster UserID RunningLiveListener LiveListener

/-- `byUserID`, where the last connection of a user wins. -/
def liveByUserID (connections : List LiveListenerConnection)
    (userID : UserID) : Option LiveListenerConnection :=
  connections.reverse.find? (·.userID = userID)

namespace LiveListenerSupervisor

/-- The entry of a user does not serve the connection of a snapshot. -/
def Replaced (s : LiveListenerSupervisor)
    (connections : List LiveListenerConnection) (userID : UserID) : Prop :=
  ∃ listener ∈ s.running userID,
    ∀ connection ∈ liveByUserID connections userID,
      connection.credential ≠ listener.credential

instance (s : LiveListenerSupervisor)
    (connections : List LiveListenerConnection) :
    DecidablePred (Replaced s connections) := fun userID =>
  match h : s.running userID with
  | none => isFalse fun ⟨listener, hl, _⟩ => by rw [h] at hl; cases hl
  | some listener => decidable_of_iff
      (∀ connection ∈ liveByUserID connections userID,
        connection.credential ≠ listener.credential)
      ⟨fun hc => ⟨listener, h, hc⟩, fun ⟨l, hl, hc⟩ => by
        rw [h] at hl; cases hl; exact hc⟩

/-- The first loop of `refresh`: cancel what is replaced. -/
def cancelReplaced (s : LiveListenerSupervisor)
    (connections : List LiveListenerConnection) : LiveListenerSupervisor :=
  (s.drop (Replaced s connections)).mark fun listenerID l =>
    if Replaced s connections l.userID
        ∧ (s.running l.userID).map (·.listenerID) = some listenerID then
      { l with cancelled := true } else l

/-- One turn of the second loop of `refresh`. -/
def startListener (s : LiveListenerSupervisor)
    (connection : LiveListenerConnection) : LiveListenerSupervisor :=
  match s.running connection.userID with
  | some _ => s
  | none => s.start connection.userID
      (fun listenerID =>
        { listenerID, credential := connection.credential })
      { connection with }

/-- `refresh` with what the snapshot returned; an error changes
nothing. -/
def refresh (s : LiveListenerSupervisor) :
    Option (List LiveListenerConnection) → LiveListenerSupervisor
  | none => s
  | some connections =>
      connections.foldl startListener (cancelReplaced s connections)

end LiveListenerSupervisor

/-- What the supervisor's loop receives, and listeners that return. -/
inductive LiveListenerAction
  | refresh (connections : Option (List LiveListenerConnection))
  /-- `listen` returns. -/
  | finish (listenerID : Nat)
  /-- The completion of a listener is received. -/
  | complete (listenerID : Nat)
  deriving DecidableEq, Repr

namespace LiveListenerSupervisor

/-- The completion that a listener which returned wants to send. -/
def completion (s : LiveListenerSupervisor) (listenerID : Nat) :
    Option LiveListenerConnection :=
  (s.workers listenerID).bind fun l =>
    if l.returned ∧ ¬l.completed then some l.toLiveListenerConnection
    else none

/-- The entry of the user is deleted when it has the credential of the
completion. -/
def complete (s : LiveListenerSupervisor) (listenerID : Nat) :
    LiveListenerSupervisor :=
  match completion s listenerID with
  | none => s
  | some completion =>
      (s.drop fun userID => userID = completion.userID
        ∧ (s.running userID).map (·.credential)
          = some completion.credential).mark fun id l =>
            if id = listenerID then { l with completed := true } else l

/-- One step of the loop, or a return. -/
def step (s : LiveListenerSupervisor) :
    LiveListenerAction → LiveListenerSupervisor
  | .refresh connections => refresh s connections
  | .finish listenerID => s.mark fun id l =>
      if id = listenerID then { l with returned := true } else l
  | .complete listenerID => complete s listenerID

/-- The supervisor after a run. -/
def run (acts : List LiveListenerAction) : LiveListenerSupervisor :=
  Run.run step .empty acts

-- ============================ what it is for

/-- A listener that runs and was not cancelled. -/
def Uncancelled (s : LiveListenerSupervisor) (listenerID : Nat)
    (userID : UserID) : Prop :=
  ∃ l ∈ s.workers listenerID,
    l.userID = userID ∧ l.cancelled = false ∧ l.returned = false

/-- No user has two listeners that were not cancelled. -/
def AtMostOne (s : LiveListenerSupervisor) : Prop :=
  ∀ userID id id', Uncancelled s id userID → Uncancelled s id' userID →
    id = id'

/-- A completion deletes no entry of another listener. -/
def KeepsNewer (s : LiveListenerSupervisor) (a : LiveListenerAction) :
    Prop :=
  ∀ listenerID, a = .complete listenerID → ∀ userID,
    ∀ listener ∈ s.running userID, listener.listenerID ≠ listenerID →
      (step s a).running userID = some listener

end LiveListenerSupervisor

end StreamBrew.Donations
