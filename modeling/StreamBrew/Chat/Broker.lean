/-
The event broker as one user sees it: Publish and Stream of nats.go.

# Two stores

An event is appended to the subject of its user, and an event that tells
a state is then put under the key of its source. The subject is a
stream: a subscriber is given what is appended after its subscription.
The bucket of states is read once, when a subscriber starts. The stream
leaves out a message whose identifier it has seen within the duplicate
window; the publisher is not told.

# The component

For each source there is one publisher, which begins its next event when
it has put the last one. A subscriber subscribes, lists the keys, reads
them one by one and then delivers the messages, in order. Each of these
is a step, so a run is any order of them. Events that cannot be decoded
go to the dead letters. Keys of other users do not have the prefix of
this one and are left out, and so is the expiry of keys and messages.
-/
import StreamBrew.Lib.Maps
import StreamBrew.Lib.Run
import StreamBrew.Chat.StreamEvent

namespace StreamBrew.Chat.Broker

open Relational

/-- Where a subscriber stands: `next` is the first message of the
subject that it has yet to be given. -/
inductive Stage
  | idle
  | listing (next : Nat)
  | reading (next : Nat) (keys : List String)
  | delivering (next : Nat)
  deriving DecidableEq, Repr

/-- What the broker keeps for one user. -/
structure System where
  subject : List StreamEvent := []
  /-- the identifiers within the duplicate window -/
  seen : List String := []
  /-- the bucket of states -/
  states : Table StreamEvent.sourceID := .empty
  /-- state events that a publisher is about to put -/
  putting : Table StreamEvent.sourceID := .empty
  stage : Stage := .idle
  output : List StreamEvent := []
  /-- the events whose Publish has begun -/
  published : List StreamEvent := []

/-- The steps of publishers, of the broker itself and of a subscriber. -/
inductive Action
  | publish (event : StreamEvent) (idempotencyKey : String)
  | put (sourceID : String)
  /-- an identifier leaves the duplicate window -/
  | forget (idempotencyKey : String)
  | subscribe
  | list
  | read
  | deliver
  deriving DecidableEq, Repr

namespace System

/-- The publish of a message to the subject. -/
def append (event : StreamEvent) (idempotencyKey : String) (s : System) :
    System :=
  if idempotencyKey ∈ s.seen then s
  else { s with
    subject := s.subject ++ [event]
    seen := idempotencyKey :: s.seen }

/-- The first half of a Publish. A publisher is busy until its last
state is put. -/
def publish (event : StreamEvent) (idempotencyKey : String) (s : System) :
    System :=
  match event.stateEvent with
  | none =>
      { s.append event idempotencyKey with
        published := s.published ++ [event] }
  | some state =>
      if (s.putting.get? state.sourceID).isSome then s
      else
        { s.append event idempotencyKey with
          putting := s.putting.put state
          published := s.published ++ [event] }

/-- The second half. -/
def put (sourceID : String) (s : System) : System :=
  match s.putting.get? sourceID with
  | none => s
  | some state =>
      { s with
        states := s.states.put state
        putting := s.putting.erase sourceID }

/-- An event that can be decoded goes to the subscriber. -/
def emit (event : StreamEvent) (s : System) : System :=
  if event.valid then { s with output := s.output ++ [event] } else s

/-- A step of the component; a step that is not due does nothing. -/
def step (s : System) : Action → System
  | .publish event idempotencyKey => s.publish event idempotencyKey
  | .put sourceID => s.put sourceID
  | .forget idempotencyKey =>
      { s with seen := s.seen.filter (· ≠ idempotencyKey) }
  | .subscribe =>
      match s.stage with
      | .idle => { s with stage := .listing s.subject.length }
      | _ => s
  | .list =>
      match s.stage with
      | .listing next =>
          -- the watcher of a bucket gives the keys in the order of their
          -- last puts
          let keys := (s.states.rows.map StreamEvent.sourceID).reverse
          { s with stage := .reading next keys }
      | _ => s
  | .read =>
      match s.stage with
      | .reading next (key :: keys) =>
          let rest := { s with stage := .reading next keys }
          match s.states.get? key with
          | some state => rest.emit state
          | none => rest
      | .reading next [] => { s with stage := .delivering next }
      | _ => s
  | .deliver =>
      match s.stage with
      | .delivering next =>
          match s.subject[next]? with
          | some event =>
              { s with stage := .delivering (next + 1) }.emit event
          | none => s
      | _ => s

/-- The publisher of a source has finished, and the subscriber has
delivered all that it was given. -/
def Done (sourceID : String) (s : System) : Prop :=
  s.putting.get? sourceID = none ∧ s.stage = .delivering s.subject.length

instance (sourceID : String) (s : System) : Decidable (s.Done sourceID) :=
  inferInstanceAs (Decidable (_ ∧ _))

end System

end StreamBrew.Chat.Broker
