/-
The media server of a restream node, as far as its controller sees it:
publishers that connect to a path and leave it (mediamtx.yml).

Every publish attempt is one call of authorize, and its answer lets the
publisher in or not. A publisher that is let in makes the path available
unless another one has it (`overridePublisher: no`), and only then is
the online hook called; the offline hook is called when that publisher
leaves. A publisher that leaves before calls no hook.
-/
import StreamBrew.Restream.Controller

namespace StreamBrew.Restream

open Relational

/-- How far a publisher has come. -/
inductive PublisherStage
  /-- waits for the answer of authorize -/
  | connecting
  /-- is let in -/
  | admitted
  /-- has made the path available -/
  | available
  deriving DecidableEq, Repr

/-- A connection; its id is that of its authorization request. -/
structure Publisher where
  id : Nat
  path : String
  stage : PublisherStage := .connecting
  deriving DecidableEq, Repr

/-- The controller and the publishers of its MediaMTX. -/
structure Node where
  controller : Controller := {}
  publishers : Table Publisher.id := .empty

/-- What publishers do, and what the controller goes on with. -/
inductive NodeAction
  | attempt (request : AuthRequest)
  /-- the answer of authorize arrives -/
  | answered (publisher : Nat)
  | ready (publisher : Nat)
  | leave (publisher : Nat)
  | proceed (handler : Nat) (reply : Reply)
  | beat (loop : Nat) (beat : Beat)
  | done (loop : Nat)
  deriving DecidableEq, Repr

namespace Node

variable (n : Node)

/-- A step of the controller. -/
def control (action : Action) : Node :=
  { n with controller := n.controller.step action }

/-- A publisher connects, and MediaMTX asks the controller. -/
def attempt (request : AuthRequest) : Node :=
  { n.control (.authorize request) with
    publishers := n.publishers.put
      { id := n.controller.requests, path := request.path } }

/-- A publisher whose request is answered is let in, or disconnected. -/
def answered (p : Publisher) : Node :=
  if p.stage = .connecting ∧ (n.controller.handlers.get? p.id).isNone then
    if .responded p.id 204 ∈ n.controller.log then
      { n with publishers := n.publishers.put { p with stage := .admitted } }
    else { n with publishers := n.publishers.erase p.id }
  else n

/-- The path has an available publisher. -/
def available (path : String) : Bool :=
  n.publishers.rows.any fun p => p.path = path ∧ p.stage = .available

/-- The stream of an admitted publisher makes the path available. -/
def ready (p : Publisher) : Node :=
  if p.stage = .admitted ∧ n.available p.path = false then
    { n.control (.online p.path) with
      publishers := n.publishers.put { p with stage := .available } }
  else n

/-- A publisher disconnects; the hook runs where it was available. -/
def leave (p : Publisher) : Node :=
  let n := { n with publishers := n.publishers.erase p.id }
  if p.stage = .available then n.control (.offline p.path) else n

/-- What a publisher does, if it is there. -/
def publisher (id : Nat) (f : Publisher → Node) : Node :=
  match n.publishers.get? id with
  | none => n
  | some p => f p

/-- One step of the node. -/
def step : NodeAction → Node
  | .attempt request => n.attempt request
  | .answered id => n.publisher id n.answered
  | .ready id => n.publisher id n.ready
  | .leave id => n.publisher id n.leave
  | .proceed id reply => n.control (.proceed id reply)
  | .beat id beat => n.control (.beat id beat)
  | .done id => n.control (.done id)

/-- The node after some actions, from its start. -/
def after (actions : List NodeAction) : Node := Run.run Node.step {} actions

-- ================================== attended

/-- The publisher's session is stored. -/
def letIn (p : Publisher) : Bool :=
  .responded p.id 204 ∈ n.controller.log
    || (n.controller.handlers.get? p.id).any fun h =>
      h.stage = .unpend 204

/-- Somebody will see to the removal of the path's session: a publisher
that is let in or available, or a call of offline that has yet to look
for the session. -/
def attended (path : String) : Bool :=
  n.publishers.rows.any (fun p =>
      p.path = path && (p.stage = .available || n.letIn p))
    || n.controller.handlers.rows.any fun h =>
      h.path = path && h.stage = .remove

/-- A publisher whose session is stored stays until the path is
available to it, and is there when its session is stored; unless
somebody else sees to the session, or there is none. -/
def stays : NodeAction → Bool
  | .leave id => (n.publishers.get? id).all fun p =>
      p.stage = .available || !n.letIn p
        || (n.controller.sessions.get? p.path).isNone
        || { n with publishers := n.publishers.erase id }.attended p.path
  | .proceed id _ => (n.controller.handlers.get? id).all fun h =>
      match h.stage with
      | .store _ => (n.publishers.get? id).isSome || n.attended h.path
      | _ => true
  | _ => true

end Node

end StreamBrew.Restream
