/-
The restream controller: http.go, control.go and mediamtx.go.

# Handlers

Every request runs its own handler. Between two of its steps any other
handler may run: a step is one critical section under the mutex, or one
call to the control plane or to the media server (`Stage` says which one
is next). What a call comes back with is up to the call (`Reply`); a
call may also take effect while its answer is lost.

The log is what there is to see of the handlers: which call was made by
whom, what the control plane granted, which handler took a session out,
and what was responded.

# Heartbeats

The loop of a session runs under a context of its own, which the entry
of the session can cancel. It ends when its context is done, or when the
control plane does not know the session.
-/
import Mathlib.Data.Finset.Basic
import StreamBrew.Lib.Maps
import StreamBrew.Lib.Run

namespace StreamBrew.Restream

open Relational

-- ====================================== data

/-- A character of `[A-Za-z0-9_-]`. -/
def ingestPathChar (c : Char) : Bool := c.isAlphanum || c = '_' || c = '-'

/-- `ingestPathPattern`: `^sb_[A-Za-z0-9_-]{43}$`. -/
def ingestPathPattern (path : String) : Bool :=
  match path.toList with
  | 's' :: 'b' :: '_' :: key => key.length = 43 && key.all ingestPathChar
  | _ => false

/-- A destination with the URL that is forwarded to. -/
structure Destination where
  id : String
  targetURL : String
  deriving DecidableEq, Repr

/-- What the control plane grants a publisher. -/
structure Authorization where
  sessionID : String
  destinations : List Destination
  deriving DecidableEq, Repr

/-- What the client accepts as an answer of the control plane. -/
def Authorization.acceptable (a : Authorization) : Bool :=
  a.sessionID != "" && 1 ≤ a.destinations.length
    && a.destinations.length ≤ 3
    && a.destinations.all fun d => d.id != "" && d.targetURL != ""

/-- An entry of `sessions`; `cancel` is the context of its heartbeats. -/
structure ActiveSession where
  path : String
  authorization : Authorization
  cancel : Option Nat := none
  deriving DecidableEq, Repr

/-- The session is that of its authorization. -/
def ActiveSession.sessionID (e : ActiveSession) : String :=
  e.authorization.sessionID

/-- The context of a heartbeat loop, and the loop. -/
structure HeartbeatLoop where
  id : Nat
  path : String
  authorization : Authorization
  cancelled : Bool := false
  /-- the goroutine runs -/
  started : Bool := false
  deriving DecidableEq, Repr

/-- The body of an authorization request, as far as it is read. -/
structure AuthRequest where
  action : String
  protocol : String
  id : String
  path : String
  deriving DecidableEq, Repr

/-- The request is not one to publish over RTMP. -/
def AuthRequest.forbidden (request : AuthRequest) : Bool :=
  request.action != "publish" || request.protocol != "rtmp"
    || request.id == "" || !ingestPathPattern request.path

-- ============================== media server

/-- The configuration of a path of the media server. -/
structure MediaPath where
  name : String
  forward : List String
  deriving DecidableEq, Repr

/-- The forwards that MediaMTX has, by path. -/
abbrev MediaPaths := Table MediaPath.name

/-- `POST .. paths/add`, and `PATCH .. paths/patch` where the path is
there already. -/
def MediaPaths.configure (media : MediaPaths) (path : String)
    (destinations : List Destination) : MediaPaths :=
  let payload : MediaPath :=
    { name := path, forward := destinations.map Destination.targetURL }
  (media.insert? payload).getD (media.put payload)

/-- `DELETE .. paths/delete`; a path that is not there is no error. -/
def MediaPaths.delete (media : MediaPaths) (path : String) : MediaPaths :=
  media.erase path

-- ================================== handlers

/-- What a call comes back with. -/
inductive Reply
  | ok
  | granted (authorization : Authorization)
  | refused
  /-- it took effect, and failed for the caller -/
  | lost
  | failed
  deriving DecidableEq, Repr

/-- The call took effect. -/
def Reply.effective : Reply → Bool
  | .ok | .lost => true
  | _ => false

/-- What a handler does next. -/
inductive Stage
  -- authorize
  /-- look for a session or another authorization of the path -/
  | enter (publisherID : String)
  | authorize (publisherID : String)
  /-- `ValidateTargetURL` on the destinations -/
  | validate (authorization : Authorization)
  /-- `endAuthorization` -/
  | reject (authorization : Authorization)
  | store (authorization : Authorization)
  /-- the deferred `delete(handler.pending, ..)` -/
  | unpend (status : Nat)
  -- online
  | find
  | configure (authorization : Authorization)
  | confirm (authorization : Authorization)
  /-- `deleteMediaPath` where no session is left -/
  | clean
  /-- `go handler.runHeartbeats` -/
  | run (loop : Nat)
  | abandon (sessionID : String)
  -- offline
  | remove
  -- offline and abandonSession, with a session that is taken out
  | delete (sessionID : String) (status : Nat)
  | close (sessionID : String) (status : Nat)
  deriving DecidableEq, Repr

/-- A request that is handled. -/
structure Handler where
  id : Nat
  path : String
  stage : Stage
  deriving DecidableEq, Repr

/-- The state of a forward, as the control plane takes it. -/
inductive ForwardState
  | idle
  | forwarding
  | error
  deriving DecidableEq, Repr

/-- What is reported of one forward. -/
structure DestinationState where
  destinationID : String
  state : ForwardState := .idle
  outboundBytes : Nat := 0
  deriving DecidableEq, Repr

/-- What the controller did, as the control plane sees it. -/
inductive Event
  /-- a call of `control.Authorize` -/
  | authorize (handler : Nat) (path : String)
  /-- its answer -/
  | granted (path : String) (authorization : Authorization)
  /-- the session is this handler's to end -/
  | took (handler : Nat) (sessionID : String)
  /-- a call of `control.End` -/
  | ended (handler : Nat) (sessionID : String)
  | heartbeat (sessionID : String) (states : List DestinationState)
  | responded (handler : Nat) (status : Nat)
  deriving DecidableEq, Repr

/-- The maps of the controller, its handlers and loops, and MediaMTX. -/
structure Controller where
  sessions : Table ActiveSession.path := .empty
  pending : Finset String := ∅
  handlers : Table Handler.id := .empty
  /-- how many requests there were -/
  requests : Nat := 0
  loops : Table HeartbeatLoop.id := .empty
  /-- how many contexts there were -/
  contexts : Nat := 0
  media : MediaPaths := .empty
  log : List Event := []

namespace Controller

variable (s : Controller)

/-- An event is logged. -/
def record (event : Event) : Controller :=
  { s with log := s.log ++ [event] }

/-- A request that is decoded; its handler is at its first step. -/
def accept (path : String) (stage : Stage) : Controller :=
  { s with
    requests := s.requests + 1
    handlers := s.handlers.put { id := s.requests, path, stage } }

/-- A request that is refused as it is. -/
def refuse (status : Nat) : Controller :=
  { s.record (.responded s.requests status) with
    requests := s.requests + 1 }

/-- The handler goes on. -/
def goTo (h : Handler) (stage : Stage) : Controller :=
  { s with handlers := s.handlers.put { h with stage } }

/-- The handler returns. -/
def respond (h : Handler) (status : Nat) : Controller :=
  { s.record (.responded h.id status) with
    handlers := s.handlers.erase h.id }

/-- Call the cancel function of an entry, if it has one. -/
def cancelled (cancel : Option Nat) : Table HeartbeatLoop.id :=
  s.loops.update (fun l => cancel = some l.id)
    (fun l => { l with cancelled := true }) (Table.keeps rfl)

/-- Delete the entry, and cancel its heartbeats. -/
def takeOut (e : ActiveSession) : Controller :=
  { s with
    sessions := s.sessions.erase e.path
    loops := s.cancelled e.cancel }

/-- `media.Delete`; its error is only reported. -/
def deleteMedia (path : String) (reply : Reply) : Controller :=
  if reply.effective then { s with media := s.media.delete path } else s

-- ================================= authorize

/-- A path is authorized once at a time. -/
def enter (h : Handler) (publisherID : String) : Controller :=
  if (s.sessions.get? h.path).isSome ∨ h.path ∈ s.pending then
    s.respond h 409
  else
    { s with pending := insert h.path s.pending }.goTo h
      (.authorize publisherID)

/-- The control plane has answered. -/
def authorize (h : Handler) : Reply → Controller
  | .granted a =>
      if a.acceptable then
        ((s.record (.authorize h.id h.path)).record
          (.granted h.path a)).goTo h (.validate a)
      else (s.record (.authorize h.id h.path)).goTo h (.unpend 503)
  | .refused =>
      (s.record (.authorize h.id h.path)).goTo h (.unpend 403)
  | _ => (s.record (.authorize h.id h.path)).goTo h (.unpend 503)

/-- The targets were looked up. -/
def validate (h : Handler) (a : Authorization) (reply : Reply) :
    Controller :=
  if reply = .ok then s.goTo h (.store a)
  else (s.record (.took h.id a.sessionID)).goTo h (.reject a)

/-- The session that may not be forwarded is ended. -/
def reject (h : Handler) (a : Authorization) : Controller :=
  (s.record (.ended h.id a.sessionID)).goTo h (.unpend 503)

/-- The session is kept under its path. -/
def store (h : Handler) (a : Authorization) : Controller :=
  { s with
    sessions := s.sessions.put { path := h.path, authorization := a } }.goTo
    h (.unpend 204)

/-- The path may be authorized again, and the request is answered. -/
def unpend (h : Handler) (status : Nat) : Controller :=
  { s with pending := s.pending.erase h.path }.respond h status

-- ==================================== online

/-- The hook looks its path up. -/
def find (h : Handler) : Controller :=
  match s.sessions.get? h.path with
  | none => s.respond h 404
  | some session => s.goTo h (.configure session.authorization)

/-- MediaMTX was asked to forward. -/
def configure (h : Handler) (a : Authorization) (reply : Reply) :
    Controller :=
  let s := if reply.effective then
      { s with media := s.media.configure h.path a.destinations }
    else s
  if reply = .ok then s.goTo h (.confirm a)
  else s.goTo h (.abandon a.sessionID)

/-- The entry gets the context of a new loop, instead of the one it
had. -/
def renew (current : ActiveSession) : Controller :=
  { s with
    sessions := s.sessions.put { current with cancel := some s.contexts }
    loops := (s.cancelled current.cancel).put
      { id := s.contexts, path := current.path
        authorization := current.authorization }
    contexts := s.contexts + 1 }

/-- The session is looked up again, as it may have gone meanwhile. -/
def confirm (h : Handler) (a : Authorization) : Controller :=
  match s.sessions.get? h.path with
  | none => s.goTo h .clean
  | some current =>
      if current.sessionID = a.sessionID then
        (s.renew current).goTo h (.run s.contexts)
      else s.respond h 204

/-- The forwards of a session that has gone are deleted. -/
def clean (h : Handler) (reply : Reply) : Controller :=
  (s.deleteMedia h.path reply).respond h 204

/-- The heartbeat loop of the session starts. -/
def run (h : Handler) (loop : Nat) : Controller :=
  { s with
    loops := s.loops.update (fun l => l.id = loop)
      (fun l => { l with started := true }) (Table.keeps rfl) }.respond h
    204

/-- The critical section of abandonSession. -/
def abandon (h : Handler) (sessionID : String) : Controller :=
  match s.sessions.get? h.path with
  | none => s.respond h 503
  | some session =>
      if session.sessionID = sessionID then
        ((s.takeOut session).record (.took h.id sessionID)).goTo h
          (.delete sessionID 503)
      else s.respond h 503

-- =================================== offline

/-- The session of the path is taken out of the map. -/
def remove (h : Handler) : Controller :=
  match s.sessions.get? h.path with
  | none => s.respond h 204
  | some session =>
      ((s.takeOut session).record (.took h.id session.sessionID)).goTo h
        (.delete session.sessionID 204)

/-- MediaMTX was asked to forward no more. -/
def delete (h : Handler) (sessionID : String) (status : Nat)
    (reply : Reply) : Controller :=
  (s.deleteMedia h.path reply).goTo h (.close sessionID status)

/-- `control.End`; its error is only reported. -/
def close (h : Handler) (sessionID : String) (status : Nat) : Controller :=
  (s.record (.ended h.id sessionID)).respond h status

/-- The next step of a handler. -/
def proceed (h : Handler) (reply : Reply) : Controller :=
  match h.stage with
  | .enter publisherID => s.enter h publisherID
  | .authorize _ => s.authorize h reply
  | .validate a => s.validate h a reply
  | .reject a => s.reject h a
  | .store a => s.store h a
  | .unpend status => s.unpend h status
  | .find => s.find h
  | .configure a => s.configure h a reply
  | .confirm a => s.confirm h a
  | .clean => s.clean h reply
  | .run loop => s.run h loop
  | .abandon sessionID => s.abandon h sessionID
  | .remove => s.remove h
  | .delete sessionID status => s.delete h sessionID status reply
  | .close sessionID status => s.close h sessionID status

end Controller

-- ================================ heartbeats

/-- The state of a forward, from the media server. -/
structure ForwardStatus where
  position : Int
  state : String
  outboundBytes : Nat
  deriving DecidableEq, Repr

/-- The greatest safe integer of JavaScript. -/
def maxSafeJSONInteger : Nat := 9007199254740991

/-- A state that is not known is an error. -/
def ForwardState.ofString : String → ForwardState
  | "idle" => .idle
  | "forwarding" => .forwarding
  | _ => .error

/-- A status is that of the destination at its position. -/
def applyStatus (states : List DestinationState) (status : ForwardStatus) :
    List DestinationState :=
  if status.position < 0 ∨ states.length ≤ status.position then states
  else states.modify status.position.toNat fun d =>
    { d with
      state := .ofString status.state
      outboundBytes := min status.outboundBytes maxSafeJSONInteger }

/-- The states that a heartbeat reports. -/
def Authorization.states (a : Authorization)
    (statuses : List ForwardStatus) : List DestinationState :=
  statuses.foldl applyStatus
    (a.destinations.map fun d => { destinationID := d.id })

/-- A round of sendHeartbeat: the media server does not say how the
forwards are, or it does and the control plane knows the session, does
not know it, or fails. -/
inductive Beat
  | noStatuses
  | sent (statuses : List ForwardStatus) (known : Option Bool)
  deriving DecidableEq, Repr

/-- What sendHeartbeat returns: whether the loop goes on. -/
def HeartbeatLoop.sendHeartbeat (l : HeartbeatLoop) : Beat → Bool
  | .sent _ (some known) => known
  | .noStatuses | .sent _ none => !l.cancelled

/-- What a round reports. -/
def HeartbeatLoop.report (l : HeartbeatLoop) : Beat → List Event
  | .noStatuses => []
  | .sent statuses _ =>
      [.heartbeat l.authorization.sessionID
        (l.authorization.states statuses)]

/-- A loop ends. -/
def Controller.stop (s : Controller) (id : Nat) : Controller :=
  { s with loops := s.loops.erase id }

/-- A round of a loop: it reports, and may end. -/
def Controller.beat (s : Controller) (l : HeartbeatLoop) (beat : Beat) :
    Controller :=
  let s := { s with log := s.log ++ l.report beat }
  if l.sendHeartbeat beat then s else s.stop l.id

-- =================================== machine

/-- Requests, hooks and steps of what is under way. -/
inductive Action
  | authorize (request : AuthRequest)
  | online (path : String)
  | offline (path : String)
  | proceed (handler : Nat) (reply : Reply)
  | beat (loop : Nat) (beat : Beat)
  /-- the select of a loop takes `ctx.Done()` -/
  | done (loop : Nat)
  deriving DecidableEq, Repr

/-- `decodeHookPath`, and the handler of the hook. -/
def Controller.hook (s : Controller) (path : String) (stage : Stage) :
    Controller :=
  if ingestPathPattern path then s.accept path stage else s.refuse 400

/-- The step of a request, of a handler or of a loop. -/
def Controller.step (s : Controller) : Action → Controller
  | .authorize request =>
      if request.forbidden then s.refuse 403
      else s.accept request.path (.enter request.id)
  | .online path => s.hook path .find
  | .offline path => s.hook path .remove
  | .proceed id reply =>
      match s.handlers.get? id with
      | none => s
      | some h => s.proceed h reply
  | .beat id beat =>
      match s.loops.get? id with
      | none => s
      | some l => if l.started then s.beat l beat else s
  | .done id =>
      match s.loops.get? id with
      | none => s
      | some l => if l.started ∧ l.cancelled then s.stop id else s

/-- The controller after some actions, from its start. -/
def Controller.after (actions : List Action) : Controller :=
  Run.run Controller.step {} actions

end StreamBrew.Restream
