/-
The lease of a collector: nats.go, and collectSource of collectors.go.

# The bucket

The leases of all sources are keys of one key-value bucket whose records
expire. `Create`, `Update` and `Delete` of a key are compare-and-set on
its last revision. A request may fail without effect, or take effect and
its reply be lost.

# A session

One pass of collectSource's loop that has acquired the lease. Two
goroutines share it: the one that keeps the lease (Maintain), and the
one that forwards what the provider's stream reports. They meet in the
channel `maintained`, which takes the result of Maintain without
waiting. The provider's stream and Maintain run until `collectionCtx` is
done, through cancel() or with the collector's own context.
-/
import StreamBrew.Lib.Revisions
import StreamBrew.Lib.Run

namespace StreamBrew.Chat

open Revisions

-- =================================== session

/-- What Maintain returns: nothing, or the error of a renewal. -/
inductive Maintained
  | kept
  | lost
  deriving DecidableEq, Repr

/-- Where the forwarding goroutine stands: in its loop, waiting for
Maintain after cancel(), before Release, or behind it. -/
inductive SessionStage
  | forwarding
  | waiting
  | releasing
  | released
  deriving DecidableEq, Repr

/-- The variables of a pass of the loop. -/
structure Session where
  owner : String
  /-- `lease.revision` -/
  revision : Nat
  /-- the collector's context is done -/
  contextDone : Bool := false
  /-- cancel() was called -/
  cancelled : Bool := false
  collecting : Bool := true
  /-- the goroutine of Maintain has not returned -/
  maintaining : Bool := true
  maintained : Option Maintained := none
  maintenanceFinished : Bool := false
  stage : SessionStage := .forwarding
  deriving DecidableEq, Repr

namespace Session

/-- `collectionCtx` is done. -/
def collectionDone (s : Session) : Bool := s.contextDone || s.cancelled

/-- The provider's stream may still run. -/
def streaming (s : Session) : Bool := !s.collectionDone

end Session

/-- What becomes of a request: it is carried out and the reply arrives,
it is carried out and the reply is lost, or it fails without effect. -/
inductive Request
  | answered
  | unanswered
  | failed
  deriving DecidableEq, Repr

/-- What a request makes of the key, where it is carried out and the
bucket does not refuse it. -/
def Request.effect (written : Option (Entry String)) :
    Request → Option (Entry String)
  | .failed => none
  | .answered | .unanswered => written

/-- The steps of the two goroutines. -/
inductive SessionAction
  /-- Maintain's ticker, and its request -/
  | renew (request : Request)
  /-- Maintain sees that its context is done -/
  | endMaintenance
  /-- the loop receives from `maintained` -/
  | receiveMaintained
  /-- the loop ends for another reason: its context, both channels of
  the stream closed, or a failed publication -/
  | stopCollecting
  /-- the loop's condition fails, and cancel() is called -/
  | cancel
  /-- `if !maintenanceFinished { <-maintained }` -/
  | awaitMaintained
  /-- Release, whose error is only logged -/
  | release (request : Request)
  /-- the collector's context ends -/
  | endContext
  deriving DecidableEq, Repr

/-- Maintain returns the error of its renewal. -/
def Session.lose (s : Session) : Session :=
  { s with maintaining := false, maintained := some .lost }

/-- A step of a session. It does nothing where the session is not at it,
and Go's select may take a ticker that is due before a context that is
done. -/
def Session.step (entry : Entry String) (s : Session) :
    SessionAction → Entry String × Session
  | .renew request =>
      if s.maintaining then
        match request.effect (entry.update s.owner s.revision) with
        | none => (entry, s.lose)
        | some renewed =>
            if request = .answered then
              (renewed, { s with revision := renewed.revision })
            else (renewed, s.lose)
      else (entry, s)
  | .endMaintenance =>
      if s.maintaining && s.collectionDone then
        (entry, { s with maintaining := false, maintained := some .kept })
      else (entry, s)
  | .receiveMaintained =>
      if s.stage = .forwarding ∧ s.collecting ∧ s.maintained.isSome then
        (entry, { s with maintained := none, maintenanceFinished := true
                         collecting := false })
      else (entry, s)
  | .stopCollecting =>
      if s.stage = .forwarding then (entry, { s with collecting := false })
      else (entry, s)
  | .cancel =>
      if s.stage = .forwarding ∧ (!s.collecting || s.collectionDone) then
        (entry, { s with cancelled := true, stage := .waiting })
      else (entry, s)
  | .awaitMaintained =>
      if s.stage = .waiting ∧ (s.maintenanceFinished
          || s.maintained.isSome) then
        (entry, { s with maintained := none, stage := .releasing })
      else (entry, s)
  | .release request =>
      if s.stage = .releasing then
        ((request.effect (entry.delete s.revision)).getD entry,
          { s with stage := .released })
      else (entry, s)
  | .endContext => (entry, { s with contextDone := true })

-- ================================== sessions

/-- The lease of one source and all sessions that ever acquired it, on
any number of instances. -/
structure Leases where
  entry : Entry String
  sessions : List Session

/-- The steps of the bucket and of sessions. -/
inductive LeaseAction
  | expire
  /-- a write to the lease of another source -/
  | elsewhere
  /-- Acquire, and its request -/
  | acquire (owner : String) (request : Request)
  | session (sessionID : Nat) (action : SessionAction)
  deriving DecidableEq, Repr

/-- An acquired lease is a new session. -/
def Leases.step (s : Leases) : LeaseAction → Leases
  | .expire => { s with entry := s.entry.expire }
  | .elsewhere => { s with entry := s.entry.elsewhere }
  | .acquire owner request =>
      match request.effect (s.entry.create owner) with
      | none => s
      | some entry =>
          if request = .answered then
            { entry
              sessions := s.sessions ++
                [{ owner, revision := entry.revision }] }
          else { s with entry }
  | .session sessionID action =>
      match s.sessions[sessionID]? with
      | none => s
      | some session =>
          let (entry, stepped) := session.step s.entry action
          { entry, sessions := s.sessions.set sessionID stepped }

/-- A bucket without the key. -/
def Leases.init : Leases := { entry := .empty, sessions := [] }

end StreamBrew.Chat
