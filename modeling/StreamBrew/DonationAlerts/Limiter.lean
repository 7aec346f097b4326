/-
The request limiter of the DonationAlerts client: one goroutine hands
permits to all callers that want to send a REST request.

# Callers

A caller blocks in a send on one of three unbuffered channels until the
limiter receives its permit, so a channel is the queue of the callers
that wait in it. A caller whose context is cancelled may give up at any
moment while it waits; it may as well be received before it notices.

# The limiter

`next` receives from the channels one after another without blocking and
only then blocks on all three. Callers come and go between two of these
receives, so each is a step of its own: `Point` is where the goroutine
stands. What it did is the log of the run.
-/
import StreamBrew.Lib.Run

namespace StreamBrew.DonationAlerts

/-- The priorities of requests, each with a channel of its own. -/
inductive RequestPriority
  | regularRequest
  | recoveryRequest
  | criticalRequest
  deriving DecidableEq, Repr

open RequestPriority

/-- How many critical requests may go before the others. -/
def maximumCriticalBurst : Nat := 4
/-- How many recovery requests may go before regular ones. -/
def maximumRecoveryBurst : Nat := 4

/-- The receives of `nextHistory`, in order. -/
def nextHistory (recoveryBurst : Nat) : List RequestPriority :=
  (if recoveryBurst ≥ maximumRecoveryBurst then [regularRequest] else [])
    ++ [recoveryRequest, regularRequest]

/-- The receives of `next` that do not block, in order. The first that
finds a caller decides. -/
def next (criticalBurst recoveryBurst : Nat) : List RequestPriority :=
  (if criticalBurst < maximumCriticalBurst then [criticalRequest] else [])
    ++ (if criticalBurst ≥ maximumCriticalBurst then
      nextHistory recoveryBurst else [])
    ++ [criticalRequest] ++ nextHistory recoveryBurst

/-- The two counters of `run`. -/
structure Bursts where
  criticalBurst : Nat
  recoveryBurst : Nat
  deriving DecidableEq, Repr

/-- The counters after a permit was granted. -/
def Bursts.granted (bursts : Bursts) : RequestPriority → Bursts
  | criticalRequest =>
      { bursts with criticalBurst := bursts.criticalBurst + 1 }
  | recoveryRequest =>
      { criticalBurst := 0, recoveryBurst := bursts.recoveryBurst + 1 }
  | regularRequest => { criticalBurst := 0, recoveryBurst := 0 }

/-- The order in which the channels are polled. -/
def Bursts.next (bursts : Bursts) : List RequestPriority :=
  DonationAlerts.next bursts.criticalBurst bursts.recoveryBurst

/-- A call of `wait`, numbered in the order of the sends. -/
abbrev Permit := Nat

/-- Where the goroutine stands: before the receives that are left of
`next` (before the blocking one when none is left), or holding a permit
whose context it has not looked at. -/
inductive Point
  | polling (rest : List RequestPriority)
  | taken (permit : Permit) (priority : RequestPriority)
  deriving DecidableEq, Repr

/-- The callers that wait, and the goroutine that grants. -/
structure Limiter where
  queue : RequestPriority → List Permit
  /-- The next permit to be sent. -/
  sent : Permit
  /-- The permits whose context is done. -/
  cancelled : List Permit
  bursts : Bursts
  point : Point

/-- A limiter without callers. -/
def newRequestLimiter : Limiter where
  queue := fun _ => []
  sent := 0
  cancelled := []
  bursts := { criticalBurst := 0, recoveryBurst := 0 }
  point := .polling (next 0 0)

/-- The steps of callers and of the goroutine. -/
inductive Action
  /-- A caller begins to wait. -/
  | send (priority : RequestPriority)
  /-- The context of a caller is done. -/
  | cancel (permit : Permit)
  /-- A caller with a context that is done gives up. -/
  | leave (permit : Permit)
  /-- The next receive of the limiter that does not block. -/
  | poll
  /-- The blocking receive, which picks any channel with a caller. -/
  | select (priority : RequestPriority)
  /-- The limiter looks at the context of the permit it holds. -/
  | settle
  deriving DecidableEq, Repr

/-- What the goroutine did with a permit. -/
inductive Event
  | granted (permit : Permit) (priority : RequestPriority)
  | discarded (permit : Permit) (priority : RequestPriority)
  deriving DecidableEq, Repr

/-- A receive that found a caller. -/
def Limiter.take (limiter : Limiter) (priority : RequestPriority)
    (permit : Permit) : Limiter :=
  { limiter with
    queue := fun q => if q = priority then (limiter.queue q).tail
      else limiter.queue q
    point := .taken permit priority }

/-- One step of a caller or of the goroutine. -/
def Limiter.step (limiter : Limiter) : Action → Limiter
  | .send priority =>
      { limiter with
        queue := fun q => if q = priority then
          limiter.queue q ++ [limiter.sent] else limiter.queue q
        sent := limiter.sent + 1 }
  | .cancel permit =>
      { limiter with cancelled := permit :: limiter.cancelled }
  | .leave permit =>
      if permit ∈ limiter.cancelled then
        { limiter with
          queue := fun q => (limiter.queue q).filter (· ≠ permit) }
      else limiter
  | .poll =>
      match limiter.point with
      | .polling (priority :: rest) =>
          match (limiter.queue priority).head? with
          | some permit => limiter.take priority permit
          | none => { limiter with point := .polling rest }
      | _ => limiter
  | .select priority =>
      match limiter.point with
      | .polling [] =>
          match (limiter.queue priority).head? with
          | some permit => limiter.take priority permit
          | none => limiter
      | _ => limiter
  | .settle =>
      match limiter.point with
      | .taken permit priority =>
          if permit ∈ limiter.cancelled then
            { limiter with point := .polling limiter.bursts.next }
          else
            { limiter with
              bursts := limiter.bursts.granted priority
              point := .polling (limiter.bursts.granted priority).next }
      | .polling _ => limiter

/-- What a step of the limiter does for a caller. -/
def Limiter.observe (limiter : Limiter) : Action → List Event
  | .settle =>
      match limiter.point with
      | .taken permit priority =>
          if permit ∈ limiter.cancelled then [.discarded permit priority]
          else [.granted permit priority]
      | .polling _ => []
  | _ => []

/-- A permit was granted. -/
def Event.isGrant : Event → Bool
  | .granted _ _ => true
  | .discarded _ _ => false

/-- A permit granted to a recovery or regular request. -/
def Event.isHistory : Event → Bool
  | .granted _ priority => priority ≠ criticalRequest
  | .discarded _ _ => false

/-- The counters as the grants alone make them. -/
def Bursts.after (bursts : Bursts) : Event → Bursts
  | .granted _ priority => bursts.granted priority
  | .discarded _ _ => bursts

/-- Whether an action moves the limiter. A blocking receive does so only
where a caller waits. -/
def Limiter.moves (limiter : Limiter) : Action → Bool
  | .poll =>
      match limiter.point with
      | .polling (_ :: _) => true
      | _ => false
  | .select priority =>
      match limiter.point with
      | .polling [] => !(limiter.queue priority).isEmpty
      | _ => false
  | .settle =>
      match limiter.point with
      | .taken _ _ => true
      | .polling _ => false
  | _ => false

-- ====================================== runs

/-- The limiter after some actions. -/
def Limiter.run (limiter : Limiter) (acts : List Action) : Limiter :=
  Run.run Limiter.step limiter acts

/-- The permits granted and discarded along a run, in order. -/
def Limiter.log (limiter : Limiter) (acts : List Action) : List Event :=
  Run.log Limiter.step Limiter.observe limiter acts

/-- How often the limiter moves along a run. -/
def Limiter.work (limiter : Limiter) (acts : List Action) : Nat :=
  Run.cost Limiter.step (fun limiter act => (limiter.moves act).toNat)
    limiter acts

/-- The callers of one priority that wait, in order: the one whose permit
the limiter holds, and those that it has not received. -/
def Limiter.line (limiter : Limiter) (priority : RequestPriority) :
    List Permit :=
  match limiter.point with
  | .taken permit held => if held = priority then
      permit :: limiter.queue priority else limiter.queue priority
  | .polling _ => limiter.queue priority

/-- The caller waits in the channel of its priority. -/
def Limiter.Waiting (limiter : Limiter) (priority : RequestPriority)
    (permit : Permit) : Prop :=
  permit ∈ limiter.queue priority

/-- The limiter stands at the beginning of `next`. -/
def Limiter.Deciding (limiter : Limiter) : Prop :=
  limiter.point = .polling limiter.bursts.next

/-- The goroutine polls channels, and blocks in none. -/
def Limiter.Polling (limiter : Limiter) : Prop :=
  ∃ rest, limiter.point = .polling rest

/-- In the run a history request waits throughout every decision: from
the beginning of `next` to the moment when it returns. -/
inductive Attended : Limiter → List Action → Prop
  | nil (limiter : Limiter) : Attended limiter []
  | decide {limiter : Limiter} {acts rest : List Action}
      (priority : RequestPriority) (permit : Permit)
      (hhistory : priority ≠ criticalRequest)
      (hbegin : limiter.Deciding)
      (hwaiting : Run.Along Limiter.step (fun limiter _ =>
        limiter.Polling ∧ limiter.Waiting priority permit) limiter acts)
      (hrest : Attended (limiter.run acts) rest) :
      Attended limiter (acts ++ rest)
  | settle {limiter : Limiter} {acts rest : List Action}
      (htaken : Run.Along Limiter.step (fun limiter _ =>
        ¬limiter.Polling) limiter acts)
      (hrest : Attended (limiter.run acts) rest) :
      Attended limiter (acts ++ rest)

end StreamBrew.DonationAlerts
