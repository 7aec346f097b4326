/-
The live reading of a Streamlabs account: StreamlabsAdapter.Run of
provider.go, which reads history whenever its socket listener says that
there may be something new.

# Wake-ups

The listener of the socket only notifies: it leaves a wake-up in a channel
that holds one, and where there is one already it leaves none. The adapter
takes it, waits a moment, empties the channel, and only then reads, so one
reading serves all that was notified before it began. The listener runs
beside the adapter and may notify between any two of its steps.

# Reading

A reading is a pass of `System` for the listener's connection. A failed
one is begun anew after a delay that doubles with each failure, or the
longer one that the provider asks for; its result is stored, and what it
was for is `listed`: the rows that the account had at the last
notification. What others do meanwhile, to histories, other passes and
the store, is `other`; nobody else moves the listener or its pass while
the adapter runs.
-/
import StreamBrew.Streamlabs.System

namespace StreamBrew.Streamlabs

open Alert (Time)
open Donations (DonationDraw)

namespace Adapter

/-- The first wait, in seconds. -/
def retryStart : Nat := 5
/-- The longest wait, in seconds. -/
def retryMax : Nat := 60

/-- What the log of the adapter records. -/
inductive Entry
  /-- a reconciliation begins -/
  | begun
  /-- a wait of this delay, or of the provider's where that is longer -/
  | retried (delay retryAfter seconds : Nat)
  | emitted
  deriving DecidableEq, Repr

/-- Where the goroutine of Run stands. -/
inductive Phase
  | stopped
  | waiting
  | debouncing
  | draining
  | reading (delay : Nat)
  | retrying (delay : Nat)
  deriving DecidableEq, Repr

/-- The goroutine of the adapter beside everything else. -/
structure State (Json : Type) where
  sys : System Json
  phase : Phase := .stopped
  wakes : Bool := false
  /-- The listener has ended, or the context. -/
  done : Bool := false
  listed : List Json := []
  log : List Entry := []

/-- No adapter runs. -/
def State.init (Json : Type) : State Json := { sys := .init Json }

/-- `page` is one page of a reading, `fails` the error of its request. -/
inductive Action (Json : Type)
  | start
  | notify
  | done
  | leave
  | wake
  | debounced
  | drain
  | page (size : Nat)
  | fails (unauthorized : Bool) (retryAfter : Nat)
  | retry
  | emit (time : Time) (draws : List DonationDraw)
  | other (a : Streamlabs.Action Json)

/-- An action of somebody else's pass, or of no pass. -/
def leavesPass {Json : Type} (passID : Nat) : Streamlabs.Action Json → Bool
  | .connect id _ _ | .reconcile id _ | .recover id _ | .page id _
  | .abandon id | .save id _ _ => id ≠ passID
  | .publish _ _ | .task _ => true

section

variable {Json : Type} (codec : RowCodec Json) (passID listenerID : Nat)

/-- The connection of the listener. -/
def State.listener (s : State Json) : Option Donations.Listener :=
  s.sys.app.listeners.get? listenerID

/-- The rows of its account. -/
def State.rows (s : State Json) : List Json :=
  match s.listener listenerID with
  | none => []
  | some l => s.sys.history l.connection.sourceUserID

/-- A call of GetDonations. -/
def State.call (delay : Nat) (s : State Json) : State Json :=
  { s with
    sys := s.sys.step codec (.reconcile passID listenerID)
    phase := .reading delay }

/-- GetDonations returned an error. -/
def State.failed (delay : Nat) (unauthorized : Bool) (retryAfter : Nat)
    (s : State Json) : State Json :=
  if s.done || unauthorized then { s with phase := .stopped }
  else
    { s with
      phase := .retrying delay
      log := s.log ++ [.retried delay retryAfter (max delay retryAfter)] }

/-- The donations of the batch are stored, with its checkpoint. -/
def State.accepts (history : History) (time : Time)
    (draws : List DonationDraw) (s : State Json) : Bool :=
  match s.listener listenerID with
  | none => false
  | some l =>
      (Donations.saveDonations .streamlabs l.connection.version
        (streamlabsBatch history) .live time draws s.sys.app.db).1.toBool

/-- `emit(batch)` -/
def State.emit (history : History) (time : Time)
    (draws : List DonationDraw) (s : State Json) : State Json :=
  { s with
    sys := s.sys.step codec (.save passID time draws)
    phase :=
      if s.accepts listenerID history time draws then .waiting else .stopped
    log := s.log ++ [.emitted] }

/-- The adapter goes on, or somebody else does. -/
def State.step (s : State Json) : Action Json → State Json
  | .start =>
      match s.phase, s.listener listenerID with
      | .stopped, some l =>
          if l.provider = .streamlabs ∧ l.unrecorded = none then
            { sys := s.sys, phase := .waiting }
          else s
      | _, _ => s
  | .notify =>
      { s with wakes := true, listed := s.rows listenerID }
  | .done => { s with done := true }
  | .leave => if s.done then { s with phase := .stopped } else s
  | .wake =>
      if s.phase = .waiting ∧ s.wakes = true then
        { s with phase := .debouncing, wakes := false }
      else s
  | .debounced =>
      if s.phase = .debouncing then { s with phase := .draining } else s
  | .drain =>
      if s.phase = .draining then
        if s.wakes then { s with wakes := false }
        else
          ({ s with log := s.log ++ [.begun] } : State Json).call codec
            passID listenerID retryStart
      else s
  | .page size =>
      match s.phase with
      | .reading _ => { s with sys := s.sys.step codec (.page passID size) }
      | _ => s
  | .fails unauthorized retryAfter =>
      match s.phase, s.sys.passes passID with
      | .reading delay, some { owner := _, progress := .next _ } =>
          s.failed delay unauthorized retryAfter
      | .reading delay, some { owner := _, progress := .failed _ } =>
          s.failed delay false 0
      | _, _ => s
  | .retry =>
      match s.phase with
      | .retrying delay =>
          s.call codec passID listenerID (min (delay * 2) retryMax)
      | _ => s
  | .emit time draws =>
      match s.phase, s.sys.passes passID with
      | .reading _, some { owner := _, progress := .done history } =>
          if s.done then s
          else s.emit codec passID listenerID history time draws
      | _, _ => s
  | .other a =>
      let sys := s.sys.step codec a
      if leavesPass passID a ∧ sys.app.listeners.get? listenerID
          = s.sys.app.listeners.get? listenerID ∨ s.phase = .stopped then
        { s with sys }
      else s

end

end Adapter

end StreamBrew.Streamlabs
