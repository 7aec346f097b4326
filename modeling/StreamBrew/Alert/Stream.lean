/-
The event stream of a player: the Stream loop of application.go and
the handler in http.go that runs it and closes the player behind it.

# Points

The loop makes one store call or one emission at a time, and between
any two of them every other party may call the store. A stream is
therefore a state machine over the points at which it can be
interrupted; a point carries the local variables of one iteration, and
`Stream` those that live longer. One step takes the stream from one
point to the next.

# The log

A session keeps what its stream did and what the store answered, newest
first. The log is what a protocol is about: the client sees its
emissions, and the store's answers beside them say what they were due
to.
-/
import StreamBrew.Alert.System

namespace StreamBrew.Alert

open Relational

-- ==================================== events

/-- What the owner may do to the queue. -/
inductive ControlAction
  | pause
  | resume
  | skip
  deriving DecidableEq, Repr

/-- The lines of the event stream. -/
inductive StreamEvent
  | revoked
  | keepalive
  | control (action : ControlAction)
  | playback (playback : Playback)
  deriving DecidableEq, Repr

/-- What a stream did, or was told by the store. -/
inductive Notice
  /-- a playback that was stored as playing, and none was current -/
  | adopted (playback : Playback)
  /-- a poll of the loop returned this -/
  | polled (storedCurrent : Option Playback)
  /-- the status of a playback that a poll did not return any more -/
  | checked (playback : Playback) (status : Option PlaybackStatus)
  /-- ClaimPlayback handed out this playback -/
  | claimed (playback : Playback)
  | emitted (event : StreamEvent)
  /-- Stream returned -/
  | ended
  /-- ClosePlayer returned, without an error or with one -/
  | closed (released : Bool)
  deriving DecidableEq, Repr

-- =================================== streams

/-- The length that an overlay token has. -/
def validToken (token : String) : Bool :=
  32 ≤ token.utf8ByteSize ∧ token.utf8ByteSize ≤ 100

/-- What a player asks a stream with. -/
structure StreamRequest where
  token : String
  playerID : PlayerID
  generation : Int
  deriving DecidableEq, Repr

/-- Where a stream stands: what it does next. -/
inductive Point
  | opening
  | waiting
  | keepingAlive
  | polling
  | switching (now : Time) (nextPaused : Bool)
      (storedCurrent : Option Playback)
  | comparing (now : Time) (storedCurrent : Option Playback)
  | checking (now : Time) (storedCurrent : Option Playback)
      (current : Playback)
  | skipping (now : Time) (storedCurrent : Option Playback)
  | adopting (now : Time) (storedCurrent : Option Playback)
  | claiming (now : Time)
  | fetching (playbackID : PlaybackID)
  | presenting (playback : Playback)
  | revoking
  | returning
  | ended
  | closed
  deriving DecidableEq, Repr

/-- The variables of Application.Stream. -/
structure Stream where
  point : Point := .opening
  paused : Bool := false
  current : Option Playback := none
  polls : Nat := 0
  deriving DecidableEq, Repr

/-- How a call ends for the one who made it. -/
inductive Fate
  | done
  /-- an error, and nothing was written -/
  | failed
  /-- an error, although the transaction committed -/
  | unanswered
  deriving DecidableEq, Repr

/-- A store call with its fate. -/
def Fate.call {α : Type} (fate : Fate) (f : Db → Outcome α) (db : Db) :
    Outcome α :=
  match fate with
  | .done => f db
  | .failed => (.error .database, db)
  | .unanswered => (.error .database, (f db).2)

/-- What the surroundings choose for a step of the stream: the clock
reading, the rows locked elsewhere, whether the request is over, and
the fate of its call or emission. -/
structure Turn where
  now : Time := 0
  locked : List Nat := []
  cancelled : Bool := false
  fate : Fate := .done
  deriving DecidableEq, Repr

/-- The database and one stream, with what the stream did so far. -/
structure Session where
  db : Db
  stream : Stream := {}
  log : List Notice := []

-- ================================== the loop

namespace Session

/-- The stream goes on at another point. -/
def goto (point : Point) (s : Session) : Session :=
  { s with stream := { s.stream with point } }

/-- The session logs a notice. -/
def note (notice : Notice) (s : Session) : Session :=
  { s with log := notice :: s.log }

/-- Return from Stream. -/
def finish (s : Session) : Session := (s.note .ended).goto .ended

/-- Emit an event and go on; an emission that fails ends the stream. -/
def emit (fate : Fate) (event : StreamEvent) (next : Session → Session)
    (s : Session) : Session :=
  if fate = .done then next (s.note (.emitted event)) else s.finish

/-- What follows a poll that was answered. -/
def polled (now : Time) (nextPaused : Bool)
    (storedCurrent : Option Playback) (s : Session) : Session :=
  let noted := s.note (.polled storedCurrent)
  if nextPaused ≠ s.stream.paused then
    noted.goto (.switching now nextPaused storedCurrent)
  else noted.goto (.comparing now storedCurrent)

/-- The current playback is not the one the poll returned. -/
def Lost (current : Playback) (storedCurrent : Option Playback) : Prop :=
  ∀ stored ∈ storedCurrent, stored.playbackID ≠ current.playbackID

instance (current : Playback) (storedCurrent : Option Playback) :
    Decidable (Lost current storedCurrent) :=
  match storedCurrent with
  | none => isTrue fun _ h => by cases h
  | some stored => decidable_of_iff
      (stored.playbackID ≠ current.playbackID)
      ⟨fun h r hr => Option.mem_some.mp hr ▸ h,
        fun h => h stored (Option.mem_some.mpr rfl)⟩

/-- Whether the current playback has left the player. -/
def compare (now : Time) (storedCurrent : Option Playback) (s : Session) :
    Session :=
  match s.stream.current with
  | none => s.goto (.adopting now storedCurrent)
  | some current =>
      if Lost current storedCurrent then
        s.goto (.checking now storedCurrent current)
      else s.goto (.adopting now storedCurrent)

/-- A playback in this status is announced as skipped. -/
def Announced (status : Option PlaybackStatus) : Prop :=
  status = some .skipped ∨ status = some .interrupted
    ∨ status = some .expired

instance (status : Option PlaybackStatus) : Decidable (Announced status) :=
  inferInstanceAs (Decidable (_ ∨ _))

/-- `current = nil`. -/
def forget (s : Session) : Session :=
  { s with stream := { s.stream with current := none } }

/-- PlaybackStatus has answered. -/
def check (now : Time) (storedCurrent : Option Playback)
    (current : Playback) (s : Session) : Session :=
  let status := (s.db.playback? current.playbackID).map Playback.status
  let checked := s.note (.checked current status)
  if Announced status then checked.goto (.skipping now storedCurrent)
  else checked.forget.goto (.adopting now storedCurrent)

/-- Take a playback over that the player holds already. -/
def take (playback : Playback) (s : Session) : Session :=
  let adopted := s.note (.adopted playback)
  { adopted with stream := { adopted.stream with current := some playback } }

/-- The end of an iteration: claim, or wait for the next tick. -/
def settle (now : Time) (s : Session) : Session :=
  if s.stream.current = none ∧ ¬ s.stream.paused then
    s.goto (.claiming now)
  else s.goto .waiting

/-- What the store says is being played is taken over where the stream knows
of nothing. -/
def adopt (now : Time) (storedCurrent : Option Playback) (s : Session) :
    Session :=
  match s.stream.current, storedCurrent with
  | none, some stored => (s.take stored).settle now
  | _, _ => s.settle now

/-- ClosePlayer, from the handler's deferred call. -/
def close (tokenHash : TokenHash) (request : StreamRequest) (turn : Turn)
    (s : Session) : Session :=
  if !validToken request.token || request.generation ≤ 0 then
    (s.note (.closed true)).goto .closed
  else
    match turn.fate.call (releasePlayer tokenHash request.playerID
        request.generation turn.now) s.db with
    | (.ok (), db) => ({ s with db }.note (.closed true)).goto .closed
    | (.error _, db) => ({ s with db }.note (.closed false)).goto .closed

/-- One step of the stream. -/
def advance (hashToken : String → TokenHash) (request : StreamRequest)
    (turn : Turn) (s : Session) : Session :=
  let tokenHash := hashToken request.token
  match s.stream.point with
  | .opening =>
      if !validToken request.token || request.generation ≤ 0 then
        s.goto .revoking
      else
        match turn.fate.call (streamState tokenHash request.playerID
            request.generation turn.now) s.db with
        | (.error .leaseLost, db) => { s with db }.goto .revoking
        | (.error _, db) => { s with db }.finish
        | (.ok (paused, current), db) =>
            let opened : Session :=
              { s with db, stream := { s.stream with paused } }
            match current with
            | none => opened.goto .waiting
            | some playback => (opened.take playback).goto .waiting
  | .waiting =>
      if turn.cancelled then s.finish
      else
        let polls := s.stream.polls + 1
        let ticked : Session :=
          { s with stream := { s.stream with polls } }
        if polls % 20 = 0 then ticked.goto .keepingAlive
        else ticked.goto .polling
  | .keepingAlive => s.emit turn.fate .keepalive (goto .polling)
  | .polling =>
      match turn.fate.call (streamState tokenHash request.playerID
          request.generation turn.now) s.db with
      | (.error .leaseLost, db) => { s with db }.goto .revoking
      | (.error _, db) => { s with db }.finish
      | (.ok (nextPaused, storedCurrent), db) =>
          { s with db }.polled turn.now nextPaused storedCurrent
  | .switching now nextPaused storedCurrent =>
      s.emit turn.fate
        (.control (if nextPaused then .pause else .resume))
        fun s => { s with
          stream := { s.stream with
            paused := nextPaused
            point := .comparing now storedCurrent } }
  | .comparing now storedCurrent => s.compare now storedCurrent
  | .checking now storedCurrent current =>
      if turn.fate = .done then s.check now storedCurrent current
      else s.finish
  | .skipping now storedCurrent =>
      s.emit turn.fate (.control .skip) fun s =>
        s.forget.goto (.adopting now storedCurrent)
  | .adopting now storedCurrent => s.adopt now storedCurrent
  | .claiming now =>
      match turn.fate.call (claimPlayback tokenHash request.playerID
          request.generation now turn.locked) s.db with
      | (.error .leaseLost, db) => { s with db }.goto .revoking
      | (.error _, db) => { s with db }.finish
      | (.ok none, db) => { s with db }.goto .waiting
      | (.ok (some playback), db) =>
          ({ s with db }.note (.claimed playback)).goto
            (.fetching playback.playbackID)
  | .fetching playbackID =>
      match s.db.playback? playbackID with
      | some playback =>
          if turn.fate = .done then
            { s with stream := { s.stream with
              current := some playback
              point := .presenting playback } }
          else s.finish
      | none => s.finish
  | .presenting playback =>
      s.emit turn.fate (.playback playback) (goto .waiting)
  | .revoking => s.emit turn.fate .revoked (goto .returning)
  | .returning => s.finish
  | .ended => s.close tokenHash request turn
  | .closed => s

end Session

/-- A step of the stream, or a call of anyone else. -/
inductive Input
  | go (turn : Turn)
  | call (action : Action)
  deriving DecidableEq, Repr

/-- The stream goes on, or somebody else calls the store. -/
def Session.step (hashToken : String → TokenHash)
    (request : StreamRequest) (s : Session) : Input → Session
  | .go turn => s.advance hashToken request turn
  | .call action => { s with db := apply s.db action }

/-- A stream that is opened some time. -/
def Session.init : Session := { db := Db.init }

end StreamBrew.Alert
