/-
The overlay pages and the alert service as one system: any number of
pages, each with its token, the store, and an event stream for every
connection that a page has opened.

# Messages

A request is served once at most, at any time after it was sent, also
when its page has given it up. An answer may reach its page late or
never, and an attempt may fail at any time. The events of a stream are
delivered in order.

# Clocks and names

The service reads one clock, which does not go back, when it makes a
call; only the claim of a stream goes by the reading of its poll. The
ids that it draws for players and playbacks are new.

# Scheduling

An input to a page is a handler with its commit: on every page, React
commits an update and runs its effects before the next handler runs.

# Everyone else

All other store calls may come at any time: donations, workers,
dashboards, rotations of a token and sweeps.
-/
import StreamBrew.Alert.Overlay

namespace StreamBrew.Alert

/-- A call that only pages and their streams make. -/
def Action.ofPlayer : Action → Bool
  | .openPlayer .. | .heartbeat .. | .releasePlayer .. | .streamState ..
  | .claimPlayback .. | .startPlayback .. | .finishPlayback ..
  | .recordPlaybackDiagnostic .. => true
  | _ => false

/-- The playback id that a call draws. -/
def Action.drawn : Action → List PlaybackID
  | .enqueueIncoming _ _ _ _ draw | .createTest _ _ draw
  | .replay _ _ _ draw => [draw.playbackID]
  | _ => []

namespace Overlay

-- =============================== the service

/-- What the service answers: the player that was opened, or nothing more. -/
inductive Reply
  | opened (player : OpenedPlayer)
  | done
  deriving DecidableEq, Repr

/-- What a request draws. -/
def Request.drawn (candidateID : PlayerID) : Request → List PlayerID
  | .openOverlay => [candidateID]
  | _ => []

/-- The answer to an acknowledgement. -/
def acknowledged : Outcome Unit → Option Reply × Db
  | (.ok (), db) => (some .done, db)
  | (.error _, db) => (none, db)

/-- OpenPlayer, Heartbeat, Started, Finished and ReportDiagnostic of the
application; without an answer the request has failed. -/
def Request.serve (hashToken : String → TokenHash) (token : String)
    (candidateID : PlayerID) (now : Time) (db : Db) :
    Request → Option Reply × Db
  | .openOverlay =>
      if !validToken token then (none, db)
      else
        match openPlayer (hashToken token) candidateID now db with
        | (.ok (_, player), db) => (some (.opened player), db)
        | (.error _, db) => (none, db)
  | .heartbeat playerID generation active visible =>
      if !validToken token || generation ≤ 0 then (none, db)
      else acknowledged (Alert.heartbeat (hashToken token) playerID
        generation active visible now db)
  | .started playerID generation playbackID =>
      if !validToken token || generation ≤ 0 then (none, db)
      else acknowledged (startPlayback (hashToken token) playerID
        generation playbackID now db)
  | .finished playerID generation playbackID outcome =>
      if !validToken token || generation ≤ 0 then (none, db)
      else acknowledged (finishPlayback (hashToken token) playerID
        generation playbackID outcome now db)
  | .diagnostic playerID generation playbackID code =>
      if !validToken token || generation ≤ 0 then (none, db)
      else acknowledged (recordPlaybackDiagnostic (hashToken token)
        playerID generation playbackID code now db)

-- ================================ the system

/-- The stream of a connection, and what it has emitted and the page has
not got yet. -/
structure Connection where
  stream : Stream := {}
  queue : List StreamEvent := []

/-- A request is named by its page and its number. -/
structure Screens where
  db : Db := Db.init
  clock : Time := 0
  pages : Nat → Page := fun _ => {}
  connections : Nat → Nat → Connection := fun _ _ => {}
  served : List (Nat × Nat) := []
  replies : List ((Nat × Nat) × Reply) := []
  players : List PlayerID := []
  playbacks : List PlaybackID := []

/-- What may happen. -/
inductive Happening
  | tick (elapsed : Nat)
  | input (page : Nat) (input : Input)
  | serve (page number : Nat) (candidateID : PlayerID)
  | answer (page number : Nat)
  | turn (page stream : Nat) (turn : Turn)
  | deliver (page stream : Nat)
  | call (action : Action)
  deriving DecidableEq, Repr

/-- An input that does not come from the service. -/
def Input.own : Input → Bool
  | .opened _ _ | .done _ | .event _ _ => false
  | _ => true

/-- The notices of a turn, which stand newest first, as events. -/
def emissions (log : List Notice) : List StreamEvent :=
  log.reverse.filterMap fun
    | .emitted event => some event
    | _ => none

namespace Screens

variable (hashToken : String → TokenHash) (tokens : Nat → String)

/-- An input of one page. -/
def onPage (page : Nat) (input : Input) (s : Screens) : Screens :=
  { s with
    pages := Function.update s.pages page ((s.pages page).step input) }

/-- The event stream of a page, by its number. -/
def connect (page stream : Nat) (c : Connection) (s : Screens) :
    Screens :=
  { s with
    connections := Function.update s.connections page
      (Function.update (s.connections page) stream c) }

/-- The service serves a request of a page, once. -/
def serve (page number : Nat) (candidateID : PlayerID)
    (request : Request) (s : Screens) : Screens :=
  let served := request.serve hashToken (tokens page) candidateID s.clock
    s.db
  { s with
    db := served.2
    served := (page, number) :: s.served
    players := request.drawn candidateID ++ s.players
    replies := served.1.toList.map (fun reply => ((page, number), reply))
      ++ s.replies }

/-- A turn of a stream; the clock reading is that of the system. -/
def turn (page stream : Nat) (identity : OpenedPlayer) (turn : Turn)
    (s : Screens) : Screens :=
  let connection := s.connections page stream
  let next := Session.advance hashToken
    ⟨tokens page, identity.playerID, identity.generation⟩
    { turn with now := s.clock }
    { db := s.db, stream := connection.stream }
  { s with db := next.db }.connect page stream
    ⟨next.stream, connection.queue ++ emissions next.log⟩

/-- One happening of the whole system. -/
def step (s : Screens) : Happening → Screens
  | .tick elapsed => { s with clock := s.clock + elapsed }
  | .input page input => if input.own then s.onPage page input else s
  | .serve page number candidateID =>
      match (s.pages page).sent[number]? with
      | none => s
      | some request =>
          if (page, number) ∈ s.served
              ∨ ∃ playerID ∈ request.drawn candidateID,
                playerID ∈ s.players then s
          else s.serve hashToken tokens page number candidateID request
  | .answer page number =>
      match s.replies.lookup (page, number) with
      | none => s
      | some (.opened player) => s.onPage page (.opened number player)
      | some .done => s.onPage page (.done number)
  | .turn page stream turn =>
      match (s.pages page).connected[stream]? with
      | none => s
      | some identity => s.turn hashToken tokens page stream identity turn
  | .deliver page stream =>
      match (s.connections page stream).queue with
      | [] => s
      | event :: queue =>
          (s.connect page stream
            { s.connections page stream with queue }).onPage page
              (.event stream event)
  | .call action =>
      if action.ofPlayer = true
          ∨ ∃ playbackID ∈ action.drawn, playbackID ∈ s.playbacks then s
      else { s with
        db := apply s.db action
        playbacks := action.drawn ++ s.playbacks }

end Screens

end Overlay

end StreamBrew.Alert
