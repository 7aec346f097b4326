/-
The collector of a Twitch chat: TwitchProvider.Stream.

# Sessions

A session is a socket that is welcomed and for which a chat subscription
is requested. Before the server closes a session it names another URL,
and the session that is opened there takes over the subscription. Until
it is welcomed, a goroutine of its own reads on from the session before
it (`Previous`); closing that one cancels its context and waits for it.

# The component

The two goroutines and the consumer of the events run at once. Every
read, dial, request and every send on a channel is a step of its own, and
its outcome is the environment's. A send ends when the consumer takes the
event, or when the sender's context is done. A socket sends at most one
welcome. The log records what the sessions did; sockets are numbered as
they are opened. Timers are not modelled: a read that times out is a read
that fails.
-/
import StreamBrew.Lib.Run
import StreamBrew.Chat.Refresh
import StreamBrew.Chat.StreamEvent

namespace StreamBrew.Chat.Twitch

open Alert (Time)

-- ================================== decoding

/-- The payload of a message notification. -/
structure NotificationPayload where
  messageID : String
  chatterUserID : String
  chatterUserName : String
  text : String
  deriving DecidableEq, Repr

/-- A text message of a socket that is JSON: its type, its timestamp if
it is a time, and what its payload decodes to for each type. -/
structure Envelope where
  messageType : String
  messageTimestamp : Option Time := none
  welcome : Option String := none
  reconnect : Option String := none
  revocation : Option (String × String) := none
  notification : Option NotificationPayload := none
  deriving DecidableEq, Repr

/-- What an envelope says. -/
inductive TwitchEvent
  | welcome (sessionID : String)
  | reconnect (reconnectURL : String)
  | revocation (reason broadcasterID : String)
  | message (messageID authorID author text : String) (occurredAt : Time)
  deriving DecidableEq, Repr

/-- decodeTwitchEvent: `none` where the body is invalid, and `some none`
where it is to be ignored. -/
def decodeTwitchEvent (body : Option Envelope) : Option (Option TwitchEvent) :=
  body.bind fun envelope =>
    if envelope.messageType = "" then none
    else if envelope.messageType = "session_keepalive" then some none
    else if envelope.messageType = "session_welcome" then
      (envelope.welcome.filter (· ≠ "")).map fun id => some (.welcome id)
    else if envelope.messageType = "session_reconnect" then
      (envelope.reconnect.filter (· ≠ "")).map fun url => some (.reconnect url)
    else if envelope.messageType = "revocation" then
      (envelope.revocation.filter fun p => p.1 ≠ "" ∧ p.2 ≠ "").map
        fun p => some (.revocation p.1 p.2)
    else if envelope.messageType = "notification" then
      (envelope.notification.filter fun p => p.messageID ≠ ""
        ∧ p.chatterUserID ≠ "" ∧ p.chatterUserName ≠ "").bind fun p =>
          envelope.messageTimestamp.map fun occurredAt =>
            some (.message p.messageID p.chatterUserID p.chatterUserName
              p.text occurredAt)
    else some none

/-- twitchMessageEvent. -/
def twitchMessageEvent (source : StreamSource)
    (messageID authorID author text : String) (occurredAt : Time) :
    StreamEvent :=
  .ofMessage
    { id := messageID
      sourceID := source.sourceID
      connectionID := source.connectionID
      provider := "twitch"
      author := { id := authorID, displayName := author }
      text, occurredAt }

/-- The error of createTwitchSubscription; no status where there was no
response. -/
def subscriptionError (status : Option Nat) : Option ProviderError :=
  if ∃ code ∈ status, 200 ≤ code ∧ code < 300 then none
  else some (operationError "Twitch rejected the chat subscription" status)

/-- Where a session begins. -/
def twitchEventSubURL : String := "wss://eventsub.wss.twitch.tv/ws"

-- ==================================== stages

/-- The variables of readTwitchSocket. -/
structure Session where
  socket : Nat
  subscribed : Bool := false
  deriving DecidableEq, Repr

/-- What follows once an error has been sent. -/
inductive After
  | reads (session : Session)
  | leaves (session : Session)
  | waits
  | ends
  deriving DecidableEq, Repr

/-- What follows once the previous session is closed. -/
inductive Release
  | welcomed (session : Session)
  | undialed
  | left (session : Session) (nextURL : Option String)
  | ended
  deriving DecidableEq, Repr

/-- Where runTwitchSessions is. -/
inductive Stage
  | connecting
  | dialing
  | reading (session : Session)
  | subscribing (session : Session)
  | sending (session : Session) (event : StreamEvent)
  | failing (error : ProviderError) (after : After)
  | releasing (release : Release)
  | waiting
  | ended
  deriving DecidableEq, Repr

/-- Where the goroutine of a previous session is. -/
inductive PreviousStage
  | reading
  | sending (event : StreamEvent)
  | done
  deriving DecidableEq, Repr

/-- twitchPreviousSession. -/
structure Previous where
  socket : Nat
  cancelled : Bool := false
  stage : PreviousStage := .reading
  deriving DecidableEq, Repr

/-- What the stream did with its sockets. -/
inductive Event
  | dialed (socket : Option Nat) (url : String)
  | welcomed (socket : Nat) (sessionID : String)
  | requested (socket : Nat) (sessionID : String)
  | accepted (socket : Nat)
  | notified (socket : Nat) (reconnectURL : String)
  | read (socket : Nat) (message : StreamEvent)
  | emitted (socket : Nat) (event : StreamEvent)
  deriving DecidableEq, Repr

/-- The goroutines of a stream, and its log. -/
structure System where
  stage : Stage := .connecting
  reconnectURL : String := twitchEventSubURL
  previous : Option Previous := none
  /-- the context of the stream is done -/
  done : Bool := false
  dials : Nat := 0
  /-- the open sockets -/
  sockets : List Nat := []
  /-- the sockets that have sent their welcome -/
  greeted : List Nat := []
  log : List Event := []
  deriving DecidableEq, Repr

/-- The steps of the goroutines, and the answers they get. -/
inductive Action
  | cancel
  | dial (ok : Bool)
  | read (body : Option (Option Envelope))
  | subscription (status : Option Nat)
  | consume
  | abandon
  | release
  | wait
  | stop
  | readPrevious (body : Option (Option Envelope))
  | consumePrevious
  | dropPrevious
  deriving DecidableEq, Repr

-- ===================================== steps

section

variable (source : StreamSource)

/-- previous.close(), up to where it waits. -/
def Previous.cancel (p : Previous) : Previous := { p with cancelled := true }

/-- The reader of the previous socket has returned. -/
def Previous.isDone (p : Previous) : Bool := p.stage = .done

namespace System

/-- The previous session is being closed. -/
def close (release : Release) (s : System) : System :=
  { s with
    previous := s.previous.map Previous.cancel
    stage := .releasing release }

/-- readTwitchSocket returns. -/
def leave (session : Session) (nextURL : Option String) (s : System) :
    System :=
  s.close (.left session nextURL)

/-- The stream reports an operation error. -/
def fail (detail : String) (after : After) (s : System) : System :=
  { s with stage := .failing (operationError detail none) after }

/-- A session goes live. -/
def subscribed (session : Session) (s : System) : System :=
  { s with
    stage := .sending { session with subscribed := true }
      (.ofState source "live") }

/-- A socket is dialed, where the session is to go on. -/
def dial (ok : Bool) (s : System) : System :=
  if ok then
    { s with
      stage := .reading { socket := s.dials }
      dials := s.dials + 1
      sockets := s.sockets ++ [s.dials]
      log := s.log ++ [.dialed (some s.dials) s.reconnectURL] }
  else
    ({ s with
      log := s.log ++ [.dialed none s.reconnectURL] } : System).close .undialed

/-- The events of a session. -/
def receive (session : Session) (s : System) : TwitchEvent → System
  | .welcome sessionID =>
      let log := s.log ++ [.welcomed session.socket sessionID]
      let greeted := session.socket :: s.greeted
      if s.previous = none then
        { s with
          stage := .subscribing session
          greeted
          log := log ++ [.requested session.socket sessionID] }
      else ({ s with log, greeted } : System).close (.welcomed session)
  | .reconnect reconnectURL =>
      ({ s with
        log :=
          s.log ++ [.notified session.socket reconnectURL] } : System).leave
          session (some reconnectURL)
  | .revocation reason _ =>
      { s with
        stage := .failing { type := .unavailable, detail := reason }
          (.reads session) }
  | .message messageID authorID author text occurredAt =>
      let event := twitchMessageEvent source messageID authorID author text
        occurredAt
      { s with
        stage := .sending session event
        log := s.log ++ [.read session.socket event] }

/-- A read of the session; a second welcome does not come. -/
def read (session : Session) (body : Option (Option Envelope)) (s : System) :
    System :=
  match body with
  | none =>
      if s.done then s.leave session none
      else s.fail "Twitch chat connection failed" (.leaves session)
  | some body =>
      match decodeTwitchEvent body with
      | none => s.fail "Twitch chat connection failed" (.leaves session)
      | some none => s
      | some (some (.welcome sessionID)) =>
          if session.socket ∈ s.greeted then s
          else s.receive source session (.welcome sessionID)
      | some (some event) => s.receive source session event

/-- The subscription request was answered. -/
def subscription (session : Session) (status : Option Nat) (s : System) :
    System :=
  match subscriptionError status with
  | some error => { s with stage := .failing error (.leaves session) }
  | none => ({ s with
      log := s.log ++ [.accepted session.socket] } : System).subscribed source
        session

/-- An error was sent, or the stream is done. -/
def failed (after : After) (s : System) : System :=
  match after with
  | .reads session => { s with stage := .reading session }
  | .leaves session => s.leave session none
  | .waits => { s with stage := .waiting }
  | .ends => { s with stage := .ended }

/-- The loop of runTwitchSessions after a session. -/
def next (session : Session) (nextURL : Option String) (s : System) :
    System :=
  if nextURL.isSome ∧ session.subscribed then
    { s with
      stage := .dialing
      previous := some { socket := session.socket }
      reconnectURL := nextURL.getD twitchEventSubURL }
  else
    let s := { s with
      previous := none
      sockets := s.sockets.erase session.socket }
    if s.done then { s with stage := .ended }
    else if nextURL.isSome then
      { s with
        stage := .dialing
        reconnectURL := nextURL.getD twitchEventSubURL }
    else { s with stage := .waiting }

/-- The previous session is closed. -/
def release (r : Release) (s : System) : System :=
  if s.previous.all Previous.isDone then
    match r with
    | .welcomed session => s.subscribed source session
    | .undialed =>
        ({ s with previous := none } : System).fail
          "Twitch chat connection failed" .waits
    | .left session nextURL => s.next session nextURL
    | .ended => { s with previous := none, stage := .ended }
  else s

/-- The goroutine of the previous session returns. -/
def finishPrevious (p : Previous) (s : System) : System :=
  { s with
    previous := some { p with stage := .done }
    sockets := s.sockets.erase p.socket }

/-- A read of the previous session. -/
def readPrevious (p : Previous) (body : Option (Option Envelope))
    (s : System) : System :=
  match body with
  | none => s.finishPrevious p
  | some body =>
      match decodeTwitchEvent body with
      | some (some (.message messageID authorID author text occurredAt)) =>
          let event := twitchMessageEvent source messageID authorID author
            text occurredAt
          { s with
            previous := some { p with stage := .sending event }
            log := s.log ++ [.read p.socket event] }
      | _ => s

/-- The steps of runTwitchSessions. -/
def stepMain (s : System) : Action → System
  | .dial ok =>
      match s.stage with
      | .dialing => s.dial ok
      | _ => s
  | .read body =>
      match s.stage with
      | .reading session => s.read source session body
      | _ => s
  | .subscription status =>
      match s.stage with
      | .subscribing session => s.subscription source session status
      | _ => s
  | .consume =>
      match s.stage with
      | .connecting => { s with stage := .dialing }
      | .sending session event =>
          { s with
            stage := .reading session
            log := s.log ++ [.emitted session.socket event] }
      | .failing _ after => s.failed after
      | _ => s
  | .abandon =>
      if s.done then
        match s.stage with
        | .connecting => { s with stage := .dialing }
        | .sending session _ => { s with stage := .reading session }
        | .failing _ after => s.failed after
        | _ => s
      else s
  | .release =>
      match s.stage with
      | .releasing r => s.release source r
      | _ => s
  | .wait =>
      match s.stage with
      | .waiting =>
          { s with stage := .dialing, reconnectURL := twitchEventSubURL }
      | _ => s
  | .stop =>
      if s.done then
        match s.stage with
        | .dialing => s.close .ended
        | .reading session => s.leave session none
        | .waiting => { s with stage := .ended }
        | _ => s
      else s
  | _ => s

/-- The steps of the goroutine of the previous session; its context is
done when it is cancelled or when the stream is done. -/
def stepPrevious (p : Previous) (s : System) : Action → System
  | .readPrevious body =>
      match p.stage with
      | .reading => s.readPrevious source p body
      | _ => s
  | .consumePrevious =>
      match p.stage with
      | .sending event =>
          { s with
            previous := some { p with stage := .reading }
            log := s.log ++ [.emitted p.socket event] }
      | _ => s
  | .dropPrevious =>
      match p.stage with
      | .sending _ =>
          if p.cancelled || s.done then
            { s with previous := some { p with stage := .reading } }
          else s
      | _ => s
  | _ => s

/-- One step of the stream, its readers or its environment. -/
def step (s : System) : Action → System
  | .cancel => { s with done := true }
  | .readPrevious body =>
      match s.previous with
      | none => s
      | some p => s.stepPrevious source p (.readPrevious body)
  | .consumePrevious =>
      match s.previous with
      | none => s
      | some p => s.stepPrevious source p .consumePrevious
  | .dropPrevious =>
      match s.previous with
      | none => s
      | some p => s.stepPrevious source p .dropPrevious
  | a => s.stepMain source a

/-- Stream before runTwitchSessions. -/
def init : System :=
  if source.accessToken = "" ∨ source.refreshToken = "" then
    { stage := .failing
        { type := .unauthorized, detail := "Twitch authorization is required" }
        .ends }
  else {}

end System

end

end StreamBrew.Chat.Twitch
