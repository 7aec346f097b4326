/-
The listener for StreamElements tips: Source.Run over Astro sockets.

# Sessions

A session is one socket: it is welcomed, asks for the tips of a room with
a nonce of its own, and is subscribed by the response. Before the server
closes a socket it gives a token; the next socket is dialed with it, and
takes over the subscription where there was one.

# The component

Run and runSession are one goroutine. Every dial, read, write, call of
`emit` and wait is a step, and its outcome is the environment's; the
context may be done at any time. The log records every dial with its
`reconnect_token` parameter (the address it is added to is a constant),
every message that was read, every subscription that was asked for and
every tip that was given to `emit`. Timers are not modelled: a deadline is
a read or a write that fails.
-/
import StreamBrew.Alert.Domain
import StreamBrew.Videos.Money

namespace StreamBrew.StreamElements

open Alert (Time trimSpace)

-- ====================================== tips

/-- A tip as it is received; an amount is a string or a number. -/
structure RawTip where
  id : String
  channel : String
  username : Option String := none
  message : Option String := none
  amount : String
  currency : String
  createdAt : String
  deriving DecidableEq, Repr

/-- A donation as the integration hands it on. -/
structure Donation where
  sourceDonationID : String
  author : Option String
  message : Option String
  amount : String
  currency : String
  sourceCreatedAt : String
  occurredAt : Time
  deriving DecidableEq, Repr

/-- Go's `strings.ToUpper`, where the result is a currency: no letter
but these becomes one of A to Z. -/
def toUpper (c : Char) : Char :=
  if c = 'ı' then 'I' else if c = 'ſ' then 'S' else c.toUpper

/-- `^[A-Z]{3}$` -/
def currencyPattern (currency : String) : Bool :=
  currency.toList.length = 3
    && currency.toList.all fun c => 'A' ≤ c && c ≤ 'Z'

/-- Postgres has no texts with a zero character. -/
def donorText (value : Option String) : Option String :=
  value.map fun text => String.ofList (text.toList.filter (· ≠ '\x00'))

/-- rawTip.donation; `parseTime` is `time.Parse(time.RFC3339Nano, ·)`. -/
def RawTip.donation (parseTime : String → Option Time) (tip : RawTip)
    (channelID : String) : Option Donation :=
  if tip.id = "" ∨ tip.channel ≠ channelID then none
  else
    let currency := String.ofList
      ((trimSpace tip.currency).toList.map toUpper)
    if !currencyPattern currency then none
    else
      (Money.normalizeDonationAmount tip.amount.toList).bind fun amount =>
        (parseTime tip.createdAt).map fun occurredAt =>
          { sourceDonationID := tip.id
            author := donorText tip.username
            message := donorText tip.message
            amount := String.ofList amount
            currency
            sourceCreatedAt := tip.createdAt
            occurredAt }

-- ================================== messages

/-- The data of a response. -/
structure SubscriptionResponse where
  topic : String
  room : String
  deriving DecidableEq, Repr

/-- astroEnvelope, with what its data decodes to for each type; `none`
where it does not decode. -/
structure Envelope where
  type : String
  nonce : String := ""
  topic : String := ""
  room : String := ""
  error : String := ""
  clientID : Option String := none
  response : Option SubscriptionResponse := none
  tip : Option RawTip := none
  reconnectToken : Option String := none
  deriving DecidableEq, Repr

/-- The only topic that is subscribed to. -/
def tipsTopic : String := "channel.tips"

/-- What Run asks of an error. -/
inductive Failure
  | unauthorized
  | permanent
  | other
  deriving DecidableEq, Repr

/-- What an error code of the server means for the listener. -/
def astroResponseError (code : String) : Failure :=
  if code = "err_unauthorized" then .unauthorized
  else if code = "err_bad_request" ∨ code = "invalid_message_type" then
    .permanent
  else if code = "err_internal_error" ∨ code = "err_deadline_exceeded"
      ∨ code = "rate_limit_exceeded" then .other
  else .permanent

-- ==================================== stages

/-- The variables of runSession; `room` is that of its result. -/
structure Session where
  requestedRoom : String
  restored : Bool
  activeRoom : String
  subscribed : Bool := false
  emitted : Bool := false
  room : String := ""
  subscribeNonce : String := ""
  welcomeReceived : Bool := false
  deriving DecidableEq, Repr

/-- What a session leaves behind for the next one. -/
structure SessionResult where
  subscribed : Bool := false
  emitted : Bool := false
  reconnectToken : String := ""
  room : String := ""
  deriving DecidableEq, Repr

/-- What the session has to leave behind so far. -/
def Session.result (x : Session) : SessionResult :=
  { subscribed := x.subscribed, emitted := x.emitted, room := x.room }

/-- Where Run is; `ended` has its error, and whether that was
authorized before. -/
inductive Stage
  | dialing
  | reading (session : Session)
  | drawing (session : Session)
  | writing (session : Session)
  | emitting (session : Session)
  | waiting
  | ended (error : Option (Failure × Bool))
  deriving DecidableEq, Repr

/-- What the listener did with its socket. -/
inductive Event
  | dialed (reconnectToken : String)
  | received (envelope : Envelope)
  | requested (nonce room : String)
  | emitted (donation : Donation)
  deriving DecidableEq, Repr

/-- The listener, its session and its log. -/
structure System where
  stage : Stage := .dialing
  reconnectToken : String := ""
  restoreSubscription : Bool := false
  authorized : Bool := false
  room : String
  /-- the context is done -/
  done : Bool := false
  log : List Event := []
  deriving DecidableEq, Repr

/-- The listener's steps, with the answers they get. -/
inductive Action
  | cancel
  | dial (error : Option Failure)
  | read (body : Option (Option Envelope))
  | nonce (value : Option String)
  | write (ok : Bool)
  | emit (error : Option Failure)
  | wait (ok : Bool)
  | stop
  deriving DecidableEq, Repr

-- ===================================== steps

section

variable (parseTime : String → Option Time)

namespace System

/-- Run after a session. -/
def finish (result : SessionResult) (error : Option Failure) (s : System) :
    System :=
  let s := { s with
    room := if result.room ≠ "" then result.room else s.room
    authorized := s.authorized || result.subscribed }
  if s.done then { s with stage := .ended none }
  else if error = some .unauthorized then
    { s with stage := .ended (some (.unauthorized, s.authorized)) }
  else if error = some .permanent then
    { s with stage := .ended (some (.permanent, false)) }
  else if result.reconnectToken ≠ "" then
    { s with
      stage := .dialing
      reconnectToken := result.reconnectToken
      restoreSubscription := result.subscribed }
  else if s.reconnectToken ≠ "" then
    { s with
      stage := .waiting
      reconnectToken := ""
      restoreSubscription := false }
  else { s with stage := .waiting }

/-- A dial with the current token. -/
def dial (error : Option Failure) (s : System) : System :=
  let log := s.log ++ [.dialed s.reconnectToken]
  match error with
  | some failure => ({ s with log } : System).finish {} (some failure)
  | none =>
      { s with
        stage := .reading
          { requestedRoom := s.room
            restored := s.restoreSubscription
            activeRoom := s.room }
        log }

/-- runSession fails. -/
def fail (x : Session) (error : Failure) (s : System) : System :=
  s.finish x.result (some error)

/-- The first message of a server opens the session. -/
def welcome (x : Session) (envelope : Envelope) (s : System) : System :=
  if x.welcomeReceived then s
  else if envelope.clientID.getD "" = "" then s.fail x .other
  else
    let x := { x with welcomeReceived := true }
    if x.restored then
      { s with
        stage := .reading
          { x with subscribed := true, room := x.activeRoom } }
    else { s with stage := .drawing x }

/-- The server answers a command. -/
def response (x : Session) (envelope : Envelope) (s : System) : System :=
  if envelope.error ≠ "" then
    if envelope.nonce = x.subscribeNonce ∧ x.subscribeNonce ≠ "" then
      s.fail x (astroResponseError envelope.error)
    else if envelope.nonce = "" ∧ envelope.error = "rate_limit_exceeded" then
      s.fail x (astroResponseError envelope.error)
    else s
  else if x.subscribed ∨ x.subscribeNonce = ""
      ∨ envelope.nonce ≠ x.subscribeNonce then s
  else
    match envelope.response with
    | none => s.fail x .other
    | some response =>
        if response.topic ≠ tipsTopic ∨ response.room = "" then
          s.fail x .other
        else
          { s with
            stage := .reading
              { x with
                activeRoom := response.room
                room := response.room
                subscribed := true } }

/-- A tip comes in. -/
def message (x : Session) (envelope : Envelope) (s : System) : System :=
  if envelope.topic ≠ tipsTopic ∨ envelope.room ≠ x.activeRoom then s
  else if !x.subscribed then s.fail x .other
  else
    match envelope.tip.bind (·.donation parseTime x.activeRoom) with
    | none => s.fail x .other
    | some donation =>
        { s with
          stage := .emitting x
          log := s.log ++ [.emitted donation] }

/-- The server asks for another socket, and gives a token for it. -/
def reconnect (x : Session) (envelope : Envelope) (s : System) : System :=
  if envelope.reconnectToken.getD "" = "" then s.fail x .other
  else
    s.finish
      { x.result with
        reconnectToken := envelope.reconnectToken.getD ""
        room := x.activeRoom }
      none

/-- A message of the socket. -/
def receive (x : Session) (envelope : Envelope) (s : System) : System :=
  let s := { s with log := s.log ++ [.received envelope] }
  if envelope.type = "welcome" then s.welcome x envelope
  else if envelope.type = "response" then s.response x envelope
  else if envelope.type = "message" then s.message parseTime x envelope
  else if envelope.type = "reconnect" then s.reconnect x envelope
  else s

/-- A read of the socket: it fails, it gives what is no envelope, or it
gives one. -/
def read (x : Session) (body : Option (Option Envelope)) (s : System) :
    System :=
  match body with
  | none => s.fail x .other
  | some none => s.fail x .other
  | some (some envelope) =>
      if envelope.type = "" then s.fail x .other
      else s.receive parseTime x envelope

/-- The nonce of a subscription, and the request that is written. -/
def nonce (x : Session) (value : Option String) (s : System) : System :=
  if value.getD "" = "" then s.fail x .other
  else
    { s with
      stage := .writing { x with subscribeNonce := value.getD "" }
      log := s.log ++ [.requested (value.getD "") x.requestedRoom] }

/-- One step of the listener. -/
def step (s : System) : Action → System
  | .cancel => { s with done := true }
  | .dial error =>
      match s.stage with
      | .dialing => s.dial error
      | _ => s
  | .read body =>
      match s.stage with
      | .reading x => s.read parseTime x body
      | _ => s
  | .nonce value =>
      match s.stage with
      | .drawing x => s.nonce x value
      | _ => s
  | .write ok =>
      match s.stage with
      | .writing x =>
          if ok then { s with stage := .reading x } else s.fail x .other
      | _ => s
  | .emit error =>
      match s.stage with
      | .emitting x =>
          match error with
          | some failure => s.fail x failure
          | none => { s with stage := .reading { x with emitted := true } }
      | _ => s
  | .wait ok =>
      match s.stage with
      | .waiting =>
          if ok then { s with stage := .dialing }
          else if s.done then { s with stage := .ended none }
          else { s with stage := .ended (some (.other, false)) }
      | _ => s
  | .stop =>
      if s.done then
        match s.stage with
        | .dialing => { s with stage := .ended none }
        | .reading x => s.finish x.result none
        | _ => s
      else s

/-- Run before its loop. -/
def init (accessToken channelID : String) : System :=
  if accessToken = "" ∨ trimSpace channelID = "" then
    { stage := .ended (some (.permanent, false)), room := "" }
  else { room := trimSpace channelID }

end System

end

end StreamBrew.StreamElements
