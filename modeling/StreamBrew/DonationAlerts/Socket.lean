/-
The socket of the DonationAlerts listener: socketSession.run.

# Positions

A channel of the server is a stream: it has an epoch, and each of its
publications has a generation and a sequence in it. A session retains the
position it has come to. The next session gives it in its subscribe
command, and the reply has the publications after it, newest first.

# The session

Every message is handled before the next is read, so handling one is a
function of the session. The documents of messages are a type of their
own and `Codec` says what they decode to. A reply is given with the kind
of the command it answers; the numbers of commands are not kept. Timers
and log lines are left out: a refresh, a ping, a timeout and a failed
read may come at any moment, and are in the system of `Stream`.

`Call` and `Start` are about the session and not of it: every call of
`emit` with its outcome, and the last reply that did not recover.
-/
import StreamBrew.Lib.Pass

namespace StreamBrew.DonationAlerts.Socket

open Pass

-- ================================== messages

/-- Where in the server's stream the session stands. -/
structure StreamPosition where
  epoch : String := ""
  sequence : UInt32 := 0
  generation : UInt32 := 0
  valid : Bool := false
  deriving DecidableEq, Repr

/-- A publication of the channel. -/
structure SocketPublication (Json : Type) where
  sequence : UInt32
  generation : UInt32
  data : Option Json
  deriving DecidableEq, Repr

/-- The commands that await a reply. -/
inductive CommandKind
  | connect
  | subscribe
  | ping
  | refresh
  | subRefresh
  deriving DecidableEq, Repr

/-- The error of a reply. -/
structure ProtocolError where
  code : UInt32
  message : String
  deriving DecidableEq, Repr

/-- The result of connect. -/
structure ConnectResult where
  client : String
  version : String
  expires : Bool := false
  ttl : UInt32 := 0
  deriving DecidableEq, Repr

/-- subscriptionResult, its publications before they are decoded. -/
structure SubscriptionResult (Json : Type) where
  expires : Bool := false
  ttl : UInt32 := 0
  recoverable : Bool
  sequence : UInt32
  generation : UInt32
  epoch : String
  publications : List Json
  recovered : Bool
  deriving DecidableEq, Repr

/-- The result of a refreshed token. -/
structure RefreshResult where
  expires : Bool
  ttl : UInt32
  deriving DecidableEq, Repr

/-- A push of the server. -/
structure SocketPush (Json : Type) where
  type : Option Int := none
  channel : String
  data : Option Json
  deriving DecidableEq, Repr

/-- The data of a disconnect push. -/
structure SocketDisconnect where
  reason : String
  reconnect : Bool
  deriving DecidableEq, Repr

/-- What documents decode to; `none` where they do not. `donation` is
decodeDonation. -/
structure Codec (Json Donation : Type) where
  connect : Json → Option ConnectResult
  subscription : Json → Option (SubscriptionResult Json)
  refresh : Json → Option RefreshResult
  push : Json → Option (SocketPush Json)
  publication : Json → Option (SocketPublication Json)
  /-- socketUnsubscribe, with its `resubscribe` -/
  unsubscribe : Json → Option Bool
  disconnect : Json → Option SocketDisconnect
  donation : Json → Option Donation

/-- A message: not an object or not a reply, an object without fields, a
reply without an id, or a reply to a command (`none`: to none that is
known). -/
inductive Message (Json : Type)
  | malformed
  | empty
  | push (result : Option Json)
  | reply (command : Option CommandKind) (error : Option ProtocolError)
      (result : Option Json)
  deriving DecidableEq, Repr

/-- The types of pushes, as the protocol numbers them. -/
def pushPublication : Int := 0
/-- Somebody joins the channel. -/
def pushJoin : Int := 1
/-- Somebody leaves it. -/
def pushLeave : Int := 2
/-- The server ends the subscription. -/
def pushUnsubscribe : Int := 3
/-- A message outside of channels. -/
def pushMessage : Int := 4
/-- The server subscribes the client. -/
def pushSubscribe : Int := 5
/-- The server connects the client. -/
def pushConnect : Int := 6
/-- The server ends the connection. -/
def pushDisconnect : Int := 7
/-- The server refreshes the connection. -/
def pushRefresh : Int := 8

/-- Why a session ends. -/
inductive SessionError
  | profile (unauthorized : Bool)
  | dial
  | readerStopped
  | read
  | closed (reason : String) (reconnect : Bool)
  | write (command : CommandKind)
  | timeout (command : CommandKind)
  | token (unauthorized : Bool)
  | invalidMessage
  | command (kind : CommandKind) (error : ProtocolError)
  | missingResult (kind : CommandKind)
  | invalidResult (kind : CommandKind)
  | missingClient
  | missingEpoch
  | refreshTTL (name : String)
  | missingPush
  | invalidPush
  | invalidUnsubscribe
  | cancelled (channel : String) (resubscribe : Bool)
  | invalidDisconnect
  | disconnected (reason : String) (reconnect : Bool)
  | missingData
  | emit
  deriving DecidableEq, Repr

/-- The token is at fault. -/
def SessionError.isUnauthorized : SessionError → Bool
  | .profile unauthorized => unauthorized
  | .token unauthorized => unauthorized
  | _ => false

-- =================================== session

/-- What a session leaves behind for the next one. -/
structure SessionResult where
  subscribed : Bool := false
  emitted : Bool := false
  position : StreamPosition := {}
  deriving DecidableEq, Repr

/-- A call of `emit`: for which publication, and of which epoch. -/
structure Call (Json Donation : Type) where
  epoch : String
  publication : SocketPublication Json
  donation : Donation
  accepted : Bool
  deriving DecidableEq, Repr

/-- The last reply that did not recover: where it has put the position,
the publications that it listed, oldest first, and how many calls of
`emit` came before it. -/
structure Start (Json : Type) where
  position : StreamPosition := {}
  listed : List (SocketPublication Json) := []
  calls : Nat := 0
  deriving DecidableEq, Repr

/-- What runSession and socketSession.run keep in their variables. -/
structure Session (Json Donation : Type) where
  channel : String
  socketClientID : String := ""
  pending : List CommandKind := []
  /-- what a subscribe command has asked to recover from -/
  requested : Option (Option StreamPosition) := none
  result : SessionResult := {}
  calls : List (Call Json Donation) := []
  start : Start Json := {}
  deriving DecidableEq, Repr

/-- The channel of a session of Source.runSession. -/
def donationChannel (userID : String) : String :=
  "$alerts:donation_" ++ userID

/-- What the surroundings do while a message is handled: whether `emit`
succeeds, after the donations it was called with before; the error of the
request for a subscription token, and whether that was for want of
authorization; and whether a command is written. -/
structure Surroundings (Donation : Type) where
  emit : List Donation → Donation → Bool
  tokenError : Option Bool := none
  written : Bool := true

variable {Json Donation : Type}

/-- The donations `emit` was called with. -/
def Session.donations (s : Session Json Donation) : List Donation :=
  s.calls.map (·.donation)

/-- The position to resume from. -/
def Session.position (s : Session Json Donation) : StreamPosition :=
  s.result.position

/-- What a subscribe command asks to recover from. -/
def Session.recoverFrom (s : Session Json Donation) :
    Option StreamPosition :=
  if s.position.valid then some s.position else none

/-- The session stands at another position. -/
def Session.setPosition (position : StreamPosition)
    (s : Session Json Donation) : Session Json Donation :=
  { s with result := { s.result with position } }

/-- The session was subscribed. -/
def Session.setSubscribed (s : Session Json Donation) :
    Session Json Donation :=
  { s with result := { s.result with subscribed := true } }

/-- A call of `emit`, with what came of it. -/
def Session.call (publication : SocketPublication Json) (donation : Donation)
    (accepted : Bool) (s : Session Json Donation) : Session Json Donation :=
  { s with
    result := { s.result with emitted := s.result.emitted || accepted }
    calls := s.calls ++
      [{ epoch := s.position.epoch, publication, donation, accepted }] }

/-- Generations first: the order of a stream. -/
def offset (generation sequence : UInt32) : Nat :=
  generation.toNat * 4294967296 + sequence.toNat

/-- The position as one number. -/
def StreamPosition.offset (position : StreamPosition) : Nat :=
  Socket.offset position.generation position.sequence

/-- The place of the publication as one number. -/
def SocketPublication.offset (publication : SocketPublication Json) : Nat :=
  Socket.offset publication.generation publication.sequence

/-- The position of a publication in the stream of a position. -/
def StreamPosition.at (position : StreamPosition)
    (publication : SocketPublication Json) : StreamPosition :=
  { position with
    sequence := publication.sequence
    generation := publication.generation }

/-- A position is moved only where there is one. -/
def advancePosition (publication : SocketPublication Json)
    (s : Session Json Donation) : Session Json Donation :=
  if !s.position.valid then s
  else s.setPosition (s.position.at publication)

section

variable (codec : Codec Json Donation)
variable (emit : List Donation → Donation → Bool)

/-- emitPublication, with the callback that runSession gives: a donation
that does not decode is an invalidDonationError. -/
def emitPublication (s : Session Json Donation)
    (publication : SocketPublication Json) :
    Session Json Donation × Option SessionError :=
  match publication.data with
  | none => (s, some .missingData)
  | some data =>
      match codec.donation data with
      | none => (advancePosition publication s, none)
      | some donation =>
          if emit s.donations donation then
            (advancePosition publication (s.call publication donation true),
              none)
          else (s.call publication donation false, some .emit)

/-- handlePush, where the push is a publication that decodes. -/
def handlePublication (s : Session Json Donation)
    (publication : SocketPublication Json) :
    Session Json Donation × Option SessionError :=
  if publication.data.isNone then (advancePosition publication s, none)
  else emitPublication codec emit s publication

/-- handlePush, after the push is decoded. -/
def handlePush (s : Session Json Donation) (push : SocketPush Json) :
    Session Json Donation × Option SessionError :=
  let pushType := push.type.getD pushPublication
  if pushType = pushPublication then
    if push.channel = "" then (s, none)
    else if push.channel ≠ s.channel then (s, none)
    else
      match push.data.bind codec.publication with
      | none => (s, none)
      | some publication => handlePublication codec emit s publication
  else if pushType = pushJoin ∨ pushType = pushLeave then (s, none)
  else if pushType = pushUnsubscribe then
    match push.data.bind codec.unsubscribe with
    | none => (s, some .invalidUnsubscribe)
    | some resubscribe => (s, some (.cancelled push.channel resubscribe))
  else if pushType = pushMessage ∨ pushType = pushSubscribe then (s, none)
  else if pushType = pushDisconnect then
    match push.data.bind codec.disconnect with
    | none => (s, some .invalidDisconnect)
    | some advice => (s, some (.disconnected advice.reason advice.reconnect))
  else if pushType = pushConnect ∨ pushType = pushRefresh then (s, none)
  else (s, none)

/-- Whether refreshTimer fails. -/
def refreshFails (expires : Bool) (ttl : UInt32) : Bool :=
  expires && ttl = 0

/-- The position of the reply itself. -/
def SubscriptionResult.baseline (subscribed : SubscriptionResult Json) :
    StreamPosition :=
  { epoch := subscribed.epoch
    sequence := subscribed.sequence
    generation := subscribed.generation
    valid := subscribed.recoverable }

/-- Where the publications of a reply are handled from. -/
def Session.resume (subscribed : SubscriptionResult Json)
    (listed : List (SocketPublication Json)) (s : Session Json Donation) :
    Session Json Donation :=
  if s.position.valid ∧ subscribed.recovered then s
  else
    { s.setPosition
        { epoch := subscribed.baseline.epoch
          valid := subscribed.baseline.valid } with
      start :=
        { position := subscribed.baseline
          listed
          calls := s.calls.length } }

/-- The reply to a subscribe command, after all but its publications is
decoded. -/
def handleSubscribed (s : Session Json Donation)
    (subscribed : SubscriptionResult Json) :
    Session Json Donation × Option SessionError :=
  match subscribed.publications.mapM codec.publication with
  | none => (s, some (.invalidResult .subscribe))
  | some publications =>
      if subscribed.recoverable ∧ subscribed.epoch = "" then
        (s, some .missingEpoch)
      else
        let s := s.setSubscribed
        if refreshFails subscribed.expires subscribed.ttl then
          (s, some (.refreshTTL "subscription"))
        else
          match pass (emitPublication codec emit)
            (s.resume subscribed publications.reverse)
            publications.reverse with
          | (s, some error) => (s, some error)
          | (s, none) => (s.setPosition subscribed.baseline, none)

/-- decodeResult, and what is done with what it gives. -/
def withResult {α : Type} (kind : CommandKind) (decode : Json → Option α)
    (result : Option Json) (s : Session Json Donation)
    (handle : α → Session Json Donation × Option SessionError) :
    Session Json Donation × Option SessionError :=
  match result with
  | none => (s, some (.missingResult kind))
  | some body =>
      match decode body with
      | none => (s, some (.invalidResult kind))
      | some value => handle value

/-- The reply to the connect command: the channel is subscribed to. -/
def handleConnected (surroundings : Surroundings Donation)
    (s : Session Json Donation) (connected : ConnectResult) :
    Session Json Donation × Option SessionError :=
  if connected.client = "" ∨ connected.version = "" then
    (s, some .missingClient)
  else
    let s := { s with socketClientID := connected.client }
    if refreshFails connected.expires connected.ttl then
      (s, some (.refreshTTL "connection"))
    else
      match surroundings.tokenError with
      | some unauthorized => (s, some (.token unauthorized))
      | none =>
          if surroundings.written then
            ({ s with
              pending := .subscribe :: s.pending
              requested := some s.recoverFrom }, none)
          else (s, some (.write .subscribe))

/-- A refreshed token has to last. -/
def handleRefreshed (name : String) (s : Session Json Donation)
    (refreshed : RefreshResult) :
    Session Json Donation × Option SessionError :=
  if refreshFails refreshed.expires refreshed.ttl then
    (s, some (.refreshTTL name))
  else (s, none)

end

/-- One message of the loop of run. -/
def handle (codec : Codec Json Donation)
    (surroundings : Surroundings Donation) (s : Session Json Donation) :
    Message Json → Session Json Donation × Option SessionError
  | .malformed => (s, some .invalidMessage)
  | .empty => (s, none)
  | .push none => (s, some .missingPush)
  | .push (some body) =>
      match codec.push body with
      | none => (s, some .invalidPush)
      | some push => handlePush codec surroundings.emit s push
  | .reply none _ _ => (s, none)
  | .reply (some kind) error result =>
      if kind ∉ s.pending then (s, none)
      else
        let s := { s with pending := s.pending.erase kind }
        match error with
        | some error => (s, some (.command kind error))
        | none =>
            match kind with
            | .connect =>
                withResult kind codec.connect result s
                  (handleConnected surroundings s)
            | .subscribe =>
                withResult kind codec.subscription result s
                  (handleSubscribed codec surroundings.emit s)
            | .ping => (s, none)
            | .refresh =>
                withResult kind codec.refresh result s
                  (handleRefreshed "connection" s)
            | .subRefresh =>
                withResult kind codec.refresh result s
                  (handleRefreshed "subscription" s)

end StreamBrew.DonationAlerts.Socket
