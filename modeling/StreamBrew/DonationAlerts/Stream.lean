/-
Source.Run and a server: the sessions of a listener, one after another,
and the stream of its channel.

# The server

For every epoch the server has a log of publications, in the order of
their positions; it appends to that of its current epoch. It answers a
subscribe command from that log, and from then on pushes every further
publication of the epoch once, in order. A reply that reports recovery
has all publications after the position that was asked for; another may
have any of the log. A channel without recovery has no epoch.

# The listener

A message that was sent waits in the queue of the connection until the
session reads it. What is not about the channel may be sent at any time,
the connection may fail at any time, and the context may be done. The
position is what one session leaves to the next.
-/
import StreamBrew.DonationAlerts.Socket

namespace StreamBrew.DonationAlerts.Socket

variable {Json Donation : Type}

-- ==================================== server

/-- A publication as the server keeps it. -/
structure Published (Json : Type) where
  sequence : UInt32
  generation : UInt32
  document : Json
  deriving DecidableEq, Repr

/-- Its place in the stream. -/
def Published.offset (x : Published Json) : Nat :=
  Socket.offset x.generation x.sequence

/-- The greatest position of a log. -/
def top (log : List (Published Json)) : Nat :=
  (log.getLast?.map (·.offset)).getD 0

/-- The streams of a channel, by their epochs. -/
structure Server (Json : Type) where
  epoch : String := ""
  log : String → List (Published Json) := fun _ => []

/-- A publication is added to the present stream. -/
def Server.publish (x : Published Json) (server : Server Json) :
    Server Json :=
  { server with
    log := fun epoch =>
      if epoch = server.epoch then server.log epoch ++ [x]
      else server.log epoch }

/-- A reply to a request, from the log of an epoch. -/
structure Answers (epoch : String) (log : List (Published Json))
    (requested : Option StreamPosition)
    (subscribed : SubscriptionResult Json) : Prop where
  stream : subscribed.epoch = if subscribed.recoverable then epoch else ""
  baseline : subscribed.recoverable = true →
    subscribed.baseline.offset = top log
  publications : ∀ d ∈ subscribed.publications, d ∈ log.map (·.document)
  recovered : ∀ position, requested = some position →
    subscribed.recovered = true →
      subscribed.recoverable = true ∧ position.epoch = epoch
        ∧ subscribed.publications
          = ((log.filter fun x => position.offset < x.offset).map
            (·.document)).reverse

-- ================================ connection

/-- A connection, with the epoch it was subscribed in and how much of that
epoch's log it was sent. -/
structure Connection (Json : Type) where
  epoch : String := ""
  cursor : Option Nat := none
  queue : List (Message Json) := []

/-- The server sends a message. -/
def Connection.send (message : Message Json) (connection : Connection Json) :
    Connection Json :=
  { connection with queue := connection.queue ++ [message] }

/-- The push of a publication of the channel. -/
def Pushes (codec : Codec Json Donation) (channel : String)
    (x : Published Json) (message : Message Json) : Prop :=
  ∃ body push, message = .push (some body) ∧ codec.push body = some push
    ∧ push.type.getD pushPublication = pushPublication
    ∧ push.channel = channel ∧ push.data = some x.document

/-- A message that neither pushes a publication of the channel nor answers
the subscribe command with a result. -/
def Foreign (codec : Codec Json Donation) (channel : String) :
    Message Json → Prop
  | .push (some body) => ∀ push, codec.push body = some push →
      push.type.getD pushPublication = pushPublication →
        push.channel ≠ channel
  | .reply kind error result => kind = some .subscribe → error = none →
      ∀ body, result = some body → codec.subscription body = none
  | _ => True

-- ================================== listener

/-- Where Source.Run is; `ended` has whether it was for want of
authorization. -/
inductive Stage (Json : Type)
  | connecting
  | session (connection : Connection Json)
  | waiting
  | ended (unauthorized : Bool)

/-- The system; `session` is the last one, where none runs. -/
structure System (Json Donation : Type) where
  server : Server Json := {}
  stage : Stage Json := .connecting
  session : Session Json Donation

/-- A listener that has not connected. -/
def System.init (userID : String) : System Json Donation :=
  { session := { channel := donationChannel userID } }

/-- runSession begins, and its connect command is sent. -/
def Session.next (s : Session Json Donation) : Session Json Donation :=
  { channel := s.channel
    pending := [.connect]
    result := { position := s.position }
    calls := s.calls
    start := s.start }

/-- Run after a session that ended in an error. -/
def System.finish (error : SessionError) (s : System Json Donation) :
    System Json Donation :=
  { s with
    stage := if error.isUnauthorized then .ended true else .waiting }

/-- A session goes on, or ends. -/
def System.after (connection : Connection Json)
    (r : Session Json Donation × Option SessionError)
    (s : System Json Donation) : System Json Donation :=
  match r with
  | (session, none) => { s with session, stage := .session connection }
  | (session, some error) => ({ s with session } : System _ _).finish error

variable (codec : Codec Json Donation)

/-- What the listener, the server and the network may do next. -/
inductive Step : System Json Donation → System Json Donation → Prop
  /-- the profile is read, the socket is dialed -/
  | connect {s : System Json Donation} (hstage : s.stage = .connecting) :
      Step s { s with stage := .session {}, session := s.session.next }
  | refused {s : System Json Donation} (hstage : s.stage = .connecting)
      (error : SessionError) : Step s (s.finish error)
  | read {s : System Json Donation} {connection : Connection Json}
      {message : Message Json} {rest : List (Message Json)}
      (hstage : s.stage = .session connection)
      (hqueue : connection.queue = message :: rest)
      (surroundings : Surroundings Donation) :
      Step s (s.after { connection with queue := rest }
        (handle codec surroundings s.session message))
  /-- a ping, or a refresh whose token was read -/
  | command {s : System Json Donation} {connection : Connection Json}
      (hstage : s.stage = .session connection) {kind : CommandKind}
      (hkind : kind = .ping ∨ kind = .refresh ∨ kind = .subRefresh) :
      Step s { s with
        session := { s.session with pending := kind :: s.session.pending } }
  | fail {s : System Json Donation} {connection : Connection Json}
      (hstage : s.stage = .session connection) (error : SessionError) :
      Step s (s.finish error)
  | wait {s : System Json Donation} (hstage : s.stage = .waiting) :
      Step s { s with stage := .connecting }
  /-- the context is done -/
  | cancel (s : System Json Donation) :
      Step s { s with stage := .ended false }
  | renew (s : System Json Donation) {epoch : String} (hepoch : epoch ≠ "") :
      Step s { s with server := { s.server with epoch } }
  | publish {s : System Json Donation} {x : Published Json}
      (hepoch : s.server.epoch ≠ "")
      (htop : top (s.server.log s.server.epoch) < x.offset)
      (hdocument : ∀ publication,
        codec.publication x.document = some publication →
          publication.sequence = x.sequence
            ∧ publication.generation = x.generation) :
      Step s { s with server := s.server.publish x }
  | answer {s : System Json Donation} {connection : Connection Json}
      (hstage : s.stage = .session connection)
      {requested : Option StreamPosition}
      (hrequested : s.session.requested = some requested)
      (hepoch : s.server.epoch ≠ "")
      (hcursor : connection.cursor = none)
      {body : Json} {subscribed : SubscriptionResult Json}
      (hbody : codec.subscription body = some subscribed)
      (hanswers : Answers s.server.epoch (s.server.log s.server.epoch)
        requested subscribed) :
      Step s { s with
        stage := .session
          { epoch := s.server.epoch
            cursor := some (s.server.log s.server.epoch).length
            queue := connection.queue
              ++ [.reply (some .subscribe) none (some body)] } }
  | push {s : System Json Donation} {connection : Connection Json}
      (hstage : s.stage = .session connection)
      (hepoch : connection.epoch = s.server.epoch)
      {cursor : Nat} (hcursor : connection.cursor = some cursor)
      {x : Published Json}
      (hx : (s.server.log s.server.epoch)[cursor]? = some x)
      {message : Message Json}
      (hmessage : Pushes codec s.session.channel x message) :
      Step s { s with
        stage := .session
          { connection.send message with cursor := some (cursor + 1) } }
  | send {s : System Json Donation} {connection : Connection Json}
      (hstage : s.stage = .session connection) {message : Message Json}
      (hmessage : Foreign codec s.session.channel message) :
      Step s { s with stage := .session (connection.send message) }

/-- The states of all runs of a listener. -/
inductive Reachable (userID : String) : System Json Donation → Prop
  | init : Reachable userID (.init userID)
  | step {s t : System Json Donation} (h : Reachable userID s)
      (hstep : Step codec s t) : Reachable userID t

-- ========================== what is promised

/-- A publication with a donation. -/
def Published.Valid (x : Published Json) : Prop :=
  ∃ publication data donation, codec.publication x.document = some publication
    ∧ publication.data = some data ∧ codec.donation data = some donation

/-- What a listener owes since the last reply that did not recover: what
the stream has after that reply, and what the reply has listed, where it
lists the oldest last. -/
def Start.Owes (start : Start Json) (x : Published Json) : Prop :=
  start.position.offset < x.offset
    ∨ start.listed.Pairwise (·.offset < ·.offset)
      ∧ ∃ publication ∈ start.listed,
        codec.publication x.document = some publication

/-- `emit` has taken the donation of a publication. -/
def Emitted (calls : List (Call Json Donation)) (epoch : String)
    (x : Published Json) : Prop :=
  ∃ call ∈ calls, call.epoch = epoch ∧ call.accepted = true
    ∧ codec.publication x.document = some call.publication

end StreamBrew.DonationAlerts.Socket
