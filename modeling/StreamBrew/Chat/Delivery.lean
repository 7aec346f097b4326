/-
What Stream does with each message it is given (nats.go): one that
decodes is handed on and acknowledged, and one that does not is retried
twice, and then kept as a dead letter and terminated.

The broker of dead letters leaves out a letter whose identifier it stored
within the duplicate window, and answers as if it had stored it; it may
remember identifiers for longer, and its answer may be lost. Letters are
also stored by the streams of other users (`other`).
-/
import StreamBrew.Chat.DeadLetters
import StreamBrew.Lib.Run

namespace StreamBrew.Chat.Delivery

open Text
open Alert (Time)

/-- In microseconds. -/
def duplicateWindow : Time := 120 * 1000000

/-- Longer payloads are cut. -/
def deadLetterPayloadLimit : Nat := 64 * 2 ^ 10

/-- The delivery that is not given back any more. -/
def deadLetterMaxDeliveries : Nat := 3

/-- A subject, or a key: texts without a zero byte. -/
structure Subject where
  text : Bytes
  noZero : 0 ∉ text
  deriving DecidableEq

/-- A message, and how often it was delivered where that can be read. -/
structure Msg where
  subject : Subject
  data : Bytes
  numDelivered : Option Nat
  deriving DecidableEq

/-- The libraries, and whose stream it is. -/
structure Broker where
  unmarshal : Bytes → Except String StreamEvent
  sum256 : Bytes → Bytes
  stateBucket : Subject
  userID : Nat

-- ================================== decoding

/-- The error of an event by its type. -/
def invalidEvent (type : String) : String :=
  if type = "message" then "invalid chat message event"
  else if type = "message_deleted" then "invalid chat message deletion event"
  else if type = "state" then "invalid chat source state event"
  else if type = "connection_error" then "invalid chat connection error event"
  else "invalid chat stream event type"

/-- A payload is decoded and validated. -/
def decodeStreamEvent (broker : Broker) (body : Bytes) :
    Except String StreamEvent :=
  match broker.unmarshal body with
  | .error e => .error e
  | .ok event =>
      if event.valid then .ok event else .error (invalidEvent event.type)

-- ============================== dead letters

/-- A digit of a lower-case hexadecimal number. -/
def hexDigit (n : Nat) : Char := "0123456789abcdef".toList.getD n '0'

/-- `hex.EncodeToString(b)` -/
def hexEncode (b : Bytes) : Chars :=
  b.flatMap fun byte => [hexDigit (byte.toNat / 16), hexDigit (byte.toNat % 16)]

/-- What is hashed for the identifier of a letter. -/
def digest (sourceSubject : Subject) (payload : Bytes) : Bytes :=
  sourceSubject.text ++ 0 :: payload

/-- The identifier under which a dead letter is published. -/
def messageID (broker : Broker) (sourceSubject : Subject) (payload : Bytes) :
    Chars :=
  hexEncode (broker.sum256 (digest sourceSubject payload))

/-- A dead letter on the stream, with its identifier. -/
structure Stored where
  id : Chars
  letter : StoredDeadLetter
  storedAt : Time
  deriving DecidableEq

/-- What a publication was answered with. -/
inductive Outcome
  | stored
  | lost
  | failed
  deriving DecidableEq, Repr

/-- One publish: the clocks of the sender and of the broker, whether the
broker remembers identifiers beyond the window, and how it ends. -/
structure Attempt where
  now : Time
  arrivesAt : Time
  remembers : Bool
  outcome : Outcome
  deriving DecidableEq, Repr

/-- The broker takes a letter, or leaves it out as a duplicate. -/
def append (attempt : Attempt) (id : Chars) (letter : StoredDeadLetter)
    (stored : List Stored) : List Stored :=
  if stored.any fun r => r.id = id
      && (attempt.arrivesAt - r.storedAt < duplicateWindow
        || attempt.remembers) then stored
  else stored ++ [⟨id, letter, attempt.arrivesAt⟩]

/-- The dead letter of a payload and its failure. -/
def deadLetter (now : Time) (sourceSubject : Subject) (payload : Bytes)
    (failure : String) : StoredDeadLetter where
  failedAt := now
  sourceSubject := sourceSubject.text
  error := failure
  payload := payload.take deadLetterPayloadLimit
  payloadTruncated := payload.length > deadLetterPayloadLimit

/-- Store: what the broker holds then, and whether it was said to. -/
def store (broker : Broker) (attempt : Attempt) (sourceSubject : Subject)
    (payload : Bytes) (failure : String) (stored : List Stored) :
    List Stored × Bool :=
  let id := messageID broker sourceSubject payload
  let letter := deadLetter attempt.now sourceSubject payload failure
  match attempt.outcome with
  | .stored => (append attempt id letter stored, true)
  | .lost => (append attempt id letter stored, false)
  | .failed => (stored, false)

-- ==================================== stream

/-- Where the subscription stands. -/
inductive Stage
  | reading
  | delivering
  | closed
  deriving DecidableEq, Repr

/-- The subscription, and the stream of dead letters. -/
structure State where
  stage : Stage
  deadLetters : List Stored
  deriving DecidableEq

/-- What is seen of a step from outside, in order. -/
inductive Effect
  | hand (event : StreamEvent)
  | ack
  | nak
  | term
  | store (id : Chars)
  deriving DecidableEq, Repr

/-- What the broker delivers, and the time that passes. -/
inductive Action
  /-- a state of the bucket is read -/
  | entry (key : Subject) (value : Bytes) (sent : Bool) (attempt : Attempt)
  /-- all states were read -/
  | listen
  | deliver (message : Msg) (sent : Bool) (attempt : Attempt)
  | stop
  | other (sourceSubject : Subject) (payload : Bytes) (failure : String)
      (attempt : Attempt)
  deriving DecidableEq

/-- No state has been read, and there are no dead letters. -/
def initial : State := ⟨.reading, []⟩

/-- `kv://bucket/key` -/
def entrySubject (broker : Broker) (key : Subject) : Subject where
  text := bytes "kv://".toList ++ broker.stateBucket.text ++ 0x2F :: key.text
  noZero := by
    have hscheme : (0 : UInt8) ∉ bytes "kv://".toList := by decide
    rw [List.mem_append, List.mem_append, List.mem_cons]
    rintro ((h | h) | h | h)
    · exact hscheme h
    · exact broker.stateBucket.noZero h
    · exact absurd h (by decide)
    · exact key.noZero h

/-- The keys of one user: `%d.` -/
def keyPrefix (broker : Broker) : Bytes :=
  bytes (Nat.toDigits 10 broker.userID ++ ['.'])

/-- sendEvent, where the subscriber is there or has gone. -/
def sendEvent (s : State) (event : StreamEvent) (sent : Bool) :
    State × List Effect :=
  if sent then (s, [.hand event]) else ({ s with stage := .closed }, [])

/-- A message that is not decoded is given back twice, and then buried. -/
def handlePoisonMessage (broker : Broker) (s : State) (message : Msg)
    (failure : String) (attempt : Attempt) : State × List Effect :=
  if message.numDelivered.any (· < deadLetterMaxDeliveries) then (s, [.nak])
  else
    let id := messageID broker message.subject message.data
    let result := store broker attempt message.subject message.data failure
      s.deadLetters
    ({ s with deadLetters := result.1 },
      [.store id, if result.2 then .term else .nak])

/-- A state of the bucket is sent, or buried. -/
def readEntry (broker : Broker) (s : State) (key : Subject) (value : Bytes)
    (sent : Bool) (attempt : Attempt) : State × List Effect :=
  if !(keyPrefix broker).isPrefixOf key.text then (s, [])
  else
    match decodeStreamEvent broker value with
    | .error failure =>
        let subject := entrySubject broker key
        let result := store broker attempt subject value failure s.deadLetters
        ({ s with deadLetters := result.1 },
          [.store (messageID broker subject value)])
    | .ok event => sendEvent s event sent

/-- A delivered message is sent, or goes the way of poison. -/
def deliver (broker : Broker) (s : State) (message : Msg) (sent : Bool)
    (attempt : Attempt) : State × List Effect :=
  match decodeStreamEvent broker message.data with
  | .error failure => handlePoisonMessage broker s message failure attempt
  | .ok event =>
      let result := sendEvent s event sent
      (result.1, result.2 ++ if sent then [.ack] else [])

/-- A step that is not due does nothing. -/
def exec (broker : Broker) (s : State) : Action → State × List Effect
  | .entry key value sent attempt =>
      if s.stage = .reading then readEntry broker s key value sent attempt
      else (s, [])
  | .listen =>
      if s.stage = .reading then ({ s with stage := .delivering }, [])
      else (s, [])
  | .deliver message sent attempt =>
      if s.stage = .delivering then deliver broker s message sent attempt
      else (s, [])
  | .stop => ({ s with stage := .closed }, [])
  | .other sourceSubject payload failure attempt =>
      let result := store broker attempt sourceSubject payload failure
        s.deadLetters
      ({ s with deadLetters := result.1 }, [])

/-- The state after an action. -/
def step (broker : Broker) (s : State) (action : Action) : State :=
  (exec broker s action).1

end StreamBrew.Chat.Delivery
