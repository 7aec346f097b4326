/-
Dead letters (nats.go, http.go): how pages of them are listed.

The broker answers with the state of the stream and with the message of a
sequence number. Sequence numbers are of 64 bits without a sign, and the
number before zero would be the greatest: `Probe.minuends` is what one was
subtracted from, which the source does not keep.
-/
import StreamBrew.Chat.StreamEvent
import StreamBrew.Lib.Decimal

namespace StreamBrew.Chat

open Text
open Alert (Time)

/-- storedDeadLetter, the document of a message on the stream. -/
structure StoredDeadLetter where
  failedAt : Time
  sourceSubject : Bytes
  error : String
  payload : Bytes
  payloadTruncated : Bool
  deriving DecidableEq, Repr

/-- A dead letter as the API shows it. -/
structure DeadLetter where
  sequence : Chars
  failedAt : Time
  sourceSubject : Bytes
  error : String
  payload : Bytes
  payloadTruncated : Bool
  deriving DecidableEq, Repr

/-- An empty `nextBeforeSequence` is left out. -/
structure DeadLetterPage where
  items : List DeadLetter
  total : UInt64
  nextBeforeSequence : Chars := []
  deriving DecidableEq, Repr

/-- What the broker says of the stream. -/
structure StreamState where
  msgs : UInt64
  firstSeq : UInt64
  lastSeq : UInt64

/-- Why a listing fails. -/
inductive ListError
  | limit
  | decode (sequence : UInt64)
  | broker (text : String)
  deriving DecidableEq, Repr

/-- What the broker answers: nothing is ErrMsgNotFound. -/
structure NatsDeadLetterStore where
  streamInfo : Except String StreamState
  getMsg : UInt64 → Except String (Option Bytes)
  unmarshal : Bytes → Option StoredDeadLetter

/-- `strconv.FormatUint(sequence, 10)` -/
def formatUint (sequence : UInt64) : Chars := Nat.toDigits 10 sequence.toNat

/-- The item of a stored letter. -/
def StoredDeadLetter.letter (stored : StoredDeadLetter) (sequence : UInt64) :
    DeadLetter where
  sequence := formatUint sequence
  failedAt := stored.failedAt
  sourceSubject := stored.sourceSubject
  error := stored.error
  payload := stored.payload
  payloadTruncated := stored.payloadTruncated

/-- The variables of the loop. -/
structure Probe where
  items : List DeadLetter
  sequence : UInt64
  minuends : List UInt64
  deriving DecidableEq, Repr

namespace NatsDeadLetterStore

/-- The item of a sequence number, where there is one. -/
def item (store : NatsDeadLetterStore) (sequence : UInt64) :
    Except ListError (Option DeadLetter) :=
  match store.getMsg sequence with
  | .error text => .error (.broker text)
  | .ok none => .ok none
  | .ok (some data) =>
      match store.unmarshal data with
      | none => .error (.decode sequence)
      | some stored => .ok (some (stored.letter sequence))

/-- The loop, for as many rounds as there is fuel. -/
def probe (store : NatsDeadLetterStore) (firstSeq : UInt64) (limit : Int) :
    Nat → Probe → Except ListError Probe
  | 0, p => .ok p
  | fuel + 1, p =>
      if p.sequence ≥ firstSeq ∧ p.items.length < limit then
        match store.item p.sequence with
        | .error e => .error e
        | .ok found =>
            let items := p.items ++ found.toList
            if p.sequence = 0 then .ok { p with items }
            else
              probe store firstSeq limit fuel
                { items
                  sequence := p.sequence - 1
                  minuends := p.minuends ++ [p.sequence] }
      else .ok p

/-- Where a listing begins. -/
def start (info : StreamState) (beforeSequence : UInt64) : Probe :=
  if beforeSequence > 0 ∧ beforeSequence ≤ info.lastSeq then
    { items := []
      sequence := beforeSequence - 1
      minuends := [beforeSequence] }
  else { items := [], sequence := info.lastSeq, minuends := [] }

/-- A round for each sequence number from the start down is enough. -/
def probed (store : NatsDeadLetterStore) (info : StreamState) (limit : Int)
    (beforeSequence : UInt64) : Except ListError Probe :=
  let p := start info beforeSequence
  store.probe info.firstSeq limit (p.sequence.toNat + 1) p

/-- natsDeadLetterStore.List: a page of letters below a sequence number. -/
def list (store : NatsDeadLetterStore) (limit : Int)
    (beforeSequence : UInt64) : Except ListError DeadLetterPage :=
  if limit < 1 ∨ limit > 100 then .error .limit
  else
    match store.streamInfo with
    | .error text => .error (.broker text)
    | .ok info =>
        if info.msgs = 0 then .ok { items := [], total := info.msgs }
        else
          match store.probed info limit beforeSequence with
          | .error e => .error e
          | .ok p =>
              .ok {
                items := p.items
                total := info.msgs
                nextBeforeSequence :=
                  if p.items.length = limit ∧ p.sequence ≥ info.firstSeq then
                    formatUint (p.sequence + 1)
                  else [] }

/-- The sequence number of a request: none where it is refused. -/
def parseBeforeSequence (rawSequence : Chars) : Option UInt64 :=
  if rawSequence = [] then some 0
  else if rawSequence.all Char.isDigit ∧ Decimal.number rawSequence < 2 ^ 64
      ∧ Decimal.number rawSequence ≠ 0 then
    some (UInt64.ofNat (Decimal.number rawSequence))
  else none

end NatsDeadLetterStore

end StreamBrew.Chat
