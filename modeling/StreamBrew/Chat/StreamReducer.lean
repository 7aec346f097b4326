/-
The messages that a page shows of a chat (use-chat-service-stream.ts,
chat.ts): what each event of the stream does to them.

A time is in milliseconds. Identifiers are any texts: that those of
sources have no colon is not needed for anything here.
-/
import Mathlib.Logic.Function.Basic
import StreamBrew.Chat.StreamEvent
import StreamBrew.Lib.Recent

namespace StreamBrew.Chat.Page

/-- The states of a source. -/
inductive ChatSourceState
  | connecting
  | live
  | offline
  | error
  deriving DecidableEq, Repr

/-- The codes of a connection error. -/
inductive ChatConnectionErrorCode
  | configurationUnavailable
  | overlayNotFound
  | streamUnavailable
  | transportUnavailable
  | unauthorized
  deriving DecidableEq, Repr

/-- A message as the page shows it. -/
structure ChatMessage where
  id : String
  sourceId : String
  connectionId : String
  provider : String
  author : Author
  text : String
  occurredAt : Int
  deriving DecidableEq, Repr

/-- What identifies a message on the page. -/
def chatMessageKey (message : ChatMessage) : String :=
  message.sourceId ++ ":" ++ message.id

/-- The events of the stream, parsed. -/
inductive ChatStreamEvent
  | message (message : ChatMessage)
  | messageDeleted (sourceId messageId : String)
  | state (sourceId : String) (state : ChatSourceState) (detail : Option String)
  | connectionError (code : ChatConnectionErrorCode) (detail : String)
  deriving DecidableEq, Repr

/-- What the page shows. -/
structure StreamState where
  messages : List ChatMessage
  statuses : String → Option ChatSourceState
  connectionError : Option ChatConnectionErrorCode

/-- What the reducer takes. -/
inductive StreamAction
  | reset
  | connected
  | transportFailed (code : ChatConnectionErrorCode)
  | messageRemoved (sourceId messageId : String)
  | event (event : ChatStreamEvent)
  deriving DecidableEq, Repr

/-- Nothing is shown. -/
def initialState : StreamState where
  messages := []
  statuses := fun _ => none
  connectionError := none

/-- The message of a source goes. -/
def removeMessage (sourceId messageId : String)
    (messages : List ChatMessage) : List ChatMessage :=
  messages.filter fun message =>
    !(message.sourceId = sourceId && message.id = messageId)

/-- In front of the first later message, or behind all. -/
def insertSorted (messages : List ChatMessage) (received : ChatMessage) :
    List ChatMessage :=
  let insertion := messages.findIdx? fun message =>
    received.occurredAt < message.occurredAt
  match insertion with
  | none => messages ++ [received]
  | some insertion =>
      messages.take insertion ++ received :: messages.drop insertion

/-- A message comes in, in place of one with its key; the last 500 stay. -/
def receiveMessage (messages : List ChatMessage) (received : ChatMessage) :
    List ChatMessage :=
  let key := chatMessageKey received
  let messages := messages.filter fun message => chatMessageKey message ≠ key
  (insertSorted messages received).rtake 500

/-- The next state of the page. -/
def reducer (state : StreamState) : StreamAction → StreamState
  | .reset => initialState
  | .connected => { state with connectionError := none }
  | .transportFailed code => { state with connectionError := some code }
  | .messageRemoved sourceId messageId =>
      { state with messages := removeMessage sourceId messageId state.messages }
  | .event (.connectionError code _) =>
      { state with connectionError := some code }
  | .event (.state sourceId sourceState _) =>
      { state with
        statuses := Function.update state.statuses sourceId (some sourceState) }
  | .event (.messageDeleted sourceId messageId) =>
      { state with messages := removeMessage sourceId messageId state.messages }
  | .event (.message message) =>
      { state with
        messages := receiveMessage state.messages message
        statuses :=
          Function.update state.statuses message.sourceId (some .live) }

end StreamBrew.Chat.Page
