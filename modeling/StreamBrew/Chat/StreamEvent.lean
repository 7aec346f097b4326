/-
Events of a chat: what collectors and commands publish, and what the
overlay and the chat page are told.

An event is one record with fields that depend on its type, and
`valid` is what decodeStreamEvent asks of it. An identifier of a source
is a text here, since it comes back from a broker.
-/
import StreamBrew.Lib.Text
import StreamBrew.Alert.Domain

namespace StreamBrew.Chat

open Alert (Time)

/-- `Providers`. -/
def providers : List String :=
  ["youtube", "twitch", "kick", "boosty", "vk_video"]

/-- Who has written a message. -/
structure Author where
  id : String
  displayName : String
  deriving DecidableEq, Repr

/-- A message of any provider. -/
structure Message where
  id : String
  sourceID : String
  connectionID : String
  provider : String
  author : Author
  text : String
  occurredAt : Time
  deriving DecidableEq, Repr

/-- An error that concerns the whole connection. -/
structure ConnectionError where
  code : String
  detail : String
  deriving DecidableEq, Repr

/-- A union by its type: the other fields are left empty. -/
structure StreamEvent where
  type : String
  message : Option Message := none
  sourceID : String := ""
  messageID : String := ""
  state : String := ""
  detail : String := ""
  error : Option ConnectionError := none
  deriving DecidableEq, Repr

/-- A source as its collector is given it. -/
structure StreamSource where
  sourceID : String
  connectionID : String
  providerSourceID : String
  accessToken : String
  refreshToken : String := ""
  deriving DecidableEq, Repr

/-- A state of a source. -/
def StreamEvent.ofState (source : StreamSource) (state : String) :
    StreamEvent :=
  { type := "state", sourceID := source.sourceID, state }

/-- A message that came in. -/
def StreamEvent.ofMessage (message : Message) : StreamEvent :=
  { type := "message", message := some message }

/-- The messages of a list of events. -/
def messages (events : List StreamEvent) : List Message :=
  events.filterMap StreamEvent.message

-- ================================== decoding

/-- A digit of a uuid. -/
def isHexDigit (c : Char) : Bool :=
  c.isDigit || ('a' ≤ c && c ≤ 'f') || ('A' ≤ c && c ≤ 'F')

/-- Groups of 8, 4, 4, 4 and 12 hexadecimal digits. -/
def validUUID (value : String) : Bool :=
  let groups := value.toList.splitOn '-'
  groups.map List.length = [8, 4, 4, 4, 12] && groups.all (·.all isHexDigit)

/-- A text of 1 to `n` characters. -/
def bounded (n : Nat) (value : String) : Bool :=
  value ≠ "" && value.length ≤ n

/-- The states that an event may carry. -/
def states : List String := ["connecting", "live", "offline", "error"]

/-- The codes that an error may carry. -/
def errorCodes : List String :=
  ["configuration_unavailable", "overlay_not_found", "stream_unavailable",
    "transport_unavailable", "unauthorized"]

/-- The bounds that an event is checked against. -/
def Message.valid (m : Message) : Bool :=
  bounded 300 m.id && validUUID m.sourceID && validUUID m.connectionID
    && providers.contains m.provider && bounded 200 m.author.id
    && bounded 200 m.author.displayName

/-- decodeStreamEvent, once the JSON has been read. -/
def StreamEvent.valid (e : StreamEvent) : Bool :=
  if e.type = "message" then e.message.any Message.valid
  else if e.type = "message_deleted" then
    validUUID e.sourceID && bounded 300 e.messageID
  else if e.type = "state" then
    validUUID e.sourceID && states.contains e.state
  else if e.type = "connection_error" then
    e.error.any fun error => errorCodes.contains error.code
  else false

-- ==================================== states

/-- The state of a source that an event tells of: a message says that
its source is live. -/
def StreamEvent.stateEvent (e : StreamEvent) : Option StreamEvent :=
  if e.type = "state" then some e
  else if e.type = "message" then
    e.message.map fun m =>
      { type := "state", sourceID := m.sourceID, state := "live" }
  else none

/-- The state that an event tells of one source. -/
def StreamEvent.stateOf (sourceID : String) (e : StreamEvent) :
    Option String :=
  (e.stateEvent.filter (·.sourceID = sourceID)).map StreamEvent.state

/-- The last state of a source in a list of events. -/
def lastState (sourceID : String) (events : List StreamEvent) :
    Option String :=
  events.foldl (fun before e => (e.stateOf sourceID).or before) none

theorem lastState_snoc {sourceID : String} {events : List StreamEvent}
    (e : StreamEvent) :
    lastState sourceID (events ++ [e])
      = (e.stateOf sourceID).or (lastState sourceID events) := by
  unfold lastState
  rw [List.foldl_append]
  rfl

theorem lastState_append {sourceID : String} (before after : List StreamEvent) :
    lastState sourceID (before ++ after)
      = (lastState sourceID after).or (lastState sourceID before) := by
  induction after using List.reverseRecOn with
  | nil => rw [List.append_nil]; rfl
  | append_singleton after e ih =>
      rw [← List.append_assoc, lastState_snoc, lastState_snoc, ih,
        Option.or_assoc]

theorem stateEvent_type {e state : StreamEvent}
    (h : e.stateEvent = some state) : state.type = "state" := by
  unfold StreamEvent.stateEvent at h
  split at h
  case isTrue htype =>
    cases h
    exact htype
  case isFalse =>
    split at h
    case isTrue =>
      obtain ⟨m, -, rfl⟩ := Option.map_eq_some_iff.mp h
      rfl
    case isFalse => cases h

theorem stateOf_eq_some {sourceID st : String} {e : StreamEvent} :
    e.stateOf sourceID = some st ↔ ∃ state, e.stateEvent = some state
      ∧ state.sourceID = sourceID ∧ state.state = st := by
  unfold StreamEvent.stateOf
  simp only [Option.map_eq_some_iff, Option.filter_eq_some_iff,
    decide_eq_true_eq, and_assoc]

/-- A state tells nothing of another source. -/
theorem stateOf_other {sourceID : String} {state : StreamEvent}
    (htype : state.type = "state") (hother : state.sourceID ≠ sourceID) :
    state.stateOf sourceID = none := by
  unfold StreamEvent.stateOf StreamEvent.stateEvent
  rw [if_pos htype, Option.filter_some, if_neg (by simpa using hother)]
  rfl

end StreamBrew.Chat
