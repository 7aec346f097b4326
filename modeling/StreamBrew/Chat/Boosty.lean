/-
The collector of a Boosty chat: BoostyProvider.Stream.

# Polling

The chat is read by asking for it again and again. A poll asks whether
the stream is on, and then reads pages of messages from the newest one
backwards, until it meets a message that an earlier poll has seen. What
it collected is emitted in the order of the chat. Three things tell what
was seen (`Cursor`): the identifier of the newest message, the second of
the last message emitted, and the messages of that second.

# The chat

Every request is a step of its own, and messages may be written to the
chat between any two of them. The pages of a poll reach back without
gaps, each from somewhere in what the page before it has shown; the
lengths of the pages and where they begin are the server's choice. The
times of the polls and the texts that JSON tuples hold are not modelled:
`plain` gives the first element of a content that is a tuple.
-/
import StreamBrew.Lib.Run
import StreamBrew.Chat.Refresh
import StreamBrew.Chat.StreamEvent

namespace StreamBrew.Chat.Boosty

open Alert (Time second trimSpace left)

-- ================================== requests

/-- What comes of a request: no response, or a status and a body that
could be decoded or not. -/
inductive Response (α : Type)
  | lost
  | answered (status : Nat) (body : Option α)
  deriving DecidableEq, Repr

/-- A failed request, and the status where there was a response. -/
structure RequestError where
  error : ProviderError
  status : Option Nat := none
  deriving DecidableEq, Repr

/-- BoostyProvider.request; `unset` is the target before it is decoded
into. -/
def request {α : Type} (unset : α) : Response α → Except RequestError α
  | .lost =>
      .error { error := operationError "Could not read Boosty chat" none }
  | .answered status body =>
      if status = 204 then .ok unset
      else if status = 401 ∨ status = 403 then .error
        { error :=
            { type := .unauthorized
              detail := "Reconnect Boosty with a current token that has access to this stream" }
          status := some status }
      else if status < 200 ∨ 300 ≤ status then .error
        { error := operationError "Could not read Boosty chat" (some status)
          status := some status }
      else match body with
        | none => .error
            { error :=
                operationError "Boosty returned an invalid response" none }
        | some target => .ok target

/-- The document of a stream, as far as it is read. -/
structure StreamStatus where
  isOnline : Bool := false
  hasAccess : Bool := false
  deriving DecidableEq, Repr

/-- The author of a message. -/
structure BoostyUser where
  id : String
  name : String := ""
  deriving DecidableEq, Repr

/-- A piece of a message; its content is a JSON text. -/
structure Block where
  type : String
  content : String := ""
  modificator : String := ""
  deriving DecidableEq, Repr

/-- A message as the provider gives it. -/
structure BoostyMessage where
  id : String
  author : BoostyUser
  createdAt : Int
  isSystemMessage : Bool := false
  data : List Block := []
  deriving DecidableEq, Repr

/-- Where the next older page begins. -/
structure ChatExtra where
  offset : String := ""
  isLast : Bool := false
  deriving DecidableEq, Repr

/-- A page of the chat, the newest message first. -/
structure BoostyChatPage where
  data : Option (List BoostyMessage) := none
  extra : Option ChatExtra := none
  deriving DecidableEq, Repr

-- ================================== messages

/-- What a block adds to the text of its message. -/
def Block.text (plain : String → Option String) (block : Block) : String :=
  if block.type ≠ "text" ∧ block.type ≠ "link" then ""
  else if block.modificator = "BLOCK_END" then "\n"
  else if block.content.toList.head? = some '[' then
    (plain block.content).getD block.content
  else block.content

/-- boostyMessage.normalize. -/
def BoostyMessage.normalize (plain : String → Option String)
    (source : StreamSource) (message : BoostyMessage) : Option Message :=
  if message.isSystemMessage ∨ message.id = "" ∨ message.author.id = ""
      ∨ message.createdAt ≤ 0 then none
  else
    let body := trimSpace (String.join (message.data.map (Block.text plain)))
    if body = "" then none
    else
      let name := trimSpace message.author.name
      let name := if name = "" then message.author.id else name
      some
        { id := message.id
          sourceID := source.sourceID
          connectionID := source.connectionID
          provider := "boosty"
          author := { id := message.author.id, displayName := left name 200 }
          text := body
          occurredAt := message.createdAt * second }

-- =================================== reading

/-- What the collector remembers from poll to poll. -/
structure Cursor where
  lastID : String := ""
  initialized : Bool := false
  highWater : Int := 0
  seen : List String := []
  deriving DecidableEq, Repr

/-- The variables of poll. -/
structure Poll where
  messages : List BoostyMessage := []
  newest : String := ""
  offset : String := ""
  pageIndex : Nat := 0
  deriving DecidableEq, Repr

/-- How poll goes on from a page. -/
inductive Progress
  | failed (error : ProviderError)
  | done (messages : List BoostyMessage) (newest : String)
  | more (poll : Poll)
  deriving DecidableEq, Repr

/-- The message was seen by an earlier poll, or is older than those. -/
def Cursor.Stops (cursor : Cursor) (message : BoostyMessage) : Prop :=
  (cursor.lastID ≠ "" ∧ message.id = cursor.lastID)
    ∨ (0 < cursor.highWater ∧ 0 < message.createdAt
      ∧ message.createdAt < cursor.highWater)

instance (cursor : Cursor) : DecidablePred cursor.Stops :=
  fun _ => inferInstanceAs (Decidable (_ ∨ _))

/-- The loop over the messages of one page: the poll with what is new on
it, and whether the poll ends there. -/
def Poll.scan (cursor : Cursor) (poll : Poll) :
    List BoostyMessage → Poll × Bool
  | [] => (poll, false)
  | message :: rest =>
      let poll := if poll.newest = "" then { poll with newest := message.id }
        else poll
      if cursor.Stops message then (poll, true)
      else Poll.scan cursor
        { poll with messages := poll.messages ++ [message] } rest

/-- The data and the extra of a page that has both. -/
def BoostyChatPage.parts (page : BoostyChatPage) :
    Option (List BoostyMessage × ChatExtra) :=
  page.data.bind fun data => page.extra.map fun extra => (data, extra)

/-- How poll goes on from the messages and the extra of a page. -/
def Poll.read (cursor : Cursor) (poll : Poll) (data : List BoostyMessage)
    (extra : ChatExtra) : Progress :=
  let (poll, stopped) := poll.scan cursor data
  if stopped then .done poll.messages poll.newest
  else if !cursor.initialized || extra.isLast || data.isEmpty then
    .done poll.messages poll.newest
  else if extra.offset = "" ∨ extra.offset = poll.offset then
    .failed (operationError "Boosty chat pagination failed" none)
  else if poll.pageIndex + 1 = 20 then
    .failed (operationError "Boosty chat catch-up limit exceeded" none)
  else .more { poll with
    offset := extra.offset
    pageIndex := poll.pageIndex + 1 }

/-- One round of the loop over pages. -/
def Poll.page (cursor : Cursor) (poll : Poll)
    (response : Response BoostyChatPage) : Progress :=
  match request {} response with
  | .error e => .failed e.error
  | .ok page =>
      match page.parts with
      | none => .failed
          (operationError "Boosty returned an invalid chat page" none)
      | some (data, extra) => poll.read cursor data extra

/-- One round of the loop over the messages of a poll. -/
def Cursor.observe (normalize : BoostyMessage → Option Message)
    (cursor : Cursor) (raw : BoostyMessage) : Cursor × List StreamEvent :=
  if raw.createdAt < cursor.highWater ∨ raw.id ∈ cursor.seen then (cursor, [])
  else
    let emitted := if cursor.initialized then
        (normalize raw).toList.map StreamEvent.ofMessage
      else []
    let cursor := if cursor.highWater < raw.createdAt then
        { cursor with highWater := raw.createdAt, seen := [] }
      else cursor
    ({ cursor with seen := raw.id :: cursor.seen }, emitted)

/-- The loop, from the oldest message on. -/
def Cursor.observeAll (normalize : BoostyMessage → Option Message)
    (cursor : Cursor) : List BoostyMessage → Cursor × List StreamEvent
  | [] => (cursor, [])
  | raw :: rest =>
      let (cursor, emitted) := cursor.observe normalize raw
      let (cursor, later) := Cursor.observeAll normalize cursor rest
      (cursor, emitted ++ later)

/-- What a successful poll leaves. -/
def Cursor.advance (newest : String) (cursor : Cursor) : Cursor :=
  { cursor with
    lastID := if newest ≠ "" then newest else cursor.lastID
    initialized := true }

-- ================================= collector

/-- Where the loop of Stream stands. -/
inductive Stage
  | asking
  | reading (poll : Poll)
  | stopped
  deriving DecidableEq, Repr

/-- The variables of Stream, and what it has sent. -/
structure Collector where
  cursor : Cursor := {}
  state : String := ""
  stage : Stage := .asking
  events : List StreamEvent := []
  failures : List ProviderError := []
  deriving DecidableEq, Repr

/-- boostyBlogPattern. -/
def boostyBlog (blog : String) : Bool :=
  let allowed (c : Char) := c.isDigit || ('a' ≤ c && c ≤ 'z') || c = '_'
  match blog.toList with
  | [] => false
  | c :: rest => allowed c && rest.length ≤ 99
      && rest.all fun c => allowed c || c = '.' || c = '-'

section

variable (source : StreamSource) (plain : String → Option String)

/-- A state is sent when it is another one. -/
def Collector.setState (next : String) (c : Collector) : Collector :=
  if c.state = next then c
  else { c with
    state := next
    events := c.events ++ [StreamEvent.ofState source next] }

/-- A poll that fails. -/
def Collector.fail (error : ProviderError) (c : Collector) : Collector :=
  let error :=
    if error.type = .unauthorized ∧ source.refreshToken = "" then
      refreshRequiredError "Reconnect Boosty with a current access token"
    else error
  { c with
    state := "error"
    failures := c.failures ++ [error]
    stage := if error.type = .unauthorized ∨ requiresReauthorization error
      then .stopped else .asking }

/-- A poll that has read what is new. -/
def Collector.publish (messages : List BoostyMessage) (newest : String)
    (c : Collector) : Collector :=
  let (cursor, emitted) := c.cursor.observeAll
    (BoostyMessage.normalize plain source) messages.reverse
  ({ c with
    cursor := cursor.advance newest
    events := c.events ++ emitted
    stage := .asking } : Collector).setState source "live"

/-- The answer to the first request of a poll. -/
def Collector.status (response : Response StreamStatus) (c : Collector) :
    Collector :=
  match request {} response with
  | .error e =>
      if e.status = some 404 then c.setState source "offline"
      else c.fail source e.error
  | .ok stream =>
      if !stream.isOnline then c.setState source "offline"
      else if !stream.hasAccess then c.fail source
        { type := .unauthorized
          detail := "The Boosty account cannot read this stream" }
      else { c with stage := .reading {} }

/-- The answer to the request for a page. -/
def Collector.page (poll : Poll) (response : Response BoostyChatPage)
    (c : Collector) : Collector :=
  match poll.page c.cursor response with
  | .failed error => c.fail source error
  | .done messages newest => c.publish source plain messages newest
  | .more poll => { c with stage := .reading poll }

/-- Stream before its loop. -/
def Collector.start : Collector :=
  if source.accessToken = "" ∨ boostyBlog source.providerSourceID = false then
    { stage := .stopped
      failures :=
        [{ type := .unauthorized
           detail :=
            "Reconnect the Boosty account with a current access token" }] }
  else ({} : Collector).setState source "connecting"

end

-- ==================================== system

/-- The answer to a request for a page: a block of the chat, or nothing
that is a page. -/
inductive Served
  | refused (response : Response BoostyChatPage)
  | block (start stop : Nat) (extra : ChatExtra)
  deriving DecidableEq, Repr

/-- The provider's chat, and the collector that reads it. -/
structure System where
  /-- the chat, the oldest message first -/
  timeline : List BoostyMessage := []
  collector : Collector
  /-- how many messages are older than what the poll has read -/
  older : Nat := 0
  /-- how long the chat was when the poll read its first page -/
  head : Nat := 0
  /-- the same for each poll that has succeeded -/
  heads : List Nat := []
  deriving DecidableEq, Repr

/-- What happens to the chat, and what the provider answers. -/
inductive Action
  | append (message : BoostyMessage)
  | status (response : Response StreamStatus)
  | page (served : Served)
  deriving DecidableEq, Repr

/-- The `limit` of a request. -/
def pageLimit : Nat := 100

/-- The message may be written to the chat. -/
def Appendable (timeline : List BoostyMessage) (message : BoostyMessage) :
    Prop :=
  (∀ m ∈ timeline, m.id ≠ message.id ∧ m.createdAt ≤ message.createdAt)
    ∧ 0 < message.createdAt

instance (timeline : List BoostyMessage) (message : BoostyMessage) :
    Decidable (Appendable timeline message) :=
  inferInstanceAs (Decidable (_ ∧ _))

/-- What a response tells of the chat. -/
def pageOf (response : Response BoostyChatPage) :
    Option (List BoostyMessage × ChatExtra) :=
  match request {} response with
  | .error _ => none
  | .ok page => page.parts

namespace Served

/-- The page is a block of the chat, newest first. -/
def response (timeline : List BoostyMessage) :
    Served → Response BoostyChatPage
  | .refused response => response
  | .block start stop extra => .answered 200 (some
      { data := some ((timeline.take stop).drop start).reverse
        extra := some extra })

/-- The server's part: a page reaches back from where the poll has read
to, or from a newer message, and only the page with the oldest message
is the last one. -/
def Fits (timeline : List BoostyMessage) (older : Nat) : Served → Prop
  | .refused response => (pageOf response).isNone = true
  | .block start stop extra =>
      start ≤ older ∧ older ≤ stop ∧ stop ≤ timeline.length
        ∧ stop - start ≤ pageLimit ∧ (extra.isLast = true → start = 0)
        ∧ (start = stop → start = 0)

instance (timeline : List BoostyMessage) (older : Nat) (served : Served) :
    Decidable (served.Fits timeline older) :=
  match served with
  | .refused _ => inferInstanceAs (Decidable (_ = true))
  | .block _ _ _ => inferInstanceAs (Decidable (_ ∧ _ ∧ _ ∧ _ ∧ _ ∧ _))

/-- What is older than a page. -/
def start (older : Nat) : Served → Nat
  | .refused _ => older
  | .block start _ _ => start

end Served

section

variable (source : StreamSource) (plain : String → Option String)

/-- A chat without messages, and a collector that begins. -/
def System.init : System := { collector := Collector.start source }

/-- A page is read; the first page of a poll is the newest one. -/
def System.page (poll : Poll) (served : Served) (s : System) : System :=
  let first := poll.pageIndex = 0
  let older := if first then s.timeline.length else s.older
  let head := if first then s.timeline.length else s.head
  if served.Fits s.timeline older then
    { s with
      collector := s.collector.page source plain poll
        (served.response s.timeline)
      older := served.start older
      head
      heads :=
        match poll.page s.collector.cursor (served.response s.timeline) with
        | .done _ _ => s.heads ++ [head]
        | _ => s.heads }
  else s

/-- The chat grows, or the collector takes an answer. -/
def System.step (s : System) : Action → System
  | .append message =>
      if Appendable s.timeline message then
        { s with timeline := s.timeline ++ [message] }
      else s
  | .status response =>
      match s.collector.stage with
      | .asking =>
          { s with collector := s.collector.status source response }
      | _ => s
  | .page served =>
      match s.collector.stage with
      | .reading poll => s.page source plain poll served
      | _ => s

end

end StreamBrew.Chat.Boosty
