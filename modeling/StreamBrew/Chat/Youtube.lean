/-
The collector of a YouTube chat: YoutubeProvider.Stream.

# Sessions

Stream asks for the active broadcast, once more after each failure. The
chat of the broadcast is then read in sessions, one after the other: a
session is a call that the server answers with one response after
another. A response may carry a token, and the next session is opened
with the last token that was carried.

# The component

One goroutine makes the calls and sends to two channels. Each call, each
wait, each send and each look at the context at the head of a loop is a
step, and its outcome is the environment's; what is about to be sent
waits in `outbox`. A send ends when the consumer takes it, or when the
context is done. The chat grows at its end, and a token stands for a
place in it; where a session begins that is opened without one is the
server's choice. Durations are in seconds. Not modelled are the commands
(SendMessage, Moderate) and the requests beneath the calls.
-/
import StreamBrew.Lib.Backoff
import StreamBrew.Lib.Feed
import StreamBrew.Lib.Run
import StreamBrew.Chat.Refresh
import StreamBrew.Chat.StreamEvent

namespace StreamBrew.Chat.Youtube

open Alert (Time)

-- ================================== messages

/-- The types of items; one of them is a text message. -/
inductive SnippetType
  | textMessageEvent
  | other (number : Nat)
  deriving DecidableEq, Repr

/-- The snippet of an item; `publishedAt` where it is a time. -/
structure Snippet where
  type : SnippetType
  publishedAt : Option Time
  messageText : String := ""
  displayMessage : String := ""
  deriving DecidableEq, Repr

/-- Who has written an item. -/
structure AuthorDetails where
  channelID : String
  displayName : String
  deriving DecidableEq, Repr

/-- An item of the live chat. -/
structure LiveChatMessage where
  id : String
  snippet : Option Snippet
  authorDetails : Option AuthorDetails
  deriving DecidableEq, Repr

/-- youtubeMessage, of an item that may be nil. -/
def youtubeMessage (source : StreamSource) (item : Option LiveChatMessage) :
    Option Message :=
  item.bind fun item => item.snippet.bind fun snippet =>
    item.authorDetails.bind fun author =>
      if snippet.type ≠ .textMessageEvent ∨ item.id = ""
          ∨ author.channelID = "" ∨ author.displayName = "" then none
      else snippet.publishedAt.map fun occurredAt =>
        { id := item.id
          sourceID := source.sourceID
          connectionID := source.connectionID
          provider := "youtube"
          author :=
            { id := author.channelID, displayName := author.displayName }
          text := if snippet.messageText = "" then snippet.displayMessage
            else snippet.messageText
          occurredAt }

-- ==================================== errors

/-- google.golang.org/grpc/codes -/
inductive Code
  | ok | canceled | unknown | invalidArgument | deadlineExceeded | notFound
  | alreadyExists | permissionDenied | resourceExhausted
  | failedPrecondition | aborted | outOfRange | unimplemented | internal
  | unavailable | dataLoss | unauthenticated
  | other (number : Nat)
  deriving DecidableEq, Repr

/-- An error of a call: its status, and whether it is that of a context. -/
structure Failure where
  code : Code
  contextCanceled : Bool := false
  deriving DecidableEq, Repr

/-- The text of the error type. -/
def unauthorized : String := "provider unauthorized"

/-- The text of the error type. -/
def rejectedCommand : String := "provider rejected command"

/-- The type of the error that is sent; none where the chat is over. -/
def errorType : Code → Option String
  | .permissionDenied | .unauthenticated => some unauthorized
  | .resourceExhausted => some "provider rate limited"
  | .failedPrecondition | .notFound => none
  | .invalidArgument => some rejectedCommand
  | _ => some "provider unavailable"

/-- The text of an error type. -/
def typeName : ProviderErrorType → String
  | .unauthorized => unauthorized
  | .refreshRequired => "provider refresh required"
  | .rateLimited => "provider rate limited"
  | .unavailable => "provider unavailable"

-- ================================= collector

/-- What the collector sends. -/
inductive Out
  | event (event : StreamEvent)
  | failure (type detail : String)
  deriving DecidableEq, Repr

/-- Where the goroutine is. -/
inductive Stage
  /-- at the head of the loop of Stream -/
  | idle
  | discovering
  | retrying
  /-- at the head of the loop of streamLiveChat -/
  | connecting
  | opening
  /-- at the head of the loop over the responses of a session -/
  | reading
  | receiving
  | closing (cause : Option Failure)
  | pausing
  /-- waits for the context to be done -/
  | parked
  | ended
  deriving DecidableEq, Repr

/-- What the collector has done. -/
inductive Entry
  | joined (liveChatID : String)
  | opened (pageToken : String)
  | received (nextPageToken : String)
  | waited (seconds : Nat)
  deriving DecidableEq, Repr

/-- The first wait, in seconds. -/
def retryStart : Nat := 5

/-- The longest wait, in seconds. -/
def retryMax : Nat := 60

/-- The variables of Stream and of a session. -/
structure Collector where
  liveChatID : String := ""
  pageToken : String := ""
  retry : Nat := retryStart
  stage : Stage := .idle
  outbox : List Out := []
  cancelled : Bool := false
  events : List StreamEvent := []
  failures : List (String × String) := []
  log : List Entry := []
  deriving DecidableEq, Repr

/-- A response of the live chat stream. -/
structure Response where
  nextPageToken : String
  items : List (Option LiveChatMessage)
  offlineAt : String := ""
  deriving DecidableEq, Repr

namespace Collector

variable (source : StreamSource)

/-- The collector has something to send. -/
def push (out : List Out) (c : Collector) : Collector :=
  { c with outbox := c.outbox ++ out }

/-- The collector sends a state. -/
def setState (state : String) (c : Collector) : Collector :=
  c.push [.event (StreamEvent.ofState source state)]

/-- Stream before its loop. -/
def start : Collector :=
  if source.accessToken = "" then
    { stage := .ended
      outbox := [.failure unauthorized "YouTube authorization is required"] }
  else ({} : Collector).setState source "connecting"

/-- The heads of the loops. -/
def check (c : Collector) : Collector :=
  match c.stage with
  | .idle => { c with stage := if c.cancelled then .ended else .discovering }
  | .connecting =>
      if c.cancelled then { c with stage := .ended }
      else { c.setState source "live" with stage := .opening }
  | .reading =>
      { c with stage := if c.cancelled then .closing none else .receiving }
  | _ => c

/-- What activeBroadcast returns: an error, or the chat of a broadcast. -/
def discovered (result : Except ProviderError String) (c : Collector) :
    Collector :=
  match result with
  | .error e =>
      { c.push [.failure (typeName e.type) e.detail] with
        stage := if e.type = .unauthorized then .ended else .retrying }
  | .ok liveChatID =>
      if liveChatID = "" then
        { c.setState source "offline" with stage := .parked }
      else { c.setState source "connecting" with
        liveChatID
        pageToken := ""
        retry := retryStart
        stage := .connecting
        log := c.log ++ [.joined liveChatID] }

/-- handleYoutubeLiveChatError -/
def handle (cause : Failure) (c : Collector) : Collector :=
  if c.cancelled ∨ cause.contextCanceled ∨ cause.code = .canceled then
    { c with stage := .ended }
  else match errorType cause.code with
  | none => { c.setState source "offline" with stage := .parked }
  | some type =>
      { c.push [.failure type "YouTube chat connection failed"] with
        stage := if type = unauthorized ∨ type = rejectedCommand then .parked
          else .pausing }

/-- What the call that opens a session returns. -/
def opened (failure : Option Failure) (c : Collector) : Collector :=
  let c : Collector := { c with log := c.log ++ [.opened c.pageToken] }
  match failure with
  | none => { c with stage := .reading }
  | some cause => c.handle source cause

/-- A response is received. -/
def received (response : Response) (c : Collector) : Collector :=
  let c := ({ c with
    retry := retryStart
    pageToken := if response.nextPageToken ≠ "" then response.nextPageToken
      else c.pageToken
    log := c.log ++ [.received response.nextPageToken] } : Collector).push
      ((response.items.filterMap (youtubeMessage source)).map
        fun message => .event (StreamEvent.ofMessage message))
  if response.offlineAt ≠ "" then
    { c.setState source "offline" with stage := .parked }
  else { c with stage := .reading }

/-- The session is closed after its last response; `cause` is none at its
end. -/
def close (cause failure : Option Failure) (c : Collector) : Collector :=
  if c.cancelled then { c with stage := .ended }
  else match cause.or failure with
  | none => { c with stage := .pausing }
  | some cause => c.handle source cause

/-- A wait is over; `elapsed` is false where the context was done. -/
def waited (elapsed : Bool) (c : Collector) : Collector :=
  if elapsed then { c.setState source "connecting" with
    retry := min (c.retry * 2) retryMax
    stage := if c.stage = .retrying then .idle else .connecting
    log := c.log ++ [.waited c.retry] }
  else { c with stage := .ended }

/-- The consumer takes what is sent first. -/
def send (c : Collector) : Collector :=
  match c.outbox with
  | [] => c
  | .event e :: rest => { c with outbox := rest, events := c.events ++ [e] }
  | .failure type detail :: rest =>
      { c with outbox := rest, failures := c.failures ++ [(type, detail)] }

end Collector

-- ==================================== system

/-- The provider's chat, and the collector that reads it. -/
structure System where
  /-- the chat -/
  timeline : List (Option LiveChatMessage) := []
  /-- the tokens that responses have carried, with their places -/
  issued : List (String × Nat) := []
  /-- where the last session began that was opened without a token -/
  start : Nat := 0
  /-- the place of the session -/
  position : Nat := 0
  collector : Collector
  deriving DecidableEq, Repr

/-- What happens to the chat, and what the provider answers. -/
inductive Action
  | append (item : Option LiveChatMessage)
  | check
  | discovered (result : Except ProviderError String)
  /-- `start` is where a session without a token begins -/
  | opened (failure : Option Failure) (start : Nat)
  /-- a response with what is up to a place -/
  | received (stop : Nat) (nextPageToken offlineAt : String)
  /-- a session breaks, or comes to its end -/
  | broken (cause : Option Failure)
  | closed (failure : Option Failure)
  | waited (elapsed : Bool)
  | send
  /-- a send is given up, and a wait for the context to be done is over -/
  | give
  | cancel

namespace System

variable (source : StreamSource)

/-- An empty chat, and a collector that begins. -/
def init : System := { collector := Collector.start source }

/-- The server's part: a response goes on from the place of the session,
and a token stands for one place. -/
def Fits (s : System) (stop : Nat) (nextPageToken : String) : Prop :=
  s.position ≤ stop ∧ stop ≤ s.timeline.length
    ∧ ∀ place ∈ s.issued.lookup nextPageToken, place = stop

instance (s : System) (stop : Nat) (nextPageToken : String) :
    Decidable (s.Fits stop nextPageToken) :=
  inferInstanceAs (Decidable (_ ∧ _ ∧ _))

/-- A session is opened where its token says. -/
def enter (start : Nat) (s : System) : System :=
  match s.issued.lookup s.collector.pageToken with
  | some place => { s with position := place }
  | none => { s with start, position := start }

/-- A step of the collector once nothing is left to be sent. -/
def proceed (s : System) : Action → System
  | .check => { s with collector := s.collector.check source }
  | .discovered result =>
      if s.collector.stage = .discovering then
        { s with collector := s.collector.discovered source result }
      else s
  | .opened failure start =>
      if s.collector.stage = .opening ∧ start ≤ s.timeline.length then
        let entered := if failure.isNone then s.enter start else s
        { entered with collector := s.collector.opened source failure }
      else s
  | .received stop nextPageToken offlineAt =>
      if s.collector.stage = .receiving ∧ s.Fits stop nextPageToken then
        { s with
          issued := if nextPageToken = "" then s.issued
            else (nextPageToken, stop) :: s.issued
          position := stop
          collector := s.collector.received source
            { nextPageToken
              items := Feed.slice s.timeline s.position stop
              offlineAt } }
      else s
  | .broken cause =>
      if s.collector.stage = .receiving then
        { s with collector := { s.collector with stage := .closing cause } }
      else s
  | .closed failure =>
      match s.collector.stage with
      | .closing cause =>
          { s with collector := s.collector.close source cause failure }
      | _ => s
  | .waited elapsed =>
      if (s.collector.stage = .retrying ∨ s.collector.stage = .pausing)
          ∧ (elapsed = true ∨ s.collector.cancelled = true) then
        { s with collector := s.collector.waited source elapsed }
      else s
  | .give =>
      if s.collector.stage = .parked ∧ s.collector.cancelled = true then
        { s with collector := { s.collector with stage := .ended } }
      else s
  | _ => s

/-- A step that is not due does nothing. -/
def step (s : System) (a : Action) : System :=
  match a with
  | .append item => { s with timeline := s.timeline ++ [item] }
  | .cancel => { s with collector := { s.collector with cancelled := true } }
  | .send => { s with collector := s.collector.send }
  | a =>
      match s.collector.outbox with
      | [] => s.proceed source a
      | _ :: rest =>
          match a with
          | .give =>
              if s.collector.cancelled then
                { s with collector := { s.collector with outbox := rest } }
              else s
          | _ => s

end System

-- ================================== readings

/-- The events among what is about to be sent. -/
def pending (outbox : List Out) : List StreamEvent :=
  outbox.filterMap fun out => match out with
    | .event e => some e
    | .failure _ _ => none

/-- The messages that the collector has sent, or is about to. -/
def sent (c : Collector) : List Message :=
  messages c.events ++ messages (pending c.outbox)

/-- What the chat shows between two places. -/
def shown (source : StreamSource) (s : System) : List Message :=
  (Feed.slice s.timeline s.start s.position).filterMap (youtubeMessage source)

/-- Every response of a run carries a token. -/
def Action.Tokened : Action → Prop
  | .received _ nextPageToken _ => nextPageToken ≠ ""
  | _ => True

/-- The last token that a response carried since the chat was joined. -/
def lastToken (log : List Entry) : String :=
  log.foldl (fun token e => match e with
    | .joined _ => ""
    | .received nextPageToken =>
        if nextPageToken ≠ "" then nextPageToken else token
    | _ => token) ""

/-- The duration of a wait. -/
def Entry.wait : Entry → Option Nat
  | .waited seconds => some seconds
  | _ => none

/-- What starts the backoff again. -/
def Entry.resets : Entry → Bool
  | .joined _ | .received _ => true
  | _ => false

end StreamBrew.Chat.Youtube
