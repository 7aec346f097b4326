/-
Moderation commands: Application.Moderate, and the calls of store.go
that it makes.

# A command

A provider that lifts a ban by its identifier (YouTube does) needs the
identifier that it gave when the ban was made, so the identifier is
stored for the source and the banned user. Between the provider's answer
and that write stands the audit entry, which may fail.

# The component

Any number of commands run at once. The requests of a command to the
database and to the provider are steps of their own, and their outcomes
are the environment's. The log records the commands that a provider
carried out, in the order in which it did.
-/
import StreamBrew.Lib.Maps
import StreamBrew.Lib.Run
import StreamBrew.Chat.Store

namespace StreamBrew.Chat.Moderation

open Relational
open Alert (UserID trimSpace)

-- ============================== capabilities

/-- What a connected source can do. -/
inductive Capability
  | read
  | sendMessage
  | deleteMessage
  | timeoutUser
  | banUser
  | unbanUser
  deriving DecidableEq, Repr

/-- The capabilities that all scopes of a provider grant together, each
with its scope. -/
def granted (scopes : List String) (table : List (String × List Capability)) :
    List Capability :=
  table.flatMap fun (scope, capabilities) =>
    if scope ∈ scopes then capabilities else []

/-- The scopes that were granted decide. -/
def capabilitiesFor (provider : Provider) (scopes : List String) :
    List Capability :=
  match provider with
  | .boosty | .vkVideo => [.read]
  | .youtube =>
      if "https://www.googleapis.com/auth/youtube.force-ssl" ∈ scopes then
        [.read, .sendMessage, .deleteMessage, .timeoutUser, .banUser,
          .unbanUser]
      else [.read]
  | .twitch => granted scopes
      [("user:read:chat", [.read]),
       ("user:write:chat", [.sendMessage]),
       ("moderator:manage:chat_messages", [.deleteMessage]),
       ("moderator:manage:banned_users",
         [.timeoutUser, .banUser, .unbanUser])]
  | .kick => granted scopes
      [("events:subscribe", [.read]),
       ("chat:write", [.sendMessage]),
       ("moderation:chat_message:manage", [.deleteMessage]),
       ("moderation:ban", [.timeoutUser, .banUser, .unbanUser])]

-- ================================== commands

/-- Two weeks. -/
def maxTimeoutSeconds : Int := 1209600

/-- What is asked of a source. -/
inductive CommandType
  | deleteMessage
  | timeoutUser
  | banUser
  | unbanUser
  /-- any other text -/
  | other
  deriving DecidableEq, Repr

/-- A command as the API receives it. -/
structure ModerationCommand where
  type : CommandType
  sourceID : SourceID
  messageID : String := ""
  providerUserID : String := ""
  durationSeconds : Int := 0
  reason : String := ""
  deriving DecidableEq, Repr

namespace ModerationCommand

/-- Other commands are refused before a capability is looked up. -/
def requiredCapability (c : ModerationCommand) : Capability :=
  match c.type with
  | .deleteMessage => .deleteMessage
  | .timeoutUser => .timeoutUser
  | .banUser => .banUser
  | .unbanUser => .unbanUser
  | .other => .read

/-- The reason without the white space around it. -/
def trimmed (c : ModerationCommand) : ModerationCommand :=
  { c with reason := trimSpace c.reason }

/-- Validate; an identifier of a source is well formed here. -/
def validate (c : ModerationCommand) : Option String :=
  let invalidUser := c.providerUserID = "" || c.providerUserID.length > 200
  match c.type with
  | .deleteMessage =>
      if c.messageID = "" || c.messageID.length > 300 then
        some "invalid provider message id"
      else none
  | .timeoutUser =>
      if invalidUser || c.durationSeconds ≤ 0
          || c.durationSeconds > maxTimeoutSeconds
          || c.reason.length > 500 then
        some "invalid timeout command"
      else none
  | .banUser =>
      if invalidUser || c.reason.length > 500 then
        some "invalid ban command"
      else none
  | .unbanUser =>
      if invalidUser then some "invalid unban command" else none
  | .other => some "invalid moderation command"

end ModerationCommand

/-- How a command ended. -/
inductive CommandStatus
  | succeeded
  | failed
  deriving DecidableEq, Repr

/-- What the API answers. -/
structure CommandResult where
  sourceID : SourceID
  status : CommandStatus
  detail : String := ""
  deriving DecidableEq, Repr

/-- The errors that precede the provider's answer. -/
inductive ApplicationErrorType
  | invalidCommand
  | sourceNotFound
  | commandUnsupported
  deriving DecidableEq, Repr

/-- How a command ends without a result; `other` is the error of a
request. -/
inductive Failure
  | application (type : ApplicationErrorType) (detail : String)
  | other
  deriving DecidableEq, Repr

/-- The carried out command, with the identifier that the provider
returned, or the detail of its error. -/
abbrev Outcome := Except String String

/-- A row of chat_moderation_action. -/
structure AuditEntry where
  userID : UserID
  sourceID : SourceID
  provider : Provider
  actionType : CommandType
  status : CommandStatus
  providerMessageID : String
  providerUserID : String
  durationSeconds : Int
  reason : String
  detail : String
  deriving DecidableEq, Repr

/-- The answer by what the provider said. -/
def result (c : ModerationCommand) : Outcome → CommandResult
  | .ok _ => { sourceID := c.sourceID, status := .succeeded }
  | .error detail => { sourceID := c.sourceID, status := .failed, detail }

/-- The entry of the log of a command. -/
def audit (userID : UserID) (source : ConnectedSource)
    (c : ModerationCommand) (outcome : Outcome) : AuditEntry where
  userID
  sourceID := c.sourceID
  provider := source.source.provider
  actionType := c.type
  status := (result c outcome).status
  providerMessageID := if c.type = .deleteMessage then c.messageID else ""
  providerUserID := if c.type = .deleteMessage then "" else c.providerUserID
  durationSeconds := c.durationSeconds
  reason := c.reason
  detail := (result c outcome).detail

-- ===================================== calls

/-- A source and a user of its chat. -/
structure BanKey where
  sourceID : SourceID
  providerUserID : String
  deriving DecidableEq, Repr

/-- The ban that a command is about. -/
def ModerationCommand.key (c : ModerationCommand) : BanKey :=
  ⟨c.sourceID, c.providerUserID⟩

/-- A row of chat_provider_ban. -/
structure ProviderBan where
  key : BanKey
  providerBanID : String
  deriving DecidableEq, Repr

/-- Where a command stands: each stage is named by what it does next. -/
inductive Stage
  | loading
  | reading (source : ConnectedSource)
  | calling (source : ConnectedSource) (providerBanID : String)
  | auditing (source : ConnectedSource) (outcome : Outcome)
  | saving (providerBanID : String)
  | deleting
  | publishing
  | ended (result : Except Failure CommandResult)
  deriving DecidableEq

/-- A call of Moderate that is under way. -/
structure Call where
  userID : UserID
  command : ModerationCommand
  stage : Stage
  deriving DecidableEq

/-- The environment's part in the next step of a command. -/
inductive Answer
  /-- GetSource, or its failure -/
  | loaded (source : Option (Option ConnectedSource))
  | read (reply : Reply)
  | called (outcome : Outcome)
  | audited (reply : Reply)
  | saved (reply : Reply)
  | deleted (reply : Reply)
  | published (reply : Reply)
  deriving DecidableEq

/-- A command that a provider carried out. -/
structure Effect where
  command : ModerationCommand
  providerBanID : String
  deriving DecidableEq, Repr

/-- The tables, the calls and what they did. -/
structure System where
  bans : Table ProviderBan.key := .empty
  actions : List AuditEntry := []
  calls : List Call := []
  log : List Effect := []

/-- A call begins, or takes a step. -/
inductive Action
  | moderate (userID : UserID) (command : ModerationCommand)
  | proceed (callID : Nat) (answer : Answer)
  deriving DecidableEq

/-- reconnectRequired: a source whose connection is not connected is not
asked. -/
def request (source : ConnectedSource) (providerBanID : String) : Stage :=
  if source.connectionStatus = .connected then
    .calling source providerBanID
  else .auditing source
    (.error "Reconnect the chat account to use it again")

/-- The stage after GetSource. -/
def afterGetSource (configured : Provider → Bool) (c : ModerationCommand) :
    Option (Option ConnectedSource) → Stage
  | none => .ended (.error .other)
  | some none => .ended (.error
      (.application .sourceNotFound "Chat source not found"))
  | some (some source) =>
      let capabilities := capabilitiesFor source.source.provider
        source.credentials.scopes
      if !configured source.source.provider
          || !capabilities.contains c.requiredCapability then
        .ended (.error (.application .commandUnsupported
          "This action is not available for the provider connection"))
      else if c.type = .unbanUser then .reading source
      else request source ""

/-- The stage after the identifier has been saved, or need not be. -/
def afterSave (c : ModerationCommand) : Stage :=
  if c.type = .unbanUser then .deleting
  else if c.type = .deleteMessage then .publishing
  else .ended (.ok (result c (.ok "")))

/-- The stage after the audit entry has been written. -/
def afterAudit (c : ModerationCommand) : Outcome → Stage
  | .error detail => .ended (.ok (result c (.error detail)))
  | .ok providerBanID =>
      if providerBanID ≠ "" ∧ c.type ≠ .deleteMessage then
        .saving providerBanID
      else afterSave c

namespace System

/-- GetProviderBanID: the identifier stored for a user, or none. -/
def getProviderBanID (key : BanKey) (s : System) : String :=
  ((s.bans.get? key).map ProviderBan.providerBanID).getD ""

/-- A call goes on. -/
def setStage (callID : Nat) (stage : Stage) (s : System) : System :=
  { s with calls := s.calls.modify callID ({ · with stage }) }

/-- A write that may fail, or take effect with its reply lost. -/
def write (callID : Nat) (reply : Reply) (written : System → System)
    (next : Stage) (s : System) : System :=
  let after := if reply = .failed then s else written s
  after.setStage callID
    (if reply = .answered then next else .ended (.error .other))

/-- The next step of a command. -/
def proceed (configured : Provider → Bool) (callID : Nat) (call : Call)
    (answer : Answer) (s : System) : System :=
  let c := call.command
  match call.stage, answer with
  | .loading, .loaded source =>
      s.setStage callID (afterGetSource configured c source)
  | .reading source, .read reply =>
      s.setStage callID
        (if reply = .answered then request source (s.getProviderBanID c.key)
          else .ended (.error .other))
  | .calling source _, .called outcome =>
      let called : System := match outcome with
        | .ok providerBanID =>
            { s with log := s.log ++ [{ command := c, providerBanID }] }
        | .error _ => s
      called.setStage callID (.auditing source outcome)
  | .auditing source outcome, .audited reply =>
      s.write callID reply
        (fun s => { s with
          actions := s.actions ++ [audit call.userID source c outcome] })
        (afterAudit c outcome)
  | .saving providerBanID, .saved reply =>
      s.write callID reply
        (fun s => { s with
          bans := s.bans.put { key := c.key, providerBanID } })
        (afterSave c)
  | .deleting, .deleted reply =>
      s.write callID reply
        (fun s => { s with bans := s.bans.erase c.key })
        (.ended (.ok (result c (.ok ""))))
  | .publishing, .published reply =>
      s.write callID reply id (.ended (.ok (result c (.ok ""))))
  | _, _ => s

/-- A step of the component. An answer that a command does not wait for
does nothing. -/
def step (configured : Provider → Bool) (s : System) : Action → System
  | .moderate userID command =>
      let command := command.trimmed
      let stage := match command.validate with
        | none => .loading
        | some detail => .ended (.error (.application .invalidCommand detail))
      { s with calls := s.calls ++ [{ userID, command, stage }] }
  | .proceed callID answer =>
      match s.calls[callID]? with
      | none => s
      | some call => s.proceed configured callID call answer

end System

end StreamBrew.Chat.Moderation
