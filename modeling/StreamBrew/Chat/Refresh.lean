/-
Token refresh: token_refresh.go, and the component it is part of.

# A refresh

A refresh starts from a connected source that someone loaded earlier,
asks the provider's token endpoint, and writes what it was given under
the version that it started from. A definitive failure, of a refresh or
of the provider's own stream, is recorded under the same guard.

# The component

Collectors and commands of any number of service instances load sources
and refresh them, while owners connect, reconnect and disconnect. The
load, the exchange and the guarded write are steps of their own, so a
run covers every order of them. Sources that were loaded or renewed
stay `held`: a collector that starts over begins with the source it was
started with.
-/
import StreamBrew.Lib.Run
import StreamBrew.Chat.Store

namespace StreamBrew.Chat

open Relational
open Alert (UserID Time jsDate second minute)

-- ==================================== errors

/-- What kind of failure a provider reported. -/
inductive ProviderErrorType
  | unauthorized
  | refreshRequired
  | rateLimited
  | unavailable
  deriving DecidableEq, Repr

/-- A failure with its text. -/
structure ProviderError where
  type : ProviderErrorType
  detail : String
  deriving DecidableEq, Repr

/-- The failure of a request by its status. -/
def operationError (detail : String) (status : Option Nat) : ProviderError :=
  if status = some 401 then { type := .unauthorized, detail }
  else if status = some 429 then { type := .rateLimited, detail }
  else { type := .unavailable, detail }

/-- The tokens could not be refreshed this time. -/
def refreshProviderError (detail : String) : ProviderError :=
  { type := .unauthorized, detail }

/-- The refresh token is rejected for good. -/
def refreshRequiredError (detail : String) : ProviderError :=
  { type := .refreshRequired, detail }

/-- The owner has to connect again. -/
def requiresReauthorization (error : ProviderError) : Bool :=
  error.type = .refreshRequired

-- ============================== one exchange

/-- How long before its expiry a token is refreshed. -/
def refreshEarly : Time := minute

/-- Which kind of provider refreshes. -/
structure RefreshConfig where
  usesVKID : Bool := false
  usesBoosty : Bool := false
  deriving DecidableEq, Repr

/-- A token response, and whether its body could be decoded. -/
structure Token where
  decoded : Bool
  accessToken : String
  refreshToken : Option String
  expiresIn : Option Int
  state : String
  error : String
  deriving DecidableEq, Repr

/-- What a token endpoint does with a request. With a Boosty token the
account is read as well; its blog is given in lower case, without
spaces around it. -/
inductive Answer
  | failed
  | refused (status : Nat) (code message : String)
  | answered (token : Token) (blog : Except ProviderError String)
  deriving DecidableEq, Repr

/-- Credentials to be stored. -/
structure Renewal where
  accessToken : String
  refreshToken : String
  expiresAt : Option Time
  deriving DecidableEq, Repr

/-- The simple case folding of `strings.EqualFold`, for a letter that is
compared with an ASCII letter. -/
def fold (c : Char) : Char :=
  if c = 'ſ' then 's' else if c = '\u212a' then 'k' else c.toLower

/-- strings.EqualFold with a text of ASCII letters. -/
def equalFold (text ascii : String) : Bool :=
  text.toList.map fold = ascii.toList.map fold

/-- The answer rejects the refresh token itself. -/
def rejectsRefreshToken (config : RefreshConfig) (status : Nat)
    (code message : String) : Bool :=
  if config.usesBoosty then
    status = 400 || status = 401 || status = 403
  else code = "invalid_grant"
    || (status = 400 && equalFold message "Invalid refresh token")

/-- The failure that an answer is. -/
def refreshResponseError (config : RefreshConfig) (status : Nat)
    (code message : String) : ProviderError :=
  if rejectsRefreshToken config status code message then
    refreshRequiredError "The provider rejected the chat refresh token"
  else if config.usesBoosty then
    operationError "Could not refresh Boosty authorization" (some status)
  else refreshProviderError "Не удалось обновить авторизацию чата"

/-- The response is none that a provider may give. -/
def Token.invalid (config : RefreshConfig) (state : String)
    (token : Token) : Bool :=
  !token.decoded || token.accessToken = "" || token.refreshToken = some ""
    || token.expiresIn.any (· ≤ 0)
    || (config.usesVKID && token.state ≠ state)
    || (config.usesBoosty && (token.refreshToken.isNone
      || token.expiresIn.all fun seconds =>
        seconds ≤ 0 || seconds > 31536000))

/-- The credentials last long enough. -/
def fresh (now : Time) (source : ConnectedSource) : Bool :=
  let expiresAt := source.credentials.expiresAt
  let unknownBoostyExpiry := source.source.provider = .boosty
    ∧ expiresAt = none ∧ source.credentials.refreshToken ≠ ""
  ¬ unknownBoostyExpiry ∧ (expiresAt.all fun t => t > now + refreshEarly)

/-- The answer of the token endpoint, up to the write: nothing while the
credentials last, or what is to be stored. `state` is the value drawn
for a VK ID request. -/
def refreshed (configs : Provider → Option RefreshConfig) (now : Time)
    (state : String) (source : ConnectedSource) (answer : Answer) :
    Except ProviderError (Option Renewal) :=
  if fresh now source then .ok none
  else if source.credentials.refreshToken = "" then
    .error (refreshRequiredError "The chat connection has no refresh token")
  else
    match configs source.source.provider with
    | none => .error { type := .unauthorized
                       detail := "Подключение чата нужно авторизовать заново" }
    | some config =>
        if config.usesBoosty && source.credentials.deviceID = "" then
          .error (refreshRequiredError
            "Reconnect Boosty with a refresh token and device ID")
        else if config.usesVKID && source.credentials.deviceID = "" then
          .error (refreshRequiredError
            "The VK Video connection has no device ID")
        else
          match answer with
          | .failed =>
              if config.usesBoosty then .error (operationError
                "Could not refresh Boosty authorization" none)
              else .error (refreshProviderError
                "Не удалось обновить авторизацию чата")
          | .refused status code message =>
              .error (refreshResponseError config status code message)
          | .answered token blog =>
              if token.error = "invalid_grant" then
                .error (refreshRequiredError
                  "The provider rejected the chat refresh token")
              else if token.invalid config state then
                .error (refreshProviderError
                  "Не удалось обновить авторизацию чата")
              else
                let renewal : Renewal :=
                  { accessToken := token.accessToken
                    refreshToken := token.refreshToken.getD
                      source.credentials.refreshToken
                    expiresAt := token.expiresIn.map fun seconds =>
                      now + seconds * second }
                if config.usesBoosty then
                  match blog with
                  | .error e =>
                      if e.type = .unauthorized then
                        .error (refreshRequiredError
                          "Boosty rejected the renewed access token")
                      else .error e
                  | .ok blog =>
                      if blog ≠ source.source.providerSourceID then
                        .error (refreshRequiredError
                  "Boosty refresh token belongs to a different account")
                      else .ok (some renewal)
                else .ok (some renewal)

/-- The source with the credentials that were stored. -/
def ConnectedSource.renewed (renewal : Renewal) (tokenVersion : Nat)
    (source : ConnectedSource) : ConnectedSource :=
  { source with credentials :=
    { accessToken := renewal.accessToken
      refreshToken := renewal.refreshToken
      deviceID := source.credentials.deviceID
      expiresAt := renewal.expiresAt
      scopes := source.credentials.scopes
      tokenVersion } }

-- ============================= the component

/-- Where a refresh stands. -/
inductive RefreshStage
  | asking
  | renewing (renewal : Renewal)
  | rejecting
  | ended
  deriving DecidableEq, Repr

/-- A refresh that runs somewhere, or a failure of a provider stream
that is about to be recorded. -/
structure Refresh where
  source : ConnectedSource
  stage : RefreshStage
  deriving DecidableEq, Repr

/-- The database, what was loaded from it, and the refreshes. -/
structure Service where
  db : Db
  held : List ConnectedSource := []
  refreshes : List Refresh := []

/-- The writes of owners, and the steps of refreshes. -/
inductive Action
  | connect (userID : UserID) (connection : SaveConnection)
      (source : SaveSource)
  | disconnect (userID : UserID) (connectionID : ConnectionID)
  | setSourceEnabled (userID : UserID) (sourceID : SourceID)
      (enabled : Bool)
  /-- load a source, by any of the selections -/
  | load (source : OwnedConnectedSource)
  /-- begin a refresh with a source that was loaded or renewed -/
  | refresh (source : ConnectedSource)
  /-- the provider's stream reports a definitive failure -/
  | reject (source : ConnectedSource)
  /-- the answer of the token endpoint -/
  | exchange (refreshID : Nat) (now : Time) (state : String)
      (answer : Answer)
  /-- UpdateConnectionCredentials -/
  | write (refreshID : Nat)
  /-- MarkRefreshRequired -/
  | mark (refreshID : Nat)
  deriving DecidableEq, Repr

/-- A refresh goes on. -/
def Service.setStage (refreshID : Nat) (stage : RefreshStage)
    (s : Service) : Service :=
  { s with
    refreshes := s.refreshes.modify refreshID ({ · with stage }) }

/-- The guarded write of a refresh. -/
def Service.write (refreshID : Nat) (source : ConnectedSource)
    (renewal : Renewal) (s : Service) : Service :=
  let (version, db) := updateConnectionCredentials
    source.source.connectionID source.credentials.tokenVersion
    renewal.accessToken renewal.refreshToken renewal.expiresAt s.db
  let ended := { s with db }.setStage refreshID .ended
  match version with
  | none => ended
  | some tokenVersion =>
      { ended with
        held := source.renewed renewal tokenVersion :: ended.held }

/-- requireReauthorization. -/
def Service.mark (refreshID : Nat) (source : ConnectedSource)
    (s : Service) : Service :=
  let (_, db) := markRefreshRequired source.source.connectionID
    source.credentials.tokenVersion s.db
  { s with db }.setStage refreshID .ended

/-- A step of the component. Calls for what is not there do nothing, and
neither does a call that fails. -/
def Service.step (configs : Provider → Option RefreshConfig)
    (s : Service) : Action → Service
  | .connect userID connection source =>
      { s with db := (saveProviderAccount userID connection source s.db).2 }
  | .disconnect userID connectionID =>
      { s with db := Chat.disconnect userID connectionID s.db }
  | .setSourceEnabled userID sourceID enabled =>
      { s with db := (Chat.setSourceEnabled userID sourceID enabled s.db).2 }
  | .load source =>
      if source ∈ loadConnectedSources source.userID none s.db then
        { s with held := source.connectedSource :: s.held }
      else s
  | .refresh source =>
      if source ∈ s.held then
        { s with refreshes := s.refreshes ++ [{ source, stage := .asking }] }
      else s
  | .reject source =>
      if source ∈ s.held then
        { s with
          refreshes := s.refreshes ++ [{ source, stage := .rejecting }] }
      else s
  | .exchange refreshID now state answer =>
      match s.refreshes[refreshID]? with
      | some { source, stage := .asking } =>
          match refreshed configs now state source answer with
          | .ok none => s.setStage refreshID .ended
          | .ok (some renewal) => s.setStage refreshID (.renewing renewal)
          | .error e =>
              if requiresReauthorization e then
                s.setStage refreshID .rejecting
              else s.setStage refreshID .ended
      | _ => s
  | .write refreshID =>
      match s.refreshes[refreshID]? with
      | some { source, stage := .renewing renewal } =>
          s.write refreshID source renewal
      | _ => s
  | .mark refreshID =>
      match s.refreshes[refreshID]? with
      | some { source, stage := .rejecting } => s.mark refreshID source
      | _ => s

/-- A service with an empty database. -/
def Service.init : Service := { db := Db.init }

end StreamBrew.Chat
