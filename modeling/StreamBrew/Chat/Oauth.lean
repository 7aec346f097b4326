/-
Connecting a provider account: oauth.go, and the attempts table.

# Attempts

Start draws a state and a PKCE verifier and stores an attempt under the
hash of the state. The state travels through the browser, so whoever
delivers a callback chooses it. Finish deletes the attempt before any
other check is made; from then on the attempt is only in the hands of
that one call.

# The component

Any number of Start and Finish calls run at once. Start writes in one
transaction, so it is one step. A Finish stands at a stage between its
requests to the database and to the provider, and each request is a
step with an answer that the environment chooses: a statement may take
effect and its reply be lost, and an exchange may fail after it was
sent. The verifier is encrypted at rest, so a row is written here as
what it decrypts to.

The log records what the component asked of others: attempts stored and
consumed, token exchanges sent, and provider accounts saved.
-/
import StreamBrew.Lib.Maps
import StreamBrew.Lib.Run
import StreamBrew.Chat.Store

namespace StreamBrew.Chat.Oauth

open Relational
open Alert (UserID Time jsDate minute second)

-- ================================== attempts

/-- How long a started attempt may be finished. -/
def oauthAttemptLifetime : Time := 10 * minute

/-- A row of chat_oauth_attempt. -/
structure OauthAttempt where
  stateHash : String
  userID : UserID
  provider : Provider
  verifier : String
  returnURL : String
  expiresAt : Time
  deriving DecidableEq, Repr

/-- The table of attempts; only hashes of states are kept. -/
abbrev Attempts := Table OauthAttempt.stateHash

/-- CreateOauthAttempt: one transaction. -/
def createOauthAttempt (now : Time) (attempt : OauthAttempt)
    (attempts : Attempts) : Option Attempts :=
  (attempts.delete fun r => r.expiresAt ≤ now).insert? attempt

/-- `WHERE state_hash = .. AND provider = .. AND expires_at > now()`. -/
def OauthAttempt.Open (stateHash : String) (provider : Provider)
    (now : Time) (r : OauthAttempt) : Prop :=
  r.stateHash = stateHash ∧ r.provider = provider ∧ now < r.expiresAt

instance (stateHash : String) (provider : Provider) (now : Time) :
    DecidablePred (OauthAttempt.Open stateHash provider now) :=
  fun _ => inferInstanceAs (Decidable (_ ∧ _))

/-- ConsumeOauthAttempt: one `DELETE .. RETURNING`. -/
def consumeOauthAttempt (stateHash : String) (provider : Provider)
    (now : Time) (attempts : Attempts) : Option OauthAttempt × Attempts :=
  (attempts.find? (OauthAttempt.Open stateHash provider now),
    attempts.delete (OauthAttempt.Open stateHash provider now))

/-- HasSourceCapacity. -/
def hasSourceCapacity (userID : UserID) (provider : Provider)
    (providerSourceID : String) (db : Db) : Bool :=
  decide (db.sources.Exists fun r => r.userID = userID
      ∧ r.provider = provider ∧ r.providerSourceID = providerSourceID)
    || db.sources.count (fun r => r.userID = userID) < maxSources

-- ==================================== errors

/-- What a callback is redirected with. -/
inductive OauthErrorType
  | providerUnavailable
  | invalidCallback
  | expiredAttempt
  | sessionMismatch
  | tokenExchangeFailed
  | profileFailed
  | sourceLimitReached
  | connectedToAnotherUser
  deriving DecidableEq, Repr

/-- An error with its text and where to return. -/
structure OauthError where
  type : OauthErrorType
  detail : String
  returnURL : String := ""
  deriving DecidableEq, Repr

/-- How a call ends without a connected account; `other` is an error
that is no OauthError. -/
inductive Failure
  | oauth (error : OauthError)
  | other
  deriving DecidableEq, Repr

/-- The provider's name in URLs. -/
def providerName : Provider → String
  | .youtube => "youtube"
  | .twitch => "twitch"
  | .kick => "kick"
  | .boosty => "boosty"
  | .vkVideo => "vk_video"

/-- The provider is not configured. -/
def unavailable (provider : Provider) (returnURL : String) : OauthError where
  type := .providerUnavailable
  detail := "OAuth для " ++ providerName provider ++ " не настроен"
  returnURL

-- ================================= callbacks

/-- What of a provider's configuration decides here. -/
structure ProviderConfig where
  scopes : List String
  usesVKID : Bool := false
  deriving DecidableEq, Repr

/-- What the URL of a callback carries. -/
structure Callback where
  state : String := ""
  code : String := ""
  deviceID : String := ""
  error : String := ""
  deriving DecidableEq, Repr

/-- A Finish call. The callback is missing where the URL, or the JSON
in it, cannot be read; `sessionUserID` is zero where nobody is signed
in. -/
structure Request where
  provider : Provider
  callback : Option Callback
  sessionUserID : Int
  deriving DecidableEq, Repr

/-- The zero value stands for a callback that cannot be read. -/
def Request.values (r : Request) : Callback := r.callback.getD {}

/-- The callback has all that an exchange needs. -/
def Request.complete (r : Request) : Bool :=
  r.callback.isSome && r.values.state ≠ "" && r.values.code ≠ ""
    && r.values.error = ""

/-- What is checked when the attempt has been consumed. -/
def accept (configs : Provider → Option ProviderConfig) (r : Request)
    (attempt : OauthAttempt) : Except OauthError ProviderConfig :=
  if r.sessionUserID ≤ 0 ∨ r.sessionUserID ≠ attempt.userID then
    .error { type := .sessionMismatch
             detail := "OAuth callback does not belong to the signed-in "
               ++ "StreamBrew user"
             returnURL := attempt.returnURL }
  else
    match configs r.provider with
    | none => .error (unavailable r.provider attempt.returnURL)
    | some config =>
        if config.usesVKID && (r.values.deviceID = ""
            || r.values.deviceID.length > 200) then
          .error { type := .invalidCallback
                   detail := "VK ID callback is incomplete"
                   returnURL := attempt.returnURL }
        else .ok config

-- ==================================== tokens

/-- `scope` of a token response, which is any JSON. -/
inductive Scope
  | text (scopes : String)
  | list (scopes : List String)
  | neither
  deriving DecidableEq, Repr

/-- The body of a token response. -/
structure RawToken where
  accessToken : String
  refreshToken : Option String
  expiresIn : Option Int
  scope : Option Scope
  state : String
  userID : String
  deriving DecidableEq, Repr

/-- The response of a token request. -/
structure OauthToken where
  accessToken : String
  refreshToken : String
  expiresIn : Option Int
  scope : Option Scope
  deriving DecidableEq, Repr

/-- `strconv.ParseInt(text, 10, 64)`. -/
def parseInt (text : String) : Option Int :=
  let (sign, digits) : Int × List Char := match text.toList with
    | '+' :: rest => (1, rest)
    | '-' :: rest => (-1, rest)
    | rest => (1, rest)
  if digits = [] ∨ ¬ digits.all Char.isDigit then none
  else
    let value := sign * Nat.ofDigitChars 10 digits 0
    if -2 ^ 63 ≤ value ∧ value < 2 ^ 63 then some value else none

/-- exchangeToken, once the response has been read. -/
def readToken (config : ProviderConfig) (callback : Callback)
    (raw : RawToken) : Option OauthToken :=
  if config.usesVKID && (raw.state ≠ callback.state || raw.userID = ""
      || (parseInt raw.userID).all (· ≤ 0)) then none
  else if raw.accessToken = "" || raw.refreshToken = some ""
      || raw.expiresIn.any (· ≤ 0) || raw.scope = some .neither then none
  else some
    { accessToken := raw.accessToken
      refreshToken := raw.refreshToken.getD ""
      expiresIn := raw.expiresIn
      scope := raw.scope }

/-- `strings.FieldsFunc`, split at spaces and commas. -/
def fields (text : String) : List String :=
  ((text.toList.splitOnP fun c => c = ' ' || c = ',').filter (· ≠ [])).map
    String.ofList

/-- Scopes come as a text, a list or not at all. -/
def normalizedScopes (scope : Option Scope) (fallback : List String) :
    List String :=
  match scope with
  | some (.text scopes) => fields scopes
  | some (.list scopes) => scopes
  | _ => fallback

/-- The account that was authorized. -/
structure ProviderIdentity where
  providerUserID : String
  displayName : String
  sourceURL : String
  deriving DecidableEq, Repr

/-- The greatest safe integer of JavaScript. -/
def maxSafeInteger : Int := 9007199254740991

-- ===================================== calls

/-- What a Finish has in hand when it knows the account. -/
structure Account where
  attempt : OauthAttempt
  config : ProviderConfig
  token : OauthToken
  identity : ProviderIdentity
  deriving DecidableEq, Repr

/-- Where a Finish stands: each stage is named by what it does next. -/
inductive Stage
  | consuming
  | exchanging (attempt : OauthAttempt) (config : ProviderConfig)
  | answering (attempt : OauthAttempt) (config : ProviderConfig)
  | identifying (attempt : OauthAttempt) (config : ProviderConfig)
      (token : OauthToken)
  | limiting (account : Account)
  | subscribing (account : Account)
  | saving (account : Account)
  | ended (result : Except Failure String)
  deriving DecidableEq

/-- A callback that is handled. -/
structure Call where
  request : Request
  stage : Stage
  deriving DecidableEq

/-- The environment's part in the next step of a Finish. -/
inductive Answer
  | consumed (now : Time) (reply : Reply)
  /-- the exchange leaves for the provider -/
  | sent
  | token (response : Option RawToken)
  /-- the profile of the account, or the detail of the error -/
  | profile (identity : Except String ProviderIdentity)
  | capacity (reply : Reply)
  | subscribed (accepted : Bool)
  | saved (now : Time) (reply : Reply)
  deriving DecidableEq

/-- What the log of the system records. -/
inductive Event
  | started (state : String) (attempt : OauthAttempt)
  | consumed (finishID : Nat) (request : Request) (now : Time)
      (attempt : OauthAttempt)
  | exchanged (finishID : Nat) (request : Request) (verifier : String)
  | saved (finishID : Nat) (request : Request) (userID : UserID)
      (connection : SaveConnection) (source : SaveSource)
  deriving DecidableEq

/-- The attempts, the database, the callbacks, and the log. -/
structure System where
  attempts : Attempts := .empty
  db : Db := .init
  calls : List Call := []
  log : List Event := []

/-- Starts, callbacks and their steps, and other writes. -/
inductive Action
  /-- a Start, with what it draws, the clocks of the service and of the
  database, and what becomes of its transaction -/
  | start (userID : UserID) (provider : Provider)
      (returnURL state verifier : String) (clock now : Time)
      (reply : Reply)
  | finish (request : Request)
  | proceed (finishID : Nat) (answer : Answer)
  /-- a user is deleted, and the attempts with it -/
  | deleteUser (userID : UserID)
  /-- other calls write the tables of connections and sources -/
  | write (db : Db)

/-- The connection and the source that are saved. -/
def Account.connection (now : Time) (r : Request) (a : Account) :
    SaveConnection where
  provider := r.provider
  providerUserID := a.identity.providerUserID
  displayName := a.identity.displayName
  accessToken := a.token.accessToken
  refreshToken := a.token.refreshToken
  oauthDeviceID := r.values.deviceID
  accessTokenExpiresAt := a.token.expiresIn.map fun seconds =>
    now + seconds * second
  scopes := normalizedScopes a.token.scope a.config.scopes

/-- The chat source of an account. -/
def Account.source (r : Request) (a : Account) : SaveSource where
  provider := r.provider
  providerSourceID := a.identity.providerUserID
  displayName := a.identity.displayName
  sourceURL := a.identity.sourceURL

/-- The stage after the account is known to have room. -/
def Account.admitted (r : Request) (a : Account) : Stage :=
  if r.provider = .kick then
    if (parseInt a.identity.providerUserID).any fun broadcasterID =>
        0 < broadcasterID ∧ broadcasterID ≤ maxSafeInteger then
      .subscribing a
    else .ended (.error (.oauth
      { type := .profileFailed
        detail := "Kick вернул некорректный идентификатор канала"
        returnURL := a.attempt.returnURL }))
  else .saving a

/-- The result of SaveProviderAccount as Finish returns it. -/
def Account.result (a : Account) :
    Except StoreError SourceID → Except Failure String
  | .ok _ => .ok a.attempt.returnURL
  | .error .providerAccountConnectedElsewhere => .error (.oauth
      { type := .connectedToAnotherUser
        detail := "Аккаунт уже подключён к другому пользователю StreamBrew"
        returnURL := a.attempt.returnURL })
  | .error .chatSourceLimitReached => .error (.oauth
      { type := .sourceLimitReached
        detail := "Достигнут лимит подключённых чат-каналов"
        returnURL := a.attempt.returnURL })
  | .error _ => .error .other

namespace System

/-- A callback goes on. -/
def setStage (finishID : Nat) (stage : Stage) (s : System) : System :=
  { s with calls := s.calls.modify finishID ({ · with stage }) }

/-- An event is logged. -/
def record (event : Event) (s : System) : System :=
  { s with log := s.log ++ [event] }

/-- A Start: nothing for a provider that is not configured. -/
def start (sha : String → String)
    (configs : Provider → Option ProviderConfig) (userID : UserID)
    (provider : Provider) (returnURL state verifier : String)
    (clock now : Time) (reply : Reply) (s : System) : System :=
  if (configs provider).isNone ∨ reply = .failed then s
  else
    let attempt : OauthAttempt :=
      { stateHash := sha state
        userID, provider, verifier, returnURL
        expiresAt := jsDate (clock + oauthAttemptLifetime) }
    match createOauthAttempt now attempt s.attempts with
    | none => s
    | some attempts => { s with attempts }.record (.started state attempt)

/-- The attempt is taken out of the table, and then checked. -/
def consume (sha : String → String)
    (configs : Provider → Option ProviderConfig) (finishID : Nat)
    (request : Request) (now : Time) (reply : Reply) (s : System) : System :=
  if reply = .failed then s.setStage finishID (.ended (.error .other))
  else
    let (consumed, attempts) := consumeOauthAttempt
      (sha request.values.state) request.provider now s.attempts
    let deleted := { s with attempts }
    if reply = .lost then
      deleted.setStage finishID (.ended (.error .other))
    else
      match consumed with
      | none => deleted.setStage finishID (.ended (.error (.oauth
          { type := .expiredAttempt, detail := "OAuth attempt expired" })))
      | some attempt =>
          let consumed := deleted.record
            (.consumed finishID request now attempt)
          match accept configs request attempt with
          | .error e => consumed.setStage finishID (.ended (.error (.oauth e)))
          | .ok config =>
              consumed.setStage finishID (.exchanging attempt config)

/-- SaveProviderAccount. -/
def save (finishID : Nat) (request : Request) (account : Account)
    (now : Time) (reply : Reply) (s : System) : System :=
  let connection := account.connection now request
  let source := account.source request
  let saved := s.record
    (.saved finishID request account.attempt.userID connection source)
  if reply = .failed then
    saved.setStage finishID (.ended (.error .other))
  else
    let (result, db) := saveProviderAccount account.attempt.userID
      connection source s.db
    { saved with db }.setStage finishID (.ended
      (if reply = Reply.lost then .error .other
        else account.result result))

/-- The next step of a Finish. -/
def proceed (sha : String → String)
    (configs : Provider → Option ProviderConfig) (finishID : Nat)
    (request : Request) (stage : Stage) (answer : Answer) (s : System) :
    System :=
  match stage, answer with
  | .consuming, .consumed now reply =>
      s.consume sha configs finishID request now reply
  | .exchanging attempt config, .sent =>
      (s.record (.exchanged finishID request attempt.verifier)).setStage
        finishID (.answering attempt config)
  | .answering attempt config, .token response =>
      match response.bind (readToken config request.values) with
      | none => s.setStage finishID (.ended (.error (.oauth
          { type := .tokenExchangeFailed
            detail := "Не удалось завершить OAuth "
              ++ providerName request.provider
            returnURL := attempt.returnURL })))
      | some token =>
          s.setStage finishID (.identifying attempt config token)
  | .identifying attempt config token, .profile identity =>
      match identity with
      | .error detail => s.setStage finishID (.ended (.error (.oauth
          { type := .profileFailed, detail
            returnURL := attempt.returnURL })))
      | .ok identity => s.setStage finishID
          (.limiting { attempt, config, token, identity })
  | .limiting account, .capacity reply =>
      if reply ≠ .answered then
        s.setStage finishID (.ended (.error .other))
      else if hasSourceCapacity account.attempt.userID request.provider
          account.identity.providerUserID s.db then
        s.setStage finishID (account.admitted request)
      else s.setStage finishID (.ended (.error (.oauth
        { type := .sourceLimitReached
          detail := "Достигнут лимит подключённых чат-каналов"
          returnURL := account.attempt.returnURL })))
  | .subscribing account, .subscribed accepted =>
      if accepted then s.setStage finishID (.saving account)
      else s.setStage finishID (.ended (.error (.oauth
        { type := .profileFailed
          detail := "Не удалось подписаться на события чата Kick"
          returnURL := account.attempt.returnURL })))
  | .saving account, .saved now reply =>
      s.save finishID request account now reply
  | _, _ => s

/-- A step of the component. An answer that a call does not wait for
does nothing. -/
def step (sha : String → String)
    (configs : Provider → Option ProviderConfig) (s : System) :
    Action → System
  | .start userID provider returnURL state verifier clock now reply =>
      s.start sha configs userID provider returnURL state verifier clock
        now reply
  | .finish request =>
      let stage := if request.complete then .consuming
        else .ended (.error (.oauth
          { type := .invalidCallback
            detail := "OAuth callback is incomplete" }))
      { s with calls := s.calls ++ [{ request, stage }] }
  | .proceed finishID answer =>
      match s.calls[finishID]? with
      | none => s
      | some call =>
          s.proceed sha configs finishID call.request call.stage answer
  | .deleteUser userID =>
      { s with attempts := s.attempts.delete fun r => r.userID = userID }
  | .write db => { s with db }

end System

end StreamBrew.Chat.Oauth
