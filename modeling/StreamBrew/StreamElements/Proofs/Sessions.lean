/-
What a StreamElements session may emit, and what becomes of a reconnect
token.

Both are said on the log alone. What a log tells of the current session is
`Standing`: it was welcomed, and it took over a subscription or got the
response to its own nonce. The variables of runSession agree with that in
every stage (`Knows`), and the variables that Run carries to the next
session agree with the last notice (`Holds`): a token is only carried
right after it was given, and it says that its session was subscribed
exactly when that session was.
-/
import StreamBrew.Lib.Run
import StreamBrew.Lib.History
import StreamBrew.StreamElements.Source

namespace StreamBrew.StreamElements

open Alert (Time trimSpace)
open History

variable {parseTime : String → Option Time} {s : System} {log : List Event}

-- ================================== standing

/-- A valid welcome. -/
def Envelope.welcomes (e : Envelope) : Bool :=
  e.type = "welcome" && e.clientID.getD "" ≠ ""

/-- The room of a successful response to a nonce. -/
def Envelope.confirms (e : Envelope) (nonce : String) : Option String :=
  if e.type = "response" ∧ e.error = "" ∧ e.nonce = nonce then
    (e.response.filter fun r => r.topic = tipsTopic ∧ r.room ≠ "").map
      SubscriptionResponse.room
  else none

/-- The token of a reconnect notice. -/
def Envelope.token (e : Envelope) : String :=
  if e.type = "reconnect" then e.reconnectToken.getD "" else ""

/-- What a log tells of the current session: the room of the subscription
that it was opened to take over, whether it was welcomed, the nonce that
it subscribed with, and the room of the first successful response. -/
structure Standing where
  restores : Option String := none
  welcomed : Bool := false
  nonce : Option String := none
  confirmed : Option String := none

/-- The room of a session that is subscribed. -/
def Standing.active (x : Standing) : Option String :=
  if x.welcomed then x.restores.or x.confirmed else none

/-- The current session, and the active room of the session that gave the
last notice, if no dial has followed. -/
structure Observed where
  session : Standing := {}
  issued : Option String := none

/-- What is known of the session after another entry of the log. -/
def Observed.observe (o : Observed) : Event → Observed
  | .dialed token =>
      { session := { restores := if token = "" then none else o.issued } }
  | .received envelope =>
      { session := { o.session with
          welcomed := o.session.welcomed || envelope.welcomes
          confirmed := o.session.confirmed.or
            (o.session.nonce.bind envelope.confirms) }
        issued :=
          if envelope.token = "" then o.issued else o.session.active }
  | .requested nonce _ =>
      { o with session := { o.session with nonce := some nonce } }
  | .emitted _ => o

/-- What a log says of its last session. -/
def observed (log : List Event) : Observed :=
  log.foldl Observed.observe {}

/-- The token of the notice that comes last in a log. -/
def Event.token : Event → String
  | .received envelope => envelope.token
  | _ => ""

/-- The token of a notice that ends a log. -/
def noticed (log : List Event) : String :=
  (log.getLast?.map Event.token).getD ""

/-- A tip is that of the message that was just received, of the tips topic
and the active room of a session that is subscribed. -/
def Emits (parseTime : String → Option Time) (before : List Event)
    (e : Event) : Prop :=
  ∀ donation, e = .emitted donation → ∃ room envelope,
    (observed before).session.active = some room
      ∧ before.getLast? = some (.received envelope)
      ∧ envelope.type = "message" ∧ envelope.topic = tipsTopic
      ∧ envelope.room = room
      ∧ envelope.tip.bind (·.donation parseTime room) = some donation

/-- A dial uses the token of the notice that comes right before it, and
none after anything else. -/
def Dials (before : List Event) (e : Event) : Prop :=
  ∀ token, e = .dialed token → token = noticed before

/-- A session subscribes once it is welcomed, before it reads on, unless
it takes over a subscription. -/
def Subscribes (before : List Event) : Event → Prop
  | .requested _ _ => (observed before).session.welcomed = true
      ∧ (observed before).session.restores = none
      ∧ (observed before).session.nonce = none
  | .received _ => (observed before).session.welcomed = true →
      (observed before).session.restores = none →
      (observed before).session.nonce.isSome = true
  | _ => True

/-- An entry of the log is justified by those before it. -/
structure Proper (parseTime : String → Option Time) (before : List Event)
    (e : Event) : Prop where
  emits : Emits parseTime before e
  dials : Dials before e
  subscribes : Subscribes before e

@[simp] theorem observed_snoc (log : List Event) (e : Event) :
    observed (log ++ [e]) = (observed log).observe e :=
  List.foldl_append

@[simp] theorem noticed_snoc (log : List Event) (e : Event) :
    noticed (log ++ [e]) = e.token := by
  unfold noticed
  rw [List.getLast?_concat]
  rfl

-- ================================= invariant

/-- The variables of a session agree with what the log tells of it. -/
structure Knows (o : Standing) (x : Session) : Prop where
  restores : o.restores = if x.restored then some x.requestedRoom else none
  welcomed : o.welcomed = x.welcomeReceived
  nonce : o.nonce
    = if x.subscribeNonce = "" then none else some x.subscribeNonce
  active : o.active = if x.subscribed then some x.activeRoom else none
  pending : x.subscribed = false →
    x.activeRoom = x.requestedRoom ∧ o.confirmed = none
  named : x.activeRoom ≠ ""
  asked : x.subscribeNonce ≠ "" → x.welcomeReceived = true
    ∧ x.restored = false

/-- The variables of Run during a session. -/
structure Carries (s : System) : Prop where
  room : s.room ≠ ""
  token : s.reconnectToken = "" → s.restoreSubscription = false

/-- A session that is welcomed has subscribed, or it takes over. -/
def Session.Settled (x : Session) : Prop :=
  x.welcomeReceived = true → x.restored = false → x.subscribeNonce ≠ ""

/-- The session knows what the log says of it. -/
structure Runs (s : System) (x : Session) : Prop where
  carries : Carries s
  knows : Knows (observed s.log).session x
  quiet : noticed s.log = ""

/-- What each stage knows of the log. -/
def Holds (s : System) : Stage → Prop
  | .dialing => Carries s ∧ s.reconnectToken = noticed s.log
      ∧ (if s.reconnectToken = "" then none else (observed s.log).issued)
        = if s.restoreSubscription then some s.room else none
  | .reading x => Runs s x ∧ x.Settled
  | .drawing x => Runs s x ∧ x.welcomeReceived = true ∧ x.restored = false
      ∧ x.subscribeNonce = ""
  | .writing x => Runs s x ∧ x.Settled
  | .emitting x => Runs s x ∧ x.Settled
  | .waiting => Carries s ∧ s.reconnectToken = "" ∧ noticed s.log = ""
  | .ended _ => True

/-- The log is justified, and the listener knows what it says. -/
structure Inv (parseTime : String → Option Time) (s : System) : Prop where
  proper : Justified (Proper parseTime) s.log
  holds : Holds s s.stage

-- ===================================== steps

/-- Run after a session: a token that it got is the last notice, and it
says whether the session was subscribed. -/
theorem inv_finish {result : SessionResult} {error : Option Failure}
    (hproper : Justified (Proper parseTime) s.log) (hcarries : Carries s)
    (hnoticed : noticed s.log = result.reconnectToken)
    (hissued : result.reconnectToken ≠ "" → result.room ≠ ""
      ∧ (observed s.log).issued
        = if result.subscribed then some result.room else none) :
    Inv parseTime (s.finish result error) := by
  have hroom : (if result.room ≠ "" then result.room else s.room) ≠ "" := by
    split
    case isTrue h => exact h
    case isFalse => exact hcarries.room
  unfold System.finish
  simp only
  split
  case isTrue => exact ⟨hproper, trivial⟩
  case isFalse =>
  split
  case isTrue => exact ⟨hproper, trivial⟩
  case isFalse =>
  split
  case isTrue => exact ⟨hproper, trivial⟩
  case isFalse =>
  split
  case isTrue htoken =>
    obtain ⟨hnamed, hsame⟩ := hissued htoken
    refine ⟨hproper, ⟨hroom, fun h => absurd h htoken⟩, hnoticed.symm, ?_⟩
    simp only [if_neg htoken, if_pos hnamed]
    exact hsame
  case isFalse htoken =>
    have hquiet : noticed s.log = "" := hnoticed.trans (not_not.mp htoken)
    split
    case isTrue => exact ⟨hproper, ⟨hroom, fun _ => rfl⟩, rfl, hquiet⟩
    case isFalse hnone =>
      have hnone : s.reconnectToken = "" := not_not.mp hnone
      exact ⟨hproper, ⟨hroom, hcarries.token⟩, hnone, hquiet⟩

/-- runSession fails. -/
theorem inv_fail {x : Session} {error : Failure}
    (hproper : Justified (Proper parseTime) s.log) (hcarries : Carries s)
    (hquiet : noticed s.log = "") : Inv parseTime (s.fail x error) :=
  inv_finish hproper hcarries hquiet fun h => absurd rfl h

/-- A dial, however it ends, keeps the invariant. -/
theorem inv_dial (h : Inv parseTime s) (hstage : s.stage = .dialing)
    (error : Option Failure) : Inv parseTime (s.dial error) := by
  obtain ⟨hcarries, htoken, hrestores⟩ : Carries s
      ∧ s.reconnectToken = noticed s.log
      ∧ (if s.reconnectToken = "" then none else (observed s.log).issued)
        = if s.restoreSubscription then some s.room else none := by
    have hholds := h.holds
    rwa [hstage] at hholds
  have hproper : Justified (Proper parseTime)
      (s.log ++ [.dialed s.reconnectToken]) := by
    refine h.proper.snoc ⟨nofun, fun token he => ?_, trivial⟩
    cases he
    exact htoken
  unfold System.dial
  cases error with
  | some failure =>
      exact inv_finish hproper ⟨hcarries.room, hcarries.token⟩
        (noticed_snoc ..) fun h => absurd rfl h
  | none =>
      refine ⟨hproper, ⟨⟨hcarries.room, hcarries.token⟩, ?_,
        noticed_snoc ..⟩, nofun⟩
      rw [observed_snoc]
      exact ⟨hrestores, rfl, rfl, rfl, fun _ => ⟨rfl, rfl⟩, hcarries.room,
        fun h => absurd rfl h⟩

-- ================================== messages

/-- A message that tells nothing of the session. -/
theorem Knows.received {o : Observed} {x : Session} {envelope : Envelope}
    (h : Knows o.session x)
    (hwelcomes : envelope.welcomes = true → x.welcomeReceived = true)
    (hconfirms : x.subscribed = true
      ∨ o.session.nonce.bind envelope.confirms = none) :
    Knows (o.observe (.received envelope)).session x := by
  have hwelcomed : (o.session.welcomed || envelope.welcomes)
      = o.session.welcomed := by
    rw [h.welcomed]
    cases hreceived : x.welcomeReceived with
    | true => rfl
    | false =>
        rw [Bool.false_or, Bool.eq_false_iff]
        intro hyes
        rw [hwelcomes hyes] at hreceived
        cases hreceived
  refine ⟨h.restores, hwelcomed.trans h.welcomed, h.nonce, ?_, fun hx => ?_,
    h.named, h.asked⟩
  · rw [← h.active]
    simp only [Observed.observe, Standing.active, hwelcomed]
    rcases hconfirms with hsubscribed | hnone
    · -- the first response stays the one that counts
      have hactive := h.active
      rw [hsubscribed, if_pos rfl] at hactive
      unfold Standing.active at hactive
      split at hactive
      case isFalse => cases hactive
      case isTrue hw =>
        rw [if_pos hw, if_pos hw, ← Option.or_assoc, hactive]
        rfl
    · rw [hnone, Option.or_none]
  · obtain ⟨hroom, hnone⟩ := h.pending hx
    rw [hx, Bool.false_eq_true, false_or] at hconfirms
    refine ⟨hroom, ?_⟩
    simp only [Observed.observe, hnone, hconfirms, Option.or_none]

section Received

variable {x : Session} {envelope : Envelope}

theorem confirms_of_type (htype : envelope.type ≠ "response")
    (nonce : Option String) : nonce.bind envelope.confirms = none := by
  cases nonce with
  | none => rfl
  | some nonce => exact if_neg fun h => htype h.1

theorem welcomes_of_type (htype : envelope.type ≠ "welcome") :
    envelope.welcomes = false := by
  unfold Envelope.welcomes
  rw [decide_eq_false htype, Bool.false_and]

theorem token_of_type (htype : envelope.type ≠ "reconnect") :
    envelope.token = "" := if_neg htype

variable (hproper : Justified (Proper parseTime)
    (s.log ++ [.received envelope]))
  (hruns : Runs s x)

/-- The system once a message is recorded. -/
abbrev System.record (s : System) (e : Event) : System :=
  { s with log := s.log ++ [e] }

include hruns

/-- A message that is ignored. -/
theorem Runs.received (htoken : envelope.token = "")
    (hwelcomes : envelope.welcomes = true → x.welcomeReceived = true)
    (hconfirms : x.subscribed = true
      ∨ (observed s.log).session.nonce.bind envelope.confirms = none) :
    Runs (s.record (.received envelope)) x where
  carries := ⟨hruns.carries.room, hruns.carries.token⟩
  knows := by
    rw [observed_snoc]
    exact hruns.knows.received hwelcomes hconfirms
  quiet := (noticed_snoc ..).trans htoken

include hproper

theorem inv_refused (htoken : envelope.token = "") (error : Failure) :
    Inv parseTime ((s.record (.received envelope)).fail x error) :=
  inv_fail hproper ⟨hruns.carries.room, hruns.carries.token⟩
    ((noticed_snoc ..).trans htoken)

theorem inv_ignored (hstage : s.stage = .reading x) (hsettled : x.Settled)
    (htoken : envelope.token = "")
    (hwelcomes : envelope.welcomes = true → x.welcomeReceived = true)
    (hconfirms : x.subscribed = true
      ∨ (observed s.log).session.nonce.bind envelope.confirms = none) :
    Inv parseTime (s.record (.received envelope)) := by
  refine ⟨hproper, ?_⟩
  simp only [hstage]
  exact ⟨hruns.received htoken hwelcomes hconfirms, hsettled⟩

/-- A welcome keeps the invariant. -/
theorem inv_welcome (hstage : s.stage = .reading x) (hsettled : x.Settled)
    (htype : envelope.type = "welcome") :
    Inv parseTime ((s.record (.received envelope)).welcome x envelope) := by
  have hne : envelope.type ≠ "response" := by
    rw [htype]
    decide
  have htoken : envelope.token = "" := token_of_type (by rw [htype]; decide)
  have hknows := hruns.knows
  unfold System.welcome
  split
  case isTrue hreceived =>
    exact inv_ignored hproper hruns hstage hsettled htoken
      (fun _ => hreceived) (.inr (confirms_of_type hne _))
  case isFalse hfirst =>
    have hfirst : x.welcomeReceived = false := Bool.eq_false_iff.mpr hfirst
    split
    case isTrue => exact inv_refused hproper hruns htoken .other
    case isFalse hid =>
      have hwelcomes : envelope.welcomes = true := by
        unfold Envelope.welcomes
        rw [decide_eq_true htype, decide_eq_true hid]
        rfl
      have hnonce : x.subscribeNonce = "" := by
        by_contra hnonce
        have hasked := (hknows.asked hnonce).1
        rw [hfirst] at hasked
        cases hasked
      have hpending : x.subscribed = false := by
        have hactive := hknows.active
        unfold Standing.active at hactive
        rw [hknows.welcomed, hfirst] at hactive
        cases hsubscribed : x.subscribed with
        | false => rfl
        | true =>
            rw [hsubscribed] at hactive
            cases hactive
      obtain ⟨hroom, hnone⟩ := hknows.pending hpending
      have hunasked : (observed s.log).session.nonce = none := by
        rw [hknows.nonce, if_pos hnonce]
      have hwelcomed : (((observed s.log).observe
          (.received envelope)).session.welcomed) = true := by
        simp only [Observed.observe, hwelcomes, Bool.or_true]
      have hconfirmed : (((observed s.log).observe
          (.received envelope)).session.confirmed) = none := by
        simp only [Observed.observe, hunasked, Option.bind_none, hnone,
          Option.or_none]
      have hquiet : noticed (s.log ++ [.received envelope]) = "" :=
        (noticed_snoc ..).trans htoken
      simp only
      split
      case isTrue hrestored =>
        have hrestores := hknows.restores
        rw [if_pos hrestored] at hrestores
        refine ⟨hproper, ⟨⟨hruns.carries.room, hruns.carries.token⟩, ?_,
          hquiet⟩, fun _ hnot => ?_⟩
        · rw [observed_snoc]
          refine ⟨hknows.restores, hwelcomed, hknows.nonce, ?_, nofun,
            hknows.named, fun h => absurd hnonce h⟩
          unfold Standing.active
          rw [if_pos hwelcomed, if_pos rfl, hroom]
          simp only [Observed.observe, hrestores, Option.some_or]
        · exact absurd (hrestored.symm.trans hnot) nofun
      case isFalse hrestored =>
        have hrestored : x.restored = false := Bool.eq_false_iff.mpr hrestored
        have hrestores := hknows.restores
        rw [if_neg (Bool.eq_false_iff.mp hrestored)] at hrestores
        refine ⟨hproper, ⟨⟨hruns.carries.room, hruns.carries.token⟩, ?_,
          hquiet⟩, rfl, hrestored, hnonce⟩
        rw [observed_snoc]
        refine ⟨hknows.restores, hwelcomed, hknows.nonce, ?_,
          fun _ => ⟨hroom, hconfirmed⟩, hknows.named,
          fun h => absurd hnonce h⟩
        unfold Standing.active
        rw [if_pos hwelcomed, hconfirmed]
        simp only [Observed.observe, hrestores, hpending, Option.or_none,
          Bool.false_eq_true, if_false]

/-- A response keeps the invariant. -/
theorem inv_response (hstage : s.stage = .reading x) (hsettled : x.Settled)
    (htype : envelope.type = "response") :
    Inv parseTime ((s.record (.received envelope)).response x envelope) := by
  have hwelcomes : envelope.welcomes = false :=
    welcomes_of_type (by rw [htype]; decide)
  have htoken : envelope.token = "" := token_of_type (by rw [htype]; decide)
  have hknows := hruns.knows
  have hskip : x.subscribed = true
        ∨ (observed s.log).session.nonce.bind envelope.confirms = none →
      Inv parseTime (s.record (.received envelope)) :=
    inv_ignored hproper hruns hstage hsettled htoken
      fun h => absurd h (Bool.eq_false_iff.mp hwelcomes)
  unfold System.response
  split
  case isTrue herror =>
    split
    case isTrue => exact inv_refused hproper hruns htoken _
    case isFalse =>
      split
      case isTrue => exact inv_refused hproper hruns htoken _
      case isFalse =>
        refine hskip (.inr ?_)
        cases (observed s.log).session.nonce with
        | none => rfl
        | some nonce => exact if_neg fun h => herror h.2.1
  case isFalse herror =>
    have herror : envelope.error = "" := not_not.mp herror
    split
    case isTrue hforeign =>
      by_cases hsubscribed : x.subscribed = true
      · exact hskip (.inl hsubscribed)
      · refine hskip (.inr ?_)
        rw [hknows.nonce]
        split
        case isTrue => rfl
        case isFalse hnonce =>
          have hother := (hforeign.resolve_left hsubscribed).resolve_left
            hnonce
          exact if_neg fun h => hother h.2.2
    case isFalse hown =>
      obtain ⟨hpending, hnonce, hsame⟩ : ¬ x.subscribed = true
          ∧ ¬ x.subscribeNonce = ""
          ∧ ¬ envelope.nonce ≠ x.subscribeNonce := by
        rwa [not_or, not_or] at hown
      have hpending : x.subscribed = false := Bool.eq_false_iff.mpr hpending
      have hsame : envelope.nonce = x.subscribeNonce := not_not.mp hsame
      obtain ⟨-, hnone⟩ := hknows.pending hpending
      obtain ⟨hreceived, hrestored⟩ := hknows.asked hnonce
      split
      case h_1 => exact inv_refused hproper hruns htoken .other
      case h_2 response hresponse =>
        split
        case isTrue => exact inv_refused hproper hruns htoken .other
        case isFalse hvalid =>
          obtain ⟨htopic, hroom⟩ : response.topic = tipsTopic
              ∧ response.room ≠ "" := by
            rw [not_or] at hvalid
            exact ⟨not_not.mp hvalid.1, hvalid.2⟩
          have hconfirms : envelope.confirms x.subscribeNonce
              = some response.room := by
            unfold Envelope.confirms
            rw [if_pos ⟨htype, herror, hsame⟩, hresponse]
            simp [htopic, hroom]
          refine ⟨hproper, ⟨⟨hruns.carries.room, hruns.carries.token⟩, ?_,
            (noticed_snoc ..).trans htoken⟩, hsettled⟩
          rw [observed_snoc]
          have hrestores := hknows.restores
          rw [hrestored, if_neg Bool.false_ne_true] at hrestores
          refine ⟨hknows.restores, ?_, hknows.nonce, ?_, nofun, hroom,
            hknows.asked⟩
          · simp only [Observed.observe, hwelcomes, Bool.or_false]
            exact hknows.welcomed
          · simp only [Observed.observe, Standing.active, hwelcomes,
              Bool.or_false, hknows.welcomed, hreceived, hrestores, hnone,
              hknows.nonce, if_neg hnonce, Option.bind_some, hconfirms,
              Option.none_or, if_true]

/-- A message keeps the invariant. -/
theorem inv_message (hstage : s.stage = .reading x) (hsettled : x.Settled)
    (htype : envelope.type = "message") :
    Inv parseTime
      ((s.record (.received envelope)).message parseTime x envelope) := by
  have hwelcomes : envelope.welcomes = false :=
    welcomes_of_type (by rw [htype]; decide)
  have htoken : envelope.token = "" := token_of_type (by rw [htype]; decide)
  have hconfirms : (observed s.log).session.nonce.bind envelope.confirms
      = none := confirms_of_type (by rw [htype]; decide) _
  have hreceived : Runs (s.record (.received envelope)) x :=
    hruns.received htoken
      (fun h => absurd h (Bool.eq_false_iff.mp hwelcomes)) (.inr hconfirms)
  unfold System.message
  split
  case isTrue =>
    exact inv_ignored hproper hruns hstage hsettled htoken
      (fun h => absurd h (Bool.eq_false_iff.mp hwelcomes)) (.inr hconfirms)
  case isFalse hours =>
    obtain ⟨htopic, hroom⟩ : envelope.topic = tipsTopic
        ∧ envelope.room = x.activeRoom := by
      rw [not_or] at hours
      exact ⟨not_not.mp hours.1, not_not.mp hours.2⟩
    split
    case isTrue => exact inv_refused hproper hruns htoken .other
    case isFalse hsubscribed =>
      have hsubscribed : x.subscribed = true := by simpa using hsubscribed
      split
      case h_1 => exact inv_refused hproper hruns htoken .other
      case h_2 donation hdonation =>
        have hactive := hreceived.knows.active
        rw [hsubscribed, if_pos rfl] at hactive
        refine ⟨hproper.snoc ⟨fun d hd => ?_, nofun, trivial⟩,
          ⟨⟨hruns.carries.room, hruns.carries.token⟩, ?_,
            noticed_snoc ..⟩, hsettled⟩
        · cases hd
          exact ⟨x.activeRoom, envelope, hactive, List.getLast?_concat,
            htype, htopic, hroom, hdonation⟩
        · rw [observed_snoc]
          exact hreceived.knows

/-- A notice tells whether its session was subscribed. -/
theorem inv_reconnect (htype : envelope.type = "reconnect") :
    Inv parseTime
      ((s.record (.received envelope)).reconnect x envelope) := by
  have htoken : envelope.token = envelope.reconnectToken.getD "" :=
    if_pos htype
  unfold System.reconnect
  split
  case isTrue hnone =>
    exact inv_refused hproper hruns (htoken.trans hnone) .other
  case isFalse hsome =>
    refine inv_finish hproper ⟨hruns.carries.room, hruns.carries.token⟩
      ((noticed_snoc ..).trans htoken) fun _ => ⟨hruns.knows.named, ?_⟩
    rw [observed_snoc]
    simp only [Observed.observe]
    rw [if_neg (by rwa [htoken])]
    exact hruns.knows.active

/-- Every envelope keeps the invariant. -/
theorem inv_receive (hstage : s.stage = .reading x) (hsettled : x.Settled) :
    Inv parseTime (s.receive parseTime x envelope) := by
  unfold System.receive
  simp only
  split
  case isTrue htype => exact inv_welcome hproper hruns hstage hsettled htype
  case isFalse hwelcome =>
  split
  case isTrue htype => exact inv_response hproper hruns hstage hsettled htype
  case isFalse hresponse =>
  split
  case isTrue htype => exact inv_message hproper hruns hstage hsettled htype
  case isFalse =>
  split
  case isTrue htype => exact inv_reconnect hproper hruns htype
  case isFalse hreconnect =>
    exact inv_ignored hproper hruns hstage hsettled (token_of_type hreconnect)
      (fun h => absurd h
        (Bool.eq_false_iff.mp (welcomes_of_type hwelcome)))
      (.inr (confirms_of_type hresponse _))

end Received

-- ====================================== runs

/-- Every read, also one that fails, keeps the invariant. -/
theorem inv_read {x : Session} (h : Inv parseTime s)
    (hstage : s.stage = .reading x) (body : Option (Option Envelope)) :
    Inv parseTime (s.read parseTime x body) := by
  obtain ⟨hruns, hsettled⟩ : Runs s x ∧ x.Settled := by
    have hholds := h.holds
    rwa [hstage] at hholds
  unfold System.read
  split
  case h_1 => exact inv_fail h.proper hruns.carries hruns.quiet
  case h_2 => exact inv_fail h.proper hruns.carries hruns.quiet
  case h_3 envelope =>
    split
    case isTrue => exact inv_fail h.proper hruns.carries hruns.quiet
    case isFalse =>
      refine inv_receive (h.proper.snoc ⟨nofun, nofun, ?_⟩) hruns hstage
        hsettled
      -- a session that is welcomed has asked, or it takes over
      intro hwelcomed hrestores
      have hreceived : x.welcomeReceived = true :=
        hruns.knows.welcomed.symm.trans hwelcomed
      have hrestored : x.restored = false := by
        rw [hruns.knows.restores] at hrestores
        cases hr : x.restored with
        | false => rfl
        | true =>
            rw [hr] at hrestores
            cases hrestores
      rw [hruns.knows.nonce, if_neg (hsettled hreceived hrestored)]
      rfl

/-- A nonce, drawn or not, keeps the invariant. -/
theorem inv_nonce {x : Session} (h : Inv parseTime s)
    (hstage : s.stage = .drawing x) (value : Option String) :
    Inv parseTime (s.nonce x value) := by
  obtain ⟨hruns, hreceived, hrestored, hnonce⟩ : Runs s x
      ∧ x.welcomeReceived = true ∧ x.restored = false
      ∧ x.subscribeNonce = "" := by
    have hholds := h.holds
    rwa [hstage] at hholds
  have hknows := hruns.knows
  unfold System.nonce
  split
  case isTrue => exact inv_fail h.proper hruns.carries hruns.quiet
  case isFalse hvalue =>
    refine ⟨h.proper.snoc ⟨nofun, nofun, ?_⟩,
      ⟨⟨hruns.carries.room, hruns.carries.token⟩, ?_, noticed_snoc ..⟩,
      fun _ _ => hvalue⟩
    · refine ⟨hknows.welcomed.trans hreceived, ?_, ?_⟩
      · rw [hknows.restores, hrestored]
        rfl
      · rw [hknows.nonce, if_pos hnonce]
    · rw [observed_snoc]
      exact ⟨hknows.restores, hknows.welcomed, (if_neg hvalue).symm,
        hknows.active, hknows.pending, hknows.named,
        fun _ => ⟨hreceived, hrestored⟩⟩

theorem Holds.cancel {stage : Stage} (h : Holds s stage) :
    Holds { s with done := true } stage := by
  cases stage with
  | dialing => exact ⟨⟨h.1.room, h.1.token⟩, h.2⟩
  | reading x | writing x | emitting x =>
      exact ⟨⟨⟨h.1.carries.room, h.1.carries.token⟩, h.1.knows, h.1.quiet⟩,
        h.2⟩
  | drawing x =>
      exact ⟨⟨⟨h.1.carries.room, h.1.carries.token⟩, h.1.knows, h.1.quiet⟩,
        h.2⟩
  | waiting => exact ⟨⟨h.1.room, h.1.token⟩, h.2⟩
  | ended error => trivial

/-- Every step keeps the invariant. -/
theorem inv_step (h : Inv parseTime s) (a : Action) :
    Inv parseTime (s.step parseTime a) := by
  have hholds := h.holds
  unfold System.step
  split
  case h_1 => exact ⟨h.proper, hholds.cancel⟩
  case h_2 error =>
    split
    case h_1 hstage => exact inv_dial h hstage error
    case h_2 => exact h
  case h_3 body =>
    split
    case h_1 hstage => exact inv_read h hstage body
    case h_2 => exact h
  case h_4 value =>
    split
    case h_1 hstage => exact inv_nonce h hstage value
    case h_2 => exact h
  case h_5 ok =>
    split
    case h_2 => exact h
    case h_1 x hstage =>
      rw [hstage] at hholds
      obtain ⟨hruns, hsettled⟩ := hholds
      split
      case isTrue =>
        exact ⟨h.proper, ⟨⟨hruns.carries.room, hruns.carries.token⟩,
          hruns.knows, hruns.quiet⟩, hsettled⟩
      case isFalse => exact inv_fail h.proper hruns.carries hruns.quiet
  case h_6 error =>
    split
    case h_2 => exact h
    case h_1 x hstage =>
      rw [hstage] at hholds
      obtain ⟨hruns, hsettled⟩ := hholds
      have hknows := hruns.knows
      split
      case h_1 => exact inv_fail h.proper hruns.carries hruns.quiet
      case h_2 =>
        exact ⟨h.proper, ⟨⟨hruns.carries.room, hruns.carries.token⟩,
          ⟨hknows.restores, hknows.welcomed, hknows.nonce, hknows.active,
            hknows.pending, hknows.named, hknows.asked⟩, hruns.quiet⟩,
          hsettled⟩
  case h_7 ok =>
    split
    case h_2 => exact h
    case h_1 hstage =>
      rw [hstage] at hholds
      obtain ⟨hcarries, htoken, hquiet⟩ := hholds
      split
      case isTrue =>
        refine ⟨h.proper, ⟨hcarries.room, hcarries.token⟩,
          htoken.trans hquiet.symm, ?_⟩
        simp only [htoken, hcarries.token htoken, if_true]
        rfl
      case isFalse =>
        split
        case isTrue => exact ⟨h.proper, trivial⟩
        case isFalse => exact ⟨h.proper, trivial⟩
  case h_8 =>
    split
    case isFalse => exact h
    case isTrue =>
      split
      case h_1 => exact ⟨h.proper, trivial⟩
      case h_2 x hstage =>
        rw [hstage] at hholds
        exact inv_finish h.proper hholds.1.carries hholds.1.quiet
          fun h => absurd rfl h
      case h_3 => exact h

/-- A run of the listener. -/
def listened (parseTime : String → Option Time)
    (accessToken channelID : String) (acts : List Action) : System :=
  Run.run (System.step parseTime) (System.init accessToken channelID) acts

theorem inv_init (accessToken channelID : String) :
    Inv parseTime (System.init accessToken channelID) := by
  unfold System.init
  split
  case isTrue => exact ⟨justified_nil, trivial⟩
  case isFalse h =>
    rw [not_or] at h
    exact ⟨justified_nil, ⟨h.2, fun _ => rfl⟩, rfl, rfl⟩

theorem inv_run (accessToken channelID : String) (acts : List Action) :
    Inv parseTime (listened parseTime accessToken channelID acts) :=
  Run.run_preserves (inv_init accessToken channelID)
    (fun _ a h => inv_step h a) acts

-- ==================================== result

/-- In every run, each tip that is emitted is that of the message just
received, in a session that was welcomed and is subscribed, of the tips
topic and its active room; each dial uses the token of the notice right
before it, and none otherwise; and a session that takes over no
subscription, and no other, subscribes itself once it is welcomed. -/
theorem sessions_handed_over (parseTime : String → Option Time)
    (accessToken channelID : String) (acts : List Action) :
    Justified (Emits parseTime)
        (listened parseTime accessToken channelID acts).log
      ∧ Justified Dials (listened parseTime accessToken channelID acts).log
      ∧ Justified Subscribes
        (listened parseTime accessToken channelID acts).log := by
  have hinv : Inv parseTime (listened parseTime accessToken channelID acts) :=
    inv_run accessToken channelID acts
  have hproper := hinv.proper
  exact ⟨hproper.imp fun _ _ h => h.emits, hproper.imp fun _ _ h => h.dials,
    hproper.imp fun _ _ h => h.subscribes⟩

/-- The server sends an envelope. -/
def sampleMessage (envelope : Envelope) : Action :=
  .read (some (some envelope))

/-- A session that is subscribed to a room, and its notice. -/
def sampleNotice : List Action :=
  [.dial none,
    sampleMessage { type := "welcome", clientID := some "1" },
    .nonce (some "nonce"), .write true,
    sampleMessage
      { type := "response", nonce := "nonce"
        response := some ⟨tipsTopic, "room"⟩ },
    sampleMessage { type := "reconnect", reconnectToken := some "token" }]

/-- The next session takes the subscription over, and emits. -/
example :
    ((listened (fun _ => some 0) "access" "channel" (sampleNotice ++
      [.dial none, sampleMessage { type := "welcome", clientID := some "2" },
        sampleMessage
          { type := "message", topic := tipsTopic, room := "room"
            tip := some { id := "tip", channel := "room", amount := "5"
                          currency := "eur", createdAt := "" } }])).log.map
      fun e => match e with
        | .dialed token => token
        | .emitted donation => donation.currency
        | _ => "") = ["", "", "", "", "", "token", "", "", "EUR"] := by
  decide

end StreamBrew.StreamElements
