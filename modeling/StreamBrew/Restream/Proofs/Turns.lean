/-
What a step of the controller can do: one case for every way a handler's
next step may end, and one for everything else.

All guarantees about the controller go by these cases. Two things about
a stage decide what a handler has a claim to: whether its path is
pending for it (`Stage.pends`), and the session that only it knows of
(`Stage.inHand`), which in some stages it is bound to end
(`Stage.ends`).
-/
import StreamBrew.Restream.Controller

namespace StreamBrew.Restream

open Relational

-- ==================================== stages

namespace Stage

/-- Between the two critical sections of authorize that enter and leave
`pending`. -/
def pends : Stage → Bool
  | .authorize _ | .validate _ | .reject _ | .store _ | .unpend _ => true
  | _ => false

/-- Pending, and the session is not stored. -/
def unstored : Stage → Bool
  | .authorize _ | .validate _ | .reject _ | .store _ => true
  | _ => false

/-- The session that is in the hands of the handler. -/
def inHand : Stage → Option String
  | .validate a | .reject a | .store a => some a.sessionID
  | .delete sessionID _ | .close sessionID _ => some sessionID
  | _ => none

/-- The authorization that the handler goes by. -/
def authorization : Stage → Option Authorization
  | .validate a | .reject a | .store a | .configure a | .confirm a => some a
  | _ => none

/-- The session that the handler is to end. -/
def ends : Stage → Option String
  | .reject a => some a.sessionID
  | .delete sessionID _ | .close sessionID _ => some sessionID
  | _ => none

/-- Where a handler begins. -/
def first : Stage → Bool
  | .enter _ | .find | .remove => true
  | _ => false

theorem first_not_pends {stage : Stage} (h : stage.first = true) :
    stage.pends = false := by
  cases stage with
  | enter | find | remove => rfl
  | _ => cases h

theorem pends_of_unstored {stage : Stage} (h : stage.unstored = true) :
    stage.pends = true := by
  cases stage with
  | authorize | validate | reject | store => rfl
  | _ => cases h

theorem first_empty {stage : Stage} (h : stage.first = true) :
    stage.inHand = none := by
  cases stage with
  | enter | find | remove => rfl
  | _ => cases h

theorem first_unknown {stage : Stage} (h : stage.first = true) :
    stage.authorization = none := by
  cases stage with
  | enter | find | remove => rfl
  | _ => cases h

theorem inHand_of_ends {stage : Stage} {sessionID : String}
    (h : stage.ends = some sessionID) : stage.inHand = some sessionID := by
  cases stage with
  | reject | delete | close => exact h
  | _ => cases h

end Stage

-- ===================================== turns

/-- The ways a handler's next step may end. -/
inductive Turn (s : Controller) (h : Handler) (reply : Reply) :
    Controller → Prop
  | busy {publisherID : String} (hstage : h.stage = .enter publisherID)
      (hbusy : (s.sessions.get? h.path).isSome ∨ h.path ∈ s.pending) :
      Turn s h reply (s.respond h 409)
  | admitted {publisherID : String} (hstage : h.stage = .enter publisherID)
      (hvacant : s.sessions.get? h.path = none)
      (hpending : h.path ∉ s.pending) :
      Turn s h reply ({ s with pending := insert h.path s.pending }.goTo h
        (.authorize publisherID))
  | granted {publisherID : String} {a : Authorization}
      (hstage : h.stage = .authorize publisherID) :
      Turn s h reply (((s.record (.authorize h.id h.path)).record
        (.granted h.path a)).goTo h (.validate a))
  | denied {publisherID : String} {status : Nat}
      (hstage : h.stage = .authorize publisherID) (hstatus : status ≠ 204) :
      Turn s h reply ((s.record (.authorize h.id h.path)).goTo h
        (.unpend status))
  | validated {a : Authorization} (hstage : h.stage = .validate a) :
      Turn s h reply (s.goTo h (.store a))
  | invalid {a : Authorization} (hstage : h.stage = .validate a) :
      Turn s h reply ((s.record (.took h.id a.sessionID)).goTo h (.reject a))
  | rejected {a : Authorization} (hstage : h.stage = .reject a) :
      Turn s h reply ((s.record (.ended h.id a.sessionID)).goTo h (.unpend 503))
  | stored {a : Authorization} (hstage : h.stage = .store a) :
      Turn s h reply ({ s with
        sessions := s.sessions.put
          { path := h.path, authorization := a } }.goTo h (.unpend 204))
  | unpended {status : Nat} (hstage : h.stage = .unpend status) :
      Turn s h reply ({ s with pending := s.pending.erase h.path }.respond h
        status)
  | unknown (hstage : h.stage = .find)
      (hnone : s.sessions.get? h.path = none) :
      Turn s h reply (s.respond h 404)
  | found {e : ActiveSession} (hstage : h.stage = .find)
      (he : s.sessions.get? h.path = some e) :
      Turn s h reply (s.goTo h (.configure e.authorization))
  | configured {a : Authorization} (hstage : h.stage = .configure a)
      (hreply : reply = .ok) :
      Turn s h reply ({ s with
        media := s.media.configure h.path a.destinations }.goTo h
        (.confirm a))
  | unconfigured {a : Authorization} {media : MediaPaths}
      (hstage : h.stage = .configure a) (hreply : reply ≠ .ok)
      (hmedia : media = s.media.configure h.path a.destinations
        ∨ media = s.media) :
      Turn s h reply ({ s with media }.goTo h (.abandon a.sessionID))
  | gone {a : Authorization} (hstage : h.stage = .confirm a)
      (hnone : s.sessions.get? h.path = none) :
      Turn s h reply (s.goTo h .clean)
  | replaced {a : Authorization} {e : ActiveSession}
      (hstage : h.stage = .confirm a)
      (he : s.sessions.get? h.path = some e)
      (hother : e.sessionID ≠ a.sessionID) :
      Turn s h reply (s.respond h 204)
  | confirmed {a : Authorization} {e : ActiveSession}
      (hstage : h.stage = .confirm a)
      (he : s.sessions.get? h.path = some e)
      (hsame : e.sessionID = a.sessionID) :
      Turn s h reply ((s.renew e).goTo h (.run s.contexts))
  | cleaned (hstage : h.stage = .clean) :
      Turn s h reply ((s.deleteMedia h.path reply).respond h 204)
  | running {loop : Nat} (hstage : h.stage = .run loop) :
      Turn s h reply (s.run h loop)
  | left {sessionID : String} (hstage : h.stage = .abandon sessionID)
      (hother : ∀ e, s.sessions.get? h.path = some e →
        e.sessionID ≠ sessionID) :
      Turn s h reply (s.respond h 503)
  | abandoned {e : ActiveSession} (hstage : h.stage = .abandon e.sessionID)
      (he : s.sessions.get? h.path = some e) :
      Turn s h reply (((s.takeOut e).record (.took h.id e.sessionID)).goTo h
        (.delete e.sessionID 503))
  | nothing (hstage : h.stage = .remove)
      (hnone : s.sessions.get? h.path = none) :
      Turn s h reply (s.respond h 204)
  | removed {e : ActiveSession} (hstage : h.stage = .remove)
      (he : s.sessions.get? h.path = some e) :
      Turn s h reply (((s.takeOut e).record (.took h.id e.sessionID)).goTo h
        (.delete e.sessionID 204))
  | deleted {sessionID : String} {status : Nat}
      (hstage : h.stage = .delete sessionID status) :
      Turn s h reply ((s.deleteMedia h.path reply).goTo h
        (.close sessionID status))
  | closed {sessionID : String} {status : Nat}
      (hstage : h.stage = .close sessionID status) :
      Turn s h reply ((s.record (.ended h.id sessionID)).respond h status)

variable {s : Controller} {h : Handler} {reply : Reply}

theorem enter_turn {publisherID : String}
    (hstage : h.stage = .enter publisherID) :
    Turn s h reply (s.enter h publisherID) := by
  unfold Controller.enter
  split
  case isTrue hbusy => exact Turn.busy hstage hbusy
  case isFalse hfree =>
    rw [not_or, Option.not_isSome_iff_eq_none] at hfree
    exact Turn.admitted hstage hfree.1 hfree.2

theorem authorize_turn {publisherID : String}
    (hstage : h.stage = .authorize publisherID) (reply : Reply) :
    Turn s h reply (s.authorize h reply) := by
  cases reply with
  | granted a =>
      unfold Controller.authorize
      simp only
      split
      case isTrue => exact Turn.granted hstage
      case isFalse => exact Turn.denied hstage (by decide)
  | refused => exact Turn.denied hstage (by decide)
  | ok | lost | failed => exact Turn.denied hstage (by decide)

theorem configure_turn {a : Authorization}
    (hstage : h.stage = .configure a) (reply : Reply) :
    Turn s h reply (s.configure h a reply) := by
  cases reply with
  | ok => exact Turn.configured hstage rfl
  | lost => exact Turn.unconfigured hstage nofun (Or.inl rfl)
  | granted | refused | failed =>
      show Turn s h _ ({ s with media := s.media }.goTo h
        (.abandon a.sessionID))
      exact Turn.unconfigured hstage nofun (Or.inr rfl)

theorem confirm_turn {a : Authorization} (hstage : h.stage = .confirm a) :
    Turn s h reply (s.confirm h a) := by
  unfold Controller.confirm
  split
  case h_1 hnone => exact Turn.gone hstage hnone
  case h_2 e he =>
    split
    case isTrue hsame => exact Turn.confirmed hstage he hsame
    case isFalse hother => exact Turn.replaced hstage he hother

theorem abandon_turn {sessionID : String}
    (hstage : h.stage = .abandon sessionID) :
    Turn s h reply (s.abandon h sessionID) := by
  unfold Controller.abandon
  split
  case h_1 hnone =>
    refine Turn.left hstage fun e he => ?_
    rw [hnone] at he
    cases he
  case h_2 e he =>
    split
    case isTrue hsame =>
      subst hsame
      exact Turn.abandoned hstage he
    case isFalse hother =>
      refine Turn.left hstage fun e' he' => ?_
      rw [he] at he'
      cases he'
      exact hother

/-- A handler that proceeds makes a turn. -/
theorem proceed_turn (s : Controller) (h : Handler) (reply : Reply) :
    Turn s h reply (s.proceed h reply) := by
  unfold Controller.proceed
  cases hstage : h.stage with
  | enter => exact enter_turn hstage
  | authorize => exact authorize_turn hstage reply
  | validate a =>
      show Turn s h reply (s.validate h a reply)
      unfold Controller.validate
      split
      case isTrue => exact Turn.validated hstage
      case isFalse => exact Turn.invalid hstage
  | reject => exact Turn.rejected hstage
  | store => exact Turn.stored hstage
  | unpend => exact Turn.unpended hstage
  | find =>
      show Turn s h reply (s.find h)
      unfold Controller.find
      split
      case h_1 hnone => exact Turn.unknown hstage hnone
      case h_2 e he => exact Turn.found hstage he
  | configure => exact configure_turn hstage reply
  | confirm => exact confirm_turn hstage
  | clean => exact Turn.cleaned hstage
  | run => exact Turn.running hstage
  | abandon => exact abandon_turn hstage
  | remove =>
      show Turn s h reply (s.remove h)
      unfold Controller.remove
      split
      case h_1 hnone => exact Turn.nothing hstage hnone
      case h_2 e he => exact Turn.removed hstage he
  | delete => exact Turn.deleted hstage
  | close => exact Turn.closed hstage

-- ===================================== steps

/-- The ways a step of the controller may end. -/
inductive Step (s : Controller) : Action → Controller → Prop
  | refused {action : Action} {status : Nat} :
      Step s action (s.refuse status)
  | accepted {action : Action} {path : String} {stage : Stage}
      (hfirst : stage.first = true) : Step s action (s.accept path stage)
  | turn {h : Handler} {reply : Reply} {s' : Controller}
      (hh : s.handlers.get? h.id = some h) (hturn : Turn s h reply s') :
      Step s (.proceed h.id reply) s'
  | heartbeats {action : Action} {events : List Event}
      {loops : Table HeartbeatLoop.id}
      (hevents : ∀ e ∈ events, ∃ sessionID states,
        e = .heartbeat sessionID states)
      (hloops : ∀ l ∈ loops, l ∈ s.loops) :
      Step s action { s with loops, log := s.log ++ events }

variable {action : Action}

theorem hook_step {stage : Stage} (hfirst : stage.first = true)
    (s : Controller) (path : String) : Step s action (s.hook path stage) := by
  unfold Controller.hook
  split
  case isTrue => exact Step.accepted hfirst
  case isFalse => exact Step.refused

theorem step_idle (s : Controller) : Step s action s := by
  have h : Step s action { s with loops := s.loops, log := s.log ++ [] } :=
    Step.heartbeats (fun _ h => absurd h List.not_mem_nil) fun _ h => h
  rw [List.append_nil] at h
  exact h

theorem stop_step (s : Controller) (id : Nat) :
    Step s action (s.stop id) := by
  have h : Step s action
      { s with loops := s.loops.erase id, log := s.log ++ [] } :=
    Step.heartbeats (fun _ h => absurd h List.not_mem_nil)
      fun _ h => (Table.mem_erase.mp h).1
  rw [List.append_nil] at h
  exact h

theorem beat_step (s : Controller) (l : HeartbeatLoop) (beat : Beat) :
    Step s action (s.beat l beat) := by
  have hreport : ∀ e ∈ l.report beat, ∃ sessionID states,
      e = .heartbeat sessionID states := by
    intro e he
    cases beat with
    | noStatuses => exact absurd he List.not_mem_nil
    | sent statuses known =>
        exact ⟨_, _, List.mem_singleton.mp he⟩
  unfold Controller.beat
  simp only
  split
  case isTrue => exact Step.heartbeats hreport fun _ h => h
  case isFalse =>
    exact Step.heartbeats hreport fun _ h => (Table.mem_erase.mp h).1

/-- Everything the controller does is a step. -/
theorem step_cases (s : Controller) (action : Action) :
    Step s action (s.step action) := by
  cases action with
  | authorize request =>
      unfold Controller.step
      simp only
      split
      case isTrue => exact Step.refused
      case isFalse => exact Step.accepted rfl
  | online path => exact hook_step rfl s path
  | offline path => exact hook_step rfl s path
  | proceed id reply =>
      unfold Controller.step
      simp only
      split
      case h_1 => exact step_idle s
      case h_2 h hh =>
        obtain rfl := Table.key_of_get? hh
        exact Step.turn hh (proceed_turn s h reply)
  | beat id beat =>
      unfold Controller.step
      simp only
      split
      case h_1 => exact step_idle s
      case h_2 l hl =>
        split
        case isTrue => exact beat_step s l beat
        case isFalse => exact step_idle s
  | done id =>
      unfold Controller.step
      simp only
      split
      case h_1 => exact step_idle s
      case h_2 l hl =>
        split
        case isTrue => exact stop_step s id
        case isFalse => exact step_idle s

end StreamBrew.Restream
