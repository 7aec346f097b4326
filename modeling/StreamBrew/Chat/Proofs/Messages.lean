/-
What a Twitch hand-over does with the messages that are read.

A message that was read is emitted, or it is held by the goroutine that
sends it. One step adds to both sides alike (`Passes`); where it does not,
the goroutine of a session that was handed over has its context cancelled
while it sends, and takes that branch of its select. It reads on, and the
message is gone (`Loses`). The two sides never meet again.
-/
import StreamBrew.Chat.Proofs.Handover

namespace StreamBrew.Chat.Twitch

variable {x : Session} {p : Previous} {event : StreamEvent}

variable {source : StreamSource} {s : System} {a : Action} {n : Nat}

-- ================================== messages

/-- The message that an event says was read from a socket. -/
def Event.reads (n : Nat) : Event → List Message
  | .read m event => if m = n then messages [event] else []
  | _ => []

/-- The message of a socket that an event says was emitted. -/
def Event.emits (n : Nat) : Event → List Message
  | .emitted m event => if m = n then messages [event] else []
  | _ => []

/-- The messages that a socket delivered. -/
def reads (n : Nat) (log : List Event) : List Message :=
  log.flatMap (Event.reads n)

/-- The messages of a socket that were sent on. -/
def emits (n : Nat) (log : List Event) : List Message :=
  log.flatMap (Event.emits n)

/-- The message that the goroutine of the previous session sends. -/
def Previous.held (n : Nat) (p : Previous) : List Message :=
  match p.stage with
  | .sending event => if p.socket = n then messages [event] else []
  | _ => []

/-- The message that the session being read sends. -/
def Stage.held (n : Nat) : Stage → List Message
  | .sending session event =>
      if session.socket = n then messages [event] else []
  | _ => []

/-- The messages of a socket that wait to be sent on. -/
def System.held (n : Nat) (s : System) : List Message :=
  (s.previous.map (Previous.held n)).getD [] ++ s.stage.held n

/-- What is emitted of a socket, and what is about to be. -/
def System.sent (n : Nat) (s : System) : List Message :=
  emits n s.log ++ s.held n

/-- The previous reader waits for the consumer. -/
def Previous.isSending (p : Previous) : Bool :=
  match p.stage with
  | .sending _ => true
  | _ => false

/-- The goroutine of a session that was handed over, and cancelled while
it sends a message, does not take that branch of its select. -/
def Keeps (s : System) : Action → Prop
  | .dropPrevious =>
      s.previous.all (fun p => !(p.cancelled && p.isSending)) = true
  | _ => True

instance (s : System) : ∀ a, Decidable (Keeps s a)
  | .dropPrevious => inferInstanceAs (Decidable (_ = true))
  | .cancel | .dial _ | .read _ | .subscription _ | .consume | .abandon
  | .release | .wait | .stop | .readPrevious _ | .consumePrevious =>
      isTrue trivial

-- ====================================== logs

theorem reads_append (n : Nat) (log events : List Event) :
    reads n (log ++ events) = reads n log ++ reads n events :=
  List.flatMap_append

theorem emits_append (n : Nat) (log events : List Event) :
    emits n (log ++ events) = emits n log ++ emits n events :=
  List.flatMap_append

@[simp] theorem reads_snoc (n : Nat) (log : List Event) (e : Event) :
    reads n (log ++ [e]) = reads n log ++ e.reads n := by
  rw [reads_append]
  exact congrArg (reads n log ++ ·) (List.flatMap_singleton ..)

@[simp] theorem emits_snoc (n : Nat) (log : List Event) (e : Event) :
    emits n (log ++ [e]) = emits n log ++ e.emits n := by
  rw [emits_append]
  exact congrArg (emits n log ++ ·) (List.flatMap_singleton ..)

/-- An event that is about no message. -/
def Event.Quiet (e : Event) : Prop :=
  ∀ n, e.reads n = [] ∧ e.emits n = []

theorem reads_quiet {events : List Event} (h : ∀ e ∈ events, e.Quiet)
    (n : Nat) : reads n events = [] ∧ emits n events = [] :=
  ⟨List.flatMap_eq_nil_iff.mpr fun e he => (h e he n).1,
    List.flatMap_eq_nil_iff.mpr fun e he => (h e he n).2⟩

-- =================================== passing

/-- What is read of a socket goes on, and nothing else does. -/
def Passes (s s' : System) : Prop :=
  ∀ n, ∃ new, reads n s'.log = reads n s.log ++ new
    ∧ s'.sent n = s.sent n ++ new

theorem Passes.refl (s : System) : Passes s s :=
  fun _ => ⟨[], (List.append_nil _).symm, (List.append_nil _).symm⟩

/-- A step that only writes down events about no message, and holds what
was held. -/
theorem passes_quiet {s' : System} (events : List Event)
    (hlog : s'.log = s.log ++ events) (hquiet : ∀ e ∈ events, e.Quiet)
    (hheld : ∀ n, s'.held n = s.held n) : Passes s s' := by
  intro n
  obtain ⟨hreads, hemits⟩ := reads_quiet hquiet n
  refine ⟨[], ?_, ?_⟩
  · rw [hlog, reads_append, hreads]
  · unfold System.sent
    rw [hlog, hheld, emits_append, hemits, List.append_nil, List.append_nil]

/-- A step of the stream that moves from one stage that sends nothing to
another. -/
theorem passes_stage {s' : System} (events : List Event)
    (hlog : s'.log = s.log ++ events) (hquiet : ∀ e ∈ events, e.Quiet)
    (hprevious : s'.previous = s.previous
      ∨ s'.previous = s.previous.map Previous.cancel)
    (hstage : ∀ n, s.stage.held n = []) (hstage' : ∀ n, s'.stage.held n = []) :
    Passes s s' := by
  refine passes_quiet events hlog hquiet fun n => ?_
  unfold System.held
  rw [hstage, hstage']
  rcases hprevious with he | he
  · rw [he]
  · rw [he, Option.map_map]
    rfl

theorem messages_ofState (source : StreamSource) (state : String) :
    messages [.ofState source state] = [] := rfl

/-- A stage that tells of a state sends no message. -/
theorem held_ofState (n : Nat) (x : Session) (state : String) :
    (Stage.sending x (.ofState source state)).held n = [] := by
  simp only [Stage.held, messages_ofState, ite_self]

theorem passes_dial (hstage : s.stage = .dialing) (ok : Bool) :
    Passes s (s.dial ok) := by
  unfold System.dial
  cases ok with
  | true =>
      refine passes_stage [.dialed (some s.dials) s.reconnectURL] rfl
        (List.forall_mem_singleton.mpr fun _ => ⟨rfl, rfl⟩) (.inl rfl)
        (fun _ => ?_) fun _ => rfl
      rw [hstage]
      rfl
  | false =>
      refine passes_stage [.dialed none s.reconnectURL] rfl
        (List.forall_mem_singleton.mpr fun _ => ⟨rfl, rfl⟩) (.inr rfl)
        (fun _ => ?_) fun _ => rfl
      rw [hstage]
      rfl

/-- A message that is read is held from then on. -/
theorem passes_receive (hstage : s.stage = .reading x)
    (event : TwitchEvent) : Passes s (s.receive source x event) := by
  have hnone : ∀ n, s.stage.held n = [] := by
    intro n
    rw [hstage]
    rfl
  cases event with
  | welcome id =>
      unfold System.receive
      simp only
      split
      case isTrue =>
        refine passes_stage [.welcomed x.socket id, .requested x.socket id]
          (List.append_assoc ..) ?_ (.inl rfl) hnone fun _ => rfl
        rintro e he m
        rcases List.mem_pair.mp he with rfl | rfl <;> exact ⟨rfl, rfl⟩
      case isFalse =>
        exact passes_stage [.welcomed x.socket id] rfl
          (List.forall_mem_singleton.mpr fun _ => ⟨rfl, rfl⟩) (.inr rfl)
          hnone fun _ => rfl
  | reconnect url =>
      exact passes_stage [.notified x.socket url] rfl
        (List.forall_mem_singleton.mpr fun _ => ⟨rfl, rfl⟩) (.inr rfl)
        hnone fun _ => rfl
  | revocation reason broadcasterID =>
      exact passes_stage [] (List.append_nil _).symm nofun (.inl rfl) hnone
        fun _ => rfl
  | message messageID authorID author text occurredAt =>
      intro m
      refine ⟨if x.socket = m then messages [twitchMessageEvent source
        messageID authorID author text occurredAt] else [],
        reads_snoc .., ?_⟩
      unfold System.sent System.held
      rw [hnone m, List.append_nil]
      unfold System.receive
      simp only [emits_snoc, Event.emits, List.append_nil, List.append_assoc]
      rfl

theorem passes_fail (hstage : ∀ n, s.stage.held n = [])
    (error : ProviderError) (after : After) :
    Passes s { s with stage := .failing error after } :=
  passes_stage [] (List.append_nil _).symm nofun (.inl rfl) hstage
    fun _ => rfl

theorem passes_close (hstage : ∀ n, s.stage.held n = [])
    (release : Release) : Passes s (s.close release) :=
  passes_stage [] (List.append_nil _).symm nofun (.inr rfl) hstage
    fun _ => rfl

/-- A message that is read waits or is sent. -/
theorem passes_read (hstage : s.stage = .reading x)
    (body : Option (Option Envelope)) : Passes s (s.read source x body) := by
  have hnone : ∀ n, s.stage.held n = [] := by
    intro n
    rw [hstage]
    rfl
  unfold System.read
  split
  case h_1 =>
    split
    case isTrue => exact passes_close hnone _
    case isFalse => exact passes_fail hnone _ _
  case h_2 body =>
    split
    case h_1 => exact passes_fail hnone _ _
    case h_2 => exact .refl s
    case h_3 =>
      split
      case isTrue => exact .refl s
      case isFalse => exact passes_receive hstage _
    case h_4 event _ _ => exact passes_receive hstage event

/-- A session goes live. -/
theorem passes_subscribed (events : List Event)
    (hquiet : ∀ e ∈ events, e.Quiet) (hstage : ∀ n, s.stage.held n = []) :
    Passes s (({ s with log := s.log ++ events } : System).subscribed source
      x) :=
  passes_stage events rfl hquiet (.inl rfl) hstage
    fun n => held_ofState n _ "live"

theorem passes_subscription (hstage : s.stage = .subscribing x)
    (status : Option Nat) : Passes s (s.subscription source x status) := by
  have hnone : ∀ n, s.stage.held n = [] := by
    intro n
    rw [hstage]
    rfl
  unfold System.subscription
  split
  case h_1 error _ => exact passes_fail hnone error _
  case h_2 =>
    exact passes_subscribed [.accepted x.socket]
      (List.forall_mem_singleton.mpr fun _ => ⟨rfl, rfl⟩) hnone

theorem passes_failed {error : ProviderError} {after : After}
    (hstage : s.stage = .failing error after) : Passes s (s.failed after) := by
  have hnone : ∀ n, s.stage.held n = [] := by
    intro n
    rw [hstage]
    rfl
  cases after with
  | leaves x => exact passes_close hnone _
  | reads x | waits | ends =>
      exact passes_stage [] (List.append_nil _).symm nofun (.inl rfl) hnone
        fun _ => rfl

/-- A previous session that is done holds no message. -/
theorem held_done {p : Option Previous} (h : p.all Previous.isDone = true)
    (n : Nat) : (p.map (Previous.held n)).getD [] = [] := by
  cases p with
  | none => rfl
  | some p =>
      have hdone : p.stage = .done := of_decide_eq_true h
      simp only [Option.map_some, Option.getD_some, Previous.held, hdone]

/-- A previous session that is done is forgotten. -/
theorem passes_forget {s' : System} (hlog : s'.log = s.log)
    (hdone : s.previous.all Previous.isDone = true)
    (hdone' : s'.previous.all Previous.isDone = true
      ∨ ∃ p, s'.previous = some p ∧ p.stage = .reading)
    (hstage : ∀ n, s.stage.held n = []) (hstage' : ∀ n, s'.stage.held n = []) :
    Passes s s' := by
  refine passes_quiet [] (hlog.trans (List.append_nil _).symm) nofun
    fun n => ?_
  unfold System.held
  rw [hstage, hstage', held_done hdone]
  rcases hdone' with hdone' | ⟨p, hp, hreading⟩
  · rw [held_done hdone']
  · simp only [hp, Option.map_some, Option.getD_some, Previous.held, hreading]

theorem passes_next {nextURL : Option String}
    (hnone : ∀ n, s.stage.held n = [])
    (hdone : s.previous.all Previous.isDone = true) :
    Passes s (s.next x nextURL) := by
  unfold System.next
  split
  case isTrue =>
    exact passes_forget rfl hdone (.inr ⟨_, rfl, rfl⟩) hnone fun _ => rfl
  case isFalse =>
    simp only
    split
    case isTrue => exact passes_forget rfl hdone (.inl rfl) hnone fun _ => rfl
    case isFalse =>
      split <;>
        exact passes_forget rfl hdone (.inl rfl) hnone fun _ => rfl

theorem passes_release {r : Release} (hstage : s.stage = .releasing r) :
    Passes s (s.release source r) := by
  have hnone : ∀ n, s.stage.held n = [] := by
    intro n
    rw [hstage]
    rfl
  unfold System.release
  split
  case isFalse => exact .refl s
  case isTrue hdone =>
    cases r with
    | welcomed x =>
        exact passes_stage [] (List.append_nil _).symm nofun (.inl rfl) hnone
          fun n => held_ofState n _ "live"
    | left x nextURL => exact passes_next hnone hdone
    | undialed | ended =>
        exact passes_forget rfl hdone (.inl rfl) hnone fun _ => rfl

/-- The consumer takes what the session sends. -/
theorem passes_consume (h : Inv s) (hstage : s.stage = .sending x event) :
    Passes s { s with
      stage := .reading x
      log := s.log ++ [.emitted x.socket event] } := by
  intro n
  refine ⟨[], by rw [reads_snoc]; rfl, ?_⟩
  unfold System.sent System.held
  rw [emits_snoc, hstage]
  simp only [Event.emits, Stage.held, List.append_nil, List.append_assoc]
  split
  case isFalse => rw [List.nil_append, List.append_nil]
  case isTrue hn =>
    -- the previous session reads from another socket
    have hother : (s.previous.map (Previous.held n)).getD [] = [] := by
      cases hp : s.previous with
      | none => rfl
      | some p =>
          have hne : p.socket ≠ n := by
            rintro rfl
            refine (h.apart p hp).2 ?_
            rw [hstage, ← hn]
            rfl
          simp only [Option.map_some, Option.getD_some, Previous.held,
            if_neg hne]
          split <;> rfl
    rw [hother, List.append_nil, List.nil_append]

/-- As long as the stream is not ended, its own steps lose nothing. -/
theorem passes_stepMain (h : Inv s) (hdone : s.done = false) (a : Action) :
    Passes s (s.stepMain source a) := by
  unfold System.stepMain
  split
  case h_1 ok =>
    split
    case h_1 hstage => exact passes_dial hstage ok
    case h_2 => exact .refl s
  case h_2 body =>
    split
    case h_1 hstage => exact passes_read hstage body
    case h_2 => exact .refl s
  case h_3 status =>
    split
    case h_1 hstage => exact passes_subscription hstage status
    case h_2 => exact .refl s
  case h_4 =>
    split
    case h_1 hstage =>
      refine passes_stage [] (List.append_nil _).symm nofun (.inl rfl)
        (fun _ => ?_) fun _ => rfl
      rw [hstage]
      rfl
    case h_2 hstage => exact passes_consume h hstage
    case h_3 hstage => exact passes_failed hstage
    case h_4 => exact .refl s
  case h_5 =>
    rw [hdone]
    exact .refl s
  case h_6 =>
    split
    case h_1 hstage => exact passes_release hstage
    case h_2 => exact .refl s
  case h_7 =>
    split
    case h_1 hstage =>
      refine passes_stage [] (List.append_nil _).symm nofun (.inl rfl)
        (fun _ => ?_) fun _ => rfl
      rw [hstage]
      rfl
    case h_2 => exact .refl s
  case h_8 =>
    rw [hdone]
    exact .refl s
  case h_9 => exact .refl s

-- ====================== the previous session

/-- The current session does not send what the previous one reads. -/
theorem held_apart (h : Inv s) (hp : s.previous = some p) :
    s.stage.held p.socket = [] := by
  have hapart := (h.apart p hp).2
  cases hstage : s.stage with
  | sending x event =>
      rw [hstage] at hapart
      exact if_neg fun he => hapart (congrArg some he)
  | connecting | dialing | reading | subscribing | failing | releasing
  | waiting | ended => rfl

/-- A message that the previous reader has read waits. -/
theorem passes_readPrevious (h : Inv s)
    (hp : s.previous = some p) (hreading : p.stage = .reading)
    (body : Option (Option Envelope)) :
    Passes s (s.readPrevious source p body) := by
  have hnone : ∀ n, p.held n = [] := by
    intro n
    simp only [Previous.held, hreading]
  unfold System.readPrevious
  split
  case h_1 =>
    refine passes_quiet [] (List.append_nil _).symm nofun fun n => ?_
    unfold System.held
    rw [hp, Option.map_some, Option.getD_some, hnone]
    rfl
  case h_2 body =>
    split
    case h_2 => exact .refl s
    case h_1 messageID authorID author text occurredAt _ =>
      intro m
      refine ⟨if p.socket = m then messages [twitchMessageEvent source
        messageID authorID author text occurredAt] else [],
        reads_snoc .., ?_⟩
      unfold System.sent System.held
      rw [emits_snoc, hp]
      simp only [Option.map_some, Option.getD_some, Event.emits, hreading,
        List.append_nil, List.nil_append, List.append_assoc, Previous.held]
      by_cases hm : p.socket = m
      · subst hm
        rw [held_apart h hp, List.append_nil, List.nil_append]
      · rw [if_neg hm, List.append_nil, List.nil_append]

theorem passes_consumePrevious
    (hp : s.previous = some p) (hsending : p.stage = .sending event) :
    Passes s { s with
      previous := some { p with stage := .reading }
      log := s.log ++ [.emitted p.socket event] } := by
  intro n
  refine ⟨[], by rw [reads_snoc]; rfl, ?_⟩
  unfold System.sent System.held
  rw [emits_snoc, hp]
  simp only [Option.map_some, Option.getD_some, Previous.held, hsending,
    Event.emits, List.append_nil, List.nil_append, List.append_assoc]

/-- A send of the previous session ends without its consumer. -/
theorem sent_drop
    (hp : s.previous = some p) (hsending : p.stage = .sending event) (n : Nat) :
    s.sent n = emits n s.log ++ ((if p.socket = n then messages [event] else [])
      ++ ({ s with previous := some { p with stage := .reading } } :
        System).held n) := by
  unfold System.sent System.held
  rw [hp]
  simp only [Option.map_some, Option.getD_some, Previous.held, hsending,
    List.nil_append]

/-- A message that was read and is not going to be emitted. -/
def Loses (s s' : System) : Prop :=
  (∀ n, reads n s'.log = reads n s.log) ∧ (∀ n, (s'.sent n).Sublist (s.sent n))
    ∧ ∃ n, (s'.sent n).length < (s.sent n).length

theorem loses_drop (h : Inv s)
    (hp : s.previous = some p) (hsending : p.stage = .sending event) :
    Loses s { s with previous := some { p with stage := .reading } } := by
  refine ⟨fun _ => rfl, fun n => ?_, p.socket, ?_⟩
  · rw [sent_drop hp hsending]
    exact (List.sublist_append_right _ _).append_left _
  · obtain ⟨message, rfl⟩ := h.messages p event hp hsending
    rw [sent_drop hp hsending, if_pos rfl]
    have hone : (messages [.ofMessage message]).length = 1 := rfl
    simp only [System.sent, List.length_append, hone]
    omega

/-- The previous reader drops a message only when it was cancelled. -/
theorem stepPrevious_messages (h : Inv s)
    (hdone : s.done = false) (hp : s.previous = some p) (a : Action) :
    Passes s (s.stepPrevious source p a)
      ∨ a = .dropPrevious ∧ p.cancelled = true ∧ p.isSending = true
        ∧ Loses s (s.stepPrevious source p a) := by
  unfold System.stepPrevious
  split
  case h_1 body =>
    split
    case h_1 hreading => exact .inl (passes_readPrevious h hp hreading body)
    case h_2 => exact .inl (.refl s)
  case h_2 =>
    split
    case h_1 event hsending =>
      exact .inl (passes_consumePrevious hp hsending)
    case h_2 => exact .inl (.refl s)
  case h_3 =>
    split
    case h_2 => exact .inl (.refl s)
    case h_1 event hsending =>
      rw [hdone, Bool.or_false]
      split
      case isFalse => exact .inl (.refl s)
      case isTrue hcancelled =>
        refine .inr ⟨rfl, hcancelled, ?_, loses_drop h hp hsending⟩
        unfold Previous.isSending
        rw [hsending]
  case h_4 => exact .inl (.refl s)

variable (source) in
/-- What a step does with the messages of the two sessions. -/
theorem step_messages (h : Inv s) (hdone : s.done = false) (a : Action) :
    Passes s (s.step source a)
      ∨ ¬ Keeps s a ∧ Loses s (s.step source a) := by
  unfold System.step
  split
  case h_1 =>
    exact .inl (passes_quiet [] (List.append_nil _).symm nofun fun _ => rfl)
  case h_2 =>
    split
    case h_1 => exact .inl (.refl s)
    case h_2 p hp =>
      exact (stepPrevious_messages h hdone hp _).imp_right
        fun hlost => absurd hlost.1 nofun
  case h_3 =>
    split
    case h_1 => exact .inl (.refl s)
    case h_2 p hp =>
      exact (stepPrevious_messages h hdone hp _).imp_right
        fun hlost => absurd hlost.1 nofun
  case h_4 =>
    split
    case h_1 => exact .inl (.refl s)
    case h_2 p hp =>
      refine (stepPrevious_messages h hdone hp _).imp_right ?_
      rintro ⟨-, hcancelled, hsending, hloses⟩
      refine ⟨fun hkeeps => ?_, hloses⟩
      have hkept : (s.previous.all fun p => !(p.cancelled && p.isSending))
        = true := hkeeps
      rw [hp, Option.all_some, hcancelled, hsending] at hkept
      cases hkept
  case h_5 => exact .inl (passes_stepMain h hdone a)

variable (source) in
/-- A step that takes the branch of the cancelled context. -/
theorem step_loses (h : Inv s) (hkeeps : ¬ Keeps s a) :
    Loses s (s.step source a) := by
  cases a with
  | dropPrevious =>
      unfold Keeps at hkeeps
      unfold System.step
      cases hp : s.previous with
      | none =>
          rw [hp] at hkeeps
          exact absurd rfl hkeeps
      | some p =>
          rw [hp, Option.all_some] at hkeeps
          unfold System.stepPrevious
          simp only
          cases hstage : p.stage with
          | sending event =>
              have hcancelled : p.cancelled = true := by
                simpa [Previous.isSending, hstage] using hkeeps
              rw [if_pos (by rw [hcancelled]; rfl)]
              exact loses_drop h hp hstage
          | reading | done =>
              simp [Previous.isSending, hstage] at hkeeps
  | cancel | dial | read | subscription | consume | abandon | release | wait
  | stop | readPrevious | consumePrevious => exact absurd trivial hkeeps

-- ====================================== runs

theorem done_receive (event : TwitchEvent) :
    (s.receive source x event).done = s.done := by
  cases event with
  | welcome =>
      unfold System.receive
      simp only
      split <;> rfl
  | reconnect | revocation | message => rfl

theorem done_read (body : Option (Option Envelope)) :
    (s.read source x body).done = s.done := by
  unfold System.read
  split
  case h_1 => split <;> rfl
  case h_2 =>
    split
    case h_1 | h_2 => rfl
    case h_3 =>
      split
      case isTrue => rfl
      case isFalse => exact done_receive _
    case h_4 => exact done_receive _

theorem done_release (r : Release) : (s.release source r).done = s.done := by
  unfold System.release
  split
  case isFalse => rfl
  case isTrue =>
    cases r with
    | welcomed | undialed | ended => rfl
    | left x nextURL =>
        simp only [System.next]
        split
        case isTrue => rfl
        case isFalse =>
          split
          case isTrue => rfl
          case isFalse => split <;> rfl

theorem done_stepMain (a : Action) : (s.stepMain source a).done = s.done := by
  have hfailed : ∀ after, (s.failed after).done = s.done := by
    intro after
    cases after <;> rfl
  unfold System.stepMain
  split
  case h_1 ok =>
    split
    case h_1 => cases ok <;> rfl
    case h_2 => rfl
  case h_2 body =>
    split
    case h_1 => exact done_read body
    case h_2 => rfl
  case h_3 status =>
    split
    case h_1 =>
      unfold System.subscription
      split <;> rfl
    case h_2 => rfl
  case h_4 =>
    split
    case h_3 => exact hfailed _
    all_goals rfl
  case h_5 =>
    split
    case isTrue =>
      split
      case h_3 => exact hfailed _
      all_goals rfl
    case isFalse => rfl
  case h_6 =>
    split
    case h_1 r _ => exact done_release r
    case h_2 => rfl
  case h_7 => split <;> rfl
  case h_8 =>
    split
    case isTrue => split <;> rfl
    case isFalse => rfl
  case h_9 => rfl

theorem done_stepPrevious (a : Action) :
    (s.stepPrevious source p a).done = s.done := by
  unfold System.stepPrevious
  split
  case h_1 body =>
    split
    case h_2 => rfl
    case h_1 =>
      unfold System.readPrevious
      split
      case h_1 => rfl
      case h_2 => split <;> rfl
  case h_2 => split <;> rfl
  case h_3 =>
    split
    case h_1 => split <;> rfl
    case h_2 => rfl
  case h_4 => rfl

/-- A stream that has ended stays so. -/
theorem done_step (h : (s.step source a).done = false) : s.done = false := by
  unfold System.step at h
  split at h
  case h_1 => cases h
  case h_5 => rwa [done_stepMain] at h
  all_goals
    split at h
    case h_1 => exact h
    case h_2 => rwa [done_stepPrevious] at h

theorem done_run {acts : List Action}
    (h : (Run.run (System.step source) s acts).done = false) :
    s.done = false := by
  induction acts generalizing s with
  | nil => exact h
  | cons a acts ih => exact done_step (ih h)

/-- What is sent of a socket was read from it, in this order. -/
def Sound (s : System) : Prop := ∀ n, (s.sent n).Sublist (reads n s.log)

/-- Every message that was read is emitted, or is about to be, in the
order read. -/
def Delivered (s : System) : Prop := ∀ n, reads n s.log = s.sent n

/-- A message that was read is neither sent nor waiting. -/
def Lost (s : System) : Prop := ∃ n, (s.sent n).length < (reads n s.log).length

theorem sound_step (h : Inv s) (hs : s.done = false → Sound s) (a : Action)
    (hdone : (s.step source a).done = false) : Sound (s.step source a) := by
  have hopen := done_step hdone
  intro n
  rcases step_messages source h hopen a with hpasses | ⟨-, hreads, hsent, -⟩
  · obtain ⟨new, hreads, hsent⟩ := hpasses n
    rw [hreads, hsent]
    exact (hs hopen n).append_right new
  · rw [hreads]
    exact (hsent n).trans (hs hopen n)

theorem delivered_step (h : Inv s) (hs : s.done = false → Delivered s)
    (hkeeps : Keeps s a) (hdone : (s.step source a).done = false) :
    Delivered (s.step source a) := by
  have hopen := done_step hdone
  have hpasses := (step_messages source h hopen a).resolve_right
    fun hlost => hlost.1 hkeeps
  intro n
  obtain ⟨new, hreads, hsent⟩ := hpasses n
  rw [hreads, hsent, hs hopen n]

/-- A message that is lost is never emitted. -/
theorem lost_step (h : Inv s) (hs : s.done = false → Lost s) (a : Action)
    (hdone : (s.step source a).done = false) : Lost (s.step source a) := by
  have hopen := done_step hdone
  obtain ⟨n, hlost⟩ := hs hopen
  refine ⟨n, ?_⟩
  rcases step_messages source h hopen a with hpasses | ⟨-, hreads, hsent, -⟩
  · obtain ⟨new, hreads, hsent⟩ := hpasses n
    rw [hreads, hsent, List.length_append, List.length_append]
    exact Nat.add_lt_add_right hlost _
  · rw [hreads]
    exact Nat.lt_of_le_of_lt (hsent n).length_le hlost

theorem delivered_init : Delivered (System.init source) := by
  unfold System.init
  split <;> exact fun _ => rfl

theorem sound_run (acts : List Action)
    (hdone : (streamed source acts).done = false) :
    Sound (streamed source acts) := by
  have hrun : Inv (streamed source acts)
      ∧ ((streamed source acts).done = false → Sound (streamed source acts)) :=
    Run.run_preserves (P := fun s => Inv s ∧ (s.done = false → Sound s))
      ⟨inv_init, fun _ n => by rw [delivered_init n]⟩
      (fun _ a h => ⟨inv_step h.1 a, sound_step h.1 h.2 a⟩) acts
  exact hrun.2 hdone

theorem lost_run (h : Inv s) (hlost : Lost s) (acts : List Action)
    (hdone : (Run.run (System.step source) s acts).done = false) :
    Lost (Run.run (System.step source) s acts) := by
  have hrun : Inv (Run.run (System.step source) s acts)
      ∧ ((Run.run (System.step source) s acts).done = false →
        Lost (Run.run (System.step source) s acts)) :=
    Run.run_preserves (P := fun s => Inv s ∧ (s.done = false → Lost s))
      ⟨h, fun _ => hlost⟩
      (fun _ a h => ⟨inv_step h.1 a, lost_step h.1 h.2 a⟩) acts
  exact hrun.2 hdone

/-- In every run of a stream that is not ended, what is emitted of a socket
was read from it in this order, and all of it is emitted or is about to be
exactly when the goroutine of a session that was handed over never takes
the branch of its cancelled context while it sends. -/
theorem messages_delivered_iff (acts : List Action)
    (hdone : (streamed source acts).done = false) :
    Sound (streamed source acts)
      ∧ (Delivered (streamed source acts)
        ↔ Run.Along (System.step source) Keeps (System.init source) acts) := by
  refine ⟨sound_run acts hdone, fun hdelivered => ?_, fun hkept => ?_⟩
  · refine Run.along_of_steps fun before a after hacts => ?_
    by_contra hkeeps
    -- the message that this step loses is still lost at the end
    subst hacts
    have hinv : Inv (streamed source before) := inv_run before
    have hrun : streamed source (before ++ a :: after)
        = Run.run (System.step source)
          ((streamed source before).step source a) after :=
      Run.run_append ..
    rw [hrun] at hdone hdelivered
    have hopen := done_step (done_run hdone)
    obtain ⟨hreads, -, n, hsent⟩ := step_loses source hinv hkeeps
    have hlost := lost_run (inv_step hinv a) ⟨n, ?_⟩ after hdone
    · obtain ⟨m, hm⟩ := hlost
      rw [hdelivered m] at hm
      exact Nat.lt_irrefl _ hm
    · rw [hreads]
      exact Nat.lt_of_lt_of_le hsent (sound_run before hopen n).length_le
  · have hrun := hkept.preserves
      (P := fun s => Inv s ∧ (s.done = false → Delivered s))
      ⟨inv_init, fun _ => delivered_init⟩
      (fun _ a h hkeeps => ⟨inv_step h.1 a, delivered_step h.1 h.2 hkeeps⟩)
      acts [] (List.append_nil _).symm
    exact hrun.2 hdone

/-- The reader of the session that was handed over has a message that the
consumer has not taken when the next session is welcomed. -/
def sampleLate : List Action :=
  sampleNotice ++
    [.readPrevious (some (some
      { messageType := "notification", messageTimestamp := some 1
        notification := some
          { messageID := "late", chatterUserID := "7"
            chatterUserName := "viewer", text := "hello" } })),
      sampleWelcome "2"]

/-- A consumer that takes it before the previous session is closed. -/
theorem messages_delivered_iff_consumed :
    Delivered (streamed sampleSource
      (sampleLate ++ [.consumePrevious, .readPrevious none, .release])) :=
  (messages_delivered_iff _ (by decide)).2.mpr (by decide)

/-- The previous session is closed in the middle of its send: the message
was read, and it is never emitted. -/
theorem late_lost :
    ∃ acts, (streamed sampleSource acts).done = false
      ∧ (reads 0 (streamed sampleSource acts).log).map Message.id = ["late"]
      ∧ (streamed sampleSource acts).sent 0 = []
      ∧ ¬ Delivered (streamed sampleSource acts) := by
  refine ⟨sampleLate ++ [.dropPrevious, .readPrevious none, .release,
    .consume], by decide, by decide, by decide, fun hdelivered => ?_⟩
  exact absurd (hdelivered 0) (by decide)

end StreamBrew.Chat.Twitch
