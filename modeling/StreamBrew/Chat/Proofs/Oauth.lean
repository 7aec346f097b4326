/-
An OAuth attempt is bound to its user and spent once.

# What a call holds

A Finish that has passed its checks holds an attempt that it took out of
the table itself, for the user who is signed in (`Held`). Every entry of
the log has its reason in the entries before it (`Sourced`): a consumed
attempt was stored by a Start, an exchange sends the verifier of the
attempt its call consumed, and an account is saved for the user of that
attempt. None of this depends on the hash.

# What is spent

For every hash, the exchanges sent, the calls about to send one and the
rows still stored are together no more than the attempts ever stored
(`spent_le`). A statement that takes a row out of the table pays for the
one call that goes on with it, whatever becomes of the call.
-/
import StreamBrew.Lib.History
import StreamBrew.Chat.Oauth

namespace StreamBrew.Chat.Oauth

open Relational Relational.Table History
open Alert (UserID Time second)

variable {attempt : OauthAttempt} {state : String} {now : Time}

variable {sha : String → String} {configs : Provider → Option ProviderConfig}
  {s : System} {finishID : Nat} {request : Request} {stage : Stage}
  {call : Call} {event : Event} {log : List Event}

-- =================================== reasons

/-- The call took the attempt out of the table, for the user who is
signed in. -/
def Claimed (log : List Event) (finishID : Nat) (request : Request)
    (attempt : OauthAttempt) : Prop :=
  (∃ now, .consumed finishID request now attempt ∈ log)
    ∧ 0 < request.sessionUserID ∧ request.sessionUserID = attempt.userID

/-- The call also sent the verifier of that attempt. -/
def Exchanged (log : List Event) (finishID : Nat) (request : Request)
    (attempt : OauthAttempt) : Prop :=
  Claimed log finishID request attempt
    ∧ .exchanged finishID request attempt.verifier ∈ log

/-- What the log says of a callback at its stage. -/
def Held (log : List Event) (finishID : Nat) (request : Request) :
    Stage → Prop
  | .consuming | .ended _ => True
  | .exchanging attempt _ => Claimed log finishID request attempt
  | .answering attempt _ | .identifying attempt _ _ =>
      Exchanged log finishID request attempt
  | .limiting account | .subscribing account | .saving account =>
      Exchanged log finishID request account.attempt

/-- Why an entry of the log is there. -/
def Sourced (sha : String → String) (before : List Event) : Event → Prop
  | .started state attempt => attempt.stateHash = sha state
  | .consumed _ request now attempt =>
      OauthAttempt.Open (sha request.values.state) request.provider now
        attempt ∧ ∃ state, .started state attempt ∈ before
  | .exchanged finishID request verifier =>
      ∃ attempt, Claimed before finishID request attempt
        ∧ attempt.verifier = verifier
  | .saved finishID request userID connection source =>
      ∃ attempt, Exchanged before finishID request attempt
        ∧ attempt.userID = userID ∧ connection.provider = request.provider
        ∧ source.provider = request.provider

/-- Rows, callbacks and the log agree about each attempt. -/
structure Inv (sha : String → String) (s : System) : Prop where
  rows : ∀ r ∈ s.attempts, ∃ state, .started state r ∈ s.log
  calls : ∀ finishID call, s.calls[finishID]? = some call →
    Held s.log finishID call.request call.stage
  log : Justified (Sourced sha) s.log
  requests : ∀ finishID request now attempt,
    .consumed finishID request now attempt ∈ s.log →
      request ∈ s.calls.map Call.request

theorem Claimed.record (h : Claimed log finishID request attempt) :
    Claimed (log ++ [event]) finishID request attempt :=
  ⟨h.1.imp fun _ hm => List.mem_append_left _ hm, h.2⟩

theorem Held.record (h : Held log finishID request stage) :
    Held (log ++ [event]) finishID request stage := by
  have hsent : ∀ {attempt}, Exchanged log finishID request attempt →
      Exchanged (log ++ [event]) finishID request attempt :=
    fun h => ⟨h.1.record, List.mem_append_left _ h.2⟩
  cases stage with
  | consuming => trivial
  | ended => trivial
  | exchanging => exact h.record
  | answering => exact hsent h
  | identifying => exact hsent h
  | limiting => exact hsent h
  | subscribing => exact hsent h
  | saving => exact hsent h

-- ================================ primitives

theorem requests_setStage :
    (s.setStage finishID stage).calls.map Call.request
      = s.calls.map Call.request := by
  refine List.ext_getElem? fun i => ?_
  rw [System.setStage, List.getElem?_map, List.getElem?_map,
    List.getElem?_modify]
  split <;> cases s.calls[i]? <;> rfl

theorem Inv.setStage (h : Inv sha s) (hcall : s.calls[finishID]? = some call)
    (hheld : Held s.log finishID call.request stage) :
    Inv sha (s.setStage finishID stage) where
  rows := h.rows
  log := h.log
  requests := by
    rw [requests_setStage]
    exact h.requests
  calls := by
    intro i c hc
    rw [System.setStage, List.getElem?_modify] at hc
    split at hc
    case isTrue hi =>
      subst hi
      rw [hcall] at hc
      cases hc
      exact hheld
    case isFalse => exact h.calls i c (by simpa using hc)

/-- A call may end at any time. -/
theorem Inv.ended (h : Inv sha s) (hcall : s.calls[finishID]? = some call)
    (result : Except Failure String) :
    Inv sha (s.setStage finishID (.ended result)) :=
  h.setStage hcall trivial

variable (event) in
theorem Inv.record (h : Inv sha s) (hevent : Sourced sha s.log event)
    (hrequest : ∀ finishID request now attempt,
      event = .consumed finishID request now attempt →
        request ∈ s.calls.map Call.request) :
    Inv sha (s.record event) where
  rows r hr := (h.rows r hr).imp fun _ hm => List.mem_append_left _ hm
  calls i c hc := (h.calls i c hc).record
  log := h.log.snoc hevent
  requests i r now attempt hm := by
    rcases List.mem_append.mp hm with hm | hm
    · exact h.requests i r now attempt hm
    · exact hrequest i r now attempt (List.mem_singleton.mp hm).symm

/-- The other tables do not matter. -/
theorem Inv.write (h : Inv sha s) (db : Db) : Inv sha { s with db } where
  rows := h.rows
  calls := h.calls
  log := h.log
  requests := h.requests

/-- Rows may go at any time. -/
theorem Inv.delete (h : Inv sha s) {attempts : Attempts}
    (hrows : ∀ r ∈ attempts, r ∈ s.attempts) :
    Inv sha { s with attempts } where
  rows r hr := h.rows r (hrows r hr)
  calls := h.calls
  log := h.log
  requests := h.requests

theorem mem_request (hcall : s.calls[finishID]? = some call) :
    call.request ∈ s.calls.map Call.request :=
  List.mem_map_of_mem (List.mem_of_getElem? hcall)

-- ===================================== steps

/-- An attempt is started. -/
theorem inv_start (h : Inv sha s) (userID : UserID) (provider : Provider)
    (returnURL state verifier : String) (clock now : Time) (reply : Reply) :
    Inv sha (s.start sha configs userID provider returnURL state verifier
      clock now reply) := by
  unfold System.start
  split
  case isTrue => exact h
  case isFalse =>
    simp only
    split
    case h_1 => exact h
    case h_2 attempts hstored =>
      have hrows := fun r => mem_insert? hstored (b := r)
      refine ⟨fun r hr => ?_, fun i c hc => (h.calls i c hc).record,
        h.log.snoc rfl, fun i r now attempt hm => ?_⟩
      · rcases (hrows r).mp hr with hr | rfl
        · obtain ⟨state', hm⟩ := h.rows r (mem_delete.mp hr).1
          exact ⟨state', List.mem_append_left _ hm⟩
        · exact ⟨state, List.mem_append_right _ (List.mem_singleton_self _)⟩
      · rcases List.mem_append.mp hm with hm | hm
        · exact h.requests i r now attempt hm
        · cases List.mem_singleton.mp hm

theorem accept_ok {config : ProviderConfig}
    (h : accept configs request attempt = .ok config) :
    0 < request.sessionUserID
      ∧ request.sessionUserID = attempt.userID := by
  unfold accept at h
  split at h
  case isTrue => cases h
  case isFalse hsession =>
    rw [not_or, not_not, not_le] at hsession
    exact hsession

/-- An attempt is consumed. -/
theorem inv_consume (h : Inv sha s) {reply : Reply}
    (hcall : s.calls[finishID]? = some call) :
    Inv sha (s.consume sha configs finishID call.request now reply) := by
  unfold System.consume
  split
  case isTrue => exact h.ended hcall _
  case isFalse =>
    unfold consumeOauthAttempt
    have hdeleted := h.delete fun r hr => (mem_delete
      (p := OauthAttempt.Open (sha call.request.values.state)
        call.request.provider now)).mp hr |>.1
    simp only
    split
    case isTrue => exact hdeleted.ended hcall _
    case isFalse =>
      split
      case h_1 => exact hdeleted.ended hcall _
      case h_2 attempt hfound =>
        obtain ⟨hrow, hopen⟩ := find?_eq_some hfound
        have hconsumed := hdeleted.record
          (.consumed finishID call.request now attempt)
          ⟨hopen, h.rows attempt hrow⟩ (fun i r t a he => by
            cases he
            exact mem_request hcall)
        split
        case h_1 => exact hconsumed.ended hcall _
        case h_2 config haccept =>
          refine hconsumed.setStage hcall ⟨⟨now, ?_⟩, accept_ok haccept⟩
          exact List.mem_append_right _ (List.mem_singleton_self _)

theorem held_admitted {account : Account}
    (h : Exchanged log finishID request account.attempt) :
    Held log finishID request (account.admitted request) := by
  unfold Account.admitted
  split
  case isTrue =>
    split
    case isTrue => exact h
    case isFalse => trivial
  case isFalse => exact h

/-- The account is saved. -/
theorem inv_save (h : Inv sha s) {account : Account}
    {reply : Reply} (hcall : s.calls[finishID]? = some call)
    (hheld : Exchanged s.log finishID call.request account.attempt) :
    Inv sha (s.save finishID call.request account now reply) := by
  have hsaved := h.record (.saved finishID call.request
      account.attempt.userID (account.connection now call.request)
      (account.source call.request))
    ⟨account.attempt, hheld, rfl, rfl, rfl⟩
    (fun _ _ _ _ he => by cases he)
  unfold System.save
  simp only
  split
  case isTrue => exact hsaved.ended hcall _
  case isFalse => exact (hsaved.write _).ended hcall _

/-- One case for each stage that waits for an answer. -/
theorem inv_proceed (h : Inv sha s) (answer : Answer)
    (hcall : s.calls[finishID]? = some call) :
    Inv sha (s.proceed sha configs finishID call.request call.stage
      answer) := by
  have hheld := h.calls finishID call hcall
  unfold System.proceed
  split
  case h_1 => exact inv_consume h hcall
  case h_2 attempt config hstage =>
    rw [hstage] at hheld
    have hsent := h.record
      (.exchanged finishID call.request attempt.verifier)
      ⟨attempt, hheld, rfl⟩ (fun _ _ _ _ he => by cases he)
    refine hsent.setStage hcall ⟨hheld.record, ?_⟩
    exact List.mem_append_right _ (List.mem_singleton_self _)
  case h_3 attempt config response hstage =>
    rw [hstage] at hheld
    split
    case h_1 => exact h.ended hcall _
    case h_2 => exact h.setStage hcall hheld
  case h_4 attempt config token identity hstage =>
    rw [hstage] at hheld
    split
    case h_1 => exact h.ended hcall _
    case h_2 => exact h.setStage hcall hheld
  case h_5 account reply hstage =>
    rw [hstage] at hheld
    split
    case isTrue => exact h.ended hcall _
    case isFalse =>
      split
      case isTrue => exact h.setStage hcall (held_admitted hheld)
      case isFalse => exact h.ended hcall _
  case h_6 account accepted hstage =>
    rw [hstage] at hheld
    split
    case isTrue => exact h.setStage hcall hheld
    case isFalse => exact h.ended hcall _
  case h_7 account now reply hstage =>
    rw [hstage] at hheld
    exact inv_save h hcall hheld
  case h_8 => exact h

/-- A new call holds nothing. -/
theorem inv_finish (h : Inv sha s) (request : Request) {stage : Stage}
    (hstage : ∀ log i, Held log i request stage) :
    Inv sha { s with calls := s.calls ++ [{ request, stage }] } where
  rows := h.rows
  log := h.log
  calls i c hc := by
    rw [List.getElem?_append] at hc
    split at hc
    case isTrue => exact h.calls i c hc
    case isFalse =>
      cases List.mem_singleton.mp (List.mem_of_getElem? hc)
      exact hstage _ _
  requests i r now attempt hm := by
    rw [List.map_append]
    exact List.mem_append_left _ (h.requests i r now attempt hm)

theorem inv_step (h : Inv sha s) (a : Action) :
    Inv sha (s.step sha configs a) := by
  cases a with
  | start => exact inv_start h ..
  | finish request =>
      refine inv_finish h request fun _ _ => ?_
      split <;> trivial
  | proceed finishID answer =>
      simp only [System.step]
      split
      case h_1 => exact h
      case h_2 call hcall => exact inv_proceed h answer hcall
  | deleteUser => exact h.delete fun r hr => (mem_delete.mp hr).1
  | write db => exact h.write db

variable (sha configs) in
theorem inv_run (acts : List Action) :
    Inv sha (Run.run (System.step sha configs) {} acts) := by
  refine Run.run_preserves ?_ (fun s a h => inv_step (s := s) h a) acts
  refine ⟨fun r hr => absurd hr not_mem_empty, fun i c hc => ?_,
    justified_nil, fun i r now attempt hm => ?_⟩
  · cases hc
  · cases hm

-- ==================================== counts

/-- An exchange is about to be sent for a hash. -/
def Pending (sha : String → String) (hash : String) (c : Call) : Bool :=
  match c.stage with
  | .exchanging _ _ => sha c.request.values.state = hash
  | _ => false

/-- An attempt with this hash was started. -/
def Event.starts (hash : String) : Event → Bool
  | .started _ attempt => attempt.stateHash = hash
  | _ => false

/-- A code was exchanged for an attempt with this hash. -/
def Event.exchanges (sha : String → String) (hash : String) : Event → Bool
  | .exchanged _ request _ => sha request.values.state = hash
  | _ => false

/-- What has been spent for a hash, or may still be. -/
def System.spent (sha : String → String) (hash : String) (s : System) :
    Nat :=
  s.log.countP (Event.exchanges sha hash) + s.calls.countP (Pending sha hash)
    + s.attempts.count fun r => r.stateHash = hash

/-- How many attempts with this hash were started. -/
def System.started (hash : String) (s : System) : Nat :=
  s.log.countP (Event.starts hash)

variable (sha stage) in
theorem spent_setStage (hash : String)
    (hcall : s.calls[finishID]? = some call) :
    (s.setStage finishID stage).spent sha hash
        + (if Pending sha hash call then 1 else 0)
      = s.spent sha hash
        + if Pending sha hash { call with stage } then 1 else 0 := by
  have hcount := countP_modify (p := Pending sha hash)
    (f := fun c : Call => { c with stage }) hcall
  simp only [System.spent, System.setStage]
  omega

theorem spent_record {hash : String} :
    (s.record event).spent sha hash
      = s.spent sha hash + if event.exchanges sha hash then 1 else 0 := by
  simp only [System.spent, System.record, List.countP_append,
    List.countP_singleton]
  omega

theorem started_record {hash : String} :
    (s.record event).started hash
      = s.started hash + if event.starts hash then 1 else 0 := by
  unfold System.started System.record
  rw [List.countP_append, List.countP_singleton]

@[simp] theorem started_setStage {hash : String} :
    (s.setStage finishID stage).started hash = s.started hash := rfl

/-- No more is spent than was started. -/
def Solvent (sha : String → String) (s : System) : Prop :=
  ∀ hash, s.spent sha hash ≤ s.started hash

/-- The call does not go on to an exchange. -/
theorem Solvent.setStage (h : Solvent sha s)
    (hcall : s.calls[finishID]? = some call)
    (hquiet : ∀ hash, Pending sha hash { call with stage } = false) :
    Solvent sha (s.setStage finishID stage) := by
  intro hash
  have hspent := spent_setStage sha stage hash hcall
  rw [hquiet hash, if_neg Bool.false_ne_true] at hspent
  have := h hash
  rw [started_setStage]
  omega

theorem Solvent.ended (h : Solvent sha s)
    (hcall : s.calls[finishID]? = some call)
    (result : Except Failure String) :
    Solvent sha (s.setStage finishID (.ended result)) :=
  h.setStage hcall fun _ => rfl

variable (event) in
theorem Solvent.record (h : Solvent sha s)
    (hquiet : ∀ hash, event.exchanges sha hash = false) :
    Solvent sha (s.record event) := by
  intro hash
  have := h hash
  rw [spent_record, started_record, hquiet hash,
    if_neg Bool.false_ne_true]
  omega

theorem Solvent.write (h : Solvent sha s) (db : Db) :
    Solvent sha { s with db } := h

theorem Solvent.delete (h : Solvent sha s) (p : OauthAttempt → Prop)
    [DecidablePred p] :
    Solvent sha { s with attempts := s.attempts.delete p } := by
  intro hash
  refine Nat.le_trans ?_ (h hash)
  unfold System.spent
  refine Nat.add_le_add_left ?_ _
  rw [count_delete]
  exact count_mono fun r _ hr => hr.1

/-- A new row is paid for by the entry that records it. -/
theorem solvent_start (h : Solvent sha s) (userID : UserID)
    (provider : Provider) (returnURL state verifier : String)
    (clock now : Time) (reply : Reply) :
    Solvent sha (s.start sha configs userID provider returnURL state
      verifier clock now reply) := by
  unfold System.start
  split
  case isTrue => exact h
  case isFalse =>
    simp only
    split
    case h_1 => exact h
    case h_2 attempts hstored =>
      intro hash
      have hrows := count_insert? hstored (fun r => r.stateHash = hash)
      have hdeleted := h.delete (fun r => r.expiresAt ≤ now) hash
      rw [spent_record, started_record]
      simp only [System.spent, System.started, Event.starts,
        Event.exchanges, decide_eq_true_eq, Bool.false_eq_true,
        if_false] at hdeleted hrows ⊢
      omega

/-- The row that is consumed was the one under its hash. -/
theorem count_gone {attempts : Attempts} {provider : Provider}
    (hrow : attempt ∈ attempts)
    (hopen : attempt.Open (sha state) provider now) (hash : String) :
    ((attempts.delete (OauthAttempt.Open (sha state) provider now)).count
        fun r => r.stateHash = hash) + (if sha state = hash then 1 else 0)
      ≤ attempts.count fun r => r.stateHash = hash := by
  rw [count_delete]
  split
  case isTrue hhash =>
    refine count_lt_of_mem (fun r _ hr => hr.1) hrow ?_ ?_
    · exact hopen.1.trans hhash
    · exact fun h => h.2 hopen
  case isFalse => exact count_mono fun r _ hr => hr.1

/-- The row that goes pays for the call that goes on. -/
theorem solvent_consume (h : Solvent sha s) {reply : Reply}
    (hcall : s.calls[finishID]? = some call) :
    Solvent sha (s.consume sha configs finishID call.request now reply) := by
  unfold System.consume consumeOauthAttempt
  have hdeleted := h.delete (OauthAttempt.Open
    (sha call.request.values.state) call.request.provider now)
  split
  case isTrue => exact h.ended hcall _
  case isFalse =>
    simp only
    split
    case isTrue => exact hdeleted.ended hcall _
    case isFalse =>
      split
      case h_1 => exact hdeleted.ended hcall _
      case h_2 attempt hfound =>
        have hconsumed := hdeleted.record
          (.consumed finishID call.request now attempt)
          fun _ => rfl
        split
        case h_1 => exact hconsumed.ended hcall _
        case h_2 config haccept =>
          intro hash
          obtain ⟨hrow, hopen⟩ := find?_eq_some hfound
          have hspent := spent_setStage sha (.exchanging attempt config) hash
            (s := System.record (.consumed finishID call.request now attempt)
              { s with attempts := s.attempts.delete (OauthAttempt.Open
                (sha call.request.values.state) call.request.provider now) })
            hcall
          have hgone := count_gone hrow hopen hash
          have := h hash
          rw [spent_record] at hspent
          rw [started_setStage, started_record]
          simp only [Pending, Event.exchanges, Event.starts, System.spent,
            System.started, decide_eq_true_eq, Bool.false_eq_true,
            if_false] at hspent this ⊢
          omega

/-- A step of a callback spends what was started. -/
theorem solvent_proceed (h : Solvent sha s) (answer : Answer)
    (hcall : s.calls[finishID]? = some call) :
    Solvent sha (s.proceed sha configs finishID call.request call.stage
      answer) := by
  unfold System.proceed
  split
  case h_1 => exact solvent_consume h hcall
  case h_2 attempt config hstage =>
    -- the call that was about to send is the one that has sent
    intro hash
    have hspent := spent_setStage sha (.answering attempt config) hash
      (s := s.record (.exchanged finishID call.request attempt.verifier))
      hcall
    rw [spent_record] at hspent
    have := h hash
    rw [started_setStage, started_record]
    simp only [Pending, hstage, Event.exchanges, Event.starts,
      decide_eq_true_eq, Bool.false_eq_true, if_false] at hspent ⊢
    omega
  case h_3 =>
    split
    case h_1 => exact h.ended hcall _
    case h_2 => exact h.setStage hcall fun _ => rfl
  case h_4 =>
    split
    case h_1 => exact h.ended hcall _
    case h_2 => exact h.setStage hcall fun _ => rfl
  case h_5 account reply hstage =>
    split
    case isTrue => exact h.ended hcall _
    case isFalse =>
      split
      case isTrue =>
        refine h.setStage hcall fun hash => ?_
        unfold Account.admitted
        split
        case isTrue => split <;> rfl
        case isFalse => rfl
      case isFalse => exact h.ended hcall _
  case h_6 =>
    split
    case isTrue => exact h.setStage hcall fun _ => rfl
    case isFalse => exact h.ended hcall _
  case h_7 account now reply hstage =>
    have hsaved := h.record (.saved finishID call.request
      account.attempt.userID (account.connection now call.request)
      (account.source call.request)) fun _ => rfl
    unfold System.save
    simp only
    split
    case isTrue => exact hsaved.ended hcall _
    case isFalse => exact (hsaved.write _).ended hcall _
  case h_8 => exact h

theorem solvent_finish (h : Solvent sha s)
    (hquiet : ∀ hash, Pending sha hash call = false) :
    Solvent sha { s with calls := s.calls ++ [call] } := by
  intro hash
  have := h hash
  simp only [System.spent, List.countP_append, List.countP_singleton,
    hquiet hash, Bool.false_eq_true, if_false] at this ⊢
  exact this

theorem solvent_step (h : Solvent sha s) (a : Action) :
    Solvent sha (s.step sha configs a) := by
  cases a with
  | start userID provider returnURL state verifier clock now reply =>
      exact solvent_start h userID provider returnURL state verifier clock
        now reply
  | finish request =>
      refine solvent_finish h fun hash => ?_
      cases request.complete <;> rfl
  | proceed finishID answer =>
      simp only [System.step]
      split
      case h_1 => exact h
      case h_2 call hcall => exact solvent_proceed h answer hcall
  | deleteUser => exact h.delete _
  | write => exact h

variable (sha configs) in
/-- Exchanges are paid for by attempts. -/
theorem exchanges_le (acts : List Action) (hash : String) :
    (Run.run (System.step sha configs) {} acts).log.countP
        (Event.exchanges sha hash)
      ≤ (Run.run (System.step sha configs) {} acts).started hash := by
  have hinit : Solvent sha {} := fun _ => Nat.le_refl 0
  have h : Solvent sha (Run.run (System.step sha configs) {} acts) :=
    Run.run_preserves hinit (fun s a h => solvent_step (s := s) h a) acts
  replace h := h hash
  unfold System.spent at h
  omega

-- ==================================== result

/-- The state that a start has given away. -/
def Event.produced : Event → Option String
  | .started state _ => some state
  | _ => none

/-- The states that Start produced. -/
def produced (log : List Event) : List String :=
  log.filterMap Event.produced

/-- The states that callbacks presented to Finish. -/
def System.presented (s : System) : List String :=
  s.calls.map fun c => c.request.values.state

/-- The state of an exchanged callback. -/
def Event.exchangedState : Event → Option String
  | .exchanged _ request _ => some request.values.state
  | _ => none

/-- The states that led to a token exchange. -/
def exchangedStates (log : List Event) : List String :=
  log.filterMap Event.exchangedState

/-- Unexpired, the attempt of a Start of the user who is signed in, for
the provider of the callback. -/
def Own (before : List Event) (finishID : Nat) (request : Request)
    (attempt : OauthAttempt) : Prop :=
  .started request.values.state attempt ∈ before
    ∧ attempt.provider = request.provider
    ∧ request.sessionUserID = attempt.userID
    ∧ ∃ now < attempt.expiresAt,
      .consumed finishID request now attempt ∈ before

/-- What an exchange and a saved account go back to. -/
def Linked (before : List Event) : Event → Prop
  | .exchanged finishID request verifier =>
      ∃ attempt, Own before finishID request attempt
        ∧ verifier = attempt.verifier
  | .saved finishID request userID connection source =>
      ∃ attempt, Own before finishID request attempt
        ∧ userID = attempt.userID
        ∧ .exchanged finishID request attempt.verifier ∈ before
        ∧ connection.provider = request.provider
        ∧ source.provider = request.provider
  | _ => True

/-- Attempts are bound to their user and used once. -/
structure Bound (log : List Event) : Prop where
  linked : Justified Linked log
  /-- a state stands for one Start -/
  started : ∀ state a b, .started state a ∈ log → .started state b ∈ log →
    a = b
  once : (exchangedStates log).Nodup

/-- The hash tells what Start produced from all else that is
presented. -/
def Distinguishes (sha : String → String) (s : System) : Prop :=
  ∀ x ∈ produced s.log, ∀ y ∈ produced s.log ++ s.presented,
    sha x = sha y → x = y

theorem mem_produced (h : .started state attempt ∈ log) :
    state ∈ produced log :=
  List.mem_filterMap.mpr ⟨_, h, rfl⟩

/-- A consumed attempt goes back to the state that was presented. -/
theorem Inv.own (h : Inv sha s) (hsha : Distinguishes sha s)
    {before after : List Event} (hlog : s.log = before ++ after)
    (hclaimed : Claimed before finishID request
      attempt) : Own before finishID request attempt := by
  obtain ⟨⟨now, hconsumed⟩, -, hsession⟩ := hclaimed
  have hbefore : Justified (Sourced sha) before := (hlog ▸ h.log).left
  obtain ⟨earlier, later, rfl, hopen, state, hstarted⟩ :=
    hbefore.of_mem hconsumed
  have hstart := List.mem_append_left
    (.consumed finishID request now attempt :: later) hstarted
  obtain ⟨_, _, _, hhash⟩ := hbefore.of_mem hstart
  have hmem : ∀ {e}, e ∈ earlier ++ .consumed finishID request now attempt
      :: later → e ∈ s.log := fun he => hlog ▸ List.mem_append_left _ he
  have hpresented : request.values.state ∈ s.presented := by
    have hcall := h.requests finishID request now attempt (hmem hconsumed)
    obtain ⟨c, hc, hrequest⟩ := List.mem_map.mp hcall
    exact List.mem_map.mpr ⟨c, hc, by rw [hrequest]⟩
  have hstate : state = request.values.state :=
    hsha state (mem_produced (hmem hstart)) _
      (List.mem_append_right _ hpresented) (hhash.symm.trans hopen.1)
  subst hstate
  exact ⟨hstart, hopen.2.1, hsession, now, hopen.2.2, hconsumed⟩

theorem Inv.linked (h : Inv sha s) (hsha : Distinguishes sha s) :
    Justified Linked s.log := by
  intro before e after hlog
  have hsourced := h.log before e after hlog
  cases e with
  | started => trivial
  | consumed => trivial
  | exchanged finishID request verifier =>
      obtain ⟨attempt, hclaimed, hverifier⟩ := hsourced
      exact ⟨attempt, h.own hsha hlog hclaimed, hverifier.symm⟩
  | saved finishID request userID connection source =>
      obtain ⟨attempt, ⟨hclaimed, hexchanged⟩, huser, hproviders⟩ := hsourced
      exact ⟨attempt, h.own hsha hlog hclaimed, huser.symm, hexchanged,
        hproviders⟩

/-- Starts under one hash are Starts of one state. -/
theorem Inv.started_le (h : Inv sha s) (hsha : Distinguishes sha s)
    (hstate : state ∈ produced s.log) :
    s.started (sha state) ≤ (produced s.log).count state := by
  unfold System.started produced
  rw [List.count_eq_countP, List.countP_filterMap]
  refine List.countP_mono_left fun e he hstarts => ?_
  cases e with
  | started state' attempt =>
      obtain ⟨_, _, _, hhash⟩ := h.log.of_mem he
      have heq : state' = state :=
        hsha state' (mem_produced he) state (List.mem_append_left _ hstate)
          (hhash.symm.trans (by simpa [Event.starts] using hstarts))
      simpa [Event.produced] using heq
  | consumed => cases hstarts
  | exchanged => cases hstarts
  | saved => cases hstarts

theorem exchangedStates_count (state : String) :
    (exchangedStates log).count state
      ≤ log.countP (Event.exchanges sha (sha state)) := by
  unfold exchangedStates
  rw [List.count_eq_countP, List.countP_filterMap]
  refine List.countP_mono_left fun e _ he => ?_
  cases e with
  | exchanged finishID request verifier =>
      have hstate : request.values.state = state := by
        simpa [Event.exchangedState] using he
      simp [Event.exchanges, hstate]
  | started => cases he
  | consumed => cases he
  | saved => cases he

/-- An exchange goes back to a Start of its state. -/
theorem Inv.exchanged_produced (h : Inv sha s) (hsha : Distinguishes sha s)
    (he : state ∈ exchangedStates s.log) :
    state ∈ produced s.log := by
  obtain ⟨e, hmem, hstate⟩ := List.mem_filterMap.mp he
  cases e with
  | exchanged finishID request verifier =>
      cases hstate
      obtain ⟨before, after, hlog, attempt, hown, -⟩ :=
        (h.linked hsha).of_mem hmem
      rw [hlog]
      exact mem_produced (List.mem_append_left _ hown.1)
  | started => cases hstate
  | consumed => cases hstate
  | saved => cases hstate

theorem started_unique (h : (produced log).Nodup)
    {a b : OauthAttempt} (ha : .started state a ∈ log)
    (hb : .started state b ∈ log) : a = b := by
  have hpairs := List.pairwise_filterMap.mp h
  by_contra hne
  have hsymm : Std.Symm fun e e' : Event => ∀ x, e.produced = some x →
      ∀ y, e'.produced = some y → x ≠ y :=
    ⟨fun e e' hee y hy x hx => (hee x hx y hy).symm⟩
  refine hpairs.forall ha hb (fun heq => hne ?_) state rfl state rfl rfl
  injection heq

/-- In every run of Start and Finish calls, an account is saved only for
the user who is signed in and whose Start made the unexpired attempt, an
exchange sends the verifier of that Start, and no state leads to two
exchanges. -/
theorem attempts_bound (acts : List Action)
    (hdistinct :
      (produced (Run.run (System.step sha configs) {} acts).log).Nodup)
    (hsha : Distinguishes sha (Run.run (System.step sha configs) {} acts)) :
    Bound (Run.run (System.step sha configs) {} acts).log := by
  have hinv := inv_run sha configs acts
  have hle := exchanges_le sha configs acts
  generalize Run.run (System.step sha configs) {} acts = s at *
  have hone := fun state => List.nodup_iff_count_le_one.mp hdistinct state
  refine ⟨hinv.linked hsha, fun state a b ha hb => ?_, ?_⟩
  · exact started_unique hdistinct ha hb
  · refine List.nodup_iff_count_le_one.mpr fun state => ?_
    by_cases hstate : state ∈ produced s.log
    · calc (exchangedStates s.log).count state
          ≤ s.log.countP (Event.exchanges sha (sha state)) :=
            exchangedStates_count state
        _ ≤ s.started (sha state) := hle (sha state)
        _ ≤ (produced s.log).count state := hinv.started_le hsha hstate
        _ ≤ 1 := hone state
    · -- no exchange was sent for it
      have hnone := List.count_eq_zero.mpr fun hmem =>
        hstate (hinv.exchanged_produced hsha hmem)
      omega

/-- A callback that is delivered twice at once, and connects once. -/
theorem attempts_bound_twice :
    let hash :=
      "4ba69735ca53765ed6a709edb56c6ea236b7193a3b29a6b390c346f0f4340e4e"
    let request : Request :=
      { provider := .twitch, sessionUserID := 42
        callback := some { state := "state", code := "code" } }
    let token : RawToken :=
      { accessToken := "access", refreshToken := some "refresh"
        expiresIn := some 3600, scope := none, state := "", userID := "" }
    let log := (Run.run (System.step
        (fun text => if text = "state" then hash else text)
        (fun _ => some { scopes := ["user:read:chat"] })) {}
      [.start 42 .twitch "/chat" "state" "verifier" 0 0 .answered,
       .finish request, .finish request,
       .proceed 1 (.consumed second .answered),
       .proceed 0 (.consumed second .answered),
       .proceed 1 .sent, .proceed 1 (.token (some token)),
       .proceed 1 (.profile (.ok
         { providerUserID := "7", displayName := "streamer"
           sourceURL := "https://www.twitch.tv/streamer" })),
       .proceed 1 (.capacity .answered),
       .proceed 1 (.saved second .answered)]).log
    exchangedStates log = ["state"] ∧ log.length = 4 ∧ Bound log := by
  refine ⟨by decide, by decide, attempts_bound _ (by decide) ?_⟩
  unfold Distinguishes
  decide

end StreamBrew.Chat.Oauth
