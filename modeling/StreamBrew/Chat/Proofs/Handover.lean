/-
A Twitch session that replaces another one takes over its subscription,
and every other session subscribes.

What a hand-over is, is said on the log alone (`Handover`): a notice
hands over a session that is subscribed, the next socket replaces it, and
a dial that fails gives it up. The pointer that the code passes from
session to session is a previous session exactly when the log says that
one was handed over (`Holds`), in each stage of the goroutine; what the
log itself owes to that is kept apart from the stages (`Ledger`).
-/
import StreamBrew.Lib.History
import StreamBrew.Chat.Twitch

namespace StreamBrew.Chat.Twitch

open History

variable {x : Session} {n : Nat}

variable {source : StreamSource} {s : System} {log : List Event}
  {dials : Nat} {greeted : List Nat}

-- ================================ hand-overs

/-- What a log tells of hand-overs: the session that was handed over and
not given up since, the sockets that replaced such a session, and the
sockets that are subscribed. -/
structure Handover where
  last : Option Nat := none
  replacing : List Nat := []
  subscribed : List Nat := []

/-- The hand-over after another entry of the log. -/
def Handover.observe (h : Handover) : Event → Handover
  | .dialed none _ => { h with last := none }
  | .dialed (some n) _ =>
      { h with
        last := none
        replacing :=
          if h.last.isSome then n :: h.replacing else h.replacing }
  | .welcomed n _ =>
      if n ∈ h.replacing then { h with subscribed := n :: h.subscribed }
      else h
  | .accepted n => { h with subscribed := n :: h.subscribed }
  | .notified n _ =>
      { h with last := if n ∈ h.subscribed then some n else none }
  | _ => h

/-- The hand-over that a log ends in. -/
def handover (log : List Event) : Handover :=
  log.foldl Handover.observe {}

/-- A replacement was dialed. -/
def Event.opens : Event → Bool
  | .dialed (some _) _ => true
  | _ => false

/-- A socket was welcomed. -/
def Event.welcomes (n : Nat) : Event → Bool
  | .welcomed m _ => m = n
  | _ => false

/-- A subscription was requested for a socket. -/
def Event.requests (n : Nat) : Event → Bool
  | .requested m _ => m = n
  | _ => false

/-- The last dial: its socket, if it had one. -/
def attempt (log : List Event) : Option (Option Nat) :=
  log.foldl (fun before e =>
    match e with
    | .dialed socket _ => some socket
    | _ => before) none

/-- The last attempt at a session came to nothing before a welcome. -/
def Failed (log : List Event) : Prop :=
  ∀ n, attempt log = some (some n) → log.any (Event.welcomes n) = false

-- ====================================== logs

@[simp] theorem handover_snoc (log : List Event) (e : Event) :
    handover (log ++ [e]) = (handover log).observe e :=
  List.foldl_append

@[simp] theorem attempt_snoc (log : List Event) (e : Event) :
    attempt (log ++ [e]) =
      match e with
      | .dialed socket _ => some socket
      | _ => attempt log := by
  unfold attempt
  rw [List.foldl_append]
  rfl

/-- An opened socket has the next number, and replaces nothing after a
failed attempt. -/
def Opened (before : List Event) (e : Event) : Prop :=
  ∀ n url, e = .dialed (some n) url → n = before.countP Event.opens
    ∧ (Failed before → (handover before).last = none)

/-- A session is reported live when it is subscribed. -/
def Live (before : List Event) (e : Event) : Prop :=
  ∀ n event, e = .emitted n event → event.type = "state" →
    n ∈ (handover before).subscribed

/-- What the log owes to the counters. -/
structure Ledger (log : List Event) (dials : Nat) (greeted : List Nat) :
    Prop where
  count : dials = log.countP Event.opens
  opened : Justified Opened log
  live : Justified Live log
  greets : ∀ n, log.any (Event.welcomes n) = true ↔ n ∈ greeted
  bound : ∀ n ∈ greeted, n < dials
  subscribed : ∀ n ∈ (handover log).subscribed, n ∈ greeted
  requests : ∀ n, log.countP (Event.requests n)
    = if n ∈ greeted ∧ n ∉ (handover log).replacing then 1 else 0

/-- The sockets that replace others are opened ones. -/
theorem replacing_lt (h : Justified Opened log) :
    ∀ n ∈ (handover log).replacing, n < log.countP Event.opens := by
  induction log using List.reverseRecOn with
  | nil => nofun
  | append_singleton log e ih =>
      obtain ⟨hlog, he⟩ := justified_snoc.mp h
      intro n hn
      rw [handover_snoc] at hn
      rw [List.countP_append]
      have hmore : n ∈ (handover log).replacing →
          n < log.countP Event.opens + List.countP Event.opens [e] :=
        fun hn => Nat.lt_of_lt_of_le (ih hlog n hn) (Nat.le_add_right _ _)
      cases e with
      | dialed socket url =>
          cases socket with
          | none => exact hmore hn
          | some m =>
              simp only [Handover.observe] at hn
              split at hn
              case isTrue =>
                rcases List.mem_cons.mp hn with rfl | hn
                · rw [(he n url rfl).1]
                  simp [Event.opens]
                · exact hmore hn
              case isFalse => exact hmore hn
      | welcomed m id =>
          simp only [Handover.observe] at hn
          split at hn <;> exact hmore hn
      | requested m id => exact hmore hn
      | accepted m => exact hmore hn
      | notified m url => exact hmore hn
      | read m message => exact hmore hn
      | emitted m event => exact hmore hn

/-- Whether a socket replaces another one is decided when it is
opened. -/
theorem replacing_iff {before : List Event} {url : String}
    (after : List Event)
    (h : Justified Opened (before ++ .dialed (some n) url :: after)) :
    n ∈ (handover (before ++ .dialed (some n) url :: after)).replacing
      ↔ (handover before).last.isSome = true := by
  induction after using List.reverseRecOn with
  | nil =>
      obtain ⟨hbefore, he⟩ := justified_snoc.mp h
      have hnew : n ∉ (handover before).replacing := by
        intro hmem
        have hlt := replacing_lt hbefore n hmem
        rw [(he n url rfl).1] at hlt
        exact Nat.lt_irrefl _ hlt
      rw [handover_snoc]
      simp only [Handover.observe]
      split
      case isTrue hlast => simp [hlast]
      case isFalse hlast => simp [hlast, hnew]
  | append_singleton after e ih =>
      rw [← List.cons_append, ← List.append_assoc] at h ⊢
      obtain ⟨hlog, he⟩ := justified_snoc.mp h
      rw [← ih hlog, handover_snoc]
      cases e with
      | dialed socket url' =>
          cases socket with
          | none => exact Iff.rfl
          | some m =>
              have hm := (he m url' rfl).1
              have hn := (hlog before _ after rfl n url rfl).1
              have hne : n ≠ m := by
                rw [hm, List.countP_append, List.countP_cons, ← hn]
                simp only [Event.opens, if_true]
                omega
              simp only [Handover.observe]
              split
              case isTrue => simp [hne]
              case isFalse => exact Iff.rfl
      | welcomed m id =>
          simp only [Handover.observe]
          split <;> exact Iff.rfl
      | requested m id => exact Iff.rfl
      | accepted m => exact Iff.rfl
      | notified m url => exact Iff.rfl
      | read m message => exact Iff.rfl
      | emitted m event => exact Iff.rfl

-- ==================================== ledger

section Ledger

variable (h : Ledger log dials greeted)

include h

/-- An event that opens nothing and asks for nothing. -/
theorem Ledger.record {e : Event} (hopens : e.opens = false)
    (hwelcomes : ∀ n, e.welcomes n = false)
    (hrequests : ∀ n, e.requests n = false) (hlive : Live log e)
    (hsubscribed : ∀ n ∈ ((handover log).observe e).subscribed, n ∈ greeted)
    (hreplacing : ((handover log).observe e).replacing
      = (handover log).replacing) :
    Ledger (log ++ [e]) dials greeted where
  count := by
    rw [List.countP_append, List.countP_singleton, hopens]
    exact h.count
  opened := h.opened.snoc fun n url he => by
    subst he
    cases hopens
  live := h.live.snoc hlive
  greets n := by
    rw [List.any_append, List.any_cons, hwelcomes]
    simpa using h.greets n
  bound := h.bound
  subscribed := by
    rw [handover_snoc]
    exact hsubscribed
  requests n := by
    rw [handover_snoc, hreplacing, List.countP_append, List.countP_singleton,
      hrequests]
    exact h.requests n

theorem Ledger.failed (url : String) :
    Ledger (log ++ [.dialed none url]) dials greeted :=
  h.record rfl (fun _ => rfl) (fun _ => rfl) nofun h.subscribed rfl

theorem Ledger.notified (n : Nat) (url : String) :
    Ledger (log ++ [.notified n url]) dials greeted :=
  h.record rfl (fun _ => rfl) (fun _ => rfl) nofun h.subscribed rfl

theorem Ledger.read (n : Nat) (message : StreamEvent) :
    Ledger (log ++ [.read n message]) dials greeted :=
  h.record rfl (fun _ => rfl) (fun _ => rfl) nofun h.subscribed rfl

theorem Ledger.emitted {event : StreamEvent}
    (hlive : event.type = "state" → n ∈ (handover log).subscribed) :
    Ledger (log ++ [.emitted n event]) dials greeted := by
  refine h.record rfl (fun _ => rfl) (fun _ => rfl) ?_ h.subscribed rfl
  intro m event' he htype
  cases he
  exact hlive htype

theorem Ledger.accepted (hn : n ∈ greeted) :
    Ledger (log ++ [.accepted n]) dials greeted := by
  refine h.record rfl (fun _ => rfl) (fun _ => rfl) nofun (fun m hm => ?_) rfl
  rcases List.mem_cons.mp hm with rfl | hm
  · exact hn
  · exact h.subscribed m hm

/-- A socket is dialed with the next number. -/
theorem Ledger.dialed (url : String)
    (hlast : Failed log → (handover log).last = none) :
    Ledger (log ++ [.dialed (some dials) url]) (dials + 1) greeted where
  count := by
    rw [List.countP_append, ← h.count]
    rfl
  opened := h.opened.snoc fun n url' he => by
    cases he
    exact ⟨h.count, hlast⟩
  live := h.live.snoc nofun
  greets n := by
    rw [List.any_append]
    simpa [Event.welcomes] using h.greets n
  bound n hn := Nat.lt_succ_of_lt (h.bound n hn)
  subscribed := by
    rw [handover_snoc]
    exact h.subscribed
  requests n := by
    have hsame : (n ∈ greeted ∧ n ∉ (handover (log
          ++ [.dialed (some dials) url])).replacing)
        ↔ n ∈ greeted ∧ n ∉ (handover log).replacing := by
      refine and_congr_right fun hn => not_congr ?_
      have hne := Nat.ne_of_lt (h.bound n hn)
      rw [handover_snoc]
      simp only [Handover.observe]
      split
      case isTrue => simp [hne]
      case isFalse => exact Iff.rfl
    rw [if_congr hsame rfl rfl, List.countP_append]
    exact h.requests n

/-- A welcome, and the request where nothing is replaced. -/
theorem Ledger.welcomed (id : String) (hnew : n ∉ greeted)
    (hn : n < dials) (hreplacing : n ∈ (handover log).replacing) :
    Ledger (log ++ [.welcomed n id]) dials (n :: greeted) where
  count := by
    rw [List.countP_append]
    exact h.count
  opened := h.opened.snoc nofun
  live := h.live.snoc nofun
  greets m := by
    rw [List.any_append, Bool.or_eq_true, h.greets, List.mem_cons]
    simp [Event.welcomes, or_comm, eq_comm]
  bound m hm := by
    rcases List.mem_cons.mp hm with rfl | hm
    · exact hn
    · exact h.bound m hm
  subscribed m hm := by
    rw [handover_snoc] at hm
    simp only [Handover.observe, if_pos hreplacing] at hm
    rcases List.mem_cons.mp hm with rfl | hm
    · exact List.mem_cons_self
    · exact List.mem_cons_of_mem _ (h.subscribed m hm)
  requests m := by
    rw [handover_snoc, List.countP_append]
    simp only [Handover.observe, if_pos hreplacing]
    rw [h.requests m]
    refine if_congr ?_ rfl rfl
    by_cases hm : m = n
    · subst hm
      simp [hreplacing]
    · simp [hm]

/-- A socket is welcomed, and a subscription requested for it. -/
theorem Ledger.requested (id : String) (hnew : n ∉ greeted)
    (hn : n < dials) (hreplacing : n ∉ (handover log).replacing) :
    Ledger (log ++ [.welcomed n id] ++ [.requested n id]) dials
      (n :: greeted) where
  count := by
    rw [List.countP_append, List.countP_append]
    exact h.count
  opened := (h.opened.snoc fun _ _ he => by cases he).snoc
    fun _ _ he => by cases he
  live := (h.live.snoc fun _ _ he => by cases he).snoc
    fun _ _ he => by cases he
  greets m := by
    rw [List.any_append, List.any_append, Bool.or_eq_true, Bool.or_eq_true,
      h.greets, List.mem_cons]
    simp [Event.welcomes, or_comm, eq_comm]
  bound m hm := by
    rcases List.mem_cons.mp hm with rfl | hm
    · exact hn
    · exact h.bound m hm
  subscribed m hm := by
    rw [handover_snoc, handover_snoc] at hm
    simp only [Handover.observe, if_neg hreplacing] at hm
    exact List.mem_cons_of_mem _ (h.subscribed m hm)
  requests m := by
    rw [handover_snoc, handover_snoc, List.countP_append, List.countP_append,
      h.requests m]
    simp only [Handover.observe, if_neg hreplacing]
    by_cases hm : m = n
    · subst hm
      simp [hnew, hreplacing, Event.requests]
    · simp [hm, Ne.symm hm, Event.requests]

end Ledger

-- ==================================== stages

/-- The socket of the session that is being read. -/
def Stage.socket? : Stage → Option Nat
  | .reading x | .subscribing x | .sending x _ => some x.socket
  | .failing _ (.reads x) | .failing _ (.leaves x) => some x.socket
  | .releasing (.welcomed x) | .releasing (.left x _) => some x.socket
  | _ => none

/-- A session that has handed nothing over, with the previous session
that it replaces. -/
structure Takes (h : Handover) (previous : Bool) (x : Session) : Prop where
  last : h.last = none
  replaces : previous = true ↔ x.socket ∈ h.replacing

/-- The session knows whether it has been subscribed. -/
def Tells (h : Handover) (x : Session) : Prop :=
  x.subscribed = true ↔ x.socket ∈ h.subscribed

/-- What each stage knows of hand-overs. -/
def Holds (h : Handover) (failed : Prop) (greeted : List Nat)
    (previous : Bool) : Stage → Prop
  | .dialing => previous = h.last.isSome ∧ (failed → h.last = none)
  | .reading x => Takes h previous x ∧ Tells h x
  | .subscribing x => Takes h previous x ∧ Tells h x
      ∧ previous = false ∧ x.socket ∈ greeted
  | .sending x event => Takes h previous x ∧ Tells h x
      ∧ (event.type = "state" → x.socket ∈ h.subscribed)
  | .failing _ (.reads x) => Takes h previous x ∧ Tells h x
  | .failing _ (.leaves x) => Takes h previous x ∧ Tells h x
  | .releasing (.welcomed x) => Takes h previous x ∧ x.socket ∈ h.subscribed
  | .releasing (.left x nextURL) => Tells h x
      ∧ h.last.isSome = (nextURL.isSome && x.subscribed)
  | .releasing .undialed => h.last = none
  | .releasing .ended => True
  | .connecting | .waiting | .failing _ .waits => previous = false
      ∧ h.last = none
  | .failing _ .ends | .ended => previous = false

/-- The socket that the previous reader still has. -/
def Previous.open (p : Previous) : List Nat :=
  if p.isDone then [] else [p.socket]

/-- The open sockets: that of the previous session, and that of the
current one. -/
def System.open (s : System) : List Nat :=
  (s.previous.map Previous.open).getD []
    ++ s.stage.socket?.toList

/-- The log, the goroutines and the open sockets agree. -/
structure Inv (s : System) : Prop where
  ledger : Ledger s.log s.dials s.greeted
  holds : Holds (handover s.log) (Failed s.log) s.greeted s.previous.isSome
    s.stage
  current : ∀ n, s.stage.socket? = some n →
    attempt s.log = some (some n) ∧ n < s.dials
  sockets : s.sockets = s.open
  messages : ∀ p event, s.previous = some p → p.stage = .sending event →
    ∃ message, event = .ofMessage message
  apart : ∀ p, s.previous = some p → p.socket < s.dials
    ∧ s.stage.socket? ≠ some p.socket

theorem failed_quiet {e : Event} (hattempt : attempt (log ++ [e]) = attempt log)
    (hwelcomes : ∀ n, e.welcomes n = false) :
    Failed (log ++ [e]) = Failed log := by
  unfold Failed
  simp only [hattempt, List.any_append, List.any_cons, hwelcomes,
    List.any_nil, Bool.or_false]

/-- A session that was welcomed has not failed. -/
theorem not_failed (h : Ledger log dials greeted)
    (hattempt : attempt log = some (some n)) (hn : n ∈ greeted) :
    ¬ Failed log := by
  intro hfailed
  have hwelcomed := (h.greets n).mpr hn
  rw [hfailed n hattempt] at hwelcomed
  cases hwelcomed

-- ===================================== steps

theorem message_ne_state : ("message" : String) ≠ "state" := by decide

theorem ofMessage_ne_state {event : StreamEvent}
    (h : ∃ message, event = .ofMessage message) : event.type ≠ "state" := by
  obtain ⟨message, rfl⟩ := h
  exact message_ne_state

section Moves

variable (h : Inv s) (hledger : Ledger log s.dials greeted)

include h hledger

/-- Another stage of the same session, or of none as before. -/
theorem inv_move {stage : Stage} (hsession : stage.socket? = s.stage.socket?)
    (hattempt : attempt log = attempt s.log)
    (hholds : Holds (handover log) (Failed log) greeted s.previous.isSome
      stage) : Inv { s with stage, log, greeted } where
  ledger := hledger
  holds := hholds
  current x hx := by
    simp only [hattempt]
    exact h.current x (hsession ▸ hx)
  sockets := by
    unfold System.open
    rw [hsession]
    exact h.sockets
  messages := h.messages
  apart p hp := by
    rw [hsession]
    exact h.apart p hp

/-- The previous session is being closed. -/
theorem inv_close {release : Release}
    (hsession : (Stage.releasing release).socket? = s.stage.socket?)
    (hattempt : s.stage.socket?.isSome → attempt log = attempt s.log)
    (hholds : Holds (handover log) (Failed log) greeted s.previous.isSome
      (.releasing release)) :
    Inv (({ s with log, greeted } : System).close release) where
  ledger := hledger
  holds := by
    unfold System.close
    rw [Option.isSome_map]
    exact hholds
  current x hx := by
    have hx : s.stage.socket? = some x := hsession ▸ hx
    have hsame := hattempt (by rw [hx]; rfl)
    unfold System.close
    rw [hsame]
    exact h.current x hx
  sockets := by
    have hopen : (({ s with log, greeted } : System).close release).open
        = s.open := by
      unfold System.close System.open
      rw [hsession, Option.map_map]
      rfl
    rw [hopen]
    exact h.sockets
  messages p event hp hstage := by
    obtain ⟨q, hq, rfl⟩ := Option.map_eq_some_iff.mp hp
    exact h.messages q event hq hstage
  apart p hp := by
    obtain ⟨q, hq, rfl⟩ := Option.map_eq_some_iff.mp hp
    have hapart := h.apart q hq
    rw [← hsession] at hapart
    exact hapart

end Moves

/-- The stream dials. -/
theorem inv_dial (h : Inv s) (hstage : s.stage = .dialing) (ok : Bool) :
    Inv (s.dial ok) := by
  obtain ⟨hprevious, hfailed⟩ : s.previous.isSome = (handover s.log).last.isSome
      ∧ (Failed s.log → (handover s.log).last = none) := by
    have hholds := h.holds
    rwa [hstage] at hholds
  unfold System.dial
  cases ok with
  | false =>
      rw [if_neg Bool.false_ne_true]
      refine inv_close h (h.ledger.failed s.reconnectURL) ?_ ?_ ?_
      · rw [hstage]
        rfl
      · rw [hstage]
        nofun
      · rw [handover_snoc]
        rfl
  | true =>
      rw [if_pos rfl]
      have hreplaces : s.dials ∈ (handover (s.log
            ++ [.dialed (some s.dials) s.reconnectURL])).replacing
          ↔ (handover s.log).last.isSome = true :=
        replacing_iff [] (h.ledger.dialed s.reconnectURL hfailed).opened
      refine ⟨h.ledger.dialed s.reconnectURL hfailed, ?_, fun x hx => ?_, ?_,
        h.messages, fun p hp => ?_⟩
      · refine ⟨⟨by rw [handover_snoc]; rfl, ?_⟩, ?_⟩
        · rw [hreplaces, ← hprevious]
        · -- a new socket is not subscribed
          refine ⟨nofun, fun hmem => ?_⟩
          have hgreeted := (h.ledger.dialed s.reconnectURL
            hfailed).subscribed _ hmem
          exact absurd (h.ledger.bound _ hgreeted) (Nat.lt_irrefl _)
      · cases hx
        exact ⟨attempt_snoc .., Nat.lt_succ_self _⟩
      · have hsockets := h.sockets
        unfold System.open at hsockets ⊢
        rw [hstage] at hsockets
        simp only [hsockets, Stage.socket?, Option.toList_none,
          List.append_nil]
        rfl
      · have hlt := (h.apart p hp).1
        refine ⟨Nat.lt_succ_of_lt hlt, fun heq => ?_⟩
        have heq : s.dials = p.socket := Option.some.inj heq
        omega

/-- readTwitchSocket returns without a notice. -/
theorem inv_leave (h : Inv s) (hsession : s.stage.socket? = some x.socket)
    (hholds : Takes (handover s.log) s.previous.isSome x
      ∧ Tells (handover s.log) x) : Inv (s.leave x none) := by
  refine inv_close h h.ledger hsession.symm (fun _ => rfl) ⟨hholds.2, ?_⟩
  rw [hholds.1.last]
  rfl

theorem inv_fail (h : Inv s) (hsession : s.stage.socket? = some x.socket)
    (hholds : Takes (handover s.log) s.previous.isSome x
      ∧ Tells (handover s.log) x) (detail : String) :
    Inv (s.fail detail (.leaves x)) :=
  inv_move h h.ledger hsession.symm rfl hholds

/-- The events of a session that is being read. -/
theorem inv_receive (h : Inv s) (hstage : s.stage = .reading x)
    (event : TwitchEvent)
    (hnew : ∀ id, event = .welcome id → x.socket ∉ s.greeted) :
    Inv (s.receive source x event) := by
  obtain ⟨htakes, htells⟩ : Takes (handover s.log) s.previous.isSome x
      ∧ Tells (handover s.log) x := by
    have hholds := h.holds
    rwa [hstage] at hholds
  have hsession : s.stage.socket? = some x.socket := by rw [hstage]; rfl
  obtain ⟨hattempt, hbound⟩ := h.current x.socket hsession
  cases event with
  | welcome id =>
      have hnew := hnew id rfl
      unfold System.receive
      simp only
      split
      case isTrue hnone =>
        have hreplaces : x.socket ∉ (handover s.log).replacing := by
          rw [← htakes.replaces, hnone]
          simp
        refine inv_move h (h.ledger.requested id hnew hbound hreplaces)
          hsession.symm ?_ ?_
        · rw [attempt_snoc, attempt_snoc]
        · rw [handover_snoc, handover_snoc]
          simp only [Handover.observe, if_neg hreplaces]
          exact ⟨htakes, htells, by rw [hnone]; rfl, List.mem_cons_self⟩
      case isFalse hsome =>
        have hreplaces : x.socket ∈ (handover s.log).replacing := by
          rw [← htakes.replaces]
          exact Option.isSome_iff_ne_none.mpr hsome
        refine inv_close h (h.ledger.welcomed id hnew hbound hreplaces)
          hsession.symm (fun _ => attempt_snoc ..) ?_
        rw [handover_snoc]
        simp only [Handover.observe, if_pos hreplaces]
        exact ⟨⟨htakes.last, htakes.replaces⟩, List.mem_cons_self⟩
  | reconnect url =>
      refine inv_close h (h.ledger.notified x.socket url) hsession.symm
        (fun _ => attempt_snoc ..) ?_
      rw [handover_snoc]
      refine ⟨htells, ?_⟩
      simp only [Handover.observe, Option.isSome_some, Bool.true_and]
      split
      case isTrue hmem => exact (htells.mpr hmem).symm
      case isFalse hmem =>
        exact (Bool.eq_false_iff.mpr fun hx => hmem (htells.mp hx)).symm
  | revocation reason broadcasterID =>
      exact inv_move h h.ledger hsession.symm rfl ⟨htakes, htells⟩
  | message messageID authorID author text occurredAt =>
      refine inv_move h (h.ledger.read x.socket _) hsession.symm
        (attempt_snoc ..) ?_
      rw [handover_snoc]
      exact ⟨htakes, htells, fun htype => absurd htype message_ne_state⟩

/-- The session reads. -/
theorem inv_read (h : Inv s) (hstage : s.stage = .reading x)
    (body : Option (Option Envelope)) : Inv (s.read source x body) := by
  have hholds : Takes (handover s.log) s.previous.isSome x
      ∧ Tells (handover s.log) x := by
    have hholds := h.holds
    rwa [hstage] at hholds
  have hsession : s.stage.socket? = some x.socket := by rw [hstage]; rfl
  unfold System.read
  split
  case h_1 =>
    split
    case isTrue => exact inv_leave h hsession hholds
    case isFalse => exact inv_fail h hsession hholds _
  case h_2 body =>
    split
    case h_1 => exact inv_fail h hsession hholds _
    case h_2 => exact h
    case h_3 sessionID _ =>
      split
      case isTrue => exact h
      case isFalse hnew =>
        exact inv_receive h hstage _ fun id he => hnew
    case h_4 event hnot _ =>
      refine inv_receive h hstage event fun id he => ?_
      exact absurd he (hnot id)

/-- The subscription was answered. -/
theorem inv_subscription (h : Inv s)
    (hstage : s.stage = .subscribing x) (status : Option Nat) :
    Inv (s.subscription source x status) := by
  obtain ⟨htakes, htells, -, hgreeted⟩ : Takes (handover s.log)
        s.previous.isSome x ∧ Tells (handover s.log) x
      ∧ s.previous.isSome = false ∧ x.socket ∈ s.greeted := by
    have hholds := h.holds
    rwa [hstage] at hholds
  have hsession : s.stage.socket? = some x.socket := by rw [hstage]; rfl
  unfold System.subscription
  split
  case h_1 =>
    exact inv_move h h.ledger hsession.symm rfl ⟨htakes, htells⟩
  case h_2 =>
    refine inv_move h (h.ledger.accepted hgreeted) hsession.symm
      (attempt_snoc ..) ?_
    rw [handover_snoc]
    exact ⟨⟨htakes.last, htakes.replaces⟩,
      ⟨fun _ => List.mem_cons_self, fun _ => rfl⟩,
      fun _ => List.mem_cons_self⟩

/-- An error was sent. -/
theorem inv_failed {error : ProviderError} {after : After} (h : Inv s)
    (hstage : s.stage = .failing error after) : Inv (s.failed after) := by
  have hholds := h.holds
  rw [hstage] at hholds
  cases after with
  | reads x =>
      exact inv_move h h.ledger (by rw [hstage]; rfl) rfl hholds
  | leaves x => exact inv_leave h (by rw [hstage]; rfl) hholds
  | waits => exact inv_move h h.ledger (by rw [hstage]; rfl) rfl hholds
  | ends => exact inv_move h h.ledger (by rw [hstage]; rfl) rfl hholds

/-- A stream without a session. -/
theorem inv_alone (hledger : Ledger s.log s.dials s.greeted)
    (hprevious : s.previous = none) (hstage : s.stage.socket? = none)
    (hsockets : s.sockets = [])
    (hholds : Holds (handover s.log) (Failed s.log) s.greeted false s.stage) :
    Inv s where
  ledger := hledger
  holds := by
    rw [hprevious]
    exact hholds
  current n hn := by
    rw [hstage] at hn
    cases hn
  sockets := by
    unfold System.open
    rw [hsockets, hprevious, hstage]
    rfl
  messages p event hp := by
    rw [hprevious] at hp
    cases hp
  apart p hp := by
    rw [hprevious] at hp
    cases hp

/-- What is left of a previous session that is done. -/
theorem open_done {p : Option Previous}
    (h : p.all Previous.isDone = true) :
    (p.map Previous.open).getD [] = [] := by
  cases p with
  | none => rfl
  | some p => exact if_pos h

/-- The loop goes on after a session. -/
theorem inv_next {nextURL : Option String} (h : Inv s)
    (hstage : s.stage = .releasing (.left x nextURL))
    (hdone : s.previous.all Previous.isDone = true) :
    Inv (s.next x nextURL) := by
  obtain ⟨htells, hlast⟩ : Tells (handover s.log) x
      ∧ (handover s.log).last.isSome = (nextURL.isSome && x.subscribed) := by
    have hholds := h.holds
    rwa [hstage] at hholds
  obtain ⟨hattempt, hbound⟩ := h.current x.socket (by rw [hstage]; rfl)
  have hsockets : s.sockets = [x.socket] := by
    rw [h.sockets]
    unfold System.open
    rw [open_done hdone, hstage]
    rfl
  unfold System.next
  split
  case isTrue hnext =>
    have hsome : (handover s.log).last.isSome = true := by
      rw [hlast, hnext.1, hnext.2]
      rfl
    refine ⟨h.ledger, ⟨hsome.symm, fun hfailed => ?_⟩, nofun, hsockets, ?_,
      fun p hp => ?_⟩
    · have hgreeted := h.ledger.subscribed _ (htells.mp hnext.2)
      exact absurd hfailed (not_failed h.ledger hattempt hgreeted)
    · intro p event hp hsending
      cases hp
      cases hsending
    · cases hp
      exact ⟨hbound, nofun⟩
  case isFalse hnext =>
    have hnone : (handover s.log).last = none := by
      rw [← Option.not_isSome_iff_eq_none, hlast]
      simpa using hnext
    have herase : s.sockets.erase x.socket = [] := by
      rw [hsockets]
      simp
    simp only
    split
    case isTrue =>
      exact inv_alone h.ledger rfl rfl herase rfl
    case isFalse =>
      split
      case isTrue =>
        refine inv_alone h.ledger rfl rfl herase ⟨?_, fun _ => hnone⟩
        rw [hnone]
        rfl
      case isFalse =>
        exact inv_alone h.ledger rfl rfl herase ⟨rfl, hnone⟩

/-- The previous session is closed. -/
theorem inv_release {r : Release} (h : Inv s)
    (hstage : s.stage = .releasing r) : Inv (s.release source r) := by
  have hholds := h.holds
  rw [hstage] at hholds
  unfold System.release
  split
  case isFalse => exact h
  case isTrue hdone =>
    have hopen : (s.previous.map Previous.open).getD [] = [] :=
      open_done hdone
    cases r with
    | welcomed x =>
        obtain ⟨htakes, hsubscribed⟩ := hholds
        exact inv_move h h.ledger (by rw [hstage]; rfl) rfl
          ⟨⟨htakes.last, htakes.replaces⟩,
            ⟨fun _ => hsubscribed, fun _ => rfl⟩, fun _ => hsubscribed⟩
    | undialed =>
        have hsockets : s.sockets = [] := by
          rw [h.sockets]
          unfold System.open
          rw [hopen, hstage]
          rfl
        exact inv_alone h.ledger rfl rfl hsockets ⟨rfl, hholds⟩
    | left x nextURL => exact inv_next h hstage hdone
    | ended =>
        have hsockets : s.sockets = [] := by
          rw [h.sockets]
          unfold System.open
          rw [hopen, hstage]
          rfl
        exact inv_alone h.ledger rfl rfl hsockets rfl

/-- A send of the collector ends, and the event is emitted or not. -/
theorem inv_sent {event : StreamEvent} (h : Inv s)
    (hstage : s.stage = .sending x event) :
    Inv { s with stage := .reading x }
      ∧ Inv { s with
        stage := .reading x
        log := s.log ++ [.emitted x.socket event] } := by
  obtain ⟨htakes, htells, hlive⟩ : Takes (handover s.log)
        s.previous.isSome x ∧ Tells (handover s.log) x
      ∧ (event.type = "state" → x.socket ∈ (handover s.log).subscribed) := by
    have hholds := h.holds
    rwa [hstage] at hholds
  constructor
  · exact inv_move h h.ledger (by rw [hstage]; rfl) rfl ⟨htakes, htells⟩
  · refine inv_move h (h.ledger.emitted hlive) (by rw [hstage]; rfl)
      (attempt_snoc ..) ?_
    rw [handover_snoc]
    exact ⟨htakes, htells⟩

theorem inv_connect (h : Inv s) (hstage : s.stage = .connecting) :
    Inv { s with stage := .dialing } := by
  obtain ⟨hprevious, hlast⟩ : s.previous.isSome = false
      ∧ (handover s.log).last = none := by
    have hholds := h.holds
    rwa [hstage] at hholds
  refine inv_move h h.ledger (by rw [hstage]; rfl) rfl ⟨?_, fun _ => hlast⟩
  rw [hprevious, hlast]
  rfl

/-- A step of the stream itself. -/
theorem inv_stepMain (h : Inv s) (a : Action) :
    Inv (s.stepMain source a) := by
  unfold System.stepMain
  split
  case h_1 ok =>
    split
    case h_1 hstage => exact inv_dial h hstage ok
    case h_2 => exact h
  case h_2 body =>
    split
    case h_1 x hstage => exact inv_read h hstage body
    case h_2 => exact h
  case h_3 status =>
    split
    case h_1 x hstage => exact inv_subscription h hstage status
    case h_2 => exact h
  case h_4 =>
    split
    case h_1 hstage => exact inv_connect h hstage
    case h_2 x event hstage => exact (inv_sent h hstage).2
    case h_3 hstage => exact inv_failed h hstage
    case h_4 => exact h
  case h_5 =>
    split
    case isFalse => exact h
    case isTrue =>
      split
      case h_1 hstage => exact inv_connect h hstage
      case h_2 x event hstage => exact (inv_sent h hstage).1
      case h_3 hstage => exact inv_failed h hstage
      case h_4 => exact h
  case h_6 =>
    split
    case h_1 hstage => exact inv_release h hstage
    case h_2 => exact h
  case h_7 =>
    split
    case h_1 hstage =>
      obtain ⟨hprevious, hlast⟩ : s.previous.isSome = false
          ∧ (handover s.log).last = none := by
        have hholds := h.holds
        rwa [hstage] at hholds
      have hsockets := h.sockets
      unfold System.open at hsockets
      rw [hstage] at hsockets
      refine ⟨h.ledger, ⟨?_, fun _ => hlast⟩, nofun, hsockets, h.messages,
        fun p hp => ⟨(h.apart p hp).1, nofun⟩⟩
      rw [hprevious, hlast]
      rfl
    case h_2 => exact h
  case h_8 =>
    split
    case isFalse => exact h
    case isTrue =>
      split
      case h_1 hstage =>
        exact inv_close h h.ledger (by rw [hstage]; rfl)
          (by rw [hstage]; nofun) trivial
      case h_2 x hstage =>
        have hholds := h.holds
        rw [hstage] at hholds
        exact inv_leave h (by rw [hstage]; rfl) hholds
      case h_3 hstage =>
        have hholds := h.holds
        rw [hstage] at hholds
        exact inv_move h h.ledger (by rw [hstage]; rfl) rfl hholds.1
      case h_4 => exact h
  case h_9 => exact h

/-- The goroutine of the previous session moves. -/
theorem inv_previous {p q : Previous} (h : Inv s) (hp : s.previous = some p)
    (hledger : Ledger log s.dials s.greeted)
    (hhandover : handover log = handover s.log)
    (hattempt : attempt log = attempt s.log)
    (hfailed : Failed log = Failed s.log)
    (hopen : q.open = p.open) (hsocket : q.socket = p.socket)
    (hmessages : ∀ event, q.stage = .sending event →
      ∃ message, event = .ofMessage message) :
    Inv { s with previous := some q, log } where
  ledger := hledger
  holds := by
    have hholds := h.holds
    rw [hp] at hholds
    rw [hhandover, hfailed]
    exact hholds
  current n hn := by
    rw [hattempt]
    exact h.current n hn
  sockets := by
    have hsockets := h.sockets
    unfold System.open at hsockets ⊢
    rw [hp] at hsockets
    simp only [Option.map_some, Option.getD_some, hopen] at hsockets ⊢
    exact hsockets
  messages q' event hq hsending := by
    cases hq
    exact hmessages event hsending
  apart q' hq := by
    cases hq
    rw [hsocket]
    exact h.apart p hp

/-- A step of the previous reader. -/
theorem inv_stepPrevious {p : Previous} (h : Inv s)
    (hp : s.previous = some p) (a : Action) :
    Inv (s.stepPrevious source p a) := by
  have hnotdone : ∀ {stage : PreviousStage}, p.stage = stage →
      stage ≠ .done → p.open = [p.socket] := by
    intro stage hstage hne
    exact if_neg (by simpa [Previous.isDone, hstage] using hne)
  unfold System.stepPrevious
  split
  case h_1 body =>
    split
    case h_2 => exact h
    case h_1 hreading =>
      have hopen := hnotdone hreading nofun
      unfold System.readPrevious
      split
      case h_1 =>
        refine ⟨h.ledger, ?_, h.current, ?_, ?_, fun q hq => ?_⟩
        · have hholds := h.holds
          rw [hp] at hholds
          exact hholds
        · have hsockets := h.sockets
          unfold System.open at hsockets
          rw [hp] at hsockets
          simp only [Option.map_some, Option.getD_some, hopen,
            List.cons_append, List.nil_append] at hsockets
          unfold System.finishPrevious
          simp only [hsockets, List.erase_cons_head]
          rfl
        · intro q event hq hsending
          cases hq
          cases hsending
        · cases hq
          exact h.apart p hp
      case h_2 body =>
        split
        case h_2 => exact h
        case h_1 messageID authorID author text occurredAt _ =>
          refine inv_previous h hp (h.ledger.read p.socket _) ?_
            (attempt_snoc ..) (failed_quiet (attempt_snoc ..) fun _ => rfl)
            ?_ rfl ?_
          · rw [handover_snoc]
            rfl
          · rw [hopen]
            rfl
          · intro event he
            cases he
            exact ⟨_, rfl⟩
  case h_2 =>
    split
    case h_2 => exact h
    case h_1 event hsending =>
      have htype := ofMessage_ne_state (h.messages p event hp hsending)
      refine inv_previous h hp
        (h.ledger.emitted fun hstate => absurd hstate htype) ?_
        (attempt_snoc ..) (failed_quiet (attempt_snoc ..) fun _ => rfl) ?_
        rfl nofun
      · rw [handover_snoc]
        rfl
      · rw [hnotdone hsending nofun]
        rfl
  case h_3 =>
    split
    case h_2 => exact h
    case h_1 event hsending =>
      split
      case isFalse => exact h
      case isTrue =>
        refine inv_previous h hp h.ledger rfl rfl rfl ?_ rfl nofun
        rw [hnotdone hsending nofun]
        rfl
  case h_4 => exact h

theorem inv_step (h : Inv s) (a : Action) : Inv (s.step source a) := by
  unfold System.step
  split
  case h_1 =>
    exact ⟨h.ledger, h.holds, h.current, h.sockets, h.messages, h.apart⟩
  case h_2 body =>
    split
    case h_1 => exact h
    case h_2 p hp => exact inv_stepPrevious h hp (.readPrevious body)
  case h_3 =>
    split
    case h_1 => exact h
    case h_2 p hp => exact inv_stepPrevious h hp .consumePrevious
  case h_4 =>
    split
    case h_1 => exact h
    case h_2 p hp => exact inv_stepPrevious h hp .dropPrevious
  case h_5 => exact inv_stepMain h a

theorem ledger_init : Ledger [] 0 [] where
  count := rfl
  opened := justified_nil
  live := justified_nil
  greets n := by simp
  bound := nofun
  subscribed := nofun
  requests n := by simp

/-- A run of the stream. -/
def streamed (source : StreamSource) (acts : List Action) : System :=
  Run.run (System.step source) (System.init source) acts

theorem inv_init : Inv (System.init source) := by
  unfold System.init
  split
  case isTrue => exact inv_alone ledger_init rfl rfl rfl rfl
  case isFalse => exact inv_alone ledger_init rfl rfl rfl ⟨rfl, rfl⟩

theorem inv_run (acts : List Action) : Inv (streamed source acts) :=
  Run.run_preserves inv_init (fun _ a h => inv_step h a) acts

-- ==================================== result

theorem length_open : s.open.length ≤ 2 := by
  have hprevious : ((s.previous.map Previous.open).getD []).length ≤ 1 := by
    cases s.previous with
    | none => exact Nat.zero_le 1
    | some p =>
        simp only [Option.map_some, Option.getD_some, Previous.open]
        split <;> simp
  have hsocket : s.stage.socket?.toList.length ≤ 1 := by
    cases s.stage.socket? <;> simp
  unfold System.open
  rw [List.length_append]
  omega

/-- In every run, exactly the welcomed sessions that do not replace a
session that was handed over request a subscription, once; at most two
sockets are open, and none at the end; a session is reported live when
it is subscribed; and a session that is opened after an attempt that
failed before its welcome replaces none. -/
theorem handover_exact (acts : List Action) :
    (∀ n, (streamed source acts).log.countP (Event.requests n)
      = if (streamed source acts).log.any (Event.welcomes n) = true
          ∧ n ∉ (handover (streamed source acts).log).replacing then 1
        else 0)
    ∧ (streamed source acts).sockets.length ≤ 2
    ∧ ((streamed source acts).stage = .ended →
      (streamed source acts).sockets = [])
    ∧ Justified Live (streamed source acts).log
    ∧ ∀ before n url after,
      (streamed source acts).log = before ++ .dialed (some n) url :: after →
      Failed before →
      n ∉ (handover (streamed source acts).log).replacing
        ∧ (streamed source acts).log.countP (Event.requests n)
          = if (streamed source acts).log.any (Event.welcomes n) = true then 1
            else 0 := by
  have hinv : Inv (streamed source acts) := inv_run acts
  have hrequests : ∀ n, (streamed source acts).log.countP (Event.requests n)
      = if (streamed source acts).log.any (Event.welcomes n) = true
          ∧ n ∉ (handover (streamed source acts).log).replacing then 1
        else 0 := by
    intro n
    rw [hinv.ledger.requests n]
    exact if_congr (and_congr_left fun _ => (hinv.ledger.greets n).symm) rfl
      rfl
  refine ⟨hrequests, ?_, fun hended => ?_, hinv.ledger.live,
    fun before n url after hlog hfailed => ?_⟩
  · rw [hinv.sockets]
    exact length_open
  · have hnone : (streamed source acts).previous.isSome = false := by
      have hholds := hinv.holds
      rwa [hended] at hholds
    rw [Option.isSome_eq_false_iff, Option.isNone_iff_eq_none] at hnone
    rw [hinv.sockets]
    unfold System.open
    rw [hended, hnone]
    rfl
  · have hopened := hinv.ledger.opened
    have hlast := (hopened before _ after hlog n url rfl).2 hfailed
    have hreplaces : n ∉ (handover (streamed source acts).log).replacing := by
      rw [hlog] at hopened ⊢
      rw [replacing_iff _ hopened, hlast]
      simp
    refine ⟨hreplaces, ?_⟩
    rw [hrequests n]
    exact if_congr (and_iff_left hreplaces) rfl rfl

/-- The source of the run below. -/
def sampleSource : StreamSource :=
  { sourceID := "source", connectionID := "connection"
    providerSourceID := "42", accessToken := "token"
    refreshToken := "refresh" }

/-- A welcome with its session. -/
def sampleWelcome (sessionID : String) : Action :=
  .read (some (some { messageType := "session_welcome"
                      welcome := some sessionID }))

/-- A session that is subscribed, and its notice. -/
def sampleNotice : List Action :=
  [.consume, .dial true, sampleWelcome "1", .subscription (some 202),
    .consume, .read (some (some { messageType := "session_reconnect"
                                  reconnect := some "wss://next" })),
    .release, .dial true]

/-- Of two sessions, the second takes over the subscription. -/
theorem handover_exact_replaced :
    let s := streamed sampleSource
      (sampleNotice ++ [sampleWelcome "2", .readPrevious none, .release])
    s.log.countP (Event.requests 0) = 1
      ∧ s.log.countP (Event.requests 1) = 0 :=
  ⟨((handover_exact _).1 0).trans (by decide),
    ((handover_exact _).1 1).trans (by decide)⟩

end StreamBrew.Chat.Twitch
