/-
One place a session.

A session that the control plane has granted is in one place: in the
hands of a handler, in the entry of its path, or ended. Every turn moves
it from one place to another (`Custody.tokens`), so with distinct ids
nobody else has it and it is ended once. Which turn moves what is said
once, by `Custody.turn`: the events of a turn are the grants, takings
and ends, and the rest is what the handler had in hand before and
after.
-/
import StreamBrew.Restream.Proofs.Admission

namespace StreamBrew.Restream

open Relational

variable {events : List Event} {next : Option Stage} {stage : Stage}

variable {s s' : Controller} {h : Handler} {reply : Reply}
  {action : Action}

-- ======================================= log

/-- What was granted, if anything. -/
def Event.granted? : Event → Option (String × Authorization)
  | .granted path authorization => some (path, authorization)
  | _ => none

/-- Who has ended the session, if it was ended. -/
def Event.ended? (sessionID : String) : Event → Option Nat
  | .ended handler other => if other = sessionID then some handler else none
  | _ => none

/-- The sessions granted so far, with their paths. -/
def grantedIn (log : List Event) : List (String × Authorization) :=
  log.filterMap Event.granted?

/-- The handlers that have called End for a session. -/
def endedIn (log : List Event) (sessionID : String) : List Nat :=
  log.filterMap (Event.ended? sessionID)

theorem grantedIn_append (l l' : List Event) :
    grantedIn (l ++ l') = grantedIn l ++ grantedIn l' :=
  List.filterMap_append

theorem endedIn_append (l l' : List Event) (sessionID : String) :
    endedIn (l ++ l') sessionID = endedIn l sessionID ++ endedIn l' sessionID :=
  List.filterMap_append

/-- The ids of the granted sessions. -/
def Controller.sessionIDs (s : Controller) : List String :=
  (grantedIn s.log).map fun g => g.2.sessionID

-- =================================== custody

/-- The handler has the session in hand. -/
def Handler.Holds (sessionID : String) (h : Handler) : Prop :=
  h.stage.inHand = some sessionID

instance (sessionID : String) : DecidablePred (Handler.Holds sessionID) :=
  fun _ => inferInstanceAs (Decidable (_ = _))

/-- Every session that was granted is kept, held by one handler, or was ended
by one. -/
structure Controller.Custody (s : Controller) : Prop where
  tokens : ∀ sessionID,
    s.sessions.count (fun e => e.sessionID = sessionID)
        + s.handlers.count (Handler.Holds sessionID)
        + (endedIn s.log sessionID).length
      = s.sessionIDs.count sessionID
  entry : ∀ e ∈ s.sessions, (e.path, e.authorization) ∈ grantedIn s.log
  hand : ∀ h ∈ s.handlers, ∀ sessionID, h.stage.inHand = some sessionID →
    ∃ a, (h.path, a) ∈ grantedIn s.log ∧ a.sessionID = sessionID
  known : ∀ h ∈ s.handlers, ∀ a, h.stage.authorization = some a →
    (h.path, a) ∈ grantedIn s.log
  taker : ∀ h ∈ s.handlers, ∀ sessionID, h.stage.ends = some sessionID →
    .took h.id sessionID ∈ s.log
  took : ∀ id sessionID, .took id sessionID ∈ s.log →
    (∃ h ∈ s.handlers, h.id = id ∧ h.stage.ends = some sessionID)
      ∨ id ∈ endedIn s.log sessionID
  ended : ∀ id sessionID, id ∈ endedIn s.log sessionID →
    .took id sessionID ∈ s.log

/-- The handler is at another stage, or it has returned. -/
structure Replaces (s s' : Controller) (h : Handler)
    (next : Option Stage) : Prop where
  mem : ∀ h' ∈ s'.handlers, (∃ stage, next = some stage
    ∧ h' = { h with stage }) ∨ h' ∈ s.handlers
  stay : ∀ h' ∈ s.handlers, h' ≠ h → h' ∈ s'.handlers
  next_mem : ∀ stage, next = some stage →
    { h with stage } ∈ s'.handlers
  tokens : ∀ sessionID,
    s'.handlers.count (Handler.Holds sessionID)
        + (if h.stage.inHand = some sessionID then 1 else 0)
      = s.handlers.count (Handler.Holds sessionID)
        + (if next.bind Stage.inHand = some sessionID then 1 else 0)

/-- A handler that goes on is replaced by itself in its next stage. -/
theorem replaces_goTo (hh : h ∈ s.handlers)
    (hhandlers : s'.handlers = s.handlers.put { h with stage }) :
    Replaces s s' h (some stage) where
  mem h' hh' := by
    rw [hhandlers] at hh'
    rcases Table.mem_put.mp hh' with rfl | ⟨hh', -⟩
    · exact Or.inl ⟨stage, rfl, rfl⟩
    · exact Or.inr hh'
  stay h' hh' hne := by
    rw [hhandlers]
    exact Table.mem_put.mpr
      (Or.inr ⟨hh', fun he => hne (Table.eq_of_key hh' hh he)⟩)
  next_mem stage' he := by
    cases he
    rw [hhandlers]
    exact Table.mem_put_self
  tokens sessionID := by
    rw [hhandlers]
    exact Table.count_replace (p := Handler.Holds sessionID)
      (b := { h with stage }) hh rfl

theorem replaces_respond (hh : h ∈ s.handlers)
    (hhandlers : s'.handlers = s.handlers.erase h.id) :
    Replaces s s' h none where
  mem h' hh' := by
    rw [hhandlers] at hh'
    exact Or.inr (Table.mem_erase.mp hh').1
  stay h' hh' hne := by
    rw [hhandlers]
    exact Table.mem_erase.mpr
      ⟨hh', fun he => hne (Table.eq_of_key hh' hh he)⟩
  next_mem _ he := by cases he
  tokens sessionID := by
    rw [hhandlers]
    exact Table.count_erase (p := Handler.Holds sessionID) hh

/-- What a turn has to say of the session it moves. -/
structure Moves (s s' : Controller) (h : Handler) (next : Option Stage)
    (events : List Event) : Prop where
  log : s'.log = s.log ++ events
  tokens : ∀ sessionID,
    s'.sessions.count (fun e => e.sessionID = sessionID)
        + (if next.bind Stage.inHand = some sessionID then 1 else 0)
        + (endedIn events sessionID).length
      = s.sessions.count (fun e => e.sessionID = sessionID)
        + (if h.stage.inHand = some sessionID then 1 else 0)
        + ((grantedIn events).map fun g => g.2.sessionID).count sessionID
  entry : ∀ e ∈ s'.sessions,
    (∃ e₀ ∈ s.sessions, e₀.path = e.path
        ∧ e₀.authorization = e.authorization)
      ∨ e.path = h.path ∧ h.stage.authorization = some e.authorization
  hand : ∀ sessionID, next.bind Stage.inHand = some sessionID →
    h.stage.inHand = some sessionID
      ∨ (∃ a, (h.path, a) ∈ grantedIn events ∧ a.sessionID = sessionID)
      ∨ ∃ e ∈ s.sessions, e.path = h.path ∧ e.sessionID = sessionID
  known : ∀ a, next.bind Stage.authorization = some a →
    h.stage.authorization = some a
      ∨ (h.path, a) ∈ grantedIn events
      ∨ ∃ e ∈ s.sessions, e.path = h.path ∧ e.authorization = a
  taker : ∀ sessionID, next.bind Stage.ends = some sessionID →
    h.stage.ends = some sessionID ∨ .took h.id sessionID ∈ events
  took : ∀ id sessionID, .took id sessionID ∈ events →
    id = h.id ∧ next.bind Stage.ends = some sessionID
  stays : ∀ sessionID, h.stage.ends = some sessionID →
    next.bind Stage.ends = some sessionID
      ∨ h.id ∈ endedIn events sessionID
  ended : ∀ id sessionID, id ∈ endedIn events sessionID →
    id = h.id ∧ h.stage.ends = some sessionID

/-- A turn whose tokens go from one holder to the next keeps the custody. -/
theorem Controller.Custody.turn (hs : s.Custody) (hh : h ∈ s.handlers)
    (hnext : Replaces s s' h next) (hmoves : Moves s s' h next events) :
    s'.Custody where
  tokens sessionID := by
    have hbefore := hs.tokens sessionID
    have hhandlers := hnext.tokens sessionID
    have hmoved := hmoves.tokens sessionID
    unfold Controller.sessionIDs at hbefore ⊢
    rw [hmoves.log, grantedIn_append, endedIn_append, List.map_append,
      List.count_append, List.length_append]
    omega
  entry e he := by
    rw [hmoves.log, grantedIn_append]
    rcases hmoves.entry e he with ⟨e₀, he₀, hpath, ha⟩ | ⟨hpath, ha⟩
    · rw [← hpath, ← ha]
      exact List.mem_append_left _ (hs.entry e₀ he₀)
    · rw [hpath]
      exact List.mem_append_left _ (hs.known h hh _ ha)
  hand h' hh' sessionID hhand := by
    rw [hmoves.log, grantedIn_append]
    rcases hnext.mem h' hh' with ⟨stage, hstage, rfl⟩ | hh'
    · subst hstage
      rcases hmoves.hand sessionID hhand with hhand | ⟨a, ha, hid⟩ |
        ⟨e, he, hpath, hid⟩
      · obtain ⟨a, ha, hid⟩ := hs.hand h hh _ hhand
        exact ⟨a, List.mem_append_left _ ha, hid⟩
      · exact ⟨a, List.mem_append_right _ ha, hid⟩
      · exact ⟨e.authorization,
          List.mem_append_left _ (hpath ▸ hs.entry e he), hid⟩
    · obtain ⟨a, ha, hid⟩ := hs.hand h' hh' _ hhand
      exact ⟨a, List.mem_append_left _ ha, hid⟩
  known h' hh' a ha := by
    rw [hmoves.log, grantedIn_append]
    rcases hnext.mem h' hh' with ⟨stage, hstage, rfl⟩ | hh'
    · subst hstage
      rcases hmoves.known a ha with ha | hevent | ⟨e, he, hpath, ha⟩
      · exact List.mem_append_left _ (hs.known h hh a ha)
      · exact List.mem_append_right _ hevent
      · rw [← ha]
        exact List.mem_append_left _ (hpath ▸ hs.entry e he)
    · exact List.mem_append_left _ (hs.known h' hh' a ha)
  taker h' hh' sessionID hends := by
    rw [hmoves.log]
    rcases hnext.mem h' hh' with ⟨stage, hstage, rfl⟩ | hh'
    · subst hstage
      rcases hmoves.taker sessionID hends with hends | hevent
      · exact List.mem_append_left _ (hs.taker h hh _ hends)
      · exact List.mem_append_right _ hevent
    · exact List.mem_append_left _ (hs.taker h' hh' _ hends)
  took id sessionID htook := by
    have hhandler : next.bind Stage.ends = some sessionID →
        ∃ h' ∈ s'.handlers, h'.id = h.id
          ∧ h'.stage.ends = some sessionID := by
      intro hends
      obtain ⟨stage, hstage, hends⟩ := Option.bind_eq_some_iff.mp hends
      exact ⟨{ h with stage }, hnext.next_mem stage hstage, rfl, hends⟩
    rw [hmoves.log] at htook
    rw [hmoves.log, endedIn_append]
    rcases List.mem_append.mp htook with htook | htook
    · rcases hs.took id sessionID htook with ⟨h', hh', rfl, hends⟩ | hended
      · by_cases hsame : h' = h
        · subst hsame
          rcases hmoves.stays sessionID hends with hstays | hevent
          · exact Or.inl (hhandler hstays)
          · exact Or.inr (List.mem_append_right _ hevent)
        · exact Or.inl ⟨h', hnext.stay h' hh' hsame, rfl, hends⟩
      · exact Or.inr (List.mem_append_left _ hended)
    · obtain ⟨rfl, hends⟩ := hmoves.took id sessionID htook
      exact Or.inl (hhandler hends)
  ended id sessionID hended := by
    rw [hmoves.log, endedIn_append] at hended
    rw [hmoves.log]
    rcases List.mem_append.mp hended with hended | hended
    · exact List.mem_append_left _ (hs.ended id sessionID hended)
    · obtain ⟨rfl, hends⟩ := hmoves.ended id sessionID hended
      exact List.mem_append_left _ (hs.taker h hh _ hends)

-- ===================================== moves

/-- Events that move no session. -/
def Event.silent : Event → Bool
  | .authorize _ _ | .heartbeat _ _ | .responded _ _ => true
  | _ => false

theorem grantedIn_silent
    (h : ∀ e ∈ events, e.silent = true) : grantedIn events = [] :=
  List.filterMap_eq_nil_iff.mpr fun e he => by
    have hs := h e he
    cases e with
    | authorize | heartbeat | responded => rfl
    | _ => cases hs

theorem endedIn_silent
    (h : ∀ e ∈ events, e.silent = true) (sessionID : String) :
    endedIn events sessionID = [] :=
  List.filterMap_eq_nil_iff.mpr fun e he => by
    have hs := h e he
    cases e with
    | authorize | heartbeat | responded => rfl
    | _ => cases hs

/-- A turn that leaves every session where it is. -/
theorem moves_none (hlog : s'.log = s.log ++ events)
    (hsilent : ∀ e ∈ events, e.silent = true)
    (hhand : next.bind Stage.inHand = h.stage.inHand)
    (hends : next.bind Stage.ends = h.stage.ends)
    (hknown : ∀ a, next.bind Stage.authorization = some a →
      h.stage.authorization = some a
        ∨ ∃ e ∈ s.sessions, e.path = h.path ∧ e.authorization = a)
    (hsessions : s'.sessions = s.sessions) : Moves s s' h next events where
  log := hlog
  tokens sessionID := by
    rw [hhand, hsessions, grantedIn_silent hsilent,
      endedIn_silent hsilent]
    rfl
  entry e he := by
    rw [hsessions] at he
    exact Or.inl ⟨e, he, rfl, rfl⟩
  hand sessionID h := Or.inl (hhand ▸ h)
  known a ha := (hknown a ha).imp id Or.inr
  taker sessionID h := Or.inl (hends ▸ h)
  took id sessionID h := by cases hsilent _ h
  stays sessionID h := Or.inl (hends.trans h)
  ended id sessionID h := by
    rw [endedIn_silent hsilent] at h
    cases h

theorem endedIn_self (id : Nat) (sessionID : String) :
    endedIn [.ended id sessionID] sessionID = [id] := by
  simp [endedIn, Event.ended?]

theorem endedIn_other {id : Nat} {sessionID other : String}
    (h : sessionID ≠ other) : endedIn [.ended id sessionID] other = [] := by
  simp [endedIn, Event.ended?, h]

/-- The control plane grants a session. -/
theorem moves_granted {a : Authorization}
    (hhand : h.stage.inHand = none) (hends : h.stage.ends = none) :
    Moves s (((s.record (.authorize h.id h.path)).record
        (.granted h.path a)).goTo h (.validate a)) h
      (some (.validate a))
      [.authorize h.id h.path, .granted h.path a] where
  log := by
    show s.log ++ [_] ++ [_] = _
    rw [List.append_assoc]
    rfl
  tokens sessionID := by
    rw [hhand]
    show s.sessions.count (fun e => e.sessionID = sessionID)
        + (if some a.sessionID = some sessionID then 1 else 0) + 0
      = s.sessions.count (fun e => e.sessionID = sessionID) + 0
        + [a.sessionID].count sessionID
    simp [List.count_singleton]
  entry e he := Or.inl ⟨e, he, rfl, rfl⟩
  hand sessionID h := by
    cases h
    exact Or.inr (Or.inl ⟨a, List.mem_singleton.mpr rfl, rfl⟩)
  known a' h := by
    cases h
    exact Or.inr (Or.inl (List.mem_singleton.mpr rfl))
  taker sessionID h := by cases h
  took id sessionID h := by simp at h
  stays sessionID h := by rw [hends] at h; cases h
  ended id sessionID h := by cases h

/-- A handler is to end the session that it has in hand. -/
theorem moves_taken {sessionID : String}
    (hlog : s'.log = s.log ++ [.took h.id sessionID])
    (hhand : h.stage.inHand = some sessionID) (hends : h.stage.ends = none)
    (hnext : stage.inHand = some sessionID)
    (hnextEnds : stage.ends = some sessionID)
    (hknown : stage.authorization = h.stage.authorization)
    (hsessions : s'.sessions = s.sessions) :
    Moves s s' h (some stage) [.took h.id sessionID] where
  log := hlog
  tokens other := by
    have hbind : (some stage).bind Stage.inHand = some sessionID := hnext
    rw [hsessions, hhand, hbind]
    rfl
  entry e he := by
    rw [hsessions] at he
    exact Or.inl ⟨e, he, rfl, rfl⟩
  hand other h := Or.inl (by
    rw [hhand, ← hnext]
    exact h)
  known a h := Or.inl (hknown.symm.trans h)
  taker other h := by
    have he : some sessionID = some other := hnextEnds.symm.trans h
    cases he
    exact Or.inr (List.mem_singleton.mpr rfl)
  took id other h := by
    cases List.mem_singleton.mp h
    exact ⟨rfl, hnextEnds⟩
  stays other h := by rw [hends] at h; cases h
  ended id other h := by cases h

/-- The entry of a path is in the hands of a handler, which is to end
its session. -/
theorem moves_takeOut {e : ActiveSession}
    (he : e ∈ s.sessions) (hpath : e.path = h.path)
    (hlog : s'.log = s.log ++ [.took h.id e.sessionID])
    (hsessions : s'.sessions = s.sessions.erase e.path)
    (hhand : h.stage.inHand = none) (hends : h.stage.ends = none)
    (hnext : stage.inHand = some e.sessionID)
    (hnextEnds : stage.ends = some e.sessionID)
    (hnextKnown : stage.authorization = none) :
    Moves s s' h (some stage) [.took h.id e.sessionID] where
  log := hlog
  tokens other := by
    have hcount := Table.count_erase
      (p := fun e : ActiveSession => e.sessionID = other) he
    have hbind : (some stage).bind Stage.inHand = some e.sessionID := hnext
    rw [hsessions, hhand, hbind, if_congr Option.some_inj rfl rfl]
    exact hcount
  entry e' he' := by
    rw [hsessions] at he'
    exact Or.inl ⟨e', (Table.mem_erase.mp he').1, rfl, rfl⟩
  hand other h := by
    have hid : some e.sessionID = some other := hnext.symm.trans h
    cases hid
    exact Or.inr (Or.inr ⟨e, he, hpath, rfl⟩)
  known a h := by
    have hsome : stage.authorization = some a := h
    rw [hnextKnown] at hsome
    cases hsome
  taker other h := by
    have hid : some e.sessionID = some other := hnextEnds.symm.trans h
    cases hid
    exact Or.inr (List.mem_singleton.mpr rfl)
  took id other h := by
    cases List.mem_singleton.mp h
    exact ⟨rfl, hnextEnds⟩
  stays other h := by rw [hends] at h; cases h
  ended id other h := by cases h

/-- A handler ends the session that it has in hand. -/
theorem moves_ended {sessionID : String}
    (hevents : ∀ e ∈ events, e.silent = true)
    (hlog : s'.log = s.log ++ (.ended h.id sessionID :: events))
    (hends : h.stage.ends = some sessionID)
    (hnext : next.bind Stage.inHand = none)
    (hnextEnds : next.bind Stage.ends = none)
    (hnextKnown : next.bind Stage.authorization = none)
    (hsessions : s'.sessions = s.sessions) :
    Moves s s' h next (.ended h.id sessionID :: events) := by
  have hended : ∀ other, endedIn (.ended h.id sessionID :: events) other
      = endedIn [.ended h.id sessionID] other := by
    intro other
    rw [show Event.ended h.id sessionID :: events
      = [Event.ended h.id sessionID] ++ events from rfl, endedIn_append,
      endedIn_silent hevents, List.append_nil]
  refine ⟨hlog, fun other => ?_, fun e he => ?_, fun other h => ?_,
    fun a h => ?_, fun other h => ?_, fun id other h => ?_,
    fun other h => ?_, fun id other h => ?_⟩
  · have hgranted : grantedIn (.ended h.id sessionID :: events) = [] := by
      rw [show Event.ended h.id sessionID :: events
        = [Event.ended h.id sessionID] ++ events from rfl,
        grantedIn_append, grantedIn_silent hevents]
      rfl
    rw [hended, hgranted, hsessions, hnext, Stage.inHand_of_ends hends]
    by_cases hid : sessionID = other
    · subst hid
      rw [endedIn_self, if_pos rfl, if_neg nofun]
      rfl
    · rw [endedIn_other hid, if_neg nofun,
        if_neg fun h => hid (Option.some.inj h)]
      rfl
  · rw [hsessions] at he
    exact Or.inl ⟨e, he, rfl, rfl⟩
  · rw [hnext] at h
    cases h
  · rw [hnextKnown] at h
    cases h
  · rw [hnextEnds] at h
    cases h
  · rcases List.mem_cons.mp h with h | h
    · cases h
    · cases hevents _ h
  · rw [hends] at h
    cases h
    rw [hended, endedIn_self]
    exact Or.inr (List.mem_singleton.mpr rfl)
  · rw [hended] at h
    by_cases hid : sessionID = other
    · subst hid
      rw [endedIn_self] at h
      exact ⟨List.mem_singleton.mp h, hends⟩
    · rw [endedIn_other hid] at h
      cases h

/-- A session becomes the entry of a path that has none. -/
theorem moves_stored {a : Authorization} (hstage : h.stage = .store a)
    (hvacant : s.sessions.get? h.path = none) :
    Moves s ({ s with
        sessions := s.sessions.put
          { path := h.path, authorization := a } }.goTo h (.unpend 204)) h
      (some (.unpend 204)) [] where
  log := (List.append_nil _).symm
  tokens sessionID := by
    have hcount := Table.count_put_free (t := s.sessions)
      (a := { path := h.path, authorization := a })
      (p := fun e => e.sessionID = sessionID) hvacant
    have hhand : h.stage.inHand = some a.sessionID := by rw [hstage]; rfl
    rw [hhand, if_congr Option.some_inj rfl rfl]
    exact hcount
  entry e he := by
    rcases Table.mem_put.mp he with rfl | ⟨he, -⟩
    · exact Or.inr ⟨rfl, by rw [hstage]; rfl⟩
    · exact Or.inl ⟨e, he, rfl, rfl⟩
  hand sessionID h := by cases h
  known a h := by cases h
  taker sessionID h := by cases h
  took id sessionID h := by cases h
  stays sessionID h := by rw [hstage] at h; cases h
  ended id sessionID h := by cases h

/-- The entry of a path has another context. -/
theorem moves_confirmed {e : ActiveSession} {a : Authorization}
    (hstage : h.stage = .confirm a) (he : e ∈ s.sessions) :
    Moves s ((s.renew e).goTo h (.run s.contexts)) h
      (some (.run s.contexts)) [] where
  log := (List.append_nil _).symm
  tokens sessionID := by
    have hcount := Table.count_replace
      (p := fun e : ActiveSession => e.sessionID = sessionID)
      (b := { e with cancel := some s.contexts }) he rfl
    rw [hstage]
    exact Nat.add_right_cancel hcount
  entry e' he' := by
    rcases Table.mem_put.mp he' with rfl | ⟨he', -⟩
    · exact Or.inl ⟨e, he, rfl, rfl⟩
    · exact Or.inl ⟨e', he', rfl, rfl⟩
  hand sessionID h := by cases h
  known a h := by cases h
  taker sessionID h := by cases h
  took id sessionID h := by cases h
  stays sessionID h := by rw [hstage] at h; cases h
  ended id sessionID h := by cases h

/-- A stage where the handler has no session in hand. -/
theorem moves_idle
    (hhand : h.stage.inHand = none) (hnext : next.bind Stage.inHand = none)
    (hlog : s'.log = s.log ++ events)
    (hsilent : ∀ e ∈ events, e.silent = true)
    (hknown : ∀ a, next.bind Stage.authorization = some a →
      h.stage.authorization = some a
        ∨ ∃ e ∈ s.sessions, e.path = h.path ∧ e.authorization = a)
    (hsessions : s'.sessions = s.sessions) :
    Moves s s' h next events := by
  have hends : h.stage.ends = none := by
    rw [Option.eq_none_iff_forall_not_mem]
    intro sessionID h'
    rw [Stage.inHand_of_ends h'] at hhand
    cases hhand
  have hnextEnds : next.bind Stage.ends = none := by
    cases next with
    | none => rfl
    | some stage =>
        rw [Option.eq_none_iff_forall_not_mem]
        intro sessionID h'
        have hhand' : stage.inHand = some sessionID :=
          Stage.inHand_of_ends h'
        have hnone : stage.inHand = none := hnext
        rw [hhand'] at hnone
        cases hnone
  exact moves_none hlog hsilent (hnext.trans hhand.symm)
    (hnextEnds.trans hends.symm) hknown hsessions

theorem silent_responded (id status : Nat) :
    ∀ e ∈ [Event.responded id status], e.silent = true := by
  intro e he
  rw [List.mem_singleton.mp he]
  rfl

theorem silent_nil : ∀ e ∈ ([] : List Event), e.silent = true :=
  fun _ h => absurd h List.not_mem_nil

/-- A stage that goes by no authorization. -/
theorem goes_by_none (h' : next.bind Stage.authorization = none) :
    ∀ a, next.bind Stage.authorization = some a →
      h.stage.authorization = some a
        ∨ ∃ e ∈ s.sessions, e.path = h.path ∧ e.authorization = a := by
  intro a ha
  rw [h'] at ha
  cases ha

/-- A handler's turn keeps the custody. -/
theorem Turn.custody (hturn : Turn s h reply s') (hh : h ∈ s.handlers)
    (hadmission : s.Admission) (hs : s.Custody) : s'.Custody := by
  cases hturn with
  | granted hstage =>
      exact hs.turn hh (replaces_goTo hh rfl)
        (moves_granted (by rw [hstage]; rfl) (by rw [hstage]; rfl))
  | @denied publisherID status hstage =>
      have hsilent : ∀ e ∈ [Event.authorize h.id h.path],
          e.silent = true := by
        intro e he
        rw [List.mem_singleton.mp he]
        rfl
      exact hs.turn hh (replaces_goTo hh rfl)
        (moves_idle (by rw [hstage]; rfl) rfl rfl hsilent (goes_by_none rfl)
          rfl)
  | validated hstage =>
      exact hs.turn hh (replaces_goTo hh rfl)
        (moves_none (List.append_nil _).symm silent_nil
          (by rw [hstage]; rfl) (by rw [hstage]; rfl)
          (fun a ha => Or.inl (by rw [hstage]; exact ha)) rfl)
  | invalid hstage =>
      exact hs.turn hh (replaces_goTo hh rfl)
        (moves_taken rfl (by rw [hstage]; rfl) (by rw [hstage]; rfl) rfl
          rfl (by rw [hstage]; rfl) rfl)
  | rejected hstage =>
      exact hs.turn hh (replaces_goTo hh rfl)
        (moves_ended silent_nil rfl (by rw [hstage]; rfl) rfl rfl rfl rfl)
  | stored hstage =>
      exact hs.turn hh (replaces_goTo hh rfl) (moves_stored hstage
        (hadmission.vacant h hh (by rw [hstage]; rfl)))
  | confirmed hstage he =>
      exact hs.turn hh (replaces_goTo hh rfl)
        (moves_confirmed hstage (Table.mem_of_get? he))
  | abandoned hstage he | removed hstage he =>
      exact hs.turn hh (replaces_goTo hh rfl)
        (moves_takeOut (Table.mem_of_get? he) (Table.key_of_get? he) rfl
          rfl (by rw [hstage]; rfl) (by rw [hstage]; rfl) rfl rfl rfl)
  | deleted hstage =>
      obtain ⟨media, he⟩ := deleteMedia_eq s h.path reply
      rw [he]
      exact hs.turn hh (replaces_goTo hh rfl)
        (moves_none (List.append_nil _).symm silent_nil
          (by rw [hstage]; rfl) (by rw [hstage]; rfl) (goes_by_none rfl) rfl)
  | @closed sessionID status hstage =>
      refine hs.turn hh (replaces_respond hh rfl)
        (moves_ended (silent_responded h.id status) ?_
          (by rw [hstage]; rfl) rfl rfl rfl rfl)
      show s.log ++ [_] ++ [_] = _
      rw [List.append_assoc]
      rfl
  | cleaned hstage =>
      obtain ⟨media, he⟩ := deleteMedia_eq s h.path reply
      rw [he]
      exact hs.turn hh (replaces_respond hh rfl)
        (moves_idle (by rw [hstage]; rfl) rfl rfl (silent_responded _ _)
          (goes_by_none rfl) rfl)
  | @found e hstage he =>
      refine hs.turn hh (replaces_goTo hh rfl)
        (moves_idle (by rw [hstage]; rfl) rfl (List.append_nil _).symm
          silent_nil (fun a ha => ?_) rfl)
      cases ha
      exact Or.inr ⟨e, Table.mem_of_get? he, Table.key_of_get? he, rfl⟩
  | configured hstage =>
      exact hs.turn hh (replaces_goTo hh rfl)
        (moves_idle (by rw [hstage]; rfl) rfl (List.append_nil _).symm
          silent_nil (fun a ha => Or.inl (by rw [hstage]; exact ha)) rfl)
  | admitted hstage | unconfigured hstage | gone hstage =>
      exact hs.turn hh (replaces_goTo hh rfl)
        (moves_idle (by rw [hstage]; rfl) rfl (List.append_nil _).symm
          silent_nil (goes_by_none rfl) rfl)
  | busy hstage | unpended hstage | unknown hstage | replaced hstage
  | running hstage | left hstage | nothing hstage =>
      exact hs.turn hh (replaces_respond hh rfl)
        (moves_idle (by rw [hstage]; rfl) rfl rfl (silent_responded _ _)
          (goes_by_none rfl) rfl)

/-- What is only reported. -/
theorem Controller.Custody.silent (hs : s.Custody)
    (hsilent : ∀ e ∈ events, e.silent = true)
    (hlog : s'.log = s.log ++ events) (hsessions : s'.sessions = s.sessions)
    (hhandlers : s'.handlers = s.handlers) : s'.Custody := by
  have hgranted : grantedIn s'.log = grantedIn s.log := by
    rw [hlog, grantedIn_append, grantedIn_silent hsilent, List.append_nil]
  have hended : ∀ sessionID,
      endedIn s'.log sessionID = endedIn s.log sessionID := by
    intro sessionID
    rw [hlog, endedIn_append, endedIn_silent hsilent, List.append_nil]
  have htook : ∀ id sessionID,
      Event.took id sessionID ∈ s'.log ↔ .took id sessionID ∈ s.log := by
    intro id sessionID
    rw [hlog, List.mem_append]
    exact or_iff_left fun h => by cases hsilent _ h
  refine ⟨?_, ?_, ?_, ?_, ?_, ?_, ?_⟩
  · unfold Controller.sessionIDs
    simp only [hgranted, hended, hsessions, hhandlers]
    exact hs.tokens
  · rw [hgranted, hsessions]
    exact hs.entry
  · rw [hgranted, hhandlers]
    exact hs.hand
  · rw [hgranted, hhandlers]
    exact hs.known
  · simp only [htook, hhandlers]
    exact hs.taker
  · simp only [htook, hended, hhandlers]
    exact hs.took
  · simp only [htook, hended]
    exact hs.ended

/-- A handler that begins has nothing in hand. -/
theorem Controller.Custody.accepted (hs : s.Custody) {path : String}
    (hfree : s.handlers.get? s.requests = none)
    (hempty : stage.inHand = none) (hunknown : stage.authorization = none) :
    (s.accept path stage).Custody where
  tokens sessionID := by
    have hcount := Table.count_put_free (t := s.handlers)
      (a := { id := s.requests, path, stage })
      (p := Handler.Holds sessionID) hfree
    have hnot :
        ¬ Handler.Holds sessionID { id := s.requests, path, stage } := by
      intro h
      have hhand : stage.inHand = some sessionID := h
      rw [hempty] at hhand
      cases hhand
    rw [if_neg hnot, Nat.add_zero] at hcount
    have htokens := hs.tokens sessionID
    rw [← hcount] at htokens
    exact htokens
  entry := hs.entry
  hand h hh sessionID hhand := by
    rcases Table.mem_put.mp hh with rfl | ⟨hh, -⟩
    · rw [show stage.inHand = none from hempty] at hhand
      cases hhand
    · exact hs.hand h hh sessionID hhand
  known h hh a ha := by
    rcases Table.mem_put.mp hh with rfl | ⟨hh, -⟩
    · rw [show stage.authorization = none from hunknown] at ha
      cases ha
    · exact hs.known h hh a ha
  taker h hh sessionID hends := by
    rcases Table.mem_put.mp hh with rfl | ⟨hh, -⟩
    · have hhand : stage.inHand = some sessionID :=
        Stage.inHand_of_ends hends
      rw [hempty] at hhand
      cases hhand
    · exact hs.taker h hh sessionID hends
  took id sessionID htook := by
    rcases hs.took id sessionID htook with ⟨h, hh, hid, hends⟩ | hended
    · refine Or.inl ⟨h, Table.mem_put.mpr (Or.inr ⟨hh, ?_⟩), hid, hends⟩
      exact Table.get?_eq_none.mp hfree h hh
    · exact Or.inr hended
  ended := hs.ended

/-- Every step keeps the custody. -/
theorem Step.custody (hstep : Step s action s') (hadmission : s.Admission)
    (hs : s.Custody) : s'.Custody := by
  cases hstep with
  | @refused _ status =>
      exact hs.silent (silent_responded s.requests status) rfl rfl rfl
  | accepted hfirst =>
      refine hs.accepted ?_ (Stage.first_empty hfirst)
        (Stage.first_unknown hfirst)
      exact Table.get?_eq_none.mpr fun h hh =>
        Nat.ne_of_lt (hadmission.fresh h hh)
  | turn hh hturn =>
      exact hturn.custody (Table.mem_of_get? hh) hadmission hs
  | heartbeats hevents =>
      refine hs.silent (fun e he => ?_) rfl rfl rfl
      obtain ⟨sessionID, states, rfl⟩ := hevents e he
      rfl

end StreamBrew.Restream
