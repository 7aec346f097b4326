/-
The life of a session in the controller: what `Admission` and `Custody`
come to when the granted ids are distinct, and the heartbeat loops.

A loop that is not cancelled runs under the context that the entry of
its path would cancel (`Attached`). A turn that takes the entry out, or
gives it another context, cancels that one.
-/
import StreamBrew.Restream.Proofs.Custody

namespace StreamBrew.Restream

open Relational

variable {s s' : Controller} {h : Handler} {reply : Reply}
  {action : Action}

-- ===================================== loops

/-- A loop that was not cancelled belongs to a session of the map. -/
def Controller.Attached (s : Controller) : Prop :=
  ∀ l ∈ s.loops, l.cancelled = false →
    ∃ e ∈ s.sessions, e.path = l.path ∧ e.authorization = l.authorization
      ∧ e.cancel = some l.id

/-- What is left of the loops when one context is cancelled. -/
theorem of_cancelled {cancel : Option Nat} {l : HeartbeatLoop}
    (hl : l ∈ s.cancelled cancel) (hlive : l.cancelled = false) :
    l ∈ s.loops ∧ cancel ≠ some l.id := by
  obtain ⟨l₀, hl₀, he⟩ := Table.mem_update.mp hl
  split at he
  case isTrue =>
    rw [← he] at hlive
    cases hlive
  case isFalse hother =>
    rw [← he]
    exact ⟨hl₀, hother⟩

/-- Without an entry and its loop, the others are attached. -/
theorem Controller.Attached.others (hs : s.Attached) {e : ActiveSession}
    (he : e ∈ s.sessions) {l : HeartbeatLoop}
    (hl : l ∈ s.cancelled e.cancel) (hlive : l.cancelled = false) :
    ∃ e' ∈ s.sessions, e'.path ≠ e.path ∧ e'.path = l.path
      ∧ e'.authorization = l.authorization ∧ e'.cancel = some l.id := by
  obtain ⟨hl, hother⟩ := of_cancelled hl hlive
  obtain ⟨e', he', hpath, ha, hcancel⟩ := hs l hl hlive
  refine ⟨e', he', fun hsame => ?_, hpath, ha, hcancel⟩
  rw [Table.eq_of_key he' he hsame] at hcancel
  exact hother hcancel

theorem Controller.Attached.takeOut (hs : s.Attached) {e : ActiveSession}
    (he : e ∈ s.sessions) : (s.takeOut e).Attached := by
  intro l hl hlive
  obtain ⟨e', he', hne, hpath, ha, hcancel⟩ := hs.others he hl hlive
  exact ⟨e', Table.mem_erase.mpr ⟨he', hne⟩, hpath, ha, hcancel⟩

theorem Controller.Attached.renew (hs : s.Attached) {e : ActiveSession}
    (he : e ∈ s.sessions) : (s.renew e).Attached := by
  intro l hl hlive
  rcases Table.mem_put.mp hl with rfl | ⟨hl, -⟩
  · exact ⟨{ e with cancel := some s.contexts }, Table.mem_put_self, rfl,
      rfl, rfl⟩
  · obtain ⟨e', he', hne, hpath, ha, hcancel⟩ := hs.others he hl hlive
    exact ⟨e', Table.mem_put.mpr (Or.inr ⟨he', hne⟩), hpath, ha, hcancel⟩

theorem Controller.Attached.stored (hs : s.Attached) {e : ActiveSession}
    (hvacant : s.sessions.get? e.path = none) :
    Controller.Attached { s with sessions := s.sessions.put e } := by
  intro l hl hlive
  obtain ⟨e', he', hrest⟩ := hs l hl hlive
  exact ⟨e', Table.mem_put.mpr
    (Or.inr ⟨he', Table.get?_eq_none.mp hvacant e' he'⟩), hrest⟩

/-- A handler's turn leaves the loops attached. -/
theorem Turn.attached (hturn : Turn s h reply s') (hh : h ∈ s.handlers)
    (hadmission : s.Admission) (hs : s.Attached) : s'.Attached := by
  cases hturn with
  | stored hstage =>
      exact hs.stored (hadmission.vacant h hh (by rw [hstage]; rfl))
  | confirmed hstage he => exact hs.renew (Table.mem_of_get? he)
  | abandoned hstage he | removed hstage he =>
      exact hs.takeOut (Table.mem_of_get? he)
  | @running loop hstage =>
      intro l hl hlive
      obtain ⟨l₀, hl₀, he⟩ := Table.mem_update.mp (show l ∈ s.loops.update
        (fun l => l.id = loop) (fun l => { l with started := true })
        (Table.keeps rfl) from hl)
      split at he
      case isTrue =>
        rw [← he] at hlive ⊢
        exact hs l₀ hl₀ hlive
      case isFalse =>
        rw [← he] at hlive ⊢
        exact hs l₀ hl₀ hlive
  | deleted hstage =>
      obtain ⟨media, he⟩ := deleteMedia_eq s h.path reply
      rw [he]
      exact hs
  | cleaned hstage =>
      obtain ⟨media, he⟩ := deleteMedia_eq s h.path reply
      rw [he]
      exact hs
  | _ => exact hs

theorem Step.attached (hstep : Step s action s') (hadmission : s.Admission)
    (hs : s.Attached) : s'.Attached := by
  cases hstep with
  | turn hh hturn =>
      exact hturn.attached (Table.mem_of_get? hh) hadmission hs
  | heartbeats hevents hloops => exact fun l hl => hs l (hloops l hl)
  | refused | accepted => exact hs

-- ====================================== runs

/-- The invariants of the controller together. -/
structure Controller.Inv (s : Controller) : Prop where
  admission : s.Admission
  custody : s.Custody
  attached : s.Attached

theorem Controller.Inv.step (hs : s.Inv) (action : Action) :
    (s.step action).Inv :=
  have hstep := step_cases s action
  ⟨hstep.admission hs.admission, hstep.custody hs.admission hs.custody,
    hstep.attached hs.admission hs.attached⟩

theorem inv_start : Controller.Inv {} where
  admission := ⟨fun _ h => absurd h Table.not_mem_empty, fun _ => rfl,
    fun _ h => absurd h Table.not_mem_empty⟩
  custody := ⟨fun _ => rfl, fun _ h => absurd h Table.not_mem_empty,
    fun _ h => absurd h Table.not_mem_empty,
    fun _ h => absurd h Table.not_mem_empty,
    fun _ h => absurd h Table.not_mem_empty,
    fun _ _ h => absurd h List.not_mem_nil,
    fun _ _ h => absurd h List.not_mem_nil⟩
  attached := fun _ h => absurd h Table.not_mem_empty

theorem inv_after (actions : List Action) : (Controller.after actions).Inv :=
  Run.run_preserves inv_start (fun _ action h => h.step action) actions

-- ===================================== calls

/-- The calls of Authorize that a step makes are made by a handler whose
path is pending for it and has no entry. -/
theorem Turn.calls (hturn : Turn s h reply s') :
    ∃ events, s'.log = s.log ++ events
      ∧ ∀ id path, .authorize id path ∈ events →
        id = h.id ∧ path = h.path ∧ h.stage.unstored = true := by
  have hresponse : ∀ status id path,
      Event.authorize id path ∈ [Event.responded h.id status] →
        id = h.id ∧ path = h.path ∧ h.stage.unstored = true := by
    intro status id path hmem
    cases List.mem_singleton.mp hmem
  have hnone : s.log = s.log ++ [] := (List.append_nil _).symm
  cases hturn with
  | granted hstage =>
      refine ⟨[_, _], List.append_assoc _ _ _, fun id path hmem => ?_⟩
      rcases List.mem_cons.mp hmem with hmem | hmem
      · cases hmem
        exact ⟨rfl, rfl, by rw [hstage]; rfl⟩
      · cases List.mem_singleton.mp hmem
  | denied hstage =>
      refine ⟨[_], rfl, fun id path hmem => ?_⟩
      cases List.mem_singleton.mp hmem
      exact ⟨rfl, rfl, by rw [hstage]; rfl⟩
  | invalid | rejected | abandoned | removed =>
      refine ⟨[_], rfl, fun id path hmem => ?_⟩
      cases List.mem_singleton.mp hmem
  | closed =>
      refine ⟨[_, _], List.append_assoc _ _ _, fun id path hmem => ?_⟩
      rcases List.mem_cons.mp hmem with hmem | hmem
      · cases hmem
      · cases List.mem_singleton.mp hmem
  | deleted =>
      obtain ⟨media, he⟩ := deleteMedia_eq s h.path reply
      rw [he]
      exact ⟨[], hnone, fun _ _ hmem => absurd hmem List.not_mem_nil⟩
  | cleaned =>
      obtain ⟨media, he⟩ := deleteMedia_eq s h.path reply
      rw [he]
      exact ⟨[_], rfl, hresponse 204⟩
  | admitted | validated | stored | found | configured | unconfigured
  | gone | confirmed =>
      exact ⟨[], hnone, fun _ _ hmem => absurd hmem List.not_mem_nil⟩
  | busy | unpended | unknown | replaced | running | left | nothing =>
      exact ⟨[_], rfl, hresponse _⟩

/-- An authorize call is made for a handler that has stored nothing yet. -/
theorem Step.calls (hstep : Step s action s') {id : Nat} {path : String}
    (hmem : .authorize id path ∈ s'.log.drop s.log.length) :
    ∃ h ∈ s.handlers, h.id = id ∧ h.path = path
      ∧ h.stage.unstored = true := by
  cases hstep with
  | refused =>
      rw [show (s.refuse _).log = s.log ++ [_] from rfl,
        List.drop_left] at hmem
      cases List.mem_singleton.mp hmem
  | accepted =>
      rw [show (s.accept _ _).log = s.log from rfl, List.drop_length] at hmem
      cases hmem
  | @turn h reply s' hh hturn =>
      obtain ⟨events, hlog, hcalls⟩ := hturn.calls
      rw [hlog, List.drop_left] at hmem
      obtain ⟨rfl, rfl, hstage⟩ := hcalls id path hmem
      exact ⟨h, Table.mem_of_get? hh, rfl, rfl, hstage⟩
  | heartbeats hevents =>
      rw [List.drop_left] at hmem
      obtain ⟨sessionID, states, he⟩ := hevents _ hmem
      cases he

-- =================================== entries

/-- No turn puts another session in the place of one. -/
theorem Turn.entry_kept (hturn : Turn s h reply s') (hh : h ∈ s.handlers)
    (hs : s.Admission) {path : String} {e e' : ActiveSession}
    (he : s.sessions.get? path = some e)
    (he' : s'.sessions.get? path = some e') :
    e'.sessionID = e.sessionID := by
  have hsame : s'.sessions = s.sessions → e'.sessionID = e.sessionID := by
    intro hsessions
    rw [hsessions, he] at he'
    cases he'
    rfl
  have htakeOut : ∀ e₀ : ActiveSession,
      s'.sessions = s.sessions.erase e₀.path →
        e'.sessionID = e.sessionID := by
    intro e₀ hsessions
    rw [hsessions, Table.get?_erase] at he'
    split at he'
    case isTrue => cases he'
    case isFalse => rw [he] at he'; cases he'; rfl
  cases hturn with
  | stored hstage =>
      have hvacant := hs.vacant h hh (by rw [hstage]; rfl)
      rw [show (Controller.goTo _ h _).sessions = s.sessions.put _ from rfl,
        Table.get?_put] at he'
      split at he'
      case isTrue hpath =>
        have hnone : s.sessions.get? path = none := hpath ▸ hvacant
        rw [hnone] at he
        cases he
      case isFalse => rw [he] at he'; cases he'; rfl
  | @confirmed a e₀ hstage he₀ =>
      rw [show (Controller.goTo _ h _).sessions = s.sessions.put _ from rfl,
        Table.get?_put] at he'
      split at he'
      case isTrue hpath =>
        cases he'
        have hkey : e₀.path = path := hpath.symm
        rw [← hkey, Table.get?_key (Table.mem_of_get? he₀)] at he
        cases he
        rfl
      case isFalse => rw [he] at he'; cases he'; rfl
  | @abandoned e₀ => exact htakeOut e₀ rfl
  | @removed e₀ => exact htakeOut e₀ rfl
  | deleted =>
      obtain ⟨media, hmedia⟩ := deleteMedia_eq s h.path reply
      exact hsame (by rw [hmedia]; rfl)
  | cleaned =>
      obtain ⟨media, hmedia⟩ := deleteMedia_eq s h.path reply
      exact hsame (by rw [hmedia]; rfl)
  | _ => exact hsame rfl

theorem Step.entry_kept (hstep : Step s action s') (hs : s.Admission)
    {path : String} {e e' : ActiveSession}
    (he : s.sessions.get? path = some e)
    (he' : s'.sessions.get? path = some e') :
    e'.sessionID = e.sessionID := by
  cases hstep with
  | turn hh hturn =>
      exact hturn.entry_kept (Table.mem_of_get? hh) hs he he'
  | refused | accepted | heartbeats =>
      rw [show s.sessions.get? path = some e' from he'] at he
      cases he
      rfl

-- ====================================== fate

/-- Where a granted session is. -/
inductive Fate (s : Controller) (path sessionID : String) : Prop
  | current {e : ActiveSession} (he : s.sessions.get? path = some e)
      (hid : e.sessionID = sessionID) (hended : endedIn s.log sessionID = [])
      (hfree : ∀ h ∈ s.handlers, h.stage.inHand ≠ some sessionID)
  | held {h : Handler} (hh : h ∈ s.handlers) (hpath : h.path = path)
      (hpends : h.stage.pends = true)
      (hhand : h.stage.inHand = some sessionID)
      (hended : endedIn s.log sessionID = [])
  | taken {id : Nat} (htook : .took id sessionID ∈ s.log)

/-- A handler has a session in hand that is to be ended, or it is
between authorize's critical sections. -/
theorem Stage.ends_or_pends {stage : Stage} {sessionID : String}
    (h : stage.inHand = some sessionID) :
    stage.ends = some sessionID ∨ stage.pends = true := by
  cases stage with
  | validate | store => exact Or.inr rfl
  | reject | delete | close => exact Or.inl h
  | _ => cases h

/-- A session id stands for one grant. -/
theorem granted_eq (hdistinct : s.sessionIDs.Nodup)
    {path path' : String} {a a' : Authorization}
    (h : (path, a) ∈ grantedIn s.log) (h' : (path', a') ∈ grantedIn s.log)
    (hid : a.sessionID = a'.sessionID) : path = path' ∧ a = a' :=
  Prod.mk.inj (List.inj_on_of_nodup_map hdistinct h h' hid)

/-- The fate of every session that was granted. -/
theorem Controller.Custody.fate (hs : s.Custody)
    (hdistinct : s.sessionIDs.Nodup) {path : String} {a : Authorization}
    (hgranted : (path, a) ∈ grantedIn s.log) :
    Fate s path a.sessionID := by
  obtain ⟨sessionID, hsession⟩ : ∃ id, id = a.sessionID := ⟨_, rfl⟩
  rw [← hsession]
  have htokens := hs.tokens sessionID
  have hone : s.sessionIDs.count sessionID = 1 :=
    List.count_eq_one_of_mem hdistinct
      (List.mem_map.mpr ⟨_, hgranted, hsession.symm⟩)
  rw [hone] at htokens
  rcases Nat.eq_zero_or_pos (endedIn s.log sessionID).length with
    hended | hended
  · have hended : endedIn s.log sessionID = [] :=
      List.eq_nil_of_length_eq_zero hended
    rw [hended, List.length_nil] at htokens
    rcases Nat.eq_zero_or_pos
        (s.handlers.count (Handler.Holds sessionID)) with hhand | hhand
    · have hentry : 0 < s.sessions.count
          (fun e => e.sessionID = sessionID) := by omega
      obtain ⟨e, he, hid⟩ := Table.exists_of_count_pos hentry
      have hpath : e.path = path :=
        (granted_eq hdistinct (hs.entry e he) hgranted
          (hid.trans hsession)).1
      exact Fate.current (hpath ▸ Table.get?_key he) hid hended
        (Table.count_eq_zero.mp hhand)
    · obtain ⟨h, hh, hholds⟩ := Table.exists_of_count_pos hhand
      rcases Stage.ends_or_pends hholds with hends | hpends
      · exact Fate.taken (hs.taker h hh sessionID hends)
      · obtain ⟨a', ha', hid⟩ := hs.hand h hh sessionID hholds
        have hpath : h.path = path :=
          (granted_eq hdistinct ha' hgranted (hid.trans hsession)).1
        exact Fate.held hh hpath hpends hholds hended
  · obtain ⟨id, hid⟩ := List.exists_mem_of_length_pos hended
    exact Fate.taken (hs.ended id sessionID hid)

/-- A session that a handler has taken out is ended by it, once, and
before it returns. -/
theorem Controller.Custody.taken (hs : s.Custody)
    (hdistinct : s.sessionIDs.Nodup) {id : Nat} {sessionID : String}
    (htook : .took id sessionID ∈ s.log) :
    (∃ h ∈ s.handlers, h.id = id ∧ h.stage.ends = some sessionID
        ∧ endedIn s.log sessionID = [])
      ∨ endedIn s.log sessionID = [id] := by
  have htokens := hs.tokens sessionID
  have hone : s.sessionIDs.count sessionID ≤ 1 :=
    List.nodup_iff_count_le_one.mp hdistinct sessionID
  rcases hs.took id sessionID htook with ⟨h, hh, hid, hends⟩ | hended
  · have hhand : 0 < s.handlers.count (Handler.Holds sessionID) :=
      Table.count_pos hh (Stage.inHand_of_ends hends)
    refine Or.inl ⟨h, hh, hid, hends, ?_⟩
    exact List.eq_nil_of_length_eq_zero (by omega)
  · have hlength : (endedIn s.log sessionID).length = 1 := by
      have hpos := List.length_pos_of_mem hended
      omega
    obtain ⟨id', he⟩ := List.length_eq_one_iff.mp hlength
    rw [he] at hended
    rw [he, List.mem_singleton.mp hended]
    exact Or.inr rfl

-- ==================================== result

/-- In every run of the controller in which the control plane grants
distinct sessions: Authorize is called for a path only while it has no
session and is pending for nobody else; every granted session is the
current one of its path, in the hands of an authorize handler, or taken
out by a handler that ends it once before it returns; no entry is ever
replaced by another session; and a path has one loop at most that is not
cancelled, which is that of its entry. -/
theorem session_lifecycle (actions : List Action)
    (hdistinct : (Controller.after actions).sessionIDs.Nodup) :
    (∀ action id path, .authorize id path
        ∈ ((Controller.after actions).step action).log.drop
          (Controller.after actions).log.length →
      (Controller.after actions).sessions.get? path = none
        ∧ ∀ h ∈ (Controller.after actions).handlers,
          h.stage.pends = true → h.path = path → h.id = id)
      ∧ (∀ path a, (path, a) ∈ grantedIn (Controller.after actions).log →
        Fate (Controller.after actions) path a.sessionID)
      ∧ (∀ id sessionID,
        .took id sessionID ∈ (Controller.after actions).log →
          (∃ h ∈ (Controller.after actions).handlers, h.id = id
            ∧ h.stage.ends = some sessionID
            ∧ endedIn (Controller.after actions).log sessionID = [])
          ∨ endedIn (Controller.after actions).log sessionID = [id])
      ∧ (∀ action path e e',
        (Controller.after actions).sessions.get? path = some e →
        ((Controller.after actions).step action).sessions.get? path
          = some e' → e'.sessionID = e.sessionID)
      ∧ ∀ l ∈ (Controller.after actions).loops, l.cancelled = false →
        (∃ e, (Controller.after actions).sessions.get? l.path = some e
          ∧ e.authorization = l.authorization)
        ∧ ∀ l' ∈ (Controller.after actions).loops,
          l'.cancelled = false → l'.path = l.path → l' = l := by
  have hs := inv_after actions
  refine ⟨fun action id path hmem => ?_, fun path a => ?_,
    fun id sessionID => ?_, fun action path e e' => ?_,
    fun l hl hlive => ?_⟩
  · obtain ⟨h, hh, rfl, rfl, hstage⟩ :=
      (step_cases (Controller.after actions) action).calls hmem
    refine ⟨hs.admission.vacant h hh hstage, fun h' hh' hpends hpath => ?_⟩
    rw [hs.admission.unique hh hh' (Stage.pends_of_unstored hstage) hpends
      hpath]
  · exact hs.custody.fate hdistinct
  · exact hs.custody.taken hdistinct
  · exact (step_cases (Controller.after actions) action).entry_kept
      hs.admission
  · obtain ⟨e, he, hpath, ha, hcancel⟩ := hs.attached l hl hlive
    refine ⟨⟨e, hpath ▸ Table.get?_key he, ha⟩, fun l' hl' hlive' hsame => ?_⟩
    obtain ⟨e', he', hpath', -, hcancel'⟩ := hs.attached l' hl' hlive'
    have hentry : e' = e := Table.eq_of_key he' he
      (hpath'.trans (hsame.trans hpath.symm))
    rw [hentry, hcancel] at hcancel'
    exact (Table.eq_of_key hl hl' (Option.some.inj hcancel')).symm

/-- The path of an ingest key. -/
def ingestExample : String :=
  "sb_aaaaaaaaaaaaaaaaaaaaaaaaaaaaaaaaaaaaaaaaaaa"

/-- A publisher asks, and is granted a session with one destination. -/
def admission (id : Nat) (sessionID targetURL : String) : List Action :=
  [.authorize ⟨"publish", "rtmp", "publisher", ingestExample⟩,
   .proceed id .ok,
   .proceed id (.granted ⟨sessionID, [⟨"destination", targetURL⟩]⟩),
   .proceed id .ok, .proceed id .ok, .proceed id .ok]

/-- A session that goes online, and ends. -/
def publication : List Action :=
  admission 0 "first" "rtmp://one.example/app#key"
    ++ [.online ingestExample, .proceed 1 .ok, .proceed 1 .ok,
      .proceed 1 .ok, .proceed 1 .ok,
      .offline ingestExample, .proceed 2 .ok, .proceed 2 .ok,
      .proceed 2 .ok]

/-- A session that is published and ends: ended once, by the request that
removed it. -/
theorem session_lifecycle_publication :
    (Controller.after publication).sessionIDs.Nodup
      ∧ endedIn (Controller.after publication).log "first" = [2] := by
  refine ⟨by decide, ?_⟩
  have hended := (session_lifecycle publication (by decide)).2.2.1 2
    "first" (by decide)
  have hdone : (Controller.after publication).handlers.rows = [] := by
    decide
  refine hended.resolve_left fun h => ?_
  obtain ⟨h, hh, -⟩ := h
  rw [Table.mem_def, hdone] at hh
  cases hh

end StreamBrew.Restream
