/-
The forward list of the media server, and the session it belongs to.

Configure and Delete are called outside the mutex, so a handler whose
session is over may still make its call: a late Configure puts the
destinations of an old session under a live one, and a late Delete
takes those of the live one away. The check after Configure cleans up
when no session is left, and does nothing when there is another one
(`Turn.replaced`).

A call is out of turn (`overwrites`) where the current session of the
path has been configured, the call is neither a Configure of that
session nor one with the same destinations, and no handler in flight is
still to configure the session or to end it. Without such a call a
session that has been configured has its own list, or a handler in
flight that mends it (`Linked`). After such a call nothing mends the
list until the next hook of the path (`Overwritten`).

A handler goes by a session that was stored before, so no session that
is yet to be stored has a handler of online (`Referred`).
-/
import StreamBrew.Restream.Proofs.Lifecycle

namespace StreamBrew.Restream

open Relational

variable {e : ActiveSession} {next : Option Stage} {stage : Stage}
  {a : Authorization}

variable {s s' : Controller} {h : Handler} {reply : Reply}
  {action : Action} {path : String}

-- ================================== forwards

/-- Where the session is forwarded to. -/
def Authorization.targets (a : Authorization) : List String :=
  a.destinations.map Destination.targetURL

/-- The forward list of a path, where it is configured. -/
def Controller.forward (s : Controller) (path : String) :
    Option (List String) :=
  (s.media.get? path).map MediaPath.forward

/-- A session that has completed online is forwarded to its own
destinations, and a path without a session to none. -/
structure Controller.Forwards (s : Controller) (path : String) : Prop where
  current : ∀ e, s.sessions.get? path = some e → e.cancel.isSome →
    s.forward path = some e.authorization.targets
  removed : s.sessions.get? path = none → s.forward path = none

instance (s : Controller) (path : String) : Decidable (s.Forwards path) :=
  match hget : s.sessions.get? path with
  | none => decidable_of_iff (s.forward path = none)
      ⟨fun h => ⟨fun _ he => absurd (hget.symm.trans he) nofun, fun _ => h⟩,
        fun h => h.removed hget⟩
  | some e => decidable_of_iff (e.cancel.isSome →
        s.forward path = some e.authorization.targets)
      ⟨fun h => ⟨fun _ he => Option.some.inj (hget.symm.trans he) ▸ h,
          fun hnone => absurd (hget.symm.trans hnone) nofun⟩,
        fun h => h.current e hget⟩

/-- What a call to the media server makes of the forward list. -/
def Stage.forwardCall : Stage → Option (Option (List String))
  | .configure a => some (some a.targets)
  | .clean | .delete _ _ => some none
  | _ => none

/-- Configure and Delete succeed. -/
def mediaAnswers (s : Controller) : Action → Bool
  | .proceed id reply => (s.handlers.get? id).all fun h =>
      h.stage.forwardCall.isNone || reply = .ok
  | _ => true

/-- The handler has configured this session. -/
def Stage.confirms (sessionID : String) : Stage → Bool
  | .confirm a => a.sessionID = sessionID
  | _ => false

/-- Configure has been called for the session: its online has completed,
or is about to look whether the session is still there. -/
def Controller.configured (s : Controller) (e : ActiveSession) : Bool :=
  e.cancel.isSome || s.handlers.rows.any fun h =>
    h.path = e.path && h.stage.confirms e.sessionID

/-- The handler is to configure a session: this one, or one with the
same destinations. -/
def Stage.configures (e : ActiveSession) : Stage → Bool
  | .configure a =>
      a.sessionID = e.sessionID || a.targets = e.authorization.targets
  | _ => false

/-- The handler is to configure the session, or to end it. -/
def Stage.mends (e : ActiveSession) : Stage → Bool
  | .find | .remove => true
  | .abandon sessionID => sessionID = e.sessionID
  | stage => stage.configures e

/-- A handler of the path is to configure the session, or to end it. -/
def Controller.mending (s : Controller) (e : ActiveSession) : Bool :=
  s.handlers.rows.any fun h => h.path = e.path && h.stage.mends e

/-- The step is a Configure or Delete for the path that does not belong
to the current session: that has been configured, and nobody in flight
is to configure it again or to end it. -/
def overwrites (path : String) (s : Controller) : Action → Bool
  | .proceed id _ =>
      (s.handlers.get? id).any fun h =>
        h.path = path && h.stage.forwardCall.isSome
          && (s.sessions.get? path).any fun e =>
            s.configured e && !h.stage.configures e && !s.mending e
  | _ => false

/-- An online or offline hook of the path. -/
def hooks (path : String) : Action → Bool
  | .online path' | .offline path' => path' = path
  | _ => false

theorem Stage.confirms_iff {sessionID : String} :
    stage.confirms sessionID = true
      ↔ ∃ a, stage = .confirm a ∧ a.sessionID = sessionID := by
  cases stage with
  | confirm a =>
      show decide (a.sessionID = sessionID) = true ↔ _
      rw [decide_eq_true_eq]
      refine ⟨fun h => ⟨a, rfl, h⟩, ?_⟩
      rintro ⟨a', he, h⟩
      cases he
      exact h
  | _ =>
      constructor
      · intro h
        cases h
      · rintro ⟨a', he, -⟩
        cases he

theorem configured_iff :
    s.configured e = true ↔ e.cancel.isSome ∨ ∃ h ∈ s.handlers,
      h.path = e.path ∧ h.stage.confirms e.sessionID = true := by
  unfold Controller.configured
  rw [Bool.or_eq_true, List.any_eq_true]
  simp only [Bool.and_eq_true, decide_eq_true_eq]
  exact Iff.rfl

theorem mending_iff :
    s.mending e = true ↔ ∃ h ∈ s.handlers,
      h.path = e.path ∧ h.stage.mends e = true := by
  unfold Controller.mending
  rw [List.any_eq_true]
  simp only [Bool.and_eq_true, decide_eq_true_eq]
  exact Iff.rfl

/-- What a call out of turn is. -/
theorem overwrites_proceed (hh : s.handlers.get? h.id = some h) :
    overwrites h.path s (.proceed h.id reply) = true
      ↔ h.stage.forwardCall.isSome
        ∧ ∃ e, s.sessions.get? h.path = some e
          ∧ s.configured e = true ∧ h.stage.configures e = false
          ∧ s.mending e = false := by
  unfold overwrites
  simp only [hh, Option.any_some, decide_true, Bool.true_and,
    Bool.and_eq_true, Option.any_eq_true, Bool.not_eq_true', and_assoc]

/-- A Configure sets the forward of its own path and of no other. -/
theorem forward_configure (s : Controller) (a : Authorization)
    (path path' : String) :
    Controller.forward
        { s with media := s.media.configure path a.destinations } path'
      = if path' = path then some a.targets else s.forward path' := by
  unfold Controller.forward MediaPaths.configure
  simp only
  have hput := Table.get?_put (t := s.media)
    (a := { name := path, forward := a.targets }) path'
  cases hinsert : s.media.insert?
      { name := path, forward := a.targets } with
  | none =>
      rw [show (a.destinations.map Destination.targetURL) = a.targets
        from rfl, hinsert, Option.getD_none, hput]
      split <;> rfl
  | some media =>
      rw [show (a.destinations.map Destination.targetURL) = a.targets
        from rfl, hinsert, Option.getD_some, Table.get?_insert? hinsert]
      by_cases he : path = path'
      · rw [if_pos he, if_pos he.symm]
        rfl
      · rw [if_neg he, if_neg fun h => he h.symm]

theorem forward_delete (s : Controller) (path path' : String) :
    (s.deleteMedia path .ok).forward path'
      = if path' = path then none else s.forward path' := by
  show ((s.media.erase path).get? path').map MediaPath.forward = _
  rw [Table.get?_erase]
  split <;> rfl

-- ================================== referred

/-- The authorization that a handler of online has read. -/
def Stage.refers : Stage → Option Authorization
  | .configure a | .confirm a => some a
  | _ => none

theorem Stage.authorization_of_refers
    (h : stage.refers = some a) : stage.authorization = some a := by
  cases stage with
  | configure | confirm => exact h
  | _ => cases h

/-- The session of the handler is not stored. -/
def Stage.yetToStore (sessionID : String) (stage : Stage) : Prop :=
  stage.unstored = true ∧ stage.inHand = some sessionID

/-- A session that a handler of online has read is not yet to be
stored. -/
def Controller.Referred (s : Controller) : Prop :=
  ∀ h ∈ s.handlers, ∀ a, h.stage.refers = some a →
    ∀ h' ∈ s.handlers, ¬ h'.stage.yetToStore a.sessionID

/-- How a turn changes what its handler has read or is to store. -/
structure Reads (s s' : Controller) (h : Handler) (next : Option Stage) :
    Prop where
  refers : ∀ a, next.bind Stage.refers = some a →
    h.stage.refers = some a
      ∨ ∃ e ∈ s.sessions, e.path = h.path ∧ e.authorization = a
  stores : ∀ stage, next = some stage → ∀ sessionID,
    stage.yetToStore sessionID → h.stage.yetToStore sessionID
      ∨ s'.sessionIDs = s.sessionIDs ++ [sessionID]

/-- A turn whose authorization was already referred to keeps the references. -/
theorem Controller.Referred.turn (hs : s.Referred) (hcustody : s.Custody)
    (hdistinct : s'.sessionIDs.Nodup)
    (hgrows : ∃ ids, s'.sessionIDs = s.sessionIDs ++ ids)
    (hh : h ∈ s.handlers)
    (hnext : Replaces s s' h next) (hreads : Reads s s' h next) :
    s'.Referred := by
  obtain ⟨ids, hids⟩ := hgrows
  have hbefore : s.sessionIDs.Nodup := by
    rw [hids] at hdistinct
    exact hdistinct.of_append_left
  -- a session that is read has been granted
  have hgranted : ∀ h₀ ∈ s.handlers, ∀ a, h₀.stage.refers = some a →
      a.sessionID ∈ s.sessionIDs := fun h₀ hh₀ a ha =>
    List.mem_map.mpr ⟨_, hcustody.known h₀ hh₀ a
      (Stage.authorization_of_refers ha), rfl⟩
  -- the session of an entry is in nobody's hands
  have hentry : ∀ e ∈ s.sessions, ∀ h' ∈ s.handlers,
      h'.stage.inHand ≠ some e.sessionID := by
    intro e he
    have htokens := hcustody.tokens e.sessionID
    have hone := List.nodup_iff_count_le_one.mp hbefore e.sessionID
    have hpos : 0 < s.sessions.count
        (fun e' => e'.sessionID = e.sessionID) := Table.count_pos he rfl
    have hzero : s.handlers.count (Handler.Holds e.sessionID) = 0 := by
      omega
    exact Table.count_eq_zero.mp hzero
  -- what is read, and what is to be stored, in the state before
  have hrefers : ∀ h₁ ∈ s'.handlers, ∀ a, h₁.stage.refers = some a →
      (∃ h₀ ∈ s.handlers, h₀.stage.refers = some a)
        ∨ ∃ e ∈ s.sessions, e.authorization = a := by
    intro h₁ hh₁ a ha
    rcases hnext.mem h₁ hh₁ with ⟨stage, rfl, rfl⟩ | hh₁
    · rcases hreads.refers a ha with ha | ⟨e, he, -, ha⟩
      · exact Or.inl ⟨h, hh, ha⟩
      · exact Or.inr ⟨e, he, ha⟩
    · exact Or.inl ⟨h₁, hh₁, ha⟩
  have hstores : ∀ h₁ ∈ s'.handlers, ∀ sessionID,
      h₁.stage.yetToStore sessionID →
        (∃ h₀ ∈ s.handlers, h₀.stage.yetToStore sessionID)
          ∨ sessionID ∉ s.sessionIDs := by
    intro h₁ hh₁ sessionID hyet
    rcases hnext.mem h₁ hh₁ with ⟨stage, rfl, rfl⟩ | hh₁
    · rcases hreads.stores stage rfl sessionID hyet with hyet | hnew
      · exact Or.inl ⟨h, hh, hyet⟩
      · rw [hnew] at hdistinct
        refine Or.inr fun hmem => ?_
        exact List.disjoint_of_nodup_append hdistinct hmem
          List.mem_cons_self
    · exact Or.inl ⟨h₁, hh₁, hyet⟩
  intro h₁ hh₁ a ha h₂ hh₂ hyet
  rcases hstores h₂ hh₂ a.sessionID hyet with ⟨h₀, hh₀, hyet⟩ | hnew
  · rcases hrefers h₁ hh₁ a ha with ⟨h₃, hh₃, ha⟩ | ⟨e, he, rfl⟩
    · exact hs h₃ hh₃ a ha h₀ hh₀ hyet
    · exact hentry e he h₀ hh₀ hyet.2
  · rcases hrefers h₁ hh₁ a ha with ⟨h₃, hh₃, ha⟩ | ⟨e, he, rfl⟩
    · exact hnew (hgranted h₃ hh₃ a ha)
    · exact hnew (List.mem_map.mpr ⟨_, hcustody.entry e he, rfl⟩)

/-- A turn that reads no entry, and leaves no session to be stored that
was not. -/
theorem reads_same
    (hrefers : next.bind Stage.refers = none
      ∨ next.bind Stage.refers = h.stage.refers)
    (hstores : ∀ stage, next = some stage →
      (∀ sessionID, ¬ stage.yetToStore sessionID)
        ∨ h.stage.unstored = true ∧ stage.inHand = h.stage.inHand) :
    Reads s s' h next where
  refers a ha := by
    rcases hrefers with hnone | hsame
    · rw [hnone] at ha
      cases ha
    · exact Or.inl (hsame ▸ ha)
  stores stage he sessionID hyet := by
    rcases hstores stage he with hnot | ⟨hu, hsame⟩
    · exact absurd hyet (hnot sessionID)
    · exact Or.inl ⟨hu, hsame ▸ hyet.2⟩

theorem reads_none : Reads s s' h none :=
  reads_same (Or.inl rfl) fun _ he => by cases he

/-- What a handler's turn leaves it with, and which session it read. -/
theorem Turn.reads (hturn : Turn s h reply s') (hh : h ∈ s.handlers) :
    ∃ next, Replaces s s' h next ∧ Reads s s' h next := by
  have hnot : ∀ {stage : Stage},
      (stage.unstored = false ∨ stage.inHand = none) →
      ∀ stage', some stage = some stage' →
        (∀ sessionID, ¬ stage'.yetToStore sessionID)
          ∨ h.stage.unstored = true ∧ stage'.inHand = h.stage.inHand := by
    intro stage hstage stage' he
    cases he
    refine Or.inl fun sessionID hyet => ?_
    rcases hstage with hu | hempty
    · rw [hyet.1] at hu
      cases hu
    · rw [hyet.2] at hempty
      cases hempty
  cases hturn with
  | granted hstage =>
      refine ⟨_, replaces_goTo hh rfl, ⟨?_, ?_⟩⟩
      · intro a' ha
        cases ha
      intro stage he sessionID hyet
      cases he
      cases hyet.2
      refine Or.inr ?_
      show (grantedIn (s.log ++ [_] ++ [_])).map _ = _
      rw [List.append_assoc, grantedIn_append, List.map_append]
      rfl
  | validated hstage | invalid hstage =>
      refine ⟨_, replaces_goTo hh rfl, reads_same (Or.inl rfl) ?_⟩
      intro stage he
      cases he
      exact Or.inr ⟨by rw [hstage]; rfl, by rw [hstage]; rfl⟩
  | admitted =>
      exact ⟨_, replaces_goTo hh rfl,
        reads_same (Or.inl rfl) (hnot (Or.inr rfl))⟩
  | @found e hstage he =>
      refine ⟨_, replaces_goTo hh rfl, ⟨fun a ha => ?_, ?_⟩⟩
      · cases ha
        exact Or.inr ⟨e, Table.mem_of_get? he, Table.key_of_get? he, rfl⟩
      · intro stage he sessionID hyet
        cases he
        cases hyet.1
  | configured hstage =>
      exact ⟨_, replaces_goTo hh rfl,
        reads_same (Or.inr (by rw [hstage]; rfl)) (hnot (Or.inl rfl))⟩
  | deleted =>
      obtain ⟨media, he⟩ := deleteMedia_eq s h.path reply
      rw [he]
      exact ⟨_, replaces_goTo hh rfl,
        reads_same (Or.inl rfl) (hnot (Or.inl rfl))⟩
  | cleaned =>
      obtain ⟨media, he⟩ := deleteMedia_eq s h.path reply
      rw [he]
      exact ⟨_, replaces_respond hh rfl, reads_none⟩
  | denied | rejected | stored | unconfigured | gone | confirmed
  | abandoned | removed =>
      exact ⟨_, replaces_goTo hh rfl,
        reads_same (Or.inl rfl) (hnot (Or.inl rfl))⟩
  | busy | unpended | unknown | replaced | running | left | nothing
  | closed => exact ⟨_, replaces_respond hh rfl, reads_none⟩

theorem Turn.sessionIDs (hturn : Turn s h reply s') :
    ∃ ids, s'.sessionIDs = s.sessionIDs ++ ids := by
  obtain ⟨events, hlog, -⟩ := hturn.calls
  refine ⟨(grantedIn events).map fun g => g.2.sessionID, ?_⟩
  unfold Controller.sessionIDs
  rw [hlog, grantedIn_append, List.map_append]

theorem Step.sessionIDs (hstep : Step s action s') :
    ∃ ids, s'.sessionIDs = s.sessionIDs ++ ids := by
  have hlog : ∀ events, s'.log = s.log ++ events →
      ∃ ids, s'.sessionIDs = s.sessionIDs ++ ids := by
    intro events hlog
    refine ⟨(grantedIn events).map fun g => g.2.sessionID, ?_⟩
    unfold Controller.sessionIDs
    rw [hlog, grantedIn_append, List.map_append]
  cases hstep with
  | refused => exact hlog [_] rfl
  | accepted => exact hlog [] (List.append_nil _).symm
  | turn hh hturn => exact hturn.sessionIDs
  | heartbeats => exact hlog _ rfl

/-- Every step keeps the references. -/
theorem Step.referred (hstep : Step s action s') (hcustody : s.Custody)
    (hdistinct : s'.sessionIDs.Nodup) (hs : s.Referred) : s'.Referred := by
  cases hstep with
  | turn hh hturn =>
      obtain ⟨next, hnext, hreads⟩ := hturn.reads (Table.mem_of_get? hh)
      exact hs.turn hcustody hdistinct hturn.sessionIDs
        (Table.mem_of_get? hh) hnext hreads
  | refused | heartbeats => exact hs
  | accepted hfirst =>
      intro h₁ hh₁ a ha h₂ hh₂ hyet
      rcases Table.mem_put.mp hh₁ with rfl | ⟨hh₁, -⟩
      · have hknown := Stage.authorization_of_refers ha
        rw [Stage.first_unknown hfirst] at hknown
        cases hknown
      · rcases Table.mem_put.mp hh₂ with rfl | ⟨hh₂, -⟩
        · have hempty := hyet.2
          rw [Stage.first_empty hfirst] at hempty
          cases hempty
        · exact hs h₁ hh₁ a ha h₂ hh₂ hyet

-- ==================================== linked

/-- The handler will see that no session is left, or deletes. -/
def Stage.cleans : Stage → Bool
  | .confirm _ | .clean | .delete _ _ => true
  | _ => false

/-- What the forward of a path is, or who is about to set it right. -/
structure Controller.Linked (s : Controller) (path : String) : Prop where
  current : ∀ e, s.sessions.get? path = some e → s.configured e = true →
    s.forward path = some e.authorization.targets ∨ s.mending e = true
  removed : s.sessions.get? path = none → s.forward path ≠ none →
    ∃ h ∈ s.handlers, h.path = path ∧ h.stage.cleans = true

/-- Who has configured a session, after a turn that does not. -/
theorem Replaces.configured
    (hnext : Replaces s s' h next) (hh : h ∈ s.handlers)
    (hconfirm : ∀ stage, next = some stage → h.path = e.path →
      stage.confirms e.sessionID = true →
        h.stage.confirms e.sessionID = true)
    (hconfigured : s'.configured e = true) : s.configured e = true := by
  rw [configured_iff] at hconfigured ⊢
  refine hconfigured.imp_right ?_
  rintro ⟨h₁, hh₁, hpath, hstage⟩
  rcases hnext.mem h₁ hh₁ with ⟨stage, he, rfl⟩ | hh₁
  · exact ⟨h, hh, hpath, hconfirm stage he hpath hstage⟩
  · exact ⟨h₁, hh₁, hpath, hstage⟩

/-- A handler in flight that mends a session is still in flight after
the turn of another one, and after its own where that goes on. -/
theorem Replaces.mending (hnext : Replaces s s' h next)
    (hgoes : h.path = e.path → h.stage.mends e = true →
      ∃ stage, next = some stage ∧ stage.mends e = true)
    (hmending : s.mending e = true) : s'.mending e = true := by
  rw [mending_iff] at hmending ⊢
  obtain ⟨h₁, hh₁, hpath, hstage⟩ := hmending
  by_cases hsame : h₁ = h
  · subst hsame
    obtain ⟨stage, he, hmends⟩ := hgoes hpath hstage
    exact ⟨_, hnext.next_mem stage he, hpath, hmends⟩
  · exact ⟨h₁, hnext.stay h₁ hh₁ hsame, hpath, hstage⟩

/-- A turn that neither changes the entry nor the forward list. -/
theorem Controller.Linked.goes (hs : s.Linked path) (hh : h ∈ s.handlers)
    (hnext : Replaces s s' h next)
    (hsessions : s'.sessions.get? path = s.sessions.get? path)
    (hforward : s'.forward path = s.forward path)
    (hcleans : h.path = path → h.stage.cleans = true →
      s.sessions.get? path = none → s.forward path ≠ none →
        ∃ stage, next = some stage ∧ stage.cleans = true)
    (hmends : ∀ e, h.path = path → s.sessions.get? path = some e →
      h.stage.mends e = true →
        ∃ stage, next = some stage ∧ stage.mends e = true)
    (hconfirm : h.path = path → ∀ a, next ≠ some (.confirm a)) :
    s'.Linked path where
  current e he hconfigured := by
    rw [hsessions] at he
    rw [hforward]
    have hkey : e.path = path := Table.key_of_get? he
    have hbefore : s.configured e = true := by
      refine hnext.configured hh (fun stage hstage hpath hconf => ?_)
        hconfigured
      obtain ⟨a, rfl, -⟩ := Stage.confirms_iff.mp hconf
      exact absurd hstage (hconfirm (hpath.trans hkey) a)
    exact (hs.current e he hbefore).imp_right (hnext.mending fun hpath =>
      hmends e (hpath.trans hkey) he)
  removed hnone hsome := by
    rw [hsessions] at hnone
    rw [hforward] at hsome
    obtain ⟨h₀, hh₀, hpath, hstage⟩ := hs.removed hnone hsome
    by_cases hsame : h₀ = h
    · subst hsame
      obtain ⟨stage, he, hstage⟩ := hcleans hpath hstage hnone hsome
      exact ⟨_, hnext.next_mem stage he, hpath, hstage⟩
    · exact ⟨h₀, hnext.stay h₀ hh₀ hsame, hpath, hstage⟩

theorem forward_deleteMedia_ne {path' : String} (hne : path ≠ path')
    (reply : Reply) :
    (s.deleteMedia path' reply).forward path = s.forward path := by
  unfold Controller.deleteMedia
  split
  case isTrue =>
    show ((s.media.erase path').get? path).map MediaPath.forward = _
    rw [Table.get?_erase, if_neg hne]
    rfl
  case isFalse => rfl

/-- A turn on another path. -/
theorem Turn.elsewhere (hturn : Turn s h reply s') (hne : path ≠ h.path) :
    s'.sessions.get? path = s.sessions.get? path
      ∧ s'.forward path = s.forward path := by
  cases hturn with
  | stored =>
      refine ⟨?_, rfl⟩
      show (s.sessions.put _).get? path = _
      rw [Table.get?_put, if_neg hne]
  | @confirmed a e hstage he =>
      refine ⟨?_, rfl⟩
      show (s.sessions.put _).get? path = _
      have hkey : e.path = h.path := Table.key_of_get? he
      rw [Table.get?_put, if_neg]
      exact fun hpath => hne (hpath.trans hkey)
  | @abandoned e hstage he | @removed e hstage he =>
      refine ⟨?_, rfl⟩
      show (s.sessions.erase _).get? path = _
      rw [Table.get?_erase, if_neg]
      exact fun hpath => hne (hpath.trans (Table.key_of_get? he))
  | configured =>
      refine ⟨rfl, ?_⟩
      have hforward := forward_configure s ‹Authorization› h.path path
      rw [if_neg hne] at hforward
      exact hforward
  | @unconfigured a media hstage hreply hmedia =>
      refine ⟨rfl, ?_⟩
      rcases hmedia with rfl | rfl
      · have hforward := forward_configure s a h.path path
        rw [if_neg hne] at hforward
        exact hforward
      · rfl
  | deleted | cleaned =>
      have hforward := forward_deleteMedia_ne (s := s) hne reply
      obtain ⟨media, he⟩ := deleteMedia_eq s h.path reply
      rw [he] at hforward ⊢
      exact ⟨rfl, hforward⟩
  | _ => exact ⟨rfl, rfl⟩

/-- What the conditions on a step say of the handler whose step it
is. -/
structure Orderly (s : Controller) (h : Handler) (reply : Reply) : Prop where
  answered : h.stage.forwardCall.isSome → reply = .ok
  turn : h.stage.forwardCall.isSome → ∀ e,
    s.sessions.get? h.path = some e → s.configured e = true →
      h.stage.configures e = false → s.mending e = true

/-- The session of a path is stored, and nobody has configured it. -/
theorem linked_stored (hh : h ∈ s.handlers) (hreferred : s.Referred)
    (hstage : h.stage = .store a) :
    Controller.Linked
      ({ s with
        sessions := s.sessions.put
          { path := h.path, authorization := a } }.goTo h (.unpend 204))
      h.path := by
  have hentry : ∀ e, (s.sessions.put
      { path := h.path, authorization := a }).get? h.path = some e →
      e = { path := h.path, authorization := a } := by
    intro e he
    rw [Table.get?_put, if_pos rfl] at he
    exact (Option.some.inj he).symm
  refine ⟨fun e he hconfigured => ?_, fun hnone => ?_⟩
  · rcases configured_iff.mp hconfigured with
      hcancel | ⟨h₁, hh₁, -, hstage₁⟩
    · rw [hentry e he] at hcancel
      cases hcancel
    · obtain ⟨a₁, hstage₁, hid⟩ := Stage.confirms_iff.mp hstage₁
      rcases Table.mem_put.mp hh₁ with rfl | ⟨hh₁, -⟩
      · cases hstage₁
      · have hyet : h.stage.yetToStore a₁.sessionID := by
          rw [hstage]
          rw [hentry e he] at hid
          exact ⟨rfl, congrArg some hid.symm⟩
        exact absurd hyet
          (hreferred h₁ hh₁ a₁ (by rw [hstage₁]; rfl) h hh)
  · have hsome := Table.get?_key (t := s.sessions.put
      { path := h.path, authorization := a }) Table.mem_put_self
    rw [show (s.sessions.put _).get? h.path = none from hnone] at hsome
    cases hsome

/-- A call of another session is made while some handler in flight is to
mend the current one. -/
theorem Orderly.mending (horderly : Orderly s h reply) (hh : h ∈ s.handlers)
    (hnext : Replaces s s' h next) (hcall : h.stage.forwardCall.isSome)
    (he : s.sessions.get? h.path = some e)
    (hconfirm : ∀ stage, next = some stage →
      stage.confirms e.sessionID = false)
    (hother : h.stage.configures e = false)
    (hconfigured : s'.configured e = true) : s'.mending e = true := by
  have hbefore : s.configured e = true := by
    refine hnext.configured hh (fun stage hstage _ hconf => ?_) hconfigured
    rw [hconfirm stage hstage] at hconf
    cases hconf
  refine hnext.mending (fun _ hmends => ?_)
    (horderly.turn hcall e he hbefore hother)
  -- a handler that calls mends what it configures, and nothing else
  have hconfigures : h.stage.configures e = true := by
    cases hstage : h.stage with
    | configure | clean | delete =>
        rw [hstage] at hmends
        exact hmends
    | _ =>
        rw [hstage] at hcall
        cases hcall
  rw [hconfigures] at hother
  cases hother

/-- A session is configured: the current one, or another one. -/
theorem Controller.Linked.configured_ok (hh : h ∈ s.handlers)
    (hcustody : s.Custody) (hdistinct : s.sessionIDs.Nodup)
    (horderly : Orderly s h reply) (hstage : h.stage = .configure a) :
    Controller.Linked
      ({ s with media := s.media.configure h.path a.destinations }.goTo h
        (.confirm a)) h.path := by
  have hforward : Controller.forward
      ({ s with media := s.media.configure h.path a.destinations }.goTo h
        (.confirm a)) h.path = some a.targets := by
    have hconfigure := forward_configure s a h.path h.path
    rw [if_pos rfl] at hconfigure
    exact hconfigure
  refine ⟨fun e he hconfigured => ?_, fun _ _ => ?_⟩
  · rw [hforward]
    by_cases htargets : a.targets = e.authorization.targets
    · exact Or.inl (congrArg some htargets)
    have hid : a.sessionID ≠ e.sessionID := by
      intro hid
      have hgrant := hcustody.entry e (Table.mem_of_get? he)
      have hknown := hcustody.known h hh a (by rw [hstage]; rfl)
      exact htargets (by rw [(granted_eq hdistinct hgrant hknown hid.symm).2])
    refine Or.inr (horderly.mending hh (replaces_goTo hh rfl)
      (by rw [hstage]; rfl) he (fun stage hnext => ?_) ?_ hconfigured)
    · cases hnext
      exact decide_eq_false hid
    · rw [hstage]
      show (decide _ || decide _) = false
      rw [decide_eq_false hid, decide_eq_false htargets, Bool.or_false]
  · exact ⟨_, Table.mem_put_self, rfl, rfl⟩

/-- The configuration of a path is deleted. -/
theorem Controller.Linked.deleted (hh : h ∈ s.handlers)
    (horderly : Orderly s h .ok) (hnext : Replaces s s' h next)
    (hstage : h.stage.forwardCall = some none)
    (hsessions : s'.sessions = s.sessions)
    (hforward : s'.forward h.path = none)
    (hconfirm : ∀ a, next ≠ some (.confirm a)) : s'.Linked h.path := by
  refine ⟨fun e he hconfigured => ?_, fun _ hsome => absurd hforward hsome⟩
  rw [hsessions] at he
  refine Or.inr (horderly.mending hh hnext (by rw [hstage]; rfl) he ?_ ?_
    hconfigured)
  · intro stage hstage
    rw [Bool.eq_false_iff]
    intro hconf
    obtain ⟨a, rfl, -⟩ := Stage.confirms_iff.mp hconf
    exact hconfirm a hstage
  · cases hconfigures : h.stage with
    | configure a =>
        rw [hconfigures] at hstage
        cases hstage
    | _ => rfl

/-- The entry of a path is taken out by a handler that will delete. -/
theorem linked_takeOut (hpath : e.path = h.path) (status : Nat) :
    Controller.Linked (((s.takeOut e).record (.took h.id e.sessionID)).goTo
      h (.delete e.sessionID status)) h.path := by
  have hnone : (s.sessions.erase e.path).get? h.path = none := by
    rw [Table.get?_erase, if_pos hpath.symm]
  refine ⟨fun e' he => ?_, fun _ _ => ?_⟩
  · rw [show (s.sessions.erase e.path).get? h.path = some e' from he]
      at hnone
    cases hnone
  · exact ⟨_, Table.mem_put_self, rfl, rfl⟩

/-- A session that is configured completes online. -/
theorem Controller.Linked.confirmed (hs : s.Linked h.path)
    (hh : h ∈ s.handlers) (hstage : h.stage = .confirm a)
    (he : s.sessions.get? h.path = some e)
    (hsame : e.sessionID = a.sessionID) :
    Controller.Linked ((s.renew e).goTo h (.run s.contexts)) h.path := by
  have hentry : ∀ e', (s.renew e).sessions.get? h.path = some e' →
      e' = { e with cancel := some s.contexts } := by
    intro e' he'
    have hkey : h.path = e.path := (Table.key_of_get? he).symm
    rw [show (s.renew e).sessions = s.sessions.put
      { e with cancel := some s.contexts } from rfl, Table.get?_put,
      if_pos hkey] at he'
    exact (Option.some.inj he').symm
  have hconfigured : s.configured e = true := by
    refine configured_iff.mpr (Or.inr ⟨h, hh, ?_, ?_⟩)
    · exact (Table.key_of_get? he).symm
    · exact Stage.confirms_iff.mpr ⟨a, hstage, hsame.symm⟩
  refine ⟨fun e' he' _ => ?_, fun hnone => ?_⟩
  · rw [hentry e' he']
    refine (hs.current e he hconfigured).imp_right
      ((replaces_goTo hh rfl).mending (fun _ hmends => ?_))
    rw [hstage] at hmends
    cases hmends
  · have hkey : h.path = e.path := (Table.key_of_get? he).symm
    rw [show (Controller.goTo _ h _).sessions = s.sessions.put
      { e with cancel := some s.contexts } from rfl, Table.get?_put,
      if_pos hkey] at hnone
    cases hnone

/-- An orderly turn of the path keeps its forward linked to its session. -/
theorem Turn.linked (hturn : Turn s h reply s') (hh : h ∈ s.handlers)
    (hinv : s.Inv) (hdistinct : s.sessionIDs.Nodup) (hreferred : s.Referred)
    (horderly : Orderly s h reply) (hs : s.Linked h.path) :
    s'.Linked h.path := by
  have hreturns : s'.handlers = s.handlers.erase h.id →
      s'.sessions = s.sessions → s'.media = s.media →
      (h.stage.cleans = true → s.sessions.get? h.path ≠ none) →
      (∀ e, s.sessions.get? h.path = some e → h.stage.mends e = false) →
        s'.Linked h.path := by
    intro hhandlers hsessions hmedia hcleans hmends
    refine hs.goes hh (replaces_respond hh hhandlers)
      (by rw [hsessions]) ?_ ?_ ?_ ?_
    · unfold Controller.forward
      rw [hmedia]
    · exact fun _ hstage hnone _ => absurd hnone (hcleans hstage)
    · intro e _ he hstage
      rw [hmends e he] at hstage
      cases hstage
    · intro _ a ha
      cases ha
  have hmoves : ∀ stage, s'.handlers = s.handlers.put { h with stage } →
      s'.sessions = s.sessions → s'.media = s.media →
      (h.stage.cleans = true → stage.cleans = true) →
      (∀ e, s.sessions.get? h.path = some e →
        h.stage.mends e = true → stage.mends e = true) →
      (∀ a, stage ≠ .confirm a) → s'.Linked h.path := by
    intro stage hhandlers hsessions hmedia hcleans hmends hconfirm
    refine hs.goes hh (replaces_goTo hh hhandlers)
      (by rw [hsessions]) ?_ ?_ ?_ ?_
    · unfold Controller.forward
      rw [hmedia]
    · exact fun _ hstage _ _ => ⟨stage, rfl, hcleans hstage⟩
    · exact fun e _ he hstage => ⟨stage, rfl, hmends e he hstage⟩
    · exact fun _ a ha => hconfirm a (Option.some.inj ha)
  cases hturn with
  | busy hstage | unpended hstage | running hstage | closed hstage =>
      refine hreturns rfl rfl rfl (fun hcleans => ?_) fun e he => ?_
      · rw [hstage] at hcleans
        cases hcleans
      · rw [hstage]
        rfl
  | unknown hstage hnone | nothing hstage hnone =>
      refine hreturns rfl rfl rfl (fun hcleans => ?_) fun e he => ?_
      · rw [hstage] at hcleans
        cases hcleans
      · rw [hnone] at he
        cases he
  | left hstage hother =>
      refine hreturns rfl rfl rfl (fun hcleans => ?_) fun e he => ?_
      · rw [hstage] at hcleans
        cases hcleans
      · rw [hstage]
        exact decide_eq_false fun hid => hother e he hid.symm
  | replaced hstage he hother =>
      refine hreturns rfl rfl rfl (fun _ hnone => ?_) fun e' he' => ?_
      · rw [he] at hnone
        cases hnone
      · rw [hstage]
        rfl
  | admitted hstage | granted hstage | denied hstage | validated hstage
  | invalid hstage | rejected hstage =>
      refine hmoves _ rfl rfl rfl (fun hcleans => ?_)
        (fun e he hmends => ?_) fun a ha => ?_
      · rw [hstage] at hcleans
        cases hcleans
      · rw [hstage] at hmends
        cases hmends
      · cases ha
  | @found e hstage he =>
      refine hmoves _ rfl rfl rfl (fun hcleans => ?_)
        (fun e' he' _ => ?_) fun a ha => ?_
      · rw [hstage] at hcleans
        cases hcleans
      · -- the handler goes by the entry that it has found
        obtain rfl : e' = e := Option.some.inj (he'.symm.trans he)
        show (decide _ || decide _) = true
        rw [Bool.or_eq_true, decide_eq_true_eq]
        exact Or.inl rfl
      · cases ha
  | gone hstage =>
      refine hmoves _ rfl rfl rfl (fun _ => rfl) (fun e he hmends => ?_)
        fun a ha => by cases ha
      rw [hstage] at hmends
      cases hmends
  | unconfigured hstage hreply =>
      exact absurd (horderly.answered (by rw [hstage]; rfl)) hreply
  | stored hstage => exact linked_stored hh hreferred hstage
  | configured hstage =>
      exact Controller.Linked.configured_ok hh hinv.custody hdistinct
        horderly hstage
  | confirmed hstage he hsame => exact hs.confirmed hh hstage he hsame
  | abandoned hstage he | removed hstage he =>
      exact linked_takeOut (Table.key_of_get? he) _
  | deleted hstage =>
      have hreply : reply = .ok := horderly.answered (by rw [hstage]; rfl)
      subst hreply
      refine Controller.Linked.deleted hh horderly (replaces_goTo hh rfl)
        (by rw [hstage]; rfl) rfl ?_ fun a ha => by cases ha
      have hforward := forward_delete s h.path h.path
      rw [if_pos rfl] at hforward
      exact hforward
  | cleaned hstage =>
      have hreply : reply = .ok := horderly.answered (by rw [hstage]; rfl)
      subst hreply
      refine Controller.Linked.deleted hh horderly (replaces_respond hh rfl)
        (by rw [hstage]; rfl) rfl ?_ fun a ha => by cases ha
      have hforward := forward_delete s h.path h.path
      rw [if_pos rfl] at hforward
      exact hforward

-- =============================== overwritten

/-- A session that has been configured, whose list is not its own, and
that nobody in flight is to configure or to end. -/
structure Controller.Overwritten (s : Controller) (e : ActiveSession) :
    Prop where
  entry : s.sessions.get? e.path = some e
  configured : s.configured e = true
  forward : s.forward e.path ≠ some e.authorization.targets
  unmended : s.mending e = false

/-- A turn that neither takes the session out nor completes its
online. -/
theorem overwritten_goes (hnext : Replaces s s' h next)
    (hentry : s'.sessions.get? e.path = some e)
    (hconfigured : s.configured e = true)
    (hforward : s'.forward e.path ≠ some e.authorization.targets)
    (hunmended : s.mending e = false)
    (hconfirms : h.path = e.path → h.stage.confirms e.sessionID = false)
    (hmends : ∀ stage, next = some stage → h.path = e.path →
      stage.mends e = false) : s'.Overwritten e := by
  refine ⟨hentry, ?_, hforward, ?_⟩
  · rw [configured_iff] at hconfigured ⊢
    refine hconfigured.imp_right ?_
    rintro ⟨h₁, hh₁, hpath, hstage⟩
    refine ⟨h₁, hnext.stay h₁ hh₁ ?_, hpath, hstage⟩
    rintro rfl
    rw [hconfirms hpath] at hstage
    cases hstage
  · rw [Bool.eq_false_iff] at hunmended ⊢
    intro hmending
    obtain ⟨h₁, hh₁, hpath, hstage⟩ := mending_iff.mp hmending
    rcases hnext.mem h₁ hh₁ with ⟨stage, he, rfl⟩ | hh₁
    · have hnot : stage.mends e = false := hmends stage he hpath
      rw [show stage.mends e = true from hstage] at hnot
      cases hnot
    · exact hunmended (mending_iff.mpr ⟨h₁, hh₁, hpath, hstage⟩)

/-- A turn of a handler of the path, in a state in which nobody is to
mend the current session: where the list was not its own, or the turn is
a call, the list is not its own afterwards. -/
theorem Turn.overwritten_path (hturn : Turn s h reply s')
    (hh : h ∈ s.handlers) (hadmission : s.Admission)
    (hanswered : h.stage.forwardCall.isSome → reply = .ok)
    (hpath : h.path = e.path) (he : s.sessions.get? e.path = some e)
    (hconfigured : s.configured e = true) (hunmended : s.mending e = false)
    (hlost : h.stage.forwardCall.isSome
      ∨ s.forward e.path ≠ some e.authorization.targets) :
    ∃ e', e'.path = e.path ∧ s'.Overwritten e' := by
  have hget : s.sessions.get? h.path = some e := hpath ▸ he
  have hnot : h.stage.mends e ≠ true := by
    intro hmends
    rw [mending_iff.mpr ⟨h, hh, hpath, hmends⟩] at hunmended
    cases hunmended
  -- an authorization has no entry beside it until it is stored
  have hvacant : h.stage.unstored ≠ true := by
    intro hunstored
    rw [hadmission.vacant h hh hunstored] at hget
    cases hget
  have hsame : h.stage.forwardCall.isSome = false →
      s.forward e.path ≠ some e.authorization.targets := by
    intro hcall
    rw [hcall] at hlost
    exact hlost.resolve_left Bool.false_ne_true
  have hgone : ∀ {s₁ : Controller}, s₁.forward h.path = none →
      s₁.forward e.path ≠ some e.authorization.targets := by
    intro s₁ hnone hsome
    rw [← hpath, hnone] at hsome
    cases hsome
  cases hturn with
  | busy hstage | unpended hstage | running hstage | closed hstage
  | left hstage =>
      refine ⟨e, rfl, overwritten_goes (replaces_respond hh rfl) he
        hconfigured (hsame (by rw [hstage]; rfl)) hunmended (fun _ => ?_)
        fun stage hnext => by cases hnext⟩
      rw [hstage]
      rfl
  | admitted hstage hnone | gone hstage hnone =>
      rw [hnone] at hget
      cases hget
  | granted hstage | denied hstage | validated hstage | invalid hstage
  | rejected hstage | stored hstage =>
      exact absurd (by rw [hstage]; rfl) hvacant
  | unknown hstage | found hstage | nothing hstage | removed hstage =>
      exact absurd (by rw [hstage]; rfl) hnot
  | @configured a hstage =>
      have hother : Stage.configures e (.configure a) ≠ true := by
        intro hconfigures
        rw [hstage] at hnot
        exact hnot hconfigures
      have htargets : a.targets ≠ e.authorization.targets := by
        intro htargets
        apply hother
        show (decide _ || decide _) = true
        rw [decide_eq_true htargets, Bool.or_true]
      have hforward := forward_configure s a h.path h.path
      rw [if_pos rfl, hpath] at hforward
      refine ⟨e, rfl, overwritten_goes (replaces_goTo hh rfl) he
        hconfigured ?_ hunmended (fun _ => ?_) fun stage hnext _ => ?_⟩
      · rw [hpath]
        exact fun hlist =>
          htargets (Option.some.inj (hforward.symm.trans hlist))
      · rw [hstage]
        rfl
      · cases hnext
        rfl
  | unconfigured hstage hreply =>
      exact absurd (hanswered (by rw [hstage]; rfl)) hreply
  | @replaced a e₁ hstage he₁ hother =>
      obtain rfl : e₁ = e := Option.some.inj (he₁.symm.trans hget)
      refine ⟨e₁, rfl, overwritten_goes (replaces_respond hh rfl) he
        hconfigured (hsame (by rw [hstage]; rfl)) hunmended (fun _ => ?_)
        fun stage hnext => by cases hnext⟩
      rw [hstage]
      exact decide_eq_false fun hid => hother hid.symm
  | @confirmed a e₁ hstage he₁ =>
      obtain rfl : e₁ = e := Option.some.inj (he₁.symm.trans hget)
      refine ⟨{ e₁ with cancel := some s.contexts }, rfl, ?_, rfl,
        hsame (by rw [hstage]; rfl), ?_⟩
      · show (s.sessions.put _).get? _ = _
        rw [Table.get?_put, if_pos rfl]
      · rw [Bool.eq_false_iff] at hunmended ⊢
        intro hmending
        refine hunmended (mending_iff.mpr ?_)
        obtain ⟨h₁, hh₁, hpath₁, hmends⟩ := mending_iff.mp hmending
        rcases Table.mem_put.mp hh₁ with rfl | ⟨hh₁, -⟩
        · cases hmends
        · exact ⟨h₁, hh₁, hpath₁, hmends⟩
  | @abandoned e₁ hstage he₁ =>
      obtain rfl : e₁ = e := Option.some.inj (he₁.symm.trans hget)
      rw [hstage] at hnot
      exact absurd (decide_eq_true rfl) hnot
  | deleted hstage =>
      obtain rfl : reply = .ok := hanswered (by rw [hstage]; rfl)
      have hforward := forward_delete s h.path h.path
      rw [if_pos rfl] at hforward
      refine ⟨e, rfl, overwritten_goes (replaces_goTo hh rfl) he
        hconfigured (hgone hforward) hunmended (fun _ => ?_)
        fun stage hnext _ => ?_⟩
      · rw [hstage]
        rfl
      · cases hnext
        rfl
  | cleaned hstage =>
      obtain rfl : reply = .ok := hanswered (by rw [hstage]; rfl)
      have hforward := forward_delete s h.path h.path
      rw [if_pos rfl] at hforward
      refine ⟨e, rfl, overwritten_goes (replaces_respond hh rfl) he
        hconfigured (hgone hforward) hunmended (fun _ => ?_)
        fun stage hnext => by cases hnext⟩
      rw [hstage]
      rfl

/-- While the media server answers, an overwritten forward stays overwritten
through a turn. -/
theorem Turn.overwritten (hturn : Turn s h reply s') (hh : h ∈ s.handlers)
    (hadmission : s.Admission)
    (hanswered : h.stage.forwardCall.isSome → reply = .ok)
    (hs : s.Overwritten e) :
    ∃ e', e'.path = e.path ∧ s'.Overwritten e' := by
  by_cases hpath : h.path = e.path
  · exact hturn.overwritten_path hh hadmission hanswered hpath hs.entry
      hs.configured hs.unmended (Or.inr hs.forward)
  · obtain ⟨hsessions, hforward⟩ := hturn.elsewhere (Ne.symm hpath)
    obtain ⟨next, hnext, -⟩ := hturn.reads hh
    refine ⟨e, rfl, overwritten_goes hnext (hsessions.trans hs.entry)
      hs.configured ?_ hs.unmended (fun h => absurd h hpath)
      fun _ _ h => absurd h hpath⟩
    rw [hforward]
    exact hs.forward

/-- A request that is no hook of the path. -/
theorem overwritten_accept {path' : String}
    (hfresh : ∀ h ∈ s.handlers, h.id < s.requests)
    (hother : path' = e.path → stage.mends e = false)
    (hs : s.Overwritten e) : (s.accept path' stage).Overwritten e := by
  refine ⟨hs.entry, ?_, hs.forward, ?_⟩
  · refine configured_iff.mpr ((configured_iff.mp hs.configured).imp_right ?_)
    rintro ⟨h, hh, hrest⟩
    exact ⟨h, Table.mem_put.mpr (Or.inr ⟨hh, Nat.ne_of_lt (hfresh h hh)⟩),
      hrest⟩
  · have hunmended := hs.unmended
    rw [Bool.eq_false_iff] at hunmended ⊢
    intro hmending
    obtain ⟨h, hh, hpath, hstage⟩ := mending_iff.mp hmending
    rcases Table.mem_put.mp hh with rfl | ⟨hh, -⟩
    · rw [show stage.mends e = true from hstage] at hother
      cases hother hpath
    · exact hunmended (mending_iff.mpr ⟨h, hh, hpath, hstage⟩)

theorem overwritten_hook {path' : String}
    (hfresh : ∀ h ∈ s.handlers, h.id < s.requests)
    (hother : path' ≠ e.path) (hs : s.Overwritten e) :
    (s.hook path' stage).Overwritten e := by
  unfold Controller.hook
  split
  case isTrue =>
    exact overwritten_accept hfresh (fun h => absurd h hother) hs
  case isFalse => exact ⟨hs.entry, hs.configured, hs.forward, hs.unmended⟩

/-- What a call that is answered is. -/
theorem answered_of {s : Controller} {h : Handler} {reply : Reply}
    (hh : s.handlers.get? h.id = some h)
    (hanswers : mediaAnswers s (.proceed h.id reply) = true)
    (hcall : h.stage.forwardCall.isSome) : reply = .ok := by
  unfold mediaAnswers at hanswers
  simp only [hh, Option.all_some, Bool.or_eq_true, decide_eq_true_eq,
    Option.isNone_iff_eq_none] at hanswers
  rcases hanswers with hnone | hok
  · rw [hnone] at hcall
    cases hcall
  · exact hok

/-- An overwritten forward stays overwritten until a request for its path
arrives. -/
theorem Controller.Overwritten.step
    (hs : s.Overwritten e) (hadmission : s.Admission)
    (hanswers : mediaAnswers s action = true)
    (hhooks : hooks e.path action = false) :
    ∃ e', e'.path = e.path ∧ (s.step action).Overwritten e' := by
  have hidle : ∀ {s₁ : Controller}, s₁.sessions = s.sessions →
      s₁.handlers = s.handlers → s₁.media = s.media →
        ∃ e', e'.path = e.path ∧ s₁.Overwritten e' := by
    intro s₁ hsessions hhandlers hmedia
    refine ⟨e, rfl, by rw [hsessions]; exact hs.entry, ?_, ?_, ?_⟩
    · unfold Controller.configured
      rw [hhandlers]
      exact hs.configured
    · unfold Controller.forward
      rw [hmedia]
      exact hs.forward
    · unfold Controller.mending
      rw [hhandlers]
      exact hs.unmended
  cases action with
  | authorize request =>
      unfold Controller.step
      simp only
      split
      case isTrue => exact hidle rfl rfl rfl
      case isFalse =>
        exact ⟨e, rfl, overwritten_accept hadmission.fresh (fun _ => rfl) hs⟩
  | online path' | offline path' =>
      exact ⟨e, rfl, overwritten_hook hadmission.fresh
        (of_decide_eq_false hhooks) hs⟩
  | proceed id reply =>
      unfold Controller.step
      simp only
      split
      case h_1 => exact hidle rfl rfl rfl
      case h_2 h hget =>
        obtain rfl := Table.key_of_get? hget
        exact (proceed_turn s h reply).overwritten (Table.mem_of_get? hget)
          hadmission (answered_of hget hanswers) hs
  | beat id beat =>
      unfold Controller.step
      simp only
      split
      case h_1 => exact hidle rfl rfl rfl
      case h_2 l hl =>
        split
        case isTrue =>
          unfold Controller.beat
          simp only
          split
          case isTrue => exact hidle rfl rfl rfl
          case isFalse => exact hidle rfl rfl rfl
        case isFalse => exact hidle rfl rfl rfl
  | done id =>
      unfold Controller.step
      simp only
      split
      case h_1 => exact hidle rfl rfl rfl
      case h_2 l hl =>
        split
        case isTrue => exact hidle rfl rfl rfl
        case isFalse => exact hidle rfl rfl rfl

/-- A call out of turn. -/
theorem overwritten_of (hadmission : s.Admission)
    (hanswers : mediaAnswers s action = true)
    (hoverwrites : overwrites path s action = true) :
    ∃ e, e.path = path ∧ (s.step action).Overwritten e := by
  cases action with
  | proceed id reply =>
      cases hget : s.handlers.get? id with
      | none =>
          unfold overwrites at hoverwrites
          simp only [hget, Option.any_none, Bool.false_eq_true]
            at hoverwrites
      | some h =>
          obtain rfl := Table.key_of_get? hget
          have hpath : h.path = path := by
            unfold overwrites at hoverwrites
            simp only [hget, Option.any_some, Bool.and_eq_true,
              decide_eq_true_eq] at hoverwrites
            exact hoverwrites.1.1
          subst hpath
          obtain ⟨hcall, e, he, hconfigured, -, hunmended⟩ :=
            (overwrites_proceed hget).mp hoverwrites
          have hkey : e.path = h.path := Table.key_of_get? he
          have hstep : s.step (.proceed h.id reply) = s.proceed h reply := by
            unfold Controller.step
            simp only [hget]
          rw [hstep, ← hkey]
          exact (proceed_turn s h reply).overwritten_path
            (Table.mem_of_get? hget) hadmission (answered_of hget hanswers)
            hkey.symm (hkey ▸ he) hconfigured hunmended (Or.inl hcall)
  | _ => cases hoverwrites

-- ====================================== runs

theorem orderly_of {s : Controller} {h : Handler} {reply : Reply}
    (hh : s.handlers.get? h.id = some h)
    (hanswers : mediaAnswers s (.proceed h.id reply) = true)
    (hturn : overwrites h.path s (.proceed h.id reply) = false) :
    Orderly s h reply where
  answered := answered_of hh hanswers
  turn hcall e he hconfigured hother := by
    by_contra hunmended
    rw [Bool.not_eq_true] at hunmended
    rw [(overwrites_proceed hh).mpr
      ⟨hcall, e, he, hconfigured, hother, hunmended⟩] at hturn
    cases hturn

/-- Every step that the condition lets pass keeps the forward linked. -/
theorem Step.linked (hstep : Step s action s') (hinv : s.Inv)
    (hdistinct : s.sessionIDs.Nodup) (hreferred : s.Referred)
    (hanswers : mediaAnswers s action = true)
    (hcalls : overwrites path s action = false) (hs : s.Linked path) :
    s'.Linked path := by
  cases hstep with
  | @turn h reply s' hget hturn =>
      have hh : h ∈ s.handlers := Table.mem_of_get? hget
      by_cases hpath : path = h.path
      · subst hpath
        exact hturn.linked hh hinv hdistinct hreferred
          (orderly_of hget hanswers hcalls) hs
      · obtain ⟨hsessions, hforward⟩ := hturn.elsewhere hpath
        obtain ⟨next, hnext, -⟩ := hturn.reads hh
        exact hs.goes hh hnext hsessions hforward
          (fun h => absurd h.symm hpath)
          (fun _ h => absurd h.symm hpath)
          (fun h => absurd h.symm hpath)
  | refused | heartbeats => exact ⟨hs.current, hs.removed⟩
  | @accepted _ path₀ stage hfirst =>
      have hstays : ∀ h ∈ s.handlers, h ∈ (s.accept path₀ stage).handlers :=
        fun h hh => Table.mem_put.mpr
          (Or.inr ⟨hh, Nat.ne_of_lt (hinv.admission.fresh h hh)⟩)
      refine ⟨fun e he hconfigured => ?_, fun hnone hsome => ?_⟩
      · have hbefore : s.configured e = true := by
          refine configured_iff.mpr
            ((configured_iff.mp hconfigured).imp_right ?_)
          rintro ⟨h, hh, hpath, hstage⟩
          rcases Table.mem_put.mp hh with rfl | ⟨hh, -⟩
          · obtain ⟨a, rfl, -⟩ := Stage.confirms_iff.mp hstage
            cases hfirst
          · exact ⟨h, hh, hpath, hstage⟩
        refine (hs.current e he hbefore).imp_right fun hmending => ?_
        obtain ⟨h, hh, hrest⟩ := mending_iff.mp hmending
        exact mending_iff.mpr ⟨h, hstays h hh, hrest⟩
      · obtain ⟨h₀, hh₀, hrest⟩ := hs.removed hnone hsome
        exact ⟨h₀, hstays h₀ hh₀, hrest⟩

/-- What holds along a run in which the sessions granted so far are
distinct. -/
structure Forwarding (path : String) (s : Controller) : Prop where
  inv : s.Inv
  referred : s.sessionIDs.Nodup → s.Referred
  linked : s.sessionIDs.Nodup → s.Linked path

/-- Every step that the condition lets pass keeps the whole invariant of the
path. -/
theorem Forwarding.step (hs : Forwarding path s)
    (hanswers : mediaAnswers s action = true)
    (hcalls : overwrites path s action = false) :
    Forwarding path (s.step action) := by
  have hstep := step_cases s action
  have hbefore : (s.step action).sessionIDs.Nodup → s.sessionIDs.Nodup := by
    intro hdistinct
    obtain ⟨ids, hids⟩ := hstep.sessionIDs
    rw [hids] at hdistinct
    exact hdistinct.of_append_left
  refine ⟨hs.inv.step action, fun hdistinct => ?_, fun hdistinct => ?_⟩
  · exact hstep.referred hs.inv.custody hdistinct
      (hs.referred (hbefore hdistinct))
  · exact hstep.linked hs.inv (hbefore hdistinct)
      (hs.referred (hbefore hdistinct)) hanswers hcalls
      (hs.linked (hbefore hdistinct))

theorem forwarding_start (path : String) : Forwarding path {} where
  inv := inv_start
  referred _ _ h := absurd h Table.not_mem_empty
  linked _ := ⟨fun _ he => absurd he nofun, fun _ h => absurd rfl h⟩

/-- A list that is overwritten stays so until the next hook of the
path. -/
theorem overwritten_after {acts : List Action}
    (hs : s.Overwritten e) (hinv : s.Inv)
    (hanswers : Run.Along Controller.step
      (fun s action => mediaAnswers s action = true) s acts)
    (hhooks : ∀ action ∈ acts, hooks e.path action = false) :
    ∃ e', e'.path = e.path
      ∧ (Run.run Controller.step s acts).Overwritten e' := by
  induction acts generalizing s e with
  | nil => exact ⟨e, rfl, hs⟩
  | cons action acts ih =>
      obtain ⟨e₁, hpath, hs₁⟩ := hs.step hinv.admission hanswers.1
        (hhooks action List.mem_cons_self)
      have hrest : ∀ action' ∈ acts, hooks e₁.path action' = false := by
        intro action' hmem
        rw [hpath]
        exact hhooks action' (List.mem_cons_of_mem _ hmem)
      obtain ⟨e₂, hpath₂, hs₂⟩ :=
        ih hs₁ (hinv.step action) hanswers.2 hrest
      exact ⟨e₂, hpath₂.trans hpath, hs₂⟩

/-- In every run in which the control plane grants distinct sessions and
Configure and Delete succeed, in every state in which no handler of the
path is in flight: where no call of the run was out of turn, a session
that has completed online is forwarded to its own destinations, and a
path without a session is not configured; and where a call was, and no
hook of the path came after it, that is not so. -/
theorem forwards_current (path : String) (actions : List Action)
    (hdistinct : (Controller.after actions).sessionIDs.Nodup)
    (hanswers : Run.Along Controller.step
      (fun s action => mediaAnswers s action = true) {} actions)
    (hquiet : ∀ h ∈ (Controller.after actions).handlers, h.path ≠ path) :
    (Run.Along Controller.step
        (fun s action => overwrites path s action = false) {} actions →
      (Controller.after actions).Forwards path)
    ∧ ∀ earlier action later, actions = earlier ++ action :: later →
      overwrites path (Controller.after earlier) action = true →
      (∀ action' ∈ later, hooks path action' = false) →
        ¬ (Controller.after actions).Forwards path := by
  constructor
  · intro hcalls
    have hrun := (hanswers.and hcalls).preserves (P := Forwarding path)
      (forwarding_start path) (fun s action hs h => hs.step h.1 h.2)
      actions [] (List.append_nil _).symm
    have hlinked : (Controller.after actions).Linked path :=
      hrun.linked hdistinct
    refine ⟨fun e he hcancel => ?_, fun hnone => ?_⟩
    · refine (hlinked.current e he (configured_iff.mpr (Or.inl hcancel))
        ).resolve_right fun hmending => ?_
      obtain ⟨h, hh, hpath, -⟩ := mending_iff.mp hmending
      exact hquiet h hh (hpath.trans (Table.key_of_get? he))
    · by_contra hsome
      obtain ⟨h, hh, hpath, -⟩ := hlinked.removed hnone hsome
      exact hquiet h hh hpath
  · rintro earlier action later rfl hoverwrites hhooks hforwards
    obtain ⟨-, haction, hlater⟩ := Run.along_append.mp hanswers
    have hinv := inv_after earlier
    obtain ⟨e, hkey, hover⟩ :=
      overwritten_of hinv.admission haction hoverwrites
    subst hkey
    obtain ⟨e', hpath, hend⟩ := overwritten_after hover (hinv.step action)
      hlater hhooks
    have hafter : Run.run Controller.step
        ((Controller.after earlier).step action) later
          = Controller.after (earlier ++ action :: later) := by
      unfold Controller.after
      rw [Run.run_append, Run.run_cons]
    rw [hafter] at hend
    -- no handler is left that could still complete online
    have hcancel : e'.cancel.isSome := by
      refine (configured_iff.mp hend.configured).resolve_right ?_
      rintro ⟨h, hh, hpath', -⟩
      exact hquiet h hh (hpath'.trans hpath)
    refine hend.forward ?_
    rw [hpath]
    exact hforwards.current e' (hpath ▸ hend.entry) hcancel

/-- The publisher reconnects with the destinations it had: the Delete of
the first session is made after the second one is stored, and before
that is configured. -/
def reconnect : List Action :=
  admission 0 "first" "rtmp://one.example/app#key"
    ++ [.online ingestExample, .proceed 1 .ok, .proceed 1 .ok,
      .proceed 1 .ok, .proceed 1 .ok, .offline ingestExample,
      .proceed 2 .ok]
    ++ admission 3 "second" "rtmp://one.example/app#key"
    ++ [.proceed 2 .ok, .online ingestExample, .proceed 4 .ok,
      .proceed 4 .ok, .proceed 4 .ok, .proceed 4 .ok, .proceed 2 .ok]

/-- The Configure of a session that is over is slow: offline removes the
session, the next one is authorized and goes online, and only then are
the destinations of the first one configured. -/
def slowConfigure : List Action :=
  admission 0 "first" "rtmp://one.example/app#key"
    ++ [.online ingestExample, .proceed 1 .ok,
      .offline ingestExample, .proceed 2 .ok, .proceed 2 .ok,
      .proceed 2 .ok]
    ++ admission 3 "second" "rtmp://two.example/app#key"
    ++ [.online ingestExample, .proceed 4 .ok, .proceed 4 .ok,
      .proceed 4 .ok, .proceed 4 .ok, .proceed 1 .ok, .proceed 1 .ok]

/-- A reconnect that meets the condition, and a late Configure that does
not. -/
theorem forwards_current_reconnect :
    (Controller.after reconnect).forward ingestExample
        = some ["rtmp://one.example/app#key"]
      ∧ (Controller.after reconnect).Forwards ingestExample
      ∧ ¬ (Controller.after slowConfigure).Forwards ingestExample :=
  ⟨by decide,
    (forwards_current ingestExample reconnect (by decide) (by decide)
      (by decide)).1 (by decide),
    (forwards_current ingestExample slowConfigure (by decide) (by decide)
      (by decide)).2 (slowConfigure.take 23) (.proceed 1 .ok)
        [.proceed 1 .ok] (by decide) (by decide) (by decide)⟩

/-- The second session is live, no handler is in flight, and the stream
is forwarded to the destinations of the first. -/
theorem forwards_stale :
    (Controller.after slowConfigure).sessionIDs.Nodup
      ∧ Run.Along Controller.step
        (fun s action => mediaAnswers s action = true) {} slowConfigure
      ∧ (Controller.after slowConfigure).handlers.rows = []
      ∧ ((Controller.after slowConfigure).sessions.get? ingestExample).map
          ActiveSession.sessionID = some "second"
      ∧ (Controller.after slowConfigure).forward ingestExample
        = some ["rtmp://one.example/app#key"]
      ∧ ¬ (Controller.after slowConfigure).Forwards ingestExample := by
  decide

end StreamBrew.Restream
