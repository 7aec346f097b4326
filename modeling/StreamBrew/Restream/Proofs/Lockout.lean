/-
Who sees to the removal of a session.

A session is removed by the offline hook only, or where its
configuration fails, and the hook is called only for a publisher that
has made the path available. So a publisher that leaves after its
session is stored and before the path is available to it leaves the
session behind, and every later authorization of the path is refused.

As long as no publisher does that (`Node.stays`), every session is
attended: somebody is there whose hook will remove it, or the hook has
been called. With nobody connected and no handler in flight there is
then no session, and by `Admission` nothing is pending.
-/
import StreamBrew.Restream.Publishers
import StreamBrew.Restream.Proofs.Forwards

namespace StreamBrew.Restream

open Relational

variable {p : Publisher} {path : String}

variable {n : Node} {s s' : Controller} {h : Handler} {reply : Reply}

-- ================================== attended

theorem attended_iff :
    n.attended path = true ↔
      (∃ p ∈ n.publishers, p.path = path
        ∧ (p.stage = .available ∨ n.letIn p = true))
      ∨ ∃ h ∈ n.controller.handlers, h.path = path
        ∧ h.stage = .remove := by
  unfold Node.attended
  simp only [Bool.or_eq_true, List.any_eq_true, Bool.and_eq_true,
    decide_eq_true_eq, Table.mem_def]

/-- A publisher is let in when its request was answered with 204 or is about
to be. -/
theorem letIn_iff :
    n.letIn p = true ↔ .responded p.id 204 ∈ n.controller.log
      ∨ ∃ h ∈ n.controller.handlers, h.id = p.id
        ∧ h.stage = .unpend 204 := by
  unfold Node.letIn
  rw [Bool.or_eq_true, decide_eq_true_eq]
  refine or_congr Iff.rfl ?_
  cases hget : n.controller.handlers.get? p.id with
  | none =>
      refine ⟨fun h => absurd h nofun, ?_⟩
      rintro ⟨h, hh, hid, -⟩
      exact absurd hid (Table.get?_eq_none.mp hget h hh)
  | some h₀ =>
      obtain ⟨hh₀, hid₀⟩ := Table.get?_eq_some.mp hget
      rw [Option.any_some, decide_eq_true_eq]
      constructor
      · exact fun hstage => ⟨h₀, hh₀, hid₀, hstage⟩
      · rintro ⟨h, hh, hid, hstage⟩
        rw [Table.eq_of_key hh₀ hh (hid₀.trans hid.symm)]
        exact hstage

/-- A handler that leaves `pending` responds. -/
theorem Turn.of_unpend (hturn : Turn s h reply s') {status : Nat}
    (hstage : h.stage = .unpend status) :
    .responded h.id status ∈ s'.log := by
  cases hturn with
  | unpended hstage' =>
      rw [hstage] at hstage'
      cases hstage'
      exact List.mem_append_right _ (List.mem_singleton.mpr rfl)
  | _ => simp_all only [reduceCtorEq]

/-- A handler that stores its session will respond 204. -/
theorem Turn.of_store (hturn : Turn s h reply s') {a : Authorization}
    (hstage : h.stage = .store a) :
    { h with stage := .unpend 204 } ∈ s'.handlers := by
  cases hturn with
  | stored => exact Table.mem_put_self
  | _ => simp_all only [reduceCtorEq]

/-- After offline has looked, the path has no session. -/
theorem Turn.of_remove (hturn : Turn s h reply s')
    (hstage : h.stage = .remove) : s'.sessions.get? h.path = none := by
  cases hturn with
  | nothing _ hnone => exact hnone
  | @removed e _ he =>
      have hkey : h.path = e.path := (Table.key_of_get? he).symm
      show (s.sessions.erase e.path).get? h.path = none
      rw [Table.get?_erase, if_pos hkey]
  | _ => simp_all only [reduceCtorEq]

/-- An entry was there, or is stored by this turn. -/
theorem Turn.entries (hturn : Turn s h reply s') {e : ActiveSession}
    (he : e ∈ s'.sessions) :
    (∃ e₀ ∈ s.sessions, e₀.path = e.path)
      ∨ ∃ a, h.stage = .store a ∧ e.path = h.path := by
  cases hturn with
  | stored hstage =>
      rcases Table.mem_put.mp he with rfl | ⟨he, -⟩
      · exact Or.inr ⟨_, hstage, rfl⟩
      · exact Or.inl ⟨e, he, rfl⟩
  | @confirmed a e₀ hstage he₀ =>
      rcases Table.mem_put.mp he with rfl | ⟨he, -⟩
      · exact Or.inl ⟨e₀, Table.mem_of_get? he₀, rfl⟩
      · exact Or.inl ⟨e, he, rfl⟩
  | abandoned | removed =>
      exact Or.inl ⟨e, (Table.mem_erase.mp he).1, rfl⟩
  | deleted | cleaned =>
      obtain ⟨media, hmedia⟩ := deleteMedia_eq s h.path reply
      rw [hmedia] at he
      exact Or.inl ⟨e, he, rfl⟩
  | _ => exact Or.inl ⟨e, he, rfl⟩

/-- What is responded stays responded, and a handler that is to respond
204 does. -/
theorem Turn.letIn (hturn : Turn n.controller h reply s')
    (hh : h ∈ n.controller.handlers) (hp : n.letIn p = true) :
    ({ n with controller := s' } : Node).letIn p = true := by
  obtain ⟨events, hlog, -⟩ := hturn.calls
  obtain ⟨next, hnext, -⟩ := hturn.reads hh
  rw [letIn_iff] at hp ⊢
  rcases hp with hlogged | ⟨h₀, hh₀, hid, hstage⟩
  · refine Or.inl ?_
    show Event.responded p.id 204 ∈ s'.log
    rw [hlog]
    exact List.mem_append_left _ hlogged
  · by_cases hsame : h₀ = h
    · subst hsame
      exact Or.inl (hid ▸ hturn.of_unpend hstage)
    · exact Or.inr ⟨h₀, hnext.stay h₀ hh₀ hsame, hid, hstage⟩

/-- An attended path stays so in a turn, unless the turn is that of its
offline handler. -/
theorem Turn.attended (hturn : Turn n.controller h reply s')
    (hh : h ∈ n.controller.handlers)
    (hother : h.stage = .remove → h.path ≠ path)
    (hp : n.attended path = true) :
    ({ n with controller := s' } : Node).attended path = true := by
  obtain ⟨next, hnext, -⟩ := hturn.reads hh
  rw [attended_iff] at hp ⊢
  rcases hp with ⟨p, hp, hpath, hstage⟩ | ⟨h₀, hh₀, hpath, hstage⟩
  · exact Or.inl ⟨p, hp, hpath, hstage.imp id (hturn.letIn hh)⟩
  · refine Or.inr ⟨h₀, hnext.stay h₀ hh₀ ?_, hpath, hstage⟩
    rintro rfl
    exact hother hstage hpath

-- ================================= invariant

/-- Handlers and sessions have ingest paths only. -/
structure Node.Inv (n : Node) : Prop where
  admission : n.controller.Admission
  handlerPaths : ∀ h ∈ n.controller.handlers,
    ingestPathPattern h.path = true
  entryPaths : ∀ e ∈ n.controller.sessions,
    ingestPathPattern e.path = true
  fresh : ∀ p ∈ n.publishers, p.id < n.controller.requests
  own : ∀ p ∈ n.publishers, ∀ h ∈ n.controller.handlers, h.id = p.id →
    h.path = p.path
  attended : ∀ e ∈ n.controller.sessions, n.attended e.path = true

/-- The handler of a turn goes on with its id and its path. -/
theorem Turn.handler (hturn : Turn s h reply s') (hh : h ∈ s.handlers)
    {h' : Handler} (hh' : h' ∈ s'.handlers) :
    ∃ h₀ ∈ s.handlers, h₀.id = h'.id ∧ h₀.path = h'.path := by
  obtain ⟨next, hnext, -⟩ := hturn.reads hh
  rcases hnext.mem h' hh' with ⟨stage, -, rfl⟩ | hh'
  · exact ⟨h, hh, rfl, rfl⟩
  · exact ⟨h', hh', rfl, rfl⟩

theorem Turn.requests (hturn : Turn s h reply s') :
    s'.requests = s.requests := by
  cases hturn with
  | deleted | cleaned =>
      obtain ⟨media, hmedia⟩ := deleteMedia_eq s h.path reply
      rw [hmedia]
      rfl
  | _ => rfl

/-- A handler's turn keeps the invariant, where the condition lets it pass. -/
theorem Node.Inv.turn (hn : n.Inv)
    (hget : n.controller.handlers.get? h.id = some h)
    (hturn : Turn n.controller h reply s')
    (hstays : n.stays (.proceed h.id reply) = true) :
    ({ n with controller := s' } : Node).Inv := by
  have hh : h ∈ n.controller.handlers := Table.mem_of_get? hget
  refine ⟨hturn.admission hh hn.admission, fun h' hh' => ?_, fun e he => ?_,
    fun p hp => ?_, fun p hp h' hh' hid => ?_, fun e he => ?_⟩
  · obtain ⟨h₀, hh₀, -, hpath⟩ := hturn.handler hh hh'
    exact hpath ▸ hn.handlerPaths h₀ hh₀
  · rcases hturn.entries he with ⟨e₀, he₀, hpath⟩ | ⟨a, -, hpath⟩
    · exact hpath ▸ hn.entryPaths e₀ he₀
    · exact hpath ▸ hn.handlerPaths h hh
  · show p.id < s'.requests
    rw [hturn.requests]
    exact hn.fresh p hp
  · obtain ⟨h₀, hh₀, hid₀, hpath⟩ := hturn.handler hh hh'
    rw [← hpath]
    exact hn.own p hp h₀ hh₀ (hid₀.trans hid)
  · have hkept : n.attended e.path = true →
        ({ n with controller := s' } : Node).attended e.path = true := by
      refine hturn.attended hh fun hstage hpath => ?_
      have hnone := hturn.of_remove hstage
      rw [hpath] at hnone
      exact Table.get?_eq_none.mp hnone e he rfl
    rcases hturn.entries he with ⟨e₀, he₀, hpath⟩ | ⟨a, hstage, hpath⟩
    · exact hkept (hpath ▸ hn.attended e₀ he₀)
    · -- the publisher of a stored session is there, or somebody else is
      unfold Node.stays at hstays
      simp only [hget, Option.all_some, hstage, Bool.or_eq_true] at hstays
      rcases hstays with hpublisher | hattended
      · obtain ⟨p, hp⟩ := Option.isSome_iff_exists.mp hpublisher
        obtain ⟨hp, hid⟩ := Table.get?_eq_some.mp hp
        refine attended_iff.mpr (Or.inl ⟨p, hp, ?_, Or.inr ?_⟩)
        · rw [hpath]
          exact (hn.own p hp h hh hid.symm).symm
        · exact letIn_iff.mpr (Or.inr ⟨_, hturn.of_store hstage, hid.symm,
            rfl⟩)
      · exact hkept (hpath ▸ hattended)

/-- A request of the media server, and publishers that are there or
new. -/
theorem Node.Inv.accepted (hn : n.Inv) {stage : Stage}
    (hfirst : stage.first = true) (hpath : ingestPathPattern path = true) :
    ({ n with controller := n.controller.accept path stage } : Node).Inv := by
  have hfree : ∀ h ∈ n.controller.handlers, h.id ≠ n.controller.requests :=
    fun h hh => Nat.ne_of_lt (hn.admission.fresh h hh)
  have hstay : ∀ h ∈ n.controller.handlers,
      h ∈ (n.controller.accept path stage).handlers := fun h hh =>
    Table.mem_put.mpr (Or.inr ⟨hh, hfree h hh⟩)
  refine ⟨hn.admission.accepted hfirst, fun h hh => ?_, hn.entryPaths,
    fun p hp => Nat.lt_succ_of_lt (hn.fresh p hp), fun p hp h hh hid => ?_,
    fun e he => ?_⟩
  · rcases Table.mem_put.mp hh with rfl | ⟨hh, -⟩
    · exact hpath
    · exact hn.handlerPaths h hh
  · rcases Table.mem_put.mp hh with rfl | ⟨hh, -⟩
    · exact absurd hid (Nat.ne_of_lt (hn.fresh p hp)).symm
    · exact hn.own p hp h hh hid
  · rcases attended_iff.mp (hn.attended e he) with
      ⟨p, hp, hpath, hstage⟩ | ⟨h₀, hh₀, hpath, hstage⟩
    · refine attended_iff.mpr (Or.inl ⟨p, hp, hpath, hstage.imp id ?_⟩)
      rw [letIn_iff, letIn_iff]
      rintro (hlogged | ⟨h₀, hh₀, hrest⟩)
      · exact Or.inl hlogged
      · exact Or.inr ⟨h₀, hstay h₀ hh₀, hrest⟩
    · exact attended_iff.mpr (Or.inr ⟨h₀, hstay h₀ hh₀, hpath, hstage⟩)

/-- A refused request keeps the invariant. -/
theorem Node.Inv.refused (hn : n.Inv) (status : Nat) :
    ({ n with controller := n.controller.refuse status } : Node).Inv := by
  refine ⟨⟨fun h hh => Nat.lt_succ_of_lt (hn.admission.fresh h hh),
      hn.admission.pending, hn.admission.vacant⟩, hn.handlerPaths,
    hn.entryPaths, fun p hp => Nat.lt_succ_of_lt (hn.fresh p hp), hn.own,
    fun e he => ?_⟩
  rcases attended_iff.mp (hn.attended e he) with
    ⟨p, hp, hpath, hstage⟩ | hremove
  · refine attended_iff.mpr (Or.inl ⟨p, hp, hpath, hstage.imp id ?_⟩)
    rw [letIn_iff, letIn_iff]
    exact Or.imp (List.mem_append_left _) id
  · exact attended_iff.mpr (Or.inr hremove)

theorem Node.Inv.hook (hn : n.Inv) (path : String) (stage : Stage)
    (hfirst : stage.first = true) :
    ({ n with controller := n.controller.hook path stage } : Node).Inv := by
  unfold Controller.hook
  split
  case isTrue hpath => exact hn.accepted hfirst hpath
  case isFalse => exact hn.refused 400

theorem hook_sessions (s : Controller) (path : String) (stage : Stage) :
    (s.hook path stage).sessions = s.sessions := by
  unfold Controller.hook
  split
  case isTrue => rfl
  case isFalse => rfl

/-- Other publishers, where every session is still attended. -/
theorem Node.Inv.publishers (hn : n.Inv) {publishers : Table Publisher.id}
    (hpublishers : ∀ p ∈ publishers, p.id < n.controller.requests
      ∧ ∀ h ∈ n.controller.handlers, h.id = p.id → h.path = p.path)
    (hattended : ∀ e ∈ n.controller.sessions,
      ({ n with publishers } : Node).attended e.path = true) :
    ({ n with publishers } : Node).Inv :=
  ⟨hn.admission, hn.handlerPaths, hn.entryPaths,
    fun p hp => (hpublishers p hp).1, fun p hp => (hpublishers p hp).2,
    hattended⟩

-- ================================ publishers

/-- A path stays attended where the publishers who attend it stay. -/
theorem attended_publishers {publishers : Table Publisher.id}
    (hstay : ∀ p ∈ n.publishers, p.path = path →
      (p.stage = .available ∨ n.letIn p = true) →
      ∃ p' ∈ publishers, p'.id = p.id ∧ p'.path = p.path
        ∧ (p.stage = .available → p'.stage = .available))
    (hp : n.attended path = true) :
    ({ n with publishers } : Node).attended path = true := by
  rw [attended_iff] at hp ⊢
  rcases hp with ⟨p, hp, hpath, hstage⟩ | hremove
  · obtain ⟨p', hp', hid, hpath', hstage'⟩ := hstay p hp hpath hstage
    refine Or.inl ⟨p', hp', hpath'.trans hpath, hstage.imp hstage' ?_⟩
    rw [letIn_iff, letIn_iff, hid]
    exact id
  · exact Or.inr hremove

/-- A publisher that did not attend the path goes. -/
theorem attended_erase (hp : p ∈ n.publishers)
    (hother : p.path = path → p.stage ≠ .available ∧ n.letIn p = false)
    (hattended : n.attended path = true) :
    ({ n with publishers := n.publishers.erase p.id } : Node).attended path
      = true := by
  refine attended_publishers (fun p' hp' hpath hstage => ?_) hattended
  refine ⟨p', Table.mem_erase.mpr ⟨hp', fun hid => ?_⟩, rfl, rfl, id⟩
  obtain rfl := Table.eq_of_key hp hp' hid.symm
  obtain ⟨hunavailable, hout⟩ := hother hpath
  rcases hstage with hstage | hin
  · exact hunavailable hstage
  · rw [hout] at hin
    cases hin

/-- A publisher goes on. -/
theorem attended_put (hp : p ∈ n.publishers)
    {stage : PublisherStage} (hstage : p.stage ≠ .available)
    (hattended : n.attended path = true) :
    ({ n with
      publishers := n.publishers.put { p with stage } } : Node).attended path
      = true := by
  refine attended_publishers (fun p' hp' _ _ => ?_) hattended
  by_cases hid : p'.id = p.id
  · obtain rfl := Table.eq_of_key hp hp' hid.symm
    exact ⟨_, Table.mem_put_self, rfl, rfl, fun h => absurd h hstage⟩
  · exact ⟨p', Table.mem_put.mpr (Or.inr ⟨hp', hid⟩), rfl, rfl, id⟩

theorem Node.Inv.put (hn : n.Inv) (hp : p ∈ n.publishers)
    {stage : PublisherStage} (hstage : p.stage ≠ .available) :
    ({ n with
      publishers := n.publishers.put { p with stage } } : Node).Inv := by
  refine hn.publishers (fun p' hp' => ?_) fun e he =>
    attended_put hp hstage (hn.attended e he)
  rcases Table.mem_put.mp hp' with rfl | ⟨hp', -⟩
  · exact ⟨hn.fresh p hp, hn.own p hp⟩
  · exact ⟨hn.fresh p' hp', hn.own p' hp'⟩

theorem Node.Inv.erase (hn : n.Inv)
    (hattended : ∀ e ∈ n.controller.sessions,
      ({ n with publishers := n.publishers.erase p.id } : Node).attended
        e.path = true) :
    ({ n with publishers := n.publishers.erase p.id } : Node).Inv :=
  hn.publishers (fun p' hp' =>
    have hp' := (Table.mem_erase.mp hp').1
    ⟨hn.fresh p' hp', hn.own p' hp'⟩) hattended

-- ===================================== steps

/-- An attempt to publish keeps the invariant. -/
theorem Node.Inv.attempt (hn : n.Inv) (request : AuthRequest) :
    (n.attempt request).Inv := by
  have hnew : ∀ publishers, publishers = n.publishers.put
        { id := n.controller.requests, path := request.path } →
      ∀ s, ({ n with controller := s } : Node).Inv →
      s.requests = n.controller.requests + 1 →
      (∀ h ∈ s.handlers, h.id = n.controller.requests →
        h.path = request.path) →
      ({ controller := s, publishers } : Node).Inv := by
    rintro _ rfl s hs hrequests hown
    refine hs.publishers (fun p hp => ?_) fun e he =>
      attended_publishers (fun p hp _ _ => ?_) (hs.attended e he)
    · rcases Table.mem_put.mp hp with rfl | ⟨hp, -⟩
      · exact ⟨hrequests ▸ Nat.lt_succ_self _, hown⟩
      · exact ⟨hs.fresh p hp, hs.own p hp⟩
    · exact ⟨p, Table.mem_put.mpr (Or.inr ⟨hp,
        Nat.ne_of_lt (hn.fresh p hp)⟩), rfl, rfl, id⟩
  have hfresh : ∀ h ∈ n.controller.handlers, h.id ≠ n.controller.requests :=
    fun h hh => Nat.ne_of_lt (hn.admission.fresh h hh)
  unfold Node.attempt Node.control Controller.step
  simp only
  split
  case isTrue =>
    exact hnew _ rfl _ (hn.refused 403) rfl fun h hh hid =>
      absurd hid (hfresh h hh)
  case isFalse hallowed =>
    have hpath : ingestPathPattern request.path = true := by
      unfold AuthRequest.forbidden at hallowed
      simp only [Bool.or_eq_true, not_or, Bool.not_eq_true',
        Bool.not_eq_false] at hallowed
      exact hallowed.2
    refine hnew _ rfl _ (hn.accepted rfl hpath) rfl fun h hh hid => ?_
    rcases Table.mem_put.mp hh with rfl | ⟨hh, -⟩
    · rfl
    · exact absurd hid (hfresh h hh)

theorem Node.Inv.answered (hn : n.Inv)
    (hp : p ∈ n.publishers) : (n.answered p).Inv := by
  unfold Node.answered
  split
  case isFalse => exact hn
  case isTrue hanswer =>
    obtain ⟨hstage, hnone⟩ := hanswer
    have hunavailable : p.stage ≠ .available := by
      rw [hstage]
      decide
    split
    case isTrue => exact hn.put hp hunavailable
    case isFalse hlog =>
      refine hn.erase fun e he => attended_erase hp (fun _ =>
        ⟨hunavailable, ?_⟩) (hn.attended e he)
      unfold Node.letIn
      rw [Option.isNone_iff_eq_none.mp hnone, decide_eq_false hlog]
      rfl

theorem Node.Inv.ready (hn : n.Inv) (hp : p ∈ n.publishers) :
    (n.ready p).Inv := by
  unfold Node.ready
  split
  case isFalse => exact hn
  case isTrue hready =>
    refine (hn.hook p.path .find rfl).put hp ?_
    rw [hready.1]
    decide

/-- A publisher that leaves keeps the invariant, where the condition lets it
pass. -/
theorem Node.Inv.leave (hn : n.Inv)
    (hp : p ∈ n.publishers) (hget : n.publishers.get? p.id = some p)
    (hstays : n.stays (.leave p.id) = true) : (n.leave p).Inv := by
  unfold Node.leave
  simp only
  split
  case isTrue havailable =>
    refine (hn.hook p.path .remove rfl).erase
      fun e he => ?_
    by_cases hpath : p.path = e.path
    · -- the call of offline attends the path from now on
      refine attended_iff.mpr (Or.inr
        ⟨{ id := n.controller.requests, path := p.path, stage := .remove },
          ?_, hpath, rfl⟩)
      rw [hook_sessions] at he
      unfold Controller.hook
      rw [if_pos (hpath ▸ hn.entryPaths e he)]
      exact Table.mem_put_self
    · have hhook := hn.hook p.path .remove rfl
      exact attended_erase (n := { n with
        controller := n.controller.hook p.path .remove }) hp
        (fun h => absurd h hpath) (hhook.attended e he)
  case isFalse hunavailable =>
    refine hn.erase fun e he => ?_
    unfold Node.stays at hstays
    simp only [hget, Option.all_some, Bool.or_eq_true, decide_eq_true_eq,
      Bool.not_eq_true', Option.isNone_iff_eq_none] at hstays
    by_cases hpath : p.path = e.path
    · rcases hstays with ((havailable | hout) | hnone) | hattended
      · exact absurd havailable hunavailable
      · exact attended_erase hp (fun _ => ⟨hunavailable, hout⟩)
          (hn.attended e he)
      · exact absurd hpath.symm (Table.get?_eq_none.mp hnone e he)
      · exact hpath ▸ hattended
    · exact attended_erase hp (fun h => absurd h hpath) (hn.attended e he)

/-- Rounds of heartbeats change neither sessions nor handlers. -/
theorem Node.Inv.heartbeats (hn : n.Inv) {log : List Event}
    {loops : Table HeartbeatLoop.id}
    (hlog : ∀ e ∈ n.controller.log, e ∈ log) :
    ({ n with controller := { n.controller with loops, log } } : Node).Inv := by
  refine ⟨⟨hn.admission.fresh, hn.admission.pending, hn.admission.vacant⟩,
    hn.handlerPaths, hn.entryPaths, hn.fresh, hn.own, fun e he => ?_⟩
  rcases attended_iff.mp (hn.attended e he) with
    ⟨p, hp, hpath, hstage⟩ | hremove
  · refine attended_iff.mpr (Or.inl ⟨p, hp, hpath, hstage.imp id ?_⟩)
    rw [letIn_iff, letIn_iff]
    exact Or.imp (hlog _) id
  · exact attended_iff.mpr (Or.inr hremove)

theorem Node.Inv.beat (hn : n.Inv) (l : HeartbeatLoop) (beat : Beat) :
    ({ n with controller := n.controller.beat l beat } : Node).Inv := by
  unfold Controller.beat
  simp only
  split
  case isTrue => exact hn.heartbeats fun _ he => List.mem_append_left _ he
  case isFalse => exact hn.heartbeats fun _ he => List.mem_append_left _ he

/-- Every step that the condition lets pass keeps the invariant. -/
theorem Node.Inv.step (hn : n.Inv) {action : NodeAction}
    (hstays : n.stays action = true) : (n.step action).Inv := by
  cases action with
  | attempt request => exact hn.attempt request
  | answered id =>
      unfold Node.step Node.publisher
      simp only
      split
      case h_1 => exact hn
      case h_2 p hp => exact hn.answered (Table.mem_of_get? hp)
  | ready id =>
      unfold Node.step Node.publisher
      simp only
      split
      case h_1 => exact hn
      case h_2 p hp => exact hn.ready (Table.mem_of_get? hp)
  | leave id =>
      unfold Node.step Node.publisher
      simp only
      split
      case h_1 => exact hn
      case h_2 p hp =>
        obtain rfl := Table.key_of_get? hp
        exact hn.leave (Table.mem_of_get? hp) hp hstays
  | proceed id reply =>
      show (n.control (.proceed id reply)).Inv
      unfold Node.control Controller.step
      simp only
      split
      case h_1 => exact hn
      case h_2 h hh =>
        obtain rfl := Table.key_of_get? hh
        exact hn.turn hh (proceed_turn n.controller h reply) hstays
  | beat id beat =>
      show (n.control (.beat id beat)).Inv
      unfold Node.control Controller.step
      simp only
      split
      case h_1 => exact hn
      case h_2 l hl =>
        split
        case isTrue => exact hn.beat l beat
        case isFalse => exact hn
  | done id =>
      show (n.control (.done id)).Inv
      unfold Node.control Controller.step
      simp only
      split
      case h_1 => exact hn
      case h_2 l hl =>
        split
        case isTrue => exact hn.heartbeats fun _ he => he
        case isFalse => exact hn

theorem node_start : ({} : Node).Inv where
  admission := inv_start.admission
  handlerPaths _ h := absurd h Table.not_mem_empty
  entryPaths _ h := absurd h Table.not_mem_empty
  fresh _ h := absurd h Table.not_mem_empty
  own _ h := absurd h Table.not_mem_empty
  attended _ h := absurd h Table.not_mem_empty

-- =================================== lockout

/-- Nobody is connected to the path, and no handler of it in flight. -/
def Node.idle (n : Node) (path : String) : Bool :=
  n.publishers.rows.all (fun p => p.path != path)
    && n.controller.handlers.rows.all fun h => h.path != path

/-- A path that is idle has no session, and is not pending. -/
theorem Node.Inv.vacant (hn : n.Inv) (hidle : n.idle path = true) :
    n.controller.sessions.get? path = none
      ∧ path ∉ n.controller.pending := by
  unfold Node.idle at hidle
  simp only [Bool.and_eq_true, List.all_eq_true, bne_iff_ne] at hidle
  obtain ⟨hpublishers, hhandlers⟩ := hidle
  constructor
  · refine Table.get?_eq_none.mpr fun e he hpath => ?_
    rcases attended_iff.mp (hn.attended e he) with
      ⟨p, hp, hp', -⟩ | ⟨h, hh, hh', -⟩
    · exact hpublishers p hp (hp'.trans hpath)
    · exact hhandlers h hh (hh'.trans hpath)
  · intro hpending
    have hcount := hn.admission.pending path
    rw [if_pos hpending] at hcount
    obtain ⟨h, hh, -, hpath⟩ :=
      Table.exists_of_count_pos (hcount ▸ Nat.one_pos)
    exact hhandlers h hh hpath

/-- The next authorization of the path is passed on: its handler is at
the call of the control plane. -/
def Node.passes (n : Node) (request : AuthRequest) (reply : Reply) :
    Prop :=
  ((n.step (.attempt request)).step
      (.proceed n.controller.requests reply)).controller.handlers.get?
        n.controller.requests
    = some { id := n.controller.requests, path := request.path
             stage := .authorize request.id }

instance (n : Node) (request : AuthRequest) (reply : Reply) :
    Decidable (n.passes request reply) :=
  inferInstanceAs (Decidable (_ = _))

/-- On an idle path an allowed request is let through. -/
theorem Node.Inv.passes (hn : n.Inv) {request : AuthRequest}
    (hallowed : request.forbidden = false)
    (hidle : n.idle request.path = true) (reply : Reply) :
    n.passes request reply := by
  obtain ⟨hvacant, hpending⟩ := hn.vacant hidle
  have haccept : (n.step (.attempt request)).controller
      = n.controller.accept request.path (.enter request.id) := by
    unfold Node.step Node.attempt Node.control Controller.step
    simp only [hallowed]
    rfl
  have hhandler : (n.controller.accept request.path
      (.enter request.id)).handlers.get? n.controller.requests
        = some { id := n.controller.requests, path := request.path
                 stage := .enter request.id } := by
    show (n.controller.handlers.put _).get? _ = _
    rw [Table.get?_put, if_pos rfl]
  have hfree : ¬ ((n.controller.sessions.get? request.path).isSome
      ∨ request.path ∈ n.controller.pending) := by
    rw [hvacant, not_or]
    exact ⟨nofun, hpending⟩
  unfold Node.passes
  show ((n.step (.attempt request)).controller.step
    (.proceed n.controller.requests reply)).handlers.get? _ = _
  rw [haccept]
  unfold Controller.step
  simp only [hhandler]
  show (Controller.enter _ _ request.id).handlers.get? _ = _
  unfold Controller.enter
  split
  case isTrue hbusy => exact absurd hbusy hfree
  case isFalse =>
    show (Table.put _ _).get? _ = _
    rw [Table.get?_put, if_pos rfl]

/-- In every run of the node in which no publisher leaves its session
behind (`Node.stays`): when nobody is connected to a path and no handler
of it is in flight, the next authorization of the path is passed to the
control plane. -/
theorem never_locked_out (actions : List NodeAction)
    (hstays : Run.Along Node.step (fun n action => n.stays action = true) {}
      actions) (request : AuthRequest)
    (hallowed : request.forbidden = false)
    (hidle : (Node.after actions).idle request.path = true)
    (reply : Reply) : (Node.after actions).passes request reply := by
  have hrun := hstays.preserves (P := Node.Inv) node_start
    (fun n action hn h => hn.step h) actions [] (List.append_nil _).symm
  exact hrun.passes hallowed hidle reply

/-- A request to publish that is accepted. -/
def publishRequest : AuthRequest :=
  { action := "publish", protocol := "rtmp", id := "encoder"
    path := ingestExample }

/-- A publisher is authorized, and its session is stored. -/
def letInFirst : List NodeAction :=
  [.attempt publishRequest, .proceed 0 .ok,
    .proceed 0 (.granted
      { sessionID := "first"
        destinations :=
          [{ id := "d", targetURL := "rtmp://one.example/app#key" }] }),
    .proceed 0 .ok, .proceed 0 .ok, .proceed 0 .ok]

/-- It makes the path available and leaves, and both hooks are run to
their end. -/
def visit : List NodeAction :=
  letInFirst ++ [.answered 0, .ready 0, .proceed 1 .ok, .proceed 1 .ok,
    .proceed 1 .ok, .proceed 1 .ok, .leave 0, .proceed 2 .ok, .proceed 2 .ok,
    .proceed 2 .ok]

/-- A publisher that came, published and left can come back. -/
theorem never_locked_out_visit :
    publishRequest.forbidden = false
      ∧ (Node.after visit).idle ingestExample = true
      ∧ (Node.after visit).passes publishRequest .ok :=
  ⟨by decide, by decide,
    never_locked_out visit (by decide) publishRequest (by decide) (by decide)
      .ok⟩

/-- It leaves before the path is available to it: no hook is called, and
the next authorization of the path is refused. -/
theorem locked_out :
    (Node.after (letInFirst ++ [.answered 0, .leave 0])).idle ingestExample
        = true
      ∧ publishRequest.forbidden = false
      ∧ ¬ (Node.after (letInFirst ++ [.answered 0, .leave 0])).passes
        publishRequest .ok
      ∧ Event.responded 1 409 ∈
        (Node.after (letInFirst ++ [.answered 0, .leave 0,
          .attempt publishRequest, .proceed 1 .ok])).controller.log := by
  decide

end StreamBrew.Restream
