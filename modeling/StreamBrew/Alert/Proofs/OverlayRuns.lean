/-
The commits of an overlay page, and its runs.

# Layers

- `Replaced`, `Invalidated`, `sourced`: the ways in which a handler may
  change what the effects depend on. For each there is what the effects
  then do, and that the page is still live.
- `Page.step`: each input is one of these, or quiet.
- Runs.
-/
import StreamBrew.Alert.Proofs.Overlay

namespace StreamBrew.Alert.Overlay

variable {signals : AlertSourceSignals} {identity : OpenedPlayer}

variable {p q : Page} {old new : View}

-- =================================== commits

namespace Page

theorem release_claims (h : new.canClaim = true) (p : Page) :
    useReleaseInactiveClaim old new p = p :=
  if_pos (.inr (.inl h))

theorem release_none (h : new.identity = none) (p : Page) :
    useReleaseInactiveClaim old new p = p :=
  if_pos (.inr (.inr h))

theorem open_same (h : old.canClaim = new.canClaim)
    (hcycle : old.openCycle = new.openCycle) (p : Page) :
    useOpenAlertOverlay old new p = p :=
  if_pos ⟨h, hcycle⟩

theorem stream_off (h : ¬ new.Presents)
    (hchanged : ¬ (old.canClaim = new.canClaim
      ∧ old.identity = new.identity)) (p : Page) :
    useAlertEventStream old new p = { p with stream := none } := by
  unfold useAlertEventStream
  rw [if_neg hchanged]
  split
  case h_1 => rfl
  case h_2 identity hidentity =>
    refine if_neg fun hactive => h ⟨?_, hactive.2⟩
    rw [hidentity]
    exact hactive.1

theorem heartbeat_none (h : new.identity = none) (p : Page)
    (hbeat : old.identity = none → p.heartbeat = none) :
    useAlertHeartbeat old new p = { p with heartbeat := none } := by
  unfold useAlertHeartbeat
  split
  case isTrue hsame =>
    have hnone : p.heartbeat = none := hbeat (hsame.1.trans h)
    rw [← hnone]
  case isFalse =>
    rw [h]

theorem effects_self (v : View) (p : Page) : p.effects v v = p := by
  simp [effects, useReleaseInactiveClaim, useOpenAlertOverlay,
    useAlertEventStream, useAlertHeartbeat, useAlertPlayerPresentation]

/-- No effect runs after a handler that changes nothing they depend on. -/
theorem commit_of_view (h : p.view = old) : p.commit old = p := by
  subst h
  unfold commit
  simp only [effects_self]

/-- The effects set no state that others depend on. -/
theorem commit_eq {result : Page} (h : p.effects old p.view = result)
    (hview : result.view = p.view) : p.commit old = result := by
  unfold commit
  simp only [h, hview, effects_self]

theorem interrupt_calm (identity : Option OpenedPlayer)
    (presentation : Option Presentation) (p : Page) :
    Calm p (interrupt identity presentation p) := by
  have hsame : Calm p p := ⟨Kept.refl p, rfl, rfl, rfl, .inl rfl⟩
  unfold interrupt
  split
  case h_1 => exact hsame
  case h_2 run =>
    split
    case isTrue => exact (finishPresentation_calm identity run _ p).1
    case isFalse => exact hsame

/-- It ends nothing but the presentation itself. -/
theorem interrupt_ended (identity : Option OpenedPlayer)
    (presentation : Option Presentation) (p : Page) :
    ∀ o ∈ (interrupt identity presentation p).ended.map Prod.fst,
      o ∈ p.ended.map Prod.fst ∨ ∃ run ∈ presentation, run.object = o
        ∧ run.phase.interruptible = true := by
  unfold interrupt
  split
  case h_1 => exact fun o ho => .inl ho
  case h_2 run =>
    split
    case isFalse => exact fun o ho => .inl ho
    case isTrue hopen =>
      intro o ho
      rw [(finishPresentation_calm identity run _ p).2, List.map_append]
        at ho
      rcases List.mem_append.mp ho with hold | hnew
      · exact .inl hold
      · rw [List.map_cons, List.map_nil, List.mem_singleton] at hnew
        exact .inr ⟨run, rfl, hnew.symm, hopen⟩

theorem interrupt_reports (identity : Option OpenedPlayer)
    (presentation : Option Presentation) (p : Page) :
    (interrupt identity presentation p).reports = p.reports := by
  unfold interrupt
  split
  case h_1 => rfl
  case h_2 run =>
    split
    case isFalse => rfl
    case isTrue =>
      unfold finishPresentation
      obtain ⟨_, _, _, _, he, -⟩ := onFinished_eq identity
        run.playback.playbackID .interrupted
        { p with ended := p.ended ++ [(run.object, .interrupted)] }
      rw [he]

/-- After an interruption all that entered has ended. -/
theorem interrupt_owes (identity : Option OpenedPlayer)
    {presentation : Option Presentation}
    (h : ∀ object ∈ p.shown, object ∈ p.ended.map Prod.fst
      ∨ ∃ run ∈ presentation, run.object = object
        ∧ run.phase.interruptible = true) :
    ∀ object ∈ (interrupt identity presentation p).shown,
      object ∈ (interrupt identity presentation p).ended.map Prod.fst := by
  intro object ho
  rw [(interrupt_calm identity presentation p).shown] at ho
  unfold interrupt
  rcases h object ho with he | ⟨run, hrun, rfl, hopen⟩
  · split
    case h_1 => exact he
    case h_2 run =>
      split
      case isFalse => exact he
      case isTrue =>
        rw [(finishPresentation_calm identity run _ p).2, List.map_append]
        exact List.mem_append_left _ he
  · cases hrun
    simp only [hopen, if_true]
    rw [(finishPresentation_calm identity run _ p).2, List.map_append]
    exact List.mem_append_right _ List.mem_cons_self

end Page

/-- What has entered and not ended may be interrupted. -/
theorem Live.owing (hl : Live p) (hshown : q.shown = p.shown)
    (hended : q.ended = p.ended) :
    ∀ object ∈ q.shown, object ∈ q.ended.map Prod.fst
      ∨ ∃ run ∈ p.presentation, run.object = object
        ∧ run.phase.interruptible = true := by
  intro object ho
  rw [hshown] at ho
  rw [hended]
  rcases hl.owed object ho with he | ⟨run, hrun, rfl⟩
  · exact .inl he
  · have hstands := hl.stands run hrun
    have hbegun := hstands.shown.mp ho
    unfold Phase.begun at hbegun
    rw [Bool.or_eq_true] at hbegun
    rcases hbegun with hopen | hover
    · exact .inr ⟨run, hrun, rfl, hopen⟩
    · left
      rw [hstands.ended, of_decide_eq_true hover]
      rfl

/-- What an interruption says about a presentation is so. -/
def Interruptible (identity : Option OpenedPlayer) (log : Log)
    (run : Presentation) : Prop :=
  run.phase.interruptible = true →
    run.object ∈ log.shown ∧ run.object ∉ log.ended.map Prod.fst
      ∧ ∀ current ∈ identity,
        log.origin run.object = some (current, run.playback)

theorem Sound.interrupt (h : Sound p) {identity : Option OpenedPlayer}
    {presentation : Option Presentation}
    (hrun : ∀ run ∈ presentation, Interruptible identity p.toLog run) :
    Sound (p.interrupt identity presentation) := by
  unfold Page.interrupt
  split
  case h_1 => exact h
  case h_2 run =>
    split
    case isFalse => exact h
    case isTrue hopen =>
      obtain ⟨hshown, hnew, horigin⟩ := hrun run rfl hopen
      exact h.finishPresentation hshown hnew horigin

/-- A presentation of a live page may be interrupted. -/
theorem Live.interruptible (hl : Live p) (hshown : q.shown = p.shown)
    (hended : q.ended = p.ended) (hconnected : q.connected = p.connected)
    (hreceived : p.received <+: q.received)
    (identity : Option OpenedPlayer)
    (hidentity : ∀ current ∈ identity, p.identity = some current) :
    ∀ run ∈ p.presentation, Interruptible identity q.toLog run := by
  intro run hrun hopen
  have hstands := hl.stands run hrun
  refine ⟨?_, fun he => ?_, fun current hcurrent => ?_⟩
  · rw [hshown, hstands.shown]
    unfold Phase.begun
    rw [hopen]
    rfl
  · rw [hended] at he
    have hover := hstands.ended.mp he
    rw [Phase.open_of_interruptible hopen] at hover
    cases hover
  · obtain ⟨own, hown, horigin⟩ := hl.origin hrun
    rw [hidentity current hcurrent] at hown
    cases hown
    unfold Log.origin at horigin ⊢
    obtain ⟨received, hr, hx⟩ := Option.bind_eq_some_iff.mp horigin
    rw [getElem?_grow hreceived hr, Option.bind_some, hconnected]
    exact hx

/-- The commit of a handler leaves a live page behind. -/
def Settles (p q : Page) : Prop :=
  Live (q.commit p.view) ∧ Sound (q.commit p.view)
    ∧ (q.commit p.view).mounted = p.mounted

/-- No effect runs after a quiet handler. -/
theorem Quiet.settles (h : Quiet p q) : Settles p q := by
  unfold Settles
  rw [Page.commit_of_view h.kept.view]
  exact ⟨h.live, h.sound, h.kept.mounted⟩

-- ------------------------------------------------ another playback

/-- The playback is replaced, or cleared. -/
structure Replaced (p q : Page) : Prop where
  mounted : q.mounted = p.mounted
  source : q.view.source = p.view.source
  identity : q.identity = p.identity
  openCycle : q.openCycle = p.openCycle
  opening : q.opening = p.opening
  stream : q.stream = p.stream
  heartbeat : q.heartbeat = p.heartbeat
  presentation : q.presentation = p.presentation
  connected : q.connected = p.connected
  taken : q.taken = p.taken
  shown : q.shown = p.shown
  ended : q.ended = p.ended
  sent : p.sent <+: q.sent
  received : p.received <+: q.received
  fresh : ∀ current ∈ q.playback, Active p.identity
    ∧ (∃ stream, p.stream = some stream
      ∧ q.received[current.1]? = some (stream, current.2))
    ∧ current.1 ∉ p.shown
  changed : q.playback = p.playback →
    q.interruptionKey ≠ p.interruptionKey

/-- The page after the effects, but for the call of onFinished. -/
def Page.presented (q : Page) : Page :=
  Page.startPlayback q.view { q with presentation := none, reports := [] }

theorem presented_eq (h : ∀ current ∈ q.playback, q.view.Presents) :
    q.presented = { q with
      presentation := q.playback.map fun current =>
        ⟨current.1, current.2, .loading⟩
      reports := []
      stage := if q.playback = none then .idle else .preloading } := by
  unfold Page.presented Page.startPlayback
  cases hplayback : q.playback with
  | none =>
      simp only [show q.view.playback = none from hplayback]
      rfl
  | some current =>
      simp only [show q.view.playback = some current from hplayback,
        if_pos (h current hplayback)]
      rfl

theorem presented_view (q : Page) : q.presented.view = q.view := by
  unfold Page.presented Page.startPlayback
  split
  case h_1 => rfl
  case h_2 => split <;> rfl

/-- The commit of another playback presents it and interrupts the last one. -/
theorem Replaced.commit_eq (h : Replaced p q) :
    q.commit p.view = q.presented.interrupt q.identity p.presentation := by
  have hsource : p.view.source = q.view.source := h.source.symm
  have hidentity : p.view.identity = q.view.identity := h.identity.symm
  have hcycle : p.view.openCycle = q.view.openCycle := h.openCycle.symm
  have hclaim : p.view.canClaim = q.view.canClaim := by
    unfold View.canClaim
    rw [hsource]
  refine Page.commit_eq ?_ ?_
  · unfold Page.effects
    rw [show Page.useReleaseInactiveClaim p.view q.view q = q from
        if_pos (.inl ⟨hclaim, hidentity⟩),
      Page.open_same hclaim hcycle,
      show Page.useAlertEventStream p.view q.view q = q from
        if_pos ⟨hclaim, hidentity⟩,
      show Page.useAlertHeartbeat p.view q.view q = q from
        if_pos ⟨hidentity, congrArg _ hsource, congrArg _ hsource⟩]
    unfold Page.useAlertPlayerPresentation
    rw [if_neg fun hsame => h.changed hsame.2.1.symm hsame.2.2.symm,
      h.presentation]
    rfl
  · rw [(Page.interrupt_calm _ _ _).kept.view, presented_view]

/-- Another playback leaves the hooks in agreement. -/
theorem Replaced.settles (hl : Live p) (hs : Sound q)
    (h : Replaced p q) : Settles p q := by
  unfold Settles
  have hview : q.view.canClaim = p.view.canClaim := by
    unfold View.canClaim
    rw [h.source]
  have hpresented := presented_eq fun current hcurrent => by
    have hactive := (h.fresh current hcurrent).1
    refine ⟨?_, hview.trans (hl.active_canClaim hactive)⟩
    show Active q.identity
    rw [h.identity]
    exact hactive
  have hinterruptible := hl.interruptible h.shown h.ended h.connected
    h.received q.identity fun current hc => h.identity ▸ hc
  rw [h.commit_eq, hpresented]
  obtain ⟨r, hr⟩ : ∃ r : Page, r = { q with
      presentation := q.playback.map fun current =>
        ⟨current.1, current.2, .loading⟩
      reports := []
      stage := if q.playback = none then .idle else .preloading } :=
    ⟨_, rfl⟩
  rw [← hr]
  have hcalm := Page.interrupt_calm q.identity p.presentation r
  have hk : Kept q (r.interrupt q.identity p.presentation) := by
    refine Kept.trans ?_ hcalm.kept
    rw [hr]
    exact ⟨rfl, rfl, rfl, rfl, rfl, rfl, rfl, List.prefix_refl _⟩
  have hlog : r.toLog = q.toLog := by rw [hr]
  have hpresentation : r.presentation = q.playback.map fun current =>
      ⟨current.1, current.2, .loading⟩ := by rw [hr]
  have hstage : (r.interrupt q.identity p.presentation).stage
      = if q.playback = none then .idle else .preloading := by
    have hre : r.stage
        = if q.playback = none then .idle else .preloading := by rw [hr]
    rcases hcalm.stage with he | ⟨hf, -⟩
    · rw [he, hre]
    · rw [hre] at hf
      split at hf <;> cases hf
  have hidentity := hk.identity.trans h.identity
  refine ⟨⟨?_, ?_, ?_, ?_, ?_, ?_, ?_, ?_, ?_, ?_, ?_⟩, ?_,
    hk.mounted.trans h.mounted⟩
  · intro hidle
    rw [hk.view, hview] at hidle
    rw [hidentity, hk.opening, h.opening]
    exact hl.idle hidle
  · rw [hidentity, hk.stream, h.stream, hk.connected, h.connected]
    exact hl.stream
  · rw [hidentity, hk.stream, h.stream]
    exact hl.offline
  · rw [hidentity, hk.opening, h.opening]
    exact hl.opening
  · intro number hnumber
    rw [hk.opening, h.opening] at hnumber
    obtain ⟨hsent, htaken⟩ := hl.asked number hnumber
    rw [hk.taken, h.taken]
    exact ⟨getElem?_grow (h.sent.trans hk.sent) hsent, htaken⟩
  · have hbeat : r.heartbeat = p.heartbeat := by
      rw [hr]
      exact h.heartbeat
    rw [hcalm.heartbeat, hbeat, hidentity]
    exact hl.beating
  · intro current hcurrent
    rw [hk.playback] at hcurrent
    obtain ⟨hactive, hstream, -⟩ := h.fresh current hcurrent
    rw [hidentity, hk.stream, h.stream, hk.received]
    exact ⟨hactive, hstream⟩
  · rw [hcalm.presentation, hpresentation, hk.playback]
    cases q.playback <;> rfl
  · intro run hrun
    rw [hcalm.presentation, hpresentation] at hrun
    obtain ⟨current, hcurrent, rfl⟩ := Option.map_eq_some_iff.mp hrun
    obtain ⟨-, -, hnew⟩ := h.fresh current hcurrent
    refine ⟨?_, ⟨fun he => ?_, fun hover => ?_⟩, fun _ _ _ hphase => ?_,
      ?_⟩
    · rw [hcalm.shown, congrArg Log.shown hlog, h.shown]
      refine ⟨fun ho => absurd ho hnew, fun hbegun => ?_⟩
      cases hbegun
    · -- What has ended has entered, and this one has not.
      exfalso
      rcases Page.interrupt_ended _ _ _ _ he with hold | ⟨r, hr, ho, hi⟩
      · rw [congrArg Log.ended hlog] at hold
        obtain ⟨e, he', hfst⟩ := List.mem_map.mp hold
        have hin := hs.log.ended e he'
        rw [h.shown, hfst] at hin
        exact hnew hin
      · have hin := (hinterruptible r hr hi).1
        rw [h.shown, ho] at hin
        exact hnew hin
    · cases hover
    · cases hphase
    · show _ = AlertPlayerStage.preloading
      rw [hstage, if_neg]
      intro hnone
      rw [hnone] at hcurrent
      cases hcurrent
  · intro hnone
    rw [hcalm.presentation, hpresentation, Option.map_eq_none_iff] at hnone
    rw [hstage, if_pos hnone]
  · intro object ho
    left
    refine Page.interrupt_owes q.identity (hl.owing ?_ ?_) object ho
    · exact (congrArg Log.shown hlog).trans h.shown
    · exact (congrArg Log.ended hlog).trans h.ended
  · have hsound : Sound r := by
      refine hs.of_eq hlog ?_
      rw [hr]
      exact List.Subset.refl _
    refine hsound.interrupt ?_
    rw [hlog]
    exact hinterruptible

-- ------------------------------------------------- without identity

/-- A page that presents nothing, under no identity. -/
theorem live_off (hidentity : p.identity = none)
    (hplayback : p.playback = none) (hstream : p.stream = none)
    (hbeat : p.heartbeat = none) (hrun : p.presentation = none)
    (hstage : p.stage = .idle)
    (hidle : p.view.canClaim = false → p.opening = none)
    (hasked : ∀ number, p.opening = some ⟨number, false⟩ →
      p.sent[number]? = some .openOverlay
        ∧ ∀ t ∈ p.taken, t.1 < number)
    (howed : ∀ object ∈ p.shown, object ∈ p.ended.map Prod.fst) :
    Live p := by
  have hinactive : ¬ Active p.identity := by
    rw [hidentity]
    exact id
  refine ⟨fun h => ⟨hidentity, hidle h⟩, fun h => absurd h hinactive,
    fun _ => hstream, fun _ => hinactive, hasked, fun b hb => ?_,
    fun c hc => ?_, ?_, fun r hr => ?_, fun _ => hstage,
    fun object ho => .inl (howed object ho)⟩
  · rw [hbeat] at hb
    cases hb
  · rw [hplayback] at hc
    cases hc
  · rw [hrun, hplayback]
    rfl
  · rw [hrun] at hr
    cases hr

/-- Numbers that were taken are those of requests. -/
theorem Sound.taken_lt (h : Sound p) :
    ∀ t ∈ p.taken, t.1 < p.sent.length := by
  intro t ht
  obtain ⟨hlt, -⟩ := List.getElem?_eq_some_iff.mp (h.log.asked t ht)
  exact hlt

theorem Sound.askOpen (h : Sound p) : Sound p.askOpen := by
  have hasked : Sound { p with sent := p.sent ++ [.openOverlay] } := by
    refine h.ask (fun _ _ _ _ he => ?_) (fun _ _ _ _ he => ?_)
    · cases he
    · cases he
  exact hasked.of_eq rfl (List.Subset.refl _)

/-- The identity is gone, and a new cycle of opening begins. -/
structure Invalidated (p q : Page) : Prop where
  mounted : q.mounted = p.mounted
  source : q.view.source = p.view.source
  active : Active p.identity
  identity : q.identity = none
  playback : q.playback = none
  openCycle : q.openCycle = p.openCycle + 1
  run : ∀ run ∈ q.presentation, Interruptible none q.toLog run
  owing : ∀ object ∈ q.shown, object ∈ q.ended.map Prod.fst
    ∨ ∃ run ∈ q.presentation, run.object = object
      ∧ run.phase.interruptible = true

/-- A page whose identity was invalidated, but for the call of
onFinished. -/
def Page.reopened (q : Page) : Page :=
  { q.askOpen with
    stream := none
    heartbeat := none
    presentation := none
    reports := []
    stage := .idle }

/-- The commit of a lost identity opens again and interrupts. -/
theorem Invalidated.commit_eq (hl : Live p) (h : Invalidated p q) :
    q.commit p.view = q.reopened.interrupt none q.presentation := by
  have hclaim : p.view.canClaim = true := hl.active_canClaim h.active
  have hclaim' : q.view.canClaim = true := by
    unfold View.canClaim at hclaim ⊢
    rw [h.source]
    exact hclaim
  have hnone : q.view.identity = none := h.identity
  have hactive : ¬ q.view.Presents := by
    rintro ⟨ha, -⟩
    rw [hnone] at ha
    exact ha
  have hchanged : p.view.identity ≠ q.view.identity := by
    intro he
    have ha : Active p.view.identity := h.active
    rw [he, hnone] at ha
    exact ha
  refine Page.commit_eq ?_ ?_
  · unfold Page.effects
    rw [Page.release_none hnone]
    have hopen : Page.useOpenAlertOverlay p.view q.view q = q.askOpen := by
      unfold Page.useOpenAlertOverlay
      rw [if_neg, if_pos hclaim']
      rintro ⟨-, hcycle⟩
      have hcycle : p.openCycle = q.openCycle := hcycle
      have := h.openCycle
      omega
    rw [hopen, Page.stream_off hactive fun hs => hchanged hs.2,
      Page.heartbeat_none hnone _ fun he => absurd (he.trans hnone.symm)
        hchanged]
    unfold Page.useAlertPlayerPresentation
    rw [if_neg]
    · unfold Page.startPlayback
      simp only [show q.view.playback = none from h.playback, hnone]
      rfl
    · rintro ⟨hpresents, -⟩
      exact hactive (hpresents.mp ⟨h.active, hclaim⟩)
  · exact (Page.interrupt_calm _ _ _).kept.view

/-- A lost identity leaves the hooks in agreement. -/
theorem Invalidated.settles (hl : Live p) (hs : Sound q)
    (h : Invalidated p q) : Settles p q := by
  unfold Settles
  rw [h.commit_eq hl]
  have hcalm := Page.interrupt_calm none q.presentation q.reopened
  have hk := hcalm.kept
  have hclaim : q.view.canClaim = true := by
    have hclaim := hl.active_canClaim h.active
    unfold View.canClaim at hclaim ⊢
    rw [h.source]
    exact hclaim
  have hstage : (q.reopened.interrupt none q.presentation).stage
      = .idle := by
    rcases hcalm.stage with he | ⟨-, he⟩
    · exact he
    · exact he
  refine ⟨live_off (hk.identity.trans h.identity)
    (hk.playback.trans h.playback) hk.stream hcalm.heartbeat
    hcalm.presentation hstage (fun hidle => ?_) (fun number hnumber => ?_)
    (Page.interrupt_owes none h.owing), ?_, hk.mounted.trans h.mounted⟩
  · have hview : q.reopened.view.canClaim = true := hclaim
    rw [hk.view, hview] at hidle
    cases hidle
  · rw [hk.opening] at hnumber
    cases hnumber
    rw [hk.taken]
    exact ⟨getElem?_grow hk.sent List.getElem?_concat_length,
      hs.taken_lt⟩
  · have hsound : Sound q.reopened :=
      hs.askOpen.of_eq rfl (List.Subset.refl _)
    refine hsound.interrupt fun run hrun hopen => ?_
    obtain ⟨hshown, hnew, -⟩ := h.run run hrun hopen
    exact ⟨hshown, hnew, fun _ hc => by cases hc⟩

-- ---------------------------------------------------- another source

/-- Only the source has changed. -/
def Page.sourced (signals : AlertSourceSignals) (p : Page) : Page :=
  { p with signals }

theorem ready_of_resolve
    (hactive : (resolveAlertSourceState signals).active = some true)
    (hvisible : (resolveAlertSourceState signals).visible = some true) :
    (resolveAlertSourceState signals).ready = true := by
  unfold resolveAlertSourceState at hactive hvisible ⊢
  split
  case isTrue => rfl
  case isFalse hobs =>
    rw [if_neg hobs] at hactive hvisible
    simp only at hactive hvisible ⊢
    rw [hactive, hvisible]
    rfl

/-- A source that may claim is known to be active and visible. -/
theorem source_of_canClaim (h : p.view.canClaim = true) :
    p.view.source = ⟨some true, some true, true⟩ := by
  unfold View.canClaim at h
  simp only [Bool.and_eq_true, decide_eq_true_eq] at h
  obtain ⟨⟨hready, hactive⟩, hvisible⟩ := h
  cases hs : p.view.source with
  | mk active visible ready =>
      rw [hs] at hready hactive hvisible
      simp only at hready hactive hvisible
      rw [hready, hactive, hvisible]

/-- What a live page that is not active does not have. -/
theorem Live.inactive (hl : Live p) (h : ¬ Active p.identity) :
    p.playback = none ∧ p.stream = none ∧ p.heartbeat = none
      ∧ p.presentation = none ∧ p.stage = .idle := by
  have hplayback : p.playback = none := by
    cases hp : p.playback with
    | none => rfl
    | some c => exact absurd (hl.playing c hp).1 h
  have hrun : p.presentation = none := by
    have hp := hl.presenting
    rw [hplayback, Option.map_eq_none_iff] at hp
    exact hp
  refine ⟨hplayback, hl.offline h, ?_, hrun, hl.hidden hrun⟩
  cases hb : p.heartbeat with
  | none => rfl
  | some b => exact absurd (hl.beating b hb).1 h

theorem Live.without (hl : Live p) (h : p.identity = none) :
    p.playback = none ∧ p.stream = none ∧ p.heartbeat = none
      ∧ p.presentation = none ∧ p.stage = .idle := by
  refine hl.inactive ?_
  rw [h]
  exact id

/-- A live page that is not active owes no end. -/
theorem Live.settled (hl : Live p) (h : ¬ Active p.identity) :
    ∀ object ∈ p.shown, object ∈ p.ended.map Prod.fst := by
  obtain ⟨-, -, -, hrun, -⟩ := hl.inactive h
  intro object ho
  rcases hl.owed object ho with he | ⟨run, hr, -⟩
  · exact he
  · rw [hrun] at hr
    cases hr

/-- The effects of a source that says nothing new. -/
theorem commit_unclaimed (hl : Live p) (hbefore : p.view.canClaim = false)
    (hafter : (p.sourced signals).view.canClaim = false) :
    (p.sourced signals).commit p.view = p.sourced signals := by
  have hnone := (hl.idle hbefore).1
  obtain ⟨-, -, hbeat, -, -⟩ := hl.without hnone
  have hclaim : p.view.canClaim = (p.sourced signals).view.canClaim :=
    hbefore.trans hafter.symm
  have hheart : Page.useAlertHeartbeat p.view (p.sourced signals).view
      (p.sourced signals) = p.sourced signals := by
    rw [Page.heartbeat_none hnone (p.sourced signals) fun _ => hbeat]
    unfold Page.sourced
    rw [hbeat]
  refine Page.commit_eq ?_ rfl
  unfold Page.effects
  rw [Page.release_none hnone, Page.open_same hclaim rfl,
    show Page.useAlertEventStream p.view (p.sourced signals).view
      (p.sourced signals) = p.sourced signals from if_pos ⟨hclaim, rfl⟩,
    hheart]
  refine if_pos ⟨⟨fun h => ?_, fun h => ?_⟩, rfl, rfl⟩
  · rw [h.2] at hbefore
    cases hbefore
  · rw [h.2] at hafter
    cases hafter

/-- The effects of a source that has become active and visible. -/
theorem commit_claimed (hl : Live p) (hbefore : p.view.canClaim = false)
    (hafter : (p.sourced signals).view.canClaim = true) :
    (p.sourced signals).commit p.view = (p.sourced signals).askOpen := by
  have hnone := (hl.idle hbefore).1
  obtain ⟨-, hstream, hbeat, -, -⟩ := hl.without hnone
  have hclaim : p.view.canClaim ≠ (p.sourced signals).view.canClaim := by
    rw [hbefore, hafter]
    decide
  have hinactive : ¬ (p.sourced signals).view.Presents := by
    rintro ⟨ha, -⟩
    rw [show (p.sourced signals).view.identity = none from hnone] at ha
    exact ha
  refine Page.commit_eq ?_ rfl
  unfold Page.effects
  have hopen : Page.useOpenAlertOverlay p.view (p.sourced signals).view
      (p.sourced signals) = (p.sourced signals).askOpen := by
    unfold Page.useOpenAlertOverlay
    rw [if_neg fun h => hclaim h.1, if_pos hafter]
  have hoff : Page.useAlertEventStream p.view (p.sourced signals).view
      (p.sourced signals).askOpen = (p.sourced signals).askOpen := by
    rw [Page.stream_off hinactive fun h => hclaim h.1]
    unfold Page.sourced Page.askOpen
    rw [hstream]
  have hheart : Page.useAlertHeartbeat p.view (p.sourced signals).view
      (p.sourced signals).askOpen = (p.sourced signals).askOpen := by
    rw [Page.heartbeat_none hnone (p.sourced signals).askOpen
      fun _ => hbeat]
    unfold Page.sourced Page.askOpen
    rw [hbeat]
  rw [Page.release_none hnone, hopen, hoff, hheart]
  refine if_pos ⟨⟨fun h => ?_, fun h => absurd h hinactive⟩, rfl, rfl⟩
  rw [h.2] at hbefore
  cases hbefore

/-- A page that has let its claim go, but for the call of onFinished. -/
def Page.released (p : Page) : Page :=
  { (p.setCurrentPlayback none).setIdentity none with
    opening := none
    stream := none
    heartbeat := none
    presentation := none
    reports := []
    stage := .idle }

/-- The effects of a source that leaves, where a stream runs. -/
theorem effects_released (hidentity : p.identity = some identity)
    (hactive : identity.state = "active") (hbefore : p.view.canClaim = true)
    (hafter : (p.sourced signals).view.canClaim = false) :
    (p.sourced signals).effects p.view (p.sourced signals).view
      = (p.sourced signals).released.interrupt (some identity)
        p.presentation := by
  have hclaim : p.view.canClaim ≠ (p.sourced signals).view.canClaim := by
    rw [hbefore, hafter]
    decide
  have hsome : (p.sourced signals).view.identity = some identity :=
    hidentity
  have hpresents : ¬ (p.sourced signals).view.Presents := by
    rintro ⟨-, h⟩
    rw [hafter] at h
    cases h
  have hsource : ¬ (p.view.source.active
        = (p.sourced signals).view.source.active
      ∧ p.view.source.visible
        = (p.sourced signals).view.source.visible) := by
    rintro ⟨ha, hv⟩
    rw [source_of_canClaim hbefore] at ha hv
    have hready : (resolveAlertSourceState signals).ready = true :=
      ready_of_resolve ha.symm hv.symm
    have : (p.sourced signals).view.canClaim = true := by
      unfold View.canClaim
      rw [← ha, ← hv]
      show (resolveAlertSourceState signals).ready && true && true = true
      rw [hready]
      rfl
    rw [this] at hafter
    cases hafter
  unfold Page.effects
  have hrelease : Page.useReleaseInactiveClaim p.view
      (p.sourced signals).view (p.sourced signals)
      = ((p.sourced signals).setCurrentPlayback none).setIdentity none := by
    unfold Page.useReleaseInactiveClaim
    rw [if_neg, if_pos]
    · rw [hsome]
      exact hactive
    · rintro (⟨h, -⟩ | h | h)
      · exact hclaim h
      · rw [hafter] at h
        cases h
      · rw [hsome] at h
        cases h
  have hopen : ∀ r : Page, Page.useOpenAlertOverlay p.view
      (p.sourced signals).view r = { r with opening := none } := by
    intro r
    unfold Page.useOpenAlertOverlay
    rw [if_neg fun h => hclaim h.1, if_neg]
    rw [hafter]
    decide
  have hheart : ∀ r : Page, r.identity = none →
      Page.useAlertHeartbeat p.view (p.sourced signals).view r
        = { r with heartbeat := none } := by
    intro r hr
    unfold Page.useAlertHeartbeat
    rw [if_neg fun h => hsource h.2, hsome]
    simp only [if_pos hactive]
    unfold Page.beat sameIdentity
    rw [hr]
    rfl
  rw [hrelease, hopen, Page.stream_off hpresents fun h => hclaim h.1,
    hheart _ rfl]
  unfold Page.useAlertPlayerPresentation
  rw [if_neg]
  · rw [hsome]
    unfold Page.startPlayback
    split
    case h_1 => rfl
    case h_2 =>
      rw [if_neg hpresents]
      rfl
  · rintro ⟨h, -⟩
    refine hpresents (h.mp ⟨?_, hbefore⟩)
    rw [show p.view.identity = some identity from hidentity]
    exact hactive

/-- The effects of what the release has set. -/
theorem effects_cleared {v : View} (hold : v.canClaim = false)
    (hclaim : p.view.canClaim = false) (hcycle : v.openCycle = p.openCycle)
    (hidentity : p.identity = none) (hplayback : p.playback = none)
    (hstream : p.stream = none) (hbeat : p.heartbeat = none)
    (hrun : p.presentation = none) (hstage : p.stage = .idle) :
    ∃ reports, p.effects v p.view = { p with reports } := by
  have hsame : v.canClaim = p.view.canClaim := hold.trans hclaim.symm
  have hpresents : ¬ p.view.Presents := by
    rintro ⟨-, h⟩
    rw [hclaim] at h
    cases h
  have hoff : Page.useAlertEventStream v p.view p = p := by
    by_cases hi : v.identity = p.view.identity
    · exact if_pos ⟨hsame, hi⟩
    · rw [Page.stream_off hpresents fun h => hi h.2, ← hstream]
  have hheart : Page.useAlertHeartbeat v p.view p = p := by
    rw [Page.heartbeat_none hidentity p fun _ => hbeat, ← hbeat]
  unfold Page.effects
  rw [Page.release_none hidentity, Page.open_same hsame hcycle, hoff,
    hheart]
  unfold Page.useAlertPlayerPresentation
  split
  case isTrue => exact ⟨p.reports, rfl⟩
  case isFalse =>
    refine ⟨[], ?_⟩
    rw [hrun]
    unfold Page.interrupt Page.startPlayback
    simp only [show p.view.playback = none from hplayback]
    unfold Page.dispatch reduceAlertPlayerStage
    rw [← hrun, ← hstage]

/-- What is left of a live page that lets its claim go. -/
theorem settles_released (hl : Live p) (hs : Sound p)
    (hbefore : p.view.canClaim = true)
    (hafter : (p.sourced signals).view.canClaim = false) :
    Settles p (p.sourced signals) := by
  unfold Settles
  -- What holds after the first effects decides the rest.
  have hrest : ∀ once : Page,
      (p.sourced signals).effects p.view (p.sourced signals).view = once →
      Sound once → once.mounted = p.mounted →
      once.view.canClaim = false → once.openCycle = p.openCycle →
      once.identity = none → once.playback = none → once.opening = none →
      once.stream = none → once.heartbeat = none →
      once.presentation = none → once.stage = .idle →
      (∀ object ∈ once.shown, object ∈ once.ended.map Prod.fst) →
      Live ((p.sourced signals).commit p.view)
        ∧ Sound ((p.sourced signals).commit p.view)
        ∧ ((p.sourced signals).commit p.view).mounted = p.mounted := by
    intro once honce hsound hmounted hclaim hcycle hidentity hplayback
      hopening hstream hbeat hrun hstage howed
    obtain ⟨reports, he⟩ := effects_cleared hafter hclaim hcycle.symm
      hidentity hplayback hstream hbeat hrun hstage
    unfold Page.commit
    simp only [honce]
    rw [he]
    refine ⟨live_off hidentity hplayback hstream hbeat hrun hstage
      (fun _ => hopening) (fun number hn => ?_) howed,
      hsound.of_eq rfl (List.Subset.refl _), hmounted⟩
    have hn : once.opening = some ⟨number, false⟩ := hn
    rw [hopening] at hn
    cases hn
  have hsourced : Sound (p.sourced signals) :=
    hs.of_eq rfl (List.Subset.refl _)
  by_cases hactive : Active p.identity
  · cases hidentity : p.identity with
    | none =>
        rw [hidentity] at hactive
        exact hactive.elim
    | some identity =>
        rw [hidentity] at hactive
        have hcalm := Page.interrupt_calm (some identity) p.presentation
          (p.sourced signals).released
        have hk := hcalm.kept
        have hsound : Sound (p.sourced signals).released :=
          hsourced.of_eq rfl (List.Subset.refl _)
        refine hrest _
          (effects_released hidentity hactive hbefore hafter) ?_ hk.mounted
          ((congrArg View.canClaim hk.view).trans hafter)
          (congrArg View.openCycle hk.view) hk.identity hk.playback
          hk.opening hk.stream hcalm.heartbeat hcalm.presentation ?_
          (Page.interrupt_owes (some identity) (hl.owing rfl rfl))
        · refine hsound.interrupt (hl.interruptible rfl rfl rfl
            (List.prefix_refl _) (some identity) fun current hc => ?_)
          cases hc
          exact hidentity
        · rcases hcalm.stage with he | ⟨-, he⟩
          · exact he
          · exact he
  · -- Nothing was presented, and no stream ran.
    obtain ⟨hplayback, hstream, hbeat, hrun, hstage⟩ :=
      hl.inactive hactive
    have hclaim : p.view.canClaim
        ≠ (p.sourced signals).view.canClaim := by
      rw [hbefore, hafter]
      decide
    have hpresents : ¬ (p.sourced signals).view.Presents :=
      fun h => hactive h.1
    have hrelease : Page.useReleaseInactiveClaim p.view
        (p.sourced signals).view (p.sourced signals)
        = (p.sourced signals).setIdentity none := by
      unfold Page.useReleaseInactiveClaim
      split
      case isTrue h =>
        rcases h with ⟨h, -⟩ | h | h
        · exact absurd h hclaim
        · rw [hafter] at h
          cases h
        · have hnone : (p.sourced signals).identity = none := h
          unfold Page.setIdentity
          rw [← hnone]
      case isFalse =>
        rw [if_neg]
        exact hactive
    have hopen : ∀ r : Page, Page.useOpenAlertOverlay p.view
        (p.sourced signals).view r = { r with opening := none } := by
      intro r
      unfold Page.useOpenAlertOverlay
      rw [if_neg fun h => hclaim h.1, if_neg]
      rw [hafter]
      decide
    have hheart : ∀ r : Page, r.heartbeat = none →
        Page.useAlertHeartbeat p.view (p.sourced signals).view r = r := by
      intro r hr
      have hoff : { r with heartbeat := none } = r := by rw [← hr]
      unfold Page.useAlertHeartbeat
      split
      case isTrue => rfl
      case isFalse =>
        split
        case h_1 => exact hoff
        case h_2 identity hidentity =>
          rw [if_neg]
          · exact hoff
          · intro ha
            refine hactive ?_
            rw [show p.identity = some identity from hidentity]
            exact ha
    have honce : (p.sourced signals).effects p.view
        (p.sourced signals).view
        = { (p.sourced signals).setIdentity none with
            opening := none, stream := none } := by
      unfold Page.effects
      rw [hrelease, hopen, Page.stream_off hpresents fun h => hclaim h.1,
        hheart { (p.sourced signals).setIdentity none with
            opening := none, stream := none } hbeat]
      refine if_pos ⟨⟨fun h => absurd h.1 hactive,
        fun h => absurd h hpresents⟩, rfl, rfl⟩
    exact hrest _ honce (hsourced.of_eq rfl (List.Subset.refl _)) rfl
      hafter rfl rfl hplayback rfl rfl hbeat hrun hstage
      (hl.settled hactive)

-- ------------------------------------------- answers to openOverlay

/-- The page of another identity, and of the loop that goes on. -/
def Page.identified (next : Option OpenedPlayer) (opening : Option Loop)
    (taken : List (Nat × OpenedPlayer)) (p : Page) : Page :=
  { p with identity := next, opening, taken }

variable {next : Option OpenedPlayer} {opening : Option Loop}
  {taken : List (Nat × OpenedPlayer)}

/-- The effects of an answer that makes no player active. -/
theorem commit_waiting (hl : Live p) (hbefore : ¬ Active p.identity)
    (hafter : ¬ Active next) (hclaim : p.view.canClaim = true) :
    (p.identified next opening taken).commit p.view
      = p.identified next opening taken := by
  obtain ⟨hplayback, hstream, hbeat, hrun, hstage⟩ := hl.inactive hbefore
  obtain ⟨q, hq⟩ : ∃ q, q = p.identified next opening taken := ⟨_, rfl⟩
  have hidentity : q.view.identity = next := by
    rw [hq]
    rfl
  have hclaim' : q.view.canClaim = true := by
    rw [hq]
    exact hclaim
  have hcycle : p.view.openCycle = q.view.openCycle := by
    rw [hq]
    rfl
  have hpresents : ¬ q.view.Presents := by
    rintro ⟨ha, -⟩
    rw [hidentity] at ha
    exact hafter ha
  have hqstream : q.stream = none := by
    rw [hq]
    exact hstream
  have hqbeat : q.heartbeat = none := by
    rw [hq]
    exact hbeat
  have hoff : Page.useAlertEventStream p.view q.view q = q := by
    by_cases hi : p.view.identity = q.view.identity
    · exact if_pos ⟨hclaim.trans hclaim'.symm, hi⟩
    · rw [Page.stream_off hpresents fun h => hi h.2, ← hqstream]
  have hheart : Page.useAlertHeartbeat p.view q.view q = q := by
    unfold Page.useAlertHeartbeat
    split
    case isTrue => rfl
    case isFalse =>
      split
      case h_1 => rw [← hqbeat]
      case h_2 identity hi =>
        rw [if_neg, ← hqbeat]
        intro ha
        refine hafter ?_
        rw [← hidentity, hi]
        exact ha
  rw [← hq]
  refine Page.commit_eq ?_ rfl
  unfold Page.effects
  rw [Page.release_claims hclaim', Page.open_same
    (hclaim.trans hclaim'.symm) hcycle, hoff, hheart]
  refine if_pos ⟨⟨fun h => absurd h.1 hbefore,
    fun h => absurd h hpresents⟩, ?_, ?_⟩
  · rw [hq]
    rfl
  · rw [hq]
    rfl

/-- The effects of an answer that makes a player active. -/
theorem commit_active (hl : Live p) {player : OpenedPlayer}
    (hbefore : ¬ Active p.identity) (hafter : player.state = "active")
    (hclaim : p.view.canClaim = true) :
    (p.identified (some player) opening taken).commit p.view
      = { ((p.identified (some player) opening taken).connect player).beat
            player p.view.source with
          presentation := none, reports := [], stage := .idle } := by
  obtain ⟨hplayback, hstream, hbeat, hrun, hstage⟩ := hl.inactive hbefore
  obtain ⟨q, hq⟩ : ∃ q, q = p.identified (some player) opening taken :=
    ⟨_, rfl⟩
  have hidentity : q.view.identity = some player := by
    rw [hq]
    rfl
  have hclaim' : q.view.canClaim = true := by
    rw [hq]
    exact hclaim
  have hcycle : p.view.openCycle = q.view.openCycle := by
    rw [hq]
    rfl
  have hsource : q.view.source = p.view.source := by
    rw [hq]
    rfl
  have hqplayback : q.view.playback = none := by
    rw [hq]
    exact hplayback
  have hqrun : (q.connect player).presentation = none := by
    rw [hq]
    exact hrun
  have hchanged : p.view.identity ≠ q.view.identity := by
    intro he
    refine hbefore ?_
    rw [show p.identity = p.view.identity from rfl, he, hidentity]
    exact hafter
  have hpresents : q.view.Presents := by
    refine ⟨?_, hclaim'⟩
    rw [hidentity]
    exact hafter
  have hconnect : Page.useAlertEventStream p.view q.view q
      = q.connect player := by
    unfold Page.useAlertEventStream
    rw [if_neg fun h => hchanged h.2, hidentity]
    exact if_pos ⟨hafter, hclaim'⟩
  have hheart : Page.useAlertHeartbeat p.view q.view (q.connect player)
      = (q.connect player).beat player p.view.source := by
    unfold Page.useAlertHeartbeat
    rw [if_neg fun h => hchanged h.1, hidentity, hsource]
    exact if_pos hafter
  have hrest : ∀ r : Page, r.presentation = none →
      Page.useAlertPlayerPresentation p.view q.view r
        = { r with presentation := none, reports := [], stage := .idle } := by
    intro r hr
    unfold Page.useAlertPlayerPresentation
    rw [if_neg fun h => hbefore (h.1.mpr hpresents).1, hr]
    unfold Page.startPlayback
    rw [hqplayback]
    rfl
  have hrun' : ((q.connect player).beat player p.view.source).presentation
      = none := by
    unfold Page.beat
    split <;> exact hqrun
  rw [← hq]
  refine Page.commit_eq ?_ ?_
  · unfold Page.effects
    rw [Page.release_claims hclaim', Page.open_same
      (hclaim.trans hclaim'.symm) hcycle, hconnect, hheart,
      hrest _ hrun']
  · unfold Page.beat
    split <;> rfl

/-- What waits under no active player is live. -/
theorem live_waiting (hl : Live p) (hbefore : ¬ Active p.identity)
    (hafter : ¬ Active next) (hclaim : p.view.canClaim = true)
    (hasked : ∀ number, opening = some ⟨number, false⟩ →
      p.sent[number]? = some .openOverlay
        ∧ ∀ t ∈ taken, t.1 < number) :
    Live (p.identified next opening taken) := by
  obtain ⟨hplayback, hstream, hbeat, hrun, hstage⟩ := hl.inactive hbefore
  refine ⟨fun h => ?_, fun h => absurd h hafter, fun _ => hstream,
    fun _ => hafter, hasked, fun b hb => ?_, fun c hc => ?_,
    hl.presenting, fun r hr => ?_, fun _ => hstage,
    fun object ho => .inl (hl.settled hbefore object ho)⟩
  · have hclaim' : (p.identified next opening taken).view.canClaim
      = true := hclaim
    rw [hclaim'] at h
    cases h
  · have hb : b ∈ p.heartbeat := hb
    rw [hbeat] at hb
    cases hb
  · have hc : c ∈ p.playback := hc
    rw [hplayback] at hc
    cases hc
  · have hr : r ∈ p.presentation := hr
    rw [hrun] at hr
    cases hr

/-- While a page asks for its player, it has none that is active. -/
theorem Live.asking (hl : Live p) (h : p.opening ≠ none) :
    ¬ Active p.identity ∧ p.view.canClaim = true := by
  refine ⟨hl.opening h, ?_⟩
  by_contra hno
  rw [Bool.not_eq_true] at hno
  exact h (hl.idle hno).2

/-- openOverlay was answered, and the effects have run. -/
theorem settles_opened (hl : Live p) (hs : Sound p) (number : Nat)
    (player : OpenedPlayer) : Settles p (p.opened number player) := by
  unfold Page.opened
  split
  case isFalse => exact (quiet_refl hl hs).settles
  case isTrue hopening =>
    obtain ⟨hbefore, hclaim⟩ := hl.asking (by
      rw [hopening]
      exact Option.some_ne_none _)
    obtain ⟨hasked, hlater⟩ := hl.asked number hopening
    obtain ⟨hplayback, hstream, hbeat, hrun, hstage⟩ :=
      hl.inactive hbefore
    have htaken : Log.Sound { p.toLog with
        taken := p.taken ++ [(number, player)] } :=
      hs.log.take hasked hlater
    show Settles p (p.identified (some player) _ _)
    unfold Settles
    by_cases hactive : player.state = "active"
    case neg =>
      have hafter : ¬ Active (some player) := hactive
      rw [commit_waiting hl hbefore hafter hclaim]
      refine ⟨live_waiting hl hbefore hafter hclaim fun n hn => ?_,
        ⟨htaken, hs.finishing⟩, rfl⟩
      split at hn <;> cases hn
    case pos =>
      have hstandby : player.state ≠ "standby" := by
        rw [hactive]
        decide
      rw [commit_active hl hbefore hactive hclaim, if_neg hstandby]
      have hsame : sameIdentity (some player) player = true := by
        simp [sameIdentity, hactive]
      have hsource := source_of_canClaim hclaim
      have hconnected : Log.Sound { p.toLog with
          taken := p.taken ++ [(number, player)]
          connected := p.connected ++ [player] } := by
        refine htaken.connect hactive ?_
        rw [List.map_append]
        exact hs.log.connections.append (List.Sublist.refl _)
      have hbeats : Page.beat player p.view.source
          ((p.identified (some player) none
            (p.taken ++ [(number, player)])).connect player)
          = { (p.identified (some player) none
              (p.taken ++ [(number, player)])).connect player with
              sent := p.sent ++ [.heartbeat player.playerID
                player.generation true true]
              heartbeat := some (player, ⟨p.sent.length, false⟩) } := by
        unfold Page.beat
        rw [if_pos (by exact hsame), hsource]
        rfl
      rw [hbeats]
      refine ⟨⟨fun h => ?_, fun _ => ⟨_, rfl, ?_⟩,
        fun h => absurd hactive h, fun h => absurd rfl h,
        fun n hn => ?_, fun b hb => ?_, fun c hc => ?_, ?_,
        fun r hr => ?_, fun _ => rfl,
        fun object ho => .inl (hl.settled hbefore object ho)⟩,
        ⟨?_, fun f hf => ?_⟩, rfl⟩
      · have hc : p.view.canClaim = false := h
        rw [hclaim] at hc
        cases hc
      · exact List.getElem?_concat_length
      · cases hn
      · cases hb
        exact ⟨hactive, rfl⟩
      · have hc : c ∈ p.playback := hc
        rw [hplayback] at hc
        cases hc
      · exact hplayback.symm
      · cases hr
      · refine hconnected.ask (fun _ _ _ _ h => ?_) fun _ _ _ _ h => ?_
        · cases h
        · cases h
          exact ⟨rfl, rfl⟩
      · refine (hs.finishing f hf).mono ?_
        exact ⟨List.prefix_append _ _, List.prefix_append _ _,
          List.prefix_refl _, List.Subset.refl _, List.Subset.refl _⟩

/-- An attempt to open failed. -/
theorem settles_openFails (hl : Live p) (hs : Sound p) {number : Nat}
    (hopening : p.opening = some ⟨number, false⟩) :
    Settles p { p.setIdentity none with
      opening := some ⟨number, true⟩ } := by
  obtain ⟨hbefore, hclaim⟩ := hl.asking (by
    rw [hopening]
    exact Option.some_ne_none _)
  show Settles p (p.identified none (some ⟨number, true⟩) p.taken)
  unfold Settles
  rw [commit_waiting hl hbefore id hclaim]
  refine ⟨live_waiting hl hbefore id hclaim fun n hn => ?_,
    hs.of_eq rfl (List.Subset.refl _), rfl⟩
  cases hn

/-- Another attempt to open. -/
theorem settles_openAgain (hl : Live p) (hs : Sound p)
    (hopening : p.opening ≠ none) : Settles p p.askOpen := by
  obtain ⟨hbefore, hclaim⟩ := hl.asking hopening
  unfold Settles
  rw [show p.askOpen.commit p.view = p.askOpen from
    Page.commit_of_view rfl]
  refine ⟨{ hl with
    idle := fun h => ?_
    opening := fun _ => hbefore
    asked := fun number hnumber => ?_
    stands := fun run hr => ?_ }, hs.askOpen, rfl⟩
  · have h : p.view.canClaim = false := h
    rw [hclaim] at h
    cases h
  · cases hnumber
    exact ⟨List.getElem?_concat_length, hs.taken_lt⟩
  · have hstands := hl.stands run hr
    exact hstands.keep rfl rfl rfl (List.prefix_append _ _) hstands.stage

-- ==================================== inputs

/-- The identity of an active page is invalidated, whatever becomes of
its presentation. -/
theorem settles_invalidated (hl : Live p) (hs : Sound p)
    (hactive : Active p.identity)
    {sentDiagnostics : List (PlaybackID × DiagnosticCode)}
    {serverInterrupted : List PlaybackID}
    {heartbeat : Option (OpenedPlayer × Loop)}
    {presentation : Option Presentation}
    (hrun : presentation = p.presentation
      ∨ (∀ run ∈ presentation, run.phase.interruptible = false)
        ∧ ∀ run ∈ p.presentation, run.phase.begun = false) :
    Settles p { p with
      identity := none, playback := none
      openCycle := p.openCycle + 1
      sentDiagnostics, serverInterrupted, heartbeat, presentation } := by
  refine Invalidated.settles hl (hs.of_eq rfl (List.Subset.refl _))
    ⟨rfl, rfl, hactive, rfl, rfl, rfl, fun run hr hopen => ?_, ?_⟩
  · rcases hrun with rfl | ⟨hclosed, -⟩
    · exact hl.interruptible rfl rfl rfl (List.prefix_refl _) none
        (fun _ hc => by cases hc) run hr hopen
    · rw [hclosed run hr] at hopen
      cases hopen
  · rcases hrun with rfl | ⟨-, hfresh⟩
    · exact hl.owing rfl rfl
    · intro object ho
      rcases hl.owed object ho with he | ⟨run, hr, rfl⟩
      · exact .inl he
      · exact absurd ho ((hl.stands run hr).fresh (hfresh run hr)).1

section

variable (hl : Live p) (hs : Sound p)
include hl hs

-- ------------------------------------------------------- heartbeats

/-- A failed heartbeat may lose the identity. -/
theorem settles_heartbeatFails {number : Nat}
    {loop : Loop} (hbeat : p.heartbeat = some (identity, loop))
    (permanent : Bool) :
    Settles p (p.heartbeatFailed number identity permanent) := by
  obtain ⟨hactive, hidentity⟩ := hl.beating _ hbeat
  unfold Page.heartbeatFailed
  split
  case isTrue =>
    refine (quiet_heartbeat hl hs fun b hb => ?_).settles
    cases hb
  case isFalse hsame =>
    rw [Bool.not_eq_true, Bool.not_eq_false'] at hsame
    split
    case isTrue =>
      unfold Page.invalidateIdentity
      rw [if_pos hsame]
      exact settles_invalidated hl hs hactive (.inl rfl)
    case isFalse =>
      refine (quiet_heartbeat hl hs fun b hb => ?_).settles
      cases hb
      exact ⟨hactive, hidentity⟩

-- ------------------------------------------------------------ starts

/-- A loop of onStarted is over, or goes on quietly. -/
theorem settles_startVerdict {run : Presentation} {assets : LoadedAssets}
    {loop : Loop} {next : Page → Page} (hrun : p.presentation = some run)
    (hphase : run.phase = .starting assets identity loop)
    (hnext : Quiet p (next p)) (late : Bool) :
    Settles p
      (p.startVerdict late identity run.playback.playbackID next) := by
  unfold Page.startVerdict verdict
  by_cases hgoes : p.continues identity run.playback.playbackID = true
  case neg =>
    rw [Bool.not_eq_true] at hgoes
    simp only [hgoes, Bool.not_false, if_true]
    exact (quiet_startFails hl hs hrun hphase).settles
  case pos =>
    have hsame : sameIdentity p.identity identity = true := by
      unfold Page.continues at hgoes
      rw [Bool.and_eq_true] at hgoes
      exact hgoes.1
    simp only [hgoes, Bool.not_true, Bool.false_eq_true, if_false]
    cases late with
    | false => exact hnext.settles
    | true =>
        show Settles p ((p.invalidateIdentity identity).setPhase .failed)
        unfold Page.invalidateIdentity
        rw [if_pos hsame]
        refine settles_invalidated hl hs (active_of_same hsame)
          (.inr ⟨fun r hr => ?_, fun r hr => ?_⟩)
        · obtain ⟨r', -, rfl⟩ := Option.map_eq_some_iff.mp hr
          rfl
        · rw [hrun] at hr
          cases hr
          rw [hphase]
          rfl

end

-- -------------------------------------------------- calls of onFinished

theorem Sound.finishingEnds (hs : Sound p) (f : Finishing) :
    Sound (p.finishingEnds f) :=
  hs.of_eq rfl (List.filter_subset_self _)

theorem calm_finishingEnds (f : Finishing) (p : Page) :
    Calm p (p.finishingEnds f) :=
  ⟨⟨rfl, rfl, rfl, rfl, rfl, rfl, rfl, List.prefix_refl _⟩, rfl, rfl, rfl,
    .inl rfl⟩

theorem Calm.trans {r : Page} (h : Calm p q) (h' : Calm q r) :
    Calm p r := by
  refine ⟨h.kept.trans h'.kept, h'.presentation.trans h.presentation,
    h'.heartbeat.trans h.heartbeat, h'.shown.trans h.shown, ?_⟩
  rcases h'.stage with he | ⟨hq, hr⟩
  · rw [he]
    exact h.stage
  · rcases h.stage with he | ⟨-, he⟩
    · right
      exact ⟨he ▸ hq, hr⟩
    · rw [hq] at he
      cases he

/-- A call of onFinished pauses. -/
def Page.finishPauses (number : Nat) (f : Finishing) (p : Page) : Page :=
  { p with
    finishing := p.finishing ++ [{ f with loop := ⟨number, true⟩ }] }

theorem calm_finishPauses (number : Nat) (f : Finishing) (p : Page) :
    Calm p (p.finishPauses number f) :=
  ⟨⟨rfl, rfl, rfl, rfl, rfl, rfl, rfl, List.prefix_refl _⟩, rfl, rfl, rfl,
    .inl rfl⟩

theorem calm_askFinished (f : Finishing) (p : Page) :
    Calm p (p.askFinished f) :=
  ⟨⟨rfl, rfl, rfl, rfl, rfl, rfl, rfl, List.prefix_append _ _⟩, rfl, rfl,
    rfl, .inl rfl⟩

section

variable (hs : Sound p) {f : Finishing}
  (hf : p.toLog.EndedAs f.identity.playerID f.identity.generation
    f.playbackID f.outcome)
include hs hf

theorem sound_finishPauses (number : Nat) :
    Sound (p.finishPauses number f) := by
  refine ⟨hs.log, fun g hg => ?_⟩
  rcases List.mem_append.mp hg with hold | hnew
  · exact hs.finishing g hold
  · rw [List.mem_singleton.mp hnew]
    exact hf

theorem sound_askFinished : Sound (p.askFinished f) := by
  have hasked : Sound { p with sent := p.sent ++ [.finished
      f.identity.playerID f.identity.generation f.playbackID
      f.outcome] } := by
    refine hs.ask (fun _ _ _ _ h => ?_) (fun _ _ _ _ h => ?_)
    · cases h
      exact hf
    · cases h
  refine ⟨hasked.log, fun g hg => ?_⟩
  rcases List.mem_append.mp hg with hold | hnew
  · exact hasked.finishing g hold
  · rw [List.mem_singleton.mp hnew]
    refine hf.mono ?_
    exact ⟨List.prefix_append _ _, List.prefix_refl _, List.prefix_refl _,
      List.Subset.refl _, List.Subset.refl _⟩

omit hf in
/-- A loop of onFinished is over, or goes on. -/
theorem finishVerdict_calm {next : Page → Page} (late : Bool)
    (hnext : ∀ r : Page, Calm r (next r) ∧ (next r).ended = r.ended)
    (hsound : ∀ r : Page, Sound r → r.toLog = p.toLog → Sound (next r)) :
    Calm p (p.finishVerdict late f next)
      ∧ (p.finishVerdict late f next).ended = p.ended
      ∧ Sound (p.finishVerdict late f next) := by
  have hends := calm_finishingEnds f p
  have hover : Calm p ((p.finishingEnds f).returned f.outcome)
      ∧ ((p.finishingEnds f).returned f.outcome).ended = p.ended
      ∧ Sound ((p.finishingEnds f).returned f.outcome) := by
    obtain ⟨hcalm, hended⟩ := calm_returned f.outcome (p.finishingEnds f)
    exact ⟨hends.trans hcalm, hended,
      sound_returned (hs.finishingEnds f) f.outcome⟩
  unfold Page.finishVerdict
  split
  case h_1 =>
    obtain ⟨hcalm, hended⟩ := hnext (p.finishingEnds f)
    exact ⟨hends.trans hcalm, hended,
      hsound _ (hs.finishingEnds f) rfl⟩
  case h_2 => exact hover
  case h_3 => exact hover

/-- A call of onFinished failed. -/
theorem finishFails_calm (number : Nat) (late : Bool) :
    Calm p (p.finishVerdict late f (Page.finishPauses number f))
      ∧ (p.finishVerdict late f (Page.finishPauses number f)).ended
        = p.ended
      ∧ Sound (p.finishVerdict late f (Page.finishPauses number f)) := by
  refine finishVerdict_calm hs late
    (fun r => ⟨calm_finishPauses number f r, rfl⟩) fun r hr hlog => ?_
  refine sound_finishPauses hr ?_ number
  rw [hlog]
  exact hf

/-- Another attempt of a call of onFinished. -/
theorem finishAgain_calm (late : Bool) :
    Calm p (p.finishVerdict late f (Page.askFinished f))
      ∧ (p.finishVerdict late f (Page.askFinished f)).ended = p.ended
      ∧ Sound (p.finishVerdict late f (Page.askFinished f)) := by
  refine finishVerdict_calm hs late
    (fun r => ⟨calm_askFinished f r, rfl⟩) fun r hr hlog => ?_
  refine sound_askFinished hr ?_
  rw [hlog]
  exact hf

omit hf in
/-- A finish was acknowledged. -/
theorem sound_finished (f : Finishing) : Sound (p.finished f) := by
  have hends := hs.finishingEnds f
  unfold Page.finished
  simp only
  split
  case isTrue =>
    refine sound_returned ?_ f.outcome
    exact hends.of_eq rfl (List.Subset.refl _)
  case isFalse => exact sound_returned hends f.outcome

end

theorem settles_calm (hl : Live p) (h : Calm p q)
    (hended : q.ended = p.ended) (hs : Sound q) : Settles p q :=
  Quiet.settles ⟨h.kept, hs, hl.calm h hended⟩

/-- The end was acknowledged. -/
theorem settles_finished (hl : Live p) (hs : Sound p) (f : Finishing) :
    Settles p (p.finished f) := by
  have hsound := sound_finished hs f
  unfold Page.finished at hsound ⊢
  simp only at hsound ⊢
  split at hsound
  case isTrue hcurrent =>
    rw [if_pos hcurrent]
    refine Replaced.settles hl hsound ?_
    obtain ⟨stage, he, -⟩ := Page.returned_eq f.outcome
      ((p.finishingEnds f).setCurrentPlayback none)
    rw [he]
    refine ⟨rfl, rfl, rfl, rfl, rfl, rfl, rfl, rfl, rfl, rfl, rfl, rfl,
      List.prefix_refl _, List.prefix_refl _, fun _ hc => ?_,
      fun hnone => ?_⟩
    · cases hc
    · have hnone : none = p.playback := hnone
      have hcurrent : p.playback.map (fun c => c.2.playbackID)
        = some f.playbackID := hcurrent
      rw [← hnone] at hcurrent
      cases hcurrent
  case isFalse hcurrent =>
    rw [if_neg hcurrent]
    obtain ⟨hcalm, hended⟩ := calm_returned f.outcome (p.finishingEnds f)
    exact settles_calm hl ((calm_finishingEnds f p).trans hcalm) hended
      hsound

-- ------------------------------------------------- calls of onDiagnostic

theorem quiet_reportVerdict {r : Report} {next : Page → Page}
    (late : Bool) (hnext : Quiet p (next (p.reportEnds r)))
    (hends : Quiet p (p.reportEnds r)) :
    Quiet p (p.reportVerdict late r next) := by
  unfold Page.reportVerdict
  split
  case h_1 => exact hnext
  case h_2 => exact hends
  case h_3 => exact hends

section

variable (hl : Live p) (hs : Sound p)
include hl hs

/-- The reports change, and nothing is sent. -/
theorem quiet_reported (reports : List Report) :
    Quiet p { p with reports } := by
  have hplain : ∀ request ∈ ([] : List Request), ∃ a b c d,
      request = .diagnostic a b c d := by
    intro request h
    cases h
  have h : Quiet p { p with sent := p.sent ++ [], reports } :=
    quiet_reports hl hs hplain
  rw [List.append_nil] at h
  exact h

theorem quiet_askDiagnostic (r : Report) :
    Quiet p ((p.reportEnds r).askDiagnostic r) := by
  refine quiet_reports hl hs fun request h => ?_
  rw [List.mem_singleton.mp h]
  exact ⟨_, _, _, _, rfl⟩

-- ---------------------------------------------------------- answers

/-- An answer without contents. -/
theorem settles_done (number : Nat) : Settles p (p.done number) := by
  have hsame := (quiet_refl hl hs).settles
  unfold Page.done
  split
  case h_1 run assets identity hholder =>
    obtain ⟨hrun, hphase⟩ := Page.holder_has hholder
    exact (quiet_started hl hs hrun hphase).settles
  case h_2 identity hholder =>
    have hbeat : p.heartbeat = some (identity, ⟨number, false⟩) :=
      Page.holder_has hholder
    obtain ⟨hactive, hidentity⟩ := hl.beating _ hbeat
    refine (quiet_heartbeat hl hs fun b hb => ?_).settles
    cases hb
    exact ⟨hactive, hidentity⟩
  case h_3 r _ => exact (quiet_reported hl hs _).settles
  case h_4 f _ => exact settles_finished hl hs f
  case h_5 => exact hsame
  case h_6 => exact hsame

/-- A request that failed. -/
theorem settles_failed (number : Nat) (permanent late : Bool) :
    Settles p (p.failed number permanent late) := by
  unfold Page.failed
  split
  case h_1 hholder =>
    exact settles_openFails hl hs (Page.holder_has hholder)
  case h_2 run assets identity hholder =>
    obtain ⟨hrun, hphase⟩ := Page.holder_has hholder
    exact settles_startVerdict hl hs hrun hphase
      (quiet_startPauses hl hs hrun hphase) late
  case h_3 identity hholder =>
    exact settles_heartbeatFails hl hs (Page.holder_has hholder) permanent
  case h_4 r _ =>
    exact (quiet_reportVerdict late (quiet_reported hl hs _)
      (quiet_reported hl hs _)).settles
  case h_5 f hholder =>
    obtain ⟨hf, -⟩ := Page.holder_has hholder
    obtain ⟨hcalm, hended, hsound⟩ :=
      finishFails_calm hs (hs.finishing f hf) number late
    exact settles_calm hl hcalm hended hsound
  case h_6 => exact (quiet_refl hl hs).settles

/-- A request that is tried again. -/
theorem settles_again (number : Nat) (late : Bool) :
    Settles p (p.again number late) := by
  unfold Page.again
  split
  case h_1 hholder =>
    have hopening : p.opening = some ⟨number, true⟩ :=
      Page.holder_has hholder
    refine settles_openAgain hl hs ?_
    rw [hopening]
    exact Option.some_ne_none _
  case h_2 run assets identity hholder =>
    obtain ⟨hrun, hphase⟩ := Page.holder_has hholder
    exact settles_startVerdict hl hs hrun hphase
      (quiet_startAgain hl hs hrun hphase) late
  case h_3 identity hholder =>
    have hbeat : p.heartbeat = some (identity, ⟨number, true⟩) :=
      Page.holder_has hholder
    exact (quiet_beat hl hs (hl.beating _ hbeat).2).settles
  case h_4 r _ =>
    exact (quiet_reportVerdict late (quiet_askDiagnostic hl hs r)
      (quiet_reported hl hs _)).settles
  case h_5 f hholder =>
    obtain ⟨hf, -⟩ := Page.holder_has hholder
    obtain ⟨hcalm, hended, hsound⟩ :=
      finishAgain_calm hs (hs.finishing f hf) late
    exact settles_calm hl hcalm hended hsound
  case h_6 => exact (quiet_refl hl hs).settles

end

-- ----------------------------------------------------------- streams

/-- A stream runs under an active identity. -/
theorem Live.streaming (hl : Live p) {stream : Nat}
    (h : p.stream = some stream) : Active p.identity := by
  by_contra hno
  rw [hl.offline hno] at h
  cases h

/-- An object that has not come in yet has not entered. -/
theorem Sound.next_new (hs : Sound p) : p.received.length ∉ p.shown := by
  intro h
  obtain ⟨identity, playback, horigin, -⟩ := hs.log.acked _ h
  obtain ⟨received, hr, -⟩ := Option.bind_eq_some_iff.mp horigin
  obtain ⟨hlt, -⟩ := List.getElem?_eq_some_iff.mp hr
  omega

theorem suppress_eq (p : Page) :
    ∃ sentDiagnostics serverInterrupted,
      p.suppressServerInterruptedPlayback = { p with
        playback := none, sentDiagnostics, serverInterrupted } := by
  unfold Page.suppressServerInterruptedPlayback
  split
  case h_1 => exact ⟨_, _, rfl⟩
  case h_2 => split <;> exact ⟨_, _, rfl⟩

section

variable (hl : Live p) (hs : Sound p)
include hl hs

/-- A playback comes over the stream. -/
theorem settles_playback {stream : Nat} (hstream : p.stream = some stream)
    (playback : Playback) :
    Settles p ({ p with received := p.received ++ [(stream, playback)]
      }.setCurrentPlayback (some (p.received.length, playback))) := by
  have hactive := hl.streaming hstream
  have hconnected : stream < p.connected.length := by
    obtain ⟨s, he, hc⟩ := hl.stream hactive
    rw [hstream] at he
    cases he
    cases hi : p.identity with
    | none =>
        rw [hi] at hactive
        exact hactive.elim
    | some identity =>
        rw [hi] at hc
        exact (List.getElem?_eq_some_iff.mp hc).1
  have hsound : Sound { p with
      received := p.received ++ [(stream, playback)] } := by
    refine ⟨hs.log.receive hconnected, fun f hf => ?_⟩
    refine (hs.finishing f hf).mono ?_
    exact ⟨List.prefix_refl _, List.prefix_refl _, List.prefix_append _ _,
      List.Subset.refl _, List.Subset.refl _⟩
  refine Replaced.settles hl (hsound.of_eq rfl (List.Subset.refl _))
    ⟨rfl, rfl, rfl, rfl, rfl, rfl, rfl, rfl, rfl, rfl, rfl, rfl,
      List.prefix_refl _, List.prefix_append _ _, fun c hc => ?_,
      fun he => ?_⟩
  · cases hc
    exact ⟨hactive, ⟨stream, hstream, List.getElem?_concat_length⟩,
      hs.next_new⟩
  · -- The current object has come in before.
    have he : some (p.received.length, playback) = p.playback := he
    obtain ⟨-, s, -, hr⟩ := hl.playing _ he.symm
    obtain ⟨hlt, -⟩ := List.getElem?_eq_some_iff.mp hr
    simp only at hlt
    omega

/-- The server has interrupted the playback. -/
theorem settles_skip : Settles p
    { p with interruptionKey := p.interruptionKey + 1
    }.suppressServerInterruptedPlayback := by
  obtain ⟨diagnostics, interrupted, he⟩ := suppress_eq
    { p with interruptionKey := p.interruptionKey + 1 }
  rw [he]
  refine Replaced.settles hl (hs.of_eq rfl (List.Subset.refl _))
    ⟨rfl, rfl, rfl, rfl, rfl, rfl, rfl, rfl, rfl, rfl, rfl, rfl,
      List.prefix_refl _, List.prefix_refl _, fun c hc => ?_,
      fun _ => ?_⟩
  · cases hc
  · show p.interruptionKey + 1 ≠ p.interruptionKey
    omega

theorem settles_revoked (hidentity : p.identity = some identity)
    (hactive : Active p.identity) : Settles p
      (p.suppressServerInterruptedPlayback.invalidateIdentity
        identity) := by
  obtain ⟨diagnostics, interrupted, he⟩ := suppress_eq p
  rw [he]
  unfold Page.invalidateIdentity
  rw [if_pos]
  · exact settles_invalidated hl hs hactive (.inl rfl)
  · show sameIdentity p.identity identity = true
    rw [hidentity] at hactive ⊢
    have hactive : identity.state = "active" := hactive
    simp [sameIdentity, hactive]

/-- A line of the event stream. -/
theorem settles_event (stream : Nat) (event : StreamEvent) :
    Settles p (p.event stream event) := by
  have hsame := (quiet_refl hl hs).settles
  unfold Page.event
  split
  case isFalse => exact hsame
  case isTrue hstream =>
    have hactive := hl.streaming hstream
    cases event with
    | playback playback => exact settles_playback hl hs hstream playback
    | control kind =>
        cases kind with
        | skip => exact settles_skip hl hs
        | pause => exact hsame
        | resume => exact hsame
    | revoked =>
        cases hidentity : p.identity with
        | none =>
            rw [hidentity] at hactive
            exact hactive.elim
        | some identity =>
            simp only
            exact settles_revoked hl hs hidentity hactive
    | keepalive => exact hsame

theorem settles_streamEnded (stream : Nat) :
    Settles p (p.streamEnded stream) := by
  have hsame := (quiet_refl hl hs).settles
  unfold Page.streamEnded
  split
  case h_1 => exact hsame
  case h_2 identity hidentity =>
    split
    case isFalse => exact hsame
    case isTrue hstream =>
      have hactive := hl.streaming hstream
      unfold Page.invalidateIdentity
      rw [if_pos]
      · exact settles_invalidated hl hs hactive (.inl rfl)
      · rw [hidentity] at hactive ⊢
        have hactive : identity.state = "active" := hactive
        simp [sameIdentity, hactive]

-- ----------------------------------------------------------- signals

/-- Another source, whatever the one before it was. -/
theorem settles_signals (signals : AlertSourceSignals) :
    Settles p (p.sourced signals) := by
  have hsourced : Sound (p.sourced signals) :=
    hs.of_eq rfl (List.Subset.refl _)
  cases hbefore : p.view.canClaim <;>
    cases hafter : (p.sourced signals).view.canClaim
  case false.false =>
    unfold Settles
    rw [commit_unclaimed hl hbefore hafter]
    obtain ⟨hnone, hopening⟩ := hl.idle hbefore
    obtain ⟨hplayback, hstream, hbeat, hrun, hstage⟩ := hl.without hnone
    refine ⟨live_off hnone hplayback hstream hbeat hrun hstage
      (fun _ => hopening) (fun number hn => ?_) ?_, hsourced, rfl⟩
    case refine_2 =>
      refine hl.settled ?_
      rw [hnone]
      exact id
    have hn : p.opening = some ⟨number, false⟩ := hn
    rw [hopening] at hn
    cases hn
  case false.true =>
    unfold Settles
    rw [commit_claimed hl hbefore hafter]
    obtain ⟨hnone, -⟩ := hl.idle hbefore
    obtain ⟨hplayback, hstream, hbeat, hrun, hstage⟩ := hl.without hnone
    refine ⟨live_off hnone hplayback hstream hbeat hrun hstage
      (fun h => ?_) (fun number hn => ?_) ?_, hsourced.askOpen, rfl⟩
    · rw [show (p.sourced signals).askOpen.view.canClaim = true from
        hafter] at h
      cases h
    · cases hn
      exact ⟨List.getElem?_concat_length, hs.taken_lt⟩
    · refine hl.settled ?_
      rw [hnone]
      exact id
  case true.false => exact settles_released hl hs hbefore hafter
  case true.true =>
    -- A source that may claim is always the same.
    have hsource : (p.sourced signals).view.source = p.view.source := by
      rw [source_of_canClaim hbefore, source_of_canClaim hafter]
    have hview : (p.sourced signals).view = p.view := by
      show View.mk (p.sourced signals).view.source _ _ _ _ = p.view
      rw [hsource]
      rfl
    unfold Settles
    rw [Page.commit_of_view hview]
    refine ⟨{ hl with
      idle := fun h => ?_
      stands := fun run hr => ?_ }, hsourced, rfl⟩
    · rw [hafter] at h
      cases h
    · have hstands := hl.stands run hr
      exact hstands.keep rfl rfl rfl (List.prefix_refl _) hstands.stage

-- ==================================== a step

/-- A signal that only counts where OBS is present. -/
theorem settles_observed (signals : AlertSourceSignals) :
    Settles p
      (if p.signals.obsPresent then p.sourced signals else p) := by
  split
  case isTrue => exact settles_signals hl hs signals
  case isFalse => exact (quiet_refl hl hs).settles

/-- Every handler and its commit leave the hooks in agreement. -/
theorem settles_handle (input : Input) : Settles p (p.handle input) := by
  have hsame := (quiet_refl hl hs).settles
  cases input with
  | appeared obsPresent documentVisible =>
      exact settles_signals hl hs _
  | settled =>
      exact settles_observed hl hs _
  | activeChanged value =>
      exact settles_observed hl hs _
  | visibleChanged value =>
      exact settles_observed hl hs _
  | documentVisibilityChanged visible =>
      exact settles_observed hl hs _
  | opened number player => exact settles_opened hl hs number player
  | done number => exact settles_done hl hs number
  | failed number permanent late =>
      exact settles_failed hl hs number permanent late
  | again number late => exact settles_again hl hs number late
  | event stream event => exact settles_event hl hs stream event
  | streamEnded stream => exact settles_streamEnded hl hs stream
  | loaded image sound tts =>
      exact (quiet_loaded hl hs image sound tts).settles
  | decoded image => exact (quiet_decoded hl hs image).settles
  | entered => exact (quiet_entered hl hs).settles
  | played result => exact (quiet_played hl hs result).settles
  | leave => exact (quiet_leave hl hs).settles
  | exited => exact (quiet_exited hl hs).settles
  | finish => exact (quiet_finish hl hs).settles
  | unmounted => exact hsame

end

/-- What is left of a page that was unmounted. -/
structure Gone (p : Page) : Prop where
  opening : p.opening = none
  heartbeat : p.heartbeat = none
  presentation : p.presentation = none
  reports : p.reports = []
  ended : ∀ object ∈ p.shown, object ∈ p.ended.map Prod.fst

/-- An unmounted page holds nothing. -/
theorem unmount_gone (hl : Live p) (hs : Sound p) :
    p.unmount.mounted = false ∧ Sound p.unmount ∧ Gone p.unmount := by
  unfold Page.unmount
  obtain ⟨r, hr⟩ : ∃ r : Page, r = { p with
      mounted := false, opening := none, stream := none
      heartbeat := none, presentation := none, reports := [] } := ⟨_, rfl⟩
  rw [← hr]
  have hcalm := Page.interrupt_calm p.identity p.presentation r
  have hk := hcalm.kept
  have hlog : r.toLog = p.toLog := by rw [hr]
  have hsound : Sound r := by
    refine hs.of_eq hlog ?_
    rw [hr]
    exact List.Subset.refl _
  have hreports : (r.interrupt p.identity p.presentation).reports = [] := by
    rw [Page.interrupt_reports, hr]
  refine ⟨?_, ?_, ⟨?_, ?_, ?_, hreports, ?_⟩⟩
  · rw [hk.mounted, hr]
  · refine hsound.interrupt ?_
    rw [hlog]
    exact hl.interruptible rfl rfl rfl (List.prefix_refl _) p.identity
      fun _ hc => hc
  · rw [hk.opening, hr]
  · rw [hcalm.heartbeat, hr]
  · rw [hcalm.presentation, hr]
  · exact Page.interrupt_owes p.identity
      (hl.owing (congrArg Log.shown hlog) (congrArg Log.ended hlog))

/-- Only calls of onFinished have a loop. -/
theorem Gone.finishing (hg : Gone p) {loop : Loop} {holder : Page.Holder}
    (h : p.holder loop = some holder) :
    ∃ f ∈ p.finishing, holder = .finishing f := by
  have hhas := Page.holder_has h
  cases holder with
  | opening =>
      have hhas : p.opening = some loop := hhas
      rw [hg.opening] at hhas
      cases hhas
  | starting run assets identity =>
      have hrun := hhas.1
      rw [hg.presentation] at hrun
      cases hrun
  | heartbeat identity =>
      have hhas : p.heartbeat = some (identity, loop) := hhas
      rw [hg.heartbeat] at hhas
      cases hhas
  | report r =>
      have hr := hhas.1
      rw [hg.reports] at hr
      cases hr
  | finishing f => exact ⟨f, hhas.1, rfl⟩

/-- What a page without effects keeps. -/
structure Over (p : Page) : Prop where
  mounted : p.mounted = false
  sound : Sound p
  gone : Gone p

theorem Over.calm (h : Over p) (hc : Calm p q) (hended : q.ended = p.ended)
    (hreports : q.reports = p.reports) (hs : Sound q) : Over q := by
  have hg := h.gone
  refine ⟨hc.kept.mounted.trans h.mounted, hs,
    ⟨hc.kept.opening.trans hg.opening, hc.heartbeat.trans hg.heartbeat,
      hc.presentation.trans hg.presentation, hreports.trans hg.reports,
      ?_⟩⟩
  rw [hc.shown, hended]
  exact hg.ended

theorem returned_reports (outcome : FinishOutcome) (p : Page) :
    (p.returned outcome).reports = p.reports := by
  obtain ⟨stage, he, -⟩ := Page.returned_eq outcome p
  rw [he]

theorem finishVerdict_reports (late : Bool) (f : Finishing)
    {next : Page → Page} (hnext : ∀ r, (next r).reports = r.reports)
    (p : Page) : (p.finishVerdict late f next).reports = p.reports := by
  unfold Page.finishVerdict
  split
  case h_1 => exact hnext _
  case h_2 => exact returned_reports f.outcome _
  case h_3 => exact returned_reports f.outcome _

/-- The last end may still be acknowledged. -/
theorem Over.finished (h : Over p) (f : Finishing) :
    Over (p.finished f) := by
  have hsound := sound_finished h.sound f
  unfold Page.finished at hsound ⊢
  simp only at hsound ⊢
  split at hsound
  case isTrue hcurrent =>
    rw [if_pos hcurrent]
    have hcleared : Over ((p.finishingEnds f).setCurrentPlayback none) :=
      ⟨h.mounted, (h.sound.finishingEnds f).of_eq rfl
        (List.Subset.refl _), h.gone.opening, h.gone.heartbeat,
        h.gone.presentation, h.gone.reports, h.gone.ended⟩
    obtain ⟨hcalm, hended⟩ := calm_returned f.outcome
      ((p.finishingEnds f).setCurrentPlayback none)
    exact hcleared.calm hcalm hended (returned_reports _ _) hsound
  case isFalse hcurrent =>
    rw [if_neg hcurrent]
    obtain ⟨hcalm, hended⟩ := calm_returned f.outcome (p.finishingEnds f)
    exact h.calm ((calm_finishingEnds f p).trans hcalm) hended
      (returned_reports _ _) hsound

/-- Nothing is presented on a page that is over. -/
theorem Over.afterwards (h : Over p) (input : Input) :
    Over (p.afterwards input) := by
  cases input with
  | done number =>
      show Over (p.done number)
      unfold Page.done
      cases hholder : p.holder ⟨number, false⟩ with
      | none => exact h
      | some holder =>
          obtain ⟨f, -, rfl⟩ := h.gone.finishing hholder
          exact h.finished f
  | failed number permanent late =>
      show Over (p.failed number permanent late)
      unfold Page.failed
      cases hholder : p.holder ⟨number, false⟩ with
      | none => exact h
      | some holder =>
          obtain ⟨f, hf, rfl⟩ := h.gone.finishing hholder
          obtain ⟨hcalm, hended, hsound⟩ := finishFails_calm h.sound
            (h.sound.finishing f hf) number late
          have hreports : (p.finishVerdict late f
              (Page.finishPauses number f)).reports = p.reports := by
            apply finishVerdict_reports
            intro r
            rfl
          exact h.calm hcalm hended hreports hsound
  | again number late =>
      show Over (p.again number late)
      unfold Page.again
      cases hholder : p.holder ⟨number, true⟩ with
      | none => exact h
      | some holder =>
          obtain ⟨f, hf, rfl⟩ := h.gone.finishing hholder
          obtain ⟨hcalm, hended, hsound⟩ := finishAgain_calm h.sound
            (h.sound.finishing f hf) late
          have hreports : (p.finishVerdict late f
              (Page.askFinished f)).reports = p.reports := by
            apply finishVerdict_reports
            intro r
            rfl
          exact h.calm hcalm hended hreports hsound
  | _ => exact h

-- ====================================== runs

/-- What every reachable page keeps. -/
structure Reached (p : Page) : Prop where
  sound : Sound p
  live : p.mounted = true → Live p
  gone : p.mounted = false → Gone p

/-- Every input keeps what is known of reached pages. -/
theorem Reached.step (h : Reached p) (input : Input) :
    Reached (p.step input) := by
  unfold Page.step
  by_cases hmounted : p.mounted = false
  case pos =>
    rw [if_pos hmounted]
    have hover := Over.afterwards ⟨hmounted, h.sound, h.gone hmounted⟩
      input
    refine ⟨hover.sound, fun ht => ?_, fun _ => hover.gone⟩
    rw [hover.mounted] at ht
    cases ht
  case neg =>
    rw [if_neg hmounted]
    rw [Bool.not_eq_false] at hmounted
    have hlive := h.live hmounted
    split
    case isTrue =>
      obtain ⟨hgone, hsound, hg⟩ := unmount_gone hlive h.sound
      refine ⟨hsound, fun ht => ?_, fun _ => hg⟩
      rw [hgone] at ht
      cases ht
    case isFalse =>
      obtain ⟨hl, hs, hm⟩ := settles_handle hlive h.sound input
      refine ⟨hs, fun _ => hl, fun hf => ?_⟩
      rw [hm, hmounted] at hf
      cases hf

theorem sound_first : Sound {} := by
  refine ⟨⟨?_, List.nodup_nil, ?_, List.nodup_nil, ?_, ?_,
    List.Sublist.refl _, ?_, List.Pairwise.nil, ?_, ?_⟩, ?_⟩
  · intro _ h
    cases h
  · intro _ h
    cases h
  · intro _ _ _ _ h
    cases h
  · intro _ _ _ _ h
    cases h
  · intro _ h
    cases h
  · intro _ h
    cases h
  · intro _ h
    cases h
  · intro _ h
    cases h

theorem reached_first : Reached {} := by
  refine ⟨sound_first, fun _ => live_off rfl rfl rfl rfl rfl rfl
    (fun _ => rfl) (fun _ h => ?_) (fun _ h => ?_), fun h => ?_⟩
  · cases h
  · cases h
  · cases h

/-- What holds of every page, whatever has happened to it. -/
theorem reached_run (inputs : List Input) :
    Reached (Run.run Page.step {} inputs) :=
  Run.run_preserves reached_first (fun _ input h => h.step input) inputs

/-- An alert is to be seen on the page. -/
def Page.OnScreen (p : Page) : Prop := p.mounted = true ∧ p.stage.Visible

/-- What is to be seen has entered and not ended. -/
theorem Live.onScreen (hl : Live p) (hvisible : p.stage.Visible) :
    ∃ run ∈ p.presentation, run.object ∈ p.shown
      ∧ run.object ∉ p.ended.map Prod.fst := by
  cases hrun : p.presentation with
  | none =>
      rw [hl.hidden hrun] at hvisible
      rcases hvisible with h | h | h <;> cases h
  | some run =>
      have hstands := hl.stands run hrun
      have hstage := hstands.stage
      -- The phases of which the stage is to be seen.
      have hopen : run.phase.begun = true ∧ run.phase.over = false := by
        cases hphase : run.phase with
        | entering assets => exact ⟨rfl, rfl⟩
        | shown channels => exact ⟨rfl, rfl⟩
        | exiting => exact ⟨rfl, rfl⟩
        | exited =>
            rw [hphase] at hstage
            rcases hstage with he | he <;> rw [he] at hvisible <;>
              rcases hvisible with h | h | h <;> cases h
        | completed =>
            rw [hphase] at hstage
            rcases hstage with he | he <;> rw [he] at hvisible <;>
              rcases hvisible with h | h | h <;> cases h
        | _ =>
            rw [hphase] at hstage
            rw [show p.stage = _ from hstage] at hvisible
            rcases hvisible with h | h | h <;> cases h
      refine ⟨run, rfl, hstands.shown.mpr hopen.1, fun he => ?_⟩
      rw [hstands.ended, hopen.2] at he
      cases he

/-- On every page whose updates are committed before its next handler
runs: a delivered alert enters once at most, and only after its start was
acknowledged; it ends once, and has ended unless it is the one that is
presented; a finish is only asked for what has ended so, and a heartbeat
only while the source is active and visible. What is to be seen is the
current playback, under the identity that it came with, and that identity
is active. -/
theorem page_protocol (inputs : List Input) :
    let p := Run.run Page.step {} inputs
    (p.shown.Nodup ∧ ∀ object ∈ p.shown, p.toLog.Acked object)
    ∧ ((p.ended.map Prod.fst).Nodup
      ∧ (∀ e ∈ p.ended, e.1 ∈ p.shown)
      ∧ ∀ object ∈ p.shown, object ∈ p.ended.map Prod.fst
        ∨ p.mounted = true ∧ p.playback.map Prod.fst = some object)
    ∧ (∀ playerID generation playbackID outcome,
      .finished playerID generation playbackID outcome ∈ p.sent →
      p.toLog.EndedAs playerID generation playbackID outcome)
    ∧ (∀ playerID generation active visible,
      .heartbeat playerID generation active visible ∈ p.sent →
      active = true ∧ visible = true)
    ∧ (p.OnScreen → ∃ object identity playback,
      p.playback = some (object, playback)
      ∧ p.identity = some identity ∧ identity.state = "active"
      ∧ p.view.canClaim = true
      ∧ p.toLog.origin object = some (identity, playback)
      ∧ object ∈ p.shown ∧ object ∉ p.ended.map Prod.fst) := by
  intro p
  have h : Reached p := reached_run inputs
  have hlog := h.sound.log
  refine ⟨⟨hlog.once, hlog.acked⟩,
    ⟨hlog.endedOnce, hlog.ended, fun object ho => ?_⟩, hlog.finished,
    hlog.beats, ?_⟩
  · by_cases hmounted : p.mounted = true
    case pos =>
      have hl := h.live hmounted
      rcases hl.owed object ho with he | ⟨run, hr, rfl⟩
      · exact .inl he
      · right
        rw [← hl.presenting, hr]
        exact ⟨hmounted, rfl⟩
    case neg =>
      rw [Bool.not_eq_true] at hmounted
      exact .inl ((h.gone hmounted).ended object ho)
  · rintro ⟨hmounted, hvisible⟩
    have hl := h.live hmounted
    obtain ⟨run, hr, hshown, hopen⟩ := hl.onScreen hvisible
    have hplayback : p.playback = some (run.object, run.playback) := by
      rw [← hl.presenting, hr]
      rfl
    obtain ⟨identity, hidentity, horigin⟩ := hl.origin hr
    have hactive := (hl.playing _ hplayback).1
    refine ⟨run.object, identity, run.playback, hplayback, hidentity, ?_,
      hl.active_canClaim hactive, horigin, hshown, hopen⟩
    rw [hidentity] at hactive
    exact hactive

end StreamBrew.Alert.Overlay
