/-
What an overlay page does, whatever happens to it.

An alert enters only after its start was acknowledged, once for each
playback object, and while it is to be seen the page is active under the
identity that the object came with. onFinished is called once for each
object at most, after it entered.

# Layers

- `Log.Sound`: what the logs say about each other. A log only grows, so
  each fact is one about the entry that is added.
- `Live`: how the effects that run belong to the state. It holds after
  each commit; the commits are computed once for each way in which a
  handler changes what the effects depend on.
-/
import StreamBrew.Lib.Run
import StreamBrew.Alert.Overlay

namespace StreamBrew.Alert.Overlay

variable {run : Presentation} {phase : Phase} {number : Nat}
  {assets : LoadedAssets}

variable {p q : Page} {old new : View} {log log' : Log}
  {object : Nat} {playerID : PlayerID} {generation : Int}
  {playbackID : PlaybackID} {outcome : FinishOutcome}

-- ================================ statements

/-- The identity that a playback object came under, and its playback. -/
def Log.origin (object : Nat) (log : Log) :
    Option (OpenedPlayer × Playback) :=
  log.received[object]?.bind fun received =>
    log.connected[received.1]?.map fun identity => (identity, received.2)

/-- The start of an object was acknowledged to its identity. -/
def Log.Acked (object : Nat) (log : Log) : Prop :=
  ∃ identity playback, log.origin object = some (identity, playback)
    ∧ ∃ number ∈ log.answered, log.sent[number]?
      = some (.started identity.playerID identity.generation
        playback.playbackID)

/-- onFinished was called with the outcome for an object of the playback,
under the player. -/
def Log.EndedAs (playerID : PlayerID) (generation : Int)
    (playbackID : PlaybackID) (outcome : FinishOutcome) (log : Log) :
    Prop :=
  ∃ object identity playback, (object, outcome) ∈ log.ended
    ∧ log.origin object = some (identity, playback)
    ∧ identity.playerID = playerID ∧ identity.generation = generation
    ∧ playback.playbackID = playbackID

/-- What the log of a page says of its alerts, whatever the page does next. -/
structure Log.Sound (log : Log) : Prop where
  acked : ∀ object ∈ log.shown, log.Acked object
  once : log.shown.Nodup
  ended : ∀ e ∈ log.ended, e.1 ∈ log.shown
  endedOnce : (log.ended.map Prod.fst).Nodup
  finished : ∀ playerID generation playbackID outcome,
    .finished playerID generation playbackID outcome ∈ log.sent →
    log.EndedAs playerID generation playbackID outcome
  beats : ∀ playerID generation active visible,
    .heartbeat playerID generation active visible ∈ log.sent →
    active = true ∧ visible = true
  connections : log.connected.Sublist (log.taken.map Prod.snd)
  active : ∀ identity ∈ log.connected, identity.state = "active"
  numbers : (log.taken.map Prod.fst).Pairwise (· < ·)
  asked : ∀ t ∈ log.taken, log.sent[t.1]? = some .openOverlay
  sources : ∀ r ∈ log.received, r.1 < log.connected.length

-- ====================================== logs

/-- The later log has all that the earlier one has, in its place. -/
structure Log.Grows (log log' : Log) : Prop where
  sent : log.sent <+: log'.sent
  connected : log.connected <+: log'.connected
  received : log.received <+: log'.received
  answered : log.answered ⊆ log'.answered
  ended : log.ended ⊆ log'.ended

theorem getElem?_grow {α : Type} {l l' : List α} {n : Nat} {a : α}
    (h : l <+: l') (ha : l[n]? = some a) : l'[n]? = some a := by
  obtain ⟨t, rfl⟩ := h
  obtain ⟨hn, -⟩ := List.getElem?_eq_some_iff.mp ha
  rw [List.getElem?_append_left hn]
  exact ha

theorem Log.origin_mono (hg : Log.Grows log log')
    {x : OpenedPlayer × Playback} (h : log.origin object = some x) :
    log'.origin object = some x := by
  unfold Log.origin at h ⊢
  obtain ⟨received, hr, hx⟩ := Option.bind_eq_some_iff.mp h
  obtain ⟨identity, hi, rfl⟩ := Option.map_eq_some_iff.mp hx
  rw [getElem?_grow hg.received hr, Option.bind_some,
    getElem?_grow hg.connected hi]
  rfl

theorem Log.Acked.mono (hg : Log.Grows log log') (h : log.Acked object) :
    log'.Acked object := by
  obtain ⟨identity, playback, ho, number, hn, hs⟩ := h
  exact ⟨identity, playback, Log.origin_mono hg ho, number,
    hg.answered hn, getElem?_grow hg.sent hs⟩

theorem Log.EndedAs.mono (hg : Log.Grows log log')
    (h : log.EndedAs playerID generation playbackID outcome) :
    log'.EndedAs playerID generation playbackID outcome := by
  obtain ⟨object, identity, playback, he, ho, hids⟩ := h
  exact ⟨object, identity, playback, hg.ended he, Log.origin_mono hg ho,
    hids⟩

namespace Log.Sound

/-- A request is sent that the log bears out. -/
theorem ask (h : log.Sound) {request : Request}
    (hfinished : ∀ playerID generation playbackID outcome,
      request = .finished playerID generation playbackID outcome →
      log.EndedAs playerID generation playbackID outcome)
    (hbeats : ∀ playerID generation active visible,
      request = .heartbeat playerID generation active visible →
      active = true ∧ visible = true) :
    Log.Sound { log with sent := log.sent ++ [request] } := by
  have hg : Log.Grows log { log with sent := log.sent ++ [request] } :=
    ⟨List.prefix_append _ _, List.prefix_refl _, List.prefix_refl _,
      List.Subset.refl _, List.Subset.refl _⟩
  refine { h with
    acked := fun object ho => (h.acked object ho).mono hg
    finished := fun playerID generation playbackID outcome hmem => ?_
    beats := fun playerID generation active visible hmem => ?_
    asked := fun t ht => getElem?_grow hg.sent (h.asked t ht) }
  · rcases List.mem_append.mp hmem with hold | hnew
    · exact (h.finished _ _ _ _ hold).mono hg
    · rw [List.mem_singleton] at hnew
      exact (hfinished _ _ _ _ hnew.symm).mono hg
  · rcases List.mem_append.mp hmem with hold | hnew
    · exact h.beats _ _ _ _ hold
    · rw [List.mem_singleton] at hnew
      exact hbeats _ _ _ _ hnew.symm

/-- A stream is opened with an identity that was taken last. -/
theorem connect (h : log.Sound) {identity : OpenedPlayer}
    (hactive : identity.state = "active")
    (hlast : (log.connected ++ [identity]).Sublist
      (log.taken.map Prod.snd)) :
    Log.Sound { log with connected := log.connected ++ [identity] } := by
  have hg : Log.Grows log
      { log with connected := log.connected ++ [identity] } :=
    ⟨List.prefix_refl _, List.prefix_append _ _, List.prefix_refl _,
      List.Subset.refl _, List.Subset.refl _⟩
  refine { h with
    acked := fun object ho => (h.acked object ho).mono hg
    finished := fun _ _ _ _ hmem => (h.finished _ _ _ _ hmem).mono hg
    connections := hlast
    active := fun i hi => ?_
    sources := fun r hr => ?_ }
  · rcases List.mem_append.mp hi with hold | hnew
    · exact h.active i hold
    · rw [List.mem_singleton.mp hnew]
      exact hactive
  · have hlt := h.sources r hr
    rw [List.length_append, List.length_singleton]
    omega

/-- An answer to openOverlay is taken. -/
theorem take (h : log.Sound) {player : OpenedPlayer}
    (hasked : log.sent[number]? = some .openOverlay)
    (hlater : ∀ t ∈ log.taken, t.1 < number) :
    Log.Sound { log with taken := log.taken ++ [(number, player)] } := by
  refine { h with
    connections := ?_
    numbers := ?_
    asked := fun t ht => ?_ }
  · rw [List.map_append]
    exact h.connections.trans (List.sublist_append_left _ _)
  · rw [List.map_append, List.pairwise_append]
    refine ⟨h.numbers, List.pairwise_singleton _ _, fun n hn m hm => ?_⟩
    obtain ⟨t, ht, rfl⟩ := List.mem_map.mp hn
    rw [List.map_cons, List.map_nil, List.mem_singleton] at hm
    rw [hm]
    exact hlater t ht
  · rcases List.mem_append.mp ht with hold | hnew
    · exact h.asked t hold
    · rw [List.mem_singleton.mp hnew]
      exact hasked

/-- A playback comes in on a stream. -/
theorem receive (h : log.Sound) {stream : Nat} {playback : Playback}
    (hstream : stream < log.connected.length) :
    Log.Sound
      { log with received := log.received ++ [(stream, playback)] } := by
  have hg : Log.Grows log
      { log with received := log.received ++ [(stream, playback)] } :=
    ⟨List.prefix_refl _, List.prefix_refl _, List.prefix_append _ _,
      List.Subset.refl _, List.Subset.refl _⟩
  refine { h with
    acked := fun object ho => (h.acked object ho).mono hg
    finished := fun _ _ _ _ hmem => (h.finished _ _ _ _ hmem).mono hg
    sources := fun r hr => ?_ }
  rcases List.mem_append.mp hr with hold | hnew
  · exact h.sources r hold
  · rw [List.mem_singleton.mp hnew]
    exact hstream

/-- A start is acknowledged, and its object enters. -/
theorem enter (h : log.Sound) {identity : OpenedPlayer} {playback : Playback}
    (horigin : log.origin object = some (identity, playback))
    (hstarted : log.sent[number]? = some (.started identity.playerID
      identity.generation playback.playbackID))
    (hnew : object ∉ log.shown) :
    Log.Sound { log with
      answered := log.answered ++ [number]
      shown := log.shown ++ [object] } := by
  have hg : Log.Grows log { log with
      answered := log.answered ++ [number]
      shown := log.shown ++ [object] } :=
    ⟨List.prefix_refl _, List.prefix_refl _, List.prefix_refl _,
      List.subset_append_left _ _, List.Subset.refl _⟩
  refine { h with
    acked := fun o ho => ?_
    once := ?_
    ended := fun e he => List.mem_append_left _ (h.ended e he)
    finished := fun _ _ _ _ hmem => (h.finished _ _ _ _ hmem).mono hg }
  · rcases List.mem_append.mp ho with hold | hlast
    · exact (h.acked o hold).mono hg
    · rw [List.mem_singleton.mp hlast]
      exact ⟨identity, playback, horigin, number,
        List.mem_append_right _ (List.mem_singleton_self _), hstarted⟩
  · show (log.shown ++ [object]).Nodup
    rw [← List.concat_eq_append]
    exact h.once.concat hnew

/-- onFinished is called for an object that entered. -/
theorem finish (h : log.Sound) (hshown : object ∈ log.shown)
    (hnew : object ∉ log.ended.map Prod.fst) :
    Log.Sound
      { log with ended := log.ended ++ [(object, outcome)] } := by
  have hg : Log.Grows log
      { log with ended := log.ended ++ [(object, outcome)] } :=
    ⟨List.prefix_refl _, List.prefix_refl _, List.prefix_refl _,
      List.Subset.refl _, List.subset_append_left _ _⟩
  refine { h with
    acked := fun o ho => (h.acked o ho).mono hg
    ended := fun e he => ?_
    endedOnce := ?_
    finished := fun _ _ _ _ hmem => (h.finished _ _ _ _ hmem).mono hg }
  · rcases List.mem_append.mp he with hold | hlast
    · exact h.ended e hold
    · rw [List.mem_singleton.mp hlast]
      exact hshown
  · rw [List.map_append, List.map_cons, List.map_nil,
      ← List.concat_eq_append]
    exact h.endedOnce.concat hnew

end Log.Sound

-- ===================================== pages

/-- The logs of a page, and the calls that it still owes an answer. -/
structure Sound (p : Page) : Prop where
  log : p.toLog.Sound
  finishing : ∀ f ∈ p.finishing, p.toLog.EndedAs f.identity.playerID
    f.identity.generation f.playbackID f.outcome

/-- The alert has entered. -/
def Phase.begun (phase : Phase) : Bool :=
  phase.interruptible || phase = .completed

/-- onFinished was called at the end. -/
def Phase.over : Phase → Bool
  | .completed => true
  | _ => false

theorem Phase.over_of_begun (h : phase.begun = false) :
    phase.over = false := by
  cases phase with
  | completed => cases h
  | _ => rfl

theorem Phase.open_of_interruptible
    (h : phase.interruptible = true) : phase.over = false := by
  cases phase with
  | completed => cases h
  | _ => rfl

/-- The stage that goes with a phase. -/
def Phase.At (stage : AlertPlayerStage) : Phase → Prop
  | .loading | .decoding _ => stage = .preloading
  | .starting _ _ _ | .failed => stage = .starting
  | .entering _ => stage = .entering
  | .shown _ => stage = .shown
  | .exiting => stage = .exiting
  | .exited | .completed => stage = .finishing ∨ stage = .idle

/-- How a presentation stands to its page. -/
structure Stands (p : Page) (run : Presentation) : Prop where
  shown : run.object ∈ p.shown ↔ run.phase.begun = true
  ended : run.object ∈ p.ended.map Prod.fst ↔ run.phase.over = true
  starting : ∀ assets identity loop,
    run.phase = .starting assets identity loop →
    p.identity = some identity
      ∧ p.sent[loop.number]? = some (.started identity.playerID
        identity.generation run.playback.playbackID)
  stage : run.phase.At p.stage

/-- How the hooks of a page stand to each other after a commit. -/
structure Live (p : Page) : Prop where
  idle : p.view.canClaim = false → p.identity = none ∧ p.opening = none
  stream : Active p.identity →
    ∃ stream, p.stream = some stream ∧ p.connected[stream]? = p.identity
  offline : ¬ Active p.identity → p.stream = none
  opening : p.opening ≠ none → ¬ Active p.identity
  asked : ∀ number, p.opening = some ⟨number, false⟩ →
    p.sent[number]? = some .openOverlay ∧ ∀ t ∈ p.taken, t.1 < number
  beating : ∀ beat ∈ p.heartbeat,
    Active p.identity ∧ p.identity = some beat.1
  playing : ∀ current ∈ p.playback, Active p.identity
    ∧ ∃ stream, p.stream = some stream
      ∧ p.received[current.1]? = some (stream, current.2)
  presenting :
    p.presentation.map (fun run => (run.object, run.playback)) = p.playback
  stands : ∀ run ∈ p.presentation, Stands p run
  hidden : p.presentation = none → p.stage = .idle
  owed : ∀ object ∈ p.shown, object ∈ p.ended.map Prod.fst
    ∨ ∃ run ∈ p.presentation, run.object = object

theorem Sound.of_eq (h : Sound p) (hlog : q.toLog = p.toLog)
    (hfinishing : q.finishing ⊆ p.finishing) : Sound q := by
  refine ⟨hlog ▸ h.log, fun f hf => ?_⟩
  rw [hlog]
  exact h.finishing f (hfinishing hf)

/-- The object of a presentation came under the identity of the page. -/
theorem Live.origin (h : Live p) (hrun : run ∈ p.presentation) :
    ∃ identity, p.identity = some identity
      ∧ p.toLog.origin run.object = some (identity, run.playback) := by
  have hplayback : p.playback = some (run.object, run.playback) := by
    rw [← h.presenting, hrun]
    rfl
  obtain ⟨hactive, stream, hstream, hreceived⟩ :=
    h.playing _ hplayback
  obtain ⟨stream', hstream', hconnected⟩ := h.stream hactive
  rw [hstream] at hstream'
  cases hstream'
  cases hidentity : p.identity with
  | none =>
      rw [hidentity] at hactive
      exact hactive.elim
  | some identity =>
      refine ⟨identity, rfl, ?_⟩
      unfold Log.origin
      rw [hreceived, Option.bind_some, hconnected, hidentity]
      rfl

theorem Live.active_canClaim (h : Live p) (hactive : Active p.identity) :
    p.view.canClaim = true := by
  by_contra hno
  rw [Bool.not_eq_true] at hno
  rw [(h.idle hno).1] at hactive
  exact hactive

-- ===================================== quiet

/-- Nothing that effects depend on, or that streams stand for, changes. -/
structure Kept (p q : Page) : Prop where
  mounted : q.mounted = p.mounted
  view : q.view = p.view
  opening : q.opening = p.opening
  stream : q.stream = p.stream
  connected : q.connected = p.connected
  received : q.received = p.received
  taken : q.taken = p.taken
  sent : p.sent <+: q.sent

theorem Kept.identity (h : Kept p q) : q.identity = p.identity :=
  congrArg View.identity h.view

theorem Kept.playback (h : Kept p q) : q.playback = p.playback :=
  congrArg View.playback h.view

theorem Kept.refl (p : Page) : Kept p p :=
  ⟨rfl, rfl, rfl, rfl, rfl, rfl, rfl, List.prefix_refl _⟩

theorem Kept.trans {r : Page} (h : Kept p q) (h' : Kept q r) : Kept p r :=
  ⟨h'.mounted.trans h.mounted, h'.view.trans h.view,
    h'.opening.trans h.opening, h'.stream.trans h.stream,
    h'.connected.trans h.connected, h'.received.trans h.received,
    h'.taken.trans h.taken, h.sent.trans h'.sent⟩

/-- Only requests are sent, and a late answer may clear the stage. -/
structure Calm (p q : Page) : Prop where
  kept : Kept p q
  presentation : q.presentation = p.presentation
  heartbeat : q.heartbeat = p.heartbeat
  shown : q.shown = p.shown
  stage : q.stage = p.stage ∨ p.stage = .finishing ∧ q.stage = .idle

/-- A change that leaves the identity and what is presented. -/
theorem Live.quiet (h : Live p) (hk : Kept p q)
    (hbeat : ∀ beat ∈ q.heartbeat,
      Active q.identity ∧ q.identity = some beat.1)
    (hrun : q.presentation.map (fun run => (run.object, run.playback))
      = p.presentation.map fun run => (run.object, run.playback))
    (hstands : ∀ run ∈ q.presentation, Stands q run)
    (hhidden : q.presentation = none → q.stage = .idle)
    (hended : p.ended ⊆ q.ended)
    (howed : ∀ object ∈ q.shown, object ∈ p.shown
      ∨ ∃ run ∈ q.presentation, run.object = object) : Live q := by
  refine ⟨?_, ?_, ?_, ?_, ?_, hbeat, ?_, ?_, hstands, hhidden, ?_⟩
  · rw [hk.view, hk.identity, hk.opening]
    exact h.idle
  · rw [hk.identity, hk.stream, hk.connected]
    exact h.stream
  · rw [hk.identity, hk.stream]
    exact h.offline
  · rw [hk.identity, hk.opening]
    exact h.opening
  · intro number hnumber
    rw [hk.opening] at hnumber
    obtain ⟨hsent, htaken⟩ := h.asked number hnumber
    rw [hk.taken]
    exact ⟨getElem?_grow hk.sent hsent, htaken⟩
  · rw [hk.identity, hk.playback, hk.stream, hk.received]
    exact h.playing
  · rw [hrun, hk.playback]
    exact h.presenting
  · intro object ho
    rcases howed object ho with hold | hnew
    · rcases h.owed object hold with he | ⟨run, hr, rfl⟩
      · exact .inl (List.map_subset _ hended he)
      · right
        have hobject : (run.object, run.playback)
            ∈ q.presentation.map fun r => (r.object, r.playback) := by
          rw [hrun]
          exact Option.mem_map_of_mem _ hr
        obtain ⟨r, hr, he⟩ := Option.mem_map.mp hobject
        exact ⟨r, hr, congrArg Prod.fst he⟩
    · exact .inr hnew

namespace Page

theorem kept_setPhase (phase : Phase) (p : Page) :
    Kept p (p.setPhase phase) :=
  ⟨rfl, rfl, rfl, rfl, rfl, rfl, rfl, List.prefix_refl _⟩

theorem presentation_setPhase (phase : Phase)
    (h : p.presentation = some run) :
    (p.setPhase phase).presentation = some { run with phase } := by
  unfold setPhase
  rw [h]
  rfl

theorem returned_eq (outcome : FinishOutcome) (p : Page) :
    ∃ stage, p.returned outcome = { p with stage }
      ∧ (stage = p.stage ∨ p.stage = .finishing ∧ stage = .idle) := by
  unfold returned dispatch reduceAlertPlayerStage
  split
  case isTrue =>
    refine ⟨_, rfl, ?_⟩
    by_cases hs : p.stage = .finishing
    · right
      exact ⟨hs, if_pos hs⟩
    · left
      exact if_neg hs
  case isFalse => exact ⟨p.stage, rfl, .inl rfl⟩

/-- What a call of onFinished does at once. -/
theorem onFinished_eq (identity : Option OpenedPlayer)
    (playbackID : PlaybackID) (outcome : FinishOutcome) (p : Page) :
    ∃ sent finishing serverInterrupted stage,
      p.onFinished identity playbackID outcome
        = { p with sent := p.sent ++ sent, finishing, serverInterrupted,
                   stage }
      ∧ (stage = p.stage ∨ p.stage = .finishing ∧ stage = .idle)
      ∧ ((sent = [] ∧ finishing = p.finishing)
        ∨ ∃ current ∈ identity, p.continues current playbackID = true
          ∧ sent = [.finished current.playerID current.generation
            playbackID outcome]
          ∧ finishing = p.finishing ++ [⟨current, playbackID, outcome,
            ⟨p.sent.length, false⟩⟩]) := by
  unfold onFinished
  split
  case isTrue =>
    refine ⟨[], p.finishing, p.serverInterrupted.filter (· ≠ playbackID),
      p.stage, ?_, .inl rfl, .inl ⟨rfl, rfl⟩⟩
    rw [List.append_nil]
  case isFalse =>
    obtain ⟨stage, hreturned, hstage⟩ := returned_eq outcome p
    have hnone : p.returned outcome
        = { p with sent := p.sent ++ [], finishing := p.finishing
                   serverInterrupted := p.serverInterrupted, stage } := by
      rw [hreturned, List.append_nil]
    split
    case h_1 => exact ⟨[], _, _, stage, hnone, hstage, .inl ⟨rfl, rfl⟩⟩
    case h_2 current =>
      split
      case isTrue hactive =>
        exact ⟨_, _, p.serverInterrupted, p.stage, rfl, .inl rfl,
          .inr ⟨current, rfl, hactive.2, rfl, rfl⟩⟩
      case isFalse =>
        exact ⟨[], _, _, stage, hnone, hstage, .inl ⟨rfl, rfl⟩⟩

theorem onFinished_calm (identity : Option OpenedPlayer)
    (playbackID : PlaybackID) (outcome : FinishOutcome) (p : Page) :
    Calm p (p.onFinished identity playbackID outcome)
      ∧ (p.onFinished identity playbackID outcome).ended = p.ended := by
  obtain ⟨sent, finishing, suppressed, stage, he, hstage, -⟩ :=
    onFinished_eq identity playbackID outcome p
  rw [he]
  have hk : Kept p { p with
      sent := p.sent ++ sent, finishing, serverInterrupted := suppressed
      stage } :=
    ⟨rfl, rfl, rfl, rfl, rfl, rfl, rfl, List.prefix_append _ _⟩
  exact ⟨⟨hk, rfl, rfl, rfl, hstage⟩, rfl⟩

/-- Ending a presentation adds one end to the log. -/
theorem finishPresentation_calm (identity : Option OpenedPlayer)
    (run : Presentation) (outcome : FinishOutcome) (p : Page) :
    Calm p (p.finishPresentation identity run outcome)
      ∧ (p.finishPresentation identity run outcome).ended
        = p.ended ++ [(run.object, outcome)] := by
  obtain ⟨hcalm, hended⟩ := onFinished_calm identity
    run.playback.playbackID outcome
    { p with ended := p.ended ++ [(run.object, outcome)] }
  have hk := hcalm.kept
  have hkept : Kept p (p.finishPresentation identity run outcome) :=
    ⟨hk.mounted, hk.view, hk.opening, hk.stream, hk.connected, hk.received,
      hk.taken, hk.sent⟩
  exact ⟨⟨hkept, hcalm.presentation, hcalm.heartbeat, hcalm.shown,
    hcalm.stage⟩, hended⟩

/-- Diagnostics are asked, and nothing else. -/
theorem report_eq (playbackID : PlaybackID) (codes : List DiagnosticCode)
    (p : Page) :
    ∃ sent sentDiagnostics reports,
      p.report playbackID codes
        = { p with sent := p.sent ++ sent, sentDiagnostics, reports }
      ∧ ∀ request ∈ sent, ∃ playerID generation code,
        request = .diagnostic playerID generation playbackID code := by
  have hone : ∀ (code : DiagnosticCode) (p : Page),
      ∃ sent sentDiagnostics reports,
        p.onDiagnostic playbackID code
          = { p with sent := p.sent ++ sent, sentDiagnostics, reports }
        ∧ ∀ request ∈ sent, ∃ playerID generation code,
          request = .diagnostic playerID generation playbackID code := by
    intro code p
    have hsame : ∃ sent sentDiagnostics reports,
        p = { p with sent := p.sent ++ sent, sentDiagnostics, reports }
          ∧ ∀ request ∈ sent, ∃ playerID generation code,
            request = .diagnostic playerID generation playbackID code := by
      refine ⟨[], p.sentDiagnostics, p.reports, ?_, fun r hr => ?_⟩
      · rw [List.append_nil]
      · cases hr
    unfold onDiagnostic
    split
    case h_1 => exact hsame
    case h_2 identity hidentity =>
      split
      case isFalse => exact hsame
      case isTrue =>
        split
        case isTrue => exact hsame
        case isFalse =>
          refine ⟨_, _, _, rfl, fun r hr => ?_⟩
          rw [List.mem_singleton.mp hr]
          exact ⟨_, _, _, rfl⟩
  unfold report
  induction codes generalizing p with
  | nil =>
      refine ⟨[], p.sentDiagnostics, p.reports, ?_, fun r hr => ?_⟩
      · rw [List.append_nil]
        rfl
      · cases hr
  | cons code codes ih =>
      rw [List.foldl_cons]
      obtain ⟨sent, diagnostics, reports, he, hsent⟩ := hone code p
      obtain ⟨sent', diagnostics', reports', he', hsent'⟩ :=
        ih (p.onDiagnostic playbackID code)
      refine ⟨sent ++ sent', diagnostics', reports', ?_, fun r hr => ?_⟩
      · rw [he', he]
        simp only [List.append_assoc]
      · rcases List.mem_append.mp hr with hr | hr
        · exact hsent r hr
        · exact hsent' r hr

/-- The loop is its holder's. -/
def Holder.Has (loop : Loop) (p : Page) : Holder → Prop
  | .opening => p.opening = some loop
  | .starting run assets identity => p.presentation = some run
      ∧ run.phase = .starting assets identity loop
  | .heartbeat identity => p.heartbeat = some (identity, loop)
  | .report r => r ∈ p.reports ∧ r.loop = loop
  | .finishing f => f ∈ p.finishing ∧ f.loop = loop

/-- A loop that is found belongs to its holder. -/
theorem holder_has {loop : Loop} {holder : Holder}
    (h : p.holder loop = some holder) : holder.Has loop p := by
  unfold Page.holder at h
  split at h
  case isTrue hopening =>
    cases h
    exact hopening
  case isFalse =>
    rcases Option.or_eq_some_iff.mp h with h | ⟨-, h⟩
    · unfold startingOf at h
      split at h
      case h_2 => cases h
      case h_1 hpresentation =>
        split at h
        case isFalse => cases h
        case isTrue hloop =>
          cases h
          exact ⟨hpresentation, hloop ▸ rfl⟩
    rcases Option.or_eq_some_iff.mp h with h | ⟨-, h⟩
    · unfold heartbeatOf at h
      split at h
      case h_2 => cases h
      case h_1 hheartbeat =>
        split at h
        case isFalse => cases h
        case isTrue hloop =>
          cases h
          exact hloop ▸ hheartbeat
    rcases Option.or_eq_some_iff.mp h with h | ⟨-, h⟩
    · obtain ⟨r, hr, rfl⟩ := Option.map_eq_some_iff.mp h
      exact ⟨List.mem_of_find?_eq_some hr,
        by simpa using List.find?_some hr⟩
    · obtain ⟨f, hf, rfl⟩ := Option.map_eq_some_iff.mp h
      exact ⟨List.mem_of_find?_eq_some hf,
        by simpa using List.find?_some hf⟩

end Page

/-- A request may be sent when what it says is in the log. -/
theorem Sound.ask (h : Sound p) {request : Request}
    (hfinished : ∀ playerID generation playbackID outcome,
      request = .finished playerID generation playbackID outcome →
      p.toLog.EndedAs playerID generation playbackID outcome)
    (hbeats : ∀ playerID generation active visible,
      request = .heartbeat playerID generation active visible →
      active = true ∧ visible = true) :
    Sound { p with sent := p.sent ++ [request] } := by
  refine ⟨h.log.ask hfinished hbeats, fun f hf => ?_⟩
  refine (h.finishing f hf).mono ?_
  exact ⟨List.prefix_append _ _, List.prefix_refl _, List.prefix_refl _,
    List.Subset.refl _, List.Subset.refl _⟩

/-- Requests that neither end an alert nor keep a lease. -/
theorem Sound.askAll (h : Sound p) {requests : List Request}
    (hplain : ∀ request ∈ requests, ∃ playerID generation playbackID code,
      request = .diagnostic playerID generation playbackID code) :
    Sound { p with sent := p.sent ++ requests } := by
  induction requests generalizing p with
  | nil =>
      rw [List.append_nil]
      exact h
  | cons request requests ih =>
      obtain ⟨a, b, c, d, rfl⟩ := hplain request List.mem_cons_self
      have hone : Sound { p with sent := p.sent ++ [.diagnostic a b c d] } := by
        refine h.ask (fun _ _ _ _ he => ?_) (fun _ _ _ _ he => ?_)
        · cases he
        · cases he
      have hrest := ih hone fun r hr => hplain r (List.mem_cons_of_mem _ hr)
      simpa only [List.append_assoc, List.singleton_append] using hrest

/-- onFinished is called for an alert that was ended so. -/
theorem Sound.onFinished (h : Sound p) {identity : Option OpenedPlayer}
    (hends : ∀ current ∈ identity, p.toLog.EndedAs current.playerID
      current.generation playbackID outcome) :
    Sound (p.onFinished identity playbackID outcome) := by
  obtain ⟨sent, finishing, suppressed, stage, he, -, hsent⟩ :=
    Page.onFinished_eq identity playbackID outcome p
  rw [he]
  rcases hsent with ⟨rfl, rfl⟩ | ⟨current, hcurrent, -, rfl, rfl⟩
  · refine h.of_eq ?_ (List.Subset.refl _)
    simp only [List.append_nil]
  · have hended := hends current hcurrent
    have hasked : Sound { p with sent := p.sent ++ [.finished
        current.playerID current.generation playbackID outcome] } := by
      refine h.ask (fun _ _ _ _ he => ?_) (fun _ _ _ _ he => ?_)
      · cases he
        exact hended
      · cases he
    refine ⟨hasked.log, fun f hf => ?_⟩
    rcases List.mem_append.mp hf with hold | hnew
    · exact hasked.finishing f hold
    · rw [List.mem_singleton.mp hnew]
      refine hended.mono ?_
      exact ⟨List.prefix_append _ _, List.prefix_refl _,
        List.prefix_refl _, List.Subset.refl _, List.Subset.refl _⟩

/-- A presentation that has entered ends. -/
theorem Sound.finishPresentation (h : Sound p)
    {identity : Option OpenedPlayer} (hshown : run.object ∈ p.shown)
    (hnew : run.object ∉ p.ended.map Prod.fst)
    (horigin : ∀ current ∈ identity,
      p.toLog.origin run.object = some (current, run.playback)) :
    Sound (p.finishPresentation identity run outcome) := by
  have hended : Sound
      { p with ended := p.ended ++ [(run.object, outcome)] } := by
    refine ⟨h.log.finish hshown hnew, fun f hf => ?_⟩
    refine (h.finishing f hf).mono ?_
    exact ⟨List.prefix_refl _, List.prefix_refl _, List.prefix_refl _,
      List.Subset.refl _, List.subset_append_left _ _⟩
  refine hended.onFinished fun current hcurrent => ?_
  exact ⟨run.object, current, run.playback,
    List.mem_append_right _ (List.mem_singleton_self _),
    horigin current hcurrent, rfl, rfl, rfl⟩

-- ==================================== phases

theorem Phase.At.returned {stage stage' : AlertPlayerStage}
    (h : phase.At stage)
    (hstage : stage' = stage ∨ stage = .finishing ∧ stage' = .idle) :
    phase.At stage' := by
  rcases hstage with rfl | ⟨rfl, rfl⟩
  · exact h
  · cases phase with
    | exited => exact .inr rfl
    | completed => exact .inr rfl
    | _ => cases h

/-- What a presentation stands for does not change. -/
theorem Stands.keep (h : Stands p run)
    (hshown : q.shown = p.shown) (hended : q.ended = p.ended)
    (hidentity : q.identity = p.identity) (hsent : p.sent <+: q.sent)
    (hstage : run.phase.At q.stage) : Stands q run := by
  refine ⟨?_, ?_, fun assets identity loop hphase => ?_, hstage⟩
  · rw [hshown]
    exact h.shown
  · rw [hended]
    exact h.ended
  · obtain ⟨hi, hs⟩ := h.starting assets identity loop hphase
    exact ⟨hidentity.trans hi, getElem?_grow hsent hs⟩

/-- A presentation that has not come to its end moves on. -/
theorem Stands.move (h : Stands p run) (hshown : q.shown = p.shown)
    (hended : q.ended = p.ended) (hbegun : phase.begun = run.phase.begun)
    (hover : phase.over = run.phase.over)
    (hstarting : ∀ assets identity loop,
      phase ≠ .starting assets identity loop)
    (hstage : phase.At q.stage) : Stands q { run with phase } := by
  refine ⟨?_, ?_, fun assets identity loop hphase => ?_, hstage⟩
  · rw [hshown, hbegun]
    exact h.shown
  · rw [hended, hover]
    exact h.ended
  · exact absurd hphase (hstarting assets identity loop)

/-- The hooks agree after a calm change, as before. -/
theorem Live.calm (h : Live p) (hc : Calm p q) (hended : q.ended = p.ended) :
    Live q := by
  refine h.quiet hc.kept ?_ (by rw [hc.presentation]) (fun run hr => ?_)
    (fun hnone => ?_) ?_ fun object ho => ?_
  · rw [hc.heartbeat, hc.kept.identity]
    exact h.beating
  · rw [hc.presentation] at hr
    have hs := h.stands run hr
    exact hs.keep hc.shown hended hc.kept.identity hc.kept.sent
      (hs.stage.returned hc.stage)
  · rw [hc.presentation] at hnone
    have hidle := h.hidden hnone
    rcases hc.stage with he | ⟨hf, -⟩
    · exact he.trans hidle
    · rw [hidle] at hf
      cases hf
  · rw [hended]
    exact List.Subset.refl _
  · rw [hc.shown] at ho
    exact .inl ho

/-- The presentation takes another phase. -/
theorem Live.rephase (h : Live p) (hk : Kept p q)
    (phase : Phase) (hp : p.presentation = some run)
    (hq : q.presentation = some { run with phase })
    (hbeat : q.heartbeat = p.heartbeat) (hended : p.ended ⊆ q.ended)
    (hshown : ∀ object ∈ q.shown, object ∈ p.shown ∨ run.object = object)
    (hstands : Stands q { run with phase }) : Live q := by
  refine h.quiet hk ?_ ?_ (fun r hr => ?_) (fun hnone => ?_) hended
    fun object ho => ?_
  · rw [hbeat, hk.identity]
    exact h.beating
  · rw [hp, hq]
    rfl
  · rw [hq] at hr
    cases hr
    exact hstands
  · rw [hq] at hnone
    cases hnone
  · rcases hshown object ho with hold | hnew
    · exact .inl hold
    · exact .inr ⟨_, hq, hnew⟩

-- ============================== quiet inputs

/-- A handler after which no effect runs. -/
structure Quiet (p q : Page) : Prop where
  kept : Kept p q
  sound : Sound q
  live : Live q

section

variable (hl : Live p) (hs : Sound p)
include hl hs

theorem quiet_refl : Quiet p p :=
  ⟨⟨rfl, rfl, rfl, rfl, rfl, rfl, rfl, List.prefix_refl _⟩, hs, hl⟩

/-- Reports, and the next phase of the presentation. -/
theorem quiet_report
    (hrun : p.presentation = some run) (codes : List DiagnosticCode)
    (hbegun : phase.begun = run.phase.begun)
    (hover : phase.over = run.phase.over)
    (hstarting : ∀ assets identity loop,
      phase ≠ .starting assets identity loop)
    (hstage : phase.At p.stage) :
    Quiet p ((p.report playbackID codes).setPhase phase) := by
  obtain ⟨sent, diagnostics, reports, he, hplain⟩ :=
    Page.report_eq playbackID codes p
  rw [he]
  have hk : Kept p (Page.setPhase phase { p with
      sent := p.sent ++ sent, sentDiagnostics := diagnostics, reports }) :=
    ⟨rfl, rfl, rfl, rfl, rfl, rfl, rfl, List.prefix_append _ _⟩
  refine ⟨hk, ?_, ?_⟩
  · refine (hs.askAll fun request hr => ?_).of_eq rfl
      (List.Subset.refl _)
    obtain ⟨a, b, c, rfl⟩ := hplain request hr
    exact ⟨a, b, playbackID, c, rfl⟩
  · exact hl.rephase hk phase hrun
      (Page.presentation_setPhase phase hrun) rfl
      (List.Subset.refl _) (fun _ => .inl)
      ((hl.stands run hrun).move rfl rfl hbegun hover hstarting hstage)

/-- The next phase, with the action that it dispatches. -/
theorem quiet_advance
    {action : AlertPlayerAction} (hrun : p.presentation = some run)
    (hbegun : phase.begun = run.phase.begun)
    (hover : phase.over = run.phase.over)
    (hstarting : ∀ assets identity loop,
      phase ≠ .starting assets identity loop)
    (hstage : phase.At (reduceAlertPlayerStage p.stage action)) :
    Quiet p ((p.dispatch action).setPhase phase) := by
  have hk : Kept p ((p.dispatch action).setPhase phase) :=
    ⟨rfl, rfl, rfl, rfl, rfl, rfl, rfl, List.prefix_refl _⟩
  exact ⟨hk, hs.of_eq rfl (List.Subset.refl _),
    hl.rephase hk phase hrun
      (Page.presentation_setPhase phase hrun) rfl
      (List.Subset.refl _) (fun _ => .inl)
      ((hl.stands run hrun).move rfl rfl hbegun hover hstarting hstage)⟩

theorem quiet_loaded (image sound tts : Bool) :
    Quiet p (p.loaded image sound tts) := by
  unfold Page.loaded
  split
  case h_2 => exact quiet_refl hl hs
  case h_1 object playback hrun =>
    refine quiet_report hl hs hrun _ rfl rfl ?_ (hl.stands _ hrun).stage
    · intro assets identity loop h
      cases h

theorem quiet_entered : Quiet p p.entered := by
  unfold Page.entered
  split
  case h_2 => exact quiet_refl hl hs
  case h_1 object playback assets hrun =>
    have hstage : p.stage = .entering := (hl.stands _ hrun).stage
    refine quiet_advance hl hs hrun rfl rfl ?_ ?_
    · intro assets identity loop h
      cases h
    · rw [hstage]
      rfl

theorem quiet_played (result : AudioPlaybackResult) :
    Quiet p (p.played result) := by
  unfold Page.played
  split
  case h_2 => exact quiet_refl hl hs
  case h_1 object playback kind rest hrun =>
    refine quiet_report hl hs hrun _ rfl rfl ?_ (hl.stands _ hrun).stage
    · intro assets identity loop h
      cases h

theorem quiet_leave : Quiet p p.leave := by
  unfold Page.leave
  split
  case h_2 => exact quiet_refl hl hs
  case h_1 object playback hrun =>
    have hstage : p.stage = .shown := (hl.stands _ hrun).stage
    refine quiet_advance hl hs hrun rfl rfl ?_ ?_
    · intro assets identity loop h
      cases h
    · rw [hstage]
      rfl

theorem quiet_exited : Quiet p p.exited := by
  unfold Page.exited
  split
  case h_2 => exact quiet_refl hl hs
  case h_1 object playback hrun =>
    have hstage : p.stage = .exiting := (hl.stands _ hrun).stage
    refine quiet_advance hl hs hrun rfl rfl ?_ ?_
    · intro assets identity loop h
      cases h
    · rw [hstage]
      exact .inl rfl

/-- A presentation that has come to its end. -/
theorem quiet_finish : Quiet p p.finish := by
  unfold Page.finish
  split
  case h_2 => exact quiet_refl hl hs
  case h_1 object playback hrun =>
    split
    case isFalse => exact quiet_refl hl hs
    case isTrue =>
      have hstands := hl.stands _ hrun
      have hshown : object ∈ p.shown := hstands.shown.mpr rfl
      have hnew : object ∉ p.ended.map Prod.fst := by
        intro he
        cases hstands.ended.mp he
      obtain ⟨identity, hidentity, horigin⟩ := hl.origin hrun
      have hphased : Sound (p.setPhase .completed) :=
        hs.of_eq rfl (List.Subset.refl _)
      have hsound : Sound ((p.setPhase .completed).finishPresentation
          p.identity ⟨object, playback, .completed⟩ .completed) := by
        refine hphased.finishPresentation hshown hnew fun current hc => ?_
        rw [hidentity] at hc
        cases hc
        exact horigin
      obtain ⟨hcalm, hended⟩ := Page.finishPresentation_calm p.identity
        ⟨object, playback, .completed⟩ .completed (p.setPhase .completed)
      have hkept := (Page.kept_setPhase .completed p).trans hcalm.kept
      refine ⟨hkept, hsound, hl.rephase hkept .completed hrun ?_
        hcalm.heartbeat ?_ (fun o ho => ?_) ?_⟩
      · rw [hcalm.presentation, Page.presentation_setPhase _ hrun]
      · rw [hended]
        exact List.subset_append_left _ _
      · rw [hcalm.shown] at ho
        exact .inl ho
      · refine ⟨?_, ⟨fun _ => rfl, fun _ => ?_⟩, fun _ _ _ h => ?_, ?_⟩
        · rw [hcalm.shown]
          exact ⟨fun _ => rfl, fun _ => hshown⟩
        · rw [hended, List.map_append]
          exact List.mem_append_right _ List.mem_cons_self
        · cases h
        · have hexited : (Phase.exited).At p.stage := hstands.stage
          exact hexited.returned hcalm.stage

-- ------------------------------------------------------------ starts

omit hl in
theorem sound_askStarted (assets : LoadedAssets)
    (identity : OpenedPlayer) (playbackID : PlaybackID) :
    Sound (p.askStarted assets identity playbackID) := by
  have hasked : Sound { p with sent := p.sent ++ [.started
      identity.playerID identity.generation playbackID] } := by
    refine hs.ask (fun _ _ _ _ h => ?_) (fun _ _ _ _ h => ?_)
    · cases h
    · cases h
  exact hasked.of_eq rfl (List.Subset.refl _)

end

theorem kept_askStarted (assets : LoadedAssets) (identity : OpenedPlayer)
    (playbackID : PlaybackID) (p : Page) :
    Kept p (p.askStarted assets identity playbackID) :=
  ⟨rfl, rfl, rfl, rfl, rfl, rfl, rfl, List.prefix_append _ _⟩

/-- The attempt of a presentation that has not entered. -/
theorem stands_askStarted {identity : OpenedPlayer}
    (assets : LoadedAssets) (hnew : run.object ∉ p.shown)
    (hopen : run.object ∉ p.ended.map Prod.fst)
    (hidentity : p.identity = some identity) (hstage : p.stage = .starting) :
    Stands (p.askStarted assets identity run.playback.playbackID)
      { run with
        phase := .starting assets identity ⟨p.sent.length, false⟩ } := by
  refine ⟨⟨fun h => absurd h hnew, fun h => ?_⟩,
    ⟨fun h => absurd h hopen, fun h => ?_⟩, fun a i l h => ?_, hstage⟩
  · cases h
  · cases h
  · cases h
    exact ⟨hidentity, List.getElem?_concat_length⟩

/-- A presentation that has not entered is nowhere in the logs. -/
theorem Stands.fresh (h : Stands p run) (hbegun : run.phase.begun = false) :
    run.object ∉ p.shown ∧ run.object ∉ p.ended.map Prod.fst := by
  constructor
  · intro hs
    rw [h.shown.mp hs] at hbegun
    cases hbegun
  · intro he
    have hover := h.ended.mp he
    rw [Phase.over_of_begun hbegun] at hover
    cases hover

section

variable (hl : Live p) (hs : Sound p)
include hl hs

theorem quiet_setPhase (hrun : p.presentation = some run)
    (hstands : Stands (p.setPhase phase) { run with phase }) :
    Quiet p (p.setPhase phase) :=
  ⟨Page.kept_setPhase phase p, hs.of_eq rfl (List.Subset.refl _),
    hl.rephase (Page.kept_setPhase phase p) phase hrun
      (Page.presentation_setPhase phase hrun) rfl (List.Subset.refl _)
      (fun _ => .inl) hstands⟩

/-- onStarted throws. -/
theorem quiet_startFails {identity : OpenedPlayer} {loop : Loop}
    (hrun : p.presentation = some run)
    (hphase : run.phase = .starting assets identity loop) :
    Quiet p (p.setPhase .failed) := by
  have hstands := hl.stands run hrun
  refine quiet_setPhase hl hs hrun (hstands.move rfl rfl ?_ ?_ ?_ ?_)
  · rw [hphase]
    rfl
  · rw [hphase]
    rfl
  · intro _ _ _ h
    cases h
  · have hstage := hstands.stage
    rw [hphase] at hstage
    exact hstage

/-- Another attempt to start. -/
theorem quiet_startAgain {identity : OpenedPlayer} {loop : Loop}
    (hrun : p.presentation = some run)
    (hphase : run.phase = .starting assets identity loop) :
    Quiet p
      (p.askStarted assets identity run.playback.playbackID) := by
  have hstands := hl.stands run hrun
  obtain ⟨hnew, hopen⟩ := hstands.fresh (by rw [hphase]; rfl)
  have hstage := hstands.stage
  rw [hphase] at hstage
  have hk := kept_askStarted assets identity run.playback.playbackID p
  refine ⟨hk, sound_askStarted hs assets identity _,
    hl.rephase hk _ hrun (Page.presentation_setPhase _ hrun) rfl
      (List.Subset.refl _) (fun _ => .inl)
      (stands_askStarted assets hnew hopen ?_ hstage)⟩
  exact (hstands.starting _ _ _ hphase).1

/-- An attempt to start fails, and the loop pauses. -/
theorem quiet_startPauses {identity : OpenedPlayer}
    (hrun : p.presentation = some run)
    (hphase : run.phase = .starting assets identity ⟨number, false⟩) :
    Quiet p (p.setPhase (.starting assets identity ⟨number, true⟩)) := by
  have hstands := hl.stands run hrun
  obtain ⟨hnew, hopen⟩ := hstands.fresh (by rw [hphase]; rfl)
  have hstage := hstands.stage
  rw [hphase] at hstage
  refine quiet_setPhase hl hs hrun ⟨⟨fun h => absurd h hnew, fun h => ?_⟩,
    ⟨fun h => absurd h hopen, fun h => ?_⟩, fun a i l h => ?_, hstage⟩
  · cases h
  · cases h
  · cases h
    exact hstands.starting assets identity ⟨number, false⟩ hphase

/-- A start is acknowledged. -/
theorem quiet_started {identity : OpenedPlayer}
    (hrun : p.presentation = some run)
    (hphase : run.phase = .starting assets identity ⟨number, false⟩) :
    Quiet p (p.started number run assets) := by
  have hstands := hl.stands run hrun
  obtain ⟨hnew, hopen⟩ := hstands.fresh (by rw [hphase]; rfl)
  obtain ⟨hidentity, hsent⟩ := hstands.starting _ _ _ hphase
  have hstage : p.stage = .starting := by
    have h := hstands.stage
    rw [hphase] at h
    exact h
  obtain ⟨current, hcurrent, horigin⟩ := hl.origin hrun
  rw [hidentity] at hcurrent
  cases hcurrent
  have hk : Kept p (p.started number run assets) :=
    ⟨rfl, rfl, rfl, rfl, rfl, rfl, rfl, List.prefix_refl _⟩
  refine ⟨hk, ⟨hs.log.enter horigin hsent hnew, fun f hf => ?_⟩, ?_⟩
  · refine (hs.finishing f hf).mono ?_
    exact ⟨List.prefix_refl _, List.prefix_refl _, List.prefix_refl _,
      List.subset_append_left _ _, List.Subset.refl _⟩
  · refine hl.rephase hk (.entering assets) hrun
      (Page.presentation_setPhase _ hrun) rfl (List.Subset.refl _)
      (fun o ho => ?_) ⟨?_, ⟨fun h => absurd h hopen, fun h => ?_⟩, ?_, ?_⟩
    · rcases List.mem_append.mp ho with hold | hlast
      · exact .inl hold
      · exact .inr (List.mem_singleton.mp hlast).symm
    · exact ⟨fun _ => rfl,
        fun _ => List.mem_append_right _ (List.mem_singleton_self _)⟩
    · cases h
    · intro _ _ _ h
      cases h
    · show reduceAlertPlayerStage p.stage .started = .entering
      rw [hstage]
      rfl

omit hs in
/-- The first attempt to start, on a page that has reported meanwhile. -/
theorem quiet_onStarted (run : Presentation) (assets : LoadedAssets)
    (hc : Kept p q) (hrun : p.presentation = some run)
    (hq : q.presentation = p.presentation)
    (hbeat : q.heartbeat = p.heartbeat) (hshown : q.shown = p.shown)
    (hended : q.ended = p.ended) (hsound : Sound q)
    (hstage : q.stage = .starting) (hfresh : run.phase.begun = false) :
    Quiet p (q.onStarted assets run.playback.playbackID) := by
  have hstands := hl.stands run hrun
  have hnew := hstands.fresh hfresh
  rw [hrun] at hq
  have hgrown : p.ended ⊆ q.ended := by
    rw [hended]
    exact List.Subset.refl _
  have hsame : ∀ object ∈ q.shown, object ∈ p.shown
      ∨ run.object = object := by
    intro object ho
    rw [hshown] at ho
    exact .inl ho
  have hfails : Quiet p (q.setPhase .failed) := by
    have hk := hc.trans (Page.kept_setPhase .failed q)
    refine ⟨hk, hsound.of_eq rfl (List.Subset.refl _),
      hl.rephase hk .failed hrun (Page.presentation_setPhase _ hq) hbeat
        hgrown hsame (hstands.move hshown hended ?_ ?_ ?_ hstage)⟩
    · rw [hfresh]
      rfl
    · rw [Phase.over_of_begun hfresh]
      rfl
    · intro _ _ _ h
      cases h
  unfold Page.onStarted
  split
  case h_1 => exact hfails
  case h_2 identity hidentity =>
    split
    case isFalse => exact hfails
    case isTrue =>
      rw [← hshown, ← hended] at hnew
      have hk := hc.trans
        (kept_askStarted assets identity run.playback.playbackID q)
      exact ⟨hk, sound_askStarted hsound assets identity _,
        hl.rephase hk _ hrun (Page.presentation_setPhase _ hq) hbeat
          hgrown hsame
          (stands_askStarted assets hnew.1 hnew.2 hidentity hstage)⟩

/-- The image is decoded, and the start is asked for. -/
theorem quiet_decoded (image : Bool) : Quiet p (p.decoded image) := by
  unfold Page.decoded
  split
  case h_2 => exact quiet_refl hl hs
  case h_1 object playback assets hrun =>
    have hstage : p.stage = .preloading := (hl.stands _ hrun).stage
    obtain ⟨sent, diagnostics, reports, he, hplain⟩ :=
      Page.report_eq playback.playbackID
        (if assets.imageUrl && !image then [.imageUnavailable] else []) p
    simp only
    rw [he]
    refine quiet_onStarted hl ⟨object, playback, .decoding assets⟩ assets
      ⟨rfl, rfl, rfl, rfl, rfl, rfl, rfl, List.prefix_append _ _⟩ hrun rfl
      rfl rfl rfl ?_ ?_ rfl
    · refine (hs.askAll fun request hr => ?_).of_eq rfl
        (List.Subset.refl _)
      obtain ⟨a, b, c, rfl⟩ := hplain request hr
      exact ⟨a, b, playback.playbackID, c, rfl⟩
    · show reduceAlertPlayerStage p.stage .preloaded = .starting
      rw [hstage]
      rfl

-- -------------------------------------------------- the other loops

theorem quiet_heartbeat {beat : Option (OpenedPlayer × Loop)}
    (hbeat : ∀ b ∈ beat, Active p.identity ∧ p.identity = some b.1) :
    Quiet p { p with heartbeat := beat } := by
  have hk : Kept p { p with heartbeat := beat } :=
    ⟨rfl, rfl, rfl, rfl, rfl, rfl, rfl, List.prefix_refl _⟩
  refine ⟨hk, hs.of_eq rfl (List.Subset.refl _),
    hl.quiet hk hbeat rfl (fun run hr => ?_) hl.hidden
      (List.Subset.refl _) fun _ => .inl⟩
  have h := hl.stands run hr
  exact h.keep rfl rfl rfl (List.prefix_refl _) h.stage

omit hs in
/-- While a page is active, its source is active and visible. -/
theorem source_of_active (hactive : Active p.identity) :
    p.view.source.active = some true
      ∧ p.view.source.visible = some true := by
  have h := hl.active_canClaim hactive
  unfold View.canClaim at h
  simp only [Bool.and_eq_true, decide_eq_true_eq] at h
  exact ⟨h.1.2, h.2⟩

omit hl hs in
theorem active_of_same {identity : OpenedPlayer}
    (h : sameIdentity p.identity identity = true) : Active p.identity := by
  unfold sameIdentity at h
  cases hp : p.identity with
  | none =>
      rw [hp] at h
      cases h
  | some left =>
      rw [hp] at h
      simp only [Bool.and_eq_true, decide_eq_true_eq] at h
      exact h.1.1

/-- A beat of the active identity. -/
theorem quiet_beat {identity : OpenedPlayer}
    (hidentity : p.identity = some identity) :
    Quiet p (p.beat identity p.view.source) := by
  unfold Page.beat
  split
  case isFalse =>
    refine quiet_heartbeat hl hs fun b hb => ?_
    cases hb
  case isTrue hsame =>
    obtain ⟨hactive, hvisible⟩ :=
      source_of_active hl (active_of_same hsame)
    have hk : Kept p { p with
        sent := p.sent ++ [.heartbeat identity.playerID identity.generation
          (p.view.source.active = some true)
          (p.view.source.visible = some true)]
        heartbeat := some (identity, ⟨p.sent.length, false⟩) } :=
      ⟨rfl, rfl, rfl, rfl, rfl, rfl, rfl, List.prefix_append _ _⟩
    refine ⟨hk, ?_, hl.quiet hk (fun b hb => ?_) rfl (fun run hr => ?_)
      hl.hidden (List.Subset.refl _) fun _ => .inl⟩
    · refine (hs.ask (fun _ _ _ _ h => ?_) (fun _ _ _ _ h => ?_)).of_eq rfl
        (List.Subset.refl _)
      · cases h
      · cases h
        rw [hactive, hvisible]
        exact ⟨rfl, rfl⟩
    · cases hb
      exact ⟨active_of_same hsame, hidentity⟩
    · have h := hl.stands run hr
      exact h.keep rfl rfl rfl (List.prefix_append _ _) h.stage

/-- A change of the reports that sends only diagnostics. -/
theorem quiet_reports {requests : List Request} {reports : List Report}
    (hplain : ∀ request ∈ requests, ∃ playerID generation playbackID code,
      request = .diagnostic playerID generation playbackID code) :
    Quiet p { p with sent := p.sent ++ requests, reports } := by
  have hk : Kept p { p with sent := p.sent ++ requests, reports } :=
    ⟨rfl, rfl, rfl, rfl, rfl, rfl, rfl, List.prefix_append _ _⟩
  exact ⟨hk, (hs.askAll hplain).of_eq rfl (List.Subset.refl _),
    hl.calm ⟨hk, rfl, rfl, rfl, .inl rfl⟩ rfl⟩

omit hl in
theorem sound_returned (outcome : FinishOutcome) :
    Sound (p.returned outcome) := by
  obtain ⟨stage, he, -⟩ := Page.returned_eq outcome p
  rw [he]
  exact hs.of_eq rfl (List.Subset.refl _)

omit hl hs in
theorem calm_returned (outcome : FinishOutcome) (p : Page) :
    Calm p (p.returned outcome) ∧ (p.returned outcome).ended = p.ended := by
  obtain ⟨stage, he, hstage⟩ := Page.returned_eq outcome p
  rw [he]
  exact ⟨⟨⟨rfl, rfl, rfl, rfl, rfl, rfl, rfl, List.prefix_refl _⟩, rfl,
    rfl, rfl, hstage⟩, rfl⟩

end

end StreamBrew.Alert.Overlay
