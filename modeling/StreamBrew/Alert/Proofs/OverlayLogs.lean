/-
What an input adds to the logs of a page.

Requests and connections may be added by any input. A playback is added
by the event that brings it alone, an identity by its answer and an
acknowledged start by its own.
-/
import StreamBrew.Alert.Proofs.OverlayRuns
import StreamBrew.Alert.Screens

namespace StreamBrew.Alert.Overlay

/-- What was added to three of the logs; the others have grown. -/
structure Adds (received : List (Nat × Playback))
    (taken : List (Nat × OpenedPlayer)) (answered : List Nat)
    (p q : Page) : Prop where
  sent : p.sent <+: q.sent
  connected : p.connected <+: q.connected
  received : q.received = p.received ++ received
  taken : q.taken = p.taken ++ taken
  answered : q.answered = p.answered ++ answered

/-- The log stays as it is. -/
abbrev AddsNothing : Page → Page → Prop := Adds [] [] []

variable {p q r : Page} {received : List (Nat × Playback)}
  {taken : List (Nat × OpenedPlayer)} {answered : List Nat}

theorem AddsNothing.of_eq (hsent : p.sent <+: q.sent)
    (hconnected : p.connected <+: q.connected)
    (hreceived : q.received = p.received) (htaken : q.taken = p.taken)
    (hanswered : q.answered = p.answered) : AddsNothing p q := by
  refine ⟨hsent, hconnected, ?_, ?_, ?_⟩
  · rw [hreceived, List.append_nil]
  · rw [htaken, List.append_nil]
  · rw [hanswered, List.append_nil]

/-- The logs are left alone. -/
theorem AddsNothing.same (h : q.toLog = p.toLog) : AddsNothing p q := by
  refine .of_eq ?_ ?_ ?_ ?_ ?_ <;> rw [h]

/-- Nothing but requests and connections is touched. -/
theorem Adds.trans (h : Adds received taken answered p q)
    (h' : AddsNothing q r) : Adds received taken answered p r := by
  refine ⟨h.sent.trans h'.sent, h.connected.trans h'.connected, ?_, ?_, ?_⟩
  · rw [h'.received, List.append_nil, h.received]
  · rw [h'.taken, List.append_nil, h.taken]
  · rw [h'.answered, List.append_nil, h.answered]

/-- A request is sent. -/
theorem AddsNothing.ask {request : Request}
    (hsent : q.sent = p.sent ++ [request])
    (hconnected : q.connected = p.connected)
    (hreceived : q.received = p.received) (htaken : q.taken = p.taken)
    (hanswered : q.answered = p.answered) : AddsNothing p q := by
  refine .of_eq ?_ ?_ hreceived htaken hanswered
  · rw [hsent]
    exact List.prefix_append _ _
  · rw [hconnected]

namespace Page

-- ================================= callbacks

theorem addsNothing_returned (outcome : FinishOutcome) (p : Page) :
    AddsNothing p (p.returned outcome) := by
  obtain ⟨stage, he, -⟩ := returned_eq outcome p
  rw [he]
  exact .same rfl

theorem addsNothing_onFinished (identity : Option OpenedPlayer)
    (playbackID : PlaybackID) (outcome : FinishOutcome) (p : Page) :
    AddsNothing p (p.onFinished identity playbackID outcome) := by
  obtain ⟨sent, _, _, _, he, -⟩ :=
    onFinished_eq identity playbackID outcome p
  rw [he]
  exact .of_eq (List.prefix_append _ _) (List.prefix_refl _) rfl rfl rfl

theorem addsNothing_finishPresentation (identity : Option OpenedPlayer)
    (run : Presentation) (outcome : FinishOutcome) (p : Page) :
    AddsNothing p (p.finishPresentation identity run outcome) := by
  have h := addsNothing_onFinished identity run.playback.playbackID outcome
    { p with ended := p.ended ++ [(run.object, outcome)] }
  exact ⟨h.sent, h.connected, h.received, h.taken, h.answered⟩

theorem addsNothing_report (playbackID : PlaybackID)
    (codes : List DiagnosticCode) (p : Page) :
    AddsNothing p (p.report playbackID codes) := by
  obtain ⟨sent, _, _, he, -⟩ := report_eq playbackID codes p
  rw [he]
  exact .of_eq (List.prefix_append _ _) (List.prefix_refl _) rfl rfl rfl

theorem addsNothing_setPhase (phase : Phase) (p : Page) :
    AddsNothing p (p.setPhase phase) :=
  .same rfl

theorem addsNothing_onStarted (assets : LoadedAssets)
    (playbackID : PlaybackID) (p : Page) :
    AddsNothing p (p.onStarted assets playbackID) := by
  unfold onStarted
  split
  case h_1 => exact addsNothing_setPhase .failed p
  case h_2 =>
    split
    case isTrue => exact .ask rfl rfl rfl rfl rfl
    case isFalse => exact addsNothing_setPhase .failed p

theorem addsNothing_invalidate (identity : OpenedPlayer) (p : Page) :
    AddsNothing p (p.invalidateIdentity identity) := by
  unfold invalidateIdentity
  split <;> exact .same rfl

theorem addsNothing_suppress (p : Page) :
    AddsNothing p p.suppressServerInterruptedPlayback := by
  obtain ⟨_, _, he⟩ := suppress_eq p
  rw [he]
  exact .same rfl

-- =================================== effects

theorem addsNothing_beat (identity : OpenedPlayer)
    (source : AlertSourceState) (p : Page) :
    AddsNothing p (p.beat identity source) := by
  unfold beat
  split
  case isTrue => exact .ask rfl rfl rfl rfl rfl
  case isFalse => exact .same rfl

theorem addsNothing_interrupt (identity : Option OpenedPlayer)
    (presentation : Option Presentation) (p : Page) :
    AddsNothing p (interrupt identity presentation p) := by
  unfold interrupt
  split
  case h_1 => exact .same rfl
  case h_2 run =>
    split
    case isTrue => exact addsNothing_finishPresentation identity run _ p
    case isFalse => exact .same rfl

theorem addsNothing_startPlayback (new : View) (p : Page) :
    AddsNothing p (startPlayback new p) := by
  unfold startPlayback
  split
  case h_1 => exact .same rfl
  case h_2 => split <;> exact .same rfl

/-- No effect of a commit takes anything in. -/
theorem addsNothing_effects (old new : View) (p : Page) :
    AddsNothing p (p.effects old new) := by
  have hrelease : ∀ p : Page,
      AddsNothing p (useReleaseInactiveClaim old new p) := by
    intro p
    unfold useReleaseInactiveClaim
    split
    case isTrue => exact .same rfl
    case isFalse => split <;> exact .same rfl
  have hopen : ∀ p : Page,
      AddsNothing p (useOpenAlertOverlay old new p) := by
    intro p
    unfold useOpenAlertOverlay
    split
    case isTrue => exact .same rfl
    case isFalse =>
      split
      case isTrue => exact .ask rfl rfl rfl rfl rfl
      case isFalse => exact .same rfl
  have hstream : ∀ p : Page,
      AddsNothing p (useAlertEventStream old new p) := by
    intro p
    unfold useAlertEventStream
    split
    case isTrue => exact .same rfl
    case isFalse =>
      split
      case h_1 => exact .same rfl
      case h_2 =>
        split
        case isTrue =>
          exact .of_eq (List.prefix_refl _) (List.prefix_append _ _) rfl
            rfl rfl
        case isFalse => exact .same rfl
  have hheart : ∀ p : Page,
      AddsNothing p (useAlertHeartbeat old new p) := by
    intro p
    unfold useAlertHeartbeat
    split
    case isTrue => exact .same rfl
    case isFalse =>
      split
      case h_1 => exact .same rfl
      case h_2 identity _ =>
        split
        case isTrue => exact addsNothing_beat identity new.source p
        case isFalse => exact .same rfl
  have hplayer : ∀ p : Page,
      AddsNothing p (useAlertPlayerPresentation old new p) := by
    intro p
    unfold useAlertPlayerPresentation
    split
    case isTrue => exact .same rfl
    case isFalse =>
      have hcleared : AddsNothing p
          { p with presentation := none, reports := [] } := .same rfl
      exact (hcleared.trans (addsNothing_startPlayback new _)).trans
        (addsNothing_interrupt new.identity p.presentation _)
  exact ((((hrelease p).trans (hopen _)).trans (hstream _)).trans
    (hheart _)).trans (hplayer _)

theorem addsNothing_commit (old : View) (p : Page) :
    AddsNothing p (p.commit old) :=
  (addsNothing_effects old p.view p).trans
    (addsNothing_effects p.view _ _)

-- =================================== answers

theorem addsNothing_finished (f : Finishing) (p : Page) :
    AddsNothing p (p.finished f) := by
  have hends : AddsNothing p (p.finishingEnds f) := .same rfl
  unfold finished
  simp only
  split
  case isTrue =>
    have hcleared : AddsNothing p
        ((p.finishingEnds f).setCurrentPlayback none) := .same rfl
    exact hcleared.trans (addsNothing_returned f.outcome _)
  case isFalse => exact hends.trans (addsNothing_returned f.outcome _)

theorem addsNothing_startVerdict (late : Bool) (identity : OpenedPlayer)
    (playbackID : PlaybackID) {next : Page → Page}
    (hnext : ∀ p, AddsNothing p (next p)) (p : Page) :
    AddsNothing p (p.startVerdict late identity playbackID next) := by
  unfold startVerdict
  split
  case h_1 => exact addsNothing_setPhase .failed p
  case h_2 =>
    exact (addsNothing_invalidate identity p).trans
      (addsNothing_setPhase .failed _)
  case h_3 => exact hnext p

theorem addsNothing_heartbeatFailed (number : Nat)
    (identity : OpenedPlayer) (permanent : Bool) (p : Page) :
    AddsNothing p (p.heartbeatFailed number identity permanent) := by
  have hover : AddsNothing p { p with heartbeat := none } := .same rfl
  unfold heartbeatFailed
  split
  case isTrue => exact hover
  case isFalse =>
    split
    case isTrue => exact hover.trans (addsNothing_invalidate identity _)
    case isFalse => exact .same rfl

theorem addsNothing_finishVerdict (late : Bool) (f : Finishing)
    {next : Page → Page} (hnext : ∀ p, AddsNothing p (next p))
    (p : Page) : AddsNothing p (p.finishVerdict late f next) := by
  have hends : AddsNothing p (p.finishingEnds f) := .same rfl
  unfold finishVerdict
  split
  case h_1 => exact hends.trans (hnext _)
  case h_2 => exact hends.trans (addsNothing_returned f.outcome _)
  case h_3 => exact hends.trans (addsNothing_returned f.outcome _)

theorem addsNothing_reportVerdict (late : Bool) (r : Report)
    {next : Page → Page} (hnext : ∀ p, AddsNothing p (next p))
    (p : Page) : AddsNothing p (p.reportVerdict late r next) := by
  have hends : AddsNothing p (p.reportEnds r) := .same rfl
  unfold reportVerdict
  split
  case h_1 => exact hends.trans (hnext _)
  case h_2 => exact hends
  case h_3 => exact hends

theorem addsNothing_failed (number : Nat) (permanent late : Bool)
    (p : Page) : AddsNothing p (p.failed number permanent late) := by
  unfold failed
  split
  case h_1 => exact .same rfl
  case h_2 =>
    exact addsNothing_startVerdict late _ _
      (fun p => addsNothing_setPhase _ p) p
  case h_3 => exact addsNothing_heartbeatFailed number _ permanent p
  case h_4 =>
    refine addsNothing_reportVerdict late _ (fun p => ?_) p
    exact .same rfl
  case h_5 =>
    refine addsNothing_finishVerdict late _ (fun p => ?_) p
    exact .same rfl
  case h_6 => exact .same rfl

theorem addsNothing_again (number : Nat) (late : Bool) (p : Page) :
    AddsNothing p (p.again number late) := by
  unfold again
  split
  case h_1 => exact .ask rfl rfl rfl rfl rfl
  case h_2 =>
    refine addsNothing_startVerdict late _ _ (fun p => ?_) p
    exact .ask rfl rfl rfl rfl rfl
  case h_3 => exact addsNothing_beat _ _ p
  case h_4 =>
    refine addsNothing_reportVerdict late _ (fun p => ?_) p
    exact .ask rfl rfl rfl rfl rfl
  case h_5 =>
    refine addsNothing_finishVerdict late _ (fun p => ?_) p
    exact .ask rfl rfl rfl rfl rfl
  case h_6 => exact .same rfl

-- ================================ own inputs

theorem addsNothing_streamEnded (stream : Nat) (p : Page) :
    AddsNothing p (p.streamEnded stream) := by
  unfold streamEnded
  split
  case h_1 => exact .same rfl
  case h_2 identity _ =>
    split
    case isTrue => exact addsNothing_invalidate identity p
    case isFalse => exact .same rfl

theorem addsNothing_loaded (image sound tts : Bool) (p : Page) :
    AddsNothing p (p.loaded image sound tts) := by
  unfold loaded
  split
  case h_1 =>
    exact (addsNothing_report _ _ p).trans (addsNothing_setPhase _ _)
  case h_2 => exact .same rfl

theorem addsNothing_decoded (image : Bool) (p : Page) :
    AddsNothing p (p.decoded image) := by
  unfold decoded
  split
  case h_1 object playback assets _ =>
    have hreport := addsNothing_report playback.playbackID
      (if assets.imageUrl && !image then [.imageUnavailable] else []) p
    have hpreloaded : ∀ q : Page,
        AddsNothing q (q.dispatch .preloaded) := fun _ => .same rfl
    exact (hreport.trans (hpreloaded _)).trans
      (addsNothing_onStarted assets playback.playbackID _)
  case h_2 => exact .same rfl

theorem addsNothing_played (result : AudioPlaybackResult) (p : Page) :
    AddsNothing p (p.played result) := by
  unfold played
  split
  case h_1 =>
    exact (addsNothing_report _ _ p).trans (addsNothing_setPhase _ _)
  case h_2 => exact .same rfl

theorem addsNothing_finish (p : Page) : AddsNothing p p.finish := by
  unfold finish
  split
  case h_1 =>
    split
    case isTrue =>
      exact (addsNothing_setPhase .completed p).trans
        (addsNothing_finishPresentation _ _ _ _)
    case isFalse => exact .same rfl
  case h_2 => exact .same rfl

/-- What a page does by itself brings nothing in. -/
theorem addsNothing_handle {input : Input} (h : input.own = true)
    (p : Page) : AddsNothing p (p.handle input) := by
  cases input with
  | appeared => exact .same rfl
  | settled =>
      simp only [handle]
      split <;> exact .same rfl
  | activeChanged =>
      simp only [handle]
      split <;> exact .same rfl
  | visibleChanged =>
      simp only [handle]
      split <;> exact .same rfl
  | documentVisibilityChanged =>
      simp only [handle]
      split <;> exact .same rfl
  | opened => cases h
  | done => cases h
  | failed number permanent late =>
      exact addsNothing_failed number permanent late p
  | again number late => exact addsNothing_again number late p
  | event => cases h
  | streamEnded stream => exact addsNothing_streamEnded stream p
  | loaded image sound tts => exact addsNothing_loaded image sound tts p
  | decoded image => exact addsNothing_decoded image p
  | entered =>
      simp only [handle]
      unfold entered
      split <;> exact .same rfl
  | played result => exact addsNothing_played result p
  | leave =>
      simp only [handle]
      unfold leave
      split <;> exact .same rfl
  | exited =>
      simp only [handle]
      unfold exited
      split <;> exact .same rfl
  | finish => exact addsNothing_finish p
  | unmounted => exact .same rfl

theorem addsNothing_unmount (p : Page) : AddsNothing p p.unmount := by
  have h : ∀ q : Page, q.toLog = p.toLog →
      AddsNothing p (interrupt p.identity p.presentation q) :=
    fun q hq => (AddsNothing.same hq).trans
      (addsNothing_interrupt p.identity p.presentation q)
  exact h _ rfl

theorem addsNothing_afterwards {input : Input} (h : input.own = true)
    (p : Page) : AddsNothing p (p.afterwards input) := by
  cases input with
  | opened => cases h
  | done => cases h
  | event => cases h
  | failed number permanent late =>
      exact addsNothing_failed number permanent late p
  | again number late => exact addsNothing_again number late p
  | _ => exact .same rfl

-- ===================================== steps

/-- What comes from the page itself adds nothing. -/
theorem addsNothing_step {input : Input} (h : input.own = true)
    (p : Page) : AddsNothing p (p.step input) := by
  unfold step
  split
  case isTrue => exact addsNothing_afterwards h p
  case isFalse =>
    split
    case isTrue => exact addsNothing_unmount p
    case isFalse =>
      exact (addsNothing_handle h p).trans (addsNothing_commit p.view _)

/-- The answer to an open is taken at most once. -/
theorem adds_opened (number : Nat) (player : OpenedPlayer) (p : Page) :
    AddsNothing p (p.step (.opened number player))
      ∨ Adds [] [(number, player)] [] p
        (p.step (.opened number player)) := by
  have hopened : AddsNothing p (p.opened number player)
      ∨ Adds [] [(number, player)] [] p (p.opened number player) := by
    unfold opened
    split
    case isTrue =>
      right
      refine ⟨List.prefix_refl _, List.prefix_refl _, ?_, rfl, ?_⟩
      · exact (List.append_nil _).symm
      · exact (List.append_nil _).symm
    case isFalse => exact .inl (.same rfl)
  unfold step
  split
  case isTrue => exact .inl (.same rfl)
  case isFalse =>
    rw [if_neg (by simp)]
    simp only [handle]
    have hcommit := addsNothing_commit p.view (p.opened number player)
    rcases hopened with h | h
    · exact .inl (h.trans hcommit)
    · exact .inr (h.trans hcommit)

theorem adds_answer (number : Nat) (p : Page) :
    AddsNothing p (p.done number)
      ∨ Adds [] [] [number] p (p.done number) := by
  unfold done
  split
  case h_1 =>
    right
    refine ⟨List.prefix_refl _, List.prefix_refl _, ?_, ?_, rfl⟩
    · exact (List.append_nil _).symm
    · exact (List.append_nil _).symm
  case h_2 => exact .inl (.same rfl)
  case h_3 => exact .inl (.same rfl)
  case h_4 f _ => exact .inl (addsNothing_finished f p)
  case h_5 => exact .inl (.same rfl)
  case h_6 => exact .inl (.same rfl)

theorem adds_done (number : Nat) (p : Page) :
    AddsNothing p (p.step (.done number))
      ∨ Adds [] [] [number] p (p.step (.done number)) := by
  unfold step
  split
  case isTrue => exact adds_answer number p
  case isFalse =>
    rw [if_neg (by simp)]
    simp only [handle]
    have hcommit := addsNothing_commit p.view (p.done number)
    rcases adds_answer number p with h | h
    · exact .inl (h.trans hcommit)
    · exact .inr (h.trans hcommit)

/-- Only a playback of the stream that the page listens to is taken in. -/
theorem adds_event (stream : Nat) (event : StreamEvent) (p : Page) :
    AddsNothing p (p.step (.event stream event))
      ∨ ∃ playback, event = .playback playback
        ∧ Adds [(stream, playback)] [] [] p
          (p.step (.event stream event)) := by
  have hevent : AddsNothing p (p.event stream event)
      ∨ ∃ playback, event = .playback playback
        ∧ Adds [(stream, playback)] [] [] p (p.event stream event) := by
    unfold Page.event
    split
    case isFalse => exact .inl (.same rfl)
    case isTrue =>
      split
      case h_1 playback =>
        right
        refine ⟨playback, rfl, List.prefix_refl _, List.prefix_refl _, rfl,
          ?_, ?_⟩
        · exact (List.append_nil _).symm
        · exact (List.append_nil _).symm
      case h_2 =>
        left
        have hkey : AddsNothing p
            { p with interruptionKey := p.interruptionKey + 1 } :=
          .same rfl
        exact hkey.trans (addsNothing_suppress _)
      case h_3 =>
        left
        split
        case h_1 => exact addsNothing_suppress p
        case h_2 identity _ =>
          exact (addsNothing_suppress p).trans
            (addsNothing_invalidate identity _)
      case h_4 => exact .inl (.same rfl)
      case h_5 => exact .inl (.same rfl)
      case h_6 => exact .inl (.same rfl)
  unfold step
  split
  case isTrue => exact .inl (.same rfl)
  case isFalse =>
    rw [if_neg (by simp)]
    simp only [handle]
    have hcommit := addsNothing_commit p.view (p.event stream event)
    rcases hevent with h | ⟨playback, he, h⟩
    · exact .inl (h.trans hcommit)
    · exact .inr ⟨playback, he, h.trans hcommit⟩

end Page

end StreamBrew.Alert.Overlay
