/-
The overlay page: use-alert-overlay.ts and the player that it drives,
alert-player-runtime.ts.

# Inputs

A page is a state machine over what may happen to it: a signal of its
source, an answer to one of its requests or the failure of one, a line of
its event stream, the end of a wait, the progress of its player. How long
a wait is, is not modelled; an input may say that a deadline has passed.

# Effects

A handler changes the state, and React then runs the effects whose
dependencies are not those of the last commit (`View`): `Page.commit`
follows each handler, and once more for what the effects themselves have
set.

# Scheduling

When React renders, and when it runs the effects of a commit, is not in
the source. A page here is one on which that comes before the next
handler runs, and everything that is proved about pages is under this
assumption. React may let handlers in between: it batches state updates,
and runs most effects in a task of their own. Such a handler would see
the state and the effects of the commit before, so that a line of an old
stream could still be taken after the page has given the stream up.

# Logs

`sent`, `connected`, `received`, `taken`, `answered`, `shown` and `ended`
only grow. The number of a request is its place in `sent`, that of a stream its
place in `connected`, and that of a playback object its place in
`received`: the page compares objects, not the playbacks in them.
-/
import StreamBrew.Alert.Stream

namespace StreamBrew.Alert

-- ================================ the source

/-- What the page knows of its own visibility. -/
structure AlertSourceSignals where
  active : Option Bool := none
  documentVisible : Bool := false
  obsPresent : Bool := true
  obsVisible : Option Bool := none
  settled : Bool := false
  deriving DecidableEq, Repr

/-- What the page makes of its signals. -/
structure AlertSourceState where
  active : Option Bool
  visible : Option Bool
  ready : Bool
  deriving DecidableEq, Repr

/-- Without OBS there is nothing to wait for. -/
def initialAlertSourceSignals (obsPresent documentVisible : Bool) :
    AlertSourceSignals :=
  { active := if obsPresent then none else some true
    documentVisible
    obsPresent
    obsVisible := if obsPresent then none else some true
    settled := !obsPresent }

/-- OBS that has been silent long enough is taken to show the page. -/
def resolveAlertSourceState (signals : AlertSourceSignals) :
    AlertSourceState :=
  if !signals.obsPresent then
    { active := some true, visible := some true, ready := true }
  else
    let visible :=
      match signals.obsVisible with
      | none =>
          if signals.settled then some signals.documentVisible else none
      | some obsVisible => some (signals.documentVisible && obsVisible)
    let active :=
      match signals.active with
      | some active => some active
      | none => if signals.settled then visible else none
    { active, visible, ready := active.isSome && visible.isSome }

/-- The time in which OBS may report has passed. -/
def settleAlertSourceSignals (signals : AlertSourceSignals) :
    AlertSourceSignals :=
  { signals with settled := true }

-- ================================ the player

/-- The stages of the player on screen. -/
inductive AlertPlayerStage
  | idle
  | preloading
  | starting
  | entering
  | shown
  | exiting
  | finishing
  deriving DecidableEq, Repr

/-- What moves the player from one stage to another. -/
inductive AlertPlayerAction
  | begin
  | preloaded
  | started
  | entered
  | leave
  | exited
  | finished
  | reset
  deriving DecidableEq, Repr

/-- An action out of turn leaves the stage as it is. -/
def reduceAlertPlayerStage (stage : AlertPlayerStage) :
    AlertPlayerAction → AlertPlayerStage
  | .begin => .preloading
  | .preloaded => if stage = .preloading then .starting else stage
  | .started => if stage = .starting then .entering else stage
  | .entered => if stage = .entering then .shown else stage
  | .leave =>
      if stage = .entering ∨ stage = .shown then .exiting else stage
  | .exited => if stage = .exiting then .finishing else stage
  | .finished => if stage = .finishing then .idle else stage
  | .reset => .idle

/-- `visibleStage` is not hidden. -/
def AlertPlayerStage.Visible (stage : AlertPlayerStage) : Prop :=
  stage = .entering ∨ stage = .shown ∨ stage = .exiting

instance (stage : AlertPlayerStage) : Decidable stage.Visible :=
  inferInstanceAs (Decidable (_ ∨ _))

/-- The two sounds of an alert. -/
inductive AudioKind
  | sound
  | tts
  deriving DecidableEq, Repr

/-- How the playing of a sound ended. -/
inductive AudioPlaybackResult
  | completed
  | unavailable
  | blocked
  | aborted
  deriving DecidableEq, Repr

/-- What is reported of a sound that was not played. -/
def resolveAudioDiagnosticCode (kind : AudioKind) :
    AudioPlaybackResult → Option DiagnosticCode
  | .blocked => some .audioBlocked
  | .unavailable =>
      match kind with
      | .sound => some .soundUnavailable
      | .tts => some .ttsUnavailable
  | .completed | .aborted => none

/-- Which files were loaded. -/
structure LoadedAssets where
  imageUrl : Bool
  soundUrl : Bool
  ttsUrl : Bool
  deriving DecidableEq, Repr

/-- The codes of reportMissingAssets. -/
def missingAssets (playback : Playback) (assets : LoadedAssets) :
    List DiagnosticCode :=
  (if playback.imageAssetID.isSome && !assets.imageUrl
    then [.imageUnavailable] else [])
  ++ (if playback.soundAssetID.isSome && !assets.soundUrl
    then [.soundUnavailable] else [])
  ++ if playback.ttsAssetID.isSome && !assets.ttsUrl
    then [.ttsUnavailable] else []

/-- The channels that presentPlayback plays one after the other. -/
def LoadedAssets.channels (assets : LoadedAssets) : List AudioKind :=
  (if assets.soundUrl then [.sound] else [])
  ++ if assets.ttsUrl then [.tts] else []

-- ================================== requests

namespace Overlay

/-- A request of the page; all carry its token. -/
inductive Request
  | openOverlay
  | heartbeat (playerID : PlayerID) (generation : Int)
      (active visible : Bool)
  | started (playerID : PlayerID) (generation : Int)
      (playbackID : PlaybackID)
  | finished (playerID : PlayerID) (generation : Int)
      (playbackID : PlaybackID) (outcome : FinishOutcome)
  | diagnostic (playerID : PlayerID) (generation : Int)
      (playbackID : PlaybackID) (code : DiagnosticCode)
  deriving DecidableEq, Repr

/-- A loop of attempts: it waits for the answer to its last one, or for
the time of the next. -/
structure Loop where
  number : Nat
  pausing : Bool := false
  deriving DecidableEq, Repr

/-- assertAcknowledgementActive, and then requireRemainingTime. -/
inductive Verdict
  | aborted
  | timedOut
  | goesOn
  deriving DecidableEq, Repr

/-- An asset that comes in late is not used. -/
def verdict (continues late : Bool) : Verdict :=
  if !continues then .aborted else if late then .timedOut else .goesOn

/-- A call of onFinished that has not returned. -/
structure Finishing where
  identity : OpenedPlayer
  playbackID : PlaybackID
  outcome : FinishOutcome
  loop : Loop
  deriving DecidableEq, Repr

/-- A call of onDiagnostic that has not returned. -/
structure Report where
  identity : OpenedPlayer
  playbackID : PlaybackID
  code : DiagnosticCode
  loop : Loop
  deriving DecidableEq, Repr

/-- Where runPlayback stands; `failed` is a start that was not
acknowledged. -/
inductive Phase
  | loading
  | decoding (assets : LoadedAssets)
  | starting (assets : LoadedAssets) (identity : OpenedPlayer)
      (loop : Loop)
  | entering (assets : LoadedAssets)
  | shown (channels : List AudioKind)
  | exiting
  | exited
  | completed
  | failed
  deriving DecidableEq, Repr

/-- `started && !completed` -/
def Phase.interruptible : Phase → Bool
  | .entering _ | .shown _ | .exiting | .exited => true
  | _ => false

/-- A playback effect that has not been cleaned up. -/
structure Presentation where
  object : Nat
  playback : Playback
  phase : Phase := .loading
  deriving DecidableEq, Repr

-- ====================================== page

/-- What a page has done so far. -/
structure Log where
  sent : List Request := []
  /-- the identities that streams were opened with -/
  connected : List OpenedPlayer := []
  /-- playbacks, with the streams they came from -/
  received : List (Nat × Playback) := []
  /-- answers to openOverlay that were taken -/
  taken : List (Nat × OpenedPlayer) := []
  /-- starts that were acknowledged -/
  answered : List Nat := []
  /-- playback objects that entered -/
  shown : List Nat := []
  /-- playback objects that onFinished was called for -/
  ended : List (Nat × FinishOutcome) := []

/-- A page: the state of its hooks, its loops and requests, and its log. -/
structure Page extends Log where
  mounted : Bool := true
  signals : AlertSourceSignals := {}
  identity : Option OpenedPlayer := none
  playback : Option (Nat × Playback) := none
  interruptionKey : Nat := 0
  openCycle : Nat := 0
  serverInterrupted : List PlaybackID := []
  sentDiagnostics : List (PlaybackID × DiagnosticCode) := []
  opening : Option Loop := none
  stream : Option Nat := none
  heartbeat : Option (OpenedPlayer × Loop) := none
  presentation : Option Presentation := none
  stage : AlertPlayerStage := .idle
  finishing : List Finishing := []
  reports : List Report := []

/-- What the effects depend on. -/
structure View where
  source : AlertSourceState
  identity : Option OpenedPlayer
  playback : Option (Nat × Playback)
  interruptionKey : Nat
  openCycle : Nat
  deriving DecidableEq, Repr

/-- The page is ready, active and visible. -/
def View.canClaim (v : View) : Bool :=
  v.source.ready && v.source.active = some true
    && v.source.visible = some true

/-- `identity?.state === "active"` -/
def Active : Option OpenedPlayer → Prop
  | none => False
  | some player => player.state = "active"

instance : ∀ identity, Decidable (Active identity)
  | none => inferInstanceAs (Decidable False)
  | some player => inferInstanceAs (Decidable (player.state = "active"))

/-- `active` of the player. -/
def View.Presents (v : View) : Prop :=
  Active v.identity ∧ v.canClaim = true

instance (v : View) : Decidable v.Presents :=
  inferInstanceAs (Decidable (_ ∧ _))

/-- Both are the same active player. -/
def sameIdentity (left : Option OpenedPlayer) (right : OpenedPlayer) :
    Bool :=
  match left with
  | none => false
  | some left => left.state = "active" && left.playerID = right.playerID
      && left.generation = right.generation

namespace Page

/-- What the effects of a commit depend on. -/
def view (p : Page) : View where
  source := resolveAlertSourceState p.signals
  identity := p.identity
  playback := p.playback
  interruptionKey := p.interruptionKey
  openCycle := p.openCycle

/-- The playback that is current, if any. -/
def playbackID (p : Page) : Option PlaybackID :=
  p.playback.map fun current => current.2.playbackID

/-- The `shouldContinue` of an acknowledgement. -/
def continues (identity : OpenedPlayer) (playbackID : PlaybackID)
    (p : Page) : Bool :=
  sameIdentity p.identity identity && p.playbackID = some playbackID

/-- The reducer of the player takes an action. -/
def dispatch (action : AlertPlayerAction) (p : Page) : Page :=
  { p with stage := reduceAlertPlayerStage p.stage action }

/-- The setter of the hook, whose argument is the next identity. -/
def setIdentity (next : Option OpenedPlayer) (p : Page) : Page :=
  { p with identity := next }

/-- Diagnostics are remembered for one playback only. -/
def setCurrentPlayback (next : Option (Nat × Playback)) (p : Page) :
    Page :=
  { p with
    sentDiagnostics :=
      if p.playbackID ≠ next.map (fun current => current.2.playbackID)
      then [] else p.sentDiagnostics
    playback := next }

/-- The current playback goes, and its end will not be acknowledged. -/
def suppressServerInterruptedPlayback (p : Page) : Page :=
  setCurrentPlayback none
    (match p.playback with
    | none => p
    | some current =>
        if current.2.playbackID ∈ p.serverInterrupted then p
        else { p with
          serverInterrupted :=
            p.serverInterrupted ++ [current.2.playbackID] })

/-- The player is lost, and the page opens a new one. -/
def invalidateIdentity (failed : OpenedPlayer) (p : Page) : Page :=
  if sameIdentity p.identity failed then
    let cleared := (p.setCurrentPlayback none).setIdentity none
    { cleared with openCycle := cleared.openCycle + 1 }
  else p

-- ================================= callbacks

/-- onStarted has thrown, or returned. -/
def setPhase (phase : Phase) (p : Page) : Page :=
  { p with
    presentation := p.presentation.map fun run => { run with phase } }

/-- An attempt to start. -/
def askStarted (assets : LoadedAssets) (identity : OpenedPlayer)
    (playbackID : PlaybackID) (p : Page) : Page :=
  { p with
    sent := p.sent ++ [.started identity.playerID identity.generation
      playbackID] : Page }.setPhase
      (.starting assets identity ⟨p.sent.length, false⟩)

/-- The player asks for the acknowledgement of its start. -/
def onStarted (assets : LoadedAssets) (playbackID : PlaybackID)
    (p : Page) : Page :=
  match p.identity with
  | none => p.setPhase .failed
  | some identity =>
      if identity.state = "active" ∧ p.continues identity playbackID then
        p.askStarted assets identity playbackID
      else p.setPhase .failed

/-- An attempt of a call of onFinished. -/
def askFinished (f : Finishing) (p : Page) : Page :=
  { p with
    sent := p.sent ++ [.finished f.identity.playerID
      f.identity.generation f.playbackID f.outcome]
    finishing :=
      p.finishing ++ [{ f with loop := ⟨p.sent.length, false⟩ }] }

/-- A call of onFinished returns. -/
def returned (outcome : FinishOutcome) (p : Page) : Page :=
  if outcome = .completed then p.dispatch .finished else p

/-- `resolveAlertFinishAcknowledgement` -/
def suppressed (playbackID : PlaybackID) (outcome : FinishOutcome)
    (p : Page) : Bool :=
  outcome = .interrupted && playbackID ∈ p.serverInterrupted

/-- The player asks for the acknowledgement of its end, unless the service has
interrupted the playback itself. -/
def onFinished (identity : Option OpenedPlayer) (playbackID : PlaybackID)
    (outcome : FinishOutcome) (p : Page) : Page :=
  if p.suppressed playbackID outcome then
    { p with
      serverInterrupted := p.serverInterrupted.filter (· ≠ playbackID) }
  else
    match identity with
    | none => p.returned outcome
    | some identity =>
        if identity.state = "active"
            ∧ p.continues identity playbackID then
          p.askFinished ⟨identity, playbackID, outcome, ⟨0, false⟩⟩
        else p.returned outcome

/-- The presentation is over, and is logged so. -/
def finishPresentation (identity : Option OpenedPlayer) (run : Presentation)
    (outcome : FinishOutcome) (p : Page) : Page :=
  onFinished identity run.playback.playbackID outcome
    { p with ended := p.ended ++ [(run.object, outcome)] }

/-- An attempt of a call of onDiagnostic. -/
def askDiagnostic (r : Report) (p : Page) : Page :=
  { p with
    sent := p.sent ++ [.diagnostic r.identity.playerID
      r.identity.generation r.playbackID r.code]
    reports := p.reports ++ [{ r with loop := ⟨p.sent.length, false⟩ }] }

/-- A diagnostic is sent once for each playback. -/
def onDiagnostic (playbackID : PlaybackID) (code : DiagnosticCode)
    (p : Page) : Page :=
  match p.identity with
  | none => p
  | some identity =>
      if identity.state = "active" ∧ p.continues identity playbackID then
        if (playbackID, code) ∈ p.sentDiagnostics then p
        else
          { p with
            sentDiagnostics := p.sentDiagnostics ++ [(playbackID, code)]
          }.askDiagnostic ⟨identity, playbackID, code, ⟨0, false⟩⟩
      else p

/-- Several diagnostics of one playback, in order. -/
def report (playbackID : PlaybackID) (codes : List DiagnosticCode)
    (p : Page) : Page :=
  codes.foldl (fun p code => p.onDiagnostic playbackID code) p

-- =================================== effects

/-- The effect that gives the claim up when the page may no longer hold it. -/
def useReleaseInactiveClaim (old new : View) (p : Page) : Page :=
  if old.canClaim = new.canClaim ∧ old.identity = new.identity
      ∨ new.canClaim = true ∨ new.identity = none then p
  else if Active new.identity then
    (p.setCurrentPlayback none).setIdentity none
  else p.setIdentity none

/-- `attempt` -/
def askOpen (p : Page) : Page :=
  { p with
    sent := p.sent ++ [.openOverlay]
    opening := some ⟨p.sent.length, false⟩ }

/-- The effect that opens a player. -/
def useOpenAlertOverlay (old new : View) (p : Page) : Page :=
  if old.canClaim = new.canClaim ∧ old.openCycle = new.openCycle then p
  else if new.canClaim then p.askOpen
  else { p with opening := none }

/-- The stream of an identity. -/
def connect (identity : OpenedPlayer) (p : Page) : Page :=
  { p with
    stream := some p.connected.length
    connected := p.connected ++ [identity] }

/-- The effect that reads the events of the active player. -/
def useAlertEventStream (old new : View) (p : Page) : Page :=
  if old.canClaim = new.canClaim ∧ old.identity = new.identity then p
  else
    match new.identity with
    | none => { p with stream := none }
    | some identity =>
        if identity.state = "active" ∧ new.canClaim = true then
          p.connect identity
        else { p with stream := none }

/-- A turn of maintainAlertHeartbeat. -/
def beat (identity : OpenedPlayer) (source : AlertSourceState)
    (p : Page) : Page :=
  if sameIdentity p.identity identity then
    { p with
      sent := p.sent ++ [.heartbeat identity.playerID identity.generation
        (source.active = some true) (source.visible = some true)]
      heartbeat := some (identity, ⟨p.sent.length, false⟩) }
  else { p with heartbeat := none }

/-- The effect that keeps the lease of the active player. -/
def useAlertHeartbeat (old new : View) (p : Page) : Page :=
  if old.identity = new.identity ∧ old.source.active = new.source.active
      ∧ old.source.visible = new.source.visible then p
  else
    match new.identity with
    | none => { p with heartbeat := none }
    | some identity =>
        if identity.state = "active" then p.beat identity new.source
        else { p with heartbeat := none }

/-- The cleanup of a playback effect: a player that has started and not
come to its end calls onFinished. -/
def interrupt (identity : Option OpenedPlayer)
    (presentation : Option Presentation) (p : Page) : Page :=
  match presentation with
  | none => p
  | some run =>
      if run.phase.interruptible then
        p.finishPresentation identity run .interrupted
      else p

/-- The beginning of a playback effect. -/
def startPlayback (new : View) (p : Page) : Page :=
  match new.playback with
  | none => p.dispatch .reset
  | some (object, playback) =>
      if new.Presents then
        { p.dispatch .begin with
          presentation := some { object, playback } }
      else p.dispatch .reset

/-- The effect that presents the current playback. -/
def useAlertPlayerPresentation (old new : View) (p : Page) : Page :=
  if (old.Presents ↔ new.Presents) ∧ old.playback = new.playback
      ∧ old.interruptionKey = new.interruptionKey then p
  else
    interrupt new.identity p.presentation
      (startPlayback new { p with presentation := none, reports := [] })

/-- The effects of a commit. -/
def effects (old new : View) (p : Page) : Page :=
  useAlertPlayerPresentation old new
    (useAlertHeartbeat old new
      (useAlertEventStream old new
        (useOpenAlertOverlay old new
          (useReleaseInactiveClaim old new p))))

/-- The commit of a handler, and that of what its effects have set. Both
come before the next handler runs. -/
def commit (old : View) (p : Page) : Page :=
  let once := p.effects old p.view
  once.effects p.view once.view

end Page

-- ==================================== inputs

/-- What may happen to a page. A number is that of a request, a stream is
named by its own; `late` says that the deadline of a loop has passed. -/
inductive Input
  | appeared (obsPresent documentVisible : Bool)
  | settled
  | activeChanged (value : Bool)
  | visibleChanged (value : Bool)
  | documentVisibilityChanged (visible : Bool)
  | opened (number : Nat) (player : OpenedPlayer)
  | done (number : Nat)
  | failed (number : Nat) (permanent late : Bool)
  | again (number : Nat) (late : Bool)
  | event (stream : Nat) (event : StreamEvent)
  | streamEnded (stream : Nat)
  | loaded (image sound tts : Bool)
  | decoded (image : Bool)
  | entered
  | played (result : AudioPlaybackResult)
  | leave
  | exited
  | finish
  | unmounted
  deriving DecidableEq, Repr

namespace Page

-- ----------------------------------------------------------- the loops

/-- Whose loop it is. -/
inductive Holder
  | opening
  | starting (run : Presentation) (assets : LoadedAssets)
      (identity : OpenedPlayer)
  | heartbeat (identity : OpenedPlayer)
  | report (r : Report)
  | finishing (f : Finishing)
  deriving DecidableEq, Repr

/-- The loop is that of a start to be acknowledged. -/
def startingOf (loop : Loop) (p : Page) : Option Holder :=
  match p.presentation with
  | some ⟨object, playback, .starting assets identity l⟩ =>
      if l = loop then
        some (.starting ⟨object, playback, .starting assets identity l⟩
          assets identity)
      else none
  | _ => none

/-- The loop is that of the heartbeat. -/
def heartbeatOf (loop : Loop) (p : Page) : Option Holder :=
  match p.heartbeat with
  | some (identity, l) =>
      if l = loop then some (.heartbeat identity) else none
  | none => none

/-- Who waits in a loop. -/
def holder (loop : Loop) (p : Page) : Option Holder :=
  if p.opening = some loop then some .opening
  else (p.startingOf loop).or <| (p.heartbeatOf loop).or <|
    ((p.reports.find? fun r => r.loop = loop).map Holder.report).or <|
      (p.finishing.find? fun f => f.loop = loop).map Holder.finishing

/-- openOverlay was answered. -/
def opened (number : Nat) (player : OpenedPlayer) (p : Page) : Page :=
  if p.opening = some ⟨number, false⟩ then
    { p.setIdentity (some player) with
      opening :=
        if player.state = "standby" then some ⟨number, true⟩ else none
      taken := p.taken ++ [(number, player)] }
  else p

/-- onStarted returns, and the alert enters. -/
def started (number : Nat) (run : Presentation) (assets : LoadedAssets)
    (p : Page) : Page :=
  { (p.setPhase (.entering assets)).dispatch .started with
    answered := p.answered ++ [number]
    shown := p.shown ++ [run.object] }

/-- A loop of onStarted goes on, or onStarted throws. -/
def startVerdict (late : Bool) (identity : OpenedPlayer)
    (playbackID : PlaybackID) (next : Page → Page) (p : Page) : Page :=
  match verdict (p.continues identity playbackID) late with
  | .aborted => p.setPhase .failed
  | .timedOut => (p.invalidateIdentity identity).setPhase .failed
  | .goesOn => next p

/-- A heartbeat failed; BAD_REQUEST, NOT_FOUND and CONFLICT are
permanent. -/
def heartbeatFailed (number : Nat) (identity : OpenedPlayer)
    (permanent : Bool) (p : Page) : Page :=
  if !sameIdentity p.identity identity then { p with heartbeat := none }
  else if permanent then
    { p with heartbeat := none }.invalidateIdentity identity
  else { p with heartbeat := some (identity, ⟨number, true⟩) }

/-- The acknowledgement of an end is waited for no longer. -/
def finishingEnds (f : Finishing) (p : Page) : Page :=
  { p with finishing := p.finishing.filter (·.loop ≠ f.loop) }

/-- A finish was acknowledged. -/
def finished (f : Finishing) (p : Page) : Page :=
  let ended := p.finishingEnds f
  if ended.playbackID = some f.playbackID then
    (ended.setCurrentPlayback none).returned f.outcome
  else ended.returned f.outcome

/-- What becomes of the acknowledgement of an end after a wait. -/
def finishVerdict (late : Bool) (f : Finishing) (next : Page → Page)
    (p : Page) : Page :=
  match verdict (p.continues f.identity f.playbackID) late with
  | .goesOn => next (p.finishingEnds f)
  | .aborted | .timedOut => (p.finishingEnds f).returned f.outcome

/-- A diagnostic is waited for no longer. -/
def reportEnds (r : Report) (p : Page) : Page :=
  { p with reports := p.reports.filter (·.loop ≠ r.loop) }

/-- What becomes of a diagnostic after a wait. -/
def reportVerdict (late : Bool) (r : Report) (next : Page → Page)
    (p : Page) : Page :=
  match verdict (p.continues r.identity r.playbackID) late with
  | .goesOn => next (p.reportEnds r)
  | .aborted | .timedOut => p.reportEnds r

/-- The attempt was answered. -/
def done (number : Nat) (p : Page) : Page :=
  match p.holder ⟨number, false⟩ with
  | some (.starting run assets _) => p.started number run assets
  | some (.heartbeat identity) =>
      { p with heartbeat := some (identity, ⟨number, true⟩) }
  | some (.report r) => p.reportEnds r
  | some (.finishing f) => p.finished f
  | some .opening | none => p

/-- The attempt failed: the loop pauses, or comes to its end. -/
def failed (number : Nat) (permanent late : Bool) (p : Page) : Page :=
  match p.holder ⟨number, false⟩ with
  | some .opening =>
      { p.setIdentity none with opening := some ⟨number, true⟩ }
  | some (.starting run assets identity) =>
      p.startVerdict late identity run.playback.playbackID
        (setPhase (.starting assets identity ⟨number, true⟩))
  | some (.heartbeat identity) =>
      p.heartbeatFailed number identity permanent
  | some (.report r) => p.reportVerdict late r fun p => { p with
      reports := p.reports ++ [{ r with loop := ⟨number, true⟩ }] }
  | some (.finishing f) => p.finishVerdict late f fun p => { p with
      finishing := p.finishing ++ [{ f with loop := ⟨number, true⟩ }] }
  | none => p

/-- The time of the next attempt. -/
def again (number : Nat) (late : Bool) (p : Page) : Page :=
  match p.holder ⟨number, true⟩ with
  | some .opening => p.askOpen
  | some (.starting run assets identity) =>
      p.startVerdict late identity run.playback.playbackID
        (askStarted assets identity run.playback.playbackID)
  | some (.heartbeat identity) => p.beat identity p.view.source
  | some (.report r) => p.reportVerdict late r (askDiagnostic r)
  | some (.finishing f) => p.finishVerdict late f (askFinished f)
  | none => p

-- ---------------------------------------------------------- the stream

/-- A line of the event stream, where the stream is still read. -/
def event (stream : Nat) (event : StreamEvent) (p : Page) : Page :=
  if p.stream = some stream then
    match event with
    | .playback playback =>
        { p with received := p.received ++ [(stream, playback)]
        }.setCurrentPlayback (some (p.received.length, playback))
    | .control .skip =>
        { p with interruptionKey := p.interruptionKey + 1
        }.suppressServerInterruptedPlayback
    | .revoked =>
        match p.identity with
        | none => p.suppressServerInterruptedPlayback
        | some identity =>
            p.suppressServerInterruptedPlayback.invalidateIdentity
              identity
    | .control .pause | .control .resume | .keepalive => p
  else p

/-- The event stream breaks, or its response is refused. -/
def streamEnded (stream : Nat) (p : Page) : Page :=
  match p.identity with
  | none => p
  | some identity =>
      if p.stream = some stream then p.invalidateIdentity identity else p

-- ---------------------------------------------------------- the player

/-- The assets are there, or have failed. -/
def loaded (image sound tts : Bool) (p : Page) : Page :=
  match p.presentation with
  | some ⟨_, playback, .loading⟩ =>
      let assets : LoadedAssets :=
        { imageUrl := image && playback.imageAssetID.isSome
          soundUrl := sound && playback.soundAssetID.isSome
          ttsUrl := tts && playback.ttsAssetID.isSome }
      (p.report playback.playbackID (missingAssets playback assets)).setPhase
        (.decoding assets)
  | _ => p

/-- resolveImageUrl has returned. -/
def decoded (image : Bool) (p : Page) : Page :=
  match p.presentation with
  | some ⟨_, playback, .decoding assets⟩ =>
      let codes : List DiagnosticCode :=
        if assets.imageUrl && !image then [.imageUnavailable] else []
      ((p.report playback.playbackID codes).dispatch .preloaded).onStarted
        assets playback.playbackID
  | _ => p

/-- The alert has come in, and its sounds begin. -/
def entered (p : Page) : Page :=
  match p.presentation with
  | some ⟨_, _, .entering assets⟩ =>
      (p.dispatch .entered).setPhase (.shown assets.channels)
  | _ => p

/-- A sound has ended, and the next one begins. -/
def played (result : AudioPlaybackResult) (p : Page) : Page :=
  match p.presentation with
  | some ⟨_, playback, .shown (kind :: rest)⟩ =>
      (p.report playback.playbackID
        (resolveAudioDiagnosticCode kind result).toList).setPhase
        (.shown rest)
  | _ => p

/-- All sounds are over, and the alert goes. -/
def leave (p : Page) : Page :=
  match p.presentation with
  | some ⟨_, _, .shown []⟩ =>
      (p.dispatch .leave).setPhase .exiting
  | _ => p

/-- The alert is gone. -/
def exited (p : Page) : Page :=
  match p.presentation with
  | some ⟨_, _, .exiting⟩ =>
      (p.dispatch .exited).setPhase .exited
  | _ => p

/-- All reports have been settled. -/
def finish (p : Page) : Page :=
  match p.presentation with
  | some ⟨object, playback, .exited⟩ =>
      if p.reports = [] then
        (p.setPhase .completed).finishPresentation p.identity
          ⟨object, playback, .completed⟩ .completed
      else p
  | _ => p

-- ------------------------------------------------------------ the page

/-- An input to a mounted page, before its commit. -/
def handle (p : Page) : Input → Page
  | .appeared obsPresent documentVisible =>
      { p with
        signals := initialAlertSourceSignals obsPresent documentVisible }
  | .settled =>
      if p.signals.obsPresent then
        { p with signals := settleAlertSourceSignals p.signals }
      else p
  | .activeChanged value =>
      if p.signals.obsPresent then
        { p with signals := { p.signals with active := some value } }
      else p
  | .visibleChanged value =>
      if p.signals.obsPresent then
        { p with signals := { p.signals with obsVisible := some value } }
      else p
  | .documentVisibilityChanged visible =>
      if p.signals.obsPresent then
        { p with signals := { p.signals with documentVisible := visible } }
      else p
  | .opened number player => p.opened number player
  | .done number => p.done number
  | .failed number permanent late => p.failed number permanent late
  | .again number late => p.again number late
  | .event stream event => p.event stream event
  | .streamEnded stream => p.streamEnded stream
  | .loaded image sound tts => p.loaded image sound tts
  | .decoded image => p.decoded image
  | .entered => p.entered
  | .played result => p.played result
  | .leave => p.leave
  | .exited => p.exited
  | .finish => p.finish
  | .unmounted => p

/-- The cleanup of all effects. -/
def unmount (p : Page) : Page :=
  { p with
    mounted := false
    opening := none
    stream := none
    heartbeat := none
    presentation := none
    reports := [] }.interrupt p.identity p.presentation

/-- The calls of onFinished outlive their page; it has no other loops. -/
def afterwards (p : Page) : Input → Page
  | .done number => p.done number
  | .failed number permanent late => p.failed number permanent late
  | .again number late => p.again number late
  | _ => p

/-- A handler together with its commit. -/
def step (p : Page) (input : Input) : Page :=
  if p.mounted = false then p.afterwards input
  else if input = .unmounted then p.unmount
  else (p.handle input).commit p.view

end Page

end Overlay

end StreamBrew.Alert
