/-
The protocol of the event stream, on every run: whatever the other
parties call between two steps of a stream.

# How it is proved

A stream and its log are in step (`Stands`): what a stream may do next
at its point is due to the newest notice, and its current playback is
the one its log shows last (`held`). Which notices a point can add is
read off the code once (`Issues`), so each rule of the protocol is a
case analysis on the point that added the notice.

What the store has to guarantee is about the claims. When a playback
is claimed, it is the only one that plays, and every waiting one is
above it (`TicketQueue.Reached`). A later claim therefore takes a
higher ticket, or the same one after it came back; an earlier claimed
playback that is not the later one is over for good (`Superseded`).
-/
import StreamBrew.Alert.Stream
import StreamBrew.Alert.Proofs.Fencing
import StreamBrew.Alert.Proofs.Presentation

namespace StreamBrew.Alert

open Relational

variable {turn : Turn} {R : Playback}

variable {g : Grant} {db db' : Db} {r r' : Playback}

-- ============================ overlay tokens

/-- `UNIQUE (token_hash)`: a token opens the overlay of one user. -/
def Db.TokensUnique (db : Db) : Prop :=
  ∀ o ∈ db.overlays, ∀ o' ∈ db.overlays, o.tokenHash = o'.tokenHash →
    o.userID = o'.userID

/-- A call without the grant gives no overlay a token. -/
theorem Steps.overlays_subset (h : Steps g db db')
    (hg : ∀ userID tokenHash, ¬ g.rotate userID tokenHash) :
    ∀ o ∈ db'.overlays, o ∈ db.overlays := by
  induction h with
  | refl => exact fun o ho => ho
  | tail _ heffect ih =>
      intro o ho
      cases heffect with
      | rotate overlays hnew =>
          rcases hnew o ho with hold | hgrant
          · exact ih o hold
          · exact absurd hgrant (hg _ _)
      | insert _ hins =>
          obtain ⟨-, playbacks, -, rfl⟩ := Db.insertPlayback_eq_some hins
          exact ih o ho
      | _ => exact ih o ho

/-- Rotating a token leaves no two users with one. -/
theorem Db.TokensUnique.rotate {userID : UserID} {tokenHash : TokenHash}
    (ht : db.TokensUnique) (now : Time) :
    (setOverlayTokenHash userID tokenHash now db).2.TokensUnique := by
  unfold setOverlayTokenHash
  simp only
  split
  case isTrue => exact ht
  case isFalse hfree =>
    have hother : ∀ o ∈ db.overlays, o.tokenHash = tokenHash →
        o.userID = userID := by
      intro o ho hot
      by_contra hne
      exact hfree ⟨o, ho, hot, hne⟩
    -- an overlay row afterwards is the user's, or one from before
    have hrow : ∀ o ∈ db.overlays.upsert { userID, tokenHash }
          (fun o => { o with tokenHash }) (Table.keeps rfl),
        o.userID = userID ∧ o.tokenHash = tokenHash
          ∨ o.userID ≠ userID ∧ o ∈ db.overlays := by
      intro o ho
      rcases Table.mem_upsert.mp ho with ⟨rfl, -⟩ | ⟨b, hb, he⟩
      · exact Or.inl ⟨rfl, rfl⟩
      · split at he
        case isTrue hk =>
          subst he
          exact Or.inl ⟨hk, rfl⟩
        case isFalse hk =>
          subst he
          exact Or.inr ⟨hk, hb⟩
    intro o ho o' ho' he
    rcases hrow o ho with ⟨hu, hot⟩ | ⟨hne, hmem⟩ <;>
      rcases hrow o' ho' with ⟨hu', hot'⟩ | ⟨hne', hmem'⟩
    · exact hu.trans hu'.symm
    · exact absurd (hother o' hmem' (he.symm.trans hot)) hne'
    · exact absurd (hother o hmem (he.trans hot')) hne
    · exact ht o hmem o' hmem' he

theorem Db.TokensUnique.apply (hi : Inv db) (ht : db.TokensUnique)
    (a : Action) : (apply db a).TokensUnique := by
  by_cases hcall : ∃ userID tokenHash now,
      a = .setOverlayTokenHash userID tokenHash now
  · obtain ⟨userID, tokenHash, now, rfl⟩ := hcall
    exact ht.rotate now
  · have hg : ∀ userID tokenHash, ¬ (a.grant db).rotate userID tokenHash :=
      fun userID tokenHash ⟨now, he⟩ => hcall ⟨userID, tokenHash, now, he⟩
    have hold := (apply_steps hi a).overlays_subset hg
    exact fun o ho o' ho' => ht o (hold o ho) o' (hold o' ho')

/-- After ReleasePlayer nothing plays for its caller. -/
theorem releasePlayer_releases (hi : Inv db) (ht : db.TokensUnique)
    (c : Caller) (now : Time) :
    let released := (releasePlayer c.tokenHash c.playerID c.generation now
      db).2
    ∀ r ∈ released.playbacks, r.status = .playing →
      ¬ c.Holds released r := by
  intro released r hr hplay hholds
  have hi' : Inv released :=
    hi.apply (.releasePlayer c.tokenHash c.playerID c.generation now)
  obtain ⟨⟨overlay, ho, hou, hot⟩, -, hid, hgen⟩ := hholds
  obtain ⟨p, hp, hpu, hpid, hpgen⟩ := hi'.owned r hr hplay
  rw [hid] at hpid
  rw [hgen] at hpgen
  injection hpid with hpid
  injection hpgen with hpgen
  have hdef : released = (releasePlayer c.tokenHash c.playerID c.generation
      now db).2 := rfl
  unfold releasePlayer at hdef
  split at hdef
  case h_1 hnone =>
    rw [hdef] at hp ho
    refine Table.find?_eq_none.mp hnone p hp ⟨hpid.symm, hpgen.symm, ?_⟩
    exact ⟨overlay, ho, hou.trans hpu, hot⟩
  case h_2 player hplayer =>
    rw [hdef] at hp ho
    obtain ⟨-, -, -, overlay', ho', hou', hot'⟩ := Db.player?_eq_some hplayer
    have huser : overlay.userID = overlay'.userID :=
      ht overlay ho overlay' ho' (hot.trans hot'.symm)
    have hkept := (Table.mem_delete.mp hp).2
    refine hkept ⟨?_, hpid.symm, hpgen.symm⟩
    rw [← hpu, ← hou, huser, hou']

-- ================================= the polls

/-- A playback as a poll of the player returns it. -/
def Shown (request : StreamRequest) (stored : Option Playback) : Prop :=
  ∀ r ∈ stored, r.status = .playing
    ∧ r.AssignedTo r.userID request.playerID request.generation

/-- What a poll shows is played by the player that polls. -/
theorem streamState_shown {tokenHash : TokenHash}
    {request : StreamRequest} {now : Time} {paused : Bool}
    {stored : Option Playback}
    (h : (streamState tokenHash request.playerID request.generation now
      db).1 = .ok (paused, stored)) : Shown request stored := by
  intro r hr
  rw [Option.mem_def] at hr
  subst hr
  unfold streamState at h
  split at h
  case h_1 => cases h
  case h_2 player hplayer =>
    simp only at h
    split at h
    case h_1 => cases h
    case h_2 =>
      split at h
      case isTrue => cases h
      case isFalse =>
        injection h with h
        injection h with _ hfirst
        obtain ⟨-, ⟨⟨hu, hid, hgen⟩, hplay⟩, -⟩ := Table.first_eq_some hfirst
        exact ⟨hplay, rfl, hid, hgen⟩

/-- What a call with a fate answers, the call answers. -/
theorem Fate.call_ok {α : Type} {fate : Fate} {f : Db → Outcome α}
    {v : α} (h : (fate.call f db).1 = .ok v) :
    (f db).1 = .ok v ∧ (fate.call f db).2 = (f db).2 := by
  cases fate with
  | done => exact ⟨h, rfl⟩
  | failed => cases h
  | unanswered => cases h

theorem Fate.call_db {α : Type} (fate : Fate) (f : Db → Outcome α)
    (db : Db) : (fate.call f db).2 = db ∨ (fate.call f db).2 = (f db).2 := by
  cases fate with
  | done => exact Or.inr rfl
  | failed => exact Or.inl rfl
  | unanswered => exact Or.inr rfl

-- =================================== the log

/-- The playback a stream emitted or took over last, until it has asked
what became of it. -/
def held : List Notice → Option Playback
  | [] => none
  | .adopted playback :: _ => some playback
  | .emitted (.playback playback) :: _ => some playback
  | .checked _ _ :: _ => none
  | _ :: older => held older

/-- What the newest poll returned. -/
def lastPoll : List Notice → Option (Option Playback)
  | [] => none
  | .polled storedCurrent :: _ => some storedCurrent
  | _ :: older => lastPoll older

/-- What the client is sent. -/
def Notice.event : Notice → Option StreamEvent
  | .emitted event => some event
  | _ => none

/-- Pause is `true`, resume is `false`. -/
def Notice.switch : Notice → Option Bool
  | .emitted (.control .pause) => some true
  | .emitted (.control .resume) => some false
  | _ => none

/-- Nothing in particular has to follow the newest notice. -/
def Quiet : List Notice → Prop
  | .claimed _ :: _ | .ended :: _ | .closed _ :: _ => False
  | _ => True

/-- Stream has not returned. -/
def Point.Running (point : Point) : Prop :=
  point ≠ .ended ∧ point ≠ .closed

/-- The notices a stream can add at a point. -/
inductive Issues : Point → Notice → Prop
  | opened (playback) : Issues .opening (.adopted playback)
  | kept : Issues .keepingAlive (.emitted .keepalive)
  | polled (storedCurrent) : Issues .polling (.polled storedCurrent)
  | switched (now nextPaused storedCurrent) :
      Issues (.switching now nextPaused storedCurrent)
        (.emitted (.control (if nextPaused then .pause else .resume)))
  | checked (now storedCurrent current status) :
      Issues (.checking now storedCurrent current) (.checked current status)
  | skipped (now storedCurrent) :
      Issues (.skipping now storedCurrent) (.emitted (.control .skip))
  | adopted (now stored) : Issues (.adopting now (some stored))
      (.adopted stored)
  | claimed (now playback) : Issues (.claiming now) (.claimed playback)
  | presented (playback) :
      Issues (.presenting playback) (.emitted (.playback playback))
  | revoked : Issues .revoking (.emitted .revoked)
  | ended {point : Point} (h : point.Running) : Issues point .ended
  | closed (released) : Issues .ended (.closed released)

/-- The stream and its log are in step. -/
def Stands (request : StreamRequest) (stream : Stream)
    (log : List Notice) : Prop :=
  match stream.point with
  | .opening => stream.current = none ∧ log = []
  | .waiting | .keepingAlive | .polling =>
      stream.current = held log ∧ Quiet log
  | .switching _ nextPaused stored =>
      nextPaused ≠ stream.paused ∧ stream.current = held log ∧ Quiet log
        ∧ Shown request stored ∧ lastPoll log = some stored
  | .comparing _ stored =>
      stream.current = held log ∧ Quiet log ∧ Shown request stored
        ∧ lastPoll log = some stored
  | .adopting _ stored =>
      stream.current = held log ∧ Quiet log ∧ Shown request stored
  | .checking _ stored current =>
      held log = some current ∧ Quiet log ∧ Shown request stored
        ∧ lastPoll log = some stored ∧ Session.Lost current stored
  | .skipping _ stored =>
      (∃ playback status older, log = .checked playback status :: older
        ∧ Session.Announced status ∧ held older = some playback
        ∧ lastPoll older = some stored ∧ Session.Lost playback stored)
        ∧ Shown request stored
  | .claiming _ =>
      stream.current = none ∧ held log = none ∧ Quiet log
  | .fetching playbackID =>
      ∃ playback older, log = .claimed playback :: older
        ∧ playback.playbackID = playbackID
  | .presenting playback =>
      stream.current = some playback
        ∧ ∃ claimed older, log = .claimed claimed :: older
          ∧ claimed.playbackID = playback.playbackID
  | .revoking | .returning => Quiet log
  | .ended => ∃ older, log = .ended :: older
  | .closed => ∃ released older, log = .closed released :: older

variable {hashToken : String → TokenHash} {request : StreamRequest}
  {s : Session}

namespace Session

/-- An emission adds its event, or ends the stream. -/
private theorem issues_emit {fate : Fate} {event : StreamEvent}
    {next : Session → Session} (hpoint : s.stream.point.Running)
    (hissues : Issues s.stream.point (.emitted event))
    (hnext : ∀ s', (next s').log = s'.log) :
    ∃ notice, (s.emit fate event next).log = notice :: s.log
      ∧ Issues s.stream.point notice := by
  unfold emit
  split
  case isTrue => exact ⟨_, hnext _, hissues⟩
  case isFalse => exact ⟨.ended, rfl, .ended hpoint⟩

/-- What a step adds to the log, the point issues. -/
theorem issues_advance (s : Session)
    (hashToken : String → TokenHash) (request : StreamRequest)
    (turn : Turn) :
    (s.advance hashToken request turn).log = s.log
      ∨ ∃ notice, (s.advance hashToken request turn).log = notice :: s.log
        ∧ Issues s.stream.point notice := by
  have hfinish : s.stream.point.Running → ∀ db,
      ∃ notice, ({ s with db } : Session).finish.log = notice :: s.log
        ∧ Issues s.stream.point notice := fun h db => ⟨.ended, rfl, .ended h⟩
  have hrun : ∀ point, s.stream.point = point → point ≠ .ended →
      point ≠ .closed → s.stream.point.Running := by
    intro point hp hended hclosed
    rw [hp]
    exact ⟨hended, hclosed⟩
  unfold advance
  simp only
  split
  case h_1 hp =>
    have hr := hrun _ hp (by simp) (by simp)
    split
    case isTrue => exact Or.inl rfl
    case isFalse =>
      split
      case h_1 => exact Or.inl rfl
      case h_2 => exact Or.inr (hfinish hr _)
      case h_3 =>
        split
        case h_1 => exact Or.inl rfl
        case h_2 => exact Or.inr ⟨_, rfl, hp ▸ .opened _⟩
  case h_2 hp =>
    split
    case isTrue => exact Or.inr (hfinish (hrun _ hp (by simp) (by simp)) _)
    case isFalse => split <;> exact Or.inl rfl
  case h_3 hp =>
    exact Or.inr (issues_emit (hrun _ hp (by simp) (by simp))
      (hp ▸ .kept) fun _ => rfl)
  case h_4 hp =>
    split
    case h_1 => exact Or.inl rfl
    case h_2 => exact Or.inr (hfinish (hrun _ hp (by simp) (by simp)) _)
    case h_3 nextPaused storedCurrent _ _ =>
      refine Or.inr ⟨.polled storedCurrent, ?_, hp ▸ .polled storedCurrent⟩
      unfold polled
      simp only
      split <;> rfl
  case h_5 now nextPaused storedCurrent hp =>
    exact Or.inr (issues_emit (hrun _ hp (by simp) (by simp))
      (hp ▸ .switched now nextPaused storedCurrent) fun _ => rfl)
  case h_6 =>
    left
    unfold compare
    split
    case h_1 => rfl
    case h_2 => split <;> rfl
  case h_7 now storedCurrent current hp =>
    split
    case isTrue =>
      refine Or.inr ⟨.checked current ((s.db.playback?
        current.playbackID).map Playback.status), ?_, ?_⟩
      · unfold check
        simp only
        split <;> rfl
      · rw [hp]
        exact .checked now storedCurrent current _
    case isFalse =>
      exact Or.inr (hfinish (hrun _ hp (by simp) (by simp)) _)
  case h_8 now storedCurrent hp =>
    exact Or.inr (issues_emit (hrun _ hp (by simp) (by simp))
      (hp ▸ .skipped now storedCurrent) fun _ => rfl)
  case h_9 now storedCurrent hp =>
    unfold adopt
    split
    case h_1 stored hcurrent =>
      refine Or.inr ⟨.adopted stored, ?_, hp ▸ .adopted now stored⟩
      unfold settle
      split <;> rfl
    case h_2 =>
      left
      unfold settle
      split <;> rfl
  case h_10 now hp =>
    split
    case h_1 => exact Or.inl rfl
    case h_2 => exact Or.inr (hfinish (hrun _ hp (by simp) (by simp)) _)
    case h_3 => exact Or.inl rfl
    case h_4 playback _ _ =>
      exact Or.inr ⟨_, rfl, hp ▸ .claimed now playback⟩
  case h_11 hp =>
    split
    case h_1 =>
      split
      case isTrue => exact Or.inl rfl
      case isFalse =>
        exact Or.inr (hfinish (hrun _ hp (by simp) (by simp)) _)
    case h_2 => exact Or.inr (hfinish (hrun _ hp (by simp) (by simp)) _)
  case h_12 playback hp =>
    exact Or.inr (issues_emit (hrun _ hp (by simp) (by simp))
      (hp ▸ .presented playback) fun _ => rfl)
  case h_13 hp =>
    exact Or.inr (issues_emit (hrun _ hp (by simp) (by simp))
      (hp ▸ .revoked) fun _ => rfl)
  case h_14 hp => exact Or.inr (hfinish (hrun _ hp (by simp) (by simp)) _)
  case h_15 hp =>
    right
    unfold close
    split
    case isTrue => exact ⟨_, rfl, hp ▸ .closed true⟩
    case isFalse =>
      split
      case h_1 => exact ⟨_, rfl, hp ▸ .closed true⟩
      case h_2 => exact ⟨_, rfl, hp ▸ .closed false⟩
  case h_16 => exact Or.inl rfl

theorem stands_finish (s : Session) :
    Stands request s.finish.stream s.finish.log := by
  show ∃ older, .ended :: s.log = .ended :: older
  exact ⟨s.log, rfl⟩

/-- The end of an iteration. -/
theorem stands_settle {now : Time} (hheld : s.stream.current = held s.log)
    (hquiet : Quiet s.log) :
    Stands request (s.settle now).stream (s.settle now).log := by
  unfold settle
  split
  case isTrue h =>
    show s.stream.current = none ∧ held s.log = none ∧ Quiet s.log
    exact ⟨h.1, hheld ▸ h.1, hquiet⟩
  case isFalse =>
    show s.stream.current = held s.log ∧ Quiet s.log
    exact ⟨hheld, hquiet⟩

/-- An emission goes on after its event, or ends the stream. -/
theorem stands_emit {fate : Fate} {event : StreamEvent}
    {next : Session → Session}
    (h : Stands request (next (s.note (.emitted event))).stream
      (next (s.note (.emitted event))).log) :
    Stands request (s.emit fate event next).stream
      (s.emit fate event next).log := by
  unfold emit
  split
  case isTrue => exact h
  case isFalse => exact stands_finish s

/-- Every step keeps a stream in step with its log. -/
theorem stands_advance (turn : Turn)
    (h : Stands request s.stream s.log) :
    Stands request (s.advance hashToken request turn).stream
      (s.advance hashToken request turn).log := by
  unfold Stands at h
  unfold advance
  simp only
  split
  case h_1 hp =>
    rw [hp] at h
    obtain ⟨hcurrent, hlog⟩ := h
    have hquiet : Quiet s.log := by
      rw [hlog]
      trivial
    split
    case isTrue => exact hquiet
    case isFalse =>
      split
      case h_1 => exact hquiet
      case h_2 => exact stands_finish _
      case h_3 =>
        split
        case h_1 =>
          show s.stream.current = held s.log ∧ Quiet s.log
          refine ⟨?_, hquiet⟩
          rw [hcurrent, hlog]
          rfl
        case h_2 => exact ⟨rfl, trivial⟩
  case h_2 hp =>
    rw [hp] at h
    split
    case isTrue => exact stands_finish s
    case isFalse => split <;> exact h
  case h_3 hp =>
    rw [hp] at h
    refine stands_emit ?_
    show s.stream.current = held s.log ∧ True
    exact ⟨h.1, trivial⟩
  case h_4 hp =>
    rw [hp] at h
    split
    case h_1 => exact h.2
    case h_2 => exact stands_finish _
    case h_3 nextPaused storedCurrent db hanswer =>
      have hshown : Shown request storedCurrent :=
        streamState_shown (Fate.call_ok (congrArg Prod.fst hanswer)).1
      unfold polled
      simp only
      split
      case isTrue hne => exact ⟨hne, h.1, trivial, hshown, rfl⟩
      case isFalse => exact ⟨h.1, trivial, hshown, rfl⟩
  case h_5 now nextPaused storedCurrent hp =>
    rw [hp] at h
    obtain ⟨-, hheld, hquiet, hshown, hpoll⟩ := h
    refine stands_emit ?_
    split
    all_goals
      show s.stream.current = held s.log ∧ True
        ∧ Shown request storedCurrent ∧ lastPoll s.log = some storedCurrent
      exact ⟨hheld, trivial, hshown, hpoll⟩
  case h_6 now storedCurrent hp =>
    rw [hp] at h
    obtain ⟨hheld, hquiet, hshown, hpoll⟩ := h
    unfold compare
    split
    case h_1 => exact ⟨hheld, hquiet, hshown⟩
    case h_2 current hcurrent =>
      split
      case isTrue hlost =>
        exact ⟨hheld.symm.trans hcurrent, hquiet, hshown, hpoll, hlost⟩
      case isFalse => exact ⟨hheld, hquiet, hshown⟩
  case h_7 now storedCurrent current hp =>
    rw [hp] at h
    obtain ⟨hheld, hquiet, hshown, hpoll, hlost⟩ := h
    split
    case isTrue =>
      unfold check
      simp only
      split
      case isTrue hannounced =>
        exact ⟨⟨current, _, s.log, rfl, hannounced, hheld, hpoll, hlost⟩,
          hshown⟩
      case isFalse => exact ⟨rfl, trivial, hshown⟩
    case isFalse => exact stands_finish s
  case h_8 now storedCurrent hp =>
    rw [hp] at h
    obtain ⟨⟨playback, status, older, hlog, -⟩, hshown⟩ := h
    refine stands_emit ?_
    show none = held s.log ∧ True ∧ Shown request storedCurrent
    rw [hlog]
    exact ⟨rfl, trivial, hshown⟩
  case h_9 now storedCurrent hp =>
    rw [hp] at h
    obtain ⟨hheld, hquiet, hshown⟩ := h
    unfold adopt
    split
    case h_1 => exact stands_settle rfl trivial
    case h_2 => exact stands_settle hheld hquiet
  case h_10 now hp =>
    rw [hp] at h
    split
    case h_1 => exact h.2.2
    case h_2 => exact stands_finish _
    case h_3 =>
      show s.stream.current = held s.log ∧ Quiet s.log
      exact ⟨h.1.trans h.2.1.symm, h.2.2⟩
    case h_4 playback db hanswer =>
      exact ⟨playback, s.log, rfl, rfl⟩
  case h_11 playbackID hp =>
    rw [hp] at h
    obtain ⟨claimed, older, hlog, hid⟩ := h
    split
    case h_1 playback hfound =>
      have hsame : playback.playbackID = playbackID :=
        (Table.find?_eq_some hfound).2
      split
      case isTrue =>
        exact ⟨rfl, claimed, older, hlog, hid.trans hsame.symm⟩
      case isFalse => exact stands_finish s
    case h_2 => exact stands_finish s
  case h_12 playback hp =>
    rw [hp] at h
    refine stands_emit ?_
    show s.stream.current = some playback ∧ True
    exact ⟨h.1, trivial⟩
  case h_13 hp => exact stands_emit trivial
  case h_14 hp => exact stands_finish s
  case h_15 hp =>
    unfold close
    split
    case isTrue => exact ⟨true, s.log, rfl⟩
    case isFalse =>
      split
      case h_1 => exact ⟨true, s.log, rfl⟩
      case h_2 => exact ⟨false, s.log, rfl⟩
  case h_16 hp =>
    rw [hp] at h
    unfold Stands
    rw [hp]
    exact h

-- ========================== pause and resume

/-- Only an announced switch changes the pause flag of an open stream. -/
theorem switches_advance (s : Session)
    (hashToken : String → TokenHash) (request : StreamRequest)
    (turn : Turn) :
    (s.advance hashToken request turn).log.filterMap Notice.switch
        = s.log.filterMap Notice.switch
        ∧ ((s.advance hashToken request turn).stream.paused
            = s.stream.paused
          ∨ s.stream.point = .opening)
      ∨ ∃ now nextPaused storedCurrent,
        s.stream.point = .switching now nextPaused storedCurrent
          ∧ (s.advance hashToken request turn).log.filterMap Notice.switch
            = nextPaused :: s.log.filterMap Notice.switch
          ∧ (s.advance hashToken request turn).stream.paused
            = nextPaused := by
  have hsame : ∀ {s' : Session}, s'.stream.paused = s.stream.paused →
      s'.log.filterMap Notice.switch = s.log.filterMap Notice.switch →
      s'.log.filterMap Notice.switch = s.log.filterMap Notice.switch
        ∧ (s'.stream.paused = s.stream.paused
          ∨ s.stream.point = .opening) :=
    fun hpaused hlog => ⟨hlog, Or.inl hpaused⟩
  have hemit : ∀ (fate : Fate) (event : StreamEvent)
      (next : Session → Session),
      Notice.switch (.emitted event) = none →
      (∀ s', (next s').stream.paused = s'.stream.paused
        ∧ (next s').log = s'.log) →
      (s.emit fate event next).stream.paused = s.stream.paused
        ∧ (s.emit fate event next).log.filterMap Notice.switch
          = s.log.filterMap Notice.switch := by
    intro fate event next hevent hnext
    unfold emit
    split
    case isTrue =>
      obtain ⟨hpaused, hlog⟩ := hnext (s.note (.emitted event))
      refine ⟨hpaused, ?_⟩
      rw [hlog]
      show (Notice.emitted event :: s.log).filterMap Notice.switch = _
      rw [List.filterMap_cons, hevent]
    case isFalse => exact ⟨rfl, rfl⟩
  have hsettle : ∀ (s : Session) now,
      (s.settle now).stream.paused = s.stream.paused
        ∧ (s.settle now).log = s.log := by
    intro s now
    unfold settle
    split <;> exact ⟨rfl, rfl⟩
  unfold advance
  simp only
  split
  case h_1 hp =>
    left
    split
    case isTrue => exact hsame rfl rfl
    case isFalse =>
      split
      case h_1 => exact hsame rfl rfl
      case h_2 => exact hsame rfl rfl
      case h_3 => split <;> exact ⟨rfl, Or.inr hp⟩
  case h_2 =>
    left
    split
    case isTrue => exact hsame rfl rfl
    case isFalse => split <;> exact hsame rfl rfl
  case h_3 =>
    obtain ⟨hpaused, hlog⟩ := hemit turn.fate .keepalive
      (goto .polling) rfl
      fun _ => ⟨rfl, rfl⟩
    exact Or.inl (hsame hpaused hlog)
  case h_4 =>
    left
    split
    case h_1 => exact hsame rfl rfl
    case h_2 => exact hsame rfl rfl
    case h_3 =>
      unfold polled
      simp only
      split <;> exact hsame rfl rfl
  case h_5 now nextPaused storedCurrent hp =>
    unfold emit
    split
    case isTrue =>
      refine Or.inr ⟨now, nextPaused, storedCurrent, hp, ?_, rfl⟩
      cases nextPaused <;> rfl
    case isFalse => exact Or.inl (hsame rfl rfl)
  case h_6 =>
    left
    unfold compare
    split
    case h_1 => exact hsame rfl rfl
    case h_2 => split <;> exact hsame rfl rfl
  case h_7 =>
    left
    split
    case isTrue =>
      unfold check
      simp only
      split <;> exact hsame rfl rfl
    case isFalse => exact hsame rfl rfl
  case h_8 now storedCurrent hp =>
    obtain ⟨hpaused, hlog⟩ := hemit turn.fate
      (.control .skip)
      (fun s => s.forget.goto (.adopting now storedCurrent)) rfl
      fun _ => ⟨rfl, rfl⟩
    exact Or.inl (hsame hpaused hlog)
  case h_9 now storedCurrent hp =>
    left
    unfold adopt
    split
    case h_1 stored hcurrent =>
      obtain ⟨hpaused, hlog⟩ := hsettle (s.take stored) now
      refine hsame hpaused ?_
      rw [hlog]
      rfl
    case h_2 =>
      obtain ⟨hpaused, hlog⟩ := hsettle s now
      exact hsame hpaused (congrArg _ hlog)
  case h_10 =>
    left
    split
    case h_1 => exact hsame rfl rfl
    case h_2 => exact hsame rfl rfl
    case h_3 => exact hsame rfl rfl
    case h_4 => exact hsame rfl rfl
  case h_11 =>
    left
    split
    case h_1 => split <;> exact hsame rfl rfl
    case h_2 => exact hsame rfl rfl
  case h_12 playback _ =>
    obtain ⟨hpaused, hlog⟩ := hemit turn.fate
      (.playback playback) (goto .waiting) rfl
      fun _ => ⟨rfl, rfl⟩
    exact Or.inl (hsame hpaused hlog)
  case h_13 =>
    obtain ⟨hpaused, hlog⟩ := hemit turn.fate .revoked
      (goto .returning) rfl
      fun _ => ⟨rfl, rfl⟩
    exact Or.inl (hsame hpaused hlog)
  case h_14 => exact Or.inl (hsame rfl rfl)
  case h_15 =>
    left
    unfold close
    split
    case isTrue => exact hsame rfl rfl
    case isFalse => split <;> exact hsame rfl rfl
  case h_16 => exact Or.inl (hsame rfl rfl)

-- ============================== the database

/-- The stream writes by store calls only. -/
theorem db_advance (s : Session)
    (hashToken : String → TokenHash) (request : StreamRequest)
    (turn : Turn) :
    (s.advance hashToken request turn).db = s.db
      ∨ ∃ a, (s.advance hashToken request turn).db = apply s.db a := by
  have hcall : ∀ {α : Type} {f : Db → Outcome α} {answer : Except StoreError α}
      {db : Db} (a : Action), (∀ db, (f db).2 = apply db a) →
      turn.fate.call f s.db = (answer, db) →
      db = s.db ∨ ∃ a, db = apply s.db a := by
    intro α f answer db a hf hanswer
    have hdb : (turn.fate.call f s.db).2 = db := congrArg Prod.snd hanswer
    rcases Fate.call_db turn.fate f s.db with hsame | hwrote
    · exact Or.inl (hdb.symm.trans hsame)
    · exact Or.inr ⟨a, hdb.symm.trans (hwrote.trans (hf s.db))⟩
  have hemit : ∀ {fate : Fate} {event : StreamEvent}
      {next : Session → Session}, (∀ s', (next s').db = s'.db) →
      (s.emit fate event next).db = s.db := by
    intro fate event next hnext
    unfold emit
    split
    case isTrue => exact hnext _
    case isFalse => rfl
  have hsettle : ∀ (s : Session) now, (s.settle now).db = s.db := by
    intro s now
    unfold settle
    split <;> rfl
  unfold advance
  simp only
  split
  case h_1 =>
    split
    case isTrue => exact Or.inl rfl
    case isFalse =>
      have hpoll := @hcall _ (streamState (hashToken request.token)
        request.playerID request.generation turn.now)
      split
      case h_1 _ hanswer => exact hpoll (.streamState ..) (fun _ => rfl) hanswer
      case h_2 _ hanswer => exact hpoll (.streamState ..) (fun _ => rfl) hanswer
      case h_3 _ hanswer =>
        split <;> exact hpoll (.streamState ..) (fun _ => rfl) hanswer
  case h_2 =>
    split
    case isTrue => exact Or.inl rfl
    case isFalse => split <;> exact Or.inl rfl
  case h_3 => exact Or.inl (hemit fun _ => rfl)
  case h_4 =>
    have hpoll := @hcall _ (streamState (hashToken request.token)
      request.playerID request.generation turn.now)
    split
    case h_1 _ hanswer => exact hpoll (.streamState ..) (fun _ => rfl) hanswer
    case h_2 _ hanswer => exact hpoll (.streamState ..) (fun _ => rfl) hanswer
    case h_3 _ hanswer =>
      unfold polled
      simp only
      split <;> exact hpoll (.streamState ..) (fun _ => rfl) hanswer
  case h_5 => exact Or.inl (hemit fun _ => rfl)
  case h_6 =>
    unfold compare
    split
    case h_1 => exact Or.inl rfl
    case h_2 => split <;> exact Or.inl rfl
  case h_7 =>
    split
    case isTrue =>
      unfold check
      simp only
      split <;> exact Or.inl rfl
    case isFalse => exact Or.inl rfl
  case h_8 => exact Or.inl (hemit fun _ => rfl)
  case h_9 =>
    unfold adopt
    split
    case h_1 => exact Or.inl (hsettle _ _)
    case h_2 => exact Or.inl (hsettle _ _)
  case h_10 now _ =>
    have hclaim := @hcall _ (claimPlayback (hashToken request.token)
      request.playerID request.generation now turn.locked)
    split
    case h_1 _ hanswer =>
      exact hclaim (.claimPlayback ..) (fun _ => rfl) hanswer
    case h_2 _ hanswer =>
      exact hclaim (.claimPlayback ..) (fun _ => rfl) hanswer
    case h_3 _ hanswer =>
      exact hclaim (.claimPlayback ..) (fun _ => rfl) hanswer
    case h_4 _ hanswer =>
      exact hclaim (.claimPlayback ..) (fun _ => rfl) hanswer
  case h_11 =>
    split
    case h_1 => split <;> exact Or.inl rfl
    case h_2 => exact Or.inl rfl
  case h_12 => exact Or.inl (hemit fun _ => rfl)
  case h_13 => exact Or.inl (hemit fun _ => rfl)
  case h_14 => exact Or.inl rfl
  case h_15 =>
    unfold close
    split
    case isTrue => exact Or.inl rfl
    case isFalse =>
      have hrelease := @hcall _ (releasePlayer (hashToken request.token)
        request.playerID request.generation turn.now)
      split
      case h_1 _ hanswer =>
        exact hrelease (.releasePlayer ..) (fun _ => rfl) hanswer
      case h_2 _ hanswer =>
        exact hrelease (.releasePlayer ..) (fun _ => rfl) hanswer
  case h_16 => exact Or.inl rfl

-- ===================== what a notice reports

theorem issues_of_log {notice : Notice}
    (h : (s.advance hashToken request turn).log = notice :: s.log) :
    Issues s.stream.point notice := by
  rcases issues_advance s hashToken request turn with hsame | ⟨_, hlog, hissues⟩
  · rw [h] at hsame
    exact absurd hsame (List.cons_ne_self _ _)
  · rw [h] at hlog
    injection hlog with hnotice
    exact hnotice ▸ hissues

/-- The claim that a stream notes is a claim of the store. -/
theorem claimed_advance
    (h : (s.advance hashToken request turn).log = .claimed R :: s.log) :
    ∃ now, s.stream.point = .claiming now
      ∧ (claimPlayback (hashToken request.token) request.playerID
        request.generation now turn.locked s.db).1 = .ok (some R)
      ∧ (s.advance hashToken request turn).db
        = apply s.db (.claimPlayback (hashToken request.token)
          request.playerID request.generation now turn.locked) := by
  have hissues := issues_of_log h
  generalize hp : s.stream.point = point at hissues
  cases hissues with
  | claimed now playback =>
      refine ⟨now, rfl, ?_⟩
      unfold advance at h ⊢
      rw [hp] at h ⊢
      simp only at h ⊢
      split at h
      case h_1 => exact absurd h.symm (List.cons_ne_self _ _)
      case h_2 =>
        injection h with hnotice
        cases hnotice
      case h_3 => exact absurd h.symm (List.cons_ne_self _ _)
      case h_4 playback db hanswer =>
        injection h with hnotice
        injection hnotice with hplayback
        subst hplayback
        obtain ⟨hok, hdb⟩ := Fate.call_ok (congrArg Prod.fst hanswer)
        refine ⟨hok, ?_⟩
        rw [hanswer] at hdb
        exact hdb

/-- The status that a stream notes is the stored one. -/
theorem checked_advance {playback : Playback} {status : Option PlaybackStatus}
    (h : (s.advance hashToken request turn).log
      = .checked playback status :: s.log) :
    status = (s.db.playback? playback.playbackID).map Playback.status := by
  have hissues := issues_of_log h
  generalize hp : s.stream.point = point at hissues
  cases hissues with
  | checked now storedCurrent current =>
      unfold advance at h
      rw [hp] at h
      simp only at h
      split at h
      case isTrue =>
        unfold check at h
        simp only at h
        split at h
        all_goals
          injection h with hnotice
          injection hnotice with _ hstatus
          exact hstatus.symm
      case isFalse =>
        injection h with hnotice
        cases hnotice

/-- What a stream notes of a poll is the answer of StreamState. -/
theorem polled_advance {stored : Option Playback}
    (h : (s.advance hashToken request turn).log = .polled stored :: s.log) :
    ∃ paused, (streamState (hashToken request.token) request.playerID
      request.generation turn.now s.db).1 = .ok (paused, stored) := by
  have hissues := issues_of_log h
  generalize hp : s.stream.point = point at hissues
  cases hissues with
  | polled =>
      unfold advance at h
      rw [hp] at h
      simp only at h
      split at h
      case h_1 => exact absurd h.symm (List.cons_ne_self _ _)
      case h_2 =>
        injection h with hnotice
        cases hnotice
      case h_3 nextPaused storedCurrent db hanswer =>
        have hstored : storedCurrent = stored := by
          unfold polled at h
          simp only at h
          split at h
          all_goals
            injection h with hnotice
            injection hnotice
        refine ⟨nextPaused, ?_⟩
        rw [← hstored]
        exact (Fate.call_ok (congrArg Prod.fst hanswer)).1

/-- A stream that has ended is closed by its next step. -/
theorem ended_advance (hpoint : s.stream.point = .ended) :
    ∃ released,
      (s.advance hashToken request turn).log = .closed released :: s.log
        ∧ (turn.fate = .done → released = true) := by
  unfold advance
  rw [hpoint]
  simp only
  unfold close
  split
  case isTrue => exact ⟨true, rfl, fun _ => rfl⟩
  case isFalse =>
    split
    case h_1 => exact ⟨true, rfl, fun _ => rfl⟩
    case h_2 error db hanswer =>
      refine ⟨false, rfl, fun hdone => ?_⟩
      rw [hdone] at hanswer
      unfold Fate.call releasePlayer at hanswer
      simp only at hanswer
      split at hanswer <;> cases hanswer

/-- A close that a stream notes as released is a ReleasePlayer. -/
theorem closed_advance
    (h : (s.advance hashToken request turn).log = .closed true :: s.log)
    (hvalid : validToken request.token = true)
    (hgeneration : 0 < request.generation) :
    (s.advance hashToken request turn).db
      = (releasePlayer (hashToken request.token) request.playerID
        request.generation turn.now s.db).2 := by
  have hissues := issues_of_log h
  generalize hp : s.stream.point = point at hissues
  cases hissues with
  | closed released =>
      unfold advance close at h ⊢
      rw [hp] at h ⊢
      simp only at h ⊢
      split at h
      case isTrue hinvalid =>
        simp only [hvalid, Bool.not_true, Bool.false_or,
          decide_eq_true_eq] at hinvalid
        omega
      case isFalse hnot =>
        rw [if_neg hnot]
        split at h
        case h_1 db hanswer =>
          obtain ⟨-, hdb⟩ := Fate.call_ok (congrArg Prod.fst hanswer)
          rw [hanswer] at hdb
          exact hdb
        case h_2 =>
          injection h with hnotice
          injection hnotice with hfalse
          cases hfalse

/-- The points that a request without a player's identity reaches. -/
def Idle : Point → Prop
  | .opening | .revoking | .returning | .ended | .closed => True
  | _ => False

theorem idle_advance
    (hinvalid : (!validToken request.token || request.generation ≤ 0)
      = true) (h : Idle s.stream.point) :
    Idle (s.advance hashToken request turn).stream.point := by
  unfold advance
  simp only
  split
  case h_1 =>
    rw [if_pos hinvalid]
    trivial
  case h_13 =>
    unfold emit
    split <;> trivial
  case h_14 => trivial
  case h_15 =>
    unfold close
    rw [if_pos hinvalid]
    trivial
  case h_16 => exact h
  all_goals
    rename_i hp
    rw [hp] at h
    exact h.elim

-- ==================================== claims

end Session

/-- A row that is over stays over. -/
theorem Next.terminal {has : UserID → AssetID → Prop}
    (h : Next has g r r') (hr : r.status.Terminal) :
    r'.status.Terminal := by
  rcases h with h | ⟨hpending, -⟩
  · rw [h.terminal hr]
    exact hr
  · have hnot := ((PlaybackStatus.terminal_iff _).mp hr).1
    exact absurd (Or.inr hpending) hnot

/-- A queue only steps. -/
theorem Steps.reached {n : Nat} {userID : UserID} (hi : Inv db)
    (h : Steps g db db') (hn : TicketQueue.Reached n (db.queue userID)) :
    TicketQueue.Reached n (db'.queue userID) := by
  induction h with
  | refl => exact hn
  | tail hsteps heffect ih =>
      exact ih.step (heffect.queueStep (hi.steps hsteps) userID)

/-- A playback that was claimed once, and its queue. -/
def Taken (P : Playback) (db : Db) : Prop :=
  Settled (fun r => r.userID = P.userID) P.queueSequence db
    ∧ TicketQueue.Reached P.queueSequence (db.queue P.userID)

/-- A claimed playback that a later claim for the user has replaced. -/
def Superseded (R P : Playback) (db : Db) : Prop :=
  P.queueSequence ≠ R.queueSequence →
    Settled (fun r => r.userID = R.userID → r.status.Terminal)
      P.queueSequence db

theorem Taken.apply {P : Playback} (hi : Inv db) (h : Taken P db)
    (a : Action) : Taken P (apply db a) := by
  have hsteps := apply_steps hi a
  refine ⟨h.1.steps hi ?_ hsteps, hsteps.reached hi h.2⟩
  intro has r r' hr hn
  exact hn.userID.trans hr

theorem Superseded.apply {P : Playback} (hi : Inv db)
    (h : Superseded R P db) (a : Action) :
    Superseded R P (apply db a) := by
  intro hne
  refine (h hne).steps hi ?_ (apply_steps hi a)
  intro has r r' hr hn hu
  exact hn.terminal (hr (hn.userID.symm.trans hu))

/-- What a claim says about the state after it: the playback it hands
out plays, and what was claimed before and is another is over. -/
theorem claimed_after (hi : Inv db) {tokenHash : TokenHash}
    {playerID : PlayerID} {generation : Int} {now : Time} {locked : List Nat}
    (h : (claimPlayback tokenHash playerID generation now locked db).1
      = .ok (some R)) :
    let after := apply db
      (.claimPlayback tokenHash playerID generation now locked)
    R ∈ after.playbacks ∧ R.status = .playing
      ∧ R.AssignedTo R.userID playerID generation ∧ Taken R after
      ∧ ∀ P, Taken P db → Superseded R P after := by
  intro after
  obtain ⟨r, hr, hpending, rfl, hmem⟩ := claimPlayback_claimed hi h
  have hi' : Inv after := hi.apply _
  have hunstarted : r.startedAt = none :=
    ((hi.shape r hr).waiting (Or.inr hpending)).1
  have hstage : (after.queue r.userID).stage r.queueSequence
      = some .claimed :=
    Db.queue_stage.mpr ⟨r.assign playerID generation, hmem, rfl, rfl,
      Playback.stage_claimed.mpr ⟨rfl, hunstarted⟩⟩
  have hreached := TicketQueue.reached_of_claimed (hi'.queue r.userID) hstage
  refine ⟨hmem, rfl, ⟨rfl, rfl, rfl⟩, ⟨⟨hi'.bound _ hmem, ?_⟩, hreached⟩, ?_⟩
  · intro r' hr' hq
    rw [Table.eq_of_key hr' hmem hq]
  · intro P hP hne
    have hP' : Taken P after := hP.apply hi _
    refine ⟨hP'.1.1, fun r' hr' hq hu => ?_⟩
    have huser : P.userID = r.userID := (hP'.1.2 r' hr' hq).symm.trans hu
    rw [PlaybackStatus.terminal_iff]
    constructor
    · intro hw
      -- a waiting ticket is above the claimed one, and not below its own
      have hwaiting : (after.queue r.userID).stage P.queueSequence
          = some .waiting :=
        Db.queue_stage.mpr ⟨r', hr', hq, hu,
          Playback.stage_waiting.mpr hw⟩
      have habove := (hi'.queue r.userID).head _ _ hstage hwaiting
      have hbelow : P.queueSequence ≤ r.queueSequence := by
        refine (huser ▸ hP'.2).2 r.queueSequence ?_
        rw [hstage]
        exact Option.some_ne_none _
      omega
    · intro hplay
      have heq := hi'.single r' hr' _ hmem hu hplay rfl
      exact hne (hq.symm.trans (congrArg _ heq))

-- ====================================== runs

namespace Session

/-- What holds of a session on every run. -/
structure Sound (request : StreamRequest) (s : Session) : Prop where
  inv : Inv s.db
  tokens : s.db.TokensUnique
  stands : Stands request s.stream s.log
  taken : ∀ P, .claimed P ∈ s.log → Taken P s.db
  order : s.log.Pairwise fun later earlier => ∀ R P,
    later = .claimed R → earlier = .claimed P → Superseded R P s.db
  switches : (s.log.filterMap Notice.switch).IsChain (· ≠ ·)
  latest : ∀ paused ∈ (s.log.filterMap Notice.switch).head?,
    paused = s.stream.paused
  valid : (!validToken request.token || request.generation ≤ 0) = true →
    Idle s.stream.point ∧ ∀ P, .claimed P ∉ s.log

/-- A call of anyone else. -/
theorem Sound.call (h : Sound request s) (a : Action) :
    Sound request { s with db := apply s.db a } where
  inv := h.inv.apply a
  tokens := h.tokens.apply h.inv a
  stands := h.stands
  taken P hP := (h.taken P hP).apply h.inv a
  order := h.order.imp fun hold R P hR hP => (hold R P hR hP).apply h.inv a
  switches := h.switches
  latest := h.latest
  valid := h.valid

/-- A step of the stream. -/
theorem Sound.advance (h : Sound request s) (turn : Turn) :
    Sound request (s.advance hashToken request turn) := by
  set s' := s.advance hashToken request turn with hs'
  -- what the store kept for the notices before this step
  have hkept : Inv s'.db ∧ s'.db.TokensUnique
      ∧ (∀ P, Taken P s.db → Taken P s'.db)
      ∧ ∀ R P, Superseded R P s.db → Superseded R P s'.db := by
    rcases db_advance s hashToken request turn with hsame | ⟨a, hwrote⟩
    · rw [hs', hsame]
      exact ⟨h.inv, h.tokens, fun _ hP => hP, fun _ _ hP => hP⟩
    · rw [hs', hwrote]
      exact ⟨h.inv.apply a, h.tokens.apply h.inv a,
        fun P hP => hP.apply h.inv a, fun R P hP => hP.apply h.inv a⟩
  obtain ⟨hinv, htokens, htaken, hsuperseded⟩ := hkept
  have hclaim : ∀ R, s'.log = .claimed R :: s.log → Taken R s'.db
      ∧ ∀ P, .claimed P ∈ s.log → Superseded R P s'.db := by
    intro R hlog
    obtain ⟨now, -, hok, hdb⟩ := claimed_advance hlog
    obtain ⟨-, -, -, hR, hearlier⟩ := claimed_after h.inv hok
    rw [hs', hdb]
    exact ⟨hR, fun P hP => hearlier P (h.taken P hP)⟩
  constructor
  case inv => exact hinv
  case tokens => exact htokens
  case stands => exact stands_advance turn h.stands
  case taken =>
    intro P hP
    rcases issues_advance s hashToken request turn
      with hsame | ⟨notice, hlog, -⟩
    · rw [← hs'] at hsame
      rw [hsame] at hP
      exact htaken P (h.taken P hP)
    · rw [← hs'] at hlog
      rw [hlog] at hP
      rcases List.mem_cons.mp hP with rfl | hP
      · exact (hclaim P hlog).1
      · exact htaken P (h.taken P hP)
  case order =>
    have hold := h.order.imp fun {later earlier}
      (hpair : ∀ R P, later = Notice.claimed R →
        earlier = Notice.claimed P → Superseded R P s.db) R P hR hP =>
      hsuperseded R P (hpair R P hR hP)
    rcases issues_advance s hashToken request turn
      with hsame | ⟨notice, hlog, -⟩
    · rw [← hs'] at hsame
      rw [hsame]
      exact hold
    · rw [← hs'] at hlog
      rw [hlog]
      refine List.pairwise_cons.mpr ⟨?_, hold⟩
      rintro earlier hmem R P rfl rfl
      exact (hclaim R hlog).2 P hmem
  case switches =>
    rcases switches_advance s hashToken request turn
      with ⟨hsame, -⟩ | ⟨now, nextPaused, stored, hp, hlog, -⟩
    · rw [hs', hsame]
      exact h.switches
    · rw [hs', hlog]
      have hstands := h.stands
      unfold Stands at hstands
      rw [hp] at hstands
      refine List.isChain_cons.mpr ⟨fun paused hpaused => ?_, h.switches⟩
      rw [h.latest paused hpaused]
      exact hstands.1
  case latest =>
    rcases switches_advance s hashToken request turn
      with ⟨hsame, hpaused⟩ | ⟨now, nextPaused, stored, -, hlog, hpaused⟩
    · rw [hs', hsame]
      intro paused hhead
      rcases hpaused with hpaused | hopening
      · rw [hpaused]
        exact h.latest paused hhead
      · have hstands := h.stands
        unfold Stands at hstands
        rw [hopening] at hstands
        rw [hstands.2] at hhead
        cases hhead
    · rw [hs', hlog, hpaused]
      intro paused hhead
      injection hhead with hhead
      exact hhead.symm
  case valid =>
    intro hinvalid
    obtain ⟨hidle, hnone⟩ := h.valid hinvalid
    refine ⟨idle_advance hinvalid hidle, fun P hP => ?_⟩
    rcases issues_advance s hashToken request turn
      with hsame | ⟨notice, hlog, -⟩
    · rw [← hs'] at hsame
      rw [hsame] at hP
      exact hnone P hP
    · rw [← hs'] at hlog
      rw [hlog] at hP
      rcases List.mem_cons.mp hP with rfl | hP
      · obtain ⟨now, hpoint, -⟩ := claimed_advance hlog
        rw [hpoint] at hidle
        exact hidle
      · exact hnone P hP

theorem Sound.init : Sound request Session.init where
  inv := Inv.init
  tokens o ho := absurd ho Table.not_mem_empty
  stands := ⟨rfl, rfl⟩
  taken P hP := by cases hP
  order := List.Pairwise.nil
  switches := List.isChain_nil
  latest paused hhead := by cases hhead
  valid _ := ⟨trivial, fun P hP => by cases hP⟩

theorem Sound.run (hashToken : String → TokenHash)
    (request : StreamRequest) (inputs : List Input) :
    Sound request
      (Run.run (step hashToken request) Session.init inputs) := by
  refine Run.run_preserves Sound.init (fun s input h => ?_) inputs
  cases input with
  | go turn => exact h.advance turn
  | call a => exact h.call a

-- ============================== the protocol

/-- What the protocol says about the next step of a session, from `s`
to `s'`. -/
structure Protocol (hashToken : String → TokenHash)
    (request : StreamRequest) (turn : Turn) (s s' : Session) : Prop where
  /-- an emitted playback is the one just claimed, and no other that
  was claimed before plays for this player any more -/
  presents : ∀ Q, s'.log = .emitted (.playback Q) :: s.log →
    ∃ R older, s.log = .claimed R :: older
      ∧ R.playbackID = Q.playbackID
      ∧ ∀ P, .claimed P ∈ older → P.queueSequence ≠ R.queueSequence →
        ∀ r ∈ s.db.playbacks, r.queueSequence = P.queueSequence →
          r.status = .playing →
          ¬ r.AssignedTo R.userID request.playerID request.generation
  /-- a claimed playback was waiting, and is afterwards the only one
  that plays for its user -/
  claims : ∀ R, s'.log = .claimed R :: s.log →
    R.AssignedTo R.userID request.playerID request.generation
      ∧ (∃ r ∈ s.db.playbacks, r.queueSequence = R.queueSequence
        ∧ r.playbackID = R.playbackID ∧ r.status = .pending)
      ∧ ∀ r ∈ s'.db.playbacks, r.userID = R.userID →
        r.status = .playing → r = R
  /-- after a claim the stream goes on to emit that playback: it reads
  the playback back, and its next step is the emission; or it ends -/
  delivers : ∀ R older, s.log = .claimed R :: older →
    s'.log = .ended :: s.log
      ∨ (∃ Q, s'.log = .emitted (.playback Q) :: s.log
        ∧ Q.playbackID = R.playbackID)
      ∨ s.stream.point = .fetching R.playbackID ∧ s'.log = s.log
        ∧ ∃ Q, s'.stream.point = .presenting Q
          ∧ Q.playbackID = R.playbackID
  /-- the step after the end is ClosePlayer -/
  closes : ∀ older, s.log = .ended :: older →
    ∃ released, s'.log = .closed released :: s.log
      ∧ (turn.fate = .done → released = true)
  /-- a stream that claimed and was closed leaves nothing playing for
  its player -/
  releases : s'.log = .closed true :: s.log →
    (∃ R, .claimed R ∈ s.log) → ∀ r ∈ s'.db.playbacks,
      r.status = .playing → ¬ Caller.Holds
        ⟨hashToken request.token, request.playerID, request.generation⟩
        s'.db r
  /-- a skip is emitted for the playback the stream held, which the
  newest poll did not show any more, and whose status it just read -/
  skips : s'.log = .emitted (.control .skip) :: s.log →
    ∃ Q status older stored, s.log = .checked Q status :: older
      ∧ Announced status ∧ held older = some Q
      ∧ lastPoll older = some stored ∧ Lost Q stored
  /-- what a poll shows is the answer of StreamState -/
  polls : ∀ stored, s'.log = .polled stored :: s.log →
    ∃ paused, (streamState (hashToken request.token) request.playerID
      request.generation turn.now s.db).1 = .ok (paused, stored)
  /-- the status it read is the stored one -/
  checks : ∀ Q status, s'.log = .checked Q status :: s.log →
    status = (s.db.playback? Q.playbackID).map Playback.status
  /-- a playback it took over was playing for this player -/
  adopts : ∀ Q, s'.log = .adopted Q :: s.log → Q.status = .playing
    ∧ Q.AssignedTo Q.userID request.playerID request.generation
  /-- pause and resume alternate -/
  alternates : (s'.log.filterMap Notice.switch).IsChain (· ≠ ·)

/-- The point of a stream that has claimed a playback last. -/
def Delivering (R : Playback) : Point → Prop
  | .fetching playbackID => playbackID = R.playbackID
  | .presenting playback => playback.playbackID = R.playbackID
  | _ => False

/-- After a claim the stream is on the way to emit it. -/
theorem stands_claimed {stream : Stream} {older : List Notice}
    (h : Stands request stream (.claimed R :: older)) :
    Delivering R stream.point := by
  unfold Stands at h
  cases hp : stream.point with
  | fetching playbackID =>
      rw [hp] at h
      obtain ⟨claimed, _, heq, hid⟩ := h
      injection heq with heq
      injection heq with heq
      exact (heq ▸ hid).symm
  | presenting playback =>
      rw [hp] at h
      obtain ⟨-, claimed, _, heq, hid⟩ := h
      injection heq with heq
      injection heq with heq
      exact (heq ▸ hid).symm
  | opening =>
      rw [hp] at h
      cases h.2
  | skipping =>
      rw [hp] at h
      obtain ⟨⟨_, _, _, heq, -⟩, -⟩ := h
      cases heq
  | ended =>
      rw [hp] at h
      obtain ⟨_, heq⟩ := h
      cases heq
  | closed =>
      rw [hp] at h
      obtain ⟨_, _, heq⟩ := h
      cases heq
  | _ =>
      rw [hp] at h
      simp [Quiet] at h

/-- A stream that has claimed a playback reads it back, emits it, or
ends. -/
theorem claimed_delivers (h : Delivering R s.stream.point) :
    (s.advance hashToken request turn).log = .ended :: s.log
      ∨ (∃ Q, (s.advance hashToken request turn).log
          = .emitted (.playback Q) :: s.log
        ∧ Q.playbackID = R.playbackID)
      ∨ s.stream.point = .fetching R.playbackID
        ∧ (s.advance hashToken request turn).log = s.log
        ∧ ∃ Q, (s.advance hashToken request turn).stream.point
            = .presenting Q ∧ Q.playbackID = R.playbackID := by
  unfold advance
  simp only
  cases hp : s.stream.point with
  | fetching playbackID =>
      rw [hp] at h
      obtain rfl : playbackID = R.playbackID := h
      simp only
      split
      case h_1 playback hfound =>
        have hid : playback.playbackID = R.playbackID :=
          (Table.find?_eq_some hfound).2
        split
        case isTrue => exact Or.inr (Or.inr ⟨trivial, rfl, playback, rfl, hid⟩)
        case isFalse => exact Or.inl rfl
      case h_2 => exact Or.inl rfl
  | presenting playback =>
      rw [hp] at h
      simp only
      unfold emit
      split
      case isTrue => exact Or.inr (Or.inl ⟨playback, rfl, h⟩)
      case isFalse => exact Or.inl rfl
  | _ =>
      rw [hp] at h
      exact h.elim

/-- After its end the stream stays ended. -/
theorem stands_ended {stream : Stream} {older : List Notice}
    (h : Stands request stream (.ended :: older)) :
    stream.point = .ended := by
  unfold Stands at h
  cases hp : stream.point with
  | ended => rfl
  | opening =>
      rw [hp] at h
      cases h.2
  | skipping =>
      rw [hp] at h
      obtain ⟨⟨_, _, _, heq, -⟩, -⟩ := h
      cases heq
  | fetching =>
      rw [hp] at h
      obtain ⟨_, _, heq, -⟩ := h
      cases heq
  | presenting =>
      rw [hp] at h
      obtain ⟨-, _, _, heq, -⟩ := h
      cases heq
  | closed =>
      rw [hp] at h
      obtain ⟨_, _, heq⟩ := h
      cases heq
  | _ =>
      rw [hp] at h
      simp [Quiet] at h

/-- A stream that adopts a playback was shown it by a poll. -/
theorem adopted_advance {Q : Playback}
    (hstands : Stands request s.stream s.log)
    (h : (s.advance hashToken request turn).log = .adopted Q :: s.log) :
    Shown request (some Q) := by
  have hissues := issues_of_log h
  generalize hp : s.stream.point = point at hissues
  cases hissues with
  | opened =>
      unfold advance at h
      rw [hp] at h
      simp only at h
      split at h
      case isTrue => exact absurd h.symm (List.cons_ne_self _ _)
      case isFalse =>
        split at h
        case h_1 => exact absurd h.symm (List.cons_ne_self _ _)
        case h_2 =>
          injection h with hnotice
          cases hnotice
        case h_3 paused current db hanswer =>
          have hshown : Shown request current :=
            streamState_shown (Fate.call_ok (congrArg Prod.fst hanswer)).1
          split at h
          case h_1 => exact absurd h.symm (List.cons_ne_self _ _)
          case h_2 playback =>
            injection h with hnotice
            injection hnotice with hplayback
            exact hplayback ▸ hshown
  | adopted now =>
      unfold Stands at hstands
      rw [hp] at hstands
      exact hstands.2.2

/-- A step of the stream follows the protocol. -/
theorem Sound.protocol (h : Sound request s) (turn : Turn) :
    Protocol hashToken request turn s
      (s.advance hashToken request turn) := by
  have hstands := h.stands
  unfold Stands at hstands
  constructor
  case presents =>
    intro Q hlog
    have hissues := issues_of_log hlog
    generalize hp : s.stream.point = point at hissues hstands
    cases hissues with
    | presented =>
        obtain ⟨-, R, older, hclaimed, hid⟩ := hstands
        refine ⟨R, older, hclaimed, hid, ?_⟩
        intro P hP hne r hr hq hplay hassigned
        have horder := h.order
        rw [hclaimed] at horder
        have hover := (List.pairwise_cons.mp horder).1 _ hP R P rfl rfl hne
        have hterm := hover.2 r hr hq hassigned.1
        rw [hplay] at hterm
        simp [PlaybackStatus.Terminal] at hterm
  case claims =>
    intro R hlog
    obtain ⟨now, -, hok, hdb⟩ := claimed_advance hlog
    obtain ⟨hmem, hplay, hassigned, -, -⟩ := claimed_after h.inv hok
    obtain ⟨r, hr, hpending, hR, -⟩ := claimPlayback_claimed h.inv hok
    refine ⟨hassigned, ⟨r, hr, ?_, ?_, hpending⟩, ?_⟩
    · rw [hR]
      rfl
    · rw [hR]
      rfl
    · rw [hdb]
      intro r' hr' hu hplay'
      exact (h.inv.apply _).single r' hr' R hmem hu hplay' hplay
  case delivers =>
    intro R older hclaimed
    exact claimed_delivers (stands_claimed (hclaimed ▸ h.stands))
  case closes =>
    intro older hended
    exact ended_advance (stands_ended (hended ▸ h.stands))
  case releases =>
    intro hlog hclaimed r hr hplay
    have hvalid : ¬ (!validToken request.token || request.generation ≤ 0)
        = true := by
      intro hinvalid
      obtain ⟨R, hR⟩ := hclaimed
      exact (h.valid hinvalid).2 R hR
    simp only [Bool.or_eq_true, Bool.not_eq_true', decide_eq_true_eq,
      not_or, Bool.not_eq_false, not_le] at hvalid
    have hdb := closed_advance hlog hvalid.1 hvalid.2
    rw [hdb] at hr ⊢
    exact releasePlayer_releases h.inv h.tokens
      ⟨hashToken request.token, request.playerID, request.generation⟩
      turn.now r hr hplay
  case skips =>
    intro hlog
    have hissues := issues_of_log hlog
    generalize hp : s.stream.point = point at hissues hstands
    generalize he : Notice.emitted (.control .skip) = notice at hissues
    cases hissues with
    | skipped now stored =>
        obtain ⟨⟨Q, status, older, hchecked, hannounced, hheld, hpoll,
          hlost⟩, -⟩ := hstands
        exact ⟨Q, status, older, stored, hchecked, hannounced, hheld,
          hpoll, hlost⟩
    | switched now nextPaused =>
        cases nextPaused <;> cases he
    | _ => cases he
  case polls => exact fun stored hlog => polled_advance hlog
  case checks => exact fun Q status hlog => checked_advance hlog
  case adopts =>
    exact fun Q hlog => adopted_advance h.stands hlog Q rfl
  case alternates => exact (h.advance turn).switches

/-- The event stream keeps its protocol, on every run: whatever the
other parties call between two of its steps, and however its own calls
and emissions end. -/
theorem stream_protocol (hashToken : String → TokenHash)
    (request : StreamRequest) (inputs : List Input) (turn : Turn) :
    let s := Run.run (step hashToken request) Session.init inputs
    Protocol hashToken request turn s
      (s.advance hashToken request turn) :=
  (Sound.run hashToken request inputs).protocol turn

-- ================ a skip without an emission

/-- The overlay token of the run below. -/
def adoptingToken : String := "overlay-token-of-the-first-user-1"

/-- The hash of that token. -/
def adoptingHash : TokenHash :=
  "181e32ec90e49dc30374141962370a381889d538fd053f81f26677290cc8708e"

/-- The request of the run below. -/
def adoptingRequest : StreamRequest :=
  { token := adoptingToken, playerID := 5, generation := 1 }

/-- A player claims over one stream and opens another one, which takes
the playback over; then its page is hidden. -/
def adoptingRun : List Input :=
  [.call (.setOverlayTokenHash 1 adoptingHash 0),
    .call (.openPlayer adoptingHash 5 0),
    .call (.heartbeat adoptingHash 5 1 true true 0),
    .call (.createTest 1 0 { playbackID := 0, gap := 0 }),
    .call (.claimPlayback adoptingHash 5 1 0 []), .go {},
    .call (.heartbeat adoptingHash 5 1 true false 0)]

/-- The playback is skipped while it waits again, and the stream
polls. -/
def skippingRun : List Input :=
  adoptingRun ++ [.call (.skip 1 0), .go {}, .go {}, .go {}, .go {}]

/-- The stream announces a skip, although it never emitted a playback,
and the one it held had left the player by going back to the queue. -/
theorem skip_without_playback :
    let runTo := Run.run (step (fun _ => adoptingHash) adoptingRequest)
      Session.init
    ((runTo skippingRun).advance (fun _ => adoptingHash) adoptingRequest
        {}).log = .emitted (.control .skip) :: (runTo skippingRun).log
      ∧ (runTo skippingRun).log.filterMap Notice.event = []
      ∧ (runTo adoptingRun).db.playbacks.rows.map Playback.status
        = [.pending] := by
  intro runTo
  refine ⟨?_, ?_, ?_⟩ <;> decide +kernel

end Session

end StreamBrew.Alert
