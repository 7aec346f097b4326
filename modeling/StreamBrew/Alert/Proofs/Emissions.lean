/-
What a stream emits to the page of its player, while everyone keeps to
the rules of the system (`Admits`).

A stream claims only after a poll that found nothing with its player.
What it has emitted is over by then (`Linked.ended`), so a claim
hands out something that it has not emitted.
-/
import StreamBrew.Alert.Proofs.Leases

namespace StreamBrew.Alert

open Relational

/-- The id of the playback that an event brings. -/
def StreamEvent.playbackID? : StreamEvent → Option PlaybackID
  | .playback shown => some shown.playbackID
  | _ => none

namespace Overlay

-- =================================== streams

/-- What is known at a point, while the player has been sent the playbacks
of `emitted`. -/
def Holds (playerID : PlayerID) (generation : Int)
    (emitted drawn : List PlaybackID) (clock : Time) (db : Db) :
    Point → Prop
  | .switching now _ stored | .comparing now stored
  | .checking now stored _ | .skipping now stored
  | .adopting now stored =>
      now ≤ clock
        ∧ (stored = none → ∀ playbackID ∈ emitted, Ended playbackID db)
  | .claiming now =>
      now ≤ clock ∧ ∀ playbackID ∈ emitted, Ended playbackID db
  | .fetching playbackID =>
      playbackID ∉ emitted ∧ playbackID ∈ drawn
        ∧ Handed playerID generation playbackID clock db
  | .presenting playback =>
      playback.playbackID ∉ emitted ∧ playback.playbackID ∈ drawn
        ∧ Handed playerID generation playback.playbackID clock db
  | _ => True

/-- A connection of a player, its stream at a point. -/
structure Linked (playerID : PlayerID) (generation : Int)
    (emitted drawn : List PlaybackID) (clock : Time) (db : Db)
    (point : Point) : Prop where
  once : emitted.Nodup
  known : ∀ playbackID ∈ emitted, playbackID ∈ drawn
  handed : ∀ playbackID ∈ emitted,
    Handed playerID generation playbackID clock db
  holds : Holds playerID generation emitted drawn clock db point

variable {playerID : PlayerID} {generation : Int}
  {emitted emitted' drawn drawn' : List PlaybackID} {clock clock' : Time}
  {db : Db} {a : Action} {players : List PlayerID} {point : Point}

/-- Nothing has been emitted yet. -/
theorem Linked.fresh : Linked playerID generation [] drawn clock db
    .opening where
  once := List.nodup_nil
  known playbackID h := by cases h
  handed playbackID h := by cases h
  holds := trivial

/-- Another call of the store. -/
theorem Holds.next (hi : Inv db) (hl : Listed players db)
    (ha : Admits clock players db a) (hplayer : playerID ∈ players)
    (hnew : ∀ playbackID ∈ a.drawn, playbackID ∉ drawn)
    (hknown : ∀ playbackID ∈ emitted, playbackID ∈ drawn)
    (h : Holds playerID generation emitted drawn clock db point) :
    Holds playerID generation emitted drawn clock (apply db a) point := by
  have hended : (∀ playbackID ∈ emitted, Ended playbackID db) →
      ∀ playbackID ∈ emitted, Ended playbackID (apply db a) := by
    intro hall playbackID he
    exact (hall playbackID he).next hi
      fun hd => hnew playbackID hd (hknown playbackID he)
  have hhanded : ∀ playbackID ∈ drawn,
      Handed playerID generation playbackID clock db →
      Handed playerID generation playbackID clock (apply db a) := by
    intro playbackID hd hh
    exact hh.next hi hl ha hplayer fun hdrawn => hnew playbackID hdrawn hd
  have hpoll : ∀ {now : Time} {stored : Option Playback},
      now ≤ clock
        ∧ (stored = none → ∀ playbackID ∈ emitted, Ended playbackID db) →
      now ≤ clock ∧ (stored = none →
        ∀ playbackID ∈ emitted, Ended playbackID (apply db a)) :=
    fun h => ⟨h.1, fun hnone => hended (h.2 hnone)⟩
  cases point with
  | switching now nextPaused stored => exact hpoll h
  | comparing now stored => exact hpoll h
  | checking now stored current => exact hpoll h
  | skipping now stored => exact hpoll h
  | adopting now stored => exact hpoll h
  | claiming now => exact ⟨h.1, hended h.2⟩
  | fetching playbackID => exact ⟨h.1, h.2.1, hhanded _ h.2.1 h.2.2⟩
  | presenting playback => exact ⟨h.1, h.2.1, hhanded _ h.2.1 h.2.2⟩
  | _ => trivial

theorem Linked.next (hi : Inv db) (hl : Listed players db)
    (ha : Admits clock players db a) (hplayer : playerID ∈ players)
    (hnew : ∀ playbackID ∈ a.drawn, playbackID ∉ drawn)
    (h : Linked playerID generation emitted drawn clock db point) :
    Linked playerID generation emitted drawn clock (apply db a) point where
  once := h.once
  known := h.known
  handed playbackID he :=
    (h.handed playbackID he).next hi hl ha hplayer
      fun hd => hnew playbackID hd (h.known playbackID he)
  holds := h.holds.next hi hl ha hplayer hnew h.known

/-- The clock goes on, ids are drawn, and events get lost. -/
theorem Linked.mono (hclock : clock ≤ clock') (hdrawn : drawn ⊆ drawn')
    (hless : emitted'.Sublist emitted)
    (h : Linked playerID generation emitted drawn clock db point) :
    Linked playerID generation emitted' drawn' clock' db point := by
  have hmem : ∀ playbackID ∈ emitted', playbackID ∈ emitted :=
    fun _ he => hless.subset he
  refine ⟨hless.nodup h.once, fun _ he => hdrawn (h.known _ (hmem _ he)),
    fun _ he => (h.handed _ (hmem _ he)).later hclock, ?_⟩
  have hholds := h.holds
  have hpoll : ∀ {now : Time} {stored : Option Playback},
      now ≤ clock
        ∧ (stored = none → ∀ playbackID ∈ emitted, Ended playbackID db) →
      now ≤ clock' ∧ (stored = none →
        ∀ playbackID ∈ emitted', Ended playbackID db) :=
    fun h => ⟨le_trans h.1 hclock,
      fun hnone playbackID he => h.2 hnone playbackID (hmem _ he)⟩
  cases point with
  | switching now nextPaused stored => exact hpoll hholds
  | comparing now stored => exact hpoll hholds
  | checking now stored current => exact hpoll hholds
  | skipping now stored => exact hpoll hholds
  | adopting now stored => exact hpoll hholds
  | claiming now =>
      exact ⟨le_trans hholds.1 hclock,
        fun playbackID he => hholds.2 playbackID (hmem _ he)⟩
  | fetching playbackID =>
      exact ⟨fun he => hholds.1 (hmem _ he), hdrawn hholds.2.1,
        hholds.2.2.later hclock⟩
  | presenting playback =>
      exact ⟨fun he => hholds.1 (hmem _ he), hdrawn hholds.2.1,
        hholds.2.2.later hclock⟩
  | _ => trivial

-- ===================================== turns

variable {hashToken : String → TokenHash} {request : StreamRequest}
  {s : Session} {turn : Turn}

/-- The ids of the playbacks that a turn emits. -/
def emittedIDs (log : List Notice) : List PlaybackID :=
  (emissions log).filterMap StreamEvent.playbackID?

/-- A turn emits no playback but the one that it presents. -/
theorem emits_advance (hlog : s.log = []) :
    emittedIDs (s.advance hashToken request turn).log = []
      ∨ ∃ playback, s.stream.point = .presenting playback
        ∧ emittedIDs (s.advance hashToken request turn).log
          = [playback.playbackID] := by
  rcases Session.issues_advance s hashToken request turn with
    hsame | ⟨notice, hadds, hissues⟩
  · left
    rw [hsame, hlog]
    rfl
  · rw [hadds, hlog]
    generalize hp : s.stream.point = point at hissues
    cases hissues with
    | presented shown => exact .inr ⟨shown, rfl, rfl⟩
    | switched now nextPaused =>
        left
        cases nextPaused <;> rfl
    | _ => exact .inl rfl

/-- The store calls of a stream. -/
inductive Called (hashToken : String → TokenHash) (request : StreamRequest)
    (turn : Turn) : Point → Action → Prop
  | polled {point : Point} (h : point = .opening ∨ point = .polling) :
      Called hashToken request turn point
        (.streamState (hashToken request.token) request.playerID
          request.generation turn.now)
  | claimed (now : Time) : Called hashToken request turn (.claiming now)
      (.claimPlayback (hashToken request.token) request.playerID
        request.generation now turn.locked)
  | closed : Called hashToken request turn .ended
      (.releasePlayer (hashToken request.token) request.playerID
        request.generation turn.now)

/-- What a turn writes is the call of its point. -/
theorem calls_advance (s : Session) :
    (s.advance hashToken request turn).db = s.db
      ∨ ∃ a, (s.advance hashToken request turn).db = apply s.db a
        ∧ Called hashToken request turn s.stream.point a := by
  have hcall : ∀ {α : Type} {f : Db → Outcome α}
      {answer : Except StoreError α} {db : Db} {a : Action},
      Called hashToken request turn s.stream.point a →
      (∀ db, (f db).2 = apply db a) →
      turn.fate.call f s.db = (answer, db) →
      db = s.db ∨ ∃ a, db = apply s.db a
        ∧ Called hashToken request turn s.stream.point a := by
    intro α f answer db a hcalled hf hanswer
    have hdb : (turn.fate.call f s.db).2 = db := congrArg Prod.snd hanswer
    rcases Fate.call_db turn.fate f s.db with hsame | hwrote
    · exact .inl (hdb.symm.trans hsame)
    · exact .inr ⟨a, hdb.symm.trans (hwrote.trans (hf s.db)), hcalled⟩
  have hemit : ∀ {fate : Fate} {event : StreamEvent}
      {next : Session → Session}, (∀ s', (next s').db = s'.db) →
      (s.emit fate event next).db = s.db := by
    intro fate event next hnext
    unfold Session.emit
    split
    case isTrue => exact hnext _
    case isFalse => rfl
  unfold Session.advance
  simp only
  split
  case h_1 hp =>
    rw [hp] at hcall ⊢
    split
    case isTrue => exact .inl rfl
    case isFalse =>
      split
      case h_1 hanswer =>
        exact hcall (.polled (.inl rfl)) (fun _ => rfl) hanswer
      case h_2 hanswer =>
        exact hcall (.polled (.inl rfl)) (fun _ => rfl) hanswer
      case h_3 hanswer =>
        split <;> exact hcall (.polled (.inl rfl)) (fun _ => rfl) hanswer
  case h_2 =>
    left
    split
    case isTrue => rfl
    case isFalse => split <;> rfl
  case h_3 => exact .inl (hemit fun _ => rfl)
  case h_4 hp =>
    rw [hp] at hcall ⊢
    split
    case h_1 hanswer => exact hcall (.polled (.inr rfl)) (fun _ => rfl) hanswer
    case h_2 hanswer => exact hcall (.polled (.inr rfl)) (fun _ => rfl) hanswer
    case h_3 hanswer =>
      unfold Session.polled
      split <;> exact hcall (.polled (.inr rfl)) (fun _ => rfl) hanswer
  case h_5 => exact .inl (hemit fun _ => rfl)
  case h_6 =>
    left
    unfold Session.compare
    split
    case h_1 => rfl
    case h_2 => split <;> rfl
  case h_7 =>
    left
    split
    case isTrue =>
      unfold Session.check
      simp only
      split <;> rfl
    case isFalse => rfl
  case h_8 => exact .inl (hemit fun _ => rfl)
  case h_9 =>
    left
    unfold Session.adopt Session.settle
    split <;> split <;> rfl
  case h_10 now hp =>
    rw [hp] at hcall ⊢
    split
    case h_1 hanswer => exact hcall (.claimed now) (fun _ => rfl) hanswer
    case h_2 hanswer => exact hcall (.claimed now) (fun _ => rfl) hanswer
    case h_3 hanswer => exact hcall (.claimed now) (fun _ => rfl) hanswer
    case h_4 hanswer => exact hcall (.claimed now) (fun _ => rfl) hanswer
  case h_11 =>
    left
    split
    case h_1 => split <;> rfl
    case h_2 => rfl
  case h_12 => exact .inl (hemit fun _ => rfl)
  case h_13 => exact .inl (hemit fun _ => rfl)
  case h_14 => exact .inl rfl
  case h_15 hp =>
    rw [hp] at hcall ⊢
    unfold Session.close
    split
    case isTrue => exact .inl rfl
    case isFalse =>
      split
      case h_1 hanswer => exact hcall .closed (fun _ => rfl) hanswer
      case h_2 hanswer => exact hcall .closed (fun _ => rfl) hanswer
  case h_16 => exact .inl rfl

/-- The system admits it. -/
theorem Called.admits (hclock : turn.now = clock)
    (hholds : Holds playerID generation emitted drawn clock db point)
    (h : Called hashToken request turn point a) :
    Admits clock players db a ∧ a.drawn = [] ∧ a.opens = [] := by
  -- Each rule is about calls of one kind.
  cases h with
  | polled =>
      refine ⟨⟨?_, ?_, ?_, ?_, ?_⟩, rfl, rfl⟩ <;> intros <;> rename_i he <;>
        cases he
      exact le_of_eq hclock
  | claimed now =>
      refine ⟨⟨?_, ?_, ?_, ?_, ?_⟩, rfl, rfl⟩ <;> intros <;> rename_i he <;>
        cases he
      exact hholds.1
  | closed =>
      refine ⟨⟨?_, ?_, ?_, ?_, ?_⟩, rfl, rfl⟩ <;> intros <;> rename_i he <;>
        cases he

theorem holds_finish (s : Session) :
    Holds playerID generation emitted drawn clock db
      s.finish.stream.point := trivial

/-- An emission goes on to a point that holds, or to the end. -/
theorem holds_emit {fate : Fate} {event : StreamEvent}
    {next : Session → Session}
    (h : Holds playerID generation emitted drawn clock db
      (next (s.note (.emitted event))).stream.point) :
    Holds playerID generation emitted drawn clock db
      (s.emit fate event next).stream.point := by
  unfold Session.emit
  split
  case isTrue => exact h
  case isFalse => exact holds_finish s

/-- An iteration that found a playback does not claim. -/
theorem holds_adopt {now : Time} {stored : Option Playback}
    (h : now ≤ clock
      ∧ (stored = none → ∀ playbackID ∈ emitted, Ended playbackID db)) :
    Holds playerID generation emitted drawn clock db
      (s.adopt now stored).stream.point := by
  unfold Session.adopt
  split
  case h_1 =>
    unfold Session.settle
    rw [if_neg]
    case hnc =>
      rintro ⟨hnone, -⟩
      cases hnone
    trivial
  case h_2 hno =>
    unfold Session.settle
    split
    case isTrue hfree =>
      refine ⟨h.1, h.2 (Option.eq_none_iff_forall_not_mem.mpr ?_)⟩
      exact fun found hfound => hno found hfree.1 hfound
    case isFalse => trivial

/-- What holds of a point that a turn comes to. -/
theorem holds_advance (hi : Inv s.db) (hl : Listed players s.db)
    (hrows : ∀ r ∈ s.db.playbacks, r.playbackID ∈ drawn)
    (hclock : turn.now = clock)
    (h : Linked request.playerID request.generation emitted drawn clock
      s.db s.stream.point)
    (hkept : emitted' = emitted
      ∨ ∃ playback, s.stream.point = .presenting playback) :
    Holds request.playerID request.generation emitted' drawn clock
      (s.advance hashToken request turn).db
      (s.advance hashToken request turn).stream.point := by
  by_cases hpresenting : ∃ playback, s.stream.point = .presenting playback
  case pos =>
    obtain ⟨playback, hp⟩ := hpresenting
    unfold Session.advance
    rw [hp]
    exact holds_emit trivial
  case neg =>
  obtain rfl := hkept.resolve_right hpresenting
  have hholds := h.holds
  unfold Session.advance
  simp only
  split
  case h_1 =>
    split
    case isTrue => trivial
    case isFalse =>
      split
      case h_1 => trivial
      case h_2 => exact holds_finish _
      case h_3 => split <;> trivial
  case h_2 =>
    split
    case isTrue => exact holds_finish _
    case isFalse => split <;> trivial
  case h_3 => exact holds_emit trivial
  case h_4 =>
    split
    case h_1 => trivial
    case h_2 => exact holds_finish _
    case h_3 nextPaused stored db hanswer =>
      -- A poll that finds nothing leaves nothing that was emitted.
      have hpoll : turn.now ≤ clock
          ∧ (stored = none → ∀ playbackID ∈ emitted',
            Ended playbackID db) := by
        refine ⟨le_of_eq hclock, ?_⟩
        rintro rfl playbackID he
        obtain ⟨hok, hdb⟩ := Fate.call_ok (congrArg Prod.fst hanswer)
        rw [hanswer] at hdb
        have hdb : db = _ := hdb
        rw [hclock] at hok hdb
        rw [hdb]
        exact ended_of_poll hi hl hok (h.handed playbackID he)
      unfold Session.polled
      split <;> exact hpoll
  case h_5 now nextPaused stored hp =>
    rw [hp] at hholds
    have hdb : (s.emit turn.fate
        (.control (if nextPaused then .pause else .resume))
        fun s => { s with
          stream := { s.stream with
            paused := nextPaused
            point := .comparing now stored } }).db = s.db := by
      unfold Session.emit
      split <;> rfl
    rw [hdb]
    exact holds_emit hholds
  case h_6 now stored hp =>
    rw [hp] at hholds
    unfold Session.compare
    split
    case h_1 => exact hholds
    case h_2 => split <;> exact hholds
  case h_7 now stored current hp =>
    rw [hp] at hholds
    split
    case isTrue =>
      unfold Session.check
      simp only
      split <;> exact hholds
    case isFalse => exact holds_finish s
  case h_8 now stored hp =>
    rw [hp] at hholds
    have hdb : (s.emit turn.fate (.control .skip) fun s =>
        s.forget.goto (.adopting now stored)).db = s.db := by
      unfold Session.emit
      split <;> rfl
    rw [hdb]
    exact holds_emit hholds
  case h_9 now stored hp =>
    rw [hp] at hholds
    have hdb : (s.adopt now stored).db = s.db := by
      unfold Session.adopt Session.settle
      split <;> split <;> rfl
    rw [hdb]
    exact holds_adopt hholds
  case h_10 now hp =>
    rw [hp] at hholds
    split
    case h_1 => trivial
    case h_2 => exact holds_finish _
    case h_3 => trivial
    case h_4 playback db hanswer =>
      -- What is handed out was waiting, and what was emitted is over.
      obtain ⟨hok, hdb⟩ := Fate.call_ok (congrArg Prod.fst hanswer)
      rw [hanswer] at hdb
      have hdb : db = apply s.db (.claimPlayback (hashToken request.token)
        request.playerID request.generation now turn.locked) := hdb
      obtain ⟨⟨r, hr, hid, hpending⟩, hhanded⟩ :
          (∃ r ∈ s.db.playbacks, r.playbackID = playback.playbackID
              ∧ r.status = .pending)
            ∧ Handed request.playerID request.generation
              playback.playbackID clock (apply s.db
                (.claimPlayback (hashToken request.token) request.playerID
                  request.generation now turn.locked)) :=
        handed_of_claim hi hok
      refine ⟨fun he => ?_, ?_, ?_⟩
      · have hover := hholds.2 playback.playbackID he r hr hid
        rw [hpending] at hover
        rcases hover with h | h | h | h <;> cases h
      · rw [← hid]
        exact hrows r hr
      · show Handed _ _ _ clock db
        rw [hdb]
        exact hhanded
  case h_11 playbackID hp =>
    rw [hp] at hholds
    split
    case h_1 playback hfound =>
      have hsame : playback.playbackID = playbackID :=
        (Table.find?_eq_some hfound).2
      split
      case isTrue =>
        show playback.playbackID ∉ emitted' ∧ _
        rw [hsame]
        exact hholds
      case isFalse => exact holds_finish s
    case h_2 => exact holds_finish s
  case h_12 playback hp => exact absurd ⟨playback, hp⟩ hpresenting
  case h_13 => exact holds_emit trivial
  case h_14 => exact holds_finish s
  case h_15 =>
    unfold Session.close
    split
    case isTrue => trivial
    case isFalse => split <;> trivial
  case h_16 hp =>
    rw [hp]
    trivial

/-- A turn keeps the connection, and what it emits is new. -/
theorem linked_advance (hi : Inv s.db) (hl : Listed players s.db)
    (hrows : ∀ r ∈ s.db.playbacks, r.playbackID ∈ drawn)
    (hclock : turn.now = clock) (hplayer : request.playerID ∈ players)
    (hlog : s.log = [])
    (h : Linked request.playerID request.generation emitted drawn clock
      s.db s.stream.point) :
    Linked request.playerID request.generation
      (emitted ++ emittedIDs (s.advance hashToken request turn).log) drawn
      clock (s.advance hashToken request turn).db
      (s.advance hashToken request turn).stream.point := by
  have hkept : ∀ playbackID ∈ drawn,
      Handed request.playerID request.generation playbackID clock s.db →
      Handed request.playerID request.generation playbackID clock
        (s.advance hashToken request turn).db := by
    intro playbackID hd hh
    have hcalls : (s.advance hashToken request turn).db = s.db
        ∨ ∃ a, (s.advance hashToken request turn).db = apply s.db a
          ∧ Called hashToken request turn s.stream.point a :=
      calls_advance s
    rcases hcalls with hsame | ⟨a, hdb, hcalled⟩
    · rw [hsame]
      exact hh
    · obtain ⟨hadmits, hdrawn, -⟩ : Admits clock players s.db a
          ∧ a.drawn = [] ∧ a.opens = [] := hcalled.admits hclock h.holds
      rw [hdb]
      refine hh.next hi hl hadmits hplayer ?_
      rw [hdrawn]
      exact List.not_mem_nil
  have hold : ∀ playbackID ∈ emitted,
      Handed request.playerID request.generation playbackID clock
        (s.advance hashToken request turn).db :=
    fun playbackID he =>
      hkept playbackID (h.known playbackID he) (h.handed playbackID he)
  have hemits : emittedIDs (s.advance hashToken request turn).log = []
      ∨ ∃ playback, s.stream.point = .presenting playback
        ∧ emittedIDs (s.advance hashToken request turn).log
          = [playback.playbackID] := emits_advance hlog
  rcases hemits with hnone | ⟨playback, hp, hone⟩
  · rw [hnone, List.append_nil]
    exact ⟨h.once, h.known, hold,
      holds_advance hi hl hrows hclock h (.inl rfl)⟩
  · have hholds := h.holds
    rw [hp] at hholds
    obtain ⟨hnew, hknown, hhanded⟩ := hholds
    rw [hone]
    refine ⟨?_, ?_, ?_, ?_⟩
    · rw [List.nodup_append]
      refine ⟨h.once, List.nodup_singleton _, ?_⟩
      rintro playbackID he _ hlast rfl
      rw [List.mem_singleton] at hlast
      exact hnew (hlast ▸ he)
    · intro playbackID he
      rcases List.mem_append.mp he with he | he
      · exact h.known playbackID he
      · rw [List.mem_singleton.mp he]
        exact hknown
    · intro playbackID he
      rcases List.mem_append.mp he with he | he
      · exact hold playbackID he
      · rw [List.mem_singleton.mp he]
        exact hkept _ hknown hhanded
    · exact holds_advance hi hl hrows hclock h
        (.inr ⟨playback, hp⟩)

end Overlay

end StreamBrew.Alert
