/-
Transactions of several statements over one store, interleaved at read
committed isolation.

# The machine

A statement reads the committed rows and the rows its own transaction
has written, and writes versions of some rows. The versions of an open
transaction stay with its session until it commits; then they replace
the committed rows in one step, and the commit is entered in the log.
What a session has written, and the locks it holds, are refused to all
others until its end: a statement that needs them waits (the step
leaves the world as it is). A failed statement ends its transaction,
and so may anything else at any time.

# The rule

`Inductive` is the invariant rule: a fact about the committed store, and
a fact about each open session, that every statement establishes and
that no commit of another transaction destroys. The two `stable`
obligations are where locks and row versions do their work.
-/
import StreamBrew.Lib.Run
import StreamBrew.Lib.Versions

namespace Sessions

open Relational

/-- Sets of row versions, of which a store is one. -/
class Versioned (σ : Type*) where
  empty : σ
  overlay : σ → σ → σ
  /-- No row has a version in both. -/
  Apart : σ → σ → Prop
  decidableApart : ∀ s t, Decidable (Apart s t)
  overlay_empty : ∀ s, overlay s empty = s
  empty_overlay : ∀ s, overlay empty s = s
  overlay_assoc : ∀ s t u, overlay (overlay s t) u = overlay s (overlay t u)
  apart_symm : ∀ {s t}, Apart s t → Apart t s
  apart_empty : ∀ s, Apart s empty
  apart_overlay : ∀ {s t u}, Apart s t → Apart s u → Apart s (overlay t u)

instance {σ : Type*} [Versioned σ] (s t : σ) :
    Decidable (Versioned.Apart s t) := Versioned.decidableApart s t

open Versioned (overlay Apart)

/-- What a statement writes, and the locks it takes. -/
structure Effect (σ ℓ : Type*) where
  written : σ
  locks : List ℓ := []

/-- The programs of a system: its calls of one statement, and the next
statement of each transaction in progress; a transaction without one
commits. The statement of a transaction may be given a value drawn by
the store. -/
structure Programs (σ ℓ γ τ δ ε : Type*) where
  call : γ → σ → Except ε (Effect σ ℓ)
  /-- A transaction before its first statement. -/
  fresh : τ → Bool
  statement : τ → Option (σ → δ → Except ε (Effect σ ℓ × τ))
  compatible : ℓ → ℓ → Bool
  compatible_symm : ∀ held lock, compatible held lock = compatible lock held

variable {σ ℓ γ τ δ ε : Type*} [Versioned σ]

/-- A committed transaction, or a call, with the rows it wrote. -/
structure Commit (σ γ τ : Type*) where
  source : γ ⊕ τ
  written : σ

/-- An open transaction. -/
structure Session (σ ℓ τ : Type*) where
  sessionID : Nat
  txn : τ
  written : σ
  locks : List ℓ

/-- The committed database, the log of commits, and the open sessions. -/
structure World (σ ℓ γ τ : Type*) where
  db : σ
  log : List (Commit σ γ τ)
  sessions : Table (fun s : Session σ ℓ τ => s.sessionID)

/-- The store before any transaction. -/
def World.init (db : σ) : World σ ℓ γ τ := ⟨db, [], .empty⟩

/-- A call, or a step of a transaction; `cut` is a lost connection. -/
inductive Action (γ τ δ : Type*)
  | call (call : γ)
  | start (sessionID : Nat) (txn : τ)
  | proceed (sessionID : Nat) (draw : δ)
  | cut (sessionID : Nat)

variable (programs : Programs σ ℓ γ τ δ ε)

/-- Another session neither has a version of a row nor holds a lock that
is in the way. -/
def Session.Lets (s : Session σ ℓ τ) (effect : Effect σ ℓ) : Prop :=
  Apart s.written effect.written
    ∧ ∀ held ∈ s.locks, ∀ lock ∈ effect.locks,
        programs.compatible held lock

instance (s : Session σ ℓ τ) (effect : Effect σ ℓ) :
    Decidable (s.Lets programs effect) :=
  inferInstanceAs (Decidable (_ ∧ _))

/-- All sessions but one let an effect pass. -/
def World.Free (w : World σ ℓ γ τ) (except : Option Nat)
    (effect : Effect σ ℓ) : Prop :=
  ∀ s ∈ w.sessions.rows, some s.sessionID ≠ except →
    s.Lets programs effect

instance (w : World σ ℓ γ τ) (except : Option Nat) (effect : Effect σ ℓ) :
    Decidable (w.Free programs except effect) :=
  inferInstanceAs (Decidable (∀ s ∈ w.sessions.rows, _))

/-- The rows a session sees. -/
def World.view (w : World σ ℓ γ τ) (s : Session σ ℓ τ) : σ :=
  overlay w.db s.written

/-- What was written becomes visible at once. -/
def World.commit (w : World σ ℓ γ τ) (source : γ ⊕ τ) (written : σ) :
    World σ ℓ γ τ :=
  { w with
    db := overlay w.db written
    log := w.log ++ [⟨source, written⟩] }

/-- End a session. -/
def World.drop (w : World σ ℓ γ τ) (sessionID : Nat) : World σ ℓ γ τ :=
  { w with sessions := w.sessions.delete fun s => s.sessionID = sessionID }

/-- The session after one more statement. -/
def Session.extend (s : Session σ ℓ τ) (effect : Effect σ ℓ) (txn : τ) :
    Session σ ℓ τ :=
  { s with
    txn
    written := overlay s.written effect.written
    locks := s.locks ++ effect.locks }

theorem Session.extend_sessionID (effect : Effect σ ℓ) (txn : τ)
    (s : Session σ ℓ τ) :
    (s.extend effect txn).sessionID = s.sessionID := rfl

/-- Go on with a session. -/
def World.extend (w : World σ ℓ γ τ) (sessionID : Nat)
    (effect : Effect σ ℓ) (txn : τ) : World σ ℓ γ τ :=
  { w with
    sessions := w.sessions.update (fun s => s.sessionID = sessionID)
      (fun s => s.extend effect txn) (Session.extend_sessionID effect txn) }

/-- A step that would have to wait, or fails, leaves the database as it is. -/
def step (w : World σ ℓ γ τ) : Action γ τ δ → World σ ℓ γ τ
  | .call call =>
      match programs.call call w.db with
      | .error _ => w
      | .ok effect =>
          if w.Free programs none effect then
            w.commit (.inl call) effect.written
          else w
  | .start sessionID txn =>
      if programs.fresh txn = true then
        match w.sessions.insert? ⟨sessionID, txn, Versioned.empty, []⟩ with
        | none => w
        | some sessions => { w with sessions }
      else w
  | .proceed sessionID draw =>
      match w.sessions.get? sessionID with
      | none => w
      | some s =>
          match programs.statement s.txn with
          | none => (w.commit (.inr s.txn) s.written).drop sessionID
          | some statement =>
              match statement (w.view s) draw with
              | .error _ => w.drop sessionID
              | .ok (effect, txn) =>
                  if w.Free programs (some sessionID) effect then
                    w.extend sessionID effect txn
                  else w
  | .cut sessionID => w.drop sessionID

/-- A statement that ran: what ran it, what it saw and how it ended. -/
structure Attempt (σ γ τ ε : Type*) where
  source : γ ⊕ τ
  view : σ
  result : Except ε σ

/-- The statement an action runs. -/
def World.attempt (w : World σ ℓ γ τ) :
    Action γ τ δ → Option (Attempt σ γ τ ε)
  | .call call => some
      { source := .inl call, view := w.db
        result := (programs.call call w.db).map Effect.written }
  | .proceed sessionID draw =>
      (w.sessions.get? sessionID).bind fun s =>
        (programs.statement s.txn).map fun statement =>
          { source := .inr s.txn, view := w.view s
            result := (statement (w.view s) draw).map fun r =>
              r.1.written }
  | .start _ _ | .cut _ => none

-- ================================== the rule

/-- A fact about the committed store and one about each open session. -/
structure Facts (σ ℓ γ τ : Type*) where
  good : List (Commit σ γ τ) → σ → Prop
  held : List (Commit σ γ τ) → σ → Session σ ℓ τ → Prop

/-- The facts hold of the database and of every open session. -/
def Facts.On (F : Facts σ ℓ γ τ) (w : World σ ℓ γ τ) : Prop :=
  F.good w.log w.db ∧ ∀ s ∈ w.sessions, F.held w.log w.db s

/-- Two facts together. -/
def Facts.and (F G : Facts σ ℓ γ τ) : Facts σ ℓ γ τ where
  good log db := F.good log db ∧ G.good log db
  held log db s := F.held log db s ∧ G.held log db s

/-- What is to be shown of a fact for it to hold in every world. -/
structure Inductive (F : Facts σ ℓ γ τ) : Prop where
  call : ∀ {log db call effect}, F.good log db →
    programs.call call db = .ok effect →
    F.good (log ++ [⟨.inl call, effect.written⟩])
      (overlay db effect.written)
  start : ∀ {log db sessionID txn}, F.good log db →
    programs.fresh txn = true →
    F.held log db ⟨sessionID, txn, Versioned.empty, []⟩
  statement : ∀ {log db s statement draw effect txn}, F.good log db →
    F.held log db s → programs.statement s.txn = some statement →
    statement (overlay db s.written) draw = .ok (effect, txn) →
    F.held log db (s.extend effect txn)
  commit : ∀ {log db s}, F.good log db → F.held log db s →
    programs.statement s.txn = none →
    F.good (log ++ [⟨.inr s.txn, s.written⟩]) (overlay db s.written)
  stable_call : ∀ {log db s call effect}, F.good log db →
    F.held log db s → programs.call call db = .ok effect →
    s.Lets programs effect →
    F.held (log ++ [⟨.inl call, effect.written⟩])
      (overlay db effect.written) s
  stable_commit : ∀ {log db s t}, F.good log db → F.held log db s →
    F.held log db t → programs.statement t.txn = none →
    s.Lets programs ⟨t.written, t.locks⟩ →
    F.held (log ++ [⟨.inr t.txn, t.written⟩]) (overlay db t.written) s

/-- What is to be shown of a fact where another one is known. -/
structure Given (G F : Facts σ ℓ γ τ) : Prop where
  call : ∀ {log db call effect}, (G.and F).good log db →
    programs.call call db = .ok effect →
    F.good (log ++ [⟨.inl call, effect.written⟩])
      (overlay db effect.written)
  start : ∀ {log db sessionID txn}, (G.and F).good log db →
    programs.fresh txn = true →
    F.held log db ⟨sessionID, txn, Versioned.empty, []⟩
  statement : ∀ {log db s statement draw effect txn},
    (G.and F).good log db → (G.and F).held log db s →
    programs.statement s.txn = some statement →
    statement (overlay db s.written) draw = .ok (effect, txn) →
    F.held log db (s.extend effect txn)
  commit : ∀ {log db s}, (G.and F).good log db → (G.and F).held log db s →
    programs.statement s.txn = none →
    F.good (log ++ [⟨.inr s.txn, s.written⟩]) (overlay db s.written)
  stable_call : ∀ {log db s call effect}, (G.and F).good log db →
    (G.and F).held log db s → programs.call call db = .ok effect →
    s.Lets programs effect →
    F.held (log ++ [⟨.inl call, effect.written⟩])
      (overlay db effect.written) s
  stable_commit : ∀ {log db s t}, (G.and F).good log db →
    (G.and F).held log db s → (G.and F).held log db t →
    programs.statement t.txn = none →
    s.Lets programs ⟨t.written, t.locks⟩ →
    F.held (log ++ [⟨.inr t.txn, t.written⟩]) (overlay db t.written) s

variable {programs}

/-- Facts that need others are inductive with them. -/
theorem Inductive.and {G F : Facts σ ℓ γ τ} (hG : Inductive programs G)
    (hF : Given programs G F) : Inductive programs (G.and F) where
  call h hcall := ⟨hG.call h.1 hcall, hF.call h hcall⟩
  start h hfresh := ⟨hG.start h.1 hfresh, hF.start h hfresh⟩
  statement h hs hnext hok :=
    ⟨hG.statement h.1 hs.1 hnext hok, hF.statement h hs hnext hok⟩
  commit h hs hend := ⟨hG.commit h.1 hs.1 hend, hF.commit h hs hend⟩
  stable_call h hs hcall hlets :=
    ⟨hG.stable_call h.1 hs.1 hcall hlets, hF.stable_call h hs hcall hlets⟩
  stable_commit h hs ht hend hlets :=
    ⟨hG.stable_commit h.1 hs.1 ht.1 hend hlets,
      hF.stable_commit h hs ht hend hlets⟩

/-- The sessions do not stand in each other's way. -/
def World.Separate (programs : Programs σ ℓ γ τ δ ε)
    (w : World σ ℓ γ τ) : Prop :=
  ∀ s ∈ w.sessions, ∀ t ∈ w.sessions, s.sessionID ≠ t.sessionID →
    s.Lets programs ⟨t.written, t.locks⟩

theorem Session.Lets.symm {s t : Session σ ℓ τ}
    (h : s.Lets programs ⟨t.written, t.locks⟩) :
    t.Lets programs ⟨s.written, s.locks⟩ := by
  refine ⟨Versioned.apart_symm h.1, fun held hheld lock hlock => ?_⟩
  rw [programs.compatible_symm]
  exact h.2 lock hlock held hheld

omit [Versioned σ] in
theorem World.mem_drop {w : World σ ℓ γ τ} {sessionID : Nat}
    {s : Session σ ℓ τ} :
    s ∈ (w.drop sessionID).sessions
      ↔ s ∈ w.sessions ∧ s.sessionID ≠ sessionID :=
  Table.mem_delete

theorem World.mem_extend {w : World σ ℓ γ τ} {sessionID : Nat}
    {effect : Effect σ ℓ} {txn : τ} {s : Session σ ℓ τ} :
    s ∈ (w.extend sessionID effect txn).sessions
      ↔ ∃ t ∈ w.sessions,
        (if t.sessionID = sessionID then t.extend effect txn else t) = s := by
  unfold World.extend
  dsimp only
  rw [Table.mem_update]

theorem World.Separate.drop {w : World σ ℓ γ τ}
    (h : w.Separate programs) (sessionID : Nat) :
    (w.drop sessionID).Separate programs :=
  fun s hs t ht => h s (World.mem_drop.mp hs).1 t (World.mem_drop.mp ht).1

/-- What a session may do next, it may do beside the others. -/
theorem Session.Lets.extend {s t : Session σ ℓ τ} {effect : Effect σ ℓ}
    {txn : τ} (h : s.Lets programs ⟨t.written, t.locks⟩)
    (heffect : s.Lets programs effect) :
    s.Lets programs ⟨(t.extend effect txn).written,
      (t.extend effect txn).locks⟩ := by
  refine ⟨Versioned.apart_overlay h.1 heffect.1, ?_⟩
  intro held hheld lock hlock
  rcases List.mem_append.mp hlock with hlock | hlock
  · exact h.2 held hheld lock hlock
  · exact heffect.2 held hheld lock hlock

variable (programs) in
/-- Every way a step changes a world. -/
inductive Step (w : World σ ℓ γ τ) : World σ ℓ γ τ → Prop
  | idle : Step w w
  | call {call : γ} {effect : Effect σ ℓ}
      (hcall : programs.call call w.db = .ok effect)
      (hfree : ∀ s ∈ w.sessions, s.Lets programs effect) :
      Step w (w.commit (.inl call) effect.written)
  | start {sessionID : Nat} {txn : τ} {sessions}
      (hfresh : programs.fresh txn = true)
      (hinsert : w.sessions.insert?
        ⟨sessionID, txn, Versioned.empty, []⟩ = some sessions) :
      Step w { w with sessions }
  | statement {s : Session σ ℓ τ} {statement} {draw : δ}
      {effect : Effect σ ℓ} {txn : τ} (hs : s ∈ w.sessions)
      (hnext : programs.statement s.txn = some statement)
      (hok : statement (w.view s) draw = .ok (effect, txn))
      (hfree : ∀ t ∈ w.sessions, t.sessionID ≠ s.sessionID →
        t.Lets programs effect) :
      Step w (w.extend s.sessionID effect txn)
  | commit {s : Session σ ℓ τ} (hs : s ∈ w.sessions)
      (hend : programs.statement s.txn = none) :
      Step w ((w.commit (.inr s.txn) s.written).drop s.sessionID)
  | drop {sessionID : Nat} : Step w (w.drop sessionID)

/-- Every step is one of these. -/
theorem step_cases (w : World σ ℓ γ τ) (action : Action γ τ δ) :
    Step programs w (step programs w action) := by
  cases action with
  | call call =>
      simp only [step]
      split
      case h_1 => exact Step.idle
      case h_2 effect heffect =>
        split
        case isTrue hfree =>
          exact Step.call heffect fun s hs => hfree s hs (by simp)
        case isFalse => exact Step.idle
  | start sessionID txn =>
      simp only [step]
      split
      case isTrue hfresh =>
        split
        case h_1 => exact Step.idle
        case h_2 sessions hinsert => exact Step.start hfresh hinsert
      case isFalse => exact Step.idle
  | proceed sessionID draw =>
      simp only [step]
      split
      case h_1 => exact Step.idle
      case h_2 s hget =>
        obtain ⟨hs, rfl⟩ := Table.get?_eq_some.mp hget
        split
        case h_1 hend => exact Step.commit hs hend
        case h_2 statement hnext =>
          split
          case h_1 => exact Step.drop
          case h_2 effect txn hok =>
            split
            case isTrue hfree =>
              refine Step.statement hs hnext hok fun t ht hne => ?_
              exact hfree t ht fun he => hne (Option.some.inj he)
            case isFalse => exact Step.idle
  | cut sessionID => exact Step.drop

section Proceed

variable {w : World σ ℓ γ τ} {s : Session σ ℓ τ}

/-- A call is performed, or it fails or waits and changes nothing. -/
theorem step_call (w : World σ ℓ γ τ) (call : γ) :
    step programs w (.call call) = w
      ∨ ∃ effect, programs.call call w.db = .ok effect
        ∧ step programs w (.call call)
          = w.commit (.inl call) effect.written := by
  simp only [step]
  split
  case h_1 => exact Or.inl rfl
  case h_2 effect heffect =>
    split
    case isTrue => exact Or.inr ⟨effect, heffect, rfl⟩
    case isFalse => exact Or.inl rfl

/-- A session at its end commits. -/
theorem step_commit (hs : s ∈ w.sessions)
    (hend : programs.statement s.txn = none) (draw : δ) :
    step programs w (.proceed s.sessionID draw)
      = (w.commit (.inr s.txn) s.written).drop s.sessionID := by
  simp only [step, Table.get?_key hs, hend]

/-- Before that it commits nothing. -/
theorem step_statement (hs : s ∈ w.sessions) {statement}
    (hnext : programs.statement s.txn = some statement) (draw : δ) :
    (step programs w (.proceed s.sessionID draw)).db = w.db
      ∧ (step programs w (.proceed s.sessionID draw)).log = w.log := by
  simp only [step, Table.get?_key hs, hnext]
  split
  case h_1 => exact ⟨rfl, rfl⟩
  case h_2 =>
    split
    case isTrue => exact ⟨rfl, rfl⟩
    case isFalse => exact ⟨rfl, rfl⟩

/-- A failed statement ends the session. -/
theorem step_failed (hs : s ∈ w.sessions) {statement}
    (hnext : programs.statement s.txn = some statement) {draw : δ} {e : ε}
    (herror : statement (w.view s) draw = .error e) :
    step programs w (.proceed s.sessionID draw) = w.drop s.sessionID := by
  simp only [step, Table.get?_key hs, hnext, herror]

/-- A statement that the others let pass joins its session. -/
theorem step_ran (hs : s ∈ w.sessions) {statement}
    (hnext : programs.statement s.txn = some statement) {draw : δ}
    {effect : Effect σ ℓ} {txn : τ}
    (hok : statement (w.view s) draw = .ok (effect, txn))
    (hfree : w.Free programs (some s.sessionID) effect) :
    step programs w (.proceed s.sessionID draw)
      = w.extend s.sessionID effect txn := by
  simp only [step, Table.get?_key hs, hnext, hok, if_pos hfree]

/-- One that is in the way of another session waits. -/
theorem step_waits (hs : s ∈ w.sessions) {statement}
    (hnext : programs.statement s.txn = some statement) {draw : δ}
    {effect : Effect σ ℓ} {txn : τ}
    (hok : statement (w.view s) draw = .ok (effect, txn))
    (hfree : ¬ w.Free programs (some s.sessionID) effect) :
    step programs w (.proceed s.sessionID draw) = w := by
  simp only [step, Table.get?_key hs, hnext, hok, if_neg hfree]

/-- A statement that writes nothing and takes no lock never waits. -/
theorem World.free_nothing (w : World σ ℓ γ τ) (except : Option Nat) :
    w.Free programs except { written := Versioned.empty } :=
  fun s _ _ => ⟨Versioned.apart_empty s.written,
    fun _ _ lock hlock => by cases hlock⟩

/-- What a session attempts. -/
theorem attempt_proceed (hs : s ∈ w.sessions) {statement}
    (hnext : programs.statement s.txn = some statement) (draw : δ) :
    w.attempt programs (.proceed s.sessionID draw)
      = some ⟨.inr s.txn, w.view s,
        (statement (w.view s) draw).map fun r => r.1.written⟩ := by
  simp only [World.attempt, Table.get?_key hs, Option.bind_some, hnext,
    Option.map_some]

/-- At its commit it attempts nothing. -/
theorem attempt_commit (hs : s ∈ w.sessions)
    (hend : programs.statement s.txn = none) (draw : δ) :
    w.attempt programs (.proceed s.sessionID draw) = none := by
  simp only [World.attempt, Table.get?_key hs, Option.bind_some, hend,
    Option.map_none]

end Proceed

/-- Sessions stay separate. -/
theorem Step.separate {w w' : World σ ℓ γ τ} (hstep : Step programs w w')
    (h : w.Separate programs) : w'.Separate programs := by
  cases hstep with
  | idle => exact h
  | call _ _ => exact h
  | start _ hinsert =>
      intro s hs t ht hne
      have hnew : ∀ u : Session σ ℓ τ, u.Lets programs ⟨Versioned.empty, []⟩ :=
        fun u => ⟨Versioned.apart_empty _, fun _ _ lock hlock => by cases hlock⟩
      rcases (Table.mem_insert? hinsert).mp hs with hs | rfl
      · rcases (Table.mem_insert? hinsert).mp ht with ht | rfl
        · exact h s hs t ht hne
        · exact hnew s
      · exact (hnew t).symm
  | @statement u statement draw effect txn hu _ _ hfree =>
      intro s hs t ht hne
      obtain ⟨a, ha, rfl⟩ := World.mem_extend.mp hs
      obtain ⟨b, hb, rfl⟩ := World.mem_extend.mp ht
      by_cases hua : a.sessionID = u.sessionID
      · by_cases hub : b.sessionID = u.sessionID
        · exfalso
          rw [if_pos hua, if_pos hub] at hne
          exact hne (hua.trans hub.symm)
        · rw [if_pos hua, if_neg hub]
          have hba : b.sessionID ≠ a.sessionID := fun he => hub (he.trans hua)
          exact Session.Lets.symm
            ((h b hb a ha hba).extend (hfree b hb hub))
      · by_cases hub : b.sessionID = u.sessionID
        · rw [if_neg hua, if_pos hub]
          have hab : a.sessionID ≠ b.sessionID := fun he => hua (he.trans hub)
          exact (h a ha b hb hab).extend (hfree a ha hua)
        · rw [if_neg hua, if_neg hub] at hne ⊢
          exact h a ha b hb hne
  | commit _ _ => exact World.Separate.drop h _
  | drop => exact h.drop _

/-- The rule, for one step. -/
theorem Inductive.step {F : Facts σ ℓ γ τ} (hF : Inductive programs F)
    {w w' : World σ ℓ γ τ} (hsep : w.Separate programs)
    (hstep : Step programs w w') (h : F.On w) : F.On w' := by
  obtain ⟨hgood, hheld⟩ := h
  cases hstep with
  | idle => exact ⟨hgood, hheld⟩
  | call hcall hfree =>
      refine ⟨hF.call hgood hcall, fun s hs => ?_⟩
      exact hF.stable_call hgood (hheld s hs) hcall (hfree s hs)
  | start hfresh hinsert =>
      refine ⟨hgood, fun s hs => ?_⟩
      rcases (Table.mem_insert? hinsert).mp hs with hs | rfl
      · exact hheld s hs
      · exact hF.start hgood hfresh
  | @statement u statement draw effect txn hu hnext hok hfree =>
      refine ⟨hgood, fun s hs => ?_⟩
      obtain ⟨a, ha, rfl⟩ := World.mem_extend.mp hs
      split
      case isTrue heq =>
        have hau : a = u := Table.eq_of_key ha hu heq
        rw [hau]
        exact hF.statement hgood (hheld u hu) hnext hok
      case isFalse => exact hheld a ha
  | @commit u hu hend =>
      refine ⟨hF.commit hgood (hheld u hu) hend, fun s hs => ?_⟩
      obtain ⟨hs, hne⟩ := World.mem_drop.mp hs
      exact hF.stable_commit hgood (hheld s hs) (hheld u hu) hend
        (hsep s hs u hu hne)
  | drop =>
      exact ⟨hgood, fun s hs => hheld s (World.mem_drop.mp hs).1⟩

variable (programs) in
/-- The worlds that some run from a store ends in. -/
def Reachable (db : σ) (w : World σ ℓ γ τ) : Prop :=
  Run.Reachable (step programs) (World.init db) w

/-- The rule: what is inductive and holds of the store before any
transaction holds of every reachable world. -/
theorem Inductive.reachable {F : Facts σ ℓ γ τ}
    (hF : Inductive programs F) {db : σ} (hinit : F.good [] db)
    {w : World σ ℓ γ τ} (h : Reachable programs db w) : F.On w := by
  have hempty : (World.init (ℓ := ℓ) (γ := γ) (τ := τ) db).Separate programs :=
    fun _ hs => by cases hs
  have hboth : w.Separate programs ∧ F.On w := by
    refine Run.Reachable.preserves
      (P := fun w => w.Separate programs ∧ F.On w) h
      ⟨hempty, hinit, fun s hs => by cases hs⟩ ?_
    intro w a hw
    exact ⟨(step_cases w a).separate hw.1,
      hF.step hw.1 (step_cases w a) hw.2⟩
  exact hboth.2

end Sessions
