/-
Runs of a deterministic machine and what they leave behind.

A machine is a step function `σ → α → σ`; everything a run may choose
(an order of calls, a clock value, an identifier drawn at random) is
part of the action. A run is a list of actions, a reachable state is
the state after some run, and what a run shows to the outside is its
log: the observations of each step, in order.

# The budget rule

`Along.cost_le` bounds what the steps of a run cost together, however
long the run is: a state owes an amount, every step pays for itself out
of what its state owes, and the rest is owed by the next state.

# The log rule

`log_pairwise` is how an ordering or an at-most-once statement about a
whole run is proved. Each observation leaves a mark on the state that
no later step erases, and the mark excludes every later observation
that would break the order. The rule turns these one-step facts into a
fact about every pair of observations of every run.
-/
import Mathlib.Data.List.Basic
import Mathlib.Order.Defs.Unbundled

namespace Run

variable {σ α β : Type*} (step : σ → α → σ)

/-- The state after a list of actions. -/
def run (s : σ) (acts : List α) : σ := acts.foldl step s

/-- The states some run from `s` ends in. -/
def Reachable (s s' : σ) : Prop := ∃ acts : List α, run step s acts = s'

/-- The observations along a run. -/
def log (observe : σ → α → List β) : σ → List α → List β
  | _, [] => []
  | s, a :: acts => observe s a ++ log observe (step s a) acts

/-- Every step of a run is taken in a state that meets a condition. -/
def Along (condition : σ → α → Prop) : σ → List α → Prop
  | _, [] => True
  | s, a :: acts => condition s a ∧ Along condition (step s a) acts

instance decidableAlong (condition : σ → α → Prop)
    [∀ s a, Decidable (condition s a)] :
    ∀ s acts, Decidable (Along step condition s acts)
  | _, [] => inferInstanceAs (Decidable True)
  | s, a :: acts =>
      have := decidableAlong condition (step s a) acts
      inferInstanceAs (Decidable (_ ∧ _))

/-- What the steps of a run cost together. -/
def cost (weigh : σ → α → Nat) : σ → List α → Nat
  | _, [] => 0
  | s, a :: acts => weigh s a + cost weigh (step s a) acts

variable {step}

@[simp] theorem run_nil (s : σ) : run step s [] = s := rfl

@[simp] theorem run_cons (s : σ) (a : α) (acts : List α) :
    run step s (a :: acts) = run step (step s a) acts := rfl

theorem run_append (s : σ) (as bs : List α) :
    run step s (as ++ bs) = run step (run step s as) bs :=
  List.foldl_append

theorem run_snoc (s : σ) (acts : List α) (a : α) :
    run step s (acts ++ [a]) = step (run step s acts) a := by
  rw [run_append, run_cons, run_nil]

/-- What every step preserves, every run preserves. -/
theorem run_preserves {P : σ → Prop} {s : σ} (hs : P s)
    (hstep : ∀ s a, P s → P (step s a)) (acts : List α) :
    P (run step s acts) :=
  List.foldlRecOn (motive := P) acts step hs fun s h a _ => hstep s a h

/-- Preservation restricted to the actions of the run. -/
theorem run_preserves_of_mem {P : σ → Prop} {s : σ} (hs : P s)
    {acts : List α} (hstep : ∀ s, ∀ a ∈ acts, P s → P (step s a)) :
    P (run step s acts) :=
  List.foldlRecOn (motive := P) acts step hs fun s h a ha => hstep s a ha h

/-- A run that takes an action has reached what the action leads to. -/
theorem run_reaches {P Q : σ → Prop} {s : σ} {a : α} (hs : P s)
    (hP : ∀ s b, P s → P (step s b)) (ha : ∀ s, P s → Q (step s a))
    (hQ : ∀ s b, Q s → Q (step s b)) {acts : List α} (hmem : a ∈ acts) :
    Q (run step s acts) := by
  obtain ⟨before, after, rfl⟩ := List.append_of_mem hmem
  rw [run_append, run_cons]
  exact run_preserves (ha _ (run_preserves hs hP before)) hQ after

/-- What every step under a condition preserves holds all along a run
whose steps meet it. -/
theorem Along.preserves {condition : σ → α → Prop} {P : σ → Prop} {s : σ}
    {acts : List α} (h : Along step condition s acts) (hs : P s)
    (hstep : ∀ s a, P s → condition s a → P (step s a)) :
    ∀ before after, acts = before ++ after → P (run step s before) := by
  induction acts generalizing s with
  | nil =>
      intro before after he
      obtain ⟨rfl, -⟩ := List.append_eq_nil_iff.mp he.symm
      exact hs
  | cons a acts ih =>
      intro before after he
      cases before with
      | nil => exact hs
      | cons b before =>
          rw [List.cons_append] at he
          injection he with hab hrest
          subst hab
          exact ih h.2 (hstep s a hs h.1) before after hrest

/-- A condition met by each step that a run takes. -/
theorem along_of_steps {condition : σ → α → Prop} {s : σ} {acts : List α}
    (h : ∀ before a after, acts = before ++ a :: after →
      condition (run step s before) a) : Along step condition s acts := by
  induction acts generalizing s with
  | nil => trivial
  | cons a acts ih =>
      refine ⟨h [] a acts rfl, ih fun before b after he => ?_⟩
      exact h (a :: before) b after (by rw [he, List.cons_append])

theorem Along.imp {c c' : σ → α → Prop} {s : σ} {acts : List α}
    (h : Along step c s acts) (himp : ∀ s a, c s a → c' s a) :
    Along step c' s acts := by
  induction acts generalizing s with
  | nil => trivial
  | cons a acts ih => exact ⟨himp s a h.1, ih h.2⟩

theorem Along.and {c c' : σ → α → Prop} {s : σ} {acts : List α}
    (h : Along step c s acts) (h' : Along step c' s acts) :
    Along step (fun s a => c s a ∧ c' s a) s acts := by
  induction acts generalizing s with
  | nil => trivial
  | cons a acts ih => exact ⟨⟨h.1, h'.1⟩, ih h.2 h'.2⟩

theorem along_append {c : σ → α → Prop} {s : σ} {as bs : List α} :
    Along step c s (as ++ bs)
      ↔ Along step c s as ∧ Along step c (run step s as) bs := by
  induction as generalizing s with
  | nil => exact (and_iff_right trivial).symm
  | cons a as ih =>
      rw [List.cons_append, Along, Along, ih, run_cons, and_assoc]

/-- The budget rule. -/
theorem Along.cost_le {condition : σ → α → Prop} {s : σ} {acts : List α}
    (h : Along step condition s acts) (weigh : σ → α → Nat)
    (owes : σ → Nat → Prop) {n : Nat} (hs : owes s n)
    (hstep : ∀ s a n, owes s n → condition s a →
      ∃ m, weigh s a + m ≤ n ∧ owes (step s a) m) :
    ∃ m, cost step weigh s acts + m ≤ n ∧ owes (run step s acts) m := by
  induction acts generalizing s n with
  | nil => exact ⟨n, Nat.le_of_eq (Nat.zero_add n), hs⟩
  | cons a acts ih =>
      obtain ⟨m, hm, hnext⟩ := hstep s a n hs h.1
      obtain ⟨k, hk, hend⟩ := ih h.2 hnext
      refine ⟨k, ?_, hend⟩
      rw [cost]
      omega

theorem Reachable.refl (s : σ) : Reachable step s s := ⟨[], rfl⟩

theorem Reachable.snoc {s s' : σ} (h : Reachable step s s') (a : α) :
    Reachable step s (step s' a) := by
  obtain ⟨acts, rfl⟩ := h
  exact ⟨acts ++ [a], by rw [run_append]; rfl⟩

theorem Reachable.preserves {P : σ → Prop} {s s' : σ}
    (h : Reachable step s s') (hs : P s)
    (hstep : ∀ s a, P s → P (step s a)) : P s' := by
  obtain ⟨acts, rfl⟩ := h
  exact run_preserves hs hstep acts

section Log

variable {observe : σ → α → List β}

theorem log_append (s : σ) (as bs : List α) :
    log step observe s (as ++ bs)
      = log step observe s as
        ++ log step observe (run step s as) bs := by
  induction as generalizing s with
  | nil => rfl
  | cons a as ih =>
      rw [List.cons_append, log, log, ih, List.append_assoc]
      rfl

theorem log_countP (p : β → Bool) (s : σ) (acts : List α) :
    (log step observe s acts).countP p
      = cost step (fun s a => (observe s a).countP p) s acts := by
  induction acts generalizing s with
  | nil => rfl
  | cons a acts ih => rw [log, cost, List.countP_append, ih]

/-- A condition on the actions and on what they show, step by step. -/
theorem along_of_mem {P : α → Prop} {Q : β → Prop} {s : σ}
    {acts : List α} (hacts : ∀ a ∈ acts, P a)
    (hlog : ∀ b ∈ log step observe s acts, Q b) :
    Along step (fun s a => P a ∧ ∀ b ∈ observe s a, Q b) s acts := by
  induction acts generalizing s with
  | nil => trivial
  | cons a acts ih =>
      refine ⟨⟨hacts a List.mem_cons_self, fun b hb => ?_⟩, ih ?_ ?_⟩
      · exact hlog b (List.mem_append_left _ hb)
      · exact fun a ha => hacts a (List.mem_cons_of_mem _ ha)
      · exact fun b hb => hlog b (List.mem_append_right _ hb)

variable {inv : σ → Prop} {mark : β → σ → Prop} {R : β → β → Prop}

/-- A mark on the starting state relates its observation to all that
the run logs. -/
theorem log_related (hinv : ∀ s a, inv s → inv (step s a))
    (hstable : ∀ s a b, inv s → mark b s → mark b (step s a))
    (hlater : ∀ s a b c, inv s → mark b s → c ∈ observe s a → R b c)
    {s : σ} (hs : inv s) {b : β} (hb : mark b s) (acts : List α) :
    ∀ c ∈ log step observe s acts, R b c := by
  induction acts generalizing s with
  | nil => intro c hc; cases hc
  | cons a acts ih =>
      intro c hc
      rcases List.mem_append.mp hc with hc | hc
      · exact hlater s a b c hs hb hc
      · exact ih (hinv s a hs) (hstable s a b hs hb) c hc

variable (inv) (mark) in
/-- The log rule: marks left by observations order the whole log. -/
theorem log_pairwise (hinv : ∀ s a, inv s → inv (step s a))
    (hself : ∀ s a, inv s → (observe s a).Pairwise R)
    (hmark : ∀ s a, inv s → ∀ b ∈ observe s a, mark b (step s a))
    (hstable : ∀ s a b, inv s → mark b s → mark b (step s a))
    (hlater : ∀ s a b c, inv s → mark b s → c ∈ observe s a → R b c)
    {s : σ} (hs : inv s) (acts : List α) :
    (log step observe s acts).Pairwise R := by
  induction acts generalizing s with
  | nil => exact List.Pairwise.nil
  | cons a acts ih =>
      refine List.pairwise_append.mpr
        ⟨hself s a hs, ih (hinv s a hs), fun b hb c hc => ?_⟩
      exact log_related hinv hstable hlater (hinv s a hs)
        (hmark s a hs b hb) acts c hc

end Log

end Run
