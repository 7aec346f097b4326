/-
Nobody is overtaken without bound by the request limiter.

# The argument

Fix a request that waits at the head of its channel. What the limiter
may still take before it (`Point.mayTake`) is decided by the receives
left of `next`: those before the receive of its own channel, or all when
that one was made before the request arrived. A budget on the two
counters bounds the grants to others (`Budget`); the limiter never owes
more than the budget, and each grant to another request pays one.

# Layers

- `step_spec` says once what a step can do;
- from it, what a step keeps for a request that waits (`polling_step`,
  `head_step`) and for one that was taken (`taken_step`);
- `Owes` is kept by every step, the budget rule gives the bound;
- the budgets of the two history channels are arithmetic.
-/
import StreamBrew.DonationAlerts.Limiter
import Mathlib.Data.List.TakeWhile

namespace StreamBrew.DonationAlerts

open RequestPriority

variable {q x : RequestPriority} {s : Limiter} {a : Action}
  {permit : Permit}

-- ================================== one step

/-- What a step can do: the events it logs, whether the limiter moved,
and the state it leaves. -/
inductive Limiter.Step (s : Limiter) :
    Action → List Event → Bool → Limiter → Prop
  | send (q : RequestPriority) :
      Step s (.send q) [] false (s.step (.send q))
  | cancel (permit : Permit) :
      Step s (.cancel permit) [] false (s.step (.cancel permit))
  | leave (permit : Permit) (hc : permit ∈ s.cancelled) :
      Step s (.leave permit) [] false { s with
        queue := fun q => (s.queue q).filter (· ≠ permit) }
  | idle (a : Action) : Step s a [] false s
  | take (a : Action) {q : RequestPriority} {permit : Permit}
      {rest : List RequestPriority}
      (hpoint : s.point = .polling rest) (hrest : ∀ r ∈ rest.head?, r = q)
      (hhead : (s.queue q).head? = some permit) :
      Step s a [] true (s.take q permit)
  | miss {q : RequestPriority} {rest : List RequestPriority}
      (hpoint : s.point = .polling (q :: rest)) (hempty : s.queue q = []) :
      Step s .poll [] true { s with point := .polling rest }
  | discard {permit : Permit} {q : RequestPriority}
      (hpoint : s.point = .taken permit q) (hc : permit ∈ s.cancelled) :
      Step s .settle [.discarded permit q] true
        { s with point := .polling s.bursts.next }
  | grant {permit : Permit} {q : RequestPriority}
      (hpoint : s.point = .taken permit q) (hc : permit ∉ s.cancelled) :
      Step s .settle [.granted permit q] true { s with
        bursts := s.bursts.granted q
        point := .polling (s.bursts.granted q).next }

/-- Every step is one of the cases. -/
theorem step_spec (s : Limiter) (a : Action) :
    s.Step a (s.observe a) (s.moves a) (s.step a) := by
  cases a with
  | send q => exact .send q
  | cancel permit => exact .cancel permit
  | leave permit =>
      by_cases hc : permit ∈ s.cancelled
      · simp only [Limiter.step, if_pos hc]
        exact .leave permit hc
      · simp only [Limiter.step, if_neg hc]
        exact .idle _
  | poll =>
      rcases hpoint : s.point with (_ | ⟨q, rest⟩) | ⟨permit, q⟩
      · simp only [Limiter.step, Limiter.moves, hpoint]
        exact .idle _
      · simp only [Limiter.step, Limiter.moves, hpoint]
        split
        case h_1 permit hhead =>
          exact .take _ hpoint (fun r hr => (Option.some.inj hr).symm) hhead
        case h_2 hnone =>
          exact .miss hpoint (List.head?_eq_none_iff.mp hnone)
      · simp only [Limiter.step, Limiter.moves, hpoint]
        exact .idle _
  | select q =>
      rcases hpoint : s.point with (_ | ⟨q', rest⟩) | ⟨permit, q'⟩
      · simp only [Limiter.step, Limiter.moves, hpoint]
        cases hqueue : s.queue q with
        | nil => exact .idle _
        | cons permit tail =>
            refine .take _ hpoint (fun r hr => nomatch hr) ?_
            rw [hqueue]
            rfl
      · simp only [Limiter.step, Limiter.moves, hpoint]
        exact .idle _
      · simp only [Limiter.step, Limiter.moves, hpoint]
        exact .idle _
  | settle =>
      rcases hpoint : s.point with rest | ⟨permit, q⟩
      · simp only [Limiter.step, Limiter.observe, Limiter.moves, hpoint]
        exact .idle _
      · simp only [Limiter.step, Limiter.observe, Limiter.moves, hpoint]
        split
        case isTrue hc => exact .discard hpoint hc
        case isFalse hc => exact .grant hpoint hc

/-- What the limiter may take from where it stands, as long as a caller
waits in the channel `q`. -/
def Point.mayTake (q : RequestPriority) : Point → RequestPriority → Prop
  | .polling rest, x => q ∈ rest → x ∈ rest.takeWhile (· ≠ q)
  | .taken _ y, x => x = y

theorem mayTake_miss {y : RequestPriority} {rest : List RequestPriority}
    (hy : y ≠ q) (h : Point.mayTake q (.polling rest) x) :
    Point.mayTake q (.polling (y :: rest)) x := by
  intro hq
  rw [List.takeWhile_cons_of_pos (by simpa using hy)]
  refine List.mem_cons_of_mem _ (h ?_)
  exact (List.mem_cons.mp hq).resolve_left (Ne.symm hy)

theorem mayTake_first {rest : List RequestPriority} (hx : x ≠ q)
    (hrest : ∀ r ∈ rest.head?, r = x) :
    Point.mayTake q (.polling rest) x := by
  intro hq
  cases rest with
  | nil => cases hq
  | cons y rest =>
      obtain rfl : y = x := hrest y rfl
      rw [List.takeWhile_cons_of_pos (by simpa using hx)]
      exact List.mem_cons_self

/-- A step before `next` returned: what may be taken only shrinks, apart
from the first caller of the channel `q` itself. -/
theorem polling_step (hpoint : s.Polling) (hq : s.queue q ≠ []) :
    s.observe a = [] ∧ (s.step a).bursts = s.bursts
      ∧ (∀ x, x ≠ q → (s.step a).point.mayTake q x → s.point.mayTake q x)
      ∧ ∀ p, (s.step a).point = .taken p q → (s.queue q).head? = some p := by
  obtain ⟨rest, hpoint⟩ := hpoint
  have hstep := step_spec s a
  generalize s.observe a = events, s.moves a = moved, s.step a = s'
    at hstep ⊢
  have hnone : ∀ p, s.point ≠ .taken p q := fun p hp => by
    rw [hpoint] at hp
    cases hp
  cases hstep with
  | send q => exact ⟨rfl, rfl, fun x _ h => h, fun p hp => (hnone p hp).elim⟩
  | cancel permit =>
      exact ⟨rfl, rfl, fun x _ h => h, fun p hp => (hnone p hp).elim⟩
  | leave permit hc =>
      exact ⟨rfl, rfl, fun x _ h => h, fun p hp => (hnone p hp).elim⟩
  | idle => exact ⟨rfl, rfl, fun x _ h => h, fun p hp => (hnone p hp).elim⟩
  | take a hpoint hrest hhead =>
      refine ⟨rfl, rfl, fun x hx h => ?_, fun p hp => ?_⟩
      · cases h
        rw [hpoint]
        exact mayTake_first hx hrest
      · cases hp
        exact hhead
  | miss hpoint hempty =>
      refine ⟨rfl, rfl, fun x _ h => ?_, fun p hp => nomatch hp⟩
      rw [hpoint]
      refine mayTake_miss ?_ h
      rintro rfl
      exact hq hempty
  | discard htaken hc => rw [hpoint] at htaken; cases htaken
  | grant htaken hc => rw [hpoint] at htaken; cases htaken

theorem settle_cancelled (hpoint : s.point = .taken permit x)
    (hc : permit ∈ s.cancelled) :
    s.observe .settle = [.discarded permit x]
      ∧ s.step .settle = { s with point := .polling s.bursts.next } := by
  simp only [Limiter.observe, Limiter.step, hpoint, if_pos hc]
  exact ⟨trivial, trivial⟩

theorem settle_granted (hpoint : s.point = .taken permit x)
    (hc : permit ∉ s.cancelled) :
    s.observe .settle = [.granted permit x]
      ∧ s.step .settle = { s with
        bursts := s.bursts.granted x
        point := .polling (s.bursts.granted x).next } := by
  simp only [Limiter.observe, Limiter.step, hpoint, if_neg hc]
  exact ⟨trivial, trivial⟩

/-- Until the limiter looks at the context, it keeps what it holds. -/
theorem taken_step (hpoint : s.point = .taken permit x)
    (ha : a ≠ .settle) :
    s.observe a = [] ∧ (s.step a).bursts = s.bursts
      ∧ (s.step a).point = .taken permit x := by
  have hstep := step_spec s a
  generalize s.observe a = events, s.moves a = moved, s.step a = s'
    at hstep ⊢
  cases hstep with
  | send q => exact ⟨rfl, rfl, hpoint⟩
  | cancel permit => exact ⟨rfl, rfl, hpoint⟩
  | leave permit hc => exact ⟨rfl, rfl, hpoint⟩
  | idle => exact ⟨rfl, rfl, hpoint⟩
  | take a hpolling => rw [hpoint] at hpolling; cases hpolling
  | miss hpolling => rw [hpoint] at hpolling; cases hpolling
  | discard => exact absurd rfl ha
  | grant => exact absurd rfl ha

/-- A request whose context is not done stays at the head of its channel
until it is taken. -/
theorem head_step (hhead : (s.queue q).head? = some permit)
    (hc : permit ∉ s.cancelled) :
    ((s.step a).queue q).head? = some permit
      ∨ (s.step a).point = .taken permit q := by
  obtain ⟨tail, hqueue⟩ := List.head?_eq_some_iff.mp hhead
  have hstep := step_spec s a
  generalize s.observe a = events, s.moves a = moved, s.step a = s'
    at hstep ⊢
  cases hstep with
  | send y =>
      refine Or.inl ?_
      show (if q = y then s.queue q ++ [s.sent] else s.queue q).head?
        = some permit
      split
      case isTrue => rw [hqueue]; rfl
      case isFalse => exact hhead
  | cancel => exact Or.inl hhead
  | leave p hp =>
      refine Or.inl ?_
      have hne : permit ≠ p := fun he => hc (he ▸ hp)
      show ((s.queue q).filter (· ≠ p)).head? = some permit
      rw [hqueue, List.filter_cons_of_pos (by simpa using hne)]
      rfl
  | idle => exact Or.inl hhead
  | @take _ y p _ hpoint hrest hp =>
      by_cases hy : q = y
      · subst hy
        rw [hhead] at hp
        cases hp
        exact Or.inr rfl
      · refine Or.inl ?_
        show (if q = y then (s.queue q).tail else s.queue q).head?
          = some permit
        rw [if_neg hy, hhead]
  | miss => exact Or.inl hhead
  | discard => exact Or.inl hhead
  | grant => exact Or.inl hhead

theorem cancelled_step (hc : permit ∉ s.cancelled)
    (ha : a ≠ .cancel permit) : permit ∉ (s.step a).cancelled := by
  have hstep := step_spec s a
  generalize s.observe a = events, s.moves a = moved, s.step a = s'
    at hstep ⊢
  cases hstep with
  | cancel p =>
      intro hmem
      rcases List.mem_cons.mp hmem with rfl | hmem
      · exact ha rfl
      · exact hc hmem
  | send => exact hc
  | leave => exact hc
  | idle => exact hc
  | take => exact hc
  | miss => exact hc
  | discard => exact hc
  | grant => exact hc

-- =================================== budgets

/-- A bound on the grants to others while a request is the first of the
channel `q`. -/
structure Budget (q : RequestPriority) (budget : Bursts → Nat)
    (bound : Nat) : Prop where
  /-- A decision that begins while the request waits pays for itself. -/
  fair : ∀ bursts : Bursts, ∀ x ∈ bursts.next.takeWhile (· ≠ q),
    1 + budget (bursts.granted x) ≤ budget bursts
  /-- So does the one that was under way when it arrived. -/
  late : ∀ (bursts : Bursts) (x : RequestPriority), x ≠ q →
    1 + budget (bursts.granted x) ≤ bound
  within : ∀ bursts, budget bursts ≤ bound
  polled : ∀ bursts : Bursts, q ∈ bursts.next

/-- Where a request stands that is the first of the channel `q`, and
that at most `n` grants go to others before it. -/
inductive Owes (q : RequestPriority) (budget : Bursts → Nat)
    (permit : Permit) (s : Limiter) (n : Nat) : Prop
  | taken {x : RequestPriority} (hpoint : s.point = .taken permit x)
  | polling {rest : List RequestPriority}
      (hpoint : s.point = .polling rest)
      (hhead : (s.queue q).head? = some permit)
      (hbudget : budget s.bursts ≤ n)
      (hmay : ∀ x, x ≠ q → s.point.mayTake q x →
        1 + budget (s.bursts.granted x) ≤ n)
  | behind {p : Permit} {y : RequestPriority}
      (hpoint : s.point = .taken p y) (hy : y ≠ q)
      (hhead : (s.queue q).head? = some permit)
      (hbudget : budget s.bursts ≤ n)
      (hpay : 1 + budget (s.bursts.granted y) ≤ n)

variable {budget : Bursts → Nat} {bound n : Nat}

/-- The first in line, whenever one begins to look. -/
theorem Budget.owes (h : Budget q budget bound)
    (hfirst : (s.line q).head? = some permit) :
    Owes q budget permit s bound := by
  unfold Limiter.line at hfirst
  split at hfirst
  case h_1 p y hpoint =>
    split at hfirst
    case isTrue =>
      cases hfirst
      exact .taken hpoint
    case isFalse hy =>
      exact .behind hpoint hy hfirst (h.within s.bursts)
        (h.late s.bursts y hy)
  case h_2 rest hpoint =>
    exact .polling hpoint hfirst (h.within s.bursts)
      fun x hx _ => h.late s.bursts x hx

/-- A decision begins. -/
theorem Budget.begin (h : Budget q budget bound)
    (hpoint : s.point = .polling s.bursts.next)
    (hhead : (s.queue q).head? = some permit)
    (hbudget : budget s.bursts ≤ n) : Owes q budget permit s n := by
  refine .polling hpoint hhead hbudget fun x _ hx => ?_
  rw [hpoint] at hx
  exact Nat.le_trans (h.fair s.bursts x (hx (h.polled s.bursts))) hbudget

/-- Every step pays for what it grants, until the request itself is
granted. -/
theorem Budget.step (h : Budget q budget bound)
    (hs : Owes q budget permit s n) (hc : permit ∉ s.cancelled)
    (hgrant : ∀ x, Event.granted permit x ∉ s.observe a) :
    ∃ m, (s.observe a).countP Event.isGrant + m ≤ n
      ∧ Owes q budget permit (s.step a) m := by
  have hfree : Owes q budget permit (s.step a) n → s.observe a = [] →
      ∃ m, (s.observe a).countP Event.isGrant + m ≤ n
        ∧ Owes q budget permit (s.step a) m := by
    intro hs' hlog
    rw [hlog]
    exact ⟨n, Nat.le_of_eq (Nat.zero_add n), hs'⟩
  cases hs with
  | @taken x hpoint =>
      by_cases hsettle : a = .settle
      · subst hsettle
        refine absurd ?_ (hgrant x)
        simp only [Limiter.observe, hpoint, if_neg hc]
        exact List.mem_singleton.mpr rfl
      · obtain ⟨hlog, -, hpoint'⟩ := taken_step hpoint hsettle
        exact hfree (.taken hpoint') hlog
  | polling hpoint hhead hbudget hmay =>
      have hq : s.queue q ≠ [] := fun he => by
        rw [he] at hhead
        cases hhead
      obtain ⟨hlog, hbursts, hshrink, hfirst⟩ :=
        polling_step (a := a) ⟨_, hpoint⟩ hq
      refine hfree ?_ hlog
      rcases head_step (a := a) hhead hc with hhead' | htaken
      case inr => exact .taken htaken
      rw [← hbursts] at hbudget hmay
      rcases hpoint' : (s.step a).point with rest' | ⟨p, y⟩
      · exact .polling hpoint' hhead' hbudget
          fun x hx hx' => hmay x hx (hshrink x hx hx')
      · by_cases hy : y = q
        · subst hy
          have hp := hfirst p hpoint'
          rw [hhead] at hp
          cases hp
          exact .taken hpoint'
        · refine .behind hpoint' hy hhead' hbudget
            (hmay y hy (hshrink y hy ?_))
          rw [hpoint']
          rfl
  | @behind p y hpoint hy hhead hbudget hpay =>
      by_cases hsettle : a = .settle
      · subst hsettle
        by_cases hp : p ∈ s.cancelled
        · obtain ⟨hlog, hstep⟩ := settle_cancelled hpoint hp
          rw [hlog, hstep]
          exact ⟨n, Nat.le_of_eq (Nat.zero_add n),
            h.begin rfl hhead hbudget⟩
        · obtain ⟨hlog, hstep⟩ := settle_granted hpoint hp
          rw [hlog, hstep]
          exact ⟨budget (s.bursts.granted y), hpay,
            h.begin rfl hhead (Nat.le_refl _)⟩
      · obtain ⟨hlog, hbursts, hpoint'⟩ := taken_step hpoint hsettle
        refine hfree ?_ hlog
        rw [← hbursts] at hbudget hpay
        rcases head_step (a := a) hhead hc with hhead' | htaken
        · exact .behind hpoint' hy hhead' hbudget hpay
        · exact .taken htaken

theorem grants_eq_cost (s : Limiter) (acts : List Action) :
    (s.log acts).countP Event.isGrant
      = Run.cost Limiter.step
        (fun s a => (s.observe a).countP Event.isGrant) s acts :=
  Run.log_countP Event.isGrant s acts

/-- While a request is first in line, neither cancelled nor granted, at
most `bound` permits go to others. -/
theorem Budget.grants (h : Budget q budget bound)
    (hfirst : (s.line q).head? = some permit) (hc : permit ∉ s.cancelled)
    {acts : List Action} (hacts : Action.cancel permit ∉ acts)
    (hgrant : ∀ x, Event.granted permit x ∉ s.log acts) :
    (s.log acts).countP Event.isGrant ≤ bound := by
  have halong : Run.Along Limiter.step (fun s a => a ≠ .cancel permit
      ∧ ∀ e ∈ s.observe a, ∀ x, e ≠ .granted permit x) s acts :=
    Run.along_of_mem (P := fun a => a ≠ Action.cancel permit)
      (Q := fun e => ∀ x, e ≠ Event.granted permit x)
      (fun a ha he => hacts (he ▸ ha)) fun e he x hx => hgrant x (hx ▸ he)
  obtain ⟨m, hm, -⟩ := halong.cost_le
    (fun s a => (s.observe a).countP Event.isGrant)
    (fun s n => permit ∉ s.cancelled ∧ Owes q budget permit s n)
    ⟨hc, h.owes hfirst⟩ (by
      rintro s a n ⟨hc, hs⟩ ⟨ha, hlog⟩
      obtain ⟨m, hm, hs'⟩ :=
        h.step (a := a) hs hc fun x hx => hlog _ hx x rfl
      exact ⟨m, hm, cancelled_step hc ha, hs'⟩)
  rw [grants_eq_cost]
  omega

-- ====================== the history channels

theorem mem_next (bursts : Bursts) (hq : q ≠ criticalRequest) :
    q ∈ bursts.next := by
  have hmem : q ∈ nextHistory bursts.recoveryBurst := by
    unfold nextHistory
    cases q with
    | criticalRequest => exact absurd rfl hq
    | recoveryRequest => simp
    | regularRequest => simp
  exact List.mem_append_right _ hmem

/-- What `next` may receive before a caller of a history channel. -/
theorem before_history (bursts : Bursts) (hq : q ≠ criticalRequest)
    (hx : x ∈ bursts.next.takeWhile (· ≠ q)) :
    (x = criticalRequest → bursts.criticalBurst < maximumCriticalBurst)
      ∧ (x = recoveryRequest →
        bursts.recoveryBurst < maximumRecoveryBurst)
      ∧ (x = regularRequest →
        maximumRecoveryBurst ≤ bursts.recoveryBurst) ∧ x ≠ q := by
  unfold Bursts.next DonationAlerts.next nextHistory at hx
  -- the four lists that `next` can be, against each channel
  by_cases hc : bursts.criticalBurst < maximumCriticalBurst
  · rw [if_pos hc, if_neg (Nat.not_le.mpr hc)] at hx
    by_cases hr : bursts.recoveryBurst ≥ maximumRecoveryBurst
    · rw [if_pos hr] at hx
      cases q <;> cases x <;> simp_all
    · rw [if_neg hr] at hx
      cases q <;> cases x <;> simp_all
  · rw [if_neg hc, if_pos (Nat.not_lt.mp hc)] at hx
    by_cases hr : bursts.recoveryBurst ≥ maximumRecoveryBurst
    · rw [if_pos hr] at hx
      cases q <;> cases x <;> simp_all
    · rw [if_neg hr] at hx
      cases q <;> cases x <;> simp_all

/-- How many critical requests may still go before a recovery request. -/
def recoveryBudget (bursts : Bursts) : Nat :=
  (maximumCriticalBurst - bursts.criticalBurst)
    + if bursts.recoveryBurst ≥ maximumRecoveryBurst then
      maximumCriticalBurst + 1 else 0

/-- Before a recovery request: a critical burst, a regular request when
recovery has had its share, and one more critical burst. -/
theorem recovery_budget : Budget recoveryRequest recoveryBudget
    (2 * maximumCriticalBurst + 1) := by
  refine ⟨fun bursts x hx => ?_, fun bursts x hx => ?_, fun bursts => ?_,
    fun bursts => mem_next bursts (by decide)⟩
  · obtain ⟨hcritical, -, hregular, hne⟩ :=
      before_history bursts (by decide) hx
    cases x with
    | criticalRequest =>
        have hc := hcritical rfl
        unfold recoveryBudget Bursts.granted maximumCriticalBurst at *
        dsimp only
        omega
    | recoveryRequest => exact absurd rfl hne
    | regularRequest =>
        have hr := hregular rfl
        unfold recoveryBudget Bursts.granted maximumCriticalBurst
          maximumRecoveryBurst at *
        dsimp only
        rw [if_pos hr, if_neg (by decide)]
        omega
  · cases x with
    | criticalRequest =>
        unfold recoveryBudget Bursts.granted maximumCriticalBurst
        dsimp only
        split <;> omega
    | recoveryRequest => exact absurd rfl hx
    | regularRequest =>
        unfold recoveryBudget Bursts.granted maximumCriticalBurst
          maximumRecoveryBurst
        dsimp only
        rw [if_neg (by decide)]
        omega
  · unfold recoveryBudget maximumCriticalBurst
    split <;> omega

/-- How many others may still go before a regular request. -/
def regularBudget (bursts : Bursts) : Nat :=
  (maximumCriticalBurst - bursts.criticalBurst)
    + (maximumCriticalBurst + 1)
      * (maximumRecoveryBurst - bursts.recoveryBurst)

/-- Before a regular request: the share of recovery, and a critical burst
before each. -/
theorem regular_budget : Budget regularRequest regularBudget
    (maximumCriticalBurst
      + (maximumCriticalBurst + 1) * maximumRecoveryBurst) := by
  refine ⟨fun bursts x hx => ?_, fun bursts x hx => ?_, fun bursts => ?_,
    fun bursts => mem_next bursts (by decide)⟩
  · obtain ⟨hcritical, hrecovery, -, hne⟩ :=
      before_history bursts (by decide) hx
    cases x with
    | criticalRequest =>
        have hc := hcritical rfl
        unfold regularBudget Bursts.granted maximumCriticalBurst at *
        dsimp only
        omega
    | recoveryRequest =>
        have hr := hrecovery rfl
        unfold regularBudget Bursts.granted maximumCriticalBurst
          maximumRecoveryBurst at *
        dsimp only
        omega
    | regularRequest => exact absurd rfl hne
  · cases x with
    | criticalRequest =>
        unfold regularBudget Bursts.granted maximumCriticalBurst
          maximumRecoveryBurst
        dsimp only
        omega
    | recoveryRequest =>
        unfold regularBudget Bursts.granted maximumCriticalBurst
          maximumRecoveryBurst
        dsimp only
        omega
    | regularRequest => exact absurd rfl hx
  · unfold regularBudget maximumCriticalBurst maximumRecoveryBurst
    omega

-- =========================== critical bursts

/-- At most `n` critical requests are granted before a history request,
the one in hand included. -/
def Spare (s : Limiter) (n : Nat) : Prop :=
  maximumCriticalBurst - s.bursts.criticalBurst ≤ n
    ∧ ∀ permit, s.point = .taken permit criticalRequest →
      1 + (maximumCriticalBurst - (s.bursts.criticalBurst + 1)) ≤ n

theorem spare_any (s : Limiter) : Spare s maximumCriticalBurst := by
  refine ⟨Nat.sub_le _ _, fun _ _ => ?_⟩
  unfold maximumCriticalBurst
  omega

/-- A decision comes to a critical request only when the burst has room
for it. -/
theorem Spare.decide {acts : List Action} (hq : q ≠ criticalRequest)
    (hbegin : s.Deciding)
    (hwaiting : Run.Along Limiter.step (fun s _ =>
      s.Polling ∧ s.Waiting q permit) s acts) (hs : Spare s n) :
    ∃ m, (s.log acts).countP Event.isGrant + m ≤ n
      ∧ Spare (s.run acts) m := by
  rw [grants_eq_cost]
  have hroom : s.point.mayTake q criticalRequest →
      1 + (maximumCriticalBurst - (s.bursts.criticalBurst + 1)) ≤ n := by
    intro hmay
    rw [hbegin] at hmay
    have hlt := (before_history s.bursts hq
      (hmay (mem_next s.bursts hq))).1 rfl
    have := hs.1
    omega
  obtain ⟨m, hm, hburst, hmay⟩ := hwaiting.cost_le
    (fun s a => (s.observe a).countP Event.isGrant)
    (fun s n =>
      maximumCriticalBurst - s.bursts.criticalBurst ≤ n
        ∧ (s.point.mayTake q criticalRequest →
          1 + (maximumCriticalBurst - (s.bursts.criticalBurst + 1)) ≤ n))
    ⟨hs.1, hroom⟩ (by
      rintro s a n ⟨hburst, hmay⟩ ⟨hpolling, hwait⟩
      obtain ⟨hlog, hbursts, hshrink, -⟩ := polling_step (a := a) hpolling
        (List.ne_nil_of_mem hwait)
      rw [hlog, hbursts]
      exact ⟨n, Nat.le_of_eq (Nat.zero_add n), hburst,
        fun h => hmay (hshrink _ (Ne.symm hq) h)⟩)
  refine ⟨m, hm, hburst, fun p hp => hmay ?_⟩
  show (Limiter.run s acts).point.mayTake q criticalRequest
  rw [hp]
  rfl

/-- The permit in hand pays for itself if it is a critical one. -/
theorem Spare.settle {acts : List Action}
    (htaken : Run.Along Limiter.step (fun s _ => ¬s.Polling) s acts)
    (hlog : ∀ e ∈ s.log acts, e.isHistory = false) (hs : Spare s n) :
    ∃ m, (s.log acts).countP Event.isGrant + m ≤ n
      ∧ Spare (s.run acts) m := by
  rw [grants_eq_cost]
  refine (htaken.and (Run.along_of_mem (P := fun _ => True)
    (fun _ _ => trivial) hlog)).cost_le _ Spare hs ?_
  rintro s a n hs ⟨hpoint, -, hlog⟩
  rcases hpoint' : s.point with rest | ⟨permit, x⟩
  · exact absurd ⟨rest, hpoint'⟩ hpoint
  by_cases hsettle : a = .settle
  · subst hsettle
    by_cases hc : permit ∈ s.cancelled
    · obtain ⟨hevents, hstep⟩ := settle_cancelled hpoint' hc
      rw [hevents, hstep]
      exact ⟨n, Nat.le_of_eq (Nat.zero_add n), hs.1, fun _ h => nomatch h⟩
    · obtain ⟨hevents, hstep⟩ := settle_granted hpoint' hc
      rw [hevents, hstep]
      have hx : x = criticalRequest := by
        have := hlog (.granted permit x) (by rw [hevents]; simp)
        simpa [Event.isHistory] using this
      subst hx
      exact ⟨_, hs.2 permit hpoint', Nat.le_refl _, fun _ h => nomatch h⟩
  · obtain ⟨hevents, hbursts, hpoint⟩ := taken_step hpoint' hsettle
    rw [hevents]
    refine ⟨n, Nat.le_of_eq (Nat.zero_add n), ?_⟩
    unfold Spare
    rw [hbursts, hpoint, ← hpoint']
    exact hs

/-- The grants to others are paid from what is spare. -/
theorem Attended.spare {acts : List Action} (h : Attended s acts)
    (hlog : ∀ e ∈ s.log acts, e.isHistory = false) (hs : Spare s n) :
    ∃ m, (s.log acts).countP Event.isGrant + m ≤ n
      ∧ Spare (s.run acts) m := by
  -- a run in two parts, the first of which is already paid
  have hcompose : ∀ {s : Limiter} {acts rest : List Action} {n : Nat},
      (∀ e ∈ s.log (acts ++ rest), e.isHistory = false) →
      (∃ m, (s.log acts).countP Event.isGrant + m ≤ n
        ∧ Spare (s.run acts) m) →
      (∀ m, (∀ e ∈ (s.run acts).log rest, e.isHistory = false) →
        Spare (s.run acts) m →
        ∃ k, ((s.run acts).log rest).countP Event.isGrant + k ≤ m
          ∧ Spare ((s.run acts).run rest) k) →
      ∃ m, (s.log (acts ++ rest)).countP Event.isGrant + m ≤ n
        ∧ Spare (s.run (acts ++ rest)) m := by
    intro s acts rest n hlog ⟨m, hm, hs⟩ hrest
    unfold Limiter.log Limiter.run at *
    rw [Run.log_append] at hlog ⊢
    rw [Run.run_append, List.countP_append]
    obtain ⟨k, hk, hend⟩ := hrest m
      (fun e he => hlog e (List.mem_append_right _ he)) hs
    exact ⟨k, by omega, hend⟩
  induction h generalizing n with
  | nil s => exact ⟨n, Nat.le_of_eq (Nat.zero_add n), hs⟩
  | decide priority permit hhistory hbegin hwaiting hrest ih =>
      exact hcompose hlog (hs.decide hhistory hbegin hwaiting)
        fun m hlog hs => ih hlog hs
  | @settle s acts rest htaken hrest ih =>
      refine hcompose hlog (hs.settle htaken fun e he => hlog e ?_)
        fun m hlog hs => ih hlog hs
      unfold Limiter.log
      rw [Run.log_append]
      exact List.mem_append_left _ he

-- ================================== progress

/-- How often the limiter moves at most before its next event. -/
def Point.fuel : Point → Nat
  | .polling rest => rest.length + 2
  | .taken _ _ => 1

theorem next_length (bursts : Bursts) : bursts.next.length ≤ 7 := by
  unfold Bursts.next DonationAlerts.next nextHistory
  by_cases hc : bursts.criticalBurst < maximumCriticalBurst
  · rw [if_pos hc, if_neg (Nat.not_le.mpr hc)]
    split
    case isTrue => decide
    case isFalse => decide
  · rw [if_neg hc, if_pos (Nat.not_lt.mp hc)]
    split
    case isTrue => decide
    case isFalse => decide

/-- Every move of the limiter is paid by its fuel, or by an event. -/
theorem fuel_step : (s.moves a).toNat + (s.step a).point.fuel
    ≤ s.point.fuel + 9 * (s.observe a).length := by
  have hstep := step_spec s a
  generalize s.observe a = events, s.moves a = moved, s.step a = s'
    at hstep ⊢
  cases hstep with
  | send => exact Nat.le_of_eq (Nat.zero_add _)
  | cancel => exact Nat.le_of_eq (Nat.zero_add _)
  | leave => exact Nat.le_of_eq (Nat.zero_add _)
  | idle => exact Nat.le_of_eq (Nat.zero_add _)
  | @take _ _ _ rest hpoint =>
      rw [hpoint]
      show 1 + 1 ≤ rest.length + 2 + 0
      omega
  | @miss _ rest hpoint =>
      rw [hpoint]
      show 1 + (rest.length + 2) ≤ rest.length + 1 + 2 + 0
      omega
  | discard hpoint =>
      have := next_length s.bursts
      rw [hpoint]
      show 1 + (s.bursts.next.length + 2) ≤ 1 + 9
      omega
  | @grant _ q hpoint =>
      have := next_length (s.bursts.granted q)
      rw [hpoint]
      show 1 + ((s.bursts.granted q).next.length + 2) ≤ 1 + 9
      omega

theorem work_le (s : Limiter) (acts : List Action) :
    s.work acts + (s.run acts).point.fuel
      ≤ s.point.fuel + 9 * (s.log acts).length := by
  induction acts generalizing s with
  | nil => exact Nat.le_of_eq (Nat.zero_add _)
  | cons a acts ih =>
      have hstep := fuel_step (s := s) (a := a)
      have hrest := ih (s.step a)
      unfold Limiter.work Limiter.log Limiter.run at *
      rw [Run.cost, Run.log, Run.run_cons, List.length_append]
      omega

/-- The fuel is never more than nine. -/
theorem fuel_reachable
    (h : Run.Reachable Limiter.step newRequestLimiter s) :
    s.point.fuel ≤ 9 := by
  refine h.preserves (P := fun s => s.point.fuel ≤ 9) (by decide) ?_
  intro s a hs
  have hstep := step_spec s a
  generalize s.observe a = events, s.moves a = moved, s.step a = s'
    at hstep ⊢
  cases hstep with
  | send => exact hs
  | cancel => exact hs
  | leave => exact hs
  | idle => exact hs
  | take => exact (by decide : 1 ≤ 9)
  | @miss _ rest hpoint =>
      rw [hpoint] at hs
      have hs : rest.length + 1 + 2 ≤ 9 := hs
      show rest.length + 2 ≤ 9
      omega
  | discard => exact Nat.add_le_add_right (next_length _) 2
  | grant => exact Nat.add_le_add_right (next_length _) 2

/-- The limiter blocks only while nobody waits. -/
theorem moves_of_line (h : s.line q ≠ []) : ∃ a, s.moves a = true := by
  rcases hpoint : s.point with (_ | ⟨y, rest⟩) | ⟨permit, x⟩
  · refine ⟨.select q, ?_⟩
    unfold Limiter.line at h
    rw [hpoint] at h
    simp only [Limiter.moves, hpoint]
    simpa using h
  · exact ⟨.poll, by simp only [Limiter.moves, hpoint]⟩
  · exact ⟨.settle, by simp only [Limiter.moves, hpoint]⟩

-- ======================== cancelled requests

theorem bursts_step : (s.step a).bursts
    = (s.observe a).foldl Bursts.after s.bursts := by
  have hstep := step_spec s a
  generalize s.observe a = events, s.moves a = moved, s.step a = s'
    at hstep ⊢
  cases hstep <;> rfl

/-- The counters are those that the grants alone make. -/
theorem bursts_run (s : Limiter) (acts : List Action) :
    (s.run acts).bursts = (s.log acts).foldl Bursts.after s.bursts := by
  induction acts generalizing s with
  | nil => rfl
  | cons a acts ih =>
      unfold Limiter.log Limiter.run at *
      rw [Run.log, List.foldl_append, Run.run_cons, ih, bursts_step]

/-- What was cancelled when it was taken stays so until it is looked
at. -/
theorem taken_run {acts : List Action} (hpoint : s.point = .taken permit x)
    (hc : permit ∈ s.cancelled) (hacts : Action.settle ∉ acts) :
    s.log acts = [] ∧ (s.run acts).bursts = s.bursts
      ∧ (s.run acts).point = .taken permit x
      ∧ permit ∈ (s.run acts).cancelled := by
  induction acts generalizing s with
  | nil => exact ⟨rfl, rfl, hpoint, hc⟩
  | cons a acts ih =>
      rw [List.mem_cons, not_or] at hacts
      obtain ⟨hne, hacts⟩ := hacts
      obtain ⟨hlog, hbursts, hpoint'⟩ := taken_step (a := a) hpoint
        (Ne.symm hne)
      have hc' : permit ∈ (s.step a).cancelled := by
        have hstep := step_spec s a
        generalize s.observe a = events, s.moves a = moved, s.step a = s'
          at hstep ⊢
        cases hstep with
        | cancel p => exact List.mem_cons_of_mem p hc
        | send => exact hc
        | leave => exact hc
        | idle => exact hc
        | take => exact hc
        | miss => exact hc
        | discard => exact hc
        | grant => exact hc
      obtain ⟨hlog', hbursts', hend⟩ := ih hpoint' hc' hacts
      unfold Limiter.log Limiter.run at *
      rw [Run.log, hlog, Run.run_cons]
      exact ⟨hlog', hbursts'.trans hbursts, hend⟩

-- =============================== the limiter

/-- In every run of the limiter: while a history request waits at every
decision, one is granted after at most four critical ones in a row; the
first recovery request in line is granted after at most nine others, the
first regular one after at most 24, and the limiter does get there; a
request that was cancelled when it was taken is discarded, and only
grants move the counters. -/
theorem overtaking_bounded {s : Limiter}
    (hs : Run.Reachable Limiter.step newRequestLimiter s)
    (acts : List Action) :
    (Attended s acts → (∀ e ∈ s.log acts, e.isHistory = false) →
      (s.log acts).countP Event.isGrant ≤ 4)
    ∧ (∀ permit, permit ∉ s.cancelled → .cancel permit ∉ acts →
      (∀ x, .granted permit x ∉ s.log acts) →
      ((s.line recoveryRequest).head? = some permit →
        (s.log acts).countP Event.isGrant ≤ 9)
      ∧ ((s.line regularRequest).head? = some permit →
        (s.log acts).countP Event.isGrant ≤ 24))
    ∧ ((∃ q, s.line q ≠ []) → ∃ a, s.moves a = true)
    ∧ s.work acts ≤ 9 * ((s.log acts).length + 1)
    ∧ (∀ permit x, s.point = .taken permit x → permit ∈ s.cancelled →
      .settle ∉ acts → s.log acts = []
        ∧ (s.run acts).observe .settle = [.discarded permit x]
        ∧ ((s.run acts).step .settle).bursts = s.bursts)
    ∧ (s.run acts).bursts = (s.log acts).foldl Bursts.after s.bursts := by
  refine ⟨fun hattended hlog => ?_, fun permit hc hacts hgrant => ⟨?_, ?_⟩,
    fun ⟨q, hq⟩ => moves_of_line hq, ?_, fun permit x hpoint hc hacts => ?_,
    bursts_run s acts⟩
  · obtain ⟨m, hm, -⟩ := hattended.spare hlog (spare_any s)
    exact Nat.le_trans (Nat.le_add_right _ m) hm
  · exact fun hfirst => recovery_budget.grants hfirst hc hacts hgrant
  · exact fun hfirst => regular_budget.grants hfirst hc hacts hgrant
  · have hwork := work_le s acts
    have hfuel := fuel_reachable hs
    omega
  · obtain ⟨hlog, hbursts, hpoint', hc'⟩ := taken_run hpoint hc hacts
    obtain ⟨hevents, hstep⟩ := settle_cancelled hpoint' hc'
    exact ⟨hlog, hevents, by rw [hstep]; exact hbursts⟩

/-- Callers of all three channels, and one critical caller that left
before the limiter looked at its permit. -/
theorem overtaking_bounded_callers :
    let callers := newRequestLimiter.run [.send recoveryRequest,
      .send regularRequest, .send criticalRequest]
    let held := callers.run [.poll, .cancel 2]
    ((callers.log [.poll, .settle]).countP Event.isGrant ≤ 4
      ∧ (callers.log [.poll, .settle]).countP Event.isGrant ≤ 9
      ∧ (callers.log [.poll, .settle]).countP Event.isGrant ≤ 24)
    ∧ (∃ a, callers.moves a = true)
    ∧ held.observe .settle = [.discarded 2 criticalRequest]
    ∧ (held.step .settle).bursts = held.bursts := by
  intro callers held
  have hcallers : Run.Reachable Limiter.step newRequestLimiter callers :=
    ⟨_, rfl⟩
  have hheld : Run.Reachable Limiter.step newRequestLimiter held :=
    ⟨[.send recoveryRequest, .send regularRequest, .send criticalRequest,
      .poll, .cancel 2], rfl⟩
  have hattended : Attended callers [.poll, .settle] :=
    @Attended.decide callers [.poll] [.settle] recoveryRequest 0
      (by decide) rfl ⟨⟨⟨_, rfl⟩, List.mem_singleton.mpr rfl⟩, trivial⟩
      (@Attended.settle _ [.settle] []
        ⟨fun ⟨_, h⟩ => (nomatch h), trivial⟩ (.nil _))
  obtain ⟨hburst, hfirst, hmoves, -⟩ :=
    overtaking_bounded hcallers [.poll, .settle]
  obtain ⟨-, -, -, -, hdiscard, -⟩ := overtaking_bounded hheld []
  obtain ⟨-, hevents, hkept⟩ :=
    hdiscard 2 criticalRequest rfl (by decide) (by decide)
  refine ⟨⟨hburst hattended (by decide), ?_, ?_⟩,
    hmoves ⟨recoveryRequest, by decide⟩, hevents, hkept⟩
  · exact (hfirst 0 (by decide) (by decide)
      (fun x => by cases x <;> decide)).1 rfl
  · exact (hfirst 1 (by decide) (by decide)
      (fun x => by cases x <;> decide)).2 rfl

end StreamBrew.DonationAlerts
