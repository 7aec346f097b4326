/-
Handing out the tickets of a queue one at a time, in order, when a
ticket that was handed out may come back.

# The abstract queue

Tickets are drawn from a linear order, each above all drawn before it.
A ticket waits, is claimed by the one consumer that may hold a ticket,
and either comes back to wait (the consumer vanished before it began)
or leaves for good: served, or dropped at any moment. The only
discipline is at the claim: no other ticket is claimed, and no waiting
ticket is lower.

# What it is for

The claimed ticket is below all waiting ones (`Inv.head`), and tickets
only enter at the top, so once a claimed ticket leaves, everything
that can still be served is above it: `Passed`, which no step undoes.
Hence tickets are served in increasing order however often claims are
handed back and tickets dropped in between.
-/
import Mathlib.Data.Set.Basic
import Mathlib.Order.Basic

namespace TicketQueue

/-- Where a ticket that is still in the queue stands. -/
inductive Stage
  | waiting
  | claimed
  deriving DecidableEq

/-- The tickets in the queue, and all tickets ever drawn. -/
structure Queue (T : Type*) where
  stage : T → Option Stage
  issued : Set T

/-- What may happen to one ticket without a claim. -/
inductive Move : Option Stage → Option Stage → Prop
  | stay (s) : Move s s
  | handBack : Move (some .claimed) (some .waiting)
  | leave (s) : Move s none

variable {T : Type*} [LinearOrder T]

/-- One step: any number of tickets move, one is claimed, or one is
drawn. -/
inductive Step (q q' : Queue T) : Prop
  | move (hmove : ∀ t, Move (q.stage t) (q'.stage t))
      (hissued : q.issued ⊆ q'.issued)
  | claim (t : T) (hwaiting : q.stage t = some .waiting)
      (hfree : ∀ s, q.stage s ≠ some .claimed)
      (hleast : ∀ s, q.stage s = some .waiting → t ≤ s)
      (hstage : ∀ s, q'.stage s = if s = t then some .claimed
        else q.stage s)
      (hissued : q.issued ⊆ q'.issued)
  | issue (t : T) (hfresh : ∀ s ∈ q.issued, s < t)
      (hstage : ∀ s, q'.stage s = if s = t then some .waiting
        else q.stage s)
      (hissued : q.issued ⊆ q'.issued) (hmem : t ∈ q'.issued)

/-- The queue discipline. -/
structure Inv (q : Queue T) : Prop where
  known : ∀ t, q.stage t ≠ none → t ∈ q.issued
  unique : ∀ s t, q.stage s = some .claimed →
    q.stage t = some .claimed → s = t
  head : ∀ s t, q.stage s = some .claimed →
    q.stage t = some .waiting → s < t

/-- Everything still in the queue lies above `t`. -/
def Passed (t : T) (q : Queue T) : Prop :=
  t ∈ q.issued ∧ ∀ s, q.stage s ≠ none → t < s

/-- Nothing still in the queue lies below `t`: what holds from the claim
of a ticket on, also when it comes back. -/
def Reached (t : T) (q : Queue T) : Prop :=
  t ∈ q.issued ∧ ∀ s, q.stage s ≠ none → t ≤ s

-- ================================ one ticket

/-- A ticket that is claimed after a move was claimed before it. -/
theorem Move.claimed_inv {s : Option Stage}
    (h : Move s (some .claimed)) : s = some .claimed := by
  cases h
  rfl

/-- A ticket that waits after a move was in the queue before it. -/
theorem Move.ne_none {s s' : Option Stage} (h : Move s s')
    (hs' : s' ≠ none) : s ≠ none := by
  cases h with
  | stay => exact hs'
  | handBack => exact Option.some_ne_none _
  | leave => exact absurd rfl hs'

-- ================================= the steps

/-- Every step keeps the discipline. -/
theorem Inv.step {q q' : Queue T} (hi : Inv q) (h : Step q q') :
    Inv q' := by
  cases h with
  | move hmove hissued =>
      refine ⟨fun t ht => hissued (hi.known t ((hmove t).ne_none ht)),
        fun s t hs ht => ?_, fun s t hs ht => ?_⟩
      · have hs₀ := (hs ▸ hmove s).claimed_inv
        have ht₀ := (ht ▸ hmove t).claimed_inv
        exact hi.unique s t hs₀ ht₀
      · have hs₀ := (hs ▸ hmove s).claimed_inv
        cases ht₀ : q.stage t with
        | none =>
            have hm := hmove t
            rw [ht₀, ht] at hm
            cases hm
        | some st =>
            cases st with
            | waiting => exact hi.head s t hs₀ ht₀
            | claimed =>
                -- a claimed ticket that came back is the one claimed
                have hst := hi.unique s t hs₀ ht₀
                subst hst
                rw [hs] at ht
                cases ht
  | claim k hwaiting hfree hleast hstage hissued =>
      refine ⟨fun t ht => ?_, fun s t hs ht => ?_, fun s t hs ht => ?_⟩
      · rw [hstage] at ht
        split at ht
        case isTrue h =>
          subst h
          exact hissued (hi.known t (by rw [hwaiting]; simp))
        case isFalse => exact hissued (hi.known t ht)
      · rw [hstage] at hs ht
        split at hs
        case isTrue hsk =>
          split at ht
          case isTrue htk => rw [hsk, htk]
          case isFalse => exact absurd ht (hfree t)
        case isFalse => exact absurd hs (hfree s)
      · rw [hstage] at hs ht
        split at hs
        case isTrue hsk =>
          split at ht
          case isTrue => cases ht
          case isFalse htk =>
            subst hsk
            exact lt_of_le_of_ne (hleast t ht) fun e => htk e.symm
        case isFalse => exact absurd hs (hfree s)
  | issue k hfresh hstage hissued hmem =>
      have hbelow : ∀ t, q.stage t ≠ none → t < k :=
        fun t ht => hfresh t (hi.known t ht)
      refine ⟨fun t ht => ?_, fun s t hs ht => ?_, fun s t hs ht => ?_⟩
      · rw [hstage] at ht
        split at ht
        case isTrue h => exact h ▸ hmem
        case isFalse => exact hissued (hi.known t ht)
      · rw [hstage] at hs ht
        split at hs
        case isTrue => cases hs
        case isFalse =>
          split at ht
          case isTrue => cases ht
          case isFalse => exact hi.unique s t hs ht
      · rw [hstage] at hs ht
        split at hs
        case isTrue => cases hs
        case isFalse =>
          split at ht
          case isTrue htk =>
            exact htk ▸ hbelow s (by rw [hs]; simp)
          case isFalse => exact hi.head s t hs ht

theorem Step.issued_subset {q q' : Queue T} (h : Step q q') :
    q.issued ⊆ q'.issued := by
  cases h with
  | move _ hissued => exact hissued
  | claim _ _ _ _ _ hissued => exact hissued
  | issue _ _ _ hissued => exact hissued

/-- Tickets enter the queue at the top only. -/
theorem Step.entered {q q' : Queue T} {s : T} (h : Step q q')
    (hs : q'.stage s ≠ none) :
    q.stage s ≠ none ∨ ∀ t ∈ q.issued, t < s := by
  cases h with
  | move hmove => exact Or.inl ((hmove s).ne_none hs)
  | claim t hwaiting _ _ hstage =>
      left
      rw [hstage] at hs
      split at hs
      case isTrue h =>
        rw [h, hwaiting]
        simp
      case isFalse => exact hs
  | issue t hfresh hstage =>
      rw [hstage] at hs
      split at hs
      case isTrue h =>
        right
        rw [h]
        exact hfresh
      case isFalse => exact Or.inl hs

/-- A passed ticket stays passed. -/
theorem Passed.step {q q' : Queue T} {k : T} (hk : Passed k q)
    (h : Step q q') : Passed k q' := by
  obtain ⟨hmem, habove⟩ := hk
  refine ⟨h.issued_subset hmem, fun s hs => ?_⟩
  rcases h.entered hs with hs | htop
  · exact habove s hs
  · exact htop k hmem

/-- When the claimed ticket leaves, everything left is above it. -/
theorem passed_of_leave {q q' : Queue T} {k : T} (hi : Inv q)
    (hk : q.stage k = some .claimed) (h : Step q q')
    (hgone : q'.stage k = none) : Passed k q' := by
  have hmem : k ∈ q.issued := hi.known k (by rw [hk]; simp)
  cases h with
  | move hmove hissued =>
      refine ⟨hissued hmem, fun s hs => ?_⟩
      cases hs₀ : q.stage s with
      | none => exact absurd hs₀ ((hmove s).ne_none hs)
      | some st =>
          cases st with
          | waiting => exact hi.head k s hk hs₀
          | claimed =>
              have := hi.unique k s hk hs₀
              subst this
              exact absurd hgone hs
  | claim t _ hfree => exact absurd hk (hfree k)
  | issue t hfresh hstage hissued _ =>
      rw [hstage] at hgone
      split at hgone
      case isTrue => cases hgone
      case isFalse => rw [hk] at hgone; cases hgone

theorem reached_of_claimed {q : Queue T} {k : T} (hi : Inv q)
    (hk : q.stage k = some .claimed) : Reached k q := by
  refine ⟨hi.known k (by rw [hk]; simp), fun s hs => ?_⟩
  cases hst : q.stage s with
  | none => exact absurd hst hs
  | some st =>
      cases st with
      | waiting => exact le_of_lt (hi.head k s hk hst)
      | claimed => exact le_of_eq (hi.unique k s hk hst)

/-- A reached ticket stays reached. -/
theorem Reached.step {q q' : Queue T} {k : T} (hk : Reached k q)
    (h : Step q q') : Reached k q' := by
  obtain ⟨hmem, habove⟩ := hk
  refine ⟨h.issued_subset hmem, fun s hs => ?_⟩
  rcases h.entered hs with hs | htop
  · exact habove s hs
  · exact le_of_lt (htop k hmem)

/-- The next ticket served lies above every passed one. -/
theorem Passed.lt {q : Queue T} {k s : T} (hk : Passed k q)
    (hs : q.stage s = some .claimed) : k < s :=
  hk.2 s (by rw [hs]; simp)

end TicketQueue
