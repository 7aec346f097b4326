/-
Registers that carry a generation, and why a guard on the generation is
a guard on the content.

# The register

A register is empty or holds a generation: an epoch, drawn when the
register was filled, a version counted within the epoch, and the
content. Writing new content advances the version; clearing and filling
again starts a new epoch, whose versions start anywhere.

# The generation rule

A reader keeps a copy of a generation while others go on writing. If no
epoch is drawn twice, two generations of one run with the same epoch and
version are the same generation (`run_generation_unique`): a write that
is guarded by epoch and version finds exactly what its reader saw.
-/
import StreamBrew.Lib.Run
import Mathlib.Data.Set.Basic
import Mathlib.Data.List.Infix

namespace Generation

/-- What a filled register holds. -/
structure Stamped (ε β : Type*) where
  epoch : ε
  version : Nat
  content : β

variable {ε β : Type*} {r r' : Option (Stamped ε β)}

/-- One step of a register, with the epochs it draws. -/
inductive Step : List ε → Option (Stamped ε β) → Option (Stamped ε β) → Prop
  | keep (r : Option (Stamped ε β)) : Step [] r r
  | clear (r : Option (Stamped ε β)) : Step [] r none
  | advance (g : Stamped ε β) (content : β) :
      Step [] (some g) (some ⟨g.epoch, g.version + 1, content⟩)
  | fill (g : Stamped ε β) : Step [g.epoch] none (some g)

/-- The epoch drawn where a register was filled. -/
def drawn : Option (Stamped ε β) → Option (Stamped ε β) → List ε
  | none, some g => [g.epoch]
  | _, _ => []

theorem Step.refl (r : Option (Stamped ε β)) : Step (drawn r r) r r := by
  cases r with
  | none => exact .keep none
  | some g => exact .keep (some g)

/-- A register against its history: the epochs drawn and the
generations held so far. -/
structure Coherent (drawn : List ε) (held : Set (Stamped ε β))
    (r : Option (Stamped ε β)) : Prop where
  drawn : ∀ g ∈ held, g.epoch ∈ drawn
  unique : ∀ g ∈ held, ∀ g' ∈ held, g.epoch = g'.epoch →
    g.version = g'.version → g = g'
  current : ∀ g ∈ r, g ∈ held
  last : ∀ g ∈ r, ∀ g' ∈ held, g'.epoch = g.epoch → g'.version ≤ g.version

namespace Coherent

variable {drawn fresh : List ε} {held : Set (Stamped ε β)}

/-- A history gains a generation that no earlier one clashes with. -/
theorem hold (h : Coherent drawn held r) {g : Stamped ε β}
    (hdrawn : g.epoch ∈ drawn ++ fresh)
    (hnew : ∀ g' ∈ held, g'.epoch = g.epoch → g'.version < g.version) :
    Coherent (drawn ++ fresh) (held ∪ {g' | g' ∈ some g}) (some g) := by
  constructor
  case drawn =>
    intro g' hg'
    rcases hg' with hg' | hg'
    · exact List.mem_append_left _ (h.drawn g' hg')
    · cases hg'
      exact hdrawn
  case unique =>
    intro g₁ h₁ g₂ h₂ he hv
    rcases h₁ with h₁ | h₁ <;> rcases h₂ with h₂ | h₂
    · exact h.unique g₁ h₁ g₂ h₂ he hv
    · cases h₂
      exact absurd hv (Nat.ne_of_lt (hnew g₁ h₁ he))
    · cases h₁
      exact absurd hv.symm (Nat.ne_of_lt (hnew g₂ h₂ he.symm))
    · cases h₁
      cases h₂
      rfl
  case current =>
    intro g' hg'
    exact Or.inr hg'
  case last =>
    intro g' hg' g'' hg'' he
    cases hg'
    rcases hg'' with hg'' | hg''
    · exact Nat.le_of_lt (hnew g'' hg'' he)
    · cases hg''
      exact Nat.le_refl _

/-- Every step keeps the register coherent with its history, as long as
no epoch is drawn twice. -/
theorem step (h : Coherent drawn held r) (hstep : Step fresh r r')
    (hfresh : (drawn ++ fresh).Nodup) :
    Coherent (drawn ++ fresh) (held ∪ {g | g ∈ r'}) r' := by
  cases hstep with
  | keep =>
      have hsame : held ∪ {g | g ∈ r} = held :=
        Set.union_eq_self_of_subset_right h.current
      rw [hsame, List.append_nil]
      exact h
  | clear =>
      have hsame : held ∪ {g | g ∈ (none : Option (Stamped ε β))} = held :=
        Set.union_eq_self_of_subset_right fun g hg => by cases hg
      rw [hsame, List.append_nil]
      exact ⟨h.drawn, h.unique, fun g hg => (by cases hg),
        fun g hg => (by cases hg)⟩
  | advance g content =>
      have hg : g ∈ some g := rfl
      refine h.hold ?_ fun g' hg' he => ?_
      · rw [List.append_nil]
        exact h.drawn g (h.current g hg)
      · exact Nat.lt_succ_of_le (h.last g hg g' hg' he)
  | fill g =>
      refine h.hold (by simp) fun g' hg' he => ?_
      have hdisjoint := (List.nodup_append.mp hfresh).2.2
      exact absurd he (hdisjoint _ (h.drawn g' hg') _ (by simp))

end Coherent

-- ====================================== runs

variable {σ α : Type*} {machine : σ → α → σ}
  {register : σ → Option (Stamped ε β)} {draws : σ → α → List ε}

/-- The generations a register holds along a run. -/
def heldAlong (machine : σ → α → σ) (register : σ → Option (Stamped ε β))
    (s : σ) (acts : List α) : Set (Stamped ε β) :=
  {g | ∃ before, before <+: acts ∧ g ∈ register (Run.run machine s before)}

theorem heldAlong_snoc (s : σ) (acts : List α) (a : α) :
    heldAlong machine register s (acts ++ [a])
      = heldAlong machine register s acts
        ∪ {g | g ∈ register (Run.run machine s (acts ++ [a]))} := by
  ext g
  constructor
  · rintro ⟨before, hbefore, hg⟩
    rcases List.prefix_concat_iff.mp hbefore with rfl | hbefore
    · exact Or.inr hg
    · exact Or.inl ⟨before, hbefore, hg⟩
  · rintro (⟨before, hbefore, hg⟩ | hg)
    · exact ⟨before, hbefore.trans (List.prefix_append acts [a]), hg⟩
    · exact ⟨acts ++ [a], List.prefix_rfl, hg⟩

/-- A register stays coherent along a run that draws no epoch twice. -/
theorem coherent_run
    (hstep : ∀ s a, Step (draws s a) (register s) (register (machine s a)))
    {s : σ} (hs : register s = none) {acts : List α}
    (hdistinct : (Run.log machine draws s acts).Nodup) :
    Coherent (Run.log machine draws s acts)
      (heldAlong machine register s acts)
      (register (Run.run machine s acts)) := by
  induction acts using List.reverseRecOn with
  | nil =>
      have hempty : ∀ g, g ∉ heldAlong machine register s [] := by
        rintro g ⟨before, hbefore, hg⟩
        rw [List.prefix_nil.mp hbefore, Run.run_nil, hs] at hg
        cases hg
      refine ⟨fun g hg => absurd hg (hempty g),
        fun g hg => absurd hg (hempty g), fun g hg => ?_, fun g hg => ?_⟩
      all_goals
        rw [Run.run_nil, hs] at hg
        cases hg
  | append_singleton acts a ih =>
      have hlog : Run.log machine draws s (acts ++ [a])
          = Run.log machine draws s acts
            ++ draws (Run.run machine s acts) a := by
        rw [Run.log_append, Run.log, Run.log, List.append_nil]
      have hrun : Run.run machine s (acts ++ [a])
          = machine (Run.run machine s acts) a := by
        rw [Run.run_append, Run.run_cons, Run.run_nil]
      rw [hlog] at hdistinct ⊢
      rw [heldAlong_snoc, hrun]
      exact (ih (List.nodup_append.mp hdistinct).1).step (hstep _ a)
        hdistinct

/-- The generation rule. -/
theorem run_generation_unique
    (hstep : ∀ s a, Step (draws s a) (register s) (register (machine s a)))
    {s : σ} (hs : register s = none) {acts : List α}
    (hdistinct : (Run.log machine draws s acts).Nodup)
    {g g' : Stamped ε β} (hg : g ∈ heldAlong machine register s acts)
    (hg' : g' ∈ heldAlong machine register s acts)
    (hepoch : g.epoch = g'.epoch) (hversion : g.version = g'.version) :
    g = g' :=
  (coherent_run hstep hs hdistinct).unique g hg g' hg' hepoch hversion

end Generation
