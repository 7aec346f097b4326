/-
Histories: logs whose entries owe something to the entries before them.

A log grows at its end. `Justified P` says that each entry stands in the
relation `P` to all that was recorded before it, which is how "only
after" and "only because of" are stated about a whole run. An entry is
judged once, when it is recorded (`justified_snoc`): nothing that is
recorded later takes its justification away.
-/
import Mathlib.Data.List.Basic

namespace History

variable {α : Type*} {P Q : List α → α → Prop} {log : List α} {e : α}

/-- Every entry is justified by what was recorded before it. -/
def Justified (P : List α → α → Prop) (log : List α) : Prop :=
  ∀ before e after, log = before ++ e :: after → P before e

theorem justified_nil : Justified P [] := by
  intro before e after h
  exact absurd h.symm (List.append_ne_nil_of_right_ne_nil _ (by simp))

/-- What a log began with was justified on its own. -/
theorem Justified.left {rest : List α} (h : Justified P (log ++ rest)) :
    Justified P log := by
  intro before e after hlog
  refine h before e (after ++ rest) ?_
  rw [hlog, List.append_assoc, List.cons_append]

theorem justified_snoc :
    Justified P (log ++ [e]) ↔ Justified P log ∧ P log e := by
  constructor
  · exact fun h => ⟨h.left, h log e [] rfl⟩
  · rintro ⟨h, he⟩ before d after hlog
    rcases List.eq_nil_or_concat after with rfl | ⟨after, c, rfl⟩
    · obtain ⟨rfl, hd⟩ := List.append_inj' hlog rfl
      injection hd with hd
      exact hd ▸ he
    · rw [List.concat_eq_append, ← List.cons_append,
        ← List.append_assoc] at hlog
      exact h before d after (List.append_inj' hlog rfl).1

theorem Justified.snoc (h : Justified P log) (he : P log e) :
    Justified P (log ++ [e]) := justified_snoc.mpr ⟨h, he⟩

theorem Justified.imp (h : Justified P log)
    (hPQ : ∀ before e, P before e → Q before e) : Justified Q log :=
  fun before e after hlog => hPQ before e (h before e after hlog)

/-- The justification of one entry. -/
theorem Justified.of_mem (h : Justified P log) (he : e ∈ log) :
    ∃ before after, log = before ++ e :: after ∧ P before e := by
  obtain ⟨before, after, hlog⟩ := List.append_of_mem he
  exact ⟨before, after, hlog, h before e after hlog⟩

end History
