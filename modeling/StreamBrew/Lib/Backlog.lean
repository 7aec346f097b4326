/-
Logs that grow at their head, and readers that go through them backwards.

A log has its newest item first; items have keys, and those that are
named are distinct. A reader holds a stretch of the log (`Stretch`): what
it has read, with the items that came since before it and those it has
yet to read after it. It goes on below the key of its last item, which
new items do not move. A mark is a key; it covers a property that all
items at or below it have (`Covers`). A reader may set its mark to the
first item it has read once it has come to the end of the log, or to a
mark that covers already.
-/
import Mathlib.Data.List.Basic

namespace Backlog

variable {α κ : Type*}

/-- No two items share a key that is named. -/
def Distinct (key : α → κ) (named : κ → Prop) (log : List α) : Prop :=
  log.Pairwise fun x y => named (key x) → key y ≠ key x

/-- What was read is a stretch of the log, with this still below it. -/
def Stretch (read rest log : List α) : Prop :=
  ∃ newer, log = newer ++ (read ++ rest)

variable [DecidableEq κ]

/-- The items at or below the newest one of the key. -/
def atOrBelow (key : α → κ) (k : κ) (log : List α) : List α :=
  log.dropWhile fun x => key x ≠ k

/-- The items below it. -/
def below (key : α → κ) (k : κ) (log : List α) : List α :=
  (atOrBelow key k log).tail

/-- All items at or below the mark have the property. -/
def Covers (key : α → κ) (P : α → Prop) (k : κ) (log : List α) : Prop :=
  ∀ x ∈ atOrBelow key k log, P x

variable {key : α → κ} {named : κ → Prop} {P Q : α → Prop} {k : κ}
  {log newer read rest : List α} {x : α}

-- ====================================== keys

/-- Newer items of other keys do not matter. -/
theorem atOrBelow_append (h : ∀ y ∈ newer, key y ≠ k) (log : List α) :
    atOrBelow key k (newer ++ log) = atOrBelow key k log := by
  induction newer with
  | nil => rfl
  | cons y newer ih =>
      have hy : atOrBelow key k (y :: (newer ++ log))
          = atOrBelow key k (newer ++ log) :=
        List.dropWhile_cons_of_pos
          (decide_eq_true (h y List.mem_cons_self))
      rw [List.cons_append, hy]
      exact ih fun z hz => h z (List.mem_cons_of_mem y hz)

theorem atOrBelow_cons (h : key x = k) (rest : List α) :
    atOrBelow key k (x :: rest) = x :: rest :=
  List.dropWhile_cons_of_neg (by simpa using h)

omit [DecidableEq κ] in
/-- An item of a distinct log splits it at its key. -/
theorem Distinct.key_ne (h : Distinct key named (newer ++ x :: rest))
    (hx : named (key x)) : ∀ y ∈ newer, key y ≠ key x := by
  intro y hy he
  have hpair := (List.pairwise_append.mp h).2.2 y hy x List.mem_cons_self
  exact hpair (he.symm ▸ hx) he.symm

theorem Distinct.atOrBelow (h : Distinct key named (newer ++ x :: rest))
    (hx : named (key x)) :
    atOrBelow key (key x) (newer ++ x :: rest) = x :: rest := by
  rw [atOrBelow_append (h.key_ne hx), atOrBelow_cons rfl]

omit [DecidableEq κ] in
/-- A new item whose key is no other's keeps the log distinct. -/
theorem Distinct.cons (h : Distinct key named log)
    (hx : named (key x) → ∀ y ∈ log, key y ≠ key x) :
    Distinct key named (x :: log) :=
  List.pairwise_cons.mpr ⟨fun y hy hn => hx hn y hy, h⟩

-- ===================================== marks

theorem Covers.imp (h : Covers key P k log) (hPQ : ∀ x, P x → Q x) :
    Covers key Q k log :=
  fun x hx => hPQ x (h x hx)

/-- A mark covers no item that is newer than it. -/
theorem Covers.cons (h : Covers key P k log) (hx : key x ≠ k) :
    Covers key P k (x :: log) := by
  intro y hy
  have hsame : atOrBelow key k (x :: log) = atOrBelow key k log :=
    List.dropWhile_cons_of_pos (decide_eq_true hx)
  exact h y (hsame ▸ hy)

-- =================================== readers

/-- A reader that has yet to begin. -/
theorem Stretch.nil (log : List α) : Stretch [] log log := ⟨[], rfl⟩

/-- What is published does not move a reader. -/
theorem Stretch.cons (h : Stretch read rest log) (x : α) :
    Stretch read rest (x :: log) := by
  obtain ⟨newer, rfl⟩ := h
  exact ⟨x :: newer, rfl⟩

/-- A reader goes on where it stopped. -/
theorem Stretch.below (hd : Distinct key named log)
    (h : Stretch (read ++ [x]) rest log) (hx : named (key x)) :
    below key (key x) log = rest := by
  obtain ⟨newer, rfl⟩ := h
  have hsplit : newer ++ (read ++ [x] ++ rest)
      = (newer ++ read) ++ x :: rest := by
    simp only [List.append_assoc, List.singleton_append]
  rw [hsplit] at hd ⊢
  unfold Backlog.below
  rw [hd.atOrBelow hx, List.tail_cons]

omit [DecidableEq κ] in
theorem Stretch.mem (h : Stretch read rest log) (hx : x ∈ read) :
    x ∈ log := by
  obtain ⟨newer, rfl⟩ := h
  exact List.mem_append_right _ (List.mem_append_left _ hx)

omit [DecidableEq κ] in
/-- A reader takes more of what is below. -/
theorem Stretch.move {more rest' : List α} (h : Stretch read rest log)
    (hrest : rest = more ++ rest') : Stretch (read ++ more) rest' log := by
  obtain ⟨newer, rfl⟩ := h
  exact ⟨newer, by rw [hrest, List.append_assoc read]⟩

omit [DecidableEq κ] in
/-- A reader takes the next items. -/
theorem Stretch.take (h : Stretch read rest log) (n : Nat) :
    Stretch (read ++ rest.take n) (rest.drop n) log :=
  h.move (List.take_append_drop n rest).symm

/-- The mark of a reader covers what it has read and all that is below
it. -/
theorem Stretch.covers (hd : Distinct key named log)
    (h : Stretch (x :: read) rest log) (hx : named (key x))
    (hread : ∀ y ∈ x :: read, P y) (hrest : ∀ y ∈ rest, P y) :
    Covers key P (key x) log := by
  obtain ⟨newer, rfl⟩ := h
  intro y hy
  rw [List.cons_append] at hd hy
  rw [hd.atOrBelow hx] at hy
  rcases List.mem_append.mp (List.cons_append ▸ hy) with hy | hy
  · exact hread y hy
  · exact hrest y hy

/-- A reader that meets a mark: the items from there on are covered. -/
theorem Stretch.meets (hd : Distinct key named log)
    (h : Stretch read (x :: rest) log) (hx : named (key x))
    (hcovers : Covers key P (key x) log) : ∀ y ∈ x :: rest, P y := by
  obtain ⟨newer, rfl⟩ := h
  intro y hy
  refine hcovers y ?_
  rw [← List.append_assoc] at hd ⊢
  rw [hd.atOrBelow hx]
  exact hy

end Backlog
