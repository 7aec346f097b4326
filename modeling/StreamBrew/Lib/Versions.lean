/-
Row versions: what a statement writes, as a table of its own.

A statement does not change a table in place; it writes versions of
some rows, and a table with these versions in place of its own is the
table overlaid with them. Overlays compose (`overlay_assoc`), so what a
transaction has written so far is one table too, and what it sees is
the committed table overlaid with it.

`modify?` is an UPDATE whose assignments can fail, as those with checks
and triggers do: it gives the new versions of the rows it selects, or
the error of one of them.
-/
import StreamBrew.Lib.Table

namespace Relational

-- ================================== outcomes

theorem map_eq_ok {ε α β : Type*} {x : Except ε α} {f : α → β} {b : β}
    (h : x.map f = .ok b) : ∃ a, x = .ok a ∧ f a = b := by
  cases x with
  | error e => cases h
  | ok a => cases h; exact ⟨a, rfl, rfl⟩

theorem map_eq_error {ε α β : Type*} {x : Except ε α} {f : α → β} {e : ε}
    (h : x.map f = .error e) : x = .error e := by
  cases x with
  | error e' => cases h; rfl
  | ok a => cases h

namespace Table

variable {α κ : Type*} {key : α → κ}

-- =================================== one row

/-- A table of one row. -/
def row (key : α → κ) (a : α) : Table key := ⟨[a], by simp⟩

@[simp] theorem mem_row {a b : α} : b ∈ row key a ↔ b = a := by
  simp [mem_def, row]

-- ================================ selections

/-- The rows that meet a condition. -/
def select (t : Table key) (p : α → Prop) [DecidablePred p] :
    Table key := t.delete fun a => ¬ p a

@[simp] theorem mem_select {t : Table key} {p : α → Prop}
    [DecidablePred p] {a : α} : a ∈ t.select p ↔ a ∈ t ∧ p a := by
  simp [select, mem_delete]

-- ================================== overlays

section Overlay

variable [DecidableEq κ]

/-- The table with other versions of some rows, and with their new
rows. -/
def overlay (t w : Table key) : Table key where
  rows := (t.rows.filter fun a => key a ∉ w.rows.map key) ++ w.rows
  nodup := by
    rw [List.map_append]
    refine List.Nodup.append (t.nodup.sublist (List.filter_sublist.map key))
      w.nodup ?_
    intro k hk hw
    obtain ⟨a, ha, rfl⟩ := List.mem_map.mp hk
    have hnot := (List.mem_filter.mp ha).2
    rw [decide_eq_true_eq] at hnot
    exact hnot hw

theorem mem_overlay {t w : Table key} {a : α} :
    a ∈ t.overlay w ↔ a ∈ w ∨ (a ∈ t ∧ ∀ b ∈ w, key b ≠ key a) := by
  simp only [mem_def, overlay, List.mem_append, List.mem_filter,
    decide_eq_true_eq, List.mem_map, not_exists, not_and]
  tauto

/-- A lookup in the overlay prefers the new rows. -/
theorem get?_overlay {t w : Table key} (k : κ) :
    (t.overlay w).get? k = (w.get? k).or (t.get? k) := by
  cases hw : w.get? k with
  | some a =>
      rw [Option.some_or, get?_eq_some]
      exact ⟨mem_overlay.mpr (Or.inl (mem_of_get? hw)), key_of_get? hw⟩
  | none =>
      have hnone := get?_eq_none.mp hw
      rw [Option.none_or]
      cases ht : t.get? k with
      | none =>
          rw [get?_eq_none]
          intro a ha
          rcases mem_overlay.mp ha with ha | ⟨ha, -⟩
          · exact hnone a ha
          · exact get?_eq_none.mp ht a ha
      | some a =>
          have hk := key_of_get? ht
          rw [get?_eq_some]
          refine ⟨mem_overlay.mpr (Or.inr ⟨mem_of_get? ht, ?_⟩), hk⟩
          intro b hb
          rw [hk]
          exact hnone b hb

omit [DecidableEq κ] in
@[ext] theorem ext_rows {t w : Table key} (h : t.rows = w.rows) : t = w := by
  cases t
  cases w
  cases h
  rfl

@[simp] theorem overlay_empty (t : Table key) : t.overlay empty = t := by
  ext1
  simp [overlay, empty]

@[simp] theorem empty_overlay (t : Table key) :
    (empty : Table key).overlay t = t := by
  ext1
  simp [overlay, empty]

/-- Two overlays one after the other are the overlay of their overlay. -/
theorem overlay_assoc (t u w : Table key) :
    (t.overlay u).overlay w = t.overlay (u.overlay w) := by
  ext1
  simp only [overlay, List.filter_append, List.filter_filter,
    List.append_assoc]
  congr 1
  refine List.filter_congr fun a _ => ?_
  by_cases hw : key a ∈ w.rows.map key
  · simp only [hw, not_true_eq_false, decide_false, Bool.false_and,
      List.map_append, List.mem_append, or_true]
  · simp only [hw, not_false_eq_true, decide_true, Bool.true_and,
      List.map_append, List.mem_append, or_false]
    refine decide_eq_decide.mpr (not_congr ?_)
    constructor
    · intro hu
      obtain ⟨b, hb, hk⟩ := List.mem_map.mp hu
      refine List.mem_map.mpr ⟨b, List.mem_filter.mpr ⟨hb, ?_⟩, hk⟩
      rw [hk, decide_eq_true_eq]
      exact hw
    · intro hu
      obtain ⟨b, hb, hk⟩ := List.mem_map.mp hu
      exact List.mem_map.mpr ⟨b, (List.mem_filter.mp hb).1, hk⟩

/-- A row is still there after an overlay, or another version of it
is. -/
theorem exists_overlay {t w : Table key} {a : α} (ha : a ∈ t) :
    ∃ b ∈ t.overlay w, key b = key a ∧ (b = a ∨ b ∈ w) := by
  by_cases h : ∃ b ∈ w, key b = key a
  · obtain ⟨b, hb, hk⟩ := h
    exact ⟨b, mem_overlay.mpr (Or.inl hb), hk, Or.inr hb⟩
  · have hnone : ∀ b ∈ w, key b ≠ key a := fun b hb hk => h ⟨b, hb, hk⟩
    exact ⟨a, mem_overlay.mpr (Or.inr ⟨ha, hnone⟩), rfl, Or.inl rfl⟩

/-- No row of one table has a version in the other. -/
def Apart (t w : Table key) : Prop := ∀ a ∈ t.rows, ∀ b ∈ w.rows, key a ≠ key b

instance (t w : Table key) : Decidable (t.Apart w) :=
  inferInstanceAs (Decidable (∀ a ∈ t.rows, ∀ b ∈ w.rows, _))

omit [DecidableEq κ] in
theorem Apart.ne {t w : Table key} (h : t.Apart w) {a b : α}
    (ha : a ∈ t) (hb : b ∈ w) : key a ≠ key b := h a ha b hb

omit [DecidableEq κ] in
theorem Apart.symm {t w : Table key} (h : t.Apart w) : w.Apart t :=
  fun a ha b hb => (h b hb a ha).symm

omit [DecidableEq κ] in
theorem apart_empty (t : Table key) : t.Apart empty :=
  fun _ _ _ hb => by cases hb

theorem Apart.overlay {t u w : Table key} (hu : t.Apart u)
    (hw : t.Apart w) : t.Apart (u.overlay w) := by
  intro a ha b hb
  rcases mem_overlay.mp hb with hb | ⟨hb, -⟩
  · exact hw a ha b hb
  · exact hu a ha b hb

end Overlay

-- ===================== updates that can fail

section Modify

variable {ε : Type*}

/-- The assignments applied to each of the rows; the first error ends
the statement. -/
def assign (f : α → Except ε α) : List α → Except ε (List α)
  | [] => .ok []
  | a :: l =>
      match f a with
      | .error e => .error e
      | .ok b => (assign f l).map (b :: ·)

theorem assign_ok {f : α → Except ε α} {l l' : List α}
    (h : assign f l = .ok l') :
    List.Forall₂ (fun a b => f a = .ok b) l l' := by
  induction l generalizing l' with
  | nil =>
      cases h
      exact List.Forall₂.nil
  | cons a l ih =>
      unfold assign at h
      split at h
      case h_1 => cases h
      case h_2 b hb =>
        cases hl : assign f l with
        | error e => rw [hl] at h; cases h
        | ok bs =>
            rw [hl] at h
            cases h
            exact List.Forall₂.cons hb (ih hl)

theorem assign_error {f : α → Except ε α} {l : List α} {e : ε}
    (h : assign f l = .error e) : ∃ a ∈ l, f a = .error e := by
  induction l with
  | nil => cases h
  | cons a l ih =>
      unfold assign at h
      split at h
      case h_1 e' he =>
        cases h
        exact ⟨a, List.mem_cons_self, he⟩
      case h_2 b hb =>
        cases hl : assign f l with
        | ok bs => rw [hl] at h; cases h
        | error e' =>
            rw [hl] at h
            cases h
            obtain ⟨c, hc, hfc⟩ := ih hl
            exact ⟨c, List.mem_cons_of_mem a hc, hfc⟩

private theorem map_key_assign {f : α → Except ε α}
    (hf : ∀ a b, f a = .ok b → key b = key a) {l l' : List α}
    (h : List.Forall₂ (fun a b => f a = .ok b) l l') :
    l'.map key = l.map key := by
  induction h with
  | nil => rfl
  | cons hab _ ih => rw [List.map_cons, List.map_cons, hf _ _ hab, ih]

/-- The rows that an assignment gives are those of the rows it got. -/
private theorem assigned_of_mem {f : α → Except ε α} {l l' : List α}
    (h : List.Forall₂ (fun a b => f a = .ok b) l l') :
    (∀ b ∈ l', ∃ a ∈ l, f a = .ok b) ∧ ∀ a ∈ l, ∃ b ∈ l', f a = .ok b := by
  induction h with
  | nil => simp
  | @cons a b l l' hab _ ih =>
      refine ⟨fun b' hb' => ?_, fun a' ha' => ?_⟩
      · rcases List.mem_cons.mp hb' with rfl | hb'
        · exact ⟨a, List.mem_cons_self, hab⟩
        · obtain ⟨c, hc, hfc⟩ := ih.1 b' hb'
          exact ⟨c, List.mem_cons_of_mem a hc, hfc⟩
      · rcases List.mem_cons.mp ha' with rfl | ha'
        · exact ⟨b, List.mem_cons_self, hab⟩
        · obtain ⟨c, hc, hfc⟩ := ih.2 a' ha'
          exact ⟨c, List.mem_cons_of_mem b hc, hfc⟩

/-- The versions that `UPDATE .. SET f WHERE p` writes; the assignments
leave the key alone. -/
def modify? (t : Table key) (p : α → Prop) [DecidablePred p]
    (f : α → Except ε α) (hf : ∀ a b, f a = .ok b → key b = key a) :
    Except ε (Table key) :=
  match h : assign f (t.select p).rows with
  | .error e => .error e
  | .ok rows => .ok
      { rows
        nodup := by
          rw [map_key_assign hf (assign_ok h)]
          exact (t.select p).nodup }

variable {t w : Table key} {p : α → Prop} [DecidablePred p]
  {f : α → Except ε α} {hf : ∀ a b, f a = .ok b → key b = key a}

private theorem modify?_rows (h : t.modify? p f hf = .ok w) :
    List.Forall₂ (fun a b => f a = .ok b) (t.select p).rows w.rows := by
  unfold modify? at h
  split at h
  case h_1 => cases h
  case h_2 rows hrows =>
    cases h
    exact assign_ok hrows

/-- Each version is that of a selected row. -/
theorem of_mem_modify? (h : t.modify? p f hf = .ok w) {b : α}
    (hb : b ∈ w) : ∃ a ∈ t, p a ∧ f a = .ok b := by
  obtain ⟨a, ha, hab⟩ := (assigned_of_mem (modify?_rows h)).1 b hb
  obtain ⟨hat, hpa⟩ := mem_select.mp ha
  exact ⟨a, hat, hpa, hab⟩

/-- Each selected row has a version. -/
theorem mem_modify? (h : t.modify? p f hf = .ok w) {a : α}
    (ha : a ∈ t) (hp : p a) : ∃ b ∈ w, f a = .ok b :=
  (assigned_of_mem (modify?_rows h)).2 a (mem_select.mpr ⟨ha, hp⟩)

theorem modify?_error {e : ε} (h : t.modify? p f hf = .error e) :
    ∃ a ∈ t, p a ∧ f a = .error e := by
  unfold modify? at h
  split at h
  case h_1 e' he =>
    cases h
    obtain ⟨a, ha, hfa⟩ := assign_error he
    obtain ⟨hat, hpa⟩ := mem_select.mp ha
    exact ⟨a, hat, hpa, hfa⟩
  case h_2 => cases h

end Modify

end Table

end Relational
