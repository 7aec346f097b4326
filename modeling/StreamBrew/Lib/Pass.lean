/-
Passes over a list that stop at the first error.

A handler takes a state and an item and leaves a state; it may fail. A
pass hands it the items in order until it fails, and what the handler
did before stays done. `pass_ok` and `pass_error` are the rules for
invariants of a pass: they speak of the items that were handled, so an
invariant may say what is owed to each of them.
-/
import Mathlib.Data.List.Basic

namespace Pass

variable {σ α β ε : Type*}

/-- Items are handled in order, up to the first error. -/
def pass (handle : σ → α → σ × Option ε) : σ → List α → σ × Option ε
  | s, [] => (s, none)
  | s, x :: rest =>
      match handle s x with
      | (s, none) => pass handle s rest
      | (s, some e) => (s, some e)

variable {handle : σ → α → σ × Option ε}

@[simp] theorem pass_nil (s : σ) : pass handle s [] = (s, none) := rfl

theorem pass_cons_ok {s t : σ} {x : α} (h : handle s x = (t, none))
    (rest : List α) : pass handle s (x :: rest) = pass handle t rest := by
  simp only [pass, h]

theorem pass_cons_error {s t : σ} {x : α} {e : ε}
    (h : handle s x = (t, some e)) (rest : List α) :
    pass handle s (x :: rest) = (t, some e) := by
  simp only [pass, h]

-- ================================ invariants

section Invariants

variable {I : List α → σ → Prop} {s t : σ} {xs : List α}

/-- What holds at the start and is kept by each item that is handled
without an error holds after a pass without an error. -/
theorem pass_ok (h0 : I [] s)
    (hstep : ∀ done x rest u v, xs = done ++ x :: rest → I done u →
      handle u x = (v, none) → I (done ++ [x]) v)
    (h : pass handle s xs = (t, none)) : I xs t := by
  suffices H : ∀ rest done u, xs = done ++ rest → I done u →
      pass handle u rest = (t, none) → I xs t from H xs [] s rfl h0 h
  intro rest
  induction rest with
  | nil =>
      rintro done u hxs hI hpass
      cases hpass
      rw [hxs, List.append_nil]
      exact hI
  | cons x rest ih =>
      rintro done u hxs hI hpass
      cases hx : handle u x with
      | mk v error =>
          cases error with
          | none =>
              rw [pass_cons_ok hx] at hpass
              refine ih (done ++ [x]) v ?_ (hstep done x rest u v hxs hI hx)
                hpass
              rw [hxs, List.append_assoc, List.singleton_append]
          | some e =>
              rw [pass_cons_error hx] at hpass
              cases hpass

/-- A pass with an error has handled the items before the one that
failed. -/
theorem pass_error {e : ε} (h0 : I [] s)
    (hstep : ∀ done x rest u v, xs = done ++ x :: rest → I done u →
      handle u x = (v, none) → I (done ++ [x]) v)
    (h : pass handle s xs = (t, some e)) :
    ∃ done x rest u, xs = done ++ x :: rest ∧ I done u
      ∧ handle u x = (t, some e) := by
  suffices H : ∀ rest done u, xs = done ++ rest → I done u →
      pass handle u rest = (t, some e) →
      ∃ done x rest u, xs = done ++ x :: rest ∧ I done u
        ∧ handle u x = (t, some e) from H xs [] s rfl h0 h
  intro rest
  induction rest with
  | nil =>
      rintro done u - - hpass
      cases hpass
  | cons x rest ih =>
      rintro done u hxs hI hpass
      cases hx : handle u x with
      | mk v error =>
          cases error with
          | none =>
              rw [pass_cons_ok hx] at hpass
              refine ih (done ++ [x]) v ?_ (hstep done x rest u v hxs hI hx)
                hpass
              rw [hxs, List.append_assoc, List.singleton_append]
          | some e' =>
              rw [pass_cons_error hx] at hpass
              exact ⟨done, x, rest, u, hxs, hI, hx.trans hpass⟩

end Invariants

-- ================================ comparison

theorem pass_map (f : β → α) (s : σ) (xs : List β) :
    pass handle s (xs.map f) = pass (fun s x => handle s (f x)) s xs := by
  induction xs generalizing s with
  | nil => rfl
  | cons x rest ih =>
      simp only [List.map_cons, pass, ih]

/-- Handlers that do the same to each item in the states a pass can be
in. -/
theorem pass_congr {handle' : σ → α → σ × Option ε} {K : σ → Prop}
    {xs : List α} (hK : ∀ x ∈ xs, ∀ s t, K s → handle s x = (t, none) → K t)
    (h : ∀ x ∈ xs, ∀ s, K s → handle s x = handle' s x) {s : σ} (hs : K s) :
    pass handle s xs = pass handle' s xs := by
  induction xs generalizing s with
  | nil => rfl
  | cons x rest ih =>
      have hx := h x List.mem_cons_self s hs
      cases ht : handle s x with
      | mk t error =>
          cases error with
          | none =>
              rw [pass_cons_ok ht, pass_cons_ok (hx ▸ ht)]
              exact ih (fun y hy => hK y (List.mem_cons_of_mem x hy))
                (fun y hy => h y (List.mem_cons_of_mem x hy))
                (hK x List.mem_cons_self s t hs ht)
          | some e => rw [pass_cons_error ht, pass_cons_error (hx ▸ ht)]

/-- A handler that passes over some items, and hands the others on. -/
theorem pass_filterMap {handle : σ → β → σ × Option ε} (f : α → Option β)
    (s : σ) (xs : List α) :
    pass (fun s x => (f x).elim (s, none) (handle s)) s xs
      = pass handle s (xs.filterMap f) := by
  induction xs generalizing s with
  | nil => rfl
  | cons x rest ih =>
      cases hf : f x with
      | none =>
          rw [List.filterMap_cons_none hf,
            pass_cons_ok (t := s) (by simp only [hf, Option.elim]), ih]
      | some y =>
          rw [List.filterMap_cons_some hf]
          cases hy : handle s y with
          | mk t error =>
              cases error with
              | none =>
                  rw [pass_cons_ok hy,
                    pass_cons_ok (by simpa only [hf, Option.elim] using hy),
                    ih]
              | some e =>
                  rw [pass_cons_error hy,
                    pass_cons_error
                      (by simpa only [hf, Option.elim] using hy)]

/-- Items that can all be read. -/
theorem filterMap_of_mapM {f : α → Option β} {xs : List α} {ys : List β}
    (h : xs.mapM f = some ys) :
    ys = xs.filterMap f ∧ ∀ x ∈ xs, (f x).isSome := by
  induction xs generalizing ys with
  | nil =>
      cases h
      exact ⟨rfl, by simp⟩
  | cons x rest ih =>
      rw [List.mapM_cons, Option.bind_eq_bind, Option.bind_eq_some_iff] at h
      obtain ⟨y, hy, h⟩ := h
      rw [Option.bind_eq_bind, Option.bind_eq_some_iff] at h
      obtain ⟨zs, hzs, h⟩ := h
      cases h
      obtain ⟨hz, hsome⟩ := ih hzs
      refine ⟨by rw [List.filterMap_cons_some hy, ← hz], ?_⟩
      rintro z (- | ⟨-, hz⟩)
      · rw [hy]
        rfl
      · exact hsome z hz

theorem mapM_isSome_iff {f : α → Option β} {xs : List α} :
    (xs.mapM f).isSome ↔ ∀ x ∈ xs, (f x).isSome := by
  induction xs with
  | nil => simp
  | cons x rest ih =>
      rw [List.forall_mem_cons, ← ih, List.mapM_cons]
      cases f x <;> cases rest.mapM f <;> simp

end Pass
