/-
Regular expressions as a program's matcher runs them: alternatives and
repetitions have priorities, and the first match is the match.

# The matcher

`Pattern.ways` gives every way to match a prefix of a list, in order
of priority: the captures, and what is left of the list. A repetition
goes on as long as it can before it stops, and never goes on over an
empty match. `findAll` collects the leftmost matches that do not
overlap; `fullMatch?` is the match of a pattern anchored at both ends.
-/
import Mathlib.Data.List.Basic

namespace Regex

/-- A pattern over characters of any kind. -/
inductive Pattern (α : Type)
  | empty
  | char (p : α → Bool)
  | seq (r q : Pattern α)
  | alt (r q : Pattern α)
  | star (r : Pattern α)
  | group (n : Nat) (r : Pattern α)

/-- What the groups have matched. -/
abbrev Captures (α : Type) := List (Nat × List α)

variable {α : Type}

/-- As many steps as possible first; each has to go forward. -/
def iterate (step : List α → List (Captures α × List α)) :
    Nat → List α → List (Captures α × List α)
  | 0, s => [([], s)]
  | n + 1, s =>
      (((step s).filter fun m => m.2.length < s.length).flatMap fun m =>
        (iterate step n m.2).map fun m' => (m.1 ++ m'.1, m'.2)) ++ [([], s)]

namespace Pattern

/-- The matches of a prefix, the preferred one first. -/
def ways : Pattern α → List α → List (Captures α × List α)
  | empty, s => [([], s)]
  | char _, [] => []
  | char p, c :: s => if p c then [([], s)] else []
  | seq r q, s => (r.ways s).flatMap fun m =>
      (q.ways m.2).map fun m' => (m.1 ++ m'.1, m'.2)
  | alt r q, s => r.ways s ++ q.ways s
  | star r, s => iterate r.ways s.length s
  | group n r, s => (r.ways s).map fun m =>
      ((n, s.take (s.length - m.2.length)) :: m.1, m.2)

/-- `r?` -/
def opt (r : Pattern α) : Pattern α := alt r empty

/-- `r+` -/
def plus (r : Pattern α) : Pattern α := seq r (star r)

/-- `r{n}` -/
def times (r : Pattern α) : Nat → Pattern α
  | 0 => empty
  | n + 1 => seq r (times r n)

/-- Some characters in a row, each up to `same`. -/
def literal (same : α → α → Bool) (text : List α) : Pattern α :=
  text.foldr (fun c r => seq (char (same c)) r) empty

/-- `^r$`: what the groups match, where the pattern matches all. -/
def fullMatch? (r : Pattern α) (s : List α) : Option (Captures α) :=
  ((r.ways s).find? fun m => m.2.isEmpty).map Prod.fst

/-- `^r`: what the groups match in the preferred match at the front. -/
def frontMatch? (r : Pattern α) (s : List α) : Option (Captures α) :=
  ((r.ways s).head?).map Prod.fst

/-- The preferred match at the front that is not empty, and the rest. -/
def front? (r : Pattern α) (s : List α) : Option (List α × List α) :=
  (((r.ways s).head?).filter fun m => m.2.length < s.length).map fun m =>
    (s.take (s.length - m.2.length), m.2)

/-- The matches from the left, at most so many. -/
def findUpTo (r : Pattern α) : Nat → List α → List (List α)
  | 0, _ | _, [] => []
  | n + 1, c :: s =>
      match r.front? (c :: s) with
      | some (found, rest) => found :: findUpTo r n rest
      | none => findUpTo r n s

/-- All matches from the left that do not overlap, for a pattern that
does not match the empty text. -/
def findAll (r : Pattern α) (s : List α) : List (List α) :=
  findUpTo r s.length s

end Pattern

/-- A pattern matches all of a list, with what its groups match. -/
inductive Matches {α : Type} :
    Pattern α → List α → Captures α → Prop
  | empty : Matches .empty [] []
  | char {p : α → Bool} {c : α} (h : p c = true) : Matches (.char p) [c] []
  | seq {r q : Pattern α} {s t : List α} {cs ds : Captures α}
      (hr : Matches r s cs) (hq : Matches q t ds) :
      Matches (.seq r q) (s ++ t) (cs ++ ds)
  | left {r q : Pattern α} {s : List α} {cs : Captures α}
      (h : Matches r s cs) : Matches (.alt r q) s cs
  | right {r q : Pattern α} {s : List α} {cs : Captures α}
      (h : Matches q s cs) : Matches (.alt r q) s cs
  | done {r : Pattern α} : Matches (.star r) [] []
  | more {r : Pattern α} {s t : List α} {cs ds : Captures α} (hs : s ≠ [])
      (hr : Matches r s cs) (hstar : Matches (.star r) t ds) :
      Matches (.star r) (s ++ t) (cs ++ ds)
  | group {n : Nat} {r : Pattern α} {s : List α} {cs : Captures α}
      (h : Matches r s cs) : Matches (.group n r) s ((n, s) :: cs)

/-- What a group has matched; nothing where it has not taken part. -/
def Captures.get (captures : Captures α) (n : Nat) : List α :=
  ((captures.find? fun c => c.1 = n).map Prod.snd).getD []

-- ===================================== facts

namespace Pattern

/-- So many characters were taken. -/
theorem ways_times {p : α → Bool} {n : Nat} {s : List α}
    {m : Captures α × List α} (h : m ∈ (times (char p) n).ways s) :
    ∃ front, front ++ m.2 = s ∧ front.length = n ∧ front.all p := by
  induction n generalizing s m with
  | zero =>
      rw [List.mem_singleton.mp h]
      exact ⟨[], rfl, rfl, rfl⟩
  | succ n ih =>
      obtain ⟨first, hfirst, hm⟩ := List.mem_flatMap.mp h
      obtain ⟨later, hlater, rfl⟩ := List.mem_map.mp hm
      cases s with
      | nil => cases hfirst
      | cons c s =>
          unfold ways at hfirst
          split at hfirst
          case isFalse => cases hfirst
          case isTrue hc =>
            rw [List.mem_singleton.mp hfirst] at hlater
            obtain ⟨front, hfront, hlength, hall⟩ := ih hlater
            refine ⟨c :: front, ?_, ?_, ?_⟩
            · rw [List.cons_append, hfront]
            · rw [List.length_cons, hlength]
            · rw [List.all_cons, hc, hall]
              rfl

/-- So many characters, each of a class. -/
theorem fullMatch?_times {p : α → Bool} {n : Nat} {s : List α}
    (h : ((times (char p) n).fullMatch? s).isSome) :
    s.length = n ∧ s.all p := by
  obtain ⟨captures, hc⟩ := Option.isSome_iff_exists.mp h
  obtain ⟨m, hm, -⟩ := Option.map_eq_some_iff.mp hc
  obtain ⟨front, hfront, hlength, hall⟩ :=
    ways_times (List.mem_of_find?_eq_some hm)
  have hnil : m.2 = [] := by simpa using List.find?_some hm
  rw [hnil, List.append_nil] at hfront
  rw [← hfront]
  exact ⟨hlength, hall⟩

/-- The matcher finds what the pattern matches. -/
theorem matches_of_mem_ways {r : Pattern α} {s : List α}
    {m : Captures α × List α} (h : m ∈ r.ways s) :
    ∃ front, s = front ++ m.2 ∧ Matches r front m.1 := by
  induction r generalizing s m with
  | empty =>
      rw [List.mem_singleton.mp h]
      exact ⟨[], rfl, .empty⟩
  | char p =>
      cases s with
      | nil => cases h
      | cons c s =>
          unfold ways at h
          split at h
          case isFalse => cases h
          case isTrue hc =>
            rw [List.mem_singleton.mp h]
            exact ⟨[c], rfl, .char hc⟩
  | seq r q ihr ihq =>
      obtain ⟨first, hfirst, hm⟩ := List.mem_flatMap.mp h
      obtain ⟨later, hlater, rfl⟩ := List.mem_map.mp hm
      obtain ⟨front, rfl, hr⟩ := ihr hfirst
      obtain ⟨back, hback, hq⟩ := ihq hlater
      refine ⟨front ++ back, ?_, .seq hr hq⟩
      rw [List.append_assoc, ← hback]
  | alt r q ihr ihq =>
      rcases List.mem_append.mp h with h | h
      · obtain ⟨front, hs, hr⟩ := ihr h
        exact ⟨front, hs, .left hr⟩
      · obtain ⟨front, hs, hq⟩ := ihq h
        exact ⟨front, hs, .right hq⟩
  | star r ih =>
      -- the fuel only bounds how often the step is repeated
      have hiterate : ∀ n s m, m ∈ iterate r.ways n s →
          ∃ front, s = front ++ m.2 ∧ Matches (.star r) front m.1 := by
        intro n
        induction n with
        | zero =>
            intro s m h
            rw [List.mem_singleton.mp h]
            exact ⟨[], rfl, .done⟩
        | succ n ihn =>
            intro s m h
            rcases List.mem_append.mp h with h | h
            · obtain ⟨first, hfirst, hm⟩ := List.mem_flatMap.mp h
              obtain ⟨later, hlater, rfl⟩ := List.mem_map.mp hm
              obtain ⟨hmem, hshorter⟩ := List.mem_filter.mp hfirst
              obtain ⟨front, rfl, hr⟩ := ih hmem
              obtain ⟨back, hback, hstar⟩ := ihn _ _ hlater
              refine ⟨front ++ back, ?_, .more ?_ hr hstar⟩
              · rw [List.append_assoc, ← hback]
              · rintro rfl
                simp at hshorter
            · rw [List.mem_singleton.mp h]
              exact ⟨[], rfl, .done⟩
      exact hiterate _ s m h
  | group n r ih =>
      obtain ⟨inner, hinner, rfl⟩ := List.mem_map.mp h
      obtain ⟨front, rfl, hr⟩ := ih hinner
      refine ⟨front, rfl, ?_⟩
      have htake : (front ++ inner.2).take
          ((front ++ inner.2).length - inner.2.length) = front := by simp
      simp only [htake]
      exact .group hr

/-- The matcher finds all that the pattern matches. -/
theorem mem_ways_of_matches {r : Pattern α} {front : List α}
    {cs : Captures α} (h : Matches r front cs) (rest : List α) :
    (cs, rest) ∈ r.ways (front ++ rest) := by
  -- of a repetition, so many steps are enough
  have hboth : (∀ rest, (cs, rest) ∈ r.ways (front ++ rest))
      ∧ ∀ q, r = .star q → ∀ n, front.length ≤ n → ∀ rest,
        (cs, rest) ∈ iterate q.ways n (front ++ rest) := by
    clear rest
    induction h with
    | empty => exact ⟨fun rest => List.mem_singleton.mpr rfl, nofun⟩
    | char hc =>
        refine ⟨fun rest => ?_, nofun⟩
        simp only [List.cons_append, List.nil_append, ways, hc, if_true]
        exact List.mem_singleton.mpr rfl
    | seq hr hq ihr ihq =>
        refine ⟨fun rest => ?_, nofun⟩
        rw [List.append_assoc]
        refine List.mem_flatMap.mpr ⟨_, ihr.1 _, ?_⟩
        exact List.mem_map.mpr ⟨_, ihq.1 rest, rfl⟩
    | left hr ih =>
        exact ⟨fun rest => List.mem_append_left _ (ih.1 rest), nofun⟩
    | right hq ih =>
        exact ⟨fun rest => List.mem_append_right _ (ih.1 rest), nofun⟩
    | @done q =>
        have hall : ∀ n rest, (([], rest) : Captures α × List α)
            ∈ iterate q.ways n ([] ++ rest) := by
          intro n rest
          cases n with
          | zero => exact List.mem_singleton.mpr rfl
          | succ n => exact List.mem_append_right _ (List.mem_singleton.mpr rfl)
        refine ⟨fun rest => hall _ rest, fun q hq n _ rest => ?_⟩
        cases hq
        exact hall n rest
    | @more q s t cs ds hs hr hstar ihr ihstar =>
        have hall : ∀ n, (s ++ t).length ≤ n → ∀ rest,
            (cs ++ ds, rest) ∈ iterate q.ways n (s ++ t ++ rest) := by
          intro n hn rest
          have hpos := List.length_pos_of_ne_nil hs
          rw [List.length_append] at hn
          obtain ⟨k, rfl⟩ : ∃ k, n = k + 1 :=
            ⟨n - 1, (Nat.sub_add_cancel (by omega)).symm⟩
          refine List.mem_append_left _ (List.mem_flatMap.mpr
            ⟨(cs, t ++ rest), List.mem_filter.mpr ⟨?_, ?_⟩,
              List.mem_map.mpr
                ⟨_, ihstar.2 q rfl k (by omega) rest, rfl⟩⟩)
          · rw [List.append_assoc]
            exact ihr.1 _
          · simp only [List.length_append, decide_eq_true_eq]
            omega
        refine ⟨fun rest => hall _ ?_ rest, fun q' hq n hn rest => ?_⟩
        · simp only [List.length_append]
          omega
        · cases hq
          exact hall n hn rest
    | @group n q s cs hr ih =>
        refine ⟨fun rest => List.mem_map.mpr ⟨_, ih.1 rest, ?_⟩, nofun⟩
        simp
  exact hboth.1 rest

theorem matches_star_char {p : α → Bool} {s : List α} {cs : Captures α}
    (h : Matches (.star (.char p)) s cs) : s.all p = true ∧ cs = [] := by
  generalize hr : Pattern.star (Pattern.char p) = r at h
  induction h with
  | done => exact ⟨rfl, rfl⟩
  | more hs hr' hstar ih ihstar =>
      cases hr
      obtain ⟨hall, rfl⟩ := ihstar rfl
      cases hr' with
      | char hc => exact ⟨by rw [List.all_append, hall]; simp [hc], rfl⟩
  | empty | char | seq | left | right | group => cases hr

theorem star_char_matches {p : α → Bool} {s : List α}
    (h : s.all p = true) : Matches (.star (.char p)) s [] := by
  induction s with
  | nil => exact .done
  | cons c s ih =>
      rw [List.all_cons, Bool.and_eq_true] at h
      exact .more (List.cons_ne_nil c []) (.char h.1) (ih h.2)

/-- One character of a class or more. -/
theorem matches_plus_char {p : α → Bool} {s : List α} {cs : Captures α} :
    Matches (plus (.char p)) s cs ↔ s ≠ [] ∧ s.all p = true ∧ cs = [] := by
  constructor
  · intro h
    cases h with
    | seq hr hq =>
        obtain ⟨hall, rfl⟩ := matches_star_char hq
        cases hr with
        | char hc =>
            refine ⟨List.cons_ne_nil _ _, ?_, rfl⟩
            rw [List.cons_append, List.all_cons, hc]
            exact hall
  · rintro ⟨hne, hall, rfl⟩
    cases s with
    | nil => exact absurd rfl hne
    | cons c s =>
        rw [List.all_cons, Bool.and_eq_true] at hall
        exact .seq (.char hall.1) (star_char_matches hall.2)

theorem fullMatch?_matches {r : Pattern α} {s : List α} {cs : Captures α}
    (h : r.fullMatch? s = some cs) : Matches r s cs := by
  obtain ⟨m, hm, rfl⟩ := Option.map_eq_some_iff.mp h
  obtain ⟨front, hs, hr⟩ :=
    matches_of_mem_ways (List.mem_of_find?_eq_some hm)
  have hnil : m.2 = [] := by simpa using List.find?_some hm
  rw [hnil, List.append_nil] at hs
  rwa [hs]

theorem fullMatch?_eq_none {r : Pattern α} {s : List α}
    (h : r.fullMatch? s = none) (cs : Captures α) : ¬ Matches r s cs := by
  intro hr
  have hmem := mem_ways_of_matches hr []
  rw [List.append_nil] at hmem
  have hnone := List.find?_eq_none.mp (Option.map_eq_none_iff.mp h) _ hmem
  exact hnone rfl

/-- Some characters in a row match themselves alone. -/
theorem matches_literal {same : α → α → Bool}
    (hsame : ∀ a b, same a b = true → a = b) {text s : List α}
    {cs : Captures α} (h : Matches (literal same text) s cs) :
    s = text ∧ cs = [] := by
  induction text generalizing s cs with
  | nil =>
      cases h
      exact ⟨rfl, rfl⟩
  | cons c text ih =>
      cases h with
      | seq hr hq =>
          obtain ⟨rfl, rfl⟩ := ih hq
          cases hr with
          | char hc =>
              rw [hsame _ _ hc]
              exact ⟨rfl, rfl⟩

/-- A part that matches in one way is followed by the other part. -/
theorem ways_seq {r q : Pattern α} {s t : List α} {cs : Captures α}
    (h : r.ways s = [(cs, t)]) :
    (seq r q).ways s = (q.ways t).map fun m => (cs ++ m.1, m.2) := by
  show ((r.ways s).flatMap fun m =>
    (q.ways m.2).map fun m' => (m.1 ++ m'.1, m'.2)) = _
  rw [h, List.flatMap_singleton]

/-- A repetition prefers to go on as long as it can. -/
theorem head?_star_char (p : α → Bool) (s : List α) :
    ((star (char p)).ways s).head? = some ([], s.dropWhile p) := by
  have hiterate : ∀ n s, s.length ≤ n →
      (iterate (char p).ways n s).head? = some ([], s.dropWhile p) := by
    intro n
    induction n with
    | zero =>
        intro s hs
        rw [List.length_eq_zero_iff.mp (Nat.le_zero.mp hs)]
        rfl
    | succ n ih =>
        intro s hs
        cases s with
        | nil => rfl
        | cons c s =>
            unfold iterate
            cases hc : p c with
            | false =>
                rw [List.dropWhile_cons_of_neg (by simp [hc])]
                simp [ways, hc]
            | true =>
                have hrest := ih s (Nat.le_of_succ_le_succ hs)
                rw [List.dropWhile_cons_of_pos hc]
                simp [ways, hc, hrest]
  exact hiterate s.length s (Nat.le_refl _)

theorem head?_plus_char (p : α → Bool) (c : α) (s : List α) :
    ((plus (char p)).ways (c :: s)).head?
      = if p c then some ([], s.dropWhile p) else none := by
  unfold plus
  split
  case isTrue hc =>
    have hone : (char p).ways (c :: s) = [([], s)] := by simp [ways, hc]
    rw [ways_seq hone, List.head?_map, head?_star_char]
    rfl
  case isFalse hc => simp [ways, hc]

end Pattern

end Regex
