/-
Pages of a list: stretches of one length, that follow one another.

A list is walked by asking for its pages by number. `Walk` is what such
a walk shows of the rows that it goes through: the pages agree on how
many rows and pages there are, the items of all pages, one after the
other, are what the rows read as, and past the end the last page is
given again. Requests are a walk that answer with the page they show
(`walk_answer`): a stretch of one list, and what it reads as.

A list may also grow while it is walked. Rows that come in move those
behind them on, so these are read later or once more, and none that was
there from the start is passed over (`Walked`).
-/
import Mathlib.Data.List.Basic
import Mathlib.Data.PNat.Basic

namespace Pages

variable {α ι : Type*}

/-- How many pages a list of some length has. -/
def count (total size : Nat) : Nat := (total + size - 1) / size

/-- A page, counted from zero. -/
def page (rows : List α) (size k : Nat) : List α :=
  (rows.drop (k * size)).take size

/-- The page that is shown where one is asked for, counted from one. -/
def shownPage (total size requested : Nat) : Nat :=
  min requested (max (count total size) 1)

theorem take_add_page (rows : List α) (size k : Nat) :
    rows.take (k * size) ++ page rows size k = rows.take ((k + 1) * size) := by
  rw [Nat.succ_mul, page, List.take_add]

theorem flatMap_page (rows : List α) (size n : Nat) :
    (List.range n).flatMap (page rows size) = rows.take (n * size) := by
  induction n with
  | zero => rw [Nat.zero_mul, List.take_zero]; rfl
  | succ n ih =>
      rw [List.range_succ, List.flatMap_append, ih, List.flatMap_singleton,
        take_add_page]

/-- The pages do not end before the list does. -/
theorem le_count_mul {size : Nat} (hsize : 0 < size) (total : Nat) :
    total ≤ count total size * size := by
  have hdiv := Nat.div_add_mod (total + size - 1) size
  have hmod := Nat.mod_lt (total + size - 1) hsize
  have hcomm := Nat.mul_comm size ((total + size - 1) / size)
  unfold count
  omega

/-- A list is its pages, one after the other. -/
theorem flatMap_count {size : Nat} (hsize : 0 < size) (rows : List α) :
    (List.range (count rows.length size)).flatMap (page rows size) = rows := by
  rw [flatMap_page]
  exact List.take_of_length_le (le_count_mul hsize _)

theorem mapM_append {f : α → Option ι} {l l' : List α} {r r' : List ι}
    (h : l.mapM f = some r) (h' : l'.mapM f = some r') :
    (l ++ l').mapM f = some (r ++ r') := by
  rw [List.mapM_append, h, h']
  rfl

theorem mapM_flatMap {f : α → Option ι} {rows : Nat → List α}
    {items : Nat → List ι} {n : Nat}
    (h : ∀ k < n, (rows k).mapM f = some (items k)) :
    ((List.range n).flatMap rows).mapM f
      = some ((List.range n).flatMap items) := by
  induction n with
  | zero => rfl
  | succ n ih =>
      rw [List.range_succ, List.flatMap_append, List.flatMap_append,
        List.flatMap_singleton, List.flatMap_singleton]
      exact mapM_append (ih fun k hk => h k (by omega)) (h n (by omega))

-- ===================================== walks

/-- What is shown of a page. -/
structure Shown (ι : Type*) where
  items : List ι
  page : Nat
  total : Nat
  totalPages : Nat

/-- What the pages of a listing together are. -/
structure Walk (read : α → Option ι) (rows : List α) (size : ℕ+)
    (request : ℕ+ → Option (Shown ι)) : Prop where
  /-- Every page says how many rows there are, and how many pages. -/
  total : ∀ k s, request k = some s →
    s.total = rows.length ∧ s.totalPages = count rows.length size
  /-- The page that was asked for, or the last one. -/
  page : ∀ k s, request k = some s →
    s.page = shownPage rows.length size k ∧ s.items.length ≤ size
  /-- All pages together list what all rows read as. -/
  lists : ∀ s : Nat → Shown ι,
    (∀ k < count rows.length size, request k.succPNat = some (s k)) →
    rows.mapM read = some ((List.range (count rows.length size)).flatMap
      fun k => (s k).items)
  /-- Past the end, the last page is given again. -/
  beyond : ∀ last : ℕ+, (last : Nat) = max (count rows.length size) 1 →
    ∀ k, last ≤ k → request k = request last
  /-- Where there are no rows, there is an empty first page. -/
  empty : rows = [] → ∀ k s, request k = some s →
    s.items = [] ∧ s.page = 1

theorem length_of_mapM {f : α → Option ι} {l : List α} {r : List ι}
    (h : l.mapM f = some r) : r.length = l.length := by
  induction l generalizing r with
  | nil => cases h; rfl
  | cons a l ih =>
      rw [List.mapM_cons] at h
      cases ha : f a with
      | none => rw [ha] at h; cases h
      | some b =>
          cases hl : l.mapM f with
          | none => rw [ha, hl] at h; cases h
          | some s =>
              rw [ha, hl] at h
              cases h
              rw [List.length_cons, List.length_cons, ih hl]

/-- The answer to a request, where something else than the rows may fail
as well. -/
def answer (read : α → Option ι) (rows : List α) (size : ℕ+)
    (check : Nat → Bool) (k : ℕ+) : Option (Shown ι) :=
  let shown := shownPage rows.length size k
  match check shown with
  | true =>
      ((page rows size (shown - 1)).mapM read).map fun items =>
        ⟨items, shown, rows.length, count rows.length size⟩
  | false => none

section Answer

variable {read : α → Option ι} {rows : List α} {size : ℕ+}
  {check : Nat → Bool}

theorem answer_eq_some {k : ℕ+} {s : Shown ι}
    (h : answer read rows size check k = some s) :
    (page rows size (shownPage rows.length size k - 1)).mapM read
        = some s.items
      ∧ s.total = rows.length ∧ s.totalPages = count rows.length size
      ∧ s.page = shownPage rows.length size k := by
  simp only [answer] at h
  split at h
  case h_1 =>
    obtain ⟨items, hitems, rfl⟩ := Option.map_eq_some_iff.mp h
    exact ⟨hitems, rfl, rfl, rfl⟩
  case h_2 => cases h

/-- The pages of a listing are a walk. -/
theorem walk_answer : Walk read rows size (answer read rows size check) where
  total k s h := by
    obtain ⟨-, htotal, hpages, -⟩ := answer_eq_some h
    exact ⟨htotal, hpages⟩
  page k s h := by
    obtain ⟨hitems, -, -, hpage⟩ := answer_eq_some h
    refine ⟨hpage, ?_⟩
    rw [length_of_mapM hitems, Pages.page, List.length_take]
    exact Nat.min_le_left _ _
  lists s hs := by
    have hpages : ∀ k < count rows.length size,
        (Pages.page rows size k).mapM read = some (s k).items := by
      intro k hk
      have hk' := (answer_eq_some (hs k hk)).1
      have hshown : shownPage rows.length size k.succPNat = k + 1 := by
        rw [shownPage, Nat.succPNat_coe]
        omega
      rw [hshown, Nat.add_sub_cancel] at hk'
      exact hk'
    have hall := mapM_flatMap hpages
    rw [flatMap_count size.pos] at hall
    exact hall
  beyond last hlast k hk := by
    have hk : (last : Nat) ≤ k := hk
    have hshown : shownPage rows.length size k
        = shownPage rows.length size last := by
      rw [shownPage, shownPage]
      omega
    rw [answer, answer, hshown]
  empty hrows k s h := by
    obtain ⟨hitems, -, -, hpage⟩ := answer_eq_some h
    have hcount : count 0 (size : Nat) = 0 :=
      Nat.div_eq_of_lt (by have := size.pos; omega)
    rw [hrows] at hitems
    rw [hrows, shownPage, List.length_nil, hcount] at hpage
    have hpos := k.pos
    refine ⟨?_, by omega⟩
    rw [Pages.page, List.drop_nil, List.take_nil] at hitems
    exact (Option.some.inj hitems).symm

theorem mapM_isSome {l : List α} (h : ∀ a ∈ l, (read a).isSome = true) :
    (l.mapM read).isSome = true := by
  induction l with
  | nil => rfl
  | cons a l ih =>
      obtain ⟨b, hb⟩ := Option.isSome_iff_exists.mp (h a List.mem_cons_self)
      obtain ⟨r, hr⟩ := Option.isSome_iff_exists.mp
        (ih fun a ha => h a (List.mem_cons_of_mem _ ha))
      rw [List.mapM_cons, hb, hr]
      rfl

theorem mem_of_mem_page {l : List α} {n k : Nat} {a : α}
    (h : a ∈ page l n k) : a ∈ l :=
  List.mem_of_mem_drop (List.mem_of_mem_take h)

/-- Where nothing is refused, every request is answered. -/
theorem answer_isSome (hread : ∀ a ∈ rows, (read a).isSome = true)
    (hcheck : ∀ shown, check shown = true) (k : ℕ+) :
    (answer read rows size check k).isSome = true := by
  simp only [answer, hcheck, Option.isSome_map]
  exact mapM_isSome fun a ha => hread a (mem_of_mem_page ha)

end Answer

-- =========================== lists that grow

/-- A list after some of it was read, page by page: what comes at or
after `next` has still to come. -/
structure Walked (began read rows : List α) (next : Nat) : Prop where
  /-- Nothing that was there has gone. -/
  grown : began.Sublist rows
  known : ∀ a ∈ read, a ∈ rows
  covered : ∀ a ∈ began, a ∈ read ∨ a ∈ rows.drop next
  /-- Where nothing came in, it was read in order. -/
  still : rows = began → read = rows.take next

section Walked

variable {began read rows rows' : List α} {size next : Nat}

theorem Walked.start (rows : List α) : Walked rows [] rows 0 :=
  ⟨.refl rows, fun _ ha => absurd ha List.not_mem_nil,
    fun _ ha => .inr ha, fun _ => rfl⟩

/-- Rows come in, anywhere. -/
theorem Walked.grow (h : Walked began read rows next)
    (hs : rows.Sublist rows') : Walked began read rows' next := by
  refine ⟨h.grown.trans hs, fun a ha => hs.subset (h.known a ha),
    fun a ha => ?_, fun hsame => ?_⟩
  · exact (h.covered a ha).imp_right fun hr => (hs.drop next).subset hr
  · -- A list that has grown and is what it was has not grown.
    have hlen : rows'.length ≤ rows.length := by
      rw [hsame]
      exact h.grown.length_le
    have hrows : rows = rows' := hs.eq_of_length_le hlen
    rw [← hrows]
    exact h.still (hrows.trans hsame)

/-- The next page is read. -/
theorem Walked.page {k : Nat} (h : Walked began read rows (k * size)) :
    Walked began (read ++ Pages.page rows size k) rows ((k + 1) * size) := by
  refine ⟨h.grown, fun a ha => ?_, fun a ha => ?_, fun hsame => ?_⟩
  · rcases List.mem_append.mp ha with hr | hp
    · exact h.known a hr
    · exact mem_of_mem_page hp
  · rcases h.covered a ha with hr | hd
    · exact .inl (List.mem_append_left _ hr)
    · have hsplit : rows.drop (k * size)
          = Pages.page rows size k ++ rows.drop ((k + 1) * size) := by
        rw [Pages.page, Nat.succ_mul, ← List.drop_drop,
          List.take_append_drop]
      rw [hsplit] at hd
      exact (List.mem_append.mp hd).imp_left (List.mem_append_right _)
  · rw [h.still hsame, take_add_page]

/-- Past the end of the list, all that was there is read. -/
theorem Walked.all (h : Walked began read rows next)
    (hend : rows.length ≤ next) : ∀ a ∈ began, a ∈ read := by
  intro a ha
  refine (h.covered a ha).resolve_right fun hd => ?_
  rw [List.drop_eq_nil_of_le hend] at hd
  exact absurd hd List.not_mem_nil

end Walked

end Pages
