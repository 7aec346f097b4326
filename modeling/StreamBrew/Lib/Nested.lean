/-
Nested maps: named fields, each of them a value or again a map.

A map is kept as the list of its fields in the order in which their names
first came up. What it says is what it answers along each path (`read`),
and two maps are the same when they answer the same along all of them
(`Same`). On maps whose names are distinct at each level, sameness is
sameness of the parts (`same_leaf`, `same_group`).

`store` is how a map is filled in place: it walks down a path, makes the
maps that are missing, and sets one field. Filling a map at the end of a
path that was opened level by level (`wrap`) is appending to its last
level (`store_wrap`).
-/
import Mathlib.Data.List.Basic

namespace Nested

/-- Keys with values, or with fields of their own, in order. -/
inductive Fields (κ α : Type*)
  | nil
  | leaf (key : κ) (value : α) (rest : Fields κ α)
  | group (key : κ) (children rest : Fields κ α)
  deriving DecidableEq, Repr

namespace Fields

variable {κ α : Type*}

/-- The keys of the outermost level. -/
def keys : Fields κ α → List κ
  | nil => []
  | leaf key _ rest => key :: rest.keys
  | group key _ rest => key :: rest.keys

/-- No name stands twice at one level. -/
def Distinct : Fields κ α → Prop
  | nil => True
  | leaf key _ rest => key ∉ rest.keys ∧ rest.Distinct
  | group key children rest =>
      key ∉ rest.keys ∧ children.Distinct ∧ rest.Distinct

/-- Fields behind each other, without regard to equal keys. -/
def append : Fields κ α → Fields κ α → Fields κ α
  | nil, g => g
  | leaf key value rest, g => leaf key value (rest.append g)
  | group key children rest, g => group key children (rest.append g)

instance : Append (Fields κ α) := ⟨append⟩

@[simp] theorem nil_append (g : Fields κ α) : nil ++ g = g := rfl

@[simp] theorem leaf_append (key : κ) (value : α) (rest g : Fields κ α) :
    leaf key value rest ++ g = leaf key value (rest ++ g) := rfl

@[simp] theorem group_append (key : κ) (children rest g : Fields κ α) :
    group key children rest ++ g = group key children (rest ++ g) := rfl

@[simp] theorem append_nil (f : Fields κ α) : f ++ nil = f := by
  induction f with
  | nil => rfl
  | leaf key value rest ih => rw [leaf_append, ih]
  | group key children rest _ ih => rw [group_append, ih]

theorem append_assoc (f g h : Fields κ α) : f ++ g ++ h = f ++ (g ++ h) := by
  induction f with
  | nil => rfl
  | leaf key value rest ih => simp only [leaf_append, ih]
  | group key children rest _ ih => simp only [group_append, ih]

@[simp] theorem keys_append (f g : Fields κ α) :
    (f ++ g).keys = f.keys ++ g.keys := by
  induction f with
  | nil => rfl
  | leaf key value rest ih =>
      simp only [leaf_append, keys, ih, List.cons_append]
  | group key children rest _ ih =>
      simp only [group_append, keys, ih, List.cons_append]

theorem Distinct.append_right {f g : Fields κ α} (h : (f ++ g).Distinct) :
    g.Distinct := by
  induction f with
  | nil => exact h
  | leaf key value rest ih => exact ih h.2
  | group key children rest _ ih => exact ih h.2.2

theorem Distinct.append_left {f g : Fields κ α} (h : (f ++ g).Distinct) :
    f.Distinct := by
  have hkeys {k : κ} {f : Fields κ α} (hk : k ∉ (f ++ g).keys) : k ∉ f.keys :=
    fun hmem => hk (keys_append f g ▸ List.mem_append_left _ hmem)
  induction f with
  | nil => exact trivial
  | leaf key value rest ih => exact ⟨hkeys h.1, ih h.2⟩
  | group key children rest _ ih => exact ⟨hkeys h.1, h.2.1, ih h.2.2⟩

theorem Distinct.disjoint {f g : Fields κ α} (h : (f ++ g).Distinct) :
    ∀ key ∈ g.keys, key ∉ f.keys := by
  induction f with
  | nil => exact fun _ _ => List.not_mem_nil
  | leaf key value rest ih =>
      intro k hk hmem
      rcases List.mem_cons.mp hmem with rfl | hmem
      · exact h.1 (keys_append rest g ▸ List.mem_append_right _ hk)
      · exact ih h.2 k hk hmem
  | group key children rest _ ih =>
      intro k hk hmem
      rcases List.mem_cons.mp hmem with rfl | hmem
      · exact h.1 (keys_append rest g ▸ List.mem_append_right _ hk)
      · exact ih h.2.2 k hk hmem

-- ===================================== paths

section Read

variable [DecidableEq κ]

/-- What stands at the end of a path: nothing, a map, or a value. -/
def read : Fields κ α → List κ → Option (Option α)
  | _, [] => some none
  | nil, _ :: _ => none
  | leaf k value rest, key :: path =>
      if k = key then (if path = [] then some (some value) else none)
      else rest.read (key :: path)
  | group k children rest, key :: path =>
      if k = key then children.read path else rest.read (key :: path)

/-- One map, in whatever order it was filled. -/
def Same (f g : Fields κ α) : Prop := ∀ path, f.read path = g.read path

@[simp] theorem read_nil (f : Fields κ α) : f.read [] = some none := by
  cases f <;> rfl

theorem read_leaf (key : κ) (value : α) (rest : Fields κ α) :
    (leaf key value rest).read [key] = some (some value) := by
  rw [read, if_pos rfl, if_pos rfl]

theorem read_group (key : κ) (children rest : Fields κ α) (path : List κ) :
    (group key children rest).read (key :: path) = children.read path :=
  if_pos rfl

theorem read_of_not_mem {f : Fields κ α} {key : κ} (h : key ∉ f.keys)
    (path : List κ) : f.read (key :: path) = none := by
  induction f with
  | nil => rfl
  | leaf k value rest ih =>
      obtain ⟨hne, hrest⟩ := not_or.mp (mt List.mem_cons.mpr h)
      rw [read, if_neg (Ne.symm hne), ih hrest]
  | group k children rest _ ih =>
      obtain ⟨hne, hrest⟩ := not_or.mp (mt List.mem_cons.mpr h)
      rw [read, if_neg (Ne.symm hne), ih hrest]

theorem Same.refl (f : Fields κ α) : f.Same f := fun _ => rfl

/-- Fields are read alike when their first leaf is. -/
theorem same_leaf {key : κ} {v v' : α} {f g : Fields κ α} (hf : key ∉ f.keys)
    (hg : key ∉ g.keys) :
    (leaf key v f).Same (leaf key v' g) ↔ v = v' ∧ f.Same g := by
  constructor
  · intro h
    have hv := h [key]
    simp only [read_leaf, Option.some.injEq] at hv
    refine ⟨hv, fun path => ?_⟩
    cases path with
    | nil => rw [read_nil, read_nil]
    | cons k path =>
        by_cases hk : key = k
        · rw [← hk, read_of_not_mem hf, read_of_not_mem hg]
        · have hpath := h (k :: path)
          rw [read, if_neg hk, read, if_neg hk] at hpath
          exact hpath
  · rintro ⟨rfl, h⟩ path
    cases path with
    | nil => rw [read_nil, read_nil]
    | cons k path =>
        rw [read, read]
        split
        case isTrue => rfl
        case isFalse => exact h (k :: path)

/-- Fields are read alike when their first group is. -/
theorem same_group {key : κ} {c c' f g : Fields κ α} (hf : key ∉ f.keys)
    (hg : key ∉ g.keys) :
    (group key c f).Same (group key c' g) ↔ c.Same c' ∧ f.Same g := by
  constructor
  · intro h
    refine ⟨fun path => ?_, fun path => ?_⟩
    · have hpath := h (key :: path)
      rw [read_group, read_group] at hpath
      exact hpath
    · cases path with
      | nil => rw [read_nil, read_nil]
      | cons k path =>
          by_cases hk : key = k
          · rw [← hk, read_of_not_mem hf, read_of_not_mem hg]
          · have hpath := h (k :: path)
            rw [read, if_neg hk, read, if_neg hk] at hpath
            exact hpath
  · rintro ⟨hc, h⟩ path
    cases path with
    | nil => rw [read_nil, read_nil]
    | cons k path =>
        rw [read, read]
        split
        case isTrue => exact hc path
        case isFalse => exact h (k :: path)

end Read

-- =================================== filling

/-- A map as a field of its own, unless it is empty. -/
def hang (key : κ) : Fields κ α → Fields κ α
  | nil => nil
  | f => group key f nil

theorem hang_of_ne {key : κ} {f : Fields κ α} (h : f ≠ nil) :
    hang key f = group key f nil := by
  cases f with
  | nil => exact absurd rfl h
  | leaf | group => rfl

/-- A last level below levels that were opened one in the other. -/
def wrap : List (Fields κ α × κ) → Fields κ α → Fields κ α
  | [], f => f
  | (level, key) :: inner, f => level ++ hang key (wrap inner f)

theorem wrap_append (outer inner : List (Fields κ α × κ)) (f : Fields κ α) :
    wrap (outer ++ inner) f = wrap outer (wrap inner f) := by
  induction outer with
  | nil => rfl
  | cons p outer ih => rw [List.cons_append, wrap, wrap, ih]

/-- The names of the levels are new at each. -/
def Fresh (levels : List (Fields κ α × κ)) : Prop :=
  ∀ p ∈ levels, p.2 ∉ p.1.keys

theorem wrap_ne_nil {levels : List (Fields κ α × κ)} {f : Fields κ α}
    (h : f ≠ nil) : wrap levels f ≠ nil := by
  induction levels with
  | nil => exact h
  | cons p inner ih =>
      obtain ⟨level, key⟩ := p
      rw [wrap, hang_of_ne ih]
      cases level <;> nofun

section Store

variable [DecidableEq κ]

/-- The map at a name, and an empty one where there is none. -/
def child (key : κ) : Fields κ α → Fields κ α
  | nil => nil
  | leaf k _ rest => if k = key then nil else rest.child key
  | group k children rest => if k = key then children else rest.child key

/-- A key has a value, in its place or as the last one. -/
def setLeaf (key : κ) (value : α) : Fields κ α → Fields κ α
  | nil => leaf key value nil
  | leaf k v rest =>
      if k = key then leaf key value rest
      else leaf k v (rest.setLeaf key value)
  | group k children rest =>
      if k = key then leaf key value rest
      else group k children (rest.setLeaf key value)

/-- A key has fields, in its place or as the last one. -/
def setGroup (key : κ) (nested : Fields κ α) : Fields κ α → Fields κ α
  | nil => group key nested nil
  | leaf k v rest =>
      if k = key then group key nested rest
      else leaf k v (setGroup key nested rest)
  | group k children rest =>
      if k = key then group key nested rest
      else group k children (setGroup key nested rest)

/-- Set a field at the end of a path, with the maps on the way. -/
def store (key : κ) (value : α) : List κ → Fields κ α → Fields κ α
  | [], f => f.setLeaf key value
  | g :: path, f => setGroup g ((f.child g).store key value path) f

theorem setLeaf_of_not_mem {key : κ} {f : Fields κ α} (h : key ∉ f.keys)
    (value : α) : f.setLeaf key value = f ++ leaf key value nil := by
  induction f with
  | nil => rfl
  | leaf k v rest ih =>
      obtain ⟨hne, hrest⟩ := not_or.mp (mt List.mem_cons.mpr h)
      rw [setLeaf, if_neg (Ne.symm hne), ih hrest, leaf_append]
  | group k children rest _ ih =>
      obtain ⟨hne, hrest⟩ := not_or.mp (mt List.mem_cons.mpr h)
      rw [setLeaf, if_neg (Ne.symm hne), ih hrest, group_append]

theorem child_hang {key : κ} {f c : Fields κ α} (h : key ∉ f.keys) :
    (f ++ hang key c).child key = c := by
  induction f with
  | nil =>
      cases c with
      | nil => rfl
      | leaf | group => exact if_pos rfl
  | leaf k v rest ih =>
      obtain ⟨hne, hrest⟩ := not_or.mp (mt List.mem_cons.mpr h)
      rw [leaf_append, child, if_neg (Ne.symm hne), ih hrest]
  | group k children rest _ ih =>
      obtain ⟨hne, hrest⟩ := not_or.mp (mt List.mem_cons.mpr h)
      rw [group_append, child, if_neg (Ne.symm hne), ih hrest]

theorem setGroup_hang {key : κ} {f c : Fields κ α} (h : key ∉ f.keys)
    (c' : Fields κ α) :
    setGroup key c' (f ++ hang key c) = f ++ group key c' nil := by
  induction f with
  | nil =>
      cases c with
      | nil => rfl
      | leaf | group => exact if_pos rfl
  | leaf k v rest ih =>
      obtain ⟨hne, hrest⟩ := not_or.mp (mt List.mem_cons.mpr h)
      rw [leaf_append, setGroup, if_neg (Ne.symm hne), ih hrest]
      rfl
  | group k children rest _ ih =>
      obtain ⟨hne, hrest⟩ := not_or.mp (mt List.mem_cons.mpr h)
      rw [group_append, setGroup, if_neg (Ne.symm hne), ih hrest]
      rfl

/-- A value is stored at the innermost level. -/
theorem store_wrap {levels : List (Fields κ α × κ)} (hfresh : Fresh levels)
    {f : Fields κ α} {key : κ} (hkey : key ∉ f.keys) (value : α) :
    (wrap levels f).store key value (levels.map Prod.snd)
      = wrap levels (f ++ leaf key value nil) := by
  induction levels with
  | nil => exact setLeaf_of_not_mem hkey value
  | cons p inner ih =>
      obtain ⟨level, g⟩ := p
      have hg : g ∉ level.keys := hfresh _ List.mem_cons_self
      have hinner := ih fun p hp => hfresh p (List.mem_cons_of_mem _ hp)
      have hne : f ++ leaf key value nil ≠ nil := by cases f <;> nofun
      rw [List.map_cons, store, wrap, child_hang hg, hinner, setGroup_hang hg,
        wrap, hang_of_ne (wrap_ne_nil hne)]

end Store

end Fields

end Nested
