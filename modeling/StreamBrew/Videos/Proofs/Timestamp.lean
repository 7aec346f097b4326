/-
The times that a link may have.

A time is digits, or hours, minutes and seconds, each digits and a unit
(`Denotes`). The pattern of the source matches the second form with one
choice of the parts only, since a part ends with its unit (`Clear`), and
the sum is checked at every step, where it is still small.

Before it looks at the pattern, the source asks its library for an
integer, and that one may have a sign (`Signed`).
-/
import StreamBrew.Videos.Youtube

namespace StreamBrew.Youtube

open Regex Regex.Pattern Text

variable {n : Nat} {value : Bytes}

-- =================================== grammar

/-- Digits and a unit, or nothing. -/
inductive Part (unit : UInt8) : Bytes → Nat → Prop
  | absent : Part unit [] 0
  | present {digits : Bytes} (hne : digits ≠ [])
      (hall : digits.all isDigit = true) :
      Part unit (digits ++ [unit]) (decimal digits)

/-- What a time denotes, in seconds. -/
inductive Denotes : Bytes → Nat → Prop
  | seconds {digits : Bytes} (hne : digits ≠ [])
      (hall : digits.all isDigit = true) : Denotes digits (decimal digits)
  | parts {hours minutes seconds : Bytes} {h m s : Nat}
      (hh : Part 0x68 hours h) (hm : Part 0x6D minutes m)
      (hs : Part 0x73 seconds s) (hne : hours ++ (minutes ++ seconds) ≠ []) :
      Denotes (hours ++ (minutes ++ seconds)) (h * 3600 + m * 60 + s)

/-- An integer with a sign that is not below zero. -/
def Signed (value : Bytes) : Prop :=
  ∃ digits : Bytes, digits ≠ [] ∧ digits.all isDigit = true
    ∧ (value = 0x2B :: digits ∧ decimal digits ≤ maxInt32
      ∨ value = 0x2D :: digits ∧ decimal digits = 0)

-- ===================================== parts

section Parts

variable {unit : UInt8} {a b R S : Bytes} {x y : Nat}

/-- No part with this unit comes first. -/
def Clear (unit : UInt8) (R : Bytes) : Prop :=
  ∀ digits rest : Bytes, digits.all isDigit = true →
    R ≠ digits ++ unit :: rest

theorem clear_nil : Clear unit [] := by
  intro digits rest _ h
  exact absurd h.symm (List.append_ne_nil_of_right_ne_nil _ nofun)

/-- Digits up to what is no digit. -/
theorem digits_inj {d e : Bytes} {c c' : UInt8}
    (hd : d.all isDigit = true) (he : e.all isDigit = true)
    (hc : isDigit c = false) (hc' : isDigit c' = false)
    (h : d ++ c :: R = e ++ c' :: S) : d = e ∧ c = c' ∧ R = S := by
  induction d generalizing e with
  | nil =>
      cases e with
      | nil =>
          injection h with h1 h2
          exact ⟨rfl, h1, h2⟩
      | cons f e =>
          injection h with h1 h2
          rw [List.all_cons, ← h1, hc] at he
          cases he
  | cons f d ih =>
      rw [List.all_cons, Bool.and_eq_true] at hd
      cases e with
      | nil =>
          injection h with h1 h2
          rw [h1, hc'] at hd
          cases hd.1
      | cons g e =>
          rw [List.all_cons, Bool.and_eq_true] at he
          injection h with h1 h2
          obtain ⟨rfl, hrest⟩ := ih hd.2 he.2 h2
          exact ⟨by rw [h1], hrest⟩

theorem Part.clear {other : UInt8} (h : Part other a x)
    (hunit : isDigit unit = false) (hother : isDigit other = false)
    (hne : other ≠ unit) (hR : Clear unit R) : Clear unit (a ++ R) := by
  cases h with
  | absent => exact hR
  | @present digits hdigits hall =>
      intro e rest he heq
      rw [List.append_assoc, List.singleton_append] at heq
      exact hne (digits_inj hall he hother hunit heq).2.1

/-- A part ends with its unit. -/
theorem Part.unique (hunit : isDigit unit = false) (ha : Part unit a x)
    (hb : Part unit b y) (hR : Clear unit R) (hS : Clear unit S)
    (h : a ++ R = b ++ S) : x = y ∧ R = S := by
  cases ha with
  | absent =>
      cases hb with
      | absent => exact ⟨rfl, h⟩
      | @present e hne hall =>
          rw [List.append_assoc, List.singleton_append] at h
          exact absurd h (hR e S hall)
  | @present d hne hall =>
      rw [List.append_assoc, List.singleton_append] at h
      cases hb with
      | absent => exact absurd h.symm (hS d R hall)
      | @present e hne' hall' =>
          rw [List.append_assoc, List.singleton_append] at h
          obtain ⟨rfl, -, hrest⟩ := digits_inj hall hall' hunit hunit h
          exact ⟨rfl, hrest⟩

/-- A part that is there has its unit. -/
theorem Part.mem (h : Part unit a x) (hne : a ≠ []) : unit ∈ a := by
  cases h with
  | absent => exact absurd rfl hne
  | present => exact List.mem_append_right _ (List.mem_singleton.mpr rfl)

/-- What the pattern of a component matches, and what its group has. -/
theorem matches_component {u : Char} {s : Bytes}
    {cs : Captures UInt8} (h : Matches (componentPattern n u) s cs) :
    ∃ digits : Bytes, digits.all isDigit = true
      ∧ Part (UInt8.ofNat u.toNat) s (decimal digits)
      ∧ (digits = [] ∧ cs = [] ∨ cs = [(n, digits)]) := by
  cases h with
  | right h =>
      cases h
      exact ⟨[], rfl, .absent, .inl ⟨rfl, rfl⟩⟩
  | left h =>
      cases h with
      | seq hr hq =>
          cases hr with
          | group hr =>
              obtain ⟨hne, hall, rfl⟩ := matches_plus_char.mp hr
              cases hq with
              | char hc =>
                  obtain rfl := of_decide_eq_true hc
                  exact ⟨_, hall, .present hne hall, .inr rfl⟩

theorem component_matches {u : Char} (h : Part (UInt8.ofNat u.toNat) a x) :
    ∃ cs, Matches (componentPattern n u) a cs := by
  cases h with
  | absent => exact ⟨[], .right .empty⟩
  | @present digits hne hall =>
      refine ⟨_, .left (.seq (.group (matches_plus_char.mpr
        ⟨hne, hall, rfl⟩)) (.char ?_))⟩
      exact decide_eq_true rfl

end Parts

-- =================================== numbers

theorem not_isDigit_sign {b : UInt8} (h : isDigit b = true) :
    b ≠ 0x2B ∧ b ≠ 0x2D := by
  constructor
  · rintro rfl
    cases h
  · rintro rfl
    cases h

/-- An integer without a sign. -/
theorem parseInt_digits {digits : Bytes} (hne : digits ≠ [])
    (hall : digits.all isDigit = true) :
    parseInt digits
      = if decimal digits ≤ maxInt32 then some (decimal digits : Int)
        else none := by
  cases digits with
  | nil => exact absurd rfl hne
  | cons b digits =>
      have hb : isDigit b = true := by
        rw [List.all_cons, Bool.and_eq_true] at hall
        exact hall.1
      obtain ⟨hplus, hminus⟩ := not_isDigit_sign hb
      have hany : (b :: digits).any (fun b => !isDigit b) = false := by
        rw [List.any_eq_false]
        intro c hc
        rw [List.all_eq_true.mp hall c hc]
        exact Bool.false_ne_true
      unfold parseInt
      split
      case h_1 rest he =>
        injection he with h1
        exact absurd h1 hplus
      case h_2 rest he =>
        injection he with h1
        exact absurd h1 hminus
      case h_3 =>
        simp only [hany, List.isEmpty_cons, List.head?_cons,
          Option.some.injEq, hminus, or_self, Bool.false_eq_true, if_false]
        refine if_congr ?_ rfl rfl
        unfold maxInt32
        omega

theorem parseInt_component {digits : Bytes}
    (hall : digits.all isDigit = true) :
    parseInt (if digits = [] then name "0" else digits)
      = if decimal digits ≤ maxInt32 then some (decimal digits : Int)
        else none := by
  by_cases hne : digits = []
  · subst hne
    rfl
  · rw [if_neg hne, parseInt_digits hne hall]

theorem int64?_natCast (h : n ≤ 9223372036854775807) :
    int64? (n : Int) = some (n : Int) :=
  if_pos ⟨by omega, by omega⟩

/-- A component times its unit is far from what overflows. -/
theorem product_fits {multiplier : Nat} (hn : n ≤ maxInt32)
    (hlimit : multiplier ≤ 3600) :
    int64? ((n : Int) * multiplier) = some ((n * multiplier : Nat) : Int) := by
  have hproduct : n * multiplier ≤ 2147483647 * 3600 :=
    Nat.mul_le_mul hn hlimit
  rw [← Int.natCast_mul]
  exact int64?_natCast (by omega)

/-- So is a sum that was in range before it is added. -/
theorem sum_fits {total multiplier : Nat} (htotal : total ≤ maxInt32)
    (hn : n ≤ maxInt32) (hlimit : multiplier ≤ 3600) :
    int64? ((total : Int) + ((n * multiplier : Nat) : Int))
      = some ((total + n * multiplier : Nat) : Int) := by
  have hproduct : n * multiplier ≤ 2147483647 * 3600 :=
    Nat.mul_le_mul hn hlimit
  unfold maxInt32 at htotal
  rw [← Int.natCast_add]
  exact int64?_natCast (by omega)

section Sums

variable {total multiplier : Nat} {digits : Bytes}
  (hall : digits.all isDigit = true)

include hall

/-- A component is added as long as the sum is in range. -/
theorem addComponent_eq (hmultiplier : 0 < multiplier) :
    addComponent total digits multiplier
      = if total + decimal digits * multiplier ≤ maxInt32 then
          some (total + decimal digits * multiplier)
        else none := by
  have hle : decimal digits ≤ total + decimal digits * multiplier :=
    Nat.le_add_left_of_le (Nat.le_mul_of_pos_right _ hmultiplier)
  unfold addComponent
  rw [parseInt_component hall]
  by_cases hsmall : decimal digits ≤ maxInt32
  · rw [if_pos hsmall]
    simp only [Int.toNat_natCast]
    by_cases hsum : total + decimal digits * multiplier ≤ maxInt32
    · rw [if_pos hsum, if_neg (Nat.not_lt.mpr hsum)]
    · rw [if_neg hsum, if_pos (Nat.not_le.mp hsum)]
  · rw [if_neg hsmall, if_neg fun hsum => hsmall (hle.trans hsum)]

variable (total multiplier) in
/-- The products and the sums of the loop are far from what overflows. -/
theorem sumComponents_cons (htotal : total ≤ maxInt32)
    (hmultiplier : 0 < multiplier) (hlimit : multiplier ≤ 3600)
    (components : List (Bytes × Int)) :
    sumComponents total ((digits, (multiplier : Int)) :: components)
      = match addComponent total digits multiplier with
        | none => some none
        | some sum => sumComponents sum components := by
  rw [addComponent_eq hall hmultiplier, sumComponents,
    parseInt_component hall]
  by_cases hsmall : decimal digits ≤ maxInt32
  · rw [if_pos hsmall]
    simp only [product_fits hsmall hlimit, sum_fits htotal hsmall hlimit,
      Option.bind_some]
    by_cases hsum : total + decimal digits * multiplier ≤ maxInt32
    · rw [if_pos hsum, if_neg (Int.not_lt.mpr (Int.ofNat_le.mpr hsum))]
    · rw [if_neg hsum,
        if_pos (Int.ofNat_lt.mpr (Nat.not_le.mp hsum))]
  · have hle : decimal digits ≤ total + decimal digits * multiplier :=
      Nat.le_add_left_of_le (Nat.le_mul_of_pos_right _ hmultiplier)
    rw [if_neg hsmall, if_neg fun hsum => hsmall (hle.trans hsum)]

end Sums

/-- What the pattern of a time matches: the parts, and their digits in its
groups. -/
theorem matches_timestamp {found : Captures UInt8}
    (h : Matches timestampPattern value found) :
    ∃ hours minutes seconds : Bytes,
      value = hours ++ (minutes ++ seconds)
        ∧ Part 0x68 hours (decimal (found.get 1))
        ∧ Part 0x6D minutes (decimal (found.get 2))
        ∧ Part 0x73 seconds (decimal (found.get 3))
        ∧ (found.get 1).all isDigit = true
        ∧ (found.get 2).all isDigit = true
        ∧ (found.get 3).all isDigit = true := by
  cases h with
  | seq hr hq =>
      cases hq with
      | seq hm hs =>
          obtain ⟨d, hd, hours, hd'⟩ := matches_component hr
          obtain ⟨e, he, minutes, he'⟩ := matches_component hm
          obtain ⟨f, hf, seconds, hf'⟩ := matches_component hs
          refine ⟨_, _, _, rfl, ?_⟩
          rcases hd' with ⟨rfl, rfl⟩ | rfl <;>
            rcases he' with ⟨rfl, rfl⟩ | rfl <;>
            rcases hf' with ⟨rfl, rfl⟩ | rfl <;>
            exact ⟨hours, minutes, seconds, hd, he, hf⟩

theorem timestamp_matches {hours minutes seconds : Bytes} {h m s : Nat}
    (hh : Part 0x68 hours h) (hm : Part 0x6D minutes m)
    (hs : Part 0x73 seconds s) :
    ∃ found, Matches timestampPattern (hours ++ (minutes ++ seconds))
      found := by
  obtain ⟨c, hc⟩ := component_matches (n := 1) (u := 'h') hh
  obtain ⟨d, hd⟩ := component_matches (n := 2) (u := 'm') hm
  obtain ⟨e, he⟩ := component_matches (n := 3) (u := 's') hs
  exact ⟨_, .seq hc (.seq hd he)⟩

-- ==================================== result

section Units

variable {hours minutes seconds hours' minutes' seconds' : Bytes}
  {h m s h' m' s' : Nat}

/-- The parts of a time are determined by its text. -/
theorem parts_unique (hh : Part 0x68 hours h) (hm : Part 0x6D minutes m)
    (hs : Part 0x73 seconds s) (hh' : Part 0x68 hours' h')
    (hm' : Part 0x6D minutes' m') (hs' : Part 0x73 seconds' s')
    (heq : hours ++ (minutes ++ seconds) = hours' ++ (minutes' ++ seconds')) :
    h = h' ∧ m = m' ∧ s = s' := by
  have hclear : ∀ {unit : UInt8} {b : Bytes} {y : Nat},
      isDigit unit = false → unit ≠ 0x73 → Part 0x73 b y → Clear unit b := by
    intro unit b y hunit hne hb
    rw [← List.append_nil b]
    exact hb.clear hunit rfl (Ne.symm hne) clear_nil
  have hrest : ∀ {b c : Bytes} {y z : Nat}, Part 0x6D b y → Part 0x73 c z →
      Clear 0x68 (b ++ c) := fun hb hc =>
    hb.clear rfl rfl (by decide) (hclear rfl (by decide) hc)
  obtain ⟨hsame, heq⟩ := hh.unique rfl hh' (hrest hm hs) (hrest hm' hs') heq
  obtain ⟨msame, heq⟩ := hm.unique rfl hm' (hclear rfl (by decide) hs)
    (hclear rfl (by decide) hs') heq
  refine ⟨hsame, msame, (hs.unique rfl hs' clear_nil clear_nil ?_).1⟩
  rw [heq]

/-- A time with units is no integer. -/
theorem parts_not_digits (hh : Part 0x68 hours h) (hm : Part 0x6D minutes m)
    (hs : Part 0x73 seconds s) (hne : hours ++ (minutes ++ seconds) ≠ []) :
    ∃ unit ∈ hours ++ (minutes ++ seconds), unit ≠ 0x2B ∧ unit ≠ 0x2D
      ∧ isDigit unit = false := by
  by_cases hnone : hours = []
  · by_cases mnone : minutes = []
    · have snone : seconds ≠ [] := by
        rintro rfl
        exact hne (by rw [hnone, mnone]; rfl)
      exact ⟨_, List.mem_append_right _ (List.mem_append_right _
        (hs.mem snone)), by decide⟩
    · exact ⟨_, List.mem_append_right _ (List.mem_append_left _
        (hm.mem mnone)), by decide⟩
  · exact ⟨_, List.mem_append_left _ (hh.mem hnone), by decide⟩

end Units

/-- An integer is digits, after a sign or none. -/
theorem parseInt_eq_some {n : Int} (h : parseInt value = some n) :
    ∃ digits : Bytes, digits ≠ [] ∧ digits.all isDigit = true
      ∧ (value = digits ∧ n = decimal digits
        ∨ value = 0x2B :: digits ∧ n = decimal digits
        ∨ value = 0x2D :: digits ∧ n = -(decimal digits : Int)) := by
  have hdigits : ∀ digits : Bytes,
      ¬ (digits.isEmpty = true ∨ digits.any (fun b => !isDigit b) = true) →
        digits ≠ [] ∧ digits.all isDigit = true := by
    intro digits hok
    rw [not_or] at hok
    refine ⟨fun hnil => hok.1 (by rw [hnil]; rfl), ?_⟩
    rw [List.all_eq_true]
    intro c hc
    by_contra hnot
    exact hok.2 (List.any_eq_true.mpr ⟨c, hc, by simpa using hnot⟩)
  unfold parseInt at h
  split at h
  case h_1 rest =>
    simp only at h
    split at h
    case isTrue => cases h
    case isFalse hok =>
      obtain ⟨hne, hall⟩ := hdigits _ hok
      have hhead : ¬ ((0x2B : UInt8) :: rest).head? = some 0x2D :=
        fun he => absurd (Option.some.inj he) (by decide)
      rw [if_neg hhead] at h
      split at h
      case isFalse => cases h
      case isTrue =>
        cases h
        exact ⟨rest, hne, hall, .inr (.inl ⟨rfl, rfl⟩)⟩
  case h_2 rest =>
    simp only at h
    split at h
    case isTrue => cases h
    case isFalse hok =>
      obtain ⟨hne, hall⟩ := hdigits _ hok
      rw [if_pos List.head?_cons] at h
      split at h
      case isFalse => cases h
      case isTrue =>
        cases h
        exact ⟨rest, hne, hall, .inr (.inr ⟨rfl, rfl⟩)⟩
  case h_3 hplus hminus =>
    simp only at h
    split at h
    case isTrue => cases h
    case isFalse hok =>
      obtain ⟨hne, hall⟩ := hdigits _ hok
      have hhead : ¬ value.head? = some 0x2D := by
        cases value with
        | nil => nofun
        | cons b rest =>
            intro hb
            obtain rfl : b = 0x2D := Option.some.inj hb
            exact hminus rest rfl
      rw [if_neg hhead] at h
      split at h
      case isFalse => cases h
      case isTrue =>
        cases h
        exact ⟨value, hne, hall, .inl ⟨rfl, rfl⟩⟩

/-- A text with a unit is no integer. -/
theorem parseInt_unit
    (h : ∃ unit ∈ value, unit ≠ 0x2B ∧ unit ≠ 0x2D
      ∧ isDigit unit = false) : parseInt value = none := by
  obtain ⟨unit, hmem, hplus, hminus, hunit⟩ := h
  by_contra hne
  obtain ⟨n, hn⟩ := Option.ne_none_iff_exists'.mp hne
  obtain ⟨digits, -, hall, hvalue⟩ := parseInt_eq_some hn
  have hdigits : unit ∈ digits := by
    rcases hvalue with ⟨rfl, -⟩ | ⟨rfl, -⟩ | ⟨rfl, -⟩
    · exact hmem
    · exact (List.mem_cons.mp hmem).resolve_left hplus
    · exact (List.mem_cons.mp hmem).resolve_left hminus
  rw [List.all_eq_true.mp hall unit hdigits] at hunit
  cases hunit

/-- The checked loop over the components of a time. -/
theorem sum_eq {d e f : Bytes} (hd : d.all isDigit = true)
    (he : e.all isDigit = true) (hf : f.all isDigit = true) :
    ((addComponent 0 d 3600).bind fun total =>
        addComponent total e 60).bind (fun total => addComponent total f 1)
      = if decimal d * 3600 + decimal e * 60 + decimal f ≤ maxInt32 then
          some (decimal d * 3600 + decimal e * 60 + decimal f)
        else none := by
  rw [addComponent_eq hd (by decide), Nat.zero_add]
  by_cases hhours : decimal d * 3600 ≤ maxInt32
  · rw [if_pos hhours, Option.bind_some, addComponent_eq he (by decide)]
    by_cases hminutes : decimal d * 3600 + decimal e * 60 ≤ maxInt32
    · rw [if_pos hminutes, Option.bind_some,
        addComponent_eq hf (by decide), Nat.mul_one]
    · rw [if_neg hminutes, if_neg fun hsum =>
        hminutes (Nat.le_of_add_right_le hsum)]
      rfl
  · rw [if_neg hhours, if_neg fun hsum =>
      hhours (Nat.le_of_add_right_le (Nat.le_of_add_right_le hsum))]
    rfl

/-- So it is in integers of 64 bits. -/
theorem sumComponents_eq {d e f : Bytes} (hd : d.all isDigit = true)
    (he : e.all isDigit = true) (hf : f.all isDigit = true) :
    sumComponents 0 [(d, 3600), (e, 60), (f, 1)]
      = some ((((addComponent 0 d 3600).bind fun total =>
          addComponent total e 60).bind fun total =>
            addComponent total f 1).map Int.ofNat) := by
  have hfirst := sumComponents_cons 0 3600 hd
    (Nat.zero_le _) (by decide) (by decide) [(e, 60), (f, 1)]
  rw [Nat.cast_zero, Nat.cast_ofNat] at hfirst
  rw [hfirst]
  cases hhours : addComponent 0 d 3600 with
  | none => rfl
  | some hours =>
      have hsecond := sumComponents_cons hours 60 he
        (addComponent_le hhours) (by decide) (by decide) [(f, 1)]
      rw [Nat.cast_ofNat] at hsecond
      simp only [Option.bind_some]
      rw [hsecond]
      cases hminutes : addComponent hours e 60 with
      | none => rfl
      | some minutes =>
          have hthird := sumComponents_cons minutes 1 hf
            (addComponent_le hminutes) (by decide) (by decide) []
          rw [Nat.cast_one] at hthird
          simp only [Option.bind_some]
          rw [hthird]
          cases addComponent minutes f 1 <;> rfl

/-- What ParseTimestamp gives is what the text denotes. -/
theorem parseTimestamp_parts {hours minutes seconds : Bytes} {h m s : Nat}
    (hh : Part 0x68 hours h) (hm : Part 0x6D minutes m)
    (hs : Part 0x73 seconds s) (hne : hours ++ (minutes ++ seconds) ≠ []) :
    parseTimestamp (hours ++ (minutes ++ seconds))
      = if h * 3600 + m * 60 + s ≤ maxInt32 then
          some (h * 3600 + m * 60 + s)
        else none := by
  obtain ⟨cs, hcs⟩ := timestamp_matches hh hm hs
  unfold parseTimestamp
  rw [if_neg hne, parseInt_unit (parts_not_digits hh hm hs hne)]
  simp only [Option.filter_none]
  split
  case h_1 hnone => exact absurd hcs (fullMatch?_eq_none hnone cs)
  case h_2 found hfound =>
    obtain ⟨hours', minutes', seconds', heq, hh', hm', hs', hd, he, hf⟩ :=
      matches_timestamp (fullMatch?_matches hfound)
    obtain ⟨rfl, rfl, rfl⟩ := parts_unique hh hm hs hh' hm' hs' heq
    exact sum_eq hd he hf

/-- So it does for seconds alone. -/
theorem parseTimestamp_digits {digits : Bytes} (hne : digits ≠ [])
    (hall : digits.all isDigit = true) :
    parseTimestamp digits
      = if decimal digits ≤ maxInt32 then some (decimal digits)
        else none := by
  unfold parseTimestamp
  rw [if_neg hne, parseInt_digits hne hall]
  by_cases hle : decimal digits ≤ maxInt32
  · rw [if_pos hle, if_pos hle]
    rfl
  · rw [if_neg hle, if_neg hle]
    simp only [Option.filter_none]
    split
    case h_1 => rfl
    case h_2 found hfound =>
      obtain ⟨_, _, _, rfl, hh, hm, hs, -⟩ :=
        matches_timestamp (fullMatch?_matches hfound)
      -- a time with units has a unit
      obtain ⟨unit, hmem, -, -, hunit⟩ := parts_not_digits hh hm hs hne
      rw [List.all_eq_true.mp hall unit hmem] at hunit
      cases hunit

theorem parseTimestamp_denotes (h : Denotes value n) :
    parseTimestamp value = if n ≤ maxInt32 then some n else none := by
  cases h with
  | seconds hne hall => exact parseTimestamp_digits hne hall
  | parts hh hm hs hne => exact parseTimestamp_parts hh hm hs hne

/-- What is accepted is a time, or an integer with a sign. -/
theorem parseTimestamp_some (h : parseTimestamp value = some n) :
    Signed value ∨ ∃ m, Denotes value m := by
  unfold parseTimestamp at h
  split at h
  case isTrue => cases h
  case isFalse hne =>
    split at h
    case h_1 seconds hseconds =>
      obtain ⟨hint, hnonneg⟩ := Option.filter_eq_some_iff.mp hseconds
      have hlt := parseInt_lt hint
      have hnonneg : 0 ≤ seconds := of_decide_eq_true hnonneg
      obtain ⟨digits, hdigits, hall, hvalue⟩ := parseInt_eq_some hint
      rcases hvalue with ⟨rfl, -⟩ | ⟨rfl, hn⟩ | ⟨rfl, hn⟩
      · exact .inr ⟨_, .seconds hdigits hall⟩
      · refine .inl ⟨digits, hdigits, hall, .inl ⟨rfl, ?_⟩⟩
        unfold maxInt32
        omega
      · exact .inl ⟨digits, hdigits, hall, .inr ⟨rfl, by omega⟩⟩
    case h_2 =>
      split at h
      case h_1 => cases h
      case h_2 found hfound =>
        obtain ⟨_, _, _, rfl, hh, hm, hs, -⟩ :=
          matches_timestamp (fullMatch?_matches hfound)
        exact .inr ⟨_, .parts hh hm hs hne⟩

/-- An integer with a sign is accepted. -/
theorem parseTimestamp_signed (h : Signed value) :
    ∃ n, parseTimestamp value = some n := by
  obtain ⟨digits, hne, hall, hvalue⟩ := h
  have hany : digits.any (fun b => !isDigit b) = false := by
    rw [List.any_eq_false]
    intro c hc
    rw [List.all_eq_true.mp hall c hc]
    exact Bool.false_ne_true
  have hempty : digits.isEmpty = false := List.isEmpty_eq_false_iff.mpr hne
  have hint : ∃ n : Nat, parseInt value = some (n : Int) := by
    rcases hvalue with ⟨rfl, hle⟩ | ⟨rfl, hzero⟩
    · refine ⟨decimal digits, ?_⟩
      have hlt : decimal digits < 2 ^ 31 := by
        unfold maxInt32 at hle
        omega
      simp only [parseInt, hany, hempty, Bool.false_eq_true, or_self,
        if_false, List.head?_cons]
      rw [if_neg (by decide), if_pos hlt]
    · refine ⟨0, ?_⟩
      simp only [parseInt, hany, hempty, Bool.false_eq_true, or_self,
        if_false, List.head?_cons, if_true, hzero, Nat.zero_le]
      rfl
  obtain ⟨n, hn⟩ := hint
  refine ⟨n, ?_⟩
  unfold parseTimestamp
  have hvalue : value ≠ [] := by
    rcases hvalue with ⟨rfl, -⟩ | ⟨rfl, -⟩ <;> exact List.cons_ne_nil _ _
  rw [if_neg hvalue, hn, Option.filter_some, if_pos (by simp)]
  rfl

/-- A time begins with a digit. -/
theorem denotes_head (h : Denotes value n) :
    ∃ b rest, value = b :: rest ∧ isDigit b = true := by
  have hfirst : ∀ {digits : Bytes} (rest : Bytes), digits ≠ [] →
      digits.all isDigit = true →
      ∃ b tail, digits ++ rest = b :: tail ∧ isDigit b = true := by
    intro digits rest hne hall
    cases digits with
    | nil => exact absurd rfl hne
    | cons b digits =>
        rw [List.all_cons, Bool.and_eq_true] at hall
        exact ⟨b, digits ++ rest, rfl, hall.1⟩
  cases h with
  | seconds hne hall =>
      obtain ⟨b, tail, heq, hb⟩ := hfirst [] hne hall
      exact ⟨b, tail, by rw [← heq, List.append_nil], hb⟩
  | parts hh hm hs hne =>
      cases hh with
      | present hd hall =>
          rw [List.append_assoc]
          exact hfirst _ hd hall
      | absent =>
          cases hm with
          | present hd hall =>
              rw [List.nil_append, List.append_assoc]
              exact hfirst _ hd hall
          | absent =>
              cases hs with
              | present hd hall =>
                  rw [List.nil_append, List.nil_append]
                  exact hfirst _ hd hall
              | absent => exact absurd rfl hne

theorem signed_not_denotes (h : Signed value) (n : Nat) :
    ¬ Denotes value n := by
  intro hdenotes
  obtain ⟨b, rest, rfl, hb⟩ := denotes_head hdenotes
  obtain ⟨hplus, hminus⟩ := not_isDigit_sign hb
  obtain ⟨digits, -, -, ⟨heq, -⟩ | ⟨heq, -⟩⟩ := h
  · exact hplus (List.cons.inj heq).1
  · exact hminus (List.cons.inj heq).1

/-- In integers of 64 bits nothing overflows, and the result is the
same. -/
theorem parseTimestampChecked_eq (value : Bytes) :
    parseTimestampChecked value
      = some ((parseTimestamp value).map Int.ofNat) := by
  unfold parseTimestampChecked parseTimestamp
  split
  case isTrue => rfl
  case isFalse =>
    split
    case h_1 seconds hseconds =>
      have hnonneg : 0 ≤ seconds :=
        of_decide_eq_true (Option.filter_eq_some_iff.mp hseconds).2
      simp only [Option.map_some, Int.ofNat_eq_natCast,
        Int.toNat_of_nonneg hnonneg]
    case h_2 =>
      split
      case h_1 => rfl
      case h_2 found hfound =>
        obtain ⟨_, _, _, -, -, -, -, hd, he, hf⟩ :=
          matches_timestamp (fullMatch?_matches hfound)
        exact sumComponents_eq hd he hf

/-- Nothing overflows, and a text is accepted, as the time that it
denotes, exactly when it denotes one in range, unless it is an integer
with a sign. -/
theorem timestamp_denoted_iff (value : Bytes) :
    parseTimestampChecked value
        = some ((parseTimestamp value).map Int.ofNat)
      ∧ ((∀ n, parseTimestamp value = some n
          ↔ Denotes value n ∧ n ≤ maxInt32)
        ↔ ¬ Signed value) := by
  refine ⟨parseTimestampChecked_eq value, fun h hsigned => ?_,
    fun hsigned n => ⟨fun h => ?_, fun h => ?_⟩⟩
  · obtain ⟨n, hn⟩ := parseTimestamp_signed hsigned
    exact signed_not_denotes hsigned n ((h n).mp hn).1
  · obtain ⟨m, hm⟩ := (parseTimestamp_some h).resolve_left hsigned
    rw [parseTimestamp_denotes hm] at h
    split at h
    case isTrue hle =>
      cases h
      exact ⟨hm, hle⟩
    case isFalse => cases h
  · rw [parseTimestamp_denotes h.1, if_pos h.2]

/-- `+90` is accepted. -/
theorem timestamp_signed :
    parseTimestamp (name "+90") = some 90
      ∧ ¬ ∀ n, parseTimestamp (name "+90") = some n
        ↔ Denotes (name "+90") n ∧ n ≤ maxInt32 := by
  have haccepted : parseTimestamp (name "+90") = some 90 := by decide
  refine ⟨haccepted, fun h => ?_⟩
  obtain ⟨b, rest, heq, hb⟩ := denotes_head ((h 90).mp haccepted).1
  obtain rfl : 0x2B = b := (List.cons.inj heq).1
  cases hb

end StreamBrew.Youtube
