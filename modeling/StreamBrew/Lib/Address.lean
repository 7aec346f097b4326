/-
Internet addresses as texts.

An IPv6 address is read and written by the rules of the URL Standard
(`parse`, `serialize`), and read by those of net/netip (`isIPv6`). Both
readers know more forms than the writer gives: `isIPv6_serialize` says
that what one writes the other reads.

An address is its eight pieces of 16 bits.
-/
import StreamBrew.Lib.Text

namespace Address

open Text

-- ==================================== digits

/-- A hexadecimal digit of either case. -/
def isHex (c : Char) : Bool :=
  c.isDigit || ('a' ≤ c && c ≤ 'f') || ('A' ≤ c && c ≤ 'F')

/-- The value of a hexadecimal digit. -/
def digitValue (c : Char) : Nat :=
  if c.isDigit then c.toNat - '0'.toNat
  else if 'a' ≤ c then c.toNat - 'a'.toNat + 10
  else c.toNat - 'A'.toNat + 10

/-- The number that digits of a base denote. -/
def number (base : Nat) (digits : Chars) : Nat :=
  digits.foldl (fun n c => base * n + digitValue c) 0

/-- A byte in decimal, without leading zeros. -/
def octet (s : Chars) : Option Nat :=
  if s = [] ∨ s.any (fun c => !c.isDigit) ∨ 3 < s.length
      ∨ s.head? = some '0' ∧ s ≠ ['0'] ∨ 255 < number 10 s then none
  else some (number 10 s)

/-- Four bytes with dots between. -/
def dotted (s : Chars) : Option (List Nat) :=
  match (s.splitOn '.').map octet with
  | [some a, some b, some c, some d] => some [a, b, c, d]
  | _ => none

-- ============================== URL Standard

/-- The loop of the IPv6 parser: the pieces so far, and how many there
were at the `::`, which counts as a piece. -/
def pieces : Nat → List Nat → Option Nat → Chars →
    Option (List Nat × Option Nat)
  | 0, _, _, _ => none
  | _ + 1, ps, compress, [] => some (ps, compress)
  | n + 1, ps, compress, c :: s =>
      if ps.length = 8 then none
      else if c = ':' then
        if compress.isSome then none
        else pieces n (ps ++ [0]) (some (ps.length + 1)) s
      else
        let digits := ((c :: s).takeWhile isHex).take 4
        match (c :: s).drop digits.length with
        | '.' :: _ =>
            if digits = [] ∨ 6 < ps.length then none
            else match dotted (c :: s) with
              | some [a, b, c, d] =>
                  some (ps ++ [256 * a + b, 256 * c + d], compress)
              | _ => none
        | [':'] => none
        | ':' :: rest => pieces n (ps ++ [number 16 digits]) compress rest
        | [] => pieces n (ps ++ [number 16 digits]) compress []
        | _ => none

/-- More turns than the loop takes. -/
def maxPieces : Nat := 10

/-- The pieces of an address, with the zeros that `::` stands for. -/
def parse (s : Chars) : Option (List Nat) :=
  let found := match s with
    | ':' :: ':' :: rest => pieces maxPieces [0] (some 1) rest
    | ':' :: _ => none
    | s => pieces maxPieces [] none s
  match found with
  | none => none
  | some (ps, some i) => some
      (ps.take i ++ List.replicate (8 - ps.length) 0 ++ ps.drop i)
  | some (ps, none) => if ps.length = 8 then some ps else none

/-- `0` to `f`. -/
def lowerhex (n : Nat) : Char := ("0123456789abcdef".toList[n]?).getD '0'

/-- A piece in hexadecimal, as short as it can be. -/
def pieceText (n : Nat) : Chars :=
  if n < 0x10 then [lowerhex n]
  else if n < 0x100 then [lowerhex (n / 0x10), lowerhex (n % 0x10)]
  else if n < 0x1000 then
    [lowerhex (n / 0x100), lowerhex (n / 0x10 % 0x10), lowerhex (n % 0x10)]
  else
    [lowerhex (n / 0x1000), lowerhex (n / 0x100 % 0x10),
      lowerhex (n / 0x10 % 0x10), lowerhex (n % 0x10)]

/-- Pieces with colons between them. -/
def piecesText : List Nat → Chars
  | [] => []
  | [p] => pieceText p
  | p :: ps => pieceText p ++ ':' :: piecesText ps

/-- How many zeros a list begins with. -/
def zeroRun (ps : List Nat) : Nat := (ps.takeWhile (· = 0)).length

/-- Where the first of the longest runs of zeros begins, if it is longer
than one. -/
def compressed (ps : List Nat) : Option Nat :=
  let longest := ((List.range 8).map fun i => zeroRun (ps.drop i)).foldl
    max 0
  if longest ≤ 1 then none
  else (List.range 8).find? fun i => zeroRun (ps.drop i) = longest

/-- The shortest text, with the longest run of zeros left out. -/
def serialize (ps : List Nat) : Chars :=
  match compressed ps with
  | none => piecesText ps
  | some i =>
      piecesText (ps.take i)
        ++ ':' :: ':' :: piecesText ((ps.drop i).dropWhile (· = 0))

-- ================================= net/netip

/-- The loop of `parseIPv6`, with the number of groups that are left,
and whether there was an ellipsis. -/
def groups : Nat → Bool → Chars → Option (Nat × Bool × Chars)
  | 0, ellipsis, s => some (0, ellipsis, s)
  | n + 1, ellipsis, s =>
      let digits := s.takeWhile isHex
      if digits = [] ∨ 4 < digits.length then none
      else match s.dropWhile isHex with
        | [] => some (n, ellipsis, [])
        | '.' :: _ =>
            if ¬ ellipsis ∧ n ≠ 1 ∨ n = 0 then none
            else (dotted s).map fun _ => (n - 1, ellipsis, [])
        | [':'] => none
        | [':', ':'] => if ellipsis then none else some (n, true, [])
        | ':' :: ':' :: rest =>
            if ellipsis then none else groups n true rest
        | ':' :: rest => groups n ellipsis rest
        | _ => none

/-- An IPv6 address without a zone. -/
def isIPv6 (s : Chars) : Bool :=
  let found := match s with
    | [':', ':'] => some (8, true, [])
    | ':' :: ':' :: rest => groups 8 true rest
    | s => groups 8 false s
  found.any fun (left, ellipsis, rest) =>
    rest.isEmpty && (if left = 0 then !ellipsis else ellipsis)

example : (parse "2001:DB8::1:0:0:8a2e".toList).map serialize
    = some "2001:db8::1:0:0:8a2e".toList := by decide

example : (parse "::ffff:192.0.2.1".toList).map serialize
    = some "::ffff:c000:201".toList := by decide

-- ===================================== facts

theorem isHex_lowerhex (n : Nat) : isHex (lowerhex n) = true := by
  unfold lowerhex
  cases h : "0123456789abcdef".toList[n]? with
  | none => rfl
  | some c =>
      have hall : "0123456789abcdef".toList.all isHex = true := by decide
      exact List.all_eq_true.mp hall c (List.mem_of_getElem? h)

/-- A piece is written with one to four digits. -/
theorem pieceText_spec (p : Nat) :
    pieceText p ≠ [] ∧ (pieceText p).length ≤ 4
      ∧ ∀ c ∈ pieceText p, isHex c = true := by
  have hall : ∀ s : List Nat, ∀ c ∈ s.map lowerhex, isHex c = true := by
    intro s c hc
    obtain ⟨n, -, rfl⟩ := List.mem_map.mp hc
    exact isHex_lowerhex n
  unfold pieceText
  split
  case isTrue => exact ⟨List.cons_ne_nil _ _, by simp, hall [p]⟩
  case isFalse =>
  split
  case isTrue => exact ⟨List.cons_ne_nil _ _, by simp, hall [_, _]⟩
  case isFalse =>
  split
  case isTrue => exact ⟨List.cons_ne_nil _ _, by simp, hall [_, _, _]⟩
  case isFalse => exact ⟨List.cons_ne_nil _ _, by simp, hall [_, _, _, _]⟩

/-- A piece is read up to what follows it. -/
theorem takeWhile_pieceText (p : Nat) (rest : Chars)
    (hrest : rest.head?.all fun c => !isHex c) :
    (pieceText p ++ rest).takeWhile isHex = pieceText p
      ∧ (pieceText p ++ rest).dropWhile isHex = rest := by
  obtain ⟨-, -, hall⟩ := pieceText_spec p
  have htake : rest.takeWhile isHex = [] := by
    cases rest with
    | nil => rfl
    | cons c rest =>
        have hc : isHex c = false := by simpa using hrest
        rw [List.takeWhile_cons_of_neg]
        rw [hc]
        decide
  have hdrop : rest.dropWhile isHex = rest := by
    cases rest with
    | nil => rfl
    | cons c rest =>
        have hc : isHex c = false := by simpa using hrest
        rw [List.dropWhile_cons_of_neg]
        rw [hc]
        decide
  constructor
  · rw [List.takeWhile_append_of_pos hall, htake, List.append_nil]
  · rw [List.dropWhile_append_of_pos hall, hdrop]

/-- What follows a `:` is a digit. -/
theorem piecesText_cons (p : Nat) (ps : List Nat) :
    ∃ c s, piecesText (p :: ps) = c :: s ∧ c ≠ ':' := by
  obtain ⟨hne, -, hall⟩ := pieceText_spec p
  obtain ⟨c, s, hp⟩ := List.exists_cons_of_ne_nil hne
  have hc : c ≠ ':' := by
    rintro rfl
    have hcolon := hall ':' (by rw [hp]; exact List.mem_cons_self)
    exact absurd hcolon (by decide)
  cases ps with
  | nil => exact ⟨c, s, hp, hc⟩
  | cons q ps =>
      exact ⟨c, s ++ ':' :: piecesText (q :: ps), by
        show pieceText p ++ _ = _
        rw [hp]
        rfl, hc⟩

theorem pieceText_digits (p : Nat) :
    ¬ (pieceText p = [] ∨ 4 < (pieceText p).length) := by
  obtain ⟨hne, hlength, -⟩ := pieceText_spec p
  rw [not_or]
  exact ⟨hne, Nat.not_lt.mpr hlength⟩

theorem groups_last (n p : Nat) (ellipsis : Bool) :
    groups (n + 1) ellipsis (pieceText p) = some (n, ellipsis, []) := by
  obtain ⟨htake, hdrop⟩ := takeWhile_pieceText p [] rfl
  rw [List.append_nil] at htake hdrop
  rw [groups]
  simp only [htake, hdrop]
  rw [if_neg (pieceText_digits p)]

/-- A piece is read, and the next one after its colon. -/
theorem groups_next (n p q : Nat) (ellipsis : Bool) (ps : List Nat)
    (rest : Chars) :
    groups (n + 1) ellipsis
        (pieceText p ++ ':' :: (piecesText (q :: ps) ++ rest))
      = groups n ellipsis (piecesText (q :: ps) ++ rest) := by
  obtain ⟨c, s, hs, hc⟩ := piecesText_cons q ps
  rw [hs, List.cons_append]
  generalize s ++ rest = t
  have hcut := takeWhile_pieceText p (':' :: c :: t) rfl
  obtain ⟨htake, hdrop⟩ := hcut
  rw [groups]
  simp only [htake, hdrop]
  rw [if_neg (pieceText_digits p)]
  split
  case h_1 heq => cases heq
  case h_2 heq => cases heq
  case h_3 heq => cases heq
  case h_4 heq =>
    cases heq
    exact absurd rfl hc
  case h_5 heq =>
    cases heq
    exact absurd rfl hc
  case h_6 heq =>
    cases heq
    rfl
  case h_7 hother => exact absurd rfl (hother _)

theorem groups_ellipsis_last (n p : Nat) :
    groups (n + 1) false (pieceText p ++ [':', ':'])
      = some (n, true, []) := by
  obtain ⟨htake, hdrop⟩ := takeWhile_pieceText p [':', ':'] rfl
  rw [groups]
  simp only [htake, hdrop]
  rw [if_neg (pieceText_digits p)]
  rfl

theorem groups_ellipsis (n p q : Nat) (ps : List Nat) :
    groups (n + 1) false
        (pieceText p ++ ':' :: ':' :: piecesText (q :: ps))
      = groups n true (piecesText (q :: ps)) := by
  obtain ⟨c, s, hs, -⟩ := piecesText_cons q ps
  obtain ⟨htake, hdrop⟩ := takeWhile_pieceText p
    (':' :: ':' :: c :: s) rfl
  rw [hs, groups]
  simp only [htake, hdrop]
  rw [if_neg (pieceText_digits p)]
  rfl

/-- The pieces are read one by one. -/
theorem groups_pieces {ps : List Nat} (hne : ps ≠ []) {n : Nat}
    {ellipsis : Bool} (hn : ps.length ≤ n) :
    groups n ellipsis (piecesText ps)
      = some (n - ps.length, ellipsis, []) := by
  induction ps generalizing n with
  | nil => exact absurd rfl hne
  | cons p ps ih =>
      cases n with
      | zero => cases hn
      | succ n =>
          cases ps with
          | nil => exact groups_last n p ellipsis
          | cons q ps =>
              have hnext := groups_next n p q ellipsis ps []
              rw [List.append_nil] at hnext
              show groups (n + 1) ellipsis
                (pieceText p ++ ':' :: piecesText (q :: ps)) = _
              rw [hnext, ih (List.cons_ne_nil q ps) (Nat.le_of_succ_le_succ hn)]
              congr 2
              simp only [List.length_cons]
              omega

/-- The pieces before an ellipsis, and those after it. -/
theorem groups_around {before after : List Nat} (hne : before ≠ [])
    {n : Nat} (hn : before.length + after.length ≤ n) :
    groups n false
        (piecesText before ++ ':' :: ':' :: piecesText after)
      = some (n - (before.length + after.length), true, []) := by
  induction before generalizing n with
  | nil => exact absurd rfl hne
  | cons p before ih =>
      cases n with
      | zero =>
          rw [List.length_cons] at hn
          omega
      | succ n =>
          rw [List.length_cons] at hn ⊢
          cases before with
          | nil =>
              cases after with
              | nil => exact groups_ellipsis_last n p
              | cons q after =>
                  rw [piecesText, groups_ellipsis, groups_pieces
                    (List.cons_ne_nil q after) (by simp at hn ⊢; omega)]
                  simp only [List.length_nil, List.length_cons]
                  congr 2
                  omega
          | cons q before =>
              show groups (n + 1) false ((pieceText p ++ ':' ::
                piecesText (q :: before)) ++ _) = _
              rw [List.append_assoc, List.cons_append, groups_next,
                ih (List.cons_ne_nil q before) (by omega)]
              congr 2
              omega

/-- What is left out for `::` is two pieces at least. -/
theorem compressed_spec {ps : List Nat} {i : Nat} (hlength : ps.length = 8)
    (h : compressed ps = some i) :
    (ps.take i).length + ((ps.drop i).dropWhile (· = 0)).length ≤ 6 := by
  unfold compressed at h
  simp only at h
  split at h
  case isTrue => cases h
  case isFalse hlong =>
    have hrun := List.find?_some h
    rw [decide_eq_true_eq] at hrun
    have hsplit := congrArg List.length
      (List.takeWhile_append_dropWhile (p := fun p => decide (p = 0))
        (l := ps.drop i))
    rw [List.length_append, List.length_drop] at hsplit
    rw [List.length_take]
    unfold zeroRun at hrun hlong
    omega

/-- What is read without a colon in front. -/
theorem isIPv6_of_groups {s : Chars} {left : Nat} {ellipsis : Bool}
    (hhead : ∃ c t, s = c :: t ∧ c ≠ ':')
    (h : groups 8 false s = some (left, ellipsis, []))
    (hleft : if left = 0 then ellipsis = false else ellipsis = true) :
    isIPv6 s = true := by
  obtain ⟨c, t, rfl, hc⟩ := hhead
  unfold isIPv6
  split
  case h_1 heq =>
    cases heq
    exact absurd rfl hc
  case h_2 heq =>
    cases heq
    exact absurd rfl hc
  case h_3 =>
    rw [h]
    split at hleft
    case isTrue hzero =>
      subst hzero hleft
      rfl
    case isFalse hzero =>
      subst hleft
      show (true && if left = 0 then !true else true) = true
      rw [if_neg hzero]
      rfl

/-- What one writes the other reads. -/
theorem isIPv6_serialize {ps : List Nat} (hlength : ps.length = 8) :
    isIPv6 (serialize ps) = true := by
  have hfull : 0 < ps.length := by omega
  unfold serialize
  cases hc : compressed ps with
  | none =>
      obtain ⟨p, qs, rfl⟩ := List.exists_cons_of_length_pos hfull
      exact isIPv6_of_groups (piecesText_cons p qs)
        (groups_pieces (List.cons_ne_nil p qs) (Nat.le_of_eq hlength))
        (by rw [hlength]; rfl)
  | some i =>
      have hroom := compressed_spec hlength hc
      simp only
      generalize (ps.drop i).dropWhile (· = 0) = after at hroom ⊢
      generalize ps.take i = before at hroom ⊢
      cases before with
      | nil =>
          cases after with
          | nil => rfl
          | cons q after =>
              rw [List.length_nil, Nat.zero_add] at hroom
              obtain ⟨c, t, ht, -⟩ := piecesText_cons q after
              have hgroups : groups 8 true (piecesText (q :: after))
                  = some (8 - (q :: after).length, true, []) :=
                groups_pieces (List.cons_ne_nil q after) (by omega)
              rw [ht] at hgroups
              show isIPv6 (':' :: ':' :: piecesText (q :: after)) = true
              rw [ht]
              unfold isIPv6
              simp only
              rw [hgroups]
              show (true && if 8 - (q :: after).length = 0 then !true
                else true) = true
              rw [if_neg (by omega)]
              rfl
      | cons p before =>
          obtain ⟨c, t, ht, hcolon⟩ := piecesText_cons p before
          refine isIPv6_of_groups ⟨c, _, by rw [ht]; rfl, hcolon⟩
            (groups_around (List.cons_ne_nil p before) (by omega)) ?_
          rw [if_neg (by omega)]

theorem piecesText_chars {ps : List Nat} :
    ∀ c ∈ piecesText ps, isHex c = true ∨ c = ':' := by
  induction ps with
  | nil => exact fun c hc => absurd hc List.not_mem_nil
  | cons p ps ih =>
      have hp := (pieceText_spec p).2.2
      cases ps with
      | nil => exact fun c hc => Or.inl (hp c hc)
      | cons q ps =>
          intro c hc
          rcases List.mem_append.mp hc with hc | hc
          · exact Or.inl (hp c hc)
          · rcases List.mem_cons.mp hc with rfl | hc
            · exact Or.inr rfl
            · exact ih c hc

theorem serialize_chars {ps : List Nat} :
    ∀ c ∈ serialize ps, isHex c = true ∨ c = ':' := by
  intro c hc
  unfold serialize at hc
  split at hc
  case h_1 => exact piecesText_chars c hc
  case h_2 =>
    rcases List.mem_append.mp hc with hc | hc
    · exact piecesText_chars c hc
    · rcases List.mem_cons.mp hc with rfl | hc
      · exact Or.inr rfl
      · rcases List.mem_cons.mp hc with rfl | hc
        · exact Or.inr rfl
        · exact piecesText_chars c hc

-- =================================== parsing

/-- The loop finds eight pieces at most, and `::` among them. -/
theorem pieces_length {n : Nat} {ps ps' : List Nat} {c c' : Option Nat}
    {s : Chars} (hps : ps.length ≤ 8) (hc : ∀ i ∈ c, i ≤ ps.length)
    (h : pieces n ps c s = some (ps', c')) :
    ps'.length ≤ 8 ∧ ∀ i ∈ c', i ≤ ps'.length := by
  induction n generalizing ps c s with
  | zero => cases h
  | succ n ih =>
      cases s with
      | nil =>
          cases h
          exact ⟨hps, hc⟩
      | cons d s =>
          have hnext : ps.length ≠ 8 → ∀ p : Nat,
              (ps ++ [p]).length ≤ 8
                ∧ ∀ i ∈ c, i ≤ (ps ++ [p]).length := by
            intro hfull p
            rw [List.length_append, List.length_singleton]
            refine ⟨by omega, fun i hi => ?_⟩
            have := hc i hi
            omega
          rw [pieces] at h
          split at h
          case isTrue => cases h
          case isFalse hfull =>
          split at h
          case isTrue =>
            split at h
            case isTrue => cases h
            case isFalse =>
              refine ih (hnext hfull 0).1 (fun i hi => ?_) h
              cases hi
              simp
          case isFalse =>
          simp only at h
          split at h
          case h_1 =>
            split at h
            case isTrue => cases h
            case isFalse hroom =>
              split at h
              case h_1 =>
                cases h
                rw [List.length_append]
                refine ⟨by simp; omega, fun i hi => ?_⟩
                have := hc i hi
                omega
              case h_2 => cases h
          case h_2 => cases h
          case h_3 => exact ih (hnext hfull _).1 (hnext hfull _).2 h
          case h_4 => exact ih (hnext hfull _).1 (hnext hfull _).2 h
          case h_5 => cases h

/-- An address has eight pieces. -/
theorem parse_length {s : Chars} {ps : List Nat} (h : parse s = some ps) :
    ps.length = 8 := by
  have hfound : ∀ found : Option (List Nat × Option Nat),
      (∀ ps' c', found = some (ps', c') →
        ps'.length ≤ 8 ∧ ∀ i ∈ c', i ≤ ps'.length) →
      (match found with
        | none => none
        | some (ps, some i) => some
            (ps.take i ++ List.replicate (8 - ps.length) 0 ++ ps.drop i)
        | some (ps, none) => if ps.length = 8 then some ps else none)
          = some ps → ps.length = 8 := by
    intro found hspec h
    split at h
    case h_1 => cases h
    case h_2 ps' i =>
      cases h
      obtain ⟨hle, hi⟩ := hspec ps' (some i) rfl
      have := hi i rfl
      simp only [List.length_append, List.length_take, List.length_drop,
        List.length_replicate]
      omega
    case h_3 ps' =>
      split at h
      case isTrue hfull =>
        cases h
        exact hfull
      case isFalse => cases h
  refine hfound _ (fun ps' c' he => ?_) h
  split at he
  case h_1 =>
    refine pieces_length (by simp) (fun i hi => ?_) he
    cases hi
    exact Nat.le_refl 1
  case h_2 => cases he
  case h_3 => exact pieces_length (by simp) (fun i hi => by cases hi) he

end Address
