/-
What an encoding does to a text in parts.

An encoding writes each character on its own. Where it keeps a separator
and makes no other of it, the parts of what is written are what is
written of the parts (`splitOn_flatMap`, `cut_flatMap`). UTF-8 is one
(`utf8_high`), and so is percent-encoding, which every decoder undoes
(`percentDecode_encode`).
-/
import StreamBrew.Lib.HttpUrl

namespace Text

-- ================================ separators

section Separators

variable {α β : Type} [DecidableEq α] [DecidableEq β]

/-- What has no separator goes to the first piece. -/
theorem splitOn_append {d : β} {x : List β} (hx : d ∉ x) (y : List β) :
    (x ++ y).splitOn d = (y.splitOn d).modifyHead (x ++ ·) := by
  induction x with
  | nil =>
      obtain ⟨part, parts, hparts⟩ :=
        List.exists_cons_of_ne_nil (List.splitOn_ne_nil d y)
      rw [List.nil_append, hparts]
      rfl
  | cons c x ih =>
      have hc : (c == d) = false := by
        simpa using fun h => hx (by rw [h]; exact List.mem_cons_self)
      rw [List.cons_append, List.splitOn_cons_eq_if_modifyHead,
        if_neg (by simp [hc]),
        ih fun h => hx (List.mem_cons_of_mem c h)]
      obtain ⟨part, parts, hparts⟩ :=
        List.exists_cons_of_ne_nil (List.splitOn_ne_nil d y)
      rw [hparts]
      rfl

/-- No part has a separator. -/
theorem mem_splitOn {d : β} {s part : List β} (h : part ∈ s.splitOn d) :
    d ∉ part := by
  induction s generalizing part with
  | nil =>
      rw [List.mem_singleton.mp h]
      exact List.not_mem_nil
  | cons c s ih =>
      rw [List.splitOn_cons_eq_if_modifyHead] at h
      split at h
      case isTrue =>
        rcases List.mem_cons.mp h with rfl | h
        · exact List.not_mem_nil
        · exact ih h
      case isFalse hc =>
        obtain ⟨first, rest, hsplit⟩ :=
          List.exists_cons_of_ne_nil (List.splitOn_ne_nil d s)
        rw [hsplit] at h ih
        rcases List.mem_cons.mp h with rfl | h
        · intro hmem
          rcases List.mem_cons.mp hmem with rfl | hmem
          · exact hc (by simp)
          · exact ih List.mem_cons_self hmem
        · exact ih (List.mem_cons_of_mem first h)

variable {f : α → List β} {d : α} {e : β}

/-- Encoding keeps the separators where they are. -/
theorem splitOn_flatMap (hd : f d = [e]) (hf : ∀ c, c ≠ d → e ∉ f c)
    (s : List α) :
    (s.flatMap f).splitOn e = (s.splitOn d).map (List.flatMap f) := by
  induction s with
  | nil => rfl
  | cons c s ih =>
      rw [List.flatMap_cons]
      by_cases hc : c = d
      · rw [hc, hd, List.singleton_append,
          List.splitOn_cons_eq_if_modifyHead, if_pos (by simp), ih,
          List.splitOn_cons_eq_if_modifyHead, if_pos (by simp)]
        rfl
      · rw [splitOn_append (hf c hc), ih,
          List.splitOn_cons_eq_if_modifyHead (x := c), if_neg (by simp [hc])]
        obtain ⟨part, parts, hparts⟩ :=
          List.exists_cons_of_ne_nil (List.splitOn_ne_nil d s)
        rw [hparts, List.modifyHead_cons, List.map_cons, List.map_cons,
          List.modifyHead_cons, List.flatMap_cons]

/-- So it does with the first one. -/
theorem cut_flatMap (hd : f d = [e]) (hf : ∀ c, c ≠ d → e ∉ f c)
    (s : List α) :
    cut e (s.flatMap f)
      = ((cut d s).1.flatMap f, (cut d s).2.map (List.flatMap f)) := by
  have hfront : ∀ x : List α, (∀ c ∈ x, c ≠ d) →
      ∀ b ∈ x.flatMap f, b ≠ e := fun x hx b hb hbe => by
    obtain ⟨c, hc, hbc⟩ := List.mem_flatMap.mp hb
    exact hf c (hx c hc) (hbe ▸ hbc)
  have hbefore : ∀ c ∈ (cut d s).1, c ≠ d := fun c hc => by
    simpa using List.mem_takeWhile_imp hc
  cases ht : (cut d s).2 with
  | none =>
      rw [cut_none ht] at hbefore ⊢
      exact cut_absent (hfront s hbefore)
  | some t =>
      have hmap := congrArg (List.flatMap f) (cut_some ht)
      rw [List.flatMap_append, List.flatMap_cons, hd] at hmap
      rw [hmap]
      exact cut_before (hfront _ hbefore)

end Separators

/-- A character at the end that is not trimmed keeps all before it. -/
theorem trimEnd_append {α : Type} {p : α → Bool} {x : List α}
    (hne : x ≠ []) (hx : p (x.getLast hne) = false) (y : List α) :
    trimEnd p (x ++ y) = x ++ trimEnd p y := by
  unfold trimEnd
  rw [List.reverse_append, List.dropWhile_append]
  split
  case isTrue h =>
    rw [List.isEmpty_iff] at h
    have hrev : x.reverse = x.getLast hne :: x.dropLast.reverse := by
      conv => lhs; rw [← List.dropLast_concat_getLast hne]
      rw [List.reverse_append]
      rfl
    rw [h, List.reverse_nil, List.append_nil, hrev,
      List.dropWhile_cons_of_neg (by simp [hx]), ← hrev, List.reverse_reverse]
  case isFalse => rw [List.reverse_append, List.reverse_reverse]

theorem trimEnd_prefix {α : Type} (p : α → Bool) (s : List α) :
    trimEnd p s <+: s := by
  have h := List.dropWhile_suffix p (l := s.reverse)
  have hrev := List.reverse_prefix.mpr h
  rwa [List.reverse_reverse] at hrev

-- ===================================== UTF-8

/-- What holds of every ASCII character. -/
theorem forall_ascii {p : Char → Bool}
    (h : ∀ n : Fin 128, p (Char.ofNat n.1) = true) {c : Char}
    (hc : c.toNat < 128) : p c = true := by
  have hp := h ⟨c.toNat, hc⟩
  rwa [Char.ofNat_toNat] at hp

/-- What is checked of each character of a text. -/
theorem of_all {p : Char → Prop} [DecidablePred p] {s : Chars}
    (h : s.all (fun c => decide (p c)) = true) : ∀ c ∈ s, p c :=
  fun c hc => of_decide_eq_true (List.all_eq_true.mp h c hc)

theorem utf8_ascii {c : Char} (h : c.toNat < 128) :
    String.utf8EncodeChar c = [UInt8.ofNat c.toNat] := by
  simpa using forall_ascii (p := fun c =>
    String.utf8EncodeChar c = [UInt8.ofNat c.toNat]) (by decide) h

/-- A character beyond ASCII has only bytes beyond it. -/
theorem utf8_high {c : Char} (h : 128 ≤ c.toNat) :
    ∀ b ∈ String.utf8EncodeChar c, 128 ≤ b.toNat := by
  have hval : ¬ c.val.toNat ≤ 0x7F := fun hle => by
    have hnat : c.toNat = c.val.toNat := rfl
    omega
  have hbyte : ∀ n, 128 ≤ n → n < 256 → 128 ≤ (UInt8.ofNat n).toNat :=
    fun n hlow hhigh => by
      rw [UInt8.toNat_ofNat', Nat.mod_eq_of_lt hhigh]
      exact hlow
  intro b hb
  unfold String.utf8EncodeChar at hb
  simp only at hb
  rw [if_neg hval] at hb
  split at hb
  case isTrue =>
    simp only [List.mem_cons, List.not_mem_nil, or_false] at hb
    rcases hb with rfl | rfl <;> exact hbyte _ (by omega) (by omega)
  case isFalse =>
    split at hb
    case isTrue =>
      simp only [List.mem_cons, List.not_mem_nil, or_false] at hb
      rcases hb with rfl | rfl | rfl <;> exact hbyte _ (by omega) (by omega)
    case isFalse =>
      simp only [List.mem_cons, List.not_mem_nil, or_false] at hb
      rcases hb with rfl | rfl | rfl | rfl <;>
        exact hbyte _ (by omega) (by omega)

/-- An ASCII byte is that of one character. -/
theorem utf8_not_mem {c d : Char} (hd : d.toNat < 128) (h : c ≠ d) :
    UInt8.ofNat d.toNat ∉ String.utf8EncodeChar c := by
  have hnat : ∀ e : Char, e.toNat < 128 →
      (UInt8.ofNat e.toNat).toNat = e.toNat := fun e he => by
    rw [UInt8.toNat_ofNat']
    exact Nat.mod_eq_of_lt (by omega)
  intro hmem
  by_cases hc : c.toNat < 128
  · rw [utf8_ascii hc, List.mem_singleton] at hmem
    have heq := congrArg UInt8.toNat hmem
    rw [hnat d hd, hnat c hc] at heq
    refine h ?_
    rw [← Char.ofNat_toNat c, ← Char.ofNat_toNat d, heq]
  · have hhigh := utf8_high (Nat.le_of_not_lt hc) _ hmem
    rw [hnat d hd] at hhigh
    omega

theorem ascii_utf8 {c : Char} (h : c.toNat < 128) :
    ascii (UInt8.ofNat c.toNat) = c := by
  unfold ascii
  rw [UInt8.toNat_ofNat', Nat.mod_eq_of_lt (by omega), Char.ofNat_toNat]

/-- A text of ASCII, read back from its bytes. -/
theorem map_ascii_bytes {s : Chars} (h : ∀ c ∈ s, c.toNat < 128) :
    (bytes s).map ascii = s := by
  induction s with
  | nil => rfl
  | cons c s ih =>
      have hc := h c List.mem_cons_self
      show (String.utf8EncodeChar c ++ bytes s).map ascii = _
      rw [utf8_ascii hc, List.singleton_append, List.map_cons, ascii_utf8 hc,
        ih fun d hd => h d (List.mem_cons_of_mem c hd)]

end Text

namespace WebUrl

open Text

-- ========================== percent-encoding

theorem isHex_upperhex (n : Nat) : Address.isHex (Url.upperhex n) = true := by
  unfold Url.upperhex
  cases h : "0123456789ABCDEF".toList[n]? with
  | none => rfl
  | some c =>
      have hall : "0123456789ABCDEF".toList.all Address.isHex = true := by
        decide
      exact List.all_eq_true.mp hall c (List.mem_of_getElem? h)

theorem digitValue_upperhex {n : Nat} (h : n < 16) :
    Address.digitValue (Url.upperhex n) = n := by
  have hall : ∀ n : Fin 16, Address.digitValue (Url.upperhex n.1) = n.1 := by
    decide
  exact hall ⟨n, h⟩

/-- A character, written where it has to be. -/
def encodeChar (set : Char → Bool) (c : Char) : Chars :=
  if set c then (String.utf8EncodeChar c).flatMap percentEncodeByte else [c]

theorem percentEncode_eq (set : Char → Bool) (s : Chars) :
    percentEncode set s = s.flatMap (encodeChar set) := rfl

theorem encodeChar_self {set : Char → Bool} {c : Char}
    (h : set c = false) : encodeChar set c = [c] := by
  unfold encodeChar
  rw [h]
  rfl

theorem encodeChar_set {set : Char → Bool} {c : Char} (h : set c = true) :
    ∃ s, encodeChar set c = '%' :: s := by
  unfold encodeChar
  rw [if_pos h]
  obtain ⟨b, t, ht⟩ :=
    List.exists_cons_of_ne_nil (String.utf8EncodeChar_ne_nil (c := c))
  rw [ht]
  exact ⟨_, rfl⟩

/-- An encoding makes no separator. -/
theorem not_mem_encodeChar {set : Char → Bool} {c d : Char} (hc : c ≠ d)
    (hd : d ≠ '%') (hhex : Address.isHex d = false) :
    d ∉ encodeChar set c := by
  unfold encodeChar
  split
  case isFalse => simpa using fun h => hc h.symm
  case isTrue =>
    intro hmem
    obtain ⟨b, -, hb⟩ := List.mem_flatMap.mp hmem
    unfold percentEncodeByte at hb
    simp only [List.mem_cons, List.not_mem_nil, or_false] at hb
    rcases hb with rfl | rfl | rfl
    · exact hd rfl
    · rw [isHex_upperhex] at hhex
      cases hhex
    · rw [isHex_upperhex] at hhex
      cases hhex

theorem percentEncode_self {set : Char → Bool} {s : Chars}
    (h : ∀ c ∈ s, set c = false) : percentEncode set s = s := by
  induction s with
  | nil => rfl
  | cons c s ih =>
      rw [percentEncode_eq, List.flatMap_cons, ← percentEncode_eq,
        encodeChar_self (h c List.mem_cons_self),
        ih fun d hd => h d (List.mem_cons_of_mem c hd)]
      rfl

/-- What is encoded to a word that needs none is that word. -/
theorem percentEncode_eq_plain {set : Char → Bool} {s t : Chars}
    (ht : ∀ c ∈ t, c ≠ '%') (h : percentEncode set s = t) : s = t := by
  subst h
  induction s with
  | nil => rfl
  | cons c s ih =>
      rw [percentEncode_eq, List.flatMap_cons, ← percentEncode_eq] at ht ⊢
      cases hc : set c with
      | true =>
          obtain ⟨u, hu⟩ := encodeChar_set hc
          rw [hu] at ht
          exact absurd rfl (ht '%' List.mem_cons_self)
      | false =>
          rw [encodeChar_self hc] at ht ⊢
          exact congrArg (c :: ·)
            (ih fun d hd => ht d (List.mem_cons_of_mem c hd))

-- ================================== decoding

/-- A plus sign is a space. -/
def unplus (c : Char) : Char := if c = '+' then ' ' else c

/-- The first two characters are those of an escape. -/
def hexPair : Chars → Bool
  | a :: b :: _ => Address.isHex a && Address.isHex b
  | _ => false

theorem percentDecode_cons {c : Char} (h : c ≠ '%') (s : Chars) :
    percentDecode (c :: s) = String.utf8EncodeChar c ++ percentDecode s := by
  cases s with
  | nil => rw [percentDecode]; simp
  | cons a s =>
      cases s with
      | nil => rw [percentDecode]; simp
      | cons b s => rw [percentDecode]; simp [h]

theorem percentDecode_percent {s : Chars} (h : hexPair s = false) :
    percentDecode ('%' :: s) = 0x25 :: percentDecode s := by
  match s, h with
  | [], _ => rfl
  | [a], _ => rfl
  | a :: b :: s, h =>
      have hnot : ¬ (Address.isHex a = true ∧ Address.isHex b = true) := by
        simpa [hexPair] using h
      rw [percentDecode, if_neg hnot]

theorem percentDecode_hexPair {a b : Char} (s : Chars)
    (ha : Address.isHex a = true) (hb : Address.isHex b = true) :
    percentDecode ('%' :: a :: b :: s)
      = UInt8.ofNat (16 * Address.digitValue a + Address.digitValue b)
        :: percentDecode s := by
  rw [percentDecode, if_pos ⟨ha, hb⟩]

/-- An escape stands for its byte. -/
theorem percentDecode_encodeBytes (bs : Bytes) (s : Chars) :
    percentDecode ((bs.flatMap percentEncodeByte).map unplus ++ s)
      = bs ++ percentDecode s := by
  induction bs with
  | nil => rfl
  | cons b bs ih =>
      have hhex : ∀ n, unplus (Url.upperhex n) = Url.upperhex n := fun n => by
        unfold unplus
        refine if_neg fun h => ?_
        have hplus := isHex_upperhex n
        rw [h] at hplus
        cases hplus
      rw [List.flatMap_cons, List.map_append, List.append_assoc]
      show percentDecode ('%' :: unplus (Url.upperhex (b.toNat / 16))
        :: unplus (Url.upperhex (b.toNat % 16))
        :: ((bs.flatMap percentEncodeByte).map unplus ++ s)) = _
      rw [hhex, hhex,
        percentDecode_hexPair _ (isHex_upperhex _) (isHex_upperhex _),
        ih, digitValue_upperhex (Nat.div_lt_of_lt_mul b.toNat_lt),
        digitValue_upperhex (Nat.mod_lt _ (by omega)), Nat.div_add_mod,
        UInt8.ofNat_toNat]
      rfl

/-- A set that leaves the characters of escapes. -/
def Leaves (set : Char → Bool) : Prop :=
  set '%' = false ∧ set '+' = false
    ∧ ∀ c, Address.isHex c = true → set c = false

theorem isHex_unplus (c : Char) :
    Address.isHex (unplus c) = Address.isHex c := by
  unfold unplus
  split
  case isTrue h =>
    rw [h]
    rfl
  case isFalse => rfl

theorem hexPair_unplus (s : Chars) : hexPair (s.map unplus) = hexPair s := by
  match s with
  | [] | [_] => rfl
  | a :: b :: s =>
      show (Address.isHex (unplus a) && Address.isHex (unplus b)) = _
      rw [isHex_unplus, isHex_unplus]
      rfl

/-- Encoding makes no pair of digits, and breaks none. -/
theorem hexPair_encode {set : Char → Bool} (hset : Leaves set) (s : Chars) :
    hexPair (percentEncode set s) = hexPair s := by
  have hnot : ∀ c, set c = true → Address.isHex c = false := fun c hc => by
    cases hb : Address.isHex c with
    | false => rfl
    | true =>
        rw [hset.2.2 c hb] at hc
        cases hc
  have hpercent : ∀ u, hexPair ('%' :: u) = false := fun u => by
    cases u <;> rfl
  match s with
  | [] => rfl
  | a :: s =>
    rw [percentEncode_eq, List.flatMap_cons]
    cases ha : set a with
    | true =>
        obtain ⟨u, hu⟩ := encodeChar_set ha
        rw [hu, List.cons_append, hpercent]
        cases s with
        | nil => rfl
        | cons b s => simp [hexPair, hnot a ha]
    | false =>
        rw [encodeChar_self ha]
        match s with
        | [] => rfl
        | b :: s =>
          rw [List.flatMap_cons]
          cases hb : set b with
          | true =>
              obtain ⟨u, hu⟩ := encodeChar_set hb
              have hzero : Address.isHex '%' = false := rfl
              rw [hu]
              simp [hexPair, hnot b hb, hzero]
          | false =>
              rw [encodeChar_self hb]
              rfl

/-- What is encoded decodes to what it would decode to without. -/
theorem percentDecode_encode {set : Char → Bool} (hset : Leaves set)
    (s : Chars) :
    percentDecode ((percentEncode set s).map unplus)
      = percentDecode (s.map unplus) := by
  have hcons : ∀ c s, percentEncode set (c :: s)
      = encodeChar set c ++ percentEncode set s := fun c s => rfl
  induction h : s.length using Nat.strongRecOn generalizing s with
  | ind n ih =>
  match s with
  | [] => rfl
  | c :: t =>
    have ht : ∀ u : Chars, u.length ≤ t.length →
        percentDecode ((percentEncode set u).map unplus)
          = percentDecode (u.map unplus) := fun u hu =>
      ih u.length (by rw [← h]; exact Nat.lt_succ_of_le hu) u rfl
    by_cases hc : c = '%'
    · rw [hc, hcons, encodeChar_self hset.1]
      show percentDecode ('%' :: (percentEncode set t).map unplus)
        = percentDecode ('%' :: t.map unplus)
      cases hpair : hexPair t with
      | false =>
          rw [percentDecode_percent, percentDecode_percent, ht t (le_refl _)]
          · rw [hexPair_unplus, hpair]
          · rw [hexPair_unplus, hexPair_encode hset, hpair]
      | true =>
          match t, hpair, ht with
          | a :: b :: u, hpair, ht =>
            have hab := Bool.and_eq_true_iff.mp hpair
            rw [hcons, hcons, encodeChar_self (hset.2.2 a hab.1),
              encodeChar_self (hset.2.2 b hab.2)]
            show percentDecode ('%' :: unplus a :: unplus b
              :: (percentEncode set u).map unplus)
              = percentDecode ('%' :: unplus a :: unplus b :: u.map unplus)
            rw [percentDecode_hexPair, percentDecode_hexPair, ht u]
            · simp only [List.length_cons]
              omega
            all_goals rw [isHex_unplus]
            exacts [hab.1, hab.2, hab.1, hab.2]
    · have hplus : unplus c ≠ '%' := by
        unfold unplus
        split
        case isTrue => decide
        case isFalse => exact hc
      rw [hcons, List.map_append, List.map_cons, percentDecode_cons hplus,
        ← ht t (le_refl _)]
      cases hs : set c with
      | false =>
          rw [encodeChar_self hs]
          exact percentDecode_cons hplus _
      | true =>
          have hkeep : unplus c = c := by
            unfold unplus
            refine if_neg fun h => ?_
            rw [h, hset.2.1] at hs
            cases hs
          unfold encodeChar
          rw [if_pos hs, percentDecode_encodeBytes, hkeep]

theorem isHex_lt {c : Char} (h : Address.isHex c = true) : c.toNat < 128 := by
  have hle : ∀ a b : Char, a ≤ b → a.toNat ≤ b.toNat := fun _ _ hab => hab
  unfold Address.isHex Char.isDigit at h
  simp only [Bool.or_eq_true, Bool.and_eq_true, decide_eq_true_eq] at h
  rcases h with (⟨-, h⟩ | ⟨-, h⟩) | ⟨-, h⟩
  · have hnat : c.toNat ≤ 57 := h
    omega
  · have hnat : c.toNat ≤ 102 := hle _ _ h
    omega
  · have hnat : c.toNat ≤ 70 := hle _ _ h
    omega

theorem digitValue_lt {c : Char} (h : Address.isHex c = true) :
    Address.digitValue c < 16 := by
  have hall := forall_ascii (p := fun c => !Address.isHex c
    || decide (Address.digitValue c < 16)) (by decide) (isHex_lt h)
  simpa [h] using hall

theorem leaves_specialQuerySet : Leaves specialQuerySet := by
  refine ⟨by decide, by decide, fun c hc => ?_⟩
  have hall :=
    forall_ascii (p := fun c => !Address.isHex c || !specialQuerySet c)
    (by decide) (isHex_lt hc)
  simpa [hc] using hall

theorem formDecode_encode (s : Chars) :
    formDecode (percentEncode specialQuerySet s) = formDecode s :=
  congrArg Utf8.decode (percentDecode_encode leaves_specialQuerySet s)

end WebUrl
