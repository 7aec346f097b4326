/-
Which targets a node accepts.

Nothing about the shape of a server URL that the web server accepts
stands in the way of the node, whose parser decodes what stands
percent-encoded: the host, the path and the key are accepted as far as
they can be decoded there, and the key as far as what it is decoded to.
-/
import StreamBrew.Restream.Proofs.ServerURL

namespace StreamBrew.Restream

open Text
open Utf16 (Units decode isSpace isSpaceCode)

-- ================================== decoding

/-- A hexadecimal digit is less than 16. -/
theorem unhex_lt {c : Char} {x : Nat} (h : Url.unhex c = some x) :
    x < 16 := by
  have hle : ∀ a b : Char, a ≤ b → a.toNat ≤ b.toNat := fun _ _ hab => hab
  unfold Url.unhex at h
  split at h
  case isTrue hc =>
    cases h
    have hu := hle _ _ hc.2
    simp only [Char.reduceToNat] at hu ⊢
    omega
  case isFalse =>
    split at h
    case isTrue hc =>
      cases h
      have hu := hle _ _ hc.2
      simp only [Char.reduceToNat] at hu ⊢
      omega
    case isFalse =>
      split at h
      case isTrue hc =>
        cases h
        have hu := hle _ _ hc.2
        simp only [Char.reduceToNat] at hu ⊢
        omega
      case isFalse => cases h

/-- The escapes that are decoded: in a host only some are. -/
def decoded (mode : Url.Mode) (x y : Nat) : Bool :=
  mode != .host || 8 ≤ x || (x = 2 && y = 5)

/-- The characters that stand for themselves. -/
def stands (mode : Url.Mode) (c : Char) : Bool :=
  !(mode = .host && c.toNat < 0x80 && Url.shouldEscape c mode)

/-- A hexadecimal digit stands for itself in every part of a URL. -/
theorem stands_of_unhex {mode : Url.Mode} {c : Char} {x : Nat}
    (h : Url.unhex c = some x) : stands mode c = true := by
  have halnum : Url.isAlphanum c = true := by
    unfold Url.unhex at h
    unfold Url.isAlphanum
    split at h
    case isTrue hc => simp [hc.1, hc.2]
    case isFalse =>
      split at h
      case isTrue hc =>
        have hz : c ≤ 'z' := Nat.le_trans hc.2 (by decide)
        simp [hc.1, hz]
      case isFalse =>
        split at h
        case isTrue hc =>
          have hz : c ≤ 'Z' := Nat.le_trans hc.2 (by decide)
          simp [hc.1, hz]
        case isFalse => cases h
  unfold stands Url.shouldEscape
  rw [if_pos halnum, Bool.and_false]
  rfl

/-- What can be decoded. -/
theorem unescape_isSome (mode : Url.Mode) (s : Chars) :
    (Url.unescape mode s).isSome
      = (escapesAll (decoded mode) s
        && s.all fun c => c = '%' || stands mode c) := by
  induction s using escapesAll.induct with
  | case1 => rfl
  | case2 a b s ih =>
      rw [Url.unescape, escapesAll]
      cases ha : Url.unhex a with
      | none => rfl
      | some x =>
          cases hb : Url.unhex b with
          | none => rfl
          | some y =>
              have hsa : stands mode a = true := stands_of_unhex ha
              have hsb : stands mode b = true := stands_of_unhex hb
              simp only [Option.any_some, List.all_cons, decide_true,
                Bool.true_or, hsa, hsb, Bool.or_true, Bool.true_and]
              split
              case isTrue hdenied =>
                have hnot : decoded mode x y = false := by
                  obtain ⟨rfl, hx, hxy⟩ := hdenied
                  unfold decoded
                  simp only [bne_self_eq_false, Bool.false_or,
                    Bool.or_eq_false_iff, decide_eq_false_iff_not,
                    Bool.and_eq_false_iff]
                  refine ⟨by omega, ?_⟩
                  by_cases h2 : x = 2
                  · exact Or.inr fun h5 => hxy (by rw [h2, h5])
                  · exact Or.inl h2
                rw [hnot]
                rfl
              case isFalse hallowed =>
                have hyes : decoded mode x y = true := by
                  unfold decoded
                  by_contra hnot
                  simp only [Bool.not_eq_true, Bool.or_eq_false_iff,
                    bne_eq_false_iff_eq, decide_eq_false_iff_not,
                    Bool.and_eq_false_iff] at hnot
                  obtain ⟨⟨hmode, hx⟩, hxy⟩ := hnot
                  refine hallowed ⟨hmode, by omega, fun he => ?_⟩
                  cases he
                  rcases hxy with h | h
                  · exact h rfl
                  · exact h rfl
                rw [hyes, Option.isSome_map, ih]
                rfl
  | case3 c s hc ih =>
      rw [Url.unescape.eq_3 _ _ _ hc, escapesAll.eq_3 _ _ _ hc]
      by_cases hpercent : c = '%'
      · subst hpercent
        rfl
      · rw [if_neg hpercent]
        have hbne : (c != '%') = true := by simpa using hpercent
        simp only [List.all_cons, hpercent, decide_false, Bool.false_or,
          hbne, Bool.true_and]
        split
        case isTrue hdenied =>
          have hnot : stands mode c = false := by
            obtain ⟨hmode, hlt, hescape⟩ := hdenied
            unfold stands
            rw [decide_eq_true hmode, decide_eq_true hlt, hescape]
            rfl
          rw [hnot, Bool.false_and, Bool.and_false]
          rfl
        case isFalse hallowed =>
          have hyes : stands mode c = true := by
            unfold stands
            by_contra hnot
            simp only [Bool.not_eq_true, Bool.not_eq_false',
              Bool.and_eq_true, decide_eq_true_eq] at hnot
            exact hallowed ⟨hnot.1.1, hnot.1.2, hnot.2⟩
          rw [Option.isSome_map, ih, hyes, Bool.true_and]

/-- What has no `%` has no escape that is not allowed. -/
theorem escapesAll_of_bare {allowed : Nat → Nat → Bool} {s : Chars}
    (h : ∀ c ∈ s, c ≠ '%') : escapesAll allowed s = true := by
  induction s with
  | nil => rfl
  | cons c s ih =>
      have hc := h c List.mem_cons_self
      rw [escapesAll.eq_3]
      · rw [ih fun d hd => h d (List.mem_cons_of_mem c hd)]
        simpa using hc
      · intro a b s' he
        exact absurd he hc

/-- A text that is not empty is not unescaped to nothing. -/
theorem unescape_ne_nil {mode : Url.Mode} {s : Chars} {t : Bytes}
    (hs : s ≠ []) (h : Url.unescape mode s = some t) : t ≠ [] := by
  unfold Url.unescape at h
  split at h
  case h_1 => exact absurd rfl hs
  case h_2 =>
    split at h
    case h_1 =>
      split at h
      case isTrue => cases h
      case isFalse =>
        obtain ⟨t, -, rfl⟩ := Option.map_eq_some_iff.mp h
        exact List.cons_ne_nil _ _
    case h_2 => cases h
  case h_3 c _ _ =>
    split at h
    case isTrue => cases h
    case isFalse =>
      split at h
      case isTrue => cases h
      case isFalse =>
        obtain ⟨t, -, rfl⟩ := Option.map_eq_some_iff.mp h
        refine List.append_ne_nil_of_left_ne_nil ?_ _
        split
        case isTrue => exact List.cons_ne_nil _ _
        case isFalse => exact String.utf8EncodeChar_ne_nil

/-- A text that begins an escape where it should is decoded, byte by
byte, to bytes that have a property, if its escapes denote such. -/
theorem unescape_fragment {p : UInt8 → Bool} {s : Chars}
    (h : ∀ c ∈ s, (String.utf8EncodeChar c).all p = true) :
    (Url.unescape .fragment s).any (fun t => t.all p)
      = escapesAll (fun x y => p (UInt8.ofNat (16 * x + y))) s := by
  induction s using escapesAll.induct with
  | case1 => rfl
  | case2 a b s ih =>
      have hs : ∀ c ∈ s, (String.utf8EncodeChar c).all p = true :=
        fun c hc => h c (by simp [hc])
      rw [Url.unescape, escapesAll]
      cases ha : Url.unhex a with
      | none => rfl
      | some x =>
          cases hb : Url.unhex b with
          | none => rfl
          | some y =>
              simp only [Option.any_some]
              rw [if_neg (by simp), ← ih hs]
              cases Url.unescape .fragment s with
              | none => exact (Bool.and_false _).symm
              | some t => rfl
  | case3 c s hc ih =>
      have hs : ∀ d ∈ s, (String.utf8EncodeChar d).all p = true :=
        fun d hd => h d (List.mem_cons_of_mem c hd)
      rw [Url.unescape.eq_3 _ _ _ hc, escapesAll.eq_3 _ _ _ hc]
      by_cases hpercent : c = '%'
      · subst hpercent
        rfl
      · have hbne : (c != '%') = true := by simpa using hpercent
        have hp := h c List.mem_cons_self
        rw [if_neg hpercent, if_neg (by simp), ← ih hs, hbne,
          Bool.true_and]
        cases Url.unescape .fragment s with
        | none => rfl
        | some t =>
            rw [Option.map_some, Option.any_some, Option.any_some,
              if_neg (by simp), List.all_append, hp, Bool.true_and]

-- ================================ characters

/-- A character of an authority or of a path. -/
def hierarchyChar (c : Char) : Bool :=
  0x20 < c.toNat && c.toNat < 0x7F && c != '#' && c != '?'

/-- The characters of a host and its port. -/
def authorityChar (c : Char) : Bool :=
  hierarchyChar c && c != '/' && c != '@'

/-- The characters of a host that need no encoding there. -/
def bareHost (c : Char) : Bool :=
  (c = '%' || stands .host c) == (c ∉ "`{}".toList)

theorem opaqueChar_spec {c : Char} (h : opaqueChar c = true) :
    authorityChar c = true ∧ c ≠ ':' ∧ c ≠ '[' ∧ bareHost c = true := by
  have hlt : c.toNat < 128 := by
    unfold opaqueChar at h
    rw [Bool.and_eq_true, Bool.not_eq_true'] at h
    exact lt_of_printable h.1
  have hall := of_ascii (p := fun c => !opaqueChar c
    || (authorityChar c && c != ':' && c != '[' && bareHost c))
    (by decide) hlt
  rw [h] at hall
  simpa [and_assoc] using hall

theorem pathChar_hierarchy {c : Char} (h : pathChar c = true) :
    hierarchyChar c = true := by
  have hlt : c.toNat < 128 := by
    unfold pathChar WebUrl.pathSet WebUrl.querySet at h
    simp only [Bool.not_eq_true', Bool.or_eq_false_iff] at h
    exact lt_of_printable h.1.1
  have hall := of_ascii (p := fun c => !pathChar c || hierarchyChar c)
    (by decide) hlt
  rw [h] at hall
  exact hall

/-- The characters of an address in brackets and of a port. -/
def bracketChar (c : Char) : Bool := Address.isHex c || c ∈ "[]:".toList

theorem bracketChar_lt {c : Char} (h : bracketChar c = true) :
    c.toNat < 128 := by
  have hle : ∀ a b : Char, a ≤ b → a.toNat ≤ b.toNat := fun _ _ hab => hab
  unfold bracketChar Address.isHex Char.isDigit at h
  simp only [Bool.or_eq_true, Bool.and_eq_true, decide_eq_true_eq] at h
  rcases h with ((⟨-, h⟩ | ⟨-, h⟩) | ⟨-, h⟩) | h
  · exact Nat.lt_of_le_of_lt (hle c '9' h) (by decide)
  · exact Nat.lt_of_le_of_lt (hle c 'f' h) (by decide)
  · exact Nat.lt_of_le_of_lt (hle c 'F' h) (by decide)
  · have hall : "[]:".toList.all (fun c => c.toNat < 128) = true := by decide
    exact of_decide_eq_true (List.all_eq_true.mp hall c h)

theorem bracketChar_spec {c : Char} (h : bracketChar c = true) :
    authorityChar c = true ∧ c ≠ '%' ∧ c ∉ "`{}".toList
      ∧ bareHost c = true := by
  have hall := of_ascii (p := fun c => !bracketChar c
    || (authorityChar c && c != '%' && !decide (c ∈ "`{}".toList)
      && bareHost c))
    (by decide) (bracketChar_lt h)
  rw [h] at hall
  simp only [Bool.not_true, Bool.false_or, Bool.and_eq_true, bne_iff_ne,
    Bool.not_eq_true', decide_eq_false_iff_not] at hall
  exact ⟨hall.1.1.1, hall.1.1.2, hall.1.2, hall.2⟩

theorem portText_digits (port : Option Nat) :
    portText port = []
      ∨ ∃ digits, portText port = ':' :: digits
        ∧ ∀ c ∈ digits, c.isDigit = true := by
  cases port with
  | none => exact Or.inl rfl
  | some port =>
      exact Or.inr ⟨_, rfl, fun c hc =>
        Nat.isDigit_of_mem_toDigits (by decide) (by decide) hc⟩

theorem portText_chars {port : Option Nat} :
    ∀ c ∈ portText port, bracketChar c = true := by
  intro c hc
  unfold bracketChar Address.isHex
  rcases portText_digits port with h | ⟨digits, h, hdigits⟩
  · rw [h] at hc
    cases hc
  · rw [h] at hc
    rcases List.mem_cons.mp hc with rfl | hc
    · decide
    · rw [hdigits c hc]
      rfl

-- ===================================== parse

/-- A host that the web server accepts, and its port. -/
theorem parseHost_literal {address : List Nat} (hlength : address.length = 8)
    (port : Option Nat) :
    Url.parseHost ('[' :: Address.serialize address ++ ']' :: portText port)
      = some (bytes
          ('[' :: Address.serialize address ++ ']' :: portText port)) := by
  have hport : ∀ c ∈ (portText port).reverse, c ≠ ']' := by
    intro c hc he
    subst he
    rcases portText_digits port with h | ⟨digits, h, hdigits⟩
    · rw [h] at hc
      cases hc
    · rw [h, List.mem_reverse, List.mem_cons] at hc
      rcases hc with hc | hc
      · cases hc
      · exact absurd (hdigits ']' hc) (by decide)
  have hreverse : (Address.serialize address ++ ']' :: portText port).reverse
      = (portText port).reverse
        ++ ']' :: (Address.serialize address).reverse := by
    simp
  have hvalid : Url.validOptionalPort (portText port) = true := by
    rcases portText_digits port with h | ⟨digits, h, hdigits⟩
    · rw [h]
      rfl
    · rw [h]
      show (decide (':' = ':') && digits.all Char.isDigit) = true
      rw [List.all_eq_true.mpr hdigits]
      rfl
  show Url.parseLiteral (Address.serialize address ++ ']' :: portText port) = _
  unfold Url.parseLiteral
  rw [hreverse, takeWhile_before hport, dropWhile_before hport]
  simp only [List.reverse_reverse, List.drop_succ_cons, List.drop_zero]
  rw [if_pos ⟨by simp, hvalid, Address.isIPv6_serialize hlength⟩]
  rfl

theorem unescape_any {mode : Url.Mode} {s : Chars} (hs : s ≠ []) :
    (Url.unescape mode s).any (fun t => t ≠ [])
      = (Url.unescape mode s).isSome := by
  cases h : Url.unescape mode s with
  | none => rfl
  | some t => simpa using unescape_ne_nil hs h

/-- A host outside brackets is read by unescaping it with its port. -/
theorem parseHost_plain {host : Chars}
    (hchars : ∀ c ∈ host, opaqueChar c = true) (hne : host ≠ [])
    (port : Option Nat) :
    Url.parseHost (host ++ portText port)
      = Url.unescape .host (host ++ portText port) := by
  obtain ⟨d, rest, rfl⟩ := List.exists_cons_of_ne_nil hne
  have hcolon : ∀ c ∈ d :: rest, c ≠ ':' :=
    fun c hc => (opaqueChar_spec (hchars c hc)).2.1
  have hbracket : '[' ∉ d :: rest ++ portText port := by
    intro hmem
    rcases List.mem_append.mp hmem with hmem | hmem
    · exact (opaqueChar_spec (hchars _ hmem)).2.2.1 rfl
    · rcases portText_digits port with h | ⟨digits, h, hdigits⟩
      · rw [h] at hmem
        cases hmem
      · rw [h, List.mem_cons] at hmem
        rcases hmem with hmem | hmem
        · cases hmem
        · exact absurd (hdigits _ hmem) (by decide)
  unfold Url.parseHost
  split
  case h_1 literal he =>
    rw [List.cons_append] at he
    exact absurd (by rw [List.cons_append, he]; exact List.mem_cons_self)
      hbracket
  case h_2 =>
    rw [if_neg hbracket]
    rcases portText_digits port with h | ⟨digits, h, hdigits⟩
    · rw [h, List.append_nil, cut_absent hcolon]
    · rw [h, cut_before hcolon]
      simp only
      rw [if_pos (List.all_eq_true.mpr hdigits)]

/-- The host with its port, as they are written. -/
def ServerURL.authority (u : ServerURL) : Chars := u.host ++ portText u.port

theorem literal_chars {address : List Nat} :
    ∀ c ∈ '[' :: Address.serialize address ++ [']'],
      bracketChar c = true := by
  intro c hc
  rw [List.cons_append, List.mem_cons, List.mem_append] at hc
  rcases hc with rfl | hc | hc
  · decide
  · unfold bracketChar
    rcases Address.serialize_chars c hc with h | rfl
    · rw [h]
      rfl
    · decide
  · rw [List.mem_singleton.mp hc]
    decide

theorem Host.chars {host : Chars} (h : Host host) :
    ∀ c ∈ host, authorityChar c = true := by
  cases h with
  | literal => exact fun c hc => (bracketChar_spec (literal_chars c hc)).1
  | plain hchars => exact fun c hc => (opaqueChar_spec (hchars c hc)).1

namespace ServerURL

variable (u : ServerURL)

theorem authority_chars : ∀ c ∈ u.authority, authorityChar c = true := by
  intro c hc
  rcases List.mem_append.mp hc with hc | hc
  · exact u.isHost.chars c hc
  · exact (bracketChar_spec (portText_chars c hc)).1

theorem hierarchy_chars : ∀ c ∈ u.hierarchy, hierarchyChar c = true := by
  intro c hc
  rcases List.mem_append.mp hc with hc | hc
  · have hchar := u.authority_chars c hc
    unfold authorityChar at hchar
    rw [Bool.and_eq_true, Bool.and_eq_true] at hchar
    exact hchar.1.1
  · exact pathChar_hierarchy (u.pathChars c hc)

/-- Which hosts the node reads. -/
theorem parseHost_authority :
    (Url.parseHost u.authority).any (fun host => host ≠ [])
      = (u.authority.all (fun c => c ∉ "`{}".toList)
        && escapesAll (decoded .host) u.authority) := by
  unfold authority
  obtain ⟨scheme, host, port, path, mark, -, hhost, hne, -, -, -⟩ := u
  simp only
  cases hhost with
  | @literal address hlength =>
      have he : '[' :: Address.serialize address ++ [']'] ++ portText port
          = '[' :: Address.serialize address ++ ']' :: portText port := by simp
      have hchars : ∀ c ∈ '[' :: Address.serialize address
          ++ ']' :: portText port, bracketChar c = true := by
        intro c hc
        rw [← he] at hc
        rcases List.mem_append.mp hc with hc | hc
        · exact literal_chars c hc
        · exact portText_chars c hc
      rw [he, parseHost_literal hlength]
      rw [escapesAll_of_bare fun c hc => (bracketChar_spec (hchars c hc)).2.1]
      rw [List.all_eq_true.mpr fun c hc =>
        decide_eq_true (bracketChar_spec (hchars c hc)).2.2.1]
      rfl
  | plain hchars =>
      have hbare : ∀ c ∈ host ++ portText port, bareHost c = true := by
        intro c hc
        rcases List.mem_append.mp hc with hc | hc
        · exact (opaqueChar_spec (hchars c hc)).2.2.2
        · exact (bracketChar_spec (portText_chars c hc)).2.2.2
      have hall : (host ++ portText port).all
            (fun c => c = '%' || stands .host c)
          = (host ++ portText port).all fun c => c ∉ "`{}".toList := by
        rw [Bool.eq_iff_iff, List.all_eq_true, List.all_eq_true]
        refine forall₂_congr fun c hc => ?_
        rw [eq_of_beq (hbare c hc)]
      rw [parseHost_plain hchars hne,
        unescape_any (List.append_ne_nil_of_left_ne_nil hne _),
        unescape_isSome, hall, Bool.and_comm]

end ServerURL

theorem getScheme_rtmp {scheme rest : Chars}
    (h : scheme = "rtmp".toList ∨ scheme = "rtmps".toList) :
    Url.getScheme (scheme ++ ':' :: rest) = some (scheme, rest) := by
  rcases h with rfl | rfl
  · rfl
  · rfl

theorem hierarchyChar_spec {c : Char} (h : hierarchyChar c = true) :
    0x20 < c.toNat ∧ c.toNat < 0x7F ∧ c ≠ '#' ∧ c ≠ '?' := by
  unfold hierarchyChar at h
  simpa [and_assoc] using h

namespace ServerURL

variable (u : ServerURL)

/-- The characters of a server URL. -/
theorem text_chars :
    ∀ c ∈ u.text, 0x20 < c.toNat ∧ c.toNat < 0x7F ∧ c ≠ '#' := by
  intro c hc
  unfold text at hc
  rw [List.mem_append, List.mem_cons, List.mem_cons, List.mem_cons,
    List.mem_append] at hc
  have hscheme : ∀ s : Chars, s.all (fun c =>
      0x20 < c.toNat && c.toNat < 0x7F && c != '#') = true → c ∈ s →
      0x20 < c.toNat ∧ c.toNat < 0x7F ∧ c ≠ '#' := fun s hs hc => by
    simpa [and_assoc] using List.all_eq_true.mp hs c hc
  rcases hc with hc | rfl | rfl | rfl | hc | hc
  · rcases u.isRtmp with h | h
    · exact hscheme _ (by decide) (h ▸ hc)
    · exact hscheme _ (by decide) (h ▸ hc)
  · decide
  · decide
  · decide
  · obtain ⟨hlow, hhigh, hhash, -⟩ :=
      hierarchyChar_spec (u.hierarchy_chars c hc)
    exact ⟨hlow, hhigh, hhash⟩
  · rcases u.isMark with h | ⟨h, -⟩
    · rw [h] at hc
      cases hc
    · rw [h, List.mem_singleton] at hc
      subst hc
      decide

/-- The mark is no part of what is read before it. -/
theorem splitQuery_hierarchy :
    Url.splitQuery ('/' :: '/' :: (u.hierarchy ++ u.mark))
      = ('/' :: '/' :: u.hierarchy, decide (u.mark ≠ []), []) := by
  have hbare : ∀ c ∈ '/' :: '/' :: u.hierarchy, c ≠ '?' := by
    intro c hc
    rw [List.mem_cons, List.mem_cons] at hc
    rcases hc with rfl | rfl | hc
    · decide
    · decide
    · exact (hierarchyChar_spec (u.hierarchy_chars c hc)).2.2.2
  unfold Url.splitQuery
  rcases u.isMark with h | ⟨h, -⟩
  · rw [h, List.append_nil, if_neg, cut_absent hbare]
    · rfl
    · intro hlast
      exact hbare '?' (List.mem_of_getLast? hlast.1) rfl
  · have he : '/' :: '/' :: (u.hierarchy ++ u.mark)
        = ('/' :: '/' :: u.hierarchy) ++ ['?'] := by
      rw [h]
      rfl
    have hcount : ('/' :: '/' :: u.hierarchy).count '?' = 0 :=
      List.count_eq_zero.mpr fun hmem => hbare '?' hmem rfl
    rw [he, if_pos, List.dropLast_concat, h]
    · rfl
    · rw [List.getLast?_concat, List.count_append, hcount]
      exact ⟨rfl, rfl⟩

/-- What follows the authority. -/
theorem path_head {rest : Chars} (hrest : rest = [] ∨ u.path ≠ []) :
    u.path ++ rest = [] ∨ ∃ t, u.path ++ rest = '/' :: t := by
  rcases u.isPath with h | ⟨t, h⟩
  · rcases hrest with rfl | hne
    · rw [h]
      exact Or.inl rfl
    · exact absurd h hne
  · rw [h]
    exact Or.inr ⟨t ++ rest, rfl⟩

/-- The authority of a server URL ends where its path starts. -/
theorem takeWhile_authority {rest : Chars} (hrest : rest = [] ∨ u.path ≠ []) :
    (u.authority ++ (u.path ++ rest)).takeWhile (· ≠ '/') = u.authority
      ∧ (u.authority ++ (u.path ++ rest)).dropWhile (· ≠ '/')
        = u.path ++ rest := by
  have hbare : ∀ c ∈ u.authority, c ≠ '/' := by
    intro c hc
    have hchar := u.authority_chars c hc
    unfold authorityChar at hchar
    rw [Bool.and_eq_true, Bool.and_eq_true, bne_iff_ne] at hchar
    exact hchar.1.2
  rcases u.path_head hrest with h | ⟨t, h⟩
  · rw [h, List.append_nil]
    exact ⟨takeWhile_absent hbare, dropWhile_absent hbare⟩
  · rw [h]
    exact ⟨takeWhile_before hbare, dropWhile_before hbare⟩

/-- How the node reads a server URL. -/
theorem parseURI_text :
    Url.parseURI false u.text
      = (Url.parseHost u.authority).bind fun host =>
        Url.URL.setPath
          { scheme := u.scheme
            forceQuery := decide (u.mark ≠ [])
            host } u.path := by
  have hctl : ¬ u.text.any Url.isCTL = true := by
    intro hany
    obtain ⟨c, hc, hctl⟩ := List.any_eq_true.mp hany
    obtain ⟨hlow, hhigh, -⟩ := u.text_chars c hc
    unfold Url.isCTL at hctl
    simp only [Bool.or_eq_true, decide_eq_true_eq] at hctl
    omega
  have hne : u.text ≠ ['*'] := by
    unfold text
    intro he
    have hlength := congrArg List.length he
    simp only [List.length_append, List.length_cons, List.length_nil]
      at hlength
    omega
  have hscheme : u.scheme ≠ [] ∧ u.scheme.map Char.toLower = u.scheme := by
    rcases u.isRtmp with h | h
    · rw [h]
      decide
    · rw [h]
      decide
  have hat : '@' ∉ u.authority := by
    intro hmem
    exact absurd (u.authority_chars '@' hmem) (by decide)
  have hhierarchy : u.hierarchy = u.authority ++ (u.path ++ []) := by
    rw [List.append_nil]
    rfl
  obtain ⟨htake, hdrop⟩ := u.takeWhile_authority (Or.inl rfl)
  rw [← hhierarchy] at htake hdrop
  unfold Url.parseURI
  rw [if_neg hctl, if_neg (by simp), if_neg hne]
  unfold text
  rw [getScheme_rtmp u.isRtmp]
  simp only [u.splitQuery_hierarchy, List.head?_cons, if_true, hscheme.2]
  unfold Url.URL.setHierarchy
  rw [if_pos ⟨Or.inl hscheme.1, rfl⟩]
  simp only [List.drop_succ_cons, List.drop_zero, htake, hdrop,
    List.append_nil]
  unfold Url.parseAuthority
  rw [if_neg hat]
  cases Url.parseHost u.authority with
  | none => rfl
  | some host => rfl

end ServerURL

-- ================================ forwarding

/-- A byte that a key may not be decoded to. -/
def keyByte (b : UInt8) : Bool :=
  b ∉ ([0x23, 0x20, 0x09, 0x0D, 0x0A] : Bytes)

/-- What a node does with the target of a server URL and a key. -/
theorem validTargetURL_text (u : ServerURL) {key : Chars} (hkey : key ≠ []) :
    validTargetURL (u.text ++ '#' :: key)
      = ((Url.parseHost u.authority).any (fun host => host ≠ [])
        && (Url.unescape .path u.path).isSome
        && (Url.unescape .fragment key).any fun fragment =>
          fragment.all keyByte) := by
  have hhash : ∀ c ∈ u.text, c ≠ '#' := fun c hc => (u.text_chars c hc).2.2
  have hscheme : (decide (u.scheme = "rtmp".toList)
      || decide (u.scheme = "rtmps".toList)) = true := by
    rcases u.isRtmp with h | h
    · rw [h]
      rfl
    · rw [h]
      rfl
  obtain ⟨d, rest, rfl⟩ := List.exists_cons_of_ne_nil hkey
  unfold validTargetURL Url.parse
  rw [cut_before hhash]
  simp only [u.parseURI_text]
  cases Url.parseHost u.authority with
  | none => rfl
  | some host =>
      rw [Option.bind_some]
      unfold Url.URL.setPath
      cases Url.unescape .path u.path with
      | none => simp
      | some path =>
          simp only [Option.map_some]
          unfold Url.URL.setFragment
          cases hfragment : Url.unescape .fragment (d :: rest) with
          | none => simp
          | some fragment =>
              have hne := unescape_ne_nil (List.cons_ne_nil d rest) hfragment
              show ((decide (u.scheme = "rtmp".toList)
                  || decide (u.scheme = "rtmps".toList))
                && decide (host ≠ []) && true && true && decide (fragment ≠ [])
                && fragment.all keyByte)
                = (decide (host ≠ []) && true && fragment.all keyByte)
              rw [hscheme, decide_eq_true hne]
              simp only [Bool.true_and, Bool.and_true]

/-- The text of a server URL has its authority and its path where the
condition reads them. -/
theorem serverAuthority_text (u : ServerURL) :
    serverAuthority u.text = u.authority ∧ serverPath u.text = u.path := by
  have hscheme : ∀ c ∈ u.scheme ++ [':'], c ≠ '/' := by
    intro c hc
    rcases u.isRtmp with h | h
    · exact of_decide_eq_true (List.all_eq_true.mp
        (show ("rtmp".toList ++ [':']).all (fun c => c ≠ '/') = true by decide)
        c (h ▸ hc))
    · exact of_decide_eq_true (List.all_eq_true.mp
        (show ("rtmps".toList ++ [':']).all (fun c => c ≠ '/') = true by decide)
        c (h ▸ hc))
  have he : u.text = (u.scheme ++ [':'])
      ++ '/' :: '/' :: (u.authority ++ (u.path ++ u.mark)) := by
    unfold ServerURL.text ServerURL.hierarchy ServerURL.authority
    simp only [List.append_assoc, List.cons_append, List.nil_append]
  have hmark : u.mark = [] ∨ u.path ≠ [] := u.isMark.imp_right And.right
  obtain ⟨htake, hdrop⟩ := u.takeWhile_authority hmark
  have hbare : ∀ c ∈ u.path, c ≠ '?' := fun c hc =>
    (hierarchyChar_spec (pathChar_hierarchy (u.pathChars c hc))).2.2.2
  unfold serverAuthority serverPath
  rw [he, dropWhile_before hscheme]
  simp only [List.drop_succ_cons, List.drop_zero]
  refine ⟨htake, ?_⟩
  rw [hdrop]
  rcases u.isMark with h | ⟨h, -⟩
  · rw [h, List.append_nil]
    exact takeWhile_absent hbare
  · rw [h]
    exact takeWhile_before hbare

theorem isSpace_of_high {c : Char} (h : 0x10000 ≤ c.toNat) :
    isSpace c = false ∧ c ≠ '#' := by
  constructor
  · cases hspace : isSpace c with
    | false => rfl
    | true =>
        unfold isSpace Utf16.isSpaceCode at hspace
        simp only [List.mem_cons, List.not_mem_nil, or_false, Bool.or_eq_true,
          Bool.and_eq_true, decide_eq_true_eq] at hspace
        exfalso
        omega
  · intro hc
    subst hc
    exact absurd h (by decide)

/-- What holds of the characters of a key. -/
theorem key_chars {key : Units} (h : restreamStreamKeySchema key = true) :
    ∀ c ∈ decode key, isSpace c = false ∧ c ≠ '#' := by
  unfold restreamStreamKeySchema at h
  rw [Bool.and_eq_true, List.all_eq_true] at h
  intro c hc
  rcases Utf16.mem_decode hc with ⟨v, hv, he⟩ | rfl | hle
  · have hunit := h.2 v hv
    rw [Bool.and_eq_true, Bool.not_eq_true', bne_iff_ne] at hunit
    refine ⟨by unfold isSpace; rw [he]; exact hunit.1, fun hc => ?_⟩
    subst hc
    exact hunit.2 (UInt16.toNat_inj.mp he.symm)
  · decide
  · exact isSpace_of_high hle

/-- A byte that is not ASCII. -/
theorem keyByte_of_high {n : Nat} (hlow : 128 ≤ n) (hhigh : n < 256) :
    keyByte (UInt8.ofNat n) = true := by
  have hnat : (UInt8.ofNat n).toNat = n := by
    rw [UInt8.toNat_ofNat']
    exact Nat.mod_eq_of_lt hhigh
  refine decide_eq_true fun hmem => ?_
  have hall : ([0x23, 0x20, 0x09, 0x0D, 0x0A] : Bytes).all
      (fun b => b.toNat < 128) = true := by decide
  have hlt := of_decide_eq_true (List.all_eq_true.mp hall _ hmem)
  rw [hnat] at hlt
  omega

/-- The bytes of a character that a key may have. -/
theorem utf8EncodeChar_keyByte {c : Char} (hspace : isSpace c = false)
    (hhash : c ≠ '#') : (String.utf8EncodeChar c).all keyByte = true := by
  by_cases hlt : c.toNat < 128
  · have hall := of_ascii (p := fun c => isSpace c || c = '#'
      || (String.utf8EncodeChar c).all keyByte) (by decide) hlt
    rw [hspace, decide_eq_false hhash] at hall
    exact hall
  · have hhigh : ¬ c.val.toNat ≤ 0x7F := fun hle => hlt (Nat.lt_succ_of_le hle)
    unfold String.utf8EncodeChar
    simp only
    rw [if_neg hhigh]
    split
    case isTrue =>
      simp only [List.all_cons, List.all_nil, Bool.and_true, Bool.and_eq_true]
      exact ⟨keyByte_of_high (by omega) (by omega),
        keyByte_of_high (by omega) (by omega)⟩
    case isFalse =>
      split
      case isTrue =>
        simp only [List.all_cons, List.all_nil, Bool.and_true,
          Bool.and_eq_true]
        exact ⟨keyByte_of_high (by omega) (by omega),
          keyByte_of_high (by omega) (by omega),
          keyByte_of_high (by omega) (by omega)⟩
      case isFalse =>
        simp only [List.all_cons, List.all_nil, Bool.and_true,
          Bool.and_eq_true]
        exact ⟨keyByte_of_high (by omega) (by omega),
          keyByte_of_high (by omega) (by omega),
          keyByte_of_high (by omega) (by omega),
          keyByte_of_high (by omega) (by omega)⟩

theorem target_eq (server : Chars) (key : Units) :
    target server key = server ++ '#' :: decode key := by
  unfold target Plane.targetURL
  rw [String.toList_append, String.toList_append,
    String.toList_ofList (l := server),
    String.toList_ofList (l := decode key), List.append_assoc]
  rfl

theorem decode_ne_nil {key : Units} (h : restreamStreamKeySchema key = true) :
    decode key ≠ [] := by
  unfold restreamStreamKeySchema at h
  rw [Bool.and_eq_true, Bool.and_eq_true, decide_eq_true_eq] at h
  intro hnil
  have hlength := Utf16.length_decode key
  rw [hnil] at hlength
  have hzero : Utf16.length [] = 0 := rfl
  omega

/-- The web server accepts every target of what it accepted. -/
theorem restreamTargetURLSchema_target {u : ServerURL} {key : Units}
    (hserver : restreamServerURLSchema u.text = true)
    (hkey : restreamStreamKeySchema key = true) :
    restreamTargetURLSchema (target u.text key) = true := by
  have hchars := key_chars hkey
  have hne := decode_ne_nil hkey
  have hlength : 12 ≤ Utf16.length (target u.text key)
      ∧ Utf16.length (target u.text key) ≤ 3072 := by
    unfold restreamServerURLSchema at hserver
    unfold restreamStreamKeySchema at hkey
    simp only [Bool.and_eq_true, decide_eq_true_eq] at hserver hkey
    have hone : Utf16.length ('#' :: decode key)
        = 1 + Utf16.length (decode key) := rfl
    rw [target_eq, Utf16.length_append, hone, Utf16.length_decode]
    omega
  have hsplit : u.text ++ '#' :: decode key = u.scheme ++ ':' :: '/' :: '/' ::
      (u.hierarchy ++ u.mark ++ '#' :: decode key) := by
    unfold ServerURL.text
    simp only [List.append_assoc, List.cons_append]
  have hreverse : (u.hierarchy ++ u.mark ++ '#' :: decode key).reverse
      = (decode key).reverse ++ '#' :: (u.hierarchy ++ u.mark).reverse := by
    simp
  have hbare : ∀ c ∈ (decode key).reverse, c ≠ '#' :=
    fun c hc => (hchars c (List.mem_reverse.mp hc)).2
  have hbefore : u.hierarchy ++ u.mark ≠ [] := by
    unfold ServerURL.hierarchy
    simp [u.hostNonempty]
  have hspace : ∀ c ∈ u.hierarchy ++ u.mark, isSpace c = false := by
    intro c hc
    obtain ⟨hlow, hhigh, -⟩ := u.text_chars c (by
      unfold ServerURL.text
      simp [hc])
    have hall := of_ascii (p := fun c => decide (c.toNat ≤ 0x20)
      || !isSpace c) (by decide) (Nat.lt_succ_of_lt hhigh)
    rw [decide_eq_false (Nat.not_le.mpr hlow)] at hall
    simpa using hall
  unfold restreamTargetURLSchema
  rw [decide_eq_true hlength.1, decide_eq_true hlength.2, target_eq, hsplit,
    afterRtmp_append u.isRtmp]
  simp only [Option.any_some, hreverse, takeWhile_before hbare,
    dropWhile_before hbare, List.reverse_reverse, List.drop_succ_cons,
    List.drop_zero]
  rw [plainText_iff.mpr ⟨hne, hchars⟩, decide_eq_true hbefore,
    List.all_eq_true.mpr fun c hc => by rw [hspace c hc]; rfl]
  simp

theorem escapesAll_congr {p q : Nat → Nat → Bool}
    (h : ∀ x < 16, ∀ y < 16, p x y = q x y) (s : Chars) :
    escapesAll p s = escapesAll q s := by
  induction s using escapesAll.induct with
  | case1 => rfl
  | case2 a b s ih =>
      rw [escapesAll, escapesAll, ih]
      cases ha : Url.unhex a with
      | none => rfl
      | some x =>
          cases hb : Url.unhex b with
          | none => rfl
          | some y =>
              simp only [Option.any_some]
              rw [h x (unhex_lt ha) y (unhex_lt hb)]
  | case3 c s hc ih =>
      rw [escapesAll.eq_3 _ _ _ hc, escapesAll.eq_3 _ _ _ hc, ih]

theorem keyByte_escape : ∀ x < 16, ∀ y < 16,
    keyByte (UInt8.ofNat (16 * x + y))
      = decide (16 * x + y ∉ [0x23, 0x20, 0x09, 0x0D, 0x0A]) := by
  decide

-- ==================================== result

/-- A server URL and a key that the web server accepts give a target
that both servers accept exactly where the host has no character that
the node does not read there, where everything that looks like an escape
is one, and where no escape of the key denotes a `#` or a space. -/
theorem targets_forwardable {input key : Units} {server : Chars}
    (hserver : normalizeRestreamServerURL input = some server)
    (hkey : restreamStreamKeySchema key = true) :
    (restreamTargetURLSchema (target server key) = true
        ∧ validTargetURL (target server key) = true)
      ↔ forwardable server key = true := by
  obtain ⟨hschema, u, rfl⟩ := normalizeRestreamServerURL_shape hserver
  have htarget := restreamTargetURLSchema_target hschema hkey
  have hpath : (Url.unescape .path u.path).isSome
      = escapesAll (fun _ _ => true) u.path := by
    have hall : (u.path.all fun c => c = '%' || stands .path c) = true :=
      List.all_eq_true.mpr fun c _ => Bool.or_true _
    rw [unescape_isSome, hall, Bool.and_true]
    rfl
  have hfragment : (Url.unescape .fragment (decode key)).any
        (fun fragment => fragment.all keyByte)
      = escapesAll (fun x y => keyByte (UInt8.ofNat (16 * x + y)))
        (decode key) :=
    unescape_fragment fun c hc =>
      utf8EncodeChar_keyByte (key_chars hkey c hc).1 (key_chars hkey c hc).2
  have hvalid :
      validTargetURL (target u.text key) = forwardable u.text key := by
    obtain ⟨hauthority, hpathText⟩ := serverAuthority_text u
    rw [target_eq, validTargetURL_text u (decode_ne_nil hkey), hpath,
      hfragment, u.parseHost_authority]
    have hkeys : escapesAll (fun x y => keyByte (UInt8.ofNat (16 * x + y)))
          (decode key)
        = escapesAll (fun x y =>
          16 * x + y ∉ [0x23, 0x20, 0x09, 0x0D, 0x0A]) (decode key) :=
      escapesAll_congr keyByte_escape _
    unfold forwardable
    rw [hauthority, hpathText, hkeys]
    rfl
  rw [hvalid]
  exact ⟨And.right, fun h => ⟨htarget, h⟩⟩

/-- The units of an ASCII text. -/
def units (s : String) : Units := s.toList.map fun c => UInt16.ofNat c.toNat

/-- A key with an escape that can be decoded. -/
theorem targets_forwardable_escaped :
    restreamTargetURLSchema
        (target "rtmp://live.example.com/app".toList
          (units "live_%C3%A9")) = true
      ∧ validTargetURL
        (target "rtmp://live.example.com/app".toList
          (units "live_%C3%A9")) = true := by
  have hserver :
      normalizeRestreamServerURL (units "  RTMP://Live.Example.com/app/ ")
        = some "rtmp://live.example.com/app".toList := by decide
  exact (targets_forwardable hserver (by decide)).mpr (by decide)

/-- A key with a percent sign that begins no escape: the web server
accepts it and the target, and the node refuses the target. -/
theorem target_refused :
    normalizeRestreamServerURL (units "rtmp://live.example.com/app")
        = some "rtmp://live.example.com/app".toList
      ∧ restreamStreamKeySchema (units "100%") = true
      ∧ restreamTargetURLSchema
        (target "rtmp://live.example.com/app".toList (units "100%")) = true
      ∧ validTargetURL
        (target "rtmp://live.example.com/app".toList (units "100%"))
          = false := by
  decide

end StreamBrew.Restream
