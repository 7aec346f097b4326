/-
An absolute URL with a host, as the reader of Go takes it apart.

`Hierarchy` says where: the scheme before the colon, the authority up to
the first slash or question mark, and the rest. Of the authority only
the host matters here, and of a host of ASCII its name is the text up to
a colon (`hostname_plain`) or between brackets (`hostname_literal`).
-/
import StreamBrew.Lib.Encoding

namespace Address

open Text

-- ================================ characters

/-- A character of an address. -/
def addressChar (c : Char) : Bool := isHex c || c = ':' || c = '.'

theorem octet_digits {s : Chars} {n : Nat} (h : octet s = some n) :
    ∀ c ∈ s, c.isDigit = true := by
  unfold octet at h
  split at h
  case isTrue => cases h
  case isFalse hnot =>
    intro c hc
    cases hd : c.isDigit with
    | true => rfl
    | false =>
        refine absurd (Or.inr (Or.inl ?_)) hnot
        exact List.any_eq_true.mpr ⟨c, hc, by rw [hd]; rfl⟩

/-- A dotted address is made of the characters of an address. -/
theorem dotted_chars {s : Chars} {octets : List Nat}
    (h : dotted s = some octets) : ∀ c ∈ s, addressChar c = true := by
  have hoctets : ∀ part ∈ s.splitOn '.', ∃ n, octet part = some n := by
    unfold dotted at h
    split at h
    case h_2 => cases h
    case h_1 a b c d hmap =>
      intro part hpart
      have hmem := List.mem_map_of_mem (f := octet) hpart
      rw [hmap] at hmem
      simp only [List.mem_cons, List.not_mem_nil, or_false] at hmem
      rcases hmem with hn | hn | hn | hn <;> exact ⟨_, hn⟩
  intro c hc
  by_cases hdot : c = '.'
  · rw [hdot]
    rfl
  · obtain ⟨part, hpart, hmem⟩ :=
      mem_splitOnP (p := (· == '.')) hc (by simpa using hdot)
    obtain ⟨n, hn⟩ := hoctets part (by rwa [List.splitOn_eq_splitOnP])
    unfold addressChar isHex
    rw [octet_digits hn c hmem]
    rfl

/-- What the loop reads has no other character. -/
theorem groups_chars {n left : Nat} {ellipsis ellipsis' : Bool}
    {s rest : Chars} (h : groups n ellipsis s = some (left, ellipsis', rest)) :
    ∀ c ∈ s, c ∈ rest ∨ addressChar c = true := by
  induction n generalizing ellipsis s with
  | zero =>
      cases h
      exact fun c hc => Or.inl hc
  | succ n ih =>
      have hcolon : ∀ c t, c ∈ (':' :: t : Chars) →
          (c ∈ t → c ∈ rest ∨ addressChar c = true) →
          c ∈ rest ∨ addressChar c = true := fun c t hc ht => by
        rcases List.mem_cons.mp hc with rfl | hc
        · exact Or.inr rfl
        · exact ht hc
      intro c hc
      rw [← List.takeWhile_append_dropWhile (p := isHex) (l := s)] at hc
      rcases List.mem_append.mp hc with hc | hc
      · refine Or.inr ?_
        unfold addressChar
        rw [List.mem_takeWhile_imp hc]
        rfl
      unfold groups at h
      dsimp only at h
      split at h
      case isTrue => cases h
      case isFalse =>
      split at h
      case h_1 hd =>
        rw [hd] at hc
        cases hc
      case h_2 hd =>
        split at h
        case isTrue => cases h
        case isFalse =>
          obtain ⟨octets, hoctets, -⟩ := Option.map_eq_some_iff.mp h
          exact Or.inr (dotted_chars hoctets c (by
            rw [← List.takeWhile_append_dropWhile (p := isHex) (l := s)]
            exact List.mem_append_right _ hc))
      case h_3 => cases h
      case h_4 hd =>
        rw [hd] at hc
        exact hcolon c _ hc fun hc => hcolon c _ hc fun hc => nomatch hc
      case h_5 t _ hd =>
        rw [hd] at hc
        split at h
        case isTrue => cases h
        case isFalse =>
          exact hcolon c _ hc fun hc => hcolon c _ hc (ih h c)
      case h_6 t _ _ _ hd =>
        rw [hd] at hc
        exact hcolon c _ hc (ih h c)
      case h_7 => cases h

/-- An address without a zone has no other character. -/
theorem isIPv6_chars {s : Chars} (h : isIPv6 s = true) :
    ∀ c ∈ s, addressChar c = true := by
  unfold isIPv6 at h
  dsimp only at h
  obtain ⟨⟨left, ellipsis, rest⟩, hfound, hrest⟩ :=
    (Option.any_eq_true _ _).mp h
  have hnil : rest = [] := by simpa using (Bool.and_eq_true_iff.mp hrest).1
  subst hnil
  intro c hc
  split at hfound
  case h_1 =>
    have hall : [':', ':'].all addressChar = true := by decide
    exact List.all_eq_true.mp hall c hc
  case h_2 t _ =>
    rcases List.mem_cons.mp hc with rfl | hc
    · rfl
    rcases List.mem_cons.mp hc with rfl | hc
    · rfl
    exact (groups_chars hfound c hc).resolve_left (fun h => nomatch h)
  case h_3 => exact (groups_chars hfound c hc).resolve_left (fun h => nomatch h)

end Address

namespace Url

open Text
open WebUrl (percentDecode unplus)

-- ================================== decoding

/-- The two readings of a hexadecimal digit give the same value. -/
theorem isHex_of_unhex {c : Char} {x : Nat} (h : unhex c = some x) :
    Address.isHex c = true ∧ Address.digitValue c = x := by
  have hle : ∀ a b : Char, a ≤ b ↔ a.toNat ≤ b.toNat := fun _ _ => Iff.rfl
  unfold unhex at h
  unfold Address.isHex Address.digitValue
  split at h
  case isTrue hc =>
    cases h
    have hdigit : c.isDigit = true := by
      unfold Char.isDigit
      exact Bool.and_eq_true_iff.mpr
        ⟨decide_eq_true hc.1, decide_eq_true hc.2⟩
    rw [hdigit]
    exact ⟨rfl, rfl⟩
  case isFalse =>
  have hnot : ∀ d : Char, '9'.toNat < d.toNat → d.isDigit = false :=
    fun d hd => by
      cases hb : d.isDigit with
      | false => rfl
      | true =>
          have hupper := (Bool.and_eq_true_iff.mp hb).2
          have hnat : d.toNat ≤ 57 := of_decide_eq_true hupper
          simp only [Char.reduceToNat] at hd
          omega
  split at h
  case isTrue hc =>
    cases h
    have hlow := (hle _ _).mp hc.1
    have hdigit := hnot c (by simp only [Char.reduceToNat] at hlow ⊢; omega)
    rw [hdigit, decide_eq_true hc.1, decide_eq_true hc.2]
    exact ⟨rfl, by rw [if_neg (by simp), if_pos hc.1]⟩
  case isFalse hlower =>
  split at h
  case isTrue hc =>
    cases h
    have hlow := (hle _ _).mp hc.1
    have hhigh := (hle _ _).mp hc.2
    simp only [Char.reduceToNat] at hlow hhigh
    have hdigit := hnot c (by simp only [Char.reduceToNat]; omega)
    have hcase : ¬ 'a' ≤ c := fun h => by
      have hnat := (hle _ _).mp h
      simp only [Char.reduceToNat] at hnat
      omega
    rw [hdigit, decide_eq_true hc.1, decide_eq_true hc.2]
    exact ⟨by simp, by rw [if_neg (by simp), if_neg hcase]⟩
  case isFalse => cases h

/-- In a query both decode alike where one decodes at all. -/
theorem percentDecode_of_unescape {s : Chars} {t : Bytes}
    (h : unescape .queryComponent s = some t) :
    percentDecode (s.map unplus) = t := by
  generalize hm : Mode.queryComponent = mode at h
  fun_induction unescape mode s generalizing t
  case case1 =>
    cases h
    rfl
  case case3 a b s x y hb ha _ ih =>
    obtain ⟨u, hu, rfl⟩ := Option.map_eq_some_iff.mp h
    obtain ⟨hahex, rfl⟩ := isHex_of_unhex ha
    obtain ⟨hbhex, rfl⟩ := isHex_of_unhex hb
    have hplus : ∀ c, Address.isHex c = true → unplus c = c := fun c hc => by
      unfold unplus
      refine if_neg fun h => ?_
      rw [h] at hc
      cases hc
    show percentDecode ('%' :: unplus a :: unplus b :: s.map unplus) = _
    rw [hplus a hahex, hplus b hbhex,
      WebUrl.percentDecode_hexPair _ hahex hbhex, ih hu]
  case case7 c s _ hc _ ih =>
    obtain ⟨u, hu, rfl⟩ := Option.map_eq_some_iff.mp h
    have hne : unplus c ≠ '%' := by
      unfold unplus
      split
      case isTrue => decide
      case isFalse => exact hc
    rw [List.map_cons, WebUrl.percentDecode_cons hne, ih hu]
    congr 1
    unfold unplus
    by_cases hp : c = '+'
    · rw [if_pos hp, if_pos ⟨hp, hm.symm⟩]
      rfl
    · rw [if_neg hp, if_neg fun h => hp h.1]
  all_goals cases h

/-- A path without escapes is its own bytes. -/
theorem unescape_path {s : Chars} {t : Bytes} (hs : ∀ c ∈ s, c ≠ '%')
    (h : unescape .path s = some t) : t = bytes s := by
  generalize hm : Mode.path = mode at h
  fun_induction unescape mode s generalizing t
  case case1 =>
    cases h
    rfl
  case case3 => exact absurd rfl (hs '%' List.mem_cons_self)
  case case7 c s _ hc _ ih =>
    obtain ⟨u, hu, rfl⟩ := Option.map_eq_some_iff.mp h
    rw [if_neg fun h => by rw [← hm] at h; exact Mode.noConfusion h.2,
      ih (fun d hd => hs d (List.mem_cons_of_mem c hd)) hu]
    rfl
  all_goals cases h

/-- A host of ASCII is its own bytes. -/
theorem unescape_host {s : Chars} {t : Bytes}
    (ht : ∀ b ∈ t, b.toNat < 128 ∧ b ≠ 0x25)
    (h : unescape .host s = some t) :
    t = bytes s ∧ ∀ c ∈ s, c.toNat < 128 ∧ c ≠ '%'
      ∧ shouldEscape c .host = false := by
  generalize hm : Mode.host = mode at h
  fun_induction unescape mode s generalizing t
  case case1 =>
    cases h
    exact ⟨rfl, fun c hc => nomatch hc⟩
  case case3 a b s x y hb ha hhost ih =>
    -- an escape in a host gives a percent sign or a byte beyond ASCII
    obtain ⟨u, hu, rfl⟩ := Option.map_eq_some_iff.mp h
    obtain ⟨hbyte, hpercent⟩ := ht _ List.mem_cons_self
    have hx : x < 16 := (isHex_of_unhex ha).2 ▸
      WebUrl.digitValue_lt (isHex_of_unhex ha).1
    have hy : y < 16 := (isHex_of_unhex hb).2 ▸
      WebUrl.digitValue_lt (isHex_of_unhex hb).1
    rw [UInt8.toNat_ofNat', Nat.mod_eq_of_lt (by omega)] at hbyte
    refine absurd ⟨hm.symm, by omega, fun heq => ?_⟩ hhost
    cases heq
    exact hpercent rfl
  case case7 c s _ hc hhost ih =>
    obtain ⟨u, hu, rfl⟩ := Option.map_eq_some_iff.mp h
    rw [if_neg fun h => by rw [← hm] at h; exact Mode.noConfusion h.2] at ht ⊢
    have hascii : c.toNat < 128 := by
      refine Nat.lt_of_not_le fun hhigh => ?_
      obtain ⟨b, v, hv⟩ :=
        List.exists_cons_of_ne_nil (String.utf8EncodeChar_ne_nil (c := c))
      have hmem : b ∈ String.utf8EncodeChar c := by
        rw [hv]
        exact List.mem_cons_self
      have hlow := (ht b (List.mem_append_left _ hmem)).1
      have hbyte := utf8_high hhigh b hmem
      omega
    have hescape : shouldEscape c .host = false := by
      cases he : shouldEscape c .host with
      | false => rfl
      | true =>
          rw [hm] at he
          exact absurd ⟨hm.symm, hascii, he⟩ hhost
    obtain ⟨rfl, hs⟩ :=
      ih (fun b hb => ht b (List.mem_append_right _ hb)) hu
    refine ⟨rfl, fun d hd => ?_⟩
    rcases List.mem_cons.mp hd with rfl | hd
    · exact ⟨hascii, hc, hm ▸ hescape⟩
    · exact hs d hd
  all_goals cases h

-- ================================= the parts

/-- An absolute URL with an authority, in its parts. -/
structure Hierarchy (raw : Chars) (url : URL)
    (scheme authority rest : Chars) : Prop where
  text : raw = scheme ++ ':' :: '/' :: '/' :: (authority ++ rest)
  schemeHead : ∃ c s, scheme = c :: s ∧ c.isAlpha = true
  schemeChars : ∀ c ∈ scheme, isSchemeChar c = true
  scheme_eq : url.scheme = scheme.map Char.toLower
  authorityRead : ∃ user, parseAuthority authority = some (user, url.host)
  authorityChars : ∀ c ∈ authority, c ≠ '/' ∧ c ≠ '?'
  restHead : rest = [] ∨ ∃ c s, rest = c :: s ∧ (c = '/' ∨ c = '?')
  path : unescape .path (cut '?' rest).1 = some url.path
  query : url.rawQuery = (cut '?' rest).2.getD []
  clean : ∀ c ∈ raw, isCTL c = false

/-- A scheme that is found starts the text, with a letter first and a colon
behind. -/
theorem getScheme_eq {raw scheme rest : Chars}
    (h : getScheme raw = some (scheme, rest)) (hne : scheme ≠ []) :
    raw = scheme ++ ':' :: rest
      ∧ (∃ c s, scheme = c :: s ∧ c.isAlpha = true)
      ∧ ∀ c ∈ scheme, isSchemeChar c = true := by
  have happend := List.takeWhile_append_dropWhile (p := isSchemeChar) (l := raw)
  have hall : ∀ c ∈ raw.takeWhile isSchemeChar, isSchemeChar c = true :=
    fun c hc => List.mem_takeWhile_imp hc
  unfold getScheme at h
  split at h
  case h_1 => cases h
  case h_2 c s tail htake hdrop =>
    split at h
    case isTrue halpha =>
      cases h
      rw [htake, hdrop] at happend
      rw [htake] at hall
      exact ⟨happend.symm, ⟨c, s, rfl, halpha⟩, hall⟩
    case isFalse =>
      cases h
      exact absurd rfl hne
  case h_3 =>
    cases h
    exact absurd rfl hne

/-- A lone `?` at the end cuts like any other. -/
theorem splitQuery_eq (rest : Chars) :
    (splitQuery rest).1 = (cut '?' rest).1
      ∧ (splitQuery rest).2.2 = (cut '?' rest).2.getD [] := by
  unfold splitQuery
  split
  case isFalse => exact ⟨rfl, rfl⟩
  case isTrue h =>
    obtain ⟨front, hfront⟩ := List.getLast?_eq_some_iff.mp h.1
    have hcount := h.2
    rw [hfront] at hcount ⊢
    rw [List.count_append, List.count_singleton_self] at hcount
    have hnone : ∀ c ∈ front, c ≠ '?' := fun c hc hq => by
      have hpos := List.count_pos_iff.mpr (hq ▸ hc)
      omega
    rw [List.dropLast_concat, cut_before hnone]
    exact ⟨rfl, rfl⟩

/-- Only two slashes give a URL a host. -/
theorem setHierarchy_host {start url : URL} {rest : Chars}
    (hstart : start.host = []) (hhost : url.host ≠ [])
    (h : start.setHierarchy true rest = some url) :
    start.scheme ≠ [] ∧ ∃ authority path : Chars,
      rest = '/' :: '/' :: (authority ++ path)
        ∧ (∀ c ∈ authority, c ≠ '/') ∧ (path = [] ∨ path.head? = some '/')
        ∧ (∃ user, parseAuthority authority = some (user, url.host))
        ∧ unescape .path path = some url.path
        ∧ url.scheme = start.scheme ∧ url.rawQuery = start.rawQuery := by
  unfold URL.setHierarchy at h
  split at h
  case isFalse =>
    obtain ⟨path, -, rfl⟩ := Option.map_eq_some_iff.mp h
    exact absurd hstart hhost
  case isTrue hslashes =>
    have hscheme : start.scheme ≠ [] := by simpa using hslashes.1
    dsimp only at h
    split at h
    case h_1 => cases h
    case h_2 user host hauthority =>
      obtain ⟨path, hpath, rfl⟩ := Option.map_eq_some_iff.mp h
      refine ⟨hscheme, (rest.drop 2).takeWhile (· ≠ '/'),
        (rest.drop 2).dropWhile (· ≠ '/'), ?_, ?_, ?_, ⟨user, hauthority⟩,
        hpath, rfl, rfl⟩
      · rw [List.takeWhile_append_dropWhile]
        have hsplit := List.take_append_drop 2 rest
        rw [hslashes.2] at hsplit
        exact hsplit.symm
      · exact fun c hc => by simpa using List.mem_takeWhile_imp hc
      · cases hd : (rest.drop 2).dropWhile (· ≠ '/') with
        | nil => exact Or.inl rfl
        | cons c path =>
            have hne : (rest.drop 2).dropWhile (· ≠ '/') ≠ [] := by
              rw [hd]
              exact List.cons_ne_nil c path
            have hhead := List.head_dropWhile_not (· ≠ '/') hne
            simp only [hd, List.head_cons] at hhead
            exact Or.inr (by simpa using hhead)

/-- A URL with a host is an absolute one. -/
theorem hierarchy_of_parse {raw : Chars} {url : URL}
    (h : parseRequestURI raw = some url) (hhost : url.host ≠ []) :
    ∃ scheme authority rest, Hierarchy raw url scheme authority rest := by
  unfold parseRequestURI parseURI at h
  split at h
  case isTrue => cases h
  case isFalse hctl =>
  split at h
  case isTrue => cases h
  case isFalse =>
  split at h
  case isTrue =>
    cases h
    exact absurd rfl hhost
  case isFalse =>
  split at h
  case h_1 => cases h
  case h_2 scheme after hscheme =>
  obtain ⟨hbefore, hquery⟩ := splitQuery_eq after
  dsimp only at h
  split at h
  case isFalse =>
    split at h
    case isTrue =>
      cases h
      exact absurd rfl hhost
    case isFalse =>
      rw [if_pos rfl] at h
      cases h
  case isTrue =>
    obtain ⟨hne, authority, path, hsplit, hauth, hpath, hread, hunescape,
      hs, hq⟩ := setHierarchy_host rfl hhost h
    have hnil : scheme ≠ [] := fun hnil => hne (by rw [hnil]; rfl)
    obtain ⟨hraw, hhead, hchars⟩ := getScheme_eq hscheme hnil
    rw [hbefore] at hsplit
    -- the path ends where the query begins
    have hfree : ∀ c ∈ authority ++ path, c ≠ '?' := fun c hc => by
      have hmem : c ∈ (cut '?' after).1 := by
        rw [hsplit]
        exact List.mem_cons_of_mem _ (List.mem_cons_of_mem _ hc)
      simpa using List.mem_takeWhile_imp hmem
    have hpathFree : ∀ c ∈ path, c ≠ '?' := fun c hc =>
      hfree c (List.mem_append_right _ hc)
    have hrest : ∃ rest, after = '/' :: '/' :: (authority ++ rest)
        ∧ cut '?' rest = (path, (cut '?' after).2)
        ∧ (rest = [] ∨ ∃ c s, rest = c :: s ∧ (c = '/' ∨ c = '?')) := by
      cases hcut : (cut '?' after).2 with
      | none =>
          rw [cut_none hcut] at hsplit
          refine ⟨path, hsplit, cut_absent hpathFree, ?_⟩
          rcases hpath with hpath | hpath
          · exact Or.inl hpath
          · obtain ⟨s, hs⟩ := List.head?_eq_some_iff.mp hpath
            exact Or.inr ⟨'/', s, hs, Or.inl rfl⟩
      | some query =>
          refine ⟨path ++ '?' :: query, ?_, cut_before hpathFree, ?_⟩
          · have happend := cut_some hcut
            rw [hsplit] at happend
            rw [happend]
            simp
          · rcases hpath with hpath | hpath
            · rw [hpath]
              exact Or.inr ⟨'?', query, rfl, Or.inr rfl⟩
            · obtain ⟨s, hs⟩ := List.head?_eq_some_iff.mp hpath
              rw [hs]
              exact Or.inr ⟨'/', s ++ '?' :: query, rfl, Or.inl rfl⟩
    obtain ⟨rest, hafter, hcut, hrestHead⟩ := hrest
    refine ⟨scheme, authority, rest,
      { text := by rw [hraw, hafter]
        schemeHead := hhead
        schemeChars := hchars
        scheme_eq := hs
        authorityRead := hread
        authorityChars := fun c hc =>
          ⟨hauth c hc, hfree c (List.mem_append_left _ hc)⟩
        restHead := hrestHead
        path := by rw [hcut]; exact hunescape
        query := by rw [hcut, hq]; exact hquery
        clean := fun c hc => ?_ }⟩
    cases hb : isCTL c with
    | false => rfl
    | true => exact absurd (List.any_eq_true.mpr ⟨c, hc, hb⟩) hctl

-- =============================== authorities

/-- The host and the port of an authority. -/
def hostPart (authority : Chars) : Chars :=
  if '@' ∈ authority then (authority.reverse.takeWhile (· ≠ '@')).reverse
  else authority

/-- A character that ends an authority for no reader. -/
def inAuthority (c : Char) : Bool := c ∉ ['\\', '#', ' ']

theorem userinfo_inAuthority {s : Chars} (h : validUserinfo s = true) :
    ∀ c ∈ s, inAuthority c = true := by
  intro c hc
  have hvalid := List.all_eq_true.mp h c hc
  unfold inAuthority
  refine decide_eq_true fun hmem => ?_
  simp only [List.mem_cons, List.not_mem_nil, or_false] at hmem
  rcases hmem with rfl | rfl | rfl <;> exact absurd hvalid (by decide)

/-- The host of an authority is the reading of its host part. -/
theorem parseAuthority_host {authority : Chars} {user : Option Userinfo}
    {host : Bytes} (h : parseAuthority authority = some (user, host)) :
    parseHost (hostPart authority) = some host
      ∧ ∀ c ∈ authority, c ∈ hostPart authority ∨ inAuthority c = true := by
  unfold parseAuthority at h
  unfold hostPart
  split at h
  case isFalse hat =>
    rw [if_neg hat]
    obtain ⟨found, hfound, he⟩ := Option.map_eq_some_iff.mp h
    cases he
    exact ⟨hfound, fun c hc => Or.inl hc⟩
  case isTrue hat =>
    rw [if_pos hat]
    dsimp only at h
    split at h
    case h_1 => cases h
    case h_2 found hfound =>
      obtain ⟨info, hinfo, he⟩ := Option.map_eq_some_iff.mp h
      cases he
      refine ⟨hfound, fun c hc => ?_⟩
      have hvalid : validUserinfo ((authority.reverse.dropWhile (· ≠ '@')).drop
          1).reverse = true := by
        unfold parseUserinfo at hinfo
        split at hinfo
        case isTrue hvalid => exact hvalid
        case isFalse => cases hinfo
      have hsplit := List.takeWhile_append_dropWhile (p := (· ≠ '@'))
        (l := authority.reverse)
      have hmem : c ∈ authority.reverse := List.mem_reverse.mpr hc
      rw [← hsplit] at hmem
      rcases List.mem_append.mp hmem with hmem | hmem
      · exact Or.inl (List.mem_reverse.mpr hmem)
      · have hne : authority.reverse.dropWhile (· ≠ '@') ≠ [] :=
          List.ne_nil_of_mem hmem
        have hhead := List.head_dropWhile_not (· ≠ '@') hne
        cases hd : authority.reverse.dropWhile (· ≠ '@') with
        | nil => exact absurd hd hne
        | cons d rest =>
            simp only [hd, List.head_cons] at hhead
            rw [hd] at hmem hvalid
            rcases List.mem_cons.mp hmem with rfl | hmem
            · have hc : c = '@' := by simpa using hhead
              rw [hc]
              exact Or.inr rfl
            · exact Or.inr (userinfo_inAuthority hvalid c
                (List.mem_reverse.mpr hmem))

/-- The bytes of a host that is written in ASCII. -/
def AsciiHost (host : Bytes) : Prop :=
  ∀ b ∈ host, b.toNat < 128 ∧ b ≠ 0x25

instance (host : Bytes) : Decidable (AsciiHost host) :=
  List.decidableBAll (fun b : UInt8 => b.toNat < 128 ∧ b ≠ 0x25) host

/-- A host of ASCII that is no address in brackets. -/
structure PlainHost (s : Chars) : Prop where
  chars : ∀ c ∈ s, c.toNat < 128 ∧ c ≠ '%' ∧ shouldEscape c .host = false
  noBracket : '[' ∉ s
  port : ∀ port, (cut ':' s).2 = some port → ∀ c ∈ port, c.isDigit = true

/-- A host outside brackets that reads as plain ASCII is its own text. -/
theorem parseHost_plain {s : Chars} {host : Bytes}
    (hascii : AsciiHost host) (hs : s.head? ≠ some '[')
    (h : parseHost s = some host) : host = bytes s ∧ PlainHost s := by
  unfold parseHost at h
  split at h
  case h_1 => exact absurd rfl hs
  case h_2 =>
    split at h
    case isTrue => cases h
    case isFalse hbracket =>
      split at h
      case h_1 port hport =>
        split at h
        case isTrue hdigits =>
          obtain ⟨heq, hchars⟩ := unescape_host hascii h
          refine ⟨heq, hchars, hbracket, fun p hp => ?_⟩
          rw [hport] at hp
          cases hp
          exact fun c hc => List.all_eq_true.mp hdigits c hc
        case isFalse => cases h
      case h_2 hport =>
        obtain ⟨heq, hchars⟩ := unescape_host hascii h
        refine ⟨heq, hchars, hbracket, fun p hp => ?_⟩
        rw [hport] at hp
        cases hp

theorem inAuthority_plain {s : Chars} (h : PlainHost s) :
    ∀ c ∈ s, inAuthority c = true := by
  intro c hc
  have hescape := (h.chars c hc).2.2
  unfold inAuthority
  refine decide_eq_true fun hmem => ?_
  simp only [List.mem_cons, List.not_mem_nil, or_false] at hmem
  rcases hmem with rfl | rfl | rfl <;> exact absurd hescape (by decide)

theorem isDigit_utf8 {c : Char} (h : c.toNat < 128) :
    isDigit (UInt8.ofNat c.toNat) = c.isDigit := by
  simpa using forall_ascii (p := fun c =>
    isDigit (UInt8.ofNat c.toNat) == c.isDigit) (by decide) h

/-- The bytes of a text of ASCII, one for each character. -/
theorem bytes_ascii {s : Chars} (h : ∀ c ∈ s, c.toNat < 128) :
    bytes s = s.map fun c => UInt8.ofNat c.toNat := by
  induction s with
  | nil => rfl
  | cons c s ih =>
      rw [List.map_cons, ← ih fun d hd => h d (List.mem_cons_of_mem c hd)]
      show String.utf8EncodeChar c ++ bytes s = _
      rw [utf8_ascii (h c List.mem_cons_self)]
      rfl

theorem not_mem_bytes {d : Char} {s : Chars} (hd : d.toNat < 128)
    (h : d ∉ s) : UInt8.ofNat d.toNat ∉ bytes s := by
  intro hmem
  obtain ⟨c, hc, hb⟩ := List.mem_flatMap.mp hmem
  exact utf8_not_mem hd (fun he => h (he ▸ hc)) hb

theorem bytes_append (s t : Chars) : bytes (s ++ t) = bytes s ++ bytes t :=
  List.flatMap_append

theorem digits_bytes {s : Chars} (h : ∀ c ∈ s, c.isDigit = true) :
    ∀ b ∈ (bytes s).reverse, isDigit b = true := by
  have hlt : ∀ c ∈ s, c.toNat < 128 := fun c hc => by
    refine WebUrl.isHex_lt ?_
    unfold Address.isHex
    rw [h c hc]
    rfl
  intro b hb
  rw [List.mem_reverse, bytes_ascii hlt] at hb
  obtain ⟨c, hc, rfl⟩ := List.mem_map.mp hb
  rw [isDigit_utf8 (hlt c hc)]
  exact h c hc

/-- The host without a port, if digits follow its last colon. -/
theorem dropPort_some {n port : Chars}
    (hport : ∀ c ∈ port, c.isDigit = true) :
    (bytes (n ++ ':' :: port)).reverse.dropWhile isDigit
      = 0x3A :: (bytes n).reverse := by
  rw [bytes_append]
  show (bytes n ++ 0x3A :: bytes port).reverse.dropWhile isDigit = _
  rw [List.reverse_append, List.reverse_cons, List.append_assoc,
    List.dropWhile_append_of_pos (digits_bytes hport)]
  rfl

/-- The hostname of a plain host is what stands before its colon. -/
theorem hostname_plain {url : URL} {s : Chars} (h : PlainHost s)
    (hhost : url.host = bytes s) :
    url.hostname = bytes (cut ':' s).1 := by
  have hbracket : ∀ t : Chars, (∀ c ∈ t, c ∈ s) →
      ¬ ((bytes t).head? = some 0x5B ∧ (bytes t).getLast? = some 0x5D) :=
    fun t ht hb => by
      have hnot : '[' ∉ t := fun hmem => h.noBracket (ht '[' hmem)
      exact not_mem_bytes (by decide) hnot (List.mem_of_mem_head? hb.1)
  unfold URL.hostname
  cases hport : (cut ':' s).2 with
  | none =>
      have hcolon : ':' ∉ s := by
        rw [← cut_none hport]
        exact fun hmem => by simpa using List.mem_takeWhile_imp hmem
      have hkeep : ∀ rest, url.host.reverse.dropWhile isDigit ≠ 0x3A :: rest :=
        fun rest heq => by
          refine not_mem_bytes (d := ':') (by decide) hcolon ?_
          have hsub := (List.dropWhile_suffix isDigit
            (l := url.host.reverse)).subset (heq ▸ List.mem_cons_self)
          rwa [List.mem_reverse, hhost] at hsub
      dsimp only
      split
      case h_1 rest heq => exact absurd heq (hkeep rest)
      case h_2 =>
        rw [hhost, if_neg (hbracket s fun _ hc => hc), cut_none hport]
  | some port =>
      have hs := cut_some hport
      have hdrop := dropPort_some (n := (cut ':' s).1) (h.port port hport)
      rw [← hs, ← hhost] at hdrop
      rw [hdrop]
      dsimp only
      split
      case h_2 hne => exact absurd rfl (hne _)
      case h_1 rest heq =>
        cases heq
        rw [List.reverse_reverse,
          if_neg (hbracket _ fun c hc => mem_cut_fst hc)]

/-- An address in brackets. -/
theorem parseHost_literal {s : Chars} {host : Bytes}
    (hs : s.head? = some '[') (h : parseHost s = some host) :
    ∃ address port : Chars, s = '[' :: (address ++ ']' :: port)
      ∧ host = bytes s ∧ (∀ c ∈ address, Address.addressChar c = true)
      ∧ validOptionalPort port = true := by
  unfold parseHost at h
  split at h
  case h_2 hne =>
    obtain ⟨literal, hliteral⟩ := List.head?_eq_some_iff.mp hs
    exact absurd hliteral (hne literal)
  case h_1 literal =>
    unfold parseLiteral at h
    dsimp only at h
    split at h
    case isFalse => cases h
    case isTrue hvalid =>
      obtain ⟨hmem, hport, haddress⟩ := hvalid
      cases h
      have hsplit := List.takeWhile_append_dropWhile (p := (· ≠ ']'))
        (l := literal.reverse)
      have hne : literal.reverse.dropWhile (· ≠ ']') ≠ [] := fun hnil => by
        rw [hnil, List.append_nil] at hsplit
        have hin : ']' ∈ literal.reverse.takeWhile (· ≠ ']') := by
          rw [hsplit]
          exact List.mem_reverse.mpr hmem
        simpa using List.mem_takeWhile_imp hin
      have hhead := List.head_dropWhile_not (· ≠ ']') hne
      cases hd : literal.reverse.dropWhile (· ≠ ']') with
      | nil => exact absurd hd hne
      | cons d rest =>
          simp only [hd, List.head_cons] at hhead
          have hbracket : d = ']' := by simpa using hhead
          rw [hd, hbracket] at hsplit
          rw [hd] at haddress
          refine ⟨rest.reverse, _, congrArg ('[' :: ·) ?_, rfl, ?_, hport⟩
          · have hrev := congrArg List.reverse hsplit
            rw [List.reverse_reverse, List.reverse_append,
              List.reverse_cons, List.append_assoc] at hrev
            exact hrev.symm
          · exact Address.isIPv6_chars haddress

/-- Nothing but the address is the name of such a host. -/
theorem hostname_literal {url : URL} {address port : Chars}
    (hhost : url.host = bytes ('[' :: (address ++ ']' :: port)))
    (hport : validOptionalPort port = true) :
    url.hostname = bytes address := by
  have hclosed : ('[' :: (address ++ [']']) : Chars)
      = ['['] ++ address ++ [']'] := by simp
  have hstrip : ∀ host, host = bytes ('[' :: (address ++ [']'])) →
      (if host.head? = some 0x5B ∧ host.getLast? = some 0x5D then
        host.tail.dropLast else host) = bytes address := fun host hh => by
    rw [hh, hclosed, bytes_append, bytes_append]
    have hlast : (bytes ['['] ++ bytes address ++ bytes [']']).getLast?
        = some 0x5D := List.getLast?_concat
    rw [if_pos ⟨rfl, hlast⟩]
    show (bytes address ++ [0x5D]).dropLast = _
    rw [List.dropLast_concat]
  unfold URL.hostname
  cases port with
  | nil =>
      have hrev : url.host.reverse
          = 0x5D :: (bytes ('[' :: address)).reverse := by
        rw [hhost, ← List.cons_append, bytes_append, List.reverse_append]
        rfl
      have hdrop : url.host.reverse.dropWhile isDigit = url.host.reverse := by
        rw [hrev, List.dropWhile_cons_of_neg (by decide)]
      dsimp only
      split
      case h_1 rest heq =>
        rw [hdrop, hrev] at heq
        cases heq
      case h_2 => exact hstrip _ hhost
  | cons c digits =>
      have hvalid := Bool.and_eq_true_iff.mp hport
      have hc : c = ':' := of_decide_eq_true hvalid.1
      have hdigits := List.all_eq_true.mp hvalid.2
      have hdrop := dropPort_some (n := '[' :: (address ++ [']'])) hdigits
      have hshape : '[' :: (address ++ [']']) ++ ':' :: digits
          = '[' :: (address ++ ']' :: ':' :: digits) := by simp
      rw [hshape, ← hc, ← hhost] at hdrop
      rw [hdrop]
      dsimp only
      split
      case h_2 hne => exact absurd rfl (hne _)
      case h_1 rest heq =>
        cases heq
        rw [List.reverse_reverse]
        exact hstrip _ rfl

/-- A bracketed address has no character that would end the authority. -/
theorem inAuthority_literal {address port : Chars}
    (haddress : ∀ c ∈ address, Address.addressChar c = true)
    (hport : validOptionalPort port = true) :
    ∀ c ∈ '[' :: (address ++ ']' :: port), inAuthority c = true := by
  have hnot : ∀ (p : Char → Bool), (∀ d ∈ ['\\', '#', ' '], p d = false) →
      ∀ c, p c = true → inAuthority c = true := fun p hp c hc => by
    unfold inAuthority
    refine decide_eq_true fun hmem => ?_
    rw [hp c hmem] at hc
    cases hc
  intro c hc
  rcases List.mem_cons.mp hc with rfl | hc
  · rfl
  rcases List.mem_append.mp hc with hc | hc
  · exact hnot Address.addressChar (of_all (by decide)) c (haddress c hc)
  rcases List.mem_cons.mp hc with rfl | hc
  · rfl
  cases port with
  | nil => cases hc
  | cons d digits =>
      have hvalid := Bool.and_eq_true_iff.mp hport
      rcases List.mem_cons.mp hc with rfl | hc
      · rw [of_decide_eq_true hvalid.1]
        rfl
      · exact hnot Char.isDigit (of_all (by decide)) c
          (List.all_eq_true.mp hvalid.2 c hc)

/-- The characters of an authority that is read. -/
theorem authority_chars {authority : Chars} {user : Option Userinfo}
    {host : Bytes} (hascii : AsciiHost host)
    (h : parseAuthority authority = some (user, host)) :
    ∀ c ∈ authority, inAuthority c = true := by
  obtain ⟨hhost, hchars⟩ := parseAuthority_host h
  intro c hc
  refine (hchars c hc).elim (fun hmem => ?_) id
  by_cases hbracket : (hostPart authority).head? = some '['
  · obtain ⟨address, port, hshape, -, haddress, hport⟩ :=
      parseHost_literal hbracket hhost
    rw [hshape] at hmem
    exact inAuthority_literal haddress hport c hmem
  · exact inAuthority_plain (parseHost_plain hascii hbracket hhost).2 c hmem

theorem authority_ne_nil {authority : Chars} {user : Option Userinfo}
    {host : Bytes} (hhost : host ≠ [])
    (h : parseAuthority authority = some (user, host)) : authority ≠ [] := by
  rintro rfl
  cases h
  exact hhost rfl

end Url
