/-
The same URL, as the web's reader takes it apart.

It does so in the same places (`parseHttp_hierarchy`). What differs is
what becomes of the parts: one reader decodes the path and keeps a
fragment and spaces where they stand; the other encodes, resolves dot
segments, and reads only what is before the fragment (`readable`). A
path that it only encodes has the same segments (`PlainPath`), and a pair
of the query that both read is the same pair (`find?_parameter`).
-/
import StreamBrew.Lib.UrlReadings

namespace WebUrl

open Text
open Url (Hierarchy inAuthority hostPart)

-- ================================= the web's

/-- A control or a space. -/
def isBlank (c : Char) : Bool := c.toNat ≤ 0x20

/-- What is read of the rest of a URL: nothing of the fragment, and no
spaces at the end. -/
def readable (rest : Chars) : Chars := (cut '#' (trimEnd isBlank rest)).1

variable {domain : Chars → Option Chars} {raw : Chars} {url : Url.URL}
  {scheme authority rest : Chars}

/-- What the web's reader makes of a text with an authority. -/
theorem clean_hierarchy (h : Hierarchy raw url scheme authority rest)
    (hne : authority ≠ [])
    (hchars : ∀ c ∈ authority, inAuthority c = true) :
    clean raw = scheme ++ ':' :: '/' :: '/'
      :: (authority ++ trimEnd isBlank rest) := by
  have hlast : isBlank (authority.getLast hne) = false := by
    have hmem := List.getLast_mem hne
    have hspace := hchars _ hmem
    have hclean := h.clean (authority.getLast hne) (by
      rw [h.text]
      simp [hmem])
    unfold inAuthority at hspace
    unfold Url.isCTL at hclean
    unfold isBlank
    simp only [Bool.or_eq_false_iff, decide_eq_false_iff_not] at hclean
    refine decide_eq_false fun hle => ?_
    have hnat : (authority.getLast hne).toNat = 0x20 := by omega
    refine of_decide_eq_true hspace ?_
    rw [← Char.ofNat_toNat (authority.getLast hne), hnat]
    simp
  have hfront : raw.dropWhile isBlank = raw := by
    obtain ⟨c, s, hs, halpha⟩ := h.schemeHead
    rw [h.text, hs, List.cons_append, List.dropWhile_cons_of_neg]
    have hnat : ∀ a b : Char, a ≤ b → a.toNat ≤ b.toNat := fun _ _ h => h
    unfold isBlank
    unfold Char.isAlpha Char.isUpper Char.isLower at halpha
    simp only [Bool.or_eq_true, Bool.and_eq_true, decide_eq_true_eq] at halpha ⊢
    rcases halpha with ⟨hlow, -⟩ | ⟨hlow, -⟩
    · have hle : 65 ≤ c.toNat := hlow
      omega
    · have hle : 97 ≤ c.toNat := hlow
      omega
  have htrim : trimEnd isBlank raw = scheme ++ ':' :: '/' :: '/'
      :: (authority ++ trimEnd isBlank rest) := by
    have hsplit : raw = (scheme ++ ':' :: '/' :: '/' :: authority) ++ rest := by
      rw [h.text]
      simp
    have hwhole : scheme ++ ':' :: '/' :: '/' :: authority ≠ [] := by simp
    rw [hsplit, trimEnd_append hwhole]
    · simp
    · have hget : (scheme ++ ':' :: '/' :: '/' :: authority).getLast hwhole
          = authority.getLast hne := by
        rw [List.getLast_append_of_ne_nil _ (List.cons_ne_nil _ _),
          List.getLast_cons (List.cons_ne_nil _ _),
          List.getLast_cons (List.cons_ne_nil _ _), List.getLast_cons hne]
      rw [hget]
      exact hlast
  show ((trimEnd isBlank (raw.dropWhile isBlank)).filter
    fun c => c ∉ ['\t', '\n', '\x0D']) = _
  rw [hfront, ← htrim]
  refine List.filter_eq_self.mpr fun c hc => ?_
  have hclean := h.clean c (mem_trimEnd hc)
  refine decide_eq_true fun hmem => ?_
  simp only [List.mem_cons, List.not_mem_nil, or_false] at hmem
  rcases hmem with rfl | rfl | rfl <;> exact absurd hclean (by decide)

/-- Both readers find the same scheme, the web's in lower case. -/
theorem splitScheme_hierarchy (h : Hierarchy raw url scheme authority rest)
    (after : Chars) :
    splitScheme (scheme ++ ':' :: after)
      = some (scheme.map Char.toLower, after) := by
  obtain ⟨c, s, hs, halpha⟩ := h.schemeHead
  have hcolon : Url.isSchemeChar ':' = false := by decide
  have htake :
      (scheme ++ ':' :: after).takeWhile Url.isSchemeChar = scheme := by
    rw [List.takeWhile_append_of_pos h.schemeChars,
      List.takeWhile_cons_of_neg (by simp [hcolon]), List.append_nil]
  have hdrop : (scheme ++ ':' :: after).dropWhile Url.isSchemeChar
      = ':' :: after := by
    rw [List.dropWhile_append_of_pos h.schemeChars,
      List.dropWhile_cons_of_neg (by simp [hcolon])]
  subst hs
  rw [List.cons_append] at htake hdrop ⊢
  unfold splitScheme
  simp only
  rw [if_pos halpha, hdrop, htake]
  rfl

/-- The rest after spaces at the end begins as the rest does. -/
theorem trimEnd_head (h : rest = [] ∨ ∃ c s, rest = c :: s
      ∧ (c = '/' ∨ c = '?')) :
    trimEnd isBlank rest = [] ∨ ∃ c s, trimEnd isBlank rest = c :: s
      ∧ (c = '/' ∨ c = '?') := by
  cases ht : trimEnd isBlank rest with
  | nil => exact Or.inl rfl
  | cons c s =>
      obtain ⟨tail, htail⟩ := trimEnd_prefix isBlank rest
      rw [ht, List.cons_append] at htail
      rcases h with hnil | ⟨d, u, hcons, hd⟩
      · rw [hnil] at htail
        cases htail
      · rw [hcons] at htail
        cases htail
        exact Or.inr ⟨c, s, rfl, hd⟩

/-- The web's reader takes a URL apart in the same places. -/
theorem parseHttp_hierarchy (h : Hierarchy raw url scheme authority rest)
    (hne : authority ≠ []) (hchars : ∀ c ∈ authority, inAuthority c = true)
    {web : WebURL} (hweb : parseHttp domain raw = some web) :
    isHttp (scheme.map Char.toLower) = true
      ∧ ∃ found, parseSpecialAuthority domain (scheme.map Char.toLower)
          authority = some found
        ∧ web = parseSpecialRest (scheme.map Char.toLower) found
          (trimEnd isBlank rest) := by
  have hplain : ∀ c ∈ authority, isSpecialTerminator c = false := fun c hc => by
    obtain ⟨hslash, hquery⟩ := h.authorityChars c hc
    have hin := of_decide_eq_true (hchars c hc)
    simp only [List.mem_cons, List.not_mem_nil, or_false, not_or] at hin
    unfold isSpecialTerminator isTerminator
    simp [hslash, hquery, hin]
  have hslash : ∀ c ∈ authority, isSlash c = false := fun c hc => by
    obtain ⟨hslash, -⟩ := h.authorityChars c hc
    have hin := of_decide_eq_true (hchars c hc)
    simp only [List.mem_cons, List.not_mem_nil, or_false, not_or] at hin
    unfold isSlash
    simp [hslash, hin]
  have hdrop : ('/' :: '/' :: (authority ++ trimEnd isBlank rest)).dropWhile
      isSlash = authority ++ trimEnd isBlank rest := by
    rw [List.dropWhile_cons_of_pos rfl, List.dropWhile_cons_of_pos rfl]
    obtain ⟨c, s, hs⟩ := List.exists_cons_of_ne_nil hne
    have hc := hslash c (by rw [hs]; exact List.mem_cons_self)
    rw [hs, List.cons_append, List.dropWhile_cons_of_neg (by simp [hc])]
  have hall : ∀ c ∈ authority, (!isSpecialTerminator c) = true :=
    fun c hc => by rw [hplain c hc]; rfl
  have hend : (trimEnd isBlank rest).takeWhile (fun c => !isSpecialTerminator c)
        = []
      ∧ (trimEnd isBlank rest).dropWhile (fun c => !isSpecialTerminator c)
        = trimEnd isBlank rest := by
    rcases trimEnd_head h.restHead with hnil | ⟨c, s, hcons, hc⟩
    · rw [hnil]
      exact ⟨rfl, rfl⟩
    · have hterm : isSpecialTerminator c = true := by
        rcases hc with rfl | rfl <;> rfl
      rw [hcons]
      exact ⟨List.takeWhile_cons_of_neg (by simp [hterm]),
        List.dropWhile_cons_of_neg (by simp [hterm])⟩
  unfold parseHttp at hweb
  rw [clean_hierarchy h hne hchars, splitScheme_hierarchy h] at hweb
  dsimp only at hweb
  split at hweb
  case isFalse => cases hweb
  case isTrue hhttp =>
    rw [hdrop, List.takeWhile_append_of_pos hall,
      List.dropWhile_append_of_pos hall, hend.1, hend.2,
      List.append_nil] at hweb
    obtain ⟨found, hfound, rfl⟩ := Option.map_eq_some_iff.mp hweb
    exact ⟨hhttp, found, hfound, rfl⟩

/-- The host is that of the text after the last `@`. -/
theorem parseSpecialAuthority_host {special : Chars} {found : Authority}
    (h : parseSpecialAuthority domain special authority = some found) :
    parseSpecialHost domain (splitHost false (hostPart authority)).1
      = some found.host := by
  have hport : ∀ username password s,
      parseSpecialHostPort domain special username password s = some found →
      parseSpecialHost domain (splitHost false s).1 = some found.host :=
    fun username password s hs => by
      unfold parseSpecialHostPort at hs
      dsimp only at hs
      split at hs
      case isTrue => cases hs
      case isFalse =>
        split at hs
        case h_1 host port hhost _ =>
          cases hs
          exact hhost
        case h_2 => cases hs
  unfold parseSpecialAuthority at h
  unfold hostPart
  split at h
  case isTrue hat =>
    rw [if_pos hat]
    dsimp only at h
    exact hport _ _ _ h
  case isFalse hat =>
    rw [if_neg hat]
    exact hport _ _ _ h

/-- Outside brackets the host ends at the first colon. -/
theorem splitHost_plain {s : Chars} (h : '[' ∉ s) :
    (splitHost false s).1 = (cut ':' s).1 := by
  induction s with
  | nil => rfl
  | cons c s ih =>
      have hc : c ≠ '[' := fun hc => h (hc ▸ List.mem_cons_self)
      have hs := ih fun hmem => h (List.mem_cons_of_mem c hmem)
      unfold splitHost
      by_cases hcolon : c = ':'
      · rw [if_pos ⟨hcolon, by simp⟩, hcolon]
        rfl
      · rw [if_neg fun h => hcolon h.1]
        have hinside : (if c = '[' then true else if c = ']' then false
            else false) = false := by
          rw [if_neg hc]
          split <;> rfl
        rw [hinside]
        show c :: (splitHost false s).1 = _
        rw [hs]
        unfold cut
        rw [List.takeWhile_cons_of_pos (by simpa using hcolon)]

-- ======================= the path's segments

/-- The segments of a path, which begins with a slash unless it is
empty. -/
def segments (path : Chars) : List Chars := (path.drop 1).splitOn '/'

/-- A path that the web's reader only encodes. -/
structure PlainPath (path : Chars) : Prop where
  noBackslash : ∀ c ∈ path, c ≠ '\\'
  noDots : ∀ segment ∈ segments path,
    isSingleDot segment = false ∧ isDoubleDot segment = false

theorem splitOnP_slash {s : Chars} (h : ∀ c ∈ s, c ≠ '\\') :
    s.splitOnP isSlash = s.splitOn '/' := by
  induction s with
  | nil => rfl
  | cons c s ih =>
      have hc : isSlash c = (c == '/') := by
        rw [Bool.eq_iff_iff]
        unfold isSlash
        simp [h c List.mem_cons_self]
      rw [List.splitOnP_cons_eq_if_modifyHead,
        List.splitOn_cons_eq_if_modifyHead, hc,
        ih fun d hd => h d (List.mem_cons_of_mem c hd)]

/-- Segments without dots are appended as they stand, encoded. -/
theorem appendSegments_plain {path segments : List Chars}
    (h : ∀ segment ∈ segments,
      isSingleDot segment = false ∧ isDoubleDot segment = false) :
    appendSegments path segments
      = path ++ segments.map (percentEncode pathSet) := by
  induction segments generalizing path with
  | nil => simp [appendSegments]
  | cons segment rest ih =>
      obtain ⟨hsingle, hdouble⟩ := h segment List.mem_cons_self
      have hrest : appendSegments (path ++ [percentEncode pathSet segment]) rest
          = path ++ [percentEncode pathSet segment]
            ++ rest.map (percentEncode pathSet) :=
        ih fun s hs => h s (List.mem_cons_of_mem segment hs)
      cases rest with
      | nil => simp [appendSegments, hsingle, hdouble]
      | cons next rest =>
          unfold appendSegments
          rw [if_neg (by simp [hdouble]), if_neg (by simp [hsingle]), hrest]
          simp

/-- Segments without slashes, read back. -/
theorem splitOn_flatMap_slash {parts : List Chars}
    (h : ∀ part ∈ parts, '/' ∉ part) :
    (parts.flatMap fun part => '/' :: part).splitOn '/' = [] :: parts := by
  induction parts with
  | nil => rfl
  | cons part parts ih =>
      rw [List.flatMap_cons, List.cons_append,
        List.splitOn_cons_eq_if_modifyHead, if_pos (by simp),
        splitOn_append (h part List.mem_cons_self),
        ih fun q hq => h q (List.mem_cons_of_mem part hq),
        List.modifyHead_cons, List.append_nil]

/-- The segments of a plain path are only encoded. -/
theorem splitOn_parseSpecialPath {path : Chars} (h : PlainPath path) :
    (parseSpecialPath path).splitOn '/'
      = [] :: (segments path).map (percentEncode pathSet) := by
  unfold parseSpecialPath
  rw [splitOnP_slash fun c hc => h.noBackslash c (List.mem_of_mem_drop hc)]
  show ((appendSegments [] (segments path)).flatMap _).splitOn '/' = _
  rw [appendSegments_plain h.noDots, List.nil_append]
  refine splitOn_flatMap_slash fun part hpart => ?_
  obtain ⟨segment, hsegment, rfl⟩ := List.mem_map.mp hpart
  intro hmem
  obtain ⟨c, hc, hslash⟩ := List.mem_flatMap.mp hmem
  have hne : c ≠ '/' := fun he => mem_splitOn hsegment (he ▸ hc)
  exact not_mem_encodeChar hne (by decide) (by decide) hslash

-- ========================= search parameters

theorem percentEncode_eq_nil {set : Char → Bool} {s : Chars} :
    percentEncode set s = [] ↔ s = [] := by
  constructor
  · exact fun h => percentEncode_eq_plain (fun c hc => nomatch hc) h
  · rintro rfl
    rfl

theorem formPair_encode (s : Chars) :
    formPair (percentEncode specialQuerySet s) = formPair s := by
  have hcut : cut '=' (percentEncode specialQuerySet s)
      = (percentEncode specialQuerySet (cut '=' s).1,
        (cut '=' s).2.map (percentEncode specialQuerySet)) :=
    cut_flatMap (encodeChar_self (by decide))
      (fun c hc => not_mem_encodeChar hc (by decide) (by decide)) s
  unfold formPair
  rw [hcut]
  dsimp only
  rw [formDecode_encode]
  cases (cut '=' s).2 with
  | none => rfl
  | some value =>
      rw [Option.map_some, Option.getD_some, formDecode_encode]
      rfl

/-- The parameters of a query, before it is encoded. -/
theorem formParse_encode (s : Chars) :
    formParse (percentEncode specialQuerySet s) = formParse s := by
  have hsplit : (percentEncode specialQuerySet s).splitOn '&'
      = (s.splitOn '&').map (percentEncode specialQuerySet) :=
    splitOn_flatMap (encodeChar_self (by decide))
      (fun c hc => not_mem_encodeChar hc (by decide) (by decide)) s
  unfold formParse
  rw [hsplit, List.filter_map, List.map_map]
  have hfilter : ((fun part : Chars => decide (part ≠ []))
      ∘ percentEncode specialQuerySet) = fun part => decide (part ≠ []) := by
    funext part
    simp only [Function.comp_apply, ne_eq, percentEncode_eq_nil]
  rw [hfilter]
  exact List.map_congr_left fun part _ => formPair_encode part

/-- A pair of a query that has a name. -/
def names (name pair : Chars) : Bool :=
  decide (pair ≠ []) && decide ((formPair pair).1 = name)

/-- The first pair of a query that has a name. -/
def firstPair (name query : Chars) : Option Chars :=
  (query.splitOn '&').find? (names name)

theorem find?_formParse (name query : Chars) :
    ((formParse query).find? fun p => p.1 = name).map Prod.snd
      = (firstPair name query).map fun pair => (formPair pair).2 := by
  unfold formParse firstPair
  rw [List.find?_map, List.find?_filter, Option.map_map]
  congr 2
  funext pair
  rw [Bool.eq_iff_iff]
  simp [names]

theorem searchParam_rest (scheme : Chars) (found : Authority)
    (rest name : Chars) :
    (parseSpecialRest scheme found (trimEnd isBlank rest)).searchParam name
      = (firstPair name ((cut '?' (readable rest)).2.getD [])).map
        fun pair => (formPair pair).2 := by
  rw [← find?_formParse]
  unfold WebURL.searchParam WebURL.searchParams parseSpecialRest readable
  dsimp only
  cases (cut '?' (cut '#' (trimEnd isBlank rest)).1).2 with
  | none => rfl
  | some query =>
      rw [Option.map_some, Option.getD_some, formParse_encode]
      rfl

-- ================================= agreement

theorem bytes_map_ascii {s : Bytes} (h : ∀ b ∈ s, b.toNat < 128) :
    bytes (s.map ascii) = s := by
  induction s with
  | nil => rfl
  | cons b s ih =>
      have hb := h b List.mem_cons_self
      have hchar : (ascii b).toNat = b.toNat :=
        Utf8.toNat_ofNat (Or.inl (by omega))
      rw [List.map_cons]
      show String.utf8EncodeChar (ascii b) ++ bytes (s.map ascii) = _
      rw [utf8_ascii (by omega), hchar, UInt8.ofNat_toNat,
        ih fun d hd => h d (List.mem_cons_of_mem b hd)]
      rfl

/-- Only its own bytes are decoded to a text of ASCII. -/
theorem decode_eq_iff {s : Bytes} {t : Chars} (ht : ∀ c ∈ t, c.toNat < 128) :
    Utf8.decode s = t ↔ s = bytes t := by
  constructor
  · intro h
    obtain ⟨hmap, hascii⟩ := Utf8.decode_eq_ascii ht h
    rw [← hmap, bytes_map_ascii hascii]
  · rintro rfl
    have hascii : ∀ b ∈ bytes t, b.toNat < 128 := fun b hb => by
      rw [Url.bytes_ascii ht] at hb
      obtain ⟨c, hc, rfl⟩ := List.mem_map.mp hb
      have hlt := ht c hc
      rw [UInt8.toNat_ofNat', Nat.mod_eq_of_lt (by omega)]
      exact hlt
    rw [Utf8.decode_of_ascii hascii, map_ascii_bytes ht]

/-- A pair that both read is the same pair. -/
theorem formPair_of_parameter {pair : Chars} {key value : Bytes}
    (h : Url.parameter pair = some (key, value)) :
    pair ≠ [] ∧ formPair pair = (Utf8.decode key, Utf8.decode value) := by
  unfold Url.parameter at h
  split at h
  case isTrue => cases h
  case isFalse hnot =>
    split at h
    case h_2 => cases h
    case h_1 k v hk hv =>
      cases h
      refine ⟨fun hnil => hnot (Or.inr hnil), ?_⟩
      rw [← Url.percentDecode_of_unescape hk,
        ← Url.percentDecode_of_unescape hv]
      rfl

theorem names_iff {name pair : Chars} {key value : Bytes}
    (hname : ∀ c ∈ name, c.toNat < 128)
    (h : Url.parameter pair = some (key, value)) :
    names name pair = true ↔ key = bytes name := by
  obtain ⟨hne, hpair⟩ := formPair_of_parameter h
  unfold names
  rw [hpair, ← decode_eq_iff hname]
  simp [hne]

/-- Where the first pair of a name is well formed, both find it. -/
theorem find?_parameter {name : Chars} (hname : ∀ c ∈ name, c.toNat < 128)
    {pairs : List Chars}
    (h : ∀ pair, pairs.find? (names name) = some pair →
      (Url.parameter pair).isSome) :
    (pairs.filterMap Url.parameter).find? (fun p => p.1 = bytes name)
      = (pairs.find? (names name)).bind Url.parameter := by
  induction pairs with
  | nil => rfl
  | cons pair pairs ih =>
      cases hp : Url.parameter pair with
      | none =>
          have hnot : names name pair = false := by
            cases hb : names name pair with
            | false => rfl
            | true =>
                have hsome := h pair (List.find?_cons_of_pos hb)
                rw [hp] at hsome
                cases hsome
          have hskip : (pair :: pairs).find? (names name)
              = pairs.find? (names name) :=
            List.find?_cons_of_neg (by simp [hnot])
          rw [hskip] at h ⊢
          rw [List.filterMap_cons_none hp]
          exact ih h
      | some found =>
          rw [List.filterMap_cons_some hp]
          have hiff : names name pair = true ↔ found.1 = bytes name :=
            names_iff hname hp
          by_cases hkey : found.1 = bytes name
          · rw [List.find?_cons_of_pos (hiff.mpr hkey), Option.bind_some, hp]
            exact List.find?_cons_of_pos (by simpa using hkey)
          · have hskip : (pair :: pairs).find? (names name)
                = pairs.find? (names name) :=
              List.find?_cons_of_neg fun hn => hkey (hiff.mp hn)
            rw [hskip] at h ⊢
            rw [List.find?_cons_of_neg (by simpa using hkey)]
            exact ih h

end WebUrl
