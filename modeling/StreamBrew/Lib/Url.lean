/-
URLs as the standard library of Go reads and writes them (net/url).

# Texts and byte strings

A URL is read from a text. What is still encoded in it is kept as a
text (`rawPath`, `rawQuery`); what has been decoded is a byte string,
which need not be text (`host`, `path`). Writing encodes every byte of
these that is not plain ASCII, so it gives a text again.

# Left out

The zone of an address in brackets; such URLs are refused here.
-/
import StreamBrew.Lib.Address

namespace Url

open Text

/-- Where a character stands, for percent-encoding. -/
inductive Mode
  | path
  | userPassword
  | host
  | queryComponent
  | fragment
  deriving DecidableEq, Repr

/-- An ASCII letter or digit. -/
def isAlphanum (c : Char) : Bool :=
  ('a' ≤ c && c ≤ 'z') || ('A' ≤ c && c ≤ 'Z') || ('0' ≤ c && c ≤ '9')

/-- A character that stands for itself only when encoded. -/
def shouldEscape (c : Char) (mode : Mode) : Bool :=
  if isAlphanum c then false
  else if mode = .host ∧ c ∈ "!$&'()*+,;=:[]<>\"".toList then false
  else if c ∈ "-_.~".toList then false
  else if c ∈ "$&+,/:;=?@".toList then
    match mode with
    | .path => c = '?'
    | .userPassword => c ∈ "@/?:".toList
    | .queryComponent | .host => true
    | .fragment => false
  else if mode = .fragment ∧ c ∈ "!()*".toList then false
  else true

/-- The value of a hexadecimal digit. -/
def unhex (c : Char) : Option Nat :=
  if '0' ≤ c ∧ c ≤ '9' then some (c.toNat - '0'.toNat)
  else if 'a' ≤ c ∧ c ≤ 'f' then some (c.toNat - 'a'.toNat + 10)
  else if 'A' ≤ c ∧ c ≤ 'F' then some (c.toNat - 'A'.toNat + 10)
  else none

/-- `0` to `F`. -/
def upperhex (n : Nat) : Char :=
  ("0123456789ABCDEF".toList[n]?).getD '0'

/-- In a host only bytes beyond ASCII, and `%` itself, are encoded. -/
def unescape (mode : Mode) : Chars → Option Bytes
  | [] => some []
  | '%' :: a :: b :: s =>
      match unhex a, unhex b with
      | some x, some y =>
          if mode = .host ∧ x < 8 ∧ (x, y) ≠ (2, 5) then none
          else (unescape mode s).map fun t => UInt8.ofNat (16 * x + y) :: t
      | _, _ => none
  | c :: s =>
      if c = '%' then none
      else if mode = .host ∧ c.toNat < 0x80 ∧ shouldEscape c mode then none
      else (unescape mode s).map fun t =>
        (if c = '+' ∧ mode = .queryComponent then [0x20]
          else String.utf8EncodeChar c) ++ t

/-- A byte as it is written in a part of a URL. -/
def escapeByte (mode : Mode) (b : UInt8) : Chars :=
  if shouldEscape (ascii b) mode then
    if b = 0x20 ∧ mode = .queryComponent then ['+']
    else ['%', upperhex (b.toNat / 16), upperhex (b.toNat % 16)]
  else [ascii b]

/-- Bytes as they are written in a part of a URL. -/
def escape (mode : Mode) (s : Bytes) : Chars := s.flatMap (escapeByte mode)

/-- An encoding that may stay as it is. -/
def validEncoded (mode : Mode) (s : Chars) : Bool :=
  s.all fun c => c ∈ "!$&'()*+,;=:@[]%".toList || !shouldEscape c mode

/-- Who the authority is addressed as. -/
structure Userinfo where
  username : Bytes
  password : Option Bytes
  deriving DecidableEq, Repr

/-- A parsed URL: what was escaped is unescaped. -/
structure URL where
  scheme : Chars := []
  /-- What follows the scheme where that is no path. -/
  rootless : Chars := []
  user : Option Userinfo := none
  host : Bytes := []
  path : Bytes := []
  rawPath : Chars := []
  omitHost : Bool := false
  forceQuery : Bool := false
  rawQuery : Chars := []
  fragment : Bytes := []
  rawFragment : Chars := []
  deriving DecidableEq, Repr

-- =================================== parsing

/-- The characters of a scheme, behind its first. -/
def isSchemeChar (c : Char) : Bool := isAlphanum c || c ∈ "+-.".toList

/-- The scheme and the rest; nothing where a URL starts with a colon. -/
def getScheme (raw : Chars) : Option (Chars × Chars) :=
  match raw.takeWhile isSchemeChar, raw.dropWhile isSchemeChar with
  | [], ':' :: _ => none
  | c :: scheme, ':' :: rest =>
      if c.isAlpha then some (c :: scheme, rest) else some ([], raw)
  | _, _ => some ([], raw)

/-- The characters that may stand before the at sign. -/
def validUserinfo (s : Chars) : Bool :=
  s.all fun c => isAlphanum c || c ∈ "-._:~!$&'()*+,;=%@".toList

/-- Nothing, or a colon and digits. -/
def validOptionalPort : Chars → Bool
  | [] => true
  | c :: port => c = ':' && port.all Char.isDigit

/-- An address in brackets and its port, past the first bracket. -/
def parseLiteral (literal : Chars) : Option Bytes :=
  let port := (literal.reverse.takeWhile (· ≠ ']')).reverse
  let address := ((literal.reverse.dropWhile (· ≠ ']')).drop 1).reverse
  if ']' ∈ literal ∧ validOptionalPort port ∧ Address.isIPv6 address then
    some (bytes ('[' :: literal))
  else none

/-- A host and its port. -/
def parseHost (host : Chars) : Option Bytes :=
  match host with
  | '[' :: literal => parseLiteral literal
  | _ =>
      if '[' ∈ host then none
      else match (cut ':' host).2 with
      | some port =>
          if port.all Char.isDigit then unescape .host host else none
      | none => unescape .host host

/-- A name, and a password where there is a colon. -/
def parseUserinfo (s : Chars) : Option Userinfo :=
  if validUserinfo s then
    match (unescape .userPassword (cut ':' s).1) with
    | none => none
    | some username =>
        match (cut ':' s).2 with
        | none => some ⟨username, none⟩
        | some password => (unescape .userPassword password).map fun p =>
            ⟨username, some p⟩
  else none

/-- The user is before the last `@`. -/
def parseAuthority (authority : Chars) : Option (Option Userinfo × Bytes) :=
  if '@' ∈ authority then
    let host := (authority.reverse.takeWhile (· ≠ '@')).reverse
    let userinfo := ((authority.reverse.dropWhile (· ≠ '@')).drop 1).reverse
    match parseHost host with
    | none => none
    | some host => (parseUserinfo userinfo).map fun user => (some user, host)
  else (parseHost authority).map fun host => (none, host)

/-- A control character, by which no URL is accepted. -/
def isCTL (c : Char) : Bool := c.toNat < 0x20 || c.toNat = 0x7F

/-- A URL without its query; a lone `?` at the end is remembered. -/
def splitQuery (rest : Chars) : Chars × Bool × Chars :=
  if rest.getLast? = some '?' ∧ rest.count '?' = 1 then
    (rest.dropLast, true, [])
  else ((cut '?' rest).1, false, (cut '?' rest).2.getD [])

/-- The raw path is kept only where it is not the escaped one. -/
def URL.setPath (url : URL) (p : Chars) : Option URL :=
  (unescape .path p).map fun path =>
    { url with path, rawPath := if p = escape .path path then [] else p }

/-- The authority, where there is one, and the path. -/
def URL.setHierarchy (url : URL) (viaRequest : Bool) (rest : Chars) :
    Option URL :=
  if (url.scheme ≠ [] ∨ ¬ viaRequest ∧ rest.take 3 ≠ ['/', '/', '/'])
      ∧ rest.take 2 = ['/', '/'] then
    let authority := (rest.drop 2).takeWhile (· ≠ '/')
    match parseAuthority authority with
    | none => none
    | some (user, host) =>
        { url with user, host }.setPath ((rest.drop 2).dropWhile (· ≠ '/'))
  else
    { url with omitHost := url.scheme ≠ [] ∧ rest.take 1 = ['/'] }.setPath
      rest

/-- A URL with no fragment. -/
def parseURI (viaRequest : Bool) (raw : Chars) : Option URL :=
  if raw.any isCTL then none
  else if raw = [] ∧ viaRequest then none
  else if raw = ['*'] then some { path := [0x2A] }
  else match getScheme raw with
  | none => none
  | some (scheme, rest) =>
      let (rest, forceQuery, rawQuery) := splitQuery rest
      let url : URL :=
        { scheme := scheme.map Char.toLower, forceQuery, rawQuery }
      if rest.head? = some '/' then url.setHierarchy viaRequest rest
      else if scheme ≠ [] then some { url with rootless := rest }
      else if viaRequest then none
      else if ':' ∈ (cut '/' rest).1 then none
      else url.setHierarchy viaRequest rest

/-- A URL of a request, in which nothing is a fragment. -/
def parseRequestURI (raw : Chars) : Option URL := parseURI true raw

/-- The raw fragment is kept only where it is not the escaped one. -/
def URL.setFragment (url : URL) (f : Chars) : Option URL :=
  (unescape .fragment f).map fun fragment =>
    { url with
      fragment, rawFragment := if f = escape .fragment fragment then [] else f }

/-- A URL with its fragment. -/
def parse (raw : Chars) : Option URL :=
  match parseURI false (cut '#' raw).1 with
  | none => none
  | some url =>
      match (cut '#' raw).2 with
      | none | some [] => some url
      | some fragment => url.setFragment fragment

-- =================================== writing

/-- The raw path, where it is one of this path. -/
def URL.escapedPath (url : URL) : Chars :=
  if url.rawPath ≠ [] ∧ validEncoded .path url.rawPath
      ∧ unescape .path url.rawPath = some url.path then url.rawPath
  else if url.path = [0x2A] then ['*']
  else escape .path url.path

/-- The raw fragment, where it is one of this fragment. -/
def URL.escapedFragment (url : URL) : Chars :=
  if url.rawFragment ≠ [] ∧ validEncoded .fragment url.rawFragment
      ∧ unescape .fragment url.rawFragment = some url.fragment then
    url.rawFragment
  else escape .fragment url.fragment

/-- The name and the password, escaped. -/
def Userinfo.text (user : Userinfo) : Chars :=
  escape .userPassword user.username ++ (user.password.map fun p =>
    ':' :: escape .userPassword p).getD []

/-- Before the path: two slashes, the user and the host. -/
def URL.authorityText (url : URL) : Chars :=
  if url.scheme = [] ∧ url.host = [] ∧ url.user = none then []
  else if url.omitHost ∧ url.host = [] ∧ url.user = none then []
  else (if url.host ≠ [] ∨ url.path ≠ [] ∨ url.user ≠ none then ['/', '/']
      else [])
    ++ (url.user.map fun user => user.text ++ ['@']).getD []
    ++ escape .host url.host

/-- Before a path that would be read as something else. -/
def URL.pathGuard (url : URL) (before : Chars) : Chars :=
  (if url.escapedPath ≠ [] ∧ url.escapedPath.head? ≠ some '/'
      ∧ url.host ≠ [] then ['/'] else [])
    ++ (if before = [] ∧ ':' ∈ (cut '/' url.escapedPath).1 then ['.', '/']
      else [])

/-- The parts put together again. -/
def URL.text (url : URL) : Chars :=
  let scheme := if url.scheme = [] then [] else url.scheme ++ [':']
  let hierarchy :=
    if url.rootless ≠ [] then url.rootless
    else url.authorityText
      ++ url.pathGuard (scheme ++ url.authorityText) ++ url.escapedPath
  scheme ++ hierarchy
    ++ (if url.forceQuery ∨ url.rawQuery ≠ [] then '?' :: url.rawQuery
      else [])
    ++ (if url.fragment ≠ [] then '#' :: url.escapedFragment else [])

/-- The host without its port, and without brackets. -/
def URL.hostname (url : URL) : Bytes :=
  let host := match url.host.reverse.dropWhile isDigit with
    | 0x3A :: rest => rest.reverse
    | _ => url.host
  if host.head? = some 0x5B ∧ host.getLast? = some 0x5D then
    host.tail.dropLast
  else host

-- =================================== queries

/-- More parameters than this are not read. -/
def maxQueryParams : Nat := 10000

/-- One `key=value`; nothing where it is malformed. -/
def parameter (s : Chars) : Option (Bytes × Bytes) :=
  if ';' ∈ s ∨ s = [] then none
  else match unescape .queryComponent (cut '=' s).1,
      unescape .queryComponent ((cut '=' s).2.getD []) with
  | some key, some value => some (key, value)
  | _, _ => none

/-- The parameters of a query, without those that are malformed. -/
def parseQuery (query : Chars) : List (Bytes × Bytes) :=
  if maxQueryParams < query.count '&' + 1 then []
  else (query.splitOn '&').filterMap parameter

/-- The first value of a parameter; empty where it has none. -/
def URL.queryValue (url : URL) (key : Bytes) : Bytes :=
  (((parseQuery url.rawQuery).find? fun p => p.1 = key).map Prod.snd).getD []

-- ===================================== facts

theorem isAlphanum_not_ctl {c : Char} (h : isAlphanum c = true) :
    isCTL c = false := by
  have hle : ∀ a b : Char, a ≤ b → a.toNat ≤ b.toNat := fun _ _ hab => hab
  have hrange : 0x30 ≤ c.toNat ∧ c.toNat ≤ 0x7A := by
    unfold isAlphanum at h
    simp only [Bool.or_eq_true, Bool.and_eq_true, decide_eq_true_eq] at h
    rcases h with (⟨h₁, h₂⟩ | ⟨h₁, h₂⟩) | ⟨h₁, h₂⟩
    all_goals
      have hl := hle _ _ h₁
      have hu := hle _ _ h₂
      simp only [Char.reduceToNat] at hl hu
      omega
  unfold isCTL
  simp only [Bool.or_eq_false_iff, decide_eq_false_iff_not]
  omega

/-- A control character never stands for itself. -/
theorem shouldEscape_not_ctl {c : Char} {mode : Mode}
    (h : shouldEscape c mode = false) : isCTL c = false := by
  unfold shouldEscape at h
  split at h
  case isTrue ha => exact isAlphanum_not_ctl ha
  case isFalse =>
  have hlist : ∀ s : Chars, s.all (fun c => !isCTL c) = true → c ∈ s →
      isCTL c = false := fun s hs hc => by
    simpa using List.all_eq_true.mp hs c hc
  split at h
  case isTrue hc => exact hlist _ (by decide) hc.2
  case isFalse =>
  split at h
  case isTrue hc => exact hlist _ (by decide) hc
  case isFalse =>
  split at h
  case isTrue hc => exact hlist _ (by decide) hc
  case isFalse =>
  split at h
  case isTrue hc => exact hlist _ (by decide) hc.2
  case isFalse => cases h

theorem upperhex_not_ctl (n : Nat) : isCTL (upperhex n) = false := by
  unfold upperhex
  cases h : "0123456789ABCDEF".toList[n]? with
  | none => rfl
  | some c =>
      have hall : "0123456789ABCDEF".toList.all (fun c => !isCTL c) = true := by
        decide
      have hc := List.all_eq_true.mp hall c (List.mem_of_getElem? h)
      simpa using hc

/-- What is encoded has no control character. -/
theorem escape_not_ctl {mode : Mode} {s : Bytes} :
    ∀ c ∈ escape mode s, isCTL c = false := by
  intro c hc
  obtain ⟨b, -, hc⟩ := List.mem_flatMap.mp hc
  unfold escapeByte at hc
  split at hc
  case isFalse h =>
    rw [List.mem_singleton.mp hc]
    exact shouldEscape_not_ctl (by simpa using h)
  case isTrue =>
    split at hc
    case isTrue =>
      rw [List.mem_singleton.mp hc]
      rfl
    case isFalse =>
      simp only [List.mem_cons, List.not_mem_nil, or_false] at hc
      rcases hc with rfl | rfl | rfl
      · rfl
      · exact upperhex_not_ctl _
      · exact upperhex_not_ctl _

theorem validEncoded_not_ctl {mode : Mode} {s : Chars}
    (h : validEncoded mode s = true) : ∀ c ∈ s, isCTL c = false := by
  intro c hc
  have hc := List.all_eq_true.mp h c hc
  rcases Bool.or_eq_true_iff.mp hc with hc | hc
  · have hall : "!$&'()*+,;=:@[]%".toList.all (fun c => !isCTL c) = true := by
      decide
    have hc := List.all_eq_true.mp hall c (of_decide_eq_true hc)
    simpa using hc
  · exact shouldEscape_not_ctl (by simpa using hc)

namespace URL

/-- What is written as it was read has no control character. -/
structure Clean (url : URL) : Prop where
  rootless : ∀ c ∈ url.rootless, isCTL c = false
  rawQuery : ∀ c ∈ url.rawQuery, isCTL c = false

theorem escapedPath_not_ctl (url : URL) :
    ∀ c ∈ url.escapedPath, isCTL c = false := by
  unfold escapedPath
  split
  case isTrue h => exact validEncoded_not_ctl h.2.1
  case isFalse =>
    split
    case isTrue => exact fun c hc => by rw [List.mem_singleton.mp hc]; rfl
    case isFalse => exact escape_not_ctl

theorem escapedFragment_not_ctl (url : URL) :
    ∀ c ∈ url.escapedFragment, isCTL c = false := by
  unfold escapedFragment
  split
  case isTrue h => exact validEncoded_not_ctl h.2.1
  case isFalse => exact escape_not_ctl

theorem userText_not_ctl (user : Userinfo) :
    ∀ c ∈ user.text, isCTL c = false := by
  intro c hc
  rcases List.mem_append.mp hc with hc | hc
  · exact escape_not_ctl c hc
  · cases hp : user.password with
    | none => rw [hp] at hc; cases hc
    | some p =>
        rw [hp] at hc
        rcases List.mem_cons.mp hc with rfl | hc
        · rfl
        · exact escape_not_ctl c hc

/-- The text of an authority has no control character. -/
theorem authorityText_not_ctl (url : URL) :
    ∀ c ∈ url.authorityText, isCTL c = false := by
  intro c hc
  unfold authorityText at hc
  split at hc
  case isTrue => cases hc
  case isFalse =>
  split at hc
  case isTrue => cases hc
  case isFalse =>
  rcases List.mem_append.mp hc with hc | hc
  · rcases List.mem_append.mp hc with hc | hc
    · split at hc
      case isTrue =>
        simp only [List.mem_cons, List.not_mem_nil, or_false, or_self] at hc
        rw [hc]
        rfl
      case isFalse => cases hc
    · cases hu : url.user with
      | none => rw [hu] at hc; cases hc
      | some user =>
          rw [hu] at hc
          rcases List.mem_append.mp hc with hc | hc
          · exact userText_not_ctl user c hc
          · rw [List.mem_singleton.mp hc]
            rfl
  · exact escape_not_ctl c hc

theorem pathGuard_not_ctl (url : URL) (before : Chars) :
    ∀ c ∈ url.pathGuard before, isCTL c = false := by
  intro c hc
  rcases List.mem_append.mp hc with hc | hc
  · split at hc
    case isTrue => rw [List.mem_singleton.mp hc]; rfl
    case isFalse => cases hc
  · split at hc
    case isTrue =>
      simp only [List.mem_cons, List.not_mem_nil, or_false] at hc
      rcases hc with rfl | rfl <;> rfl
    case isFalse => cases hc

/-- A URL without control characters is written without any. -/
theorem text_not_ctl {url : URL} (h : url.Clean)
    (hscheme : ∀ c ∈ url.scheme, isCTL c = false) :
    ∀ c ∈ url.text, isCTL c = false := by
  intro c hc
  rcases List.mem_append.mp hc with hc | hc
  · rcases List.mem_append.mp hc with hc | hc
    · rcases List.mem_append.mp hc with hc | hc
      · split at hc
        case isTrue => cases hc
        case isFalse =>
          rcases List.mem_append.mp hc with hc | hc
          · exact hscheme c hc
          · rw [List.mem_singleton.mp hc]
            rfl
      · split at hc
        case isTrue => exact h.rootless c hc
        case isFalse =>
          rcases List.mem_append.mp hc with hc | hc
          · rcases List.mem_append.mp hc with hc | hc
            · exact authorityText_not_ctl url c hc
            · exact pathGuard_not_ctl url _ c hc
          · exact escapedPath_not_ctl url c hc
    · split at hc
      case isTrue =>
        rcases List.mem_cons.mp hc with rfl | hc
        · rfl
        · exact h.rawQuery c hc
      case isFalse => cases hc
  · split at hc
    case isTrue =>
      rcases List.mem_cons.mp hc with rfl | hc
      · rfl
      · exact escapedFragment_not_ctl url c hc
    case isFalse => cases hc

theorem setPath_clean {url url' : URL} {p : Chars} (hclean : url.Clean)
    (h : url.setPath p = some url') : url'.Clean := by
  obtain ⟨path, -, rfl⟩ := Option.map_eq_some_iff.mp h
  exact ⟨hclean.rootless, hclean.rawQuery⟩

theorem setHierarchy_clean {url url' : URL} {viaRequest : Bool}
    {rest : Chars} (hclean : url.Clean)
    (h : url.setHierarchy viaRequest rest = some url') : url'.Clean := by
  unfold setHierarchy at h
  split at h
  case isTrue =>
    dsimp only at h
    split at h
    case h_1 => cases h
    case h_2 =>
      refine setPath_clean ?_ h
      exact ⟨hclean.rootless, hclean.rawQuery⟩
  case isFalse =>
    refine setPath_clean ?_ h
    exact ⟨hclean.rootless, hclean.rawQuery⟩

end URL

theorem getScheme_subset {raw scheme rest : Chars}
    (h : getScheme raw = some (scheme, rest)) : ∀ c ∈ rest, c ∈ raw := by
  intro c hc
  unfold getScheme at h
  split at h
  case h_1 => cases h
  case h_2 d scheme' tail _ hdrop =>
    split at h
    case isTrue =>
      cases h
      have hsub := List.dropWhile_suffix isSchemeChar (l := raw)
      rw [hdrop] at hsub
      exact hsub.subset (List.mem_cons_of_mem _ hc)
    case isFalse =>
      cases h
      exact hc
  case h_3 =>
    cases h
    exact hc

theorem splitQuery_subset (rest : Chars) :
    (∀ c ∈ (splitQuery rest).1, c ∈ rest)
      ∧ ∀ c ∈ (splitQuery rest).2.2, c ∈ rest := by
  unfold splitQuery
  split
  case isTrue =>
    exact ⟨fun c hc => List.dropLast_subset rest hc, fun c hc => by cases hc⟩
  case isFalse =>
    refine ⟨fun c hc => mem_cut_fst hc, fun c hc => ?_⟩
    dsimp only at hc
    cases hq : (cut '?' rest).2 with
    | none => rw [hq] at hc; cases hc
    | some query =>
        rw [hq] at hc
        exact mem_cut_snd hq hc

/-- A URL that is accepted has no control character. -/
theorem parseURI_clean {viaRequest : Bool} {raw : Chars} {url : URL}
    (h : parseURI viaRequest raw = some url) : url.Clean := by
  unfold parseURI at h
  split at h
  case isTrue => cases h
  case isFalse hctl =>
  split at h
  case isTrue => cases h
  case isFalse =>
  split at h
  case isTrue =>
    cases h
    exact ⟨fun _ hc => (nomatch hc), fun _ hc => (nomatch hc)⟩
  case isFalse =>
  split at h
  case h_1 => cases h
  case h_2 scheme rest hscheme =>
  have hraw : ∀ c ∈ raw, isCTL c = false := fun c hc => by
    cases hb : isCTL c with
    | false => rfl
    | true => exact absurd (List.any_eq_true.mpr ⟨c, hc, hb⟩) hctl
  have hrest := getScheme_subset hscheme
  obtain ⟨hbefore, hquery⟩ := splitQuery_subset rest
  have hclean : ∀ rootless : Chars, (∀ c ∈ rootless, c ∈ raw) →
      URL.Clean { scheme := scheme.map Char.toLower
                  rootless
                  forceQuery := (splitQuery rest).2.1
                  rawQuery := (splitQuery rest).2.2 } := fun rootless hr =>
    ⟨fun c hc => hraw c (hr c hc), fun c hc => hraw c (hrest c (hquery c hc))⟩
  have hnone := hclean [] fun c hc => by cases hc
  dsimp only at h
  split at h
  case isTrue => exact URL.setHierarchy_clean hnone h
  case isFalse =>
  split at h
  case isTrue =>
    cases h
    exact hclean _ fun c hc => hrest c (hbefore c hc)
  case isFalse =>
  split at h
  case isTrue => cases h
  case isFalse =>
  split at h
  case isTrue => cases h
  case isFalse => exact URL.setHierarchy_clean hnone h

end Url
