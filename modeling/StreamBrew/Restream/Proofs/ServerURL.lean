/-
The server URLs that the web server accepts.

Such a URL is written of a scheme, a host, a port and a path, and a lone
`?` may stand at its end (`ServerURL`). Its host is an address in
brackets, or an opaque host of printable characters; its path is encoded
where a path must be.
-/
import StreamBrew.Restream.Target

namespace StreamBrew.Restream

open Text
open Utf16 (Units decode isSpace isSpaceCode)

variable {s : Chars} {a : WebUrl.Authority} {c : Char} {url : WebUrl.WebURL}

-- ================================ characters

/-- What holds of every ASCII character. -/
theorem of_ascii {p : Char → Bool}
    (h : ∀ n : Fin 128, p (Char.ofNat n.1) = true)
    (hc : c.toNat < 128) : p c = true := by
  have hp := h ⟨c.toNat, hc⟩
  rwa [Char.ofNat_toNat] at hp

theorem lt_of_printable (h : WebUrl.controlSet c = false) :
    c.toNat < 128 := by
  unfold WebUrl.controlSet at h
  simp only [Bool.or_eq_false_iff, decide_eq_false_iff_not] at h
  omega

/-- A character of an opaque host. -/
def opaqueChar (c : Char) : Bool :=
  !WebUrl.controlSet c && !WebUrl.forbiddenHost c

/-- A character that stands for itself in a path. -/
def pathChar (c : Char) : Bool := !WebUrl.pathSet c

theorem opaqueChar_upperhex (n : Nat) :
    opaqueChar (Url.upperhex n) = true := by
  unfold Url.upperhex
  cases h : "0123456789ABCDEF".toList[n]? with
  | none => decide
  | some c =>
      have hall : "0123456789ABCDEF".toList.all opaqueChar = true := by
        decide
      exact List.all_eq_true.mp hall c (List.mem_of_getElem? h)

theorem pathChar_upperhex (n : Nat) : pathChar (Url.upperhex n) = true := by
  unfold Url.upperhex
  cases h : "0123456789ABCDEF".toList[n]? with
  | none => decide
  | some c =>
      have hall : "0123456789ABCDEF".toList.all pathChar = true := by
        decide
      exact List.all_eq_true.mp hall c (List.mem_of_getElem? h)

/-- The characters that percent-encoding leaves. -/
theorem mem_percentEncode {set : Char → Bool}
    (h : c ∈ WebUrl.percentEncode set s) :
    (c ∈ s ∧ set c = false) ∨ c = '%' ∨ ∃ n, c = Url.upperhex n := by
  obtain ⟨d, hd, hc⟩ := List.mem_flatMap.mp h
  split at hc
  case isTrue =>
    obtain ⟨b, -, hc⟩ := List.mem_flatMap.mp hc
    unfold WebUrl.percentEncodeByte at hc
    simp only [List.mem_cons, List.not_mem_nil, or_false] at hc
    rcases hc with hc | hc | hc
    · exact Or.inr (Or.inl hc)
    · exact Or.inr (Or.inr ⟨_, hc⟩)
    · exact Or.inr (Or.inr ⟨_, hc⟩)
  case isFalse hset =>
    rw [List.mem_singleton] at hc
    subst hc
    exact Or.inl ⟨hd, by simpa using hset⟩

-- ====================================== host

/-- What the host of a server URL is. -/
inductive Host : Chars → Prop
  | literal {address : List Nat} (hlength : address.length = 8) :
      Host ('[' :: Address.serialize address ++ [']'])
  | plain {host : Chars} (hchars : ∀ c ∈ host, opaqueChar c = true) :
      Host host

/-- Every host that the URL Standard's parser accepts has one of the shapes. -/
theorem parseHost_shape {host : Chars}
    (h : WebUrl.parseHost s = some host) : Host host := by
  unfold WebUrl.parseHost at h
  split at h
  case h_1 =>
    split at h
    case isTrue =>
      obtain ⟨address, haddress, rfl⟩ := Option.map_eq_some_iff.mp h
      exact Host.literal (Address.parse_length haddress)
    case isFalse => cases h
  case h_2 =>
    split at h
    case isTrue => cases h
    case isFalse hallowed =>
      cases h
      refine Host.plain fun c hc => ?_
      rcases mem_percentEncode hc with ⟨hmem, hset⟩ | rfl | ⟨n, rfl⟩
      · unfold opaqueChar
        have hfree : WebUrl.forbiddenHost c = false := by
          cases hb : WebUrl.forbiddenHost c with
          | false => rfl
          | true => exact absurd (List.any_eq_true.mpr ⟨c, hmem, hb⟩) hallowed
        rw [hset, hfree]
        rfl
      · decide
      · exact opaqueChar_upperhex n

theorem parseHostPort_host {username password : Chars}
    (h : WebUrl.parseHostPort username password s = some a) :
    Host a.host := by
  unfold WebUrl.parseHostPort at h
  simp only at h
  split at h
  case isTrue => cases h
  case isFalse =>
    split at h
    case h_1 hhost _ =>
      cases h
      exact parseHost_shape hhost
    case h_2 => cases h

theorem parseAuthority_host
    (h : WebUrl.parseAuthority s = some a) : Host a.host := by
  unfold WebUrl.parseAuthority at h
  split at h
  case isTrue =>
    simp only at h
    split at h
    case isTrue => cases h
    case isFalse => exact parseHostPort_host h
  case isFalse => exact parseHostPort_host h

-- ====================================== path

/-- Appended segments are made of path characters, and there are some where
some came. -/
theorem appendSegments_spec (path segments : List Chars)
    (hpath : ∀ s ∈ path, ∀ c ∈ s, pathChar c = true) :
    (∀ s ∈ WebUrl.appendSegments path segments, ∀ c ∈ s,
        pathChar c = true)
      ∧ (segments ≠ [] → WebUrl.appendSegments path segments ≠ []) := by
  have hencoded : ∀ s : Chars, ∀ c ∈ WebUrl.percentEncode WebUrl.pathSet s,
      pathChar c = true := by
    intro s c hc
    rcases mem_percentEncode hc with ⟨-, hset⟩ | rfl | ⟨n, rfl⟩
    · unfold pathChar
      rw [hset]
      rfl
    · decide
    · exact pathChar_upperhex n
  have hadd : ∀ path : List Chars, (∀ s ∈ path, ∀ c ∈ s, pathChar c = true) →
      ∀ segment : Chars, (∀ c ∈ segment, pathChar c = true) →
      ∀ s ∈ path ++ [segment], ∀ c ∈ s, pathChar c = true := by
    intro path hpath segment hsegment s hs
    rcases List.mem_append.mp hs with hs | hs
    · exact hpath s hs
    · rw [List.mem_singleton.mp hs]
      exact hsegment
  have hdrop : ∀ path : List Chars, (∀ s ∈ path, ∀ c ∈ s, pathChar c = true) →
      ∀ s ∈ path.dropLast, ∀ c ∈ s, pathChar c = true :=
    fun path hpath s hs => hpath s (List.dropLast_subset path hs)
  have hempty : ∀ c ∈ ([] : Chars), pathChar c = true :=
    fun c hc => absurd hc List.not_mem_nil
  induction path, segments using WebUrl.appendSegments.induct with
  | case1 path => exact ⟨hpath, fun h => absurd rfl h⟩
  | case2 path last hdouble =>
      rw [WebUrl.appendSegments, if_pos hdouble]
      exact ⟨hadd _ (hdrop path hpath) _ hempty, fun _ => by simp⟩
  | case3 path last hdouble hsingle =>
      rw [WebUrl.appendSegments, if_neg hdouble, if_pos hsingle]
      exact ⟨hadd _ hpath _ hempty, fun _ => by simp⟩
  | case4 path last hdouble hsingle =>
      rw [WebUrl.appendSegments, if_neg hdouble, if_neg hsingle]
      exact ⟨hadd _ hpath _ (hencoded last), fun _ => by simp⟩
  | case5 path segment rest hrest hdouble ih =>
      obtain ⟨hchars, hne⟩ := ih (hdrop path hpath)
      rw [WebUrl.appendSegments, if_pos hdouble]
      · exact ⟨hchars, fun _ => hne hrest⟩
      · exact hrest
  | case6 path segment rest hrest hdouble hsingle ih =>
      obtain ⟨hchars, hne⟩ := ih hpath
      rw [WebUrl.appendSegments, if_neg hdouble, if_pos hsingle]
      · exact ⟨hchars, fun _ => hne hrest⟩
      · exact hrest
  | case7 path segment rest hrest hdouble hsingle ih =>
      obtain ⟨hchars, hne⟩ := ih (hadd _ hpath _ (hencoded segment))
      rw [WebUrl.appendSegments, if_neg hdouble, if_neg hsingle]
      · exact ⟨hchars, fun _ => hne hrest⟩
      · exact hrest

/-- A path begins with a slash, and has no character that a path
encodes. -/
theorem parsePath_spec (s : Chars) :
    (∃ t, WebUrl.parsePath s = '/' :: t)
      ∧ ∀ c ∈ WebUrl.parsePath s, pathChar c = true := by
  obtain ⟨hchars, hne⟩ := appendSegments_spec [] (s.splitOn '/')
    fun s hs => absurd hs List.not_mem_nil
  have hsplit : s.splitOn '/' ≠ [] := List.splitOn_ne_nil '/' s
  unfold WebUrl.parsePath
  obtain ⟨segment, rest, hrest⟩ := List.exists_cons_of_ne_nil (hne hsplit)
  constructor
  · rw [hrest]
    exact ⟨segment ++ rest.flatMap fun segment => '/' :: segment, rfl⟩
  · intro c hc
    obtain ⟨segment, hsegment, hc⟩ := List.mem_flatMap.mp hc
    rcases List.mem_cons.mp hc with rfl | hc
    · decide
    · exact hchars segment hsegment c hc

-- ================================ server URL

/-- The port of a server URL. -/
def portText (port : Option Nat) : Chars :=
  (port.map fun port => ':' :: Nat.toDigits 10 port).getD []

/-- The parts of a server URL that is accepted; a lone `?` may stand at
its end. -/
structure ServerURL where
  scheme : Chars
  host : Chars
  port : Option Nat
  path : Chars
  mark : Chars
  isRtmp : scheme = "rtmp".toList ∨ scheme = "rtmps".toList
  isHost : Host host
  hostNonempty : host ≠ []
  isPath : path = [] ∨ ∃ t, path = '/' :: t
  pathChars : ∀ c ∈ path, pathChar c = true
  isMark : mark = [] ∨ mark = ['?'] ∧ path ≠ []

/-- What follows the two slashes, before the mark. -/
def ServerURL.hierarchy (u : ServerURL) : Chars :=
  u.host ++ portText u.port ++ u.path

/-- The text that the parts were read from. -/
def ServerURL.text (u : ServerURL) : Chars :=
  u.scheme ++ ':' :: '/' :: '/' :: (u.hierarchy ++ u.mark)

theorem afterRtmp_append {scheme rest : Chars}
    (h : scheme = "rtmp".toList ∨ scheme = "rtmps".toList) :
    afterRtmp (scheme ++ ':' :: '/' :: '/' :: rest) = some rest := by
  rcases h with rfl | rfl
  · rfl
  · rfl

theorem plainText_iff :
    plainText s = true
      ↔ s ≠ [] ∧ ∀ c ∈ s, isSpace c = false ∧ c ≠ '#' := by
  unfold plainText
  simp only [Bool.and_eq_true, decide_eq_true_eq, List.all_eq_true,
    Bool.not_eq_true', bne_iff_ne]

/-- The URL that is written for a server URL, past the slashes. -/
theorem href_eq (url : WebUrl.WebURL)
    (ha : url.authority = some a) (husername : a.username = [])
    (hpassword : a.password = []) :
    url.href = url.scheme ++ ':' :: '/' :: '/' ::
      (a.host ++ portText a.port ++ url.pathname
        ++ (url.query.map fun query => '?' :: query).getD []
        ++ (url.fragment.map fun fragment => '#' :: fragment).getD []) := by
  unfold WebUrl.WebURL.href WebUrl.Authority.text portText
  rw [ha]
  simp only [husername, hpassword, and_self, if_true, List.nil_append,
    Option.map_some, Option.getD_some, List.append_assoc, List.cons_append]

/-- Nothing, or a slash after something: the last slash goes. -/
theorem dropSlash_path (before : Chars) {path t : Chars}
    (hpath : path = '/' :: t) :
    ∃ path', (path' = [] ∨ ∃ t', path' = '/' :: t')
      ∧ (∀ c ∈ path', c ∈ path)
      ∧ dropSlash (before ++ path) = before ++ path' := by
  subst hpath
  unfold dropSlash
  split
  case isFalse => exact ⟨'/' :: t, Or.inr ⟨t, rfl⟩, fun _ hc => hc, rfl⟩
  case isTrue =>
    refine ⟨('/' :: t).dropLast, ?_, fun c hc => List.dropLast_subset _ hc,
      List.dropLast_append_of_ne_nil (List.cons_ne_nil _ _)⟩
    cases t with
    | nil => exact Or.inl rfl
    | cons d t => exact Or.inr ⟨(d :: t).dropLast, rfl⟩

theorem percentEncode_ne_nil {set : Char → Bool} (h : s ≠ []) :
    WebUrl.percentEncode set s ≠ [] := by
  obtain ⟨c, t, rfl⟩ := List.exists_cons_of_ne_nil h
  unfold WebUrl.percentEncode
  rw [List.flatMap_cons]
  refine List.append_ne_nil_of_left_ne_nil ?_ _
  split
  case isTrue =>
    obtain ⟨b, bs, hb⟩ :=
      List.exists_cons_of_ne_nil (String.utf8EncodeChar_ne_nil (c := c))
    rw [hb, List.flatMap_cons]
    exact List.append_ne_nil_of_left_ne_nil (List.cons_ne_nil _ _) _
  case isFalse => exact List.cons_ne_nil _ _

theorem parseHost_ne_nil {host : Chars} (hs : s ≠ [])
    (h : WebUrl.parseHost s = some host) : host ≠ [] := by
  unfold WebUrl.parseHost at h
  split at h
  case h_1 =>
    split at h
    case isTrue =>
      obtain ⟨address, -, rfl⟩ := Option.map_eq_some_iff.mp h
      exact List.cons_ne_nil _ _
    case isFalse => cases h
  case h_2 =>
    split at h
    case isTrue => cases h
    case isFalse =>
      cases h
      exact percentEncode_ne_nil hs

theorem parse_host {input : Chars} (h : WebUrl.parse input = some url)
    (ha : url.authority = some a) : Host a.host := by
  unfold WebUrl.parse at h
  split at h
  case h_1 => cases h
  case h_2 =>
    split at h
    case isTrue => cases h
    case isFalse =>
      split at h
      case h_1 =>
        obtain ⟨b, hb, rfl⟩ := Option.map_eq_some_iff.mp h
        cases ha
        exact parseAuthority_host hb
      case h_2 =>
        cases h
        cases ha

/-- The authority of a URL whose host is set to another. -/
theorem setHostname_authority
    (ha : url.authority = some a) (hhost : Host a.host) (hne : a.host ≠ [])
    {host : Chars} (hset : host ≠ []) :
    ∃ a', (url.setHostname host).authority = some a' ∧ Host a'.host
      ∧ a'.host ≠ [] ∧ a'.username = a.username
      ∧ a'.password = a.password := by
  unfold WebUrl.WebURL.setHostname
  split
  case h_1 => exact ⟨a, ha, hhost, hne, rfl, rfl⟩
  case h_2 host' hparsed =>
    refine ⟨{ a with host := host' }, ?_, parseHost_shape hparsed,
      parseHost_ne_nil hset hparsed, rfl, rfl⟩
    show url.authority.map _ = _
    rw [ha]
    rfl

theorem setHostname_rest (url : WebUrl.WebURL) (host : Chars) :
    (url.setHostname host).scheme = url.scheme
      ∧ (url.setHostname host).query = url.query
      ∧ (url.setHostname host).fragment = url.fragment := by
  unfold WebUrl.WebURL.setHostname
  split
  case h_1 => exact ⟨rfl, rfl, rfl⟩
  case h_2 => exact ⟨rfl, rfl, rfl⟩

theorem setPathname_pathname (url : WebUrl.WebURL) {path : Chars}
    (h : path ≠ []) :
    ∃ s, (url.setPathname path).pathname = WebUrl.parsePath s := by
  unfold WebUrl.WebURL.setPathname
  simp only
  split
  case h_1 => exact absurd rfl h
  case h_2 s => exact ⟨s, rfl⟩
  case h_3 s => exact ⟨_, rfl⟩

/-- Nothing is searched for, or a lone `?` is. -/
theorem query_of_search (h : url.search = []) :
    url.query = none ∨ url.query = some [] := by
  unfold WebUrl.WebURL.search at h
  split at h
  case h_1 hnone => exact Or.inl hnone
  case h_2 hnil => exact Or.inr hnil
  case h_3 => cases h

theorem fragment_of_hash (h : url.hash = []) :
    url.fragment = none ∨ url.fragment = some [] := by
  unfold WebUrl.WebURL.hash at h
  split at h
  case h_1 hnone => exact Or.inl hnone
  case h_2 hnil => exact Or.inr hnil
  case h_3 => cases h

theorem dropSlash_snoc {scheme rest last : Chars} (hc : c ≠ '/')
    (hlast : last = [c]) :
    dropSlash (scheme ++ ':' :: '/' :: '/' :: (rest ++ last))
      = scheme ++ ':' :: '/' :: '/' :: (rest ++ last) := by
  subst hlast
  have he : scheme ++ ':' :: '/' :: '/' :: (rest ++ [c])
      = (scheme ++ ':' :: '/' :: '/' :: rest) ++ [c] := by
    rw [List.append_assoc, List.cons_append, List.cons_append,
      List.cons_append]
  rw [he]
  unfold dropSlash
  rw [List.getLast?_concat, if_neg]
  exact fun h => hc (Option.some.inj h)

/-- Every server URL that is accepted is written of such parts. -/
theorem normalizeRestreamServerURL_shape {input : Units} {server : Chars}
    (h : normalizeRestreamServerURL input = some server) :
    restreamServerURLSchema server = true
      ∧ ∃ u : ServerURL, u.text = server := by
  unfold normalizeRestreamServerURL at h
  split at h
  case h_1 => cases h
  case h_2 url hurl =>
  split at h
  case isTrue => cases h
  case isFalse hallowed =>
  split at h
  case isTrue => cases h
  case isFalse =>
  simp only [not_or, not_and, not_not] at hallowed
  obtain ⟨hscheme, husername, hpassword, hsearch, hhash, hhost, -⟩ := hallowed
  have hrtmp : url.scheme = "rtmp".toList ∨ url.scheme = "rtmps".toList := by
    by_cases he : url.scheme = "rtmp".toList
    · exact Or.inl he
    · exact Or.inr (hscheme he)
  obtain ⟨a, ha⟩ : ∃ a, url.authority = some a := by
    cases ha : url.authority with
    | some a => exact ⟨a, rfl⟩
    | none =>
        unfold WebUrl.WebURL.hostname at hhost
        rw [ha] at hhost
        exact absurd rfl hhost
  have hname : url.hostname = a.host := by
    unfold WebUrl.WebURL.hostname
    rw [ha]
    rfl
  have huser : a.username = [] := by
    unfold WebUrl.WebURL.username at husername
    rw [ha] at husername
    exact husername
  have hpass : a.password = [] := by
    unfold WebUrl.WebURL.password at hpassword
    rw [ha] at hpassword
    exact hpassword
  rw [hname] at hhost
  have hlower : url.hostname.map Char.toLower ≠ [] := by
    rw [hname]
    simpa using hhost
  obtain ⟨a', ha', hhost', hne', huser', hpass'⟩ :=
    setHostname_authority ha (parse_host hurl ha) hhost hlower
  obtain ⟨hscheme', hquery', hfragment'⟩ := setHostname_rest url
    (url.hostname.map Char.toLower)
  generalize url.setHostname (url.hostname.map Char.toLower) = named at *
  have hpath : trimPath named.pathname ≠ [] := by
    unfold trimPath
    split
    case isTrue => exact List.cons_ne_nil _ _
    case isFalse hne => exact hne
  obtain ⟨s, hs⟩ := setPathname_pathname named hpath
  have hset : named.setPathname (trimPath named.pathname)
      = { named with pathname := WebUrl.parsePath s } := by
    rw [← hs]
    rfl
  simp only [hset] at h
  split at h
  case isFalse => cases h
  case isTrue hschema =>
  cases h
  refine ⟨hschema, ?_⟩
  have hhref := href_eq { named with pathname := WebUrl.parsePath s }
    ha' (huser'.trans huser) (hpass'.trans hpass)
  simp only [hscheme', hquery', hfragment'] at hhref hschema ⊢
  obtain ⟨⟨t, ht⟩, hchars⟩ := parsePath_spec s
  rw [hhref] at hschema ⊢
  rcases fragment_of_hash hhash with hfragment | hfragment
  · rw [hfragment] at hschema ⊢
    rcases query_of_search hsearch with hquery | hquery
    · rw [hquery] at hschema ⊢
      simp only [Option.map_none, Option.getD_none, List.append_nil]
      obtain ⟨path, hpath, hsub, hdrop⟩ := dropSlash_path
        (url.scheme ++ ':' :: '/' :: '/' :: (a'.host ++ portText a'.port)) ht
      refine ⟨{ scheme := url.scheme, host := a'.host, port := a'.port, path
                mark := [], isRtmp := hrtmp, isHost := hhost'
                hostNonempty := hne', isPath := hpath
                pathChars := fun c hc => hchars c (hsub c hc)
                isMark := Or.inl rfl }, ?_⟩
      simp only [ServerURL.text, ServerURL.hierarchy, List.append_nil]
      simp only [List.append_assoc, List.cons_append] at hdrop ⊢
      exact hdrop.symm
    · rw [hquery] at hschema ⊢
      refine ⟨{ scheme := url.scheme, host := a'.host, port := a'.port
                path := WebUrl.parsePath s, mark := ['?'], isRtmp := hrtmp
                isHost := hhost', hostNonempty := hne'
                isPath := Or.inr ⟨t, ht⟩, pathChars := hchars
                isMark := Or.inr ⟨rfl, ?_⟩ }, ?_⟩
      · rw [ht]
        exact List.cons_ne_nil _ _
      · simp only [Option.map_none, Option.getD_none, Option.map_some,
          Option.getD_some, List.append_nil]
        rw [dropSlash_snoc (c := '?') (by decide) rfl]
        simp only [ServerURL.text, ServerURL.hierarchy]
  · -- a lone `#` at the end is no server URL
    exfalso
    rw [hfragment] at hschema
    simp only [Option.map_some, Option.getD_some] at hschema
    rw [dropSlash_snoc (c := '#') (by decide) rfl] at hschema
    unfold restreamServerURLSchema at hschema
    rw [afterRtmp_append hrtmp, Option.any_some, Bool.and_eq_true] at hschema
    obtain ⟨-, hplain⟩ := hschema
    rw [plainText_iff] at hplain
    exact (hplain.2 '#' (by simp)).2 rfl

end StreamBrew.Restream
