/-
The two readers of links to videos (youtube.go, youtube.ts): for which
links they find the same video.

Each part of a link is compared on its own: the host (`hosts_agree`), the
pair of the query that gives the video, and the path. What a link has to
be for its parts to be read alike is `SameReading`, in terms of its text.

They find the same video exactly where the part that gives it, as the two
readers of URLs see that part, is the same text, or an id for neither
(`SameVideo`, `recognisers_agree_iff`). A fragment right behind the id is
the plainest link of which that is not so: `url.ParseRequestURI` takes it
for a part of the path, or of the query.
-/
import StreamBrew.Lib.WebReadings
import StreamBrew.Videos.Links
import StreamBrew.Videos.Youtube

namespace StreamBrew.Youtube

open Text
open Url (URL Hierarchy PlainHost AsciiHost)
open WebUrl (WebURL PlainPath segments percentEncode pathSet)

variable {host s : Chars}

-- =================================== domains

/-- A label that the URL Standard reads as a number. -/
def isNumber (label : Chars) : Bool :=
  (label ≠ [] && label.all Char.isDigit)
    || ((label.take 2).map Char.toLower = "0x".toList
      && (label.drop 2).all Address.isHex)

/-- A domain that the URL Standard reads as an IPv4 address. -/
def endsInNumber (s : Chars) : Bool :=
  match (s.splitOn '.').reverse with
  | [] :: label :: _ | label :: _ => isNumber label
  | [] => false

/-- A label of a name that is not ASCII, in its ASCII form. -/
def hasPunycode (s : Chars) : Bool :=
  (s.splitOn '.').any fun label =>
    (label.take 4).map Char.toLower = "xn--".toList

/-- What the URL Standard makes of a domain of plain ASCII: an IPv4
address, or the domain in lower case. -/
structure AsciiDomains (domain : Chars → Option Chars) : Prop where
  numbers : ∀ {s found : Chars}, (∀ c ∈ s, c.toNat < 128 ∧ c ≠ '%') →
    hasPunycode s = false → endsInNumber s = true → domain s = some found →
    ∀ c ∈ found, c.isDigit = true ∨ c = '.'
  names : ∀ {s found : Chars}, (∀ c ∈ s, c.toNat < 128 ∧ c ≠ '%') →
    hasPunycode s = false → endsInNumber s = false → domain s = some found →
    found = s.map Char.toLower

/-- A host of YouTube, in lower case. -/
def youtubeHost (host : Chars) : Bool :=
  host = "youtu.be".toList || host = "youtube.com".toList
    || ".youtube.com".toList.isSuffixOf host
    || host = "youtube-nocookie.com".toList
    || ".youtube-nocookie.com".toList.isSuffixOf host

/-- Each of them ends with one of two labels. -/
theorem youtubeHost_cases (h : youtubeHost host = true) :
    ∃ front, host = front ++ "youtu.be".toList
      ∨ host = front ++ "youtube.com".toList
      ∨ host = front ++ "youtube-nocookie.com".toList := by
  unfold youtubeHost at h
  simp only [Bool.or_eq_true, decide_eq_true_eq,
    List.isSuffixOf_iff_suffix] at h
  rcases h with (((h | h) | ⟨front, h⟩) | h) | ⟨front, h⟩
  · exact ⟨[], Or.inl h⟩
  · exact ⟨[], Or.inr (Or.inl h)⟩
  · exact ⟨front ++ ['.'], Or.inr (Or.inl (by rw [← h]; simp))⟩
  · exact ⟨[], Or.inr (Or.inr h)⟩
  · exact ⟨front ++ ['.'], Or.inr (Or.inr (by rw [← h]; simp))⟩

theorem youtubeHost_mem (h : youtubeHost host = true) :
    'y' ∈ host := by
  obtain ⟨front, h | h | h⟩ := youtubeHost_cases h <;>
    exact h ▸ List.mem_append_right front (by decide)

/-- No host of YouTube is an IPv4 address. -/
theorem youtubeHost_not_number (hascii : ∀ c ∈ s, c.toNat < 128)
    (h : youtubeHost (s.map Char.toLower) = true) :
    endsInNumber s = false := by
  obtain ⟨front, label, hlabel, hsplit⟩ : ∃ front label : Chars,
      (label = "be".toList ∨ label = "com".toList)
        ∧ s.map Char.toLower = front ++ '.' :: label := by
    obtain ⟨front, h | h | h⟩ := youtubeHost_cases h
    · exact ⟨front ++ "youtu".toList, _, Or.inl rfl, by rw [h]; simp⟩
    · exact ⟨front ++ "youtube".toList, _, Or.inr rfl, by rw [h]; simp⟩
    · exact ⟨front ++ "youtube-nocookie".toList, _, Or.inr rfl,
        by rw [h]; simp⟩
  obtain ⟨before, after, rfl, -, hafter⟩ := List.map_eq_append_iff.mp hsplit
  obtain ⟨dot, last, rfl, hdot, hlast⟩ := List.map_eq_cons_iff.mp hafter
  have hisDot : dot = '.' := by
    have hlt := hascii dot (by simp)
    simpa [hdot] using forall_ascii (p := fun c =>
      c.toLower ≠ '.' || c = '.') (by decide) hlt
  have hnoDot : '.' ∉ last := fun hmem => by
    have hlower := List.mem_map_of_mem (f := Char.toLower) hmem
    rw [hlast] at hlower
    rcases hlabel with rfl | rfl <;> exact absurd hlower (by decide)
  have hlabels : ((before ++ dot :: last).splitOn '.').reverse
      = last :: (before.splitOn '.').reverse := by
    rw [hisDot, List.splitOn_append_cons_self,
      List.splitOn_eq_singleton hnoDot, List.reverse_append]
    rfl
  have hne : last ≠ [] := by
    rintro rfl
    rcases hlabel with rfl | rfl <;> cases hlast
  have hnumber : isNumber last = false := by
    obtain ⟨c, tail, rfl⟩ := List.exists_cons_of_ne_nil hne
    have hhead : c.toLower = 'b' ∨ c.toLower = 'c' := by
      rcases hlabel with rfl | rfl
      · exact Or.inl (List.cons.inj hlast).1
      · exact Or.inr (List.cons.inj hlast).1
    have hlt := hascii c (by simp)
    have hdigit : c.isDigit = false := by
      have hor :
          (¬ c.toLower = 'b' ∧ ¬ c.toLower = 'c') ∨ c.isDigit = false := by
        simpa using forall_ascii (p := fun c =>
          !(c.toLower = 'b' || c.toLower = 'c') || !c.isDigit) (by decide) hlt
      exact hor.resolve_left fun h => hhead.elim h.1 h.2
    have hzero : c.toLower ≠ '0' := by
      rcases hhead with h | h <;> rw [h] <;> decide
    unfold isNumber
    rw [List.all_cons, hdigit]
    simp [hzero]
  unfold endsInNumber
  rw [hlabels]
  split
  case h_1 label _ heq => exact absurd (List.cons.inj heq).1 hne
  case h_2 label _ _ heq =>
    rw [← (List.cons.inj heq).1]
    exact hnumber
  case h_3 heq => cases heq

-- ===================================== hosts

theorem lower_cons {b : UInt8} (hkelvin : b ≠ 0xE2) (hdotted : b ≠ 0xC4)
    (s : Bytes) : lower (b :: s)
      = (if 0x41 ≤ b ∧ b ≤ 0x5A then b + 0x20 else b) :: lower s := by
  rw [lower.eq_def]
  split
  case h_1 heq => exact absurd (List.cons.inj heq).1 hkelvin
  case h_2 heq => exact absurd (List.cons.inj heq).1 hdotted
  case h_3 heq =>
    cases heq
    rfl
  case h_4 heq => cases heq

/-- Of ASCII text both sides make the same lower case. -/
theorem lower_bytes (h : ∀ c ∈ s, c.toNat < 128) :
    lower (bytes s) = bytes (s.map Char.toLower) := by
  induction s with
  | nil => rfl
  | cons c s ih =>
      have hc := h c List.mem_cons_self
      have hlower : c.toLower.toNat < 128 := by
        simpa using forall_ascii (p := fun c => c.toLower.toNat < 128)
          (by decide) hc
      have hbyte : (if 0x41 ≤ UInt8.ofNat c.toNat ∧ UInt8.ofNat c.toNat ≤ 0x5A
          then UInt8.ofNat c.toNat + 0x20 else UInt8.ofNat c.toNat)
          = UInt8.ofNat c.toLower.toNat := by
        simpa using forall_ascii (p := fun c =>
          (if 0x41 ≤ UInt8.ofNat c.toNat ∧ UInt8.ofNat c.toNat ≤ 0x5A
            then UInt8.ofNat c.toNat + 0x20 else UInt8.ofNat c.toNat)
          = UInt8.ofNat c.toLower.toNat) (by decide) hc
      have hnot : UInt8.ofNat c.toNat ≠ 0xE2 ∧ UInt8.ofNat c.toNat ≠ 0xC4 := by
        simpa using forall_ascii (p := fun c =>
          UInt8.ofNat c.toNat ≠ 0xE2 && UInt8.ofNat c.toNat ≠ 0xC4)
          (by decide) hc
      show lower (String.utf8EncodeChar c ++ bytes s)
        = String.utf8EncodeChar c.toLower ++ bytes (s.map Char.toLower)
      rw [utf8_ascii hc, utf8_ascii hlower, List.singleton_append,
        List.singleton_append, ← hbyte,
        ← ih fun d hd => h d (List.mem_cons_of_mem c hd)]
      exact lower_cons hnot.1 hnot.2 (bytes s)

/-- A text of ASCII is that of its bytes alone. -/
theorem bytes_iff {t : Chars} (ht : ∀ c ∈ t, c.toNat < 128) :
    bytes s = bytes t ↔ s = t := by
  constructor
  · intro heq
    have hs : ∀ c ∈ s, c.toNat < 128 := fun c hc => by
      refine Nat.lt_of_not_le fun hhigh => ?_
      obtain ⟨b, u, hu⟩ :=
        List.exists_cons_of_ne_nil (String.utf8EncodeChar_ne_nil (c := c))
      have hmem : b ∈ String.utf8EncodeChar c := hu ▸ List.mem_cons_self
      have hin : b ∈ bytes t := heq ▸ List.mem_flatMap.mpr ⟨c, hc, hmem⟩
      rw [Url.bytes_ascii ht] at hin
      obtain ⟨d, hd, rfl⟩ := List.mem_map.mp hin
      have hlow := ht d hd
      have hbyte := utf8_high hhigh _ hmem
      rw [UInt8.toNat_ofNat', Nat.mod_eq_of_lt (by omega)] at hbyte
      omega
    rw [← map_ascii_bytes hs, heq, map_ascii_bytes ht]
  · exact congrArg bytes

theorem isSuffixOf_bytes {t : Chars} (hs : ∀ c ∈ s, c.toNat < 128)
    (ht : ∀ c ∈ t, c.toNat < 128) :
    (bytes s).isSuffixOf (bytes t) = s.isSuffixOf t := by
  rw [Bool.eq_iff_iff, List.isSuffixOf_iff_suffix, List.isSuffixOf_iff_suffix]
  constructor
  · rintro ⟨front, h⟩
    refine ⟨front.map ascii, ?_⟩
    have hmap := congrArg (List.map ascii) h
    rwa [List.map_append, map_ascii_bytes hs, map_ascii_bytes ht] at hmap
  · rintro ⟨front, rfl⟩
    exact ⟨bytes front, (Url.bytes_append front s).symm⟩

/-- The host as it is compared here. -/
theorem isYoutubeURL_eq {url : URL}
    (hhost : url.hostname = bytes host) (hascii : ∀ c ∈ host, c.toNat < 128) :
    isYoutubeURL url
      = (WebUrl.isHttp url.scheme && youtubeHost (host.map Char.toLower)) := by
  have hlower : ∀ c ∈ host.map Char.toLower, c.toNat < 128 := fun c hc => by
    obtain ⟨d, hd, rfl⟩ := List.mem_map.mp hc
    simpa using forall_ascii (p := fun c => c.toLower.toNat < 128)
      (by decide) (hascii d hd)
  unfold isYoutubeURL youtubeHost WebUrl.isHttp name
  dsimp only
  rw [hhost, lower_bytes hascii]
  simp only [bytes_iff (t := "youtu.be".toList) (of_all (by decide)),
    bytes_iff (t := "youtube.com".toList) (of_all (by decide)),
    bytes_iff (t := "youtube-nocookie.com".toList) (of_all (by decide)),
    isSuffixOf_bytes (s := ".youtube.com".toList) (of_all (by decide)) hlower,
    isSuffixOf_bytes (s := ".youtube-nocookie.com".toList)
      (of_all (by decide)) hlower]

theorem equalFold_eq (hascii : ∀ c ∈ host, c.toNat < 128) :
    equalFold (bytes host) (name "youtu.be")
      = decide (host.map Char.toLower = "youtu.be".toList) := by
  have hmap : (bytes host).map (fun b => (ascii b).toLower)
      = host.map Char.toLower := by
    rw [← map_ascii_bytes hascii, List.map_map, map_ascii_bytes hascii]
    rfl
  unfold equalFold
  rw [hmap]
  rfl

theorem addressChar_not_y {c : Char} (h : Address.addressChar c = true) :
    c.toNat < 128 ∧ c.toLower ≠ 'y' := by
  have hlt : c.toNat < 128 := by
    unfold Address.addressChar at h
    simp only [Bool.or_eq_true, decide_eq_true_eq] at h
    rcases h with (h | rfl) | rfl
    · exact WebUrl.isHex_lt h
    · decide
    · decide
  refine ⟨hlt, fun hy => ?_⟩
  have hor : Address.addressChar c = false ∨ ¬ c.toLower = 'y' := by
    simpa using forall_ascii (p := fun c =>
      !Address.addressChar c || !(decide (c.toLower = 'y'))) (by decide) hlt
  rcases hor with hno | hno
  · rw [hno] at h
    cases h
  · exact hno hy

/-- No host without the letter is one of YouTube. -/
theorem youtubeHost_eq_false (h : ∀ c ∈ host, c.toLower ≠ 'y') :
    youtubeHost (host.map Char.toLower) = false := by
  cases hy : youtubeHost (host.map Char.toLower) with
  | false => rfl
  | true =>
      obtain ⟨c, hc, hlower⟩ := List.mem_map.mp (youtubeHost_mem hy)
      exact absurd hlower (h c hc)

theorem isYoutubeUrl_eq (web : WebURL) : Web.isYoutubeUrl web
    = (WebUrl.isHttp web.scheme
      && youtubeHost (web.hostname.map Char.toLower)) := rfl

section Hosts

variable {domain : Chars → Option Chars} {raw scheme authority rest : Chars}
  {url : URL} {web : WebURL}

/-- An address in brackets is the host of YouTube for neither. -/
theorem literal_hosts {found : Chars}
    (hbracket : (Url.hostPart authority).head? = some '[')
    (hread : Url.parseHost (Url.hostPart authority) = some url.host)
    (hfound : WebUrl.parseSpecialHost domain
      (WebUrl.splitHost false (Url.hostPart authority)).1 = some found)
    (hweb : web.hostname = found) :
    isYoutubeURL url = false ∧ Web.isYoutubeUrl web = false := by
  obtain ⟨address, port, hshape, hbytes, haddress, hport⟩ :=
    Url.parseHost_literal hbracket hread
  have hname := Url.hostname_literal (by rw [hbytes, hshape]) hport
  refine ⟨?_, ?_⟩
  · rw [isYoutubeURL_eq hname fun c hc => (addressChar_not_y (haddress c hc)).1,
      youtubeHost_eq_false fun c hc => (addressChar_not_y (haddress c hc)).2,
      Bool.and_false]
  · have hhead : (WebUrl.splitHost false (Url.hostPart authority)).1.head?
        = some '[' := by
      rw [hshape]
      rfl
    unfold WebUrl.parseSpecialHost at hfound
    rw [if_pos hhead] at hfound
    obtain ⟨literal, hliteral⟩ := List.head?_eq_some_iff.mp hhead
    rw [hliteral] at hfound
    unfold WebUrl.parseHost at hfound
    split at hfound
    case h_2 hne => exact absurd rfl (hne literal)
    case h_1 =>
    split at hfound
    case isFalse => cases hfound
    case isTrue =>
      obtain ⟨pieces, -, rfl⟩ := Option.map_eq_some_iff.mp hfound
      rw [isYoutubeUrl_eq, hweb, youtubeHost_eq_false, Bool.and_false]
      intro c hc
      rcases List.mem_cons.mp hc with rfl | hc
      · decide
      rcases List.mem_append.mp hc with hc | hc
      · refine (addressChar_not_y ?_).2
        unfold Address.addressChar
        rcases Address.serialize_chars c hc with h | h <;> rw [h] <;> simp
      · rw [List.mem_singleton.mp hc]
        decide

/-- Both see the same host, as far as YouTube is concerned. -/
theorem hosts_agree (hdomain : AsciiDomains domain)
    (h : Hierarchy raw url scheme authority rest)
    (hascii : AsciiHost url.host)
    (hpunycode : hasPunycode (url.hostname.map ascii) = false)
    {found : WebUrl.Authority}
    (hhttp : WebUrl.isHttp (scheme.map Char.toLower) = true)
    (hfound : WebUrl.parseSpecialAuthority domain (scheme.map Char.toLower)
      authority = some found)
    (hscheme : web.scheme = scheme.map Char.toLower)
    (hweb : web.hostname = found.host) :
    isYoutubeURL url = Web.isYoutubeUrl web
      ∧ (isYoutubeURL url = true →
        equalFold url.hostname (name "youtu.be")
          = decide (web.hostname.map Char.toLower = "youtu.be".toList)) := by
  obtain ⟨user, huser⟩ := h.authorityRead
  obtain ⟨hread, -⟩ := Url.parseAuthority_host huser
  have hhost := WebUrl.parseSpecialAuthority_host hfound
  by_cases hbracket : (Url.hostPart authority).head? = some '['
  · obtain ⟨hgo, hts⟩ := literal_hosts hbracket hread hhost hweb
    refine ⟨hgo.trans hts.symm, fun hyes => ?_⟩
    rw [hgo] at hyes
    cases hyes
  · obtain ⟨hbytes, hplain⟩ := Url.parseHost_plain hascii hbracket hread
    have hname := Url.hostname_plain hplain hbytes
    rw [WebUrl.splitHost_plain hplain.noBracket] at hhost
    generalize hn : (cut ':' (Url.hostPart authority)).1 = n at hname hhost
    have hchars : ∀ c ∈ n, c.toNat < 128 ∧ c ≠ '%' := fun c hc => by
      have hmem := hplain.chars c (mem_cut_fst (hn ▸ hc))
      exact ⟨hmem.1, hmem.2.1⟩
    have hlt : ∀ c ∈ n, c.toNat < 128 := fun c hc => (hchars c hc).1
    have hnoBracket : n.head? ≠ some '[' := fun hhead =>
      hplain.noBracket (mem_cut_fst (hn ▸ List.mem_of_mem_head? hhead))
    unfold WebUrl.parseSpecialHost at hhost
    rw [if_neg hnoBracket] at hhost
    rw [hname, map_ascii_bytes hlt] at hpunycode
    have hgo := isYoutubeURL_eq hname hlt
    rw [h.scheme_eq, hhttp, Bool.true_and] at hgo
    rw [isYoutubeUrl_eq, hscheme, hhttp, Bool.true_and, hgo, hname,
      equalFold_eq hlt, hweb]
    cases hnumber : endsInNumber n with
    | true =>
        have hdigits := hdomain.numbers hchars hpunycode hnumber hhost
        have hnot : youtubeHost (n.map Char.toLower) = false := by
          cases hy : youtubeHost (n.map Char.toLower) with
          | false => rfl
          | true =>
              rw [youtubeHost_not_number hlt hy] at hnumber
              cases hnumber
        rw [hnot, youtubeHost_eq_false]
        · exact ⟨rfl, fun hyes => nomatch hyes⟩
        · intro c hc
          refine (addressChar_not_y ?_).2
          unfold Address.addressChar Address.isHex
          rcases hdigits c hc with h | h <;> rw [h] <;> simp
    | false =>
        have hsame := hdomain.names hchars hpunycode hnumber hhost
        have htwice : found.host.map Char.toLower = n.map Char.toLower := by
          rw [hsame, List.map_map]
          refine List.map_congr_left fun c hc => ?_
          have hall := forall_ascii
            (p := fun c => decide (c.toLower.toLower = c.toLower))
            (by decide) (hlt c hc)
          exact of_decide_eq_true hall
        rw [htwice]
        exact ⟨rfl, fun _ => rfl⟩

end Hosts

-- ======================================= ids

/-- A character of an id. -/
def isVideoIDChar (c : Char) : Bool :=
  Url.isAlphanum c || c = '_' || c = '-'

theorem isVideoIDByte_lt {b : UInt8} (h : isVideoIDByte b = true) :
    b.toNat < 128 := by
  have hle : ∀ c d : Char, c ≤ d → c.toNat ≤ d.toNat := fun _ _ hcd => hcd
  have hnat : (ascii b).toNat = b.toNat := by
    have hb := b.toNat_lt
    exact Utf8.toNat_ofNat (Or.inl (by omega))
  rw [← hnat]
  unfold isVideoIDByte Url.isAlphanum at h
  simp only [Bool.or_eq_true, Bool.and_eq_true, decide_eq_true_eq] at h
  rcases h with (((⟨-, h⟩ | ⟨-, h⟩) | ⟨-, h⟩) | h) | h
  · exact Nat.lt_of_le_of_lt (hle _ _ h) (by decide)
  · exact Nat.lt_of_le_of_lt (hle _ _ h) (by decide)
  · exact Nat.lt_of_le_of_lt (hle _ _ h) (by decide)
  · rw [h]
    decide
  · rw [h]
    decide

theorem isVideoIDChar_spec {c : Char} (hc : c.toNat < 128)
    (h : isVideoIDChar c = true) : pathSet c = false ∧ c ≠ '%' ∧ c ≠ '/' := by
  have hall : isVideoIDChar c = false
      ∨ (pathSet c = false ∧ ¬ c = '%') ∧ ¬ c = '/' := by
    simpa using forall_ascii (p := fun c => !isVideoIDChar c
      || (!pathSet c && !decide (c = '%') && !decide (c = '/'))) (by decide) hc
  rcases hall with hno | ⟨⟨hset, hpercent⟩, hslash⟩
  · rw [hno] at h
    cases h
  · exact ⟨hset, hpercent, hslash⟩

/-- An id in the format of the provider. -/
structure VideoID (id : Chars) : Prop where
  ne_nil : id ≠ []
  ascii : ∀ c ∈ id, c.toNat < 128
  chars : ∀ c ∈ id, isVideoIDChar c = true

/-- A byte string that the worker takes as an id is one. -/
theorem videoID_of_valid {id : Chars} (h : validVideoID (bytes id) = true) :
    VideoID id := by
  obtain ⟨hlength, hall⟩ := Regex.Pattern.fullMatch?_times h
  have hbytes := List.all_eq_true.mp hall
  have hascii : ∀ c ∈ id, c.toNat < 128 := fun c hc => by
    refine Nat.lt_of_not_le fun hhigh => ?_
    obtain ⟨b, t, ht⟩ :=
      List.exists_cons_of_ne_nil (String.utf8EncodeChar_ne_nil (c := c))
    have hmem : b ∈ String.utf8EncodeChar c := ht ▸ List.mem_cons_self
    have hlow :=
      isVideoIDByte_lt (hbytes b (List.mem_flatMap.mpr ⟨c, hc, hmem⟩))
    have hbyte := utf8_high hhigh b hmem
    omega
  have hne : id ≠ [] := by
    rintro rfl
    cases hlength
  refine ⟨hne, hascii, fun c hc => ?_⟩
  have hbyte := hbytes (UInt8.ofNat c.toNat) (List.mem_flatMap.mpr
    ⟨c, hc, by rw [utf8_ascii (hascii c hc)]; exact List.mem_singleton_self _⟩)
  unfold isVideoIDByte at hbyte
  rwa [ascii_utf8 (hascii c hc)] at hbyte

namespace VideoID

variable {id : Chars} (h : VideoID id)

include h

theorem bytes_iff : bytes s = bytes id ↔ s = id :=
  Youtube.bytes_iff h.ascii

theorem encode_iff : percentEncode pathSet s = id ↔ s = id := by
  constructor
  · exact fun heq => WebUrl.percentEncode_eq_plain
      (fun c hc => (isVideoIDChar_spec (h.ascii c hc) (h.chars c hc)).2.1) heq
  · rintro rfl
    exact WebUrl.percentEncode_self fun c hc =>
      (isVideoIDChar_spec (h.ascii c hc) (h.chars c hc)).1

end VideoID

/-- What VideoID returns. -/
theorem videoID_iff {raw : Chars} {url : URL} {id : String}
    (hurl : parseURL raw = some url)
    (hid : validVideoID (bytes id.toList) = true) :
    videoID raw = some id
      ↔ isYoutubeURL url = true ∧ idOf url = bytes id.toList := by
  have hvalid := videoID_of_valid hid
  have hbytes : ∀ s, validVideoID s = true → ∀ b ∈ s, b.toNat < 128 :=
    fun s hs b hb => isVideoIDByte_lt (List.all_eq_true.mp
      (Regex.Pattern.fullMatch?_times hs).2 b hb)
  unfold videoID
  rw [hurl]
  dsimp only
  constructor
  · intro h
    split at h
    case isFalse => cases h
    case isTrue hyes =>
      refine ⟨hyes.1, ?_⟩
      have hchars := congrArg String.toList (Option.some.inj h)
      unfold ofAscii at hchars
      rw [String.toList_ofList] at hchars
      rw [← hchars, WebUrl.bytes_map_ascii (hbytes _ hyes.2)]
  · rintro ⟨hyes, heq⟩
    rw [heq, if_pos ⟨hyes, hid⟩]
    unfold ofAscii
    rw [map_ascii_bytes hvalid.ascii, String.ofList_toList]

/-- What `youtubeVideoId` reads. -/
def Web.idOf (url : WebURL) : Option Chars :=
  if url.hostname.map Char.toLower = "youtu.be".toList then
    (url.pathname.splitOn '/')[1]?
  else (url.searchParam ['v']).or
    ((Web.embedPattern.frontMatch? url.pathname).map (·.get 1))

/-- The web server finds the id that it reads from a YouTube URL. -/
theorem youtubeVideoId_iff {domain : Chars → Option Chars} {raw : Chars}
    {web : WebURL} {id : String} (hweb : Web.parseUrl domain raw = some web)
    (hid : id.toList ≠ []) :
    Web.youtubeVideoId domain raw = some id
      ↔ Web.isYoutubeUrl web = true ∧ Web.idOf web = some id.toList := by
  have heq : Web.youtubeVideoId domain raw
      = if Web.isYoutubeUrl web then
          (if Web.idOf web = some [] then none
            else (Web.idOf web).map String.ofList)
        else none := by
    unfold Web.youtubeVideoId Web.idOf
    rw [hweb]
  rw [heq]
  constructor
  · intro h
    split at h
    case isFalse => cases h
    case isTrue hyes =>
      split at h
      case isTrue => cases h
      case isFalse =>
        obtain ⟨s, hs, rfl⟩ := Option.map_eq_some_iff.mp h
        rw [String.toList_ofList]
        exact ⟨hyes, hs⟩
  · rintro ⟨hyes, hs⟩
    rw [if_pos hyes, hs, if_neg fun h => hid (Option.some.inj h),
      Option.map_some, String.ofList_toList]

-- ===================================== paths

/-- The id in a path of two segments or more. -/
def embedId : List Chars → Option Chars
  | first :: second :: _ =>
      if (first = "embed".toList ∨ first = "shorts".toList) ∧ second ≠ [] then
        some second
      else none
  | _ => none

theorem embedId_take (parts : List Chars) :
    embedId (parts.take 2) = embedId parts := by
  match parts with
  | [] | [_] | _ :: _ :: _ => rfl

/-- Encoding keeps the names and the ids. -/
theorem embedId_encode {id : Chars} (hid : VideoID id) (parts : List Chars) :
    embedId (parts.map (percentEncode pathSet)) = some id
      ↔ embedId parts = some id := by
  match parts with
  | [] => exact Iff.rfl
  | [_] => exact ⟨(fun h => nomatch h), (fun h => nomatch h)⟩
  | first :: second :: rest =>
    have hword : ∀ word : Chars, (∀ c ∈ word, c ≠ '%' ∧ pathSet c = false) →
        (percentEncode pathSet first = word ↔ first = word) := by
      intro word hplain
      constructor
      · exact WebUrl.percentEncode_eq_plain fun c hc => (hplain c hc).1
      · rintro rfl
        exact WebUrl.percentEncode_self fun c hc => (hplain c hc).2
    have hembed := hword "embed".toList (of_all (by decide))
    have hshorts := hword "shorts".toList (of_all (by decide))
    unfold embedId
    simp only [List.map_cons, hembed, hshorts, ne_eq,
      WebUrl.percentEncode_eq_nil]
    split
    case isTrue => rw [Option.some_inj, Option.some_inj, hid.encode_iff]
    case isFalse => exact ⟨(fun h => nomatch h), (fun h => nomatch h)⟩

-- ------------------------------------------------- the server's pattern

open Regex (Matches Captures) in
theorem exact_ways (text : String) (s : Chars) :
    (Web.exact text).ways (text.toList ++ s) = [([], s)] := by
  unfold Web.exact Regex.Pattern.literal
  induction text.toList with
  | nil => rfl
  | cons c text ih =>
      have hone : (Regex.Pattern.char fun d => decide (c = d)).ways
          (c :: (text ++ s)) = [([], text ++ s)] := by
        simp [Regex.Pattern.ways]
      rw [List.foldr_cons, List.cons_append, Regex.Pattern.ways_seq hone, ih]
      rfl

open Regex Regex.Pattern in
/-- The word of an embedded video and what follows it. -/
theorem word_ways {word : Chars}
    (hword : word = "embed".toList ∨ word = "shorts".toList) (s : Chars) :
    (alt (Web.exact "embed") (Web.exact "shorts")).ways (word ++ s)
      = [([], s)] := by
  show (Web.exact "embed").ways (word ++ s)
    ++ (Web.exact "shorts").ways (word ++ s) = _
  rcases hword with rfl | rfl
  · rw [exact_ways]
    rfl
  · rw [exact_ways]
    rfl

open Regex Regex.Pattern in
/-- What the web server's pattern takes after embed or shorts. -/
theorem frontMatch_word {word : Chars}
    (hword : word = "embed".toList ∨ word = "shorts".toList) (s : Chars) :
    (Web.embedPattern.frontMatch? ('/' :: (word ++ '/' :: s))).map (·.get 1)
      = if s.takeWhile (· ≠ '/') = [] then none
        else some (s.takeWhile (· ≠ '/')) := by
  have hways : Web.embedPattern.ways ('/' :: (word ++ '/' :: s))
      = ((group 1 (plus (char (· ≠ '/')))).ways s).map
        fun m => (m.1, m.2) := by
    unfold Web.embedPattern
    have hfirst : (Web.exact "/").ways ('/' :: (word ++ '/' :: s))
        = [([], word ++ '/' :: s)] := exact_ways "/" _
    have hsecond := word_ways hword ('/' :: s)
    have hthird : (Web.exact "/").ways ('/' :: s) = [([], s)] :=
      exact_ways "/" s
    rw [ways_seq hfirst, ways_seq hsecond, ways_seq hthird, List.map_map,
      List.map_map]
    rfl
  unfold frontMatch?
  rw [hways, List.head?_map]
  show (((((plus (char (· ≠ '/'))).ways s).map _).head?.map _).map _).map _ = _
  rw [List.head?_map]
  cases s with
  | nil => rfl
  | cons c s =>
      rw [head?_plus_char]
      by_cases hc : c = '/'
      · rw [List.takeWhile_cons_of_neg (by simp [hc]), if_neg (by simp [hc])]
        rfl
      · rw [List.takeWhile_cons_of_pos (by simp [hc]), if_pos (by simp [hc]),
          if_neg (List.cons_ne_nil _ _)]
        have htake : (c :: s).take ((c :: s).length
            - (s.dropWhile (· ≠ '/')).length) = c :: s.takeWhile (· ≠ '/') := by
          have hsplit := List.takeWhile_append_dropWhile
            (p := fun d => decide (d ≠ '/')) (l := s)
          have hlength : (c :: s).length - (s.dropWhile (· ≠ '/')).length
              = (c :: s.takeWhile (· ≠ '/')).length := by
            have hsum := congrArg List.length hsplit
            rw [List.length_append] at hsum
            simp only [List.length_cons]
            omega
          have hwhole : c :: s = (c :: s.takeWhile (· ≠ '/'))
              ++ s.dropWhile (· ≠ '/') := by rw [List.cons_append, hsplit]
          rw [hlength, hwhole]
          exact List.take_left
        rw [← htake]
        rfl

open Regex Regex.Pattern in
/-- Only such a path has an embedded video. -/
theorem frontMatch_shape {cs : Captures Char}
    (h : Web.embedPattern.frontMatch? s = some cs) :
    ∃ word rest : Chars, (word = "embed".toList ∨ word = "shorts".toList)
      ∧ s = '/' :: (word ++ '/' :: rest) := by
  have hsame : ∀ a b : Char, decide (a = b) = true → a = b := fun a b hab =>
    of_decide_eq_true hab
  obtain ⟨m, hm, -⟩ := Option.map_eq_some_iff.mp h
  obtain ⟨front, hs, hmatch⟩ :=
    matches_of_mem_ways (List.mem_of_mem_head? hm)
  generalize m.1 = found at hmatch
  cases hmatch with
  | seq hslash hmore =>
      obtain ⟨rfl, -⟩ := matches_literal hsame hslash
      cases hmore with
      | seq hword hmore =>
          cases hmore with
          | @seq _ _ _ after _ _ hslash hgroup =>
              obtain ⟨rfl, -⟩ := matches_literal hsame hslash
              rw [hs]
              cases hword with
              | left hword =>
                  obtain ⟨rfl, -⟩ := matches_literal hsame hword
                  exact ⟨_, after ++ m.2, Or.inl rfl, by simp⟩
              | right hword =>
                  obtain ⟨rfl, -⟩ := matches_literal hsame hword
                  exact ⟨_, after ++ m.2, Or.inr rfl, by simp⟩

theorem splitOn_head (s : Chars) :
    ∃ rest, s.splitOn '/' = s.takeWhile (· ≠ '/') :: rest := by
  induction s with
  | nil => exact ⟨[], rfl⟩
  | cons c s ih =>
      obtain ⟨rest, hrest⟩ := ih
      rw [List.splitOn_cons_eq_if_modifyHead]
      by_cases hc : c = '/'
      · rw [if_pos (by simp [hc]), List.takeWhile_cons_of_neg (by simp [hc])]
        exact ⟨_, rfl⟩
      · rw [if_neg (by simp [hc]), List.takeWhile_cons_of_pos (by simp [hc]),
          hrest]
        exact ⟨rest, rfl⟩

/-- What the pattern finds, in terms of the segments. -/
theorem frontMatch_embed {parts : List Chars}
    (h : s.splitOn '/' = [] :: parts) (hparts : parts ≠ []) :
    (Web.embedPattern.frontMatch? s).map (·.get 1) = embedId parts := by
  have hword : ∀ word rest : Chars,
      (word = "embed".toList ∨ word = "shorts".toList) →
      ('/' :: (word ++ '/' :: rest)).splitOn '/'
        = [] :: word :: rest.splitOn '/' := fun word rest hword => by
    have hslash : '/' ∉ word := by rcases hword with rfl | rfl <;> decide
    rw [List.splitOn_cons_eq_if_modifyHead, if_pos (by simp),
      List.splitOn_append_cons_self_of_not_mem hslash]
  cases hmatch : Web.embedPattern.frontMatch? s with
  | some cs =>
      obtain ⟨word, rest, hw, rfl⟩ := frontMatch_shape hmatch
      rw [← hmatch, frontMatch_word hw]
      rw [hword word rest hw] at h
      obtain ⟨tail, htail⟩ := splitOn_head rest
      rw [← (List.cons.inj h).2, htail]
      show _ = if (word = _ ∨ word = _) ∧ _ then _ else _
      by_cases hnil : rest.takeWhile (· ≠ '/') = []
      · rw [if_pos hnil, if_neg fun hc => hc.2 hnil]
      · rw [if_neg hnil, if_pos ⟨hw, hnil⟩]
  | none =>
      have hs : ['/'].intercalate (s.splitOn '/') = s :=
        List.intercalate_splitOn '/'
      match parts, hparts with
      | [part], _ => rfl
      | first :: second :: rest, _ =>
          show none = if (first = _ ∨ first = _) ∧ _ then _ else _
          rw [if_neg]
          rintro ⟨hw, hne⟩
          rw [h, List.intercalate_cons_cons, List.intercalate_cons_cons] at hs
          have hshape : s = '/' :: (first ++ '/'
              :: ['/'].intercalate (second :: rest)) := by
            rw [← hs]
            simp
          have hfound := frontMatch_word hw (['/'].intercalate (second :: rest))
          rw [← hshape, hmatch, Option.map_none] at hfound
          have hsplit := hword first (['/'].intercalate (second :: rest)) hw
          rw [← hshape, h] at hsplit
          obtain ⟨tail, htail⟩ :=
            splitOn_head (['/'].intercalate (second :: rest))
          rw [htail] at hsplit
          have hsecond : second
              = (['/'].intercalate (second :: rest)).takeWhile (· ≠ '/') :=
            (List.cons.inj (List.cons.inj (List.cons.inj hsplit).2).2).1
          rw [← hsecond, if_neg hne] at hfound
          cases hfound

-- ------------------------------------------------- the service's parts

/-- Separators at the end only add empty parts. -/
theorem splitOn_trimEnd {α : Type} [DecidableEq α] (d : α) (s : List α) :
    ∃ n, s.splitOn d
      = (trimEnd (· = d) s).splitOn d ++ List.replicate n [] := by
  have hsplit := List.takeWhile_append_dropWhile (p := fun c => decide (c = d))
    (l := s.reverse)
  have ht := congrArg List.reverse hsplit
  rw [List.reverse_append, List.reverse_reverse] at ht
  change trimEnd (· = d) s ++ _ = s at ht
  generalize hend : (s.reverse.takeWhile (· = d)).reverse = t at ht
  have htail : t = List.replicate t.length d := by
    refine List.eq_replicate_of_mem fun c hc => ?_
    rw [← hend, List.mem_reverse] at hc
    simpa using List.mem_takeWhile_imp hc
  generalize trimEnd (fun c => decide (c = d)) s = front at ht ⊢
  refine ⟨t.length, ?_⟩
  rw [← ht, htail, List.length_replicate]
  induction t.length with
  | zero => simp
  | succ n ih =>
      have hsplit := List.splitOn_append_cons_self (a := d)
        (front ++ List.replicate n d) []
      rw [List.replicate_succ', ← List.append_assoc, hsplit, ih,
        List.replicate_succ', List.append_assoc]
      rfl

theorem bytes_splitOn (s : Chars) :
    (bytes s).splitOn 0x2F = (s.splitOn '/').map bytes :=
  splitOn_flatMap (f := String.utf8EncodeChar) (by decide)
    (fun _ hc => utf8_not_mem (d := '/') (by decide) hc) s

/-- The id in the path of a link, as the service reads it. -/
theorem idOf_path {url : URL} {path : Chars} {id : Chars} (hid : VideoID id)
    (hpath : url.path = bytes path)
    (hhead : path = [] ∨ path.head? = some '/')
    (hslashes : path.take 2 ≠ ['/', '/'])
    (hshort : equalFold url.hostname (name "youtu.be") = false)
    (hquery : url.queryValue (name "v") = []) :
    idOf url = bytes id ↔ embedId (segments path) = some id := by
  have hne : ([] : Bytes) ≠ bytes id := fun hnil =>
    have hbytes : bytes [] = bytes id := hnil
    hid.ne_nil (hid.bytes_iff.mp hbytes).symm
  have hword : ∀ (word : String) (s : Chars),
      (∀ c ∈ word.toList, c.toNat < 128) →
      (bytes s = name word ↔ s = word.toList) := fun word s hw => bytes_iff hw
  have hparts : ∃ n, (segments path).map bytes
      = pathParts url.path ++ List.replicate n [] := by
    rcases hhead with rfl | hhead
    · exact ⟨0, by rw [hpath]; rfl⟩
    · obtain ⟨tail, rfl⟩ := List.head?_eq_some_iff.mp hhead
      have hdrop : (bytes ('/' :: tail)).dropWhile (· = 0x2F) = bytes tail := by
        show (0x2F :: bytes tail).dropWhile _ = _
        rw [List.dropWhile_cons_of_pos rfl]
        cases tail with
        | nil => rfl
        | cons c tail =>
            have hc : c ≠ '/' := fun hc => hslashes (by rw [hc]; rfl)
            obtain ⟨b, t, ht⟩ :=
              List.exists_cons_of_ne_nil (String.utf8EncodeChar_ne_nil (c := c))
            have hb : b ≠ 0x2F := fun hb => utf8_not_mem (d := '/') (by decide)
              hc (by rw [ht, hb]; exact List.mem_cons_self)
            show (String.utf8EncodeChar c ++ bytes tail).dropWhile _
              = String.utf8EncodeChar c ++ bytes tail
            rw [ht, List.cons_append,
              List.dropWhile_cons_of_neg (by simpa using hb)]
      obtain ⟨n, hn⟩ := splitOn_trimEnd 0x2F (bytes tail)
      refine ⟨n, ?_⟩
      unfold pathParts segments
      rw [hpath, hdrop, ← hn, bytes_splitOn]
      rfl
  obtain ⟨n, hn⟩ := hparts
  unfold idOf
  rw [hshort, hquery]
  simp only [Bool.false_eq_true, if_false]
  cases hp : pathParts url.path with
  | nil => exact absurd hp (List.splitOn_ne_nil _ _)
  | cons first rest =>
      rw [hp] at hn
      cases rest with
      | nil =>
          have hnone : embedId (segments path) = none := by
            match segments path, hn with
            | [], _ => rfl
            | [_], _ => rfl
            | a :: b :: tail, hn =>
                have htail : bytes b :: tail.map bytes = List.replicate n [] :=
                  (List.cons.inj hn).2
                have hmem : bytes b ∈ List.replicate n ([] : Bytes) :=
                  htail ▸ List.mem_cons_self
                have hnil : b = [] :=
                  (bytes_iff (t := []) (fun _ h => nomatch h)).mp
                  (List.mem_replicate.mp hmem).2
                show (if (a = _ ∨ a = _) ∧ b ≠ [] then some b else none) = none
                rw [if_neg fun hc => hc.2 hnil]
          rw [hnone]
          exact ⟨(fun h => absurd h hne), (fun h => nomatch h)⟩
      | cons second rest =>
          match segments path, hn with
          | a :: b :: tail, hn =>
              obtain ⟨hfirst, hn⟩ := List.cons.inj hn
              obtain ⟨hsecond, -⟩ := List.cons.inj hn
              have hembed := hword "embed" a (of_all (by decide))
              have hshorts := hword "shorts" a (of_all (by decide))
              rw [hfirst] at hembed hshorts
              unfold embedId
              simp only [hembed, hshorts, true_and]
              by_cases hw : a = "embed".toList ∨ a = "shorts".toList
              · rw [if_pos hw, ← hsecond, hid.bytes_iff]
                by_cases hb : b = []
                · rw [if_neg fun hc => hc.2 hb, hb]
                  exact ⟨(fun h => absurd h.symm hid.ne_nil),
                    (fun h => nomatch h)⟩
                · rw [if_pos ⟨hw, hb⟩, Option.some_inj]
              · rw [if_neg hw, if_neg fun hc => hw hc.1]
                exact ⟨(fun h => absurd h hne), (fun h => nomatch h)⟩

-- ================================== readings

/-- A link with the scheme that both put before `www.`. -/
def linkText (raw : Chars) : Chars :=
  if "www.".toList.isPrefixOf raw then "https://".toList ++ raw else raw

/-- What follows the authority of a link. -/
def afterHost (raw : Chars) : Chars :=
  (((cut ':' (linkText raw)).2.getD []).drop 2).dropWhile
    fun c => c ≠ '/' && c ≠ '?'

/-- The path and the query as the service reads them. -/
def rawPath (raw : Chars) : Chars := (cut '?' (afterHost raw)).1

/-- The query of a text that the Go parser reads. -/
def rawQuery (raw : Chars) : Chars := (cut '?' (afterHost raw)).2.getD []

/-- The path and the query as the web server reads them. -/
def webPath (raw : Chars) : Chars :=
  (cut '?' (WebUrl.readable (afterHost raw))).1

/-- The query of a text that the web server reads. -/
def webQuery (raw : Chars) : Chars :=
  (cut '?' (WebUrl.readable (afterHost raw))).2.getD []

/-- The first pair of the query that names the video. -/
def videoPair (query : Chars) : Option Chars :=
  WebUrl.firstPair ['v'] query

/-- A path without escapes, backslashes and dot segments, of whose first
segments neither a fragment nor a space cuts one. -/
structure PathAlike (n : Nat) (raw : Chars) : Prop where
  noEscape : ∀ c ∈ rawPath raw, c ≠ '%'
  plain : PlainPath (webPath raw)
  same : (segments (rawPath raw)).take n = (segments (webPath raw)).take n

/-- A query whose first pair that names a video is well formed, and is
not cut by a fragment or hidden behind one. -/
structure QueryAlike (raw : Chars) : Prop where
  few : (rawQuery raw).count '&' + 1 ≤ Url.maxQueryParams
  same : videoPair (rawQuery raw) = videoPair (webQuery raw)
  wellFormed : ∀ pair, videoPair (rawQuery raw) = some pair →
    (Url.parameter pair).isSome = true

/-- A host that both readers spell alike. -/
structure HostAlike (url : URL) : Prop where
  ne_nil : url.host ≠ []
  plain : AsciiHost url.host
  noPunycode : hasPunycode (url.hostname.map ascii) = false

/-- A link to YouTube whose parts, as far as they give the video, both
readers see alike. -/
structure SameReading (raw : Chars) (url : URL) : Prop where
  short : equalFold url.hostname (name "youtu.be") = true → PathAlike 1 raw
  query : equalFold url.hostname (name "youtu.be") = false → QueryAlike raw
  path : equalFold url.hostname (name "youtu.be") = false →
    videoPair (rawQuery raw) = none →
    PathAlike 2 raw ∧ (rawPath raw).take 2 ≠ ['/', '/']
  emptyID : equalFold url.hostname (name "youtu.be") = false →
    ∀ pair, videoPair (rawQuery raw) = some pair →
      (WebUrl.formPair pair).2 = [] →
      ∀ first second rest, pathParts url.path = first :: second :: rest →
        first ≠ name "embed" ∧ first ≠ name "shorts"

section Readings

variable {domain : Chars → Option Chars} {raw : Chars} {url : URL}
  {web : WebURL}

/-- The scheme of a URL of the web begins with one letter. -/
theorem parseHttp_head {c : Char}
    (h : WebUrl.parseHttp domain (c :: s) = some web)
    (hc : WebUrl.isBlank c = false) : c.toLower = 'h' := by
  have hclean : ∃ t, WebUrl.clean (c :: s) = c :: t := by
    refine ⟨(trimEnd WebUrl.isBlank s).filter
      fun d => d ∉ ['\t', '\n', '\x0D'], ?_⟩
    show ((trimEnd WebUrl.isBlank ((c :: s).dropWhile WebUrl.isBlank)).filter
      fun d => d ∉ ['\t', '\n', '\x0D']) = _
    have htrim : trimEnd WebUrl.isBlank (c :: s)
        = c :: trimEnd WebUrl.isBlank s :=
      trimEnd_append (List.cons_ne_nil c []) hc s
    have hkeep : c ∉ ['\t', '\n', '\x0D'] := fun hmem => by
      simp only [List.mem_cons, List.not_mem_nil, or_false] at hmem
      rcases hmem with rfl | rfl | rfl <;> cases hc
    rw [List.dropWhile_cons_of_neg (by simp [hc]), htrim,
      List.filter_cons_of_pos (by simpa using hkeep)]
  obtain ⟨t, ht⟩ := hclean
  unfold WebUrl.parseHttp at h
  rw [ht] at h
  split at h
  case h_1 => cases h
  case h_2 scheme rest hsplit =>
    unfold WebUrl.splitScheme at hsplit
    simp only at hsplit
    split at hsplit
    case isFalse => cases hsplit
    case isTrue halpha =>
      have hchar : Url.isSchemeChar c = true := by
        unfold Char.isAlpha Char.isUpper Char.isLower at halpha
        unfold Url.isSchemeChar Url.isAlphanum
        simp only [Bool.or_eq_true, Bool.and_eq_true, decide_eq_true_eq]
          at halpha ⊢
        rcases halpha with h | h
        · exact Or.inl (Or.inl (Or.inr h))
        · exact Or.inl (Or.inl (Or.inl h))
      split at hsplit
      case h_2 => cases hsplit
      case h_1 =>
        cases hsplit
        split at h
        case isFalse => cases h
        case isTrue hhttp =>
          rw [List.takeWhile_cons_of_pos hchar, List.map_cons] at hhttp
          unfold WebUrl.isHttp at hhttp
          simp only [Bool.or_eq_true, decide_eq_true_eq] at hhttp
          rcases hhttp with h | h
          · exact (List.cons.inj h).1
          · exact (List.cons.inj h).1

/-- Both begin with the same text. -/
theorem parseURL_linkText (hurl : parseURL raw = some url)
    (hweb : Web.parseUrl domain raw = some web) :
    Url.parseRequestURI (linkText raw) = some url
      ∧ WebUrl.parseHttp domain (linkText raw) = some web := by
  refine ⟨?_, hweb⟩
  unfold parseURL at hurl
  unfold Web.parseUrl at hweb
  unfold linkText
  split at hweb
  case isTrue hprefix =>
    rw [if_pos hprefix]
    obtain ⟨tail, rfl⟩ := List.isPrefixOf_iff_prefix.mp hprefix
    exact hurl
  case isFalse hprefix =>
    rw [if_neg hprefix]
    split at hurl
    case isFalse => exact hurl
    case isTrue hwww =>
      match raw, hwww with
      | c :: s, hwww =>
        have hc : c.toLower = 'w' := (List.cons.inj hwww).1
        have hblank : WebUrl.isBlank c = false := by
          refine decide_eq_false fun hle => ?_
          have hnot : (decide (0x20 < c.toNat) || !decide (c.toLower = 'w'))
              = true :=
            forall_ascii (p := fun c => decide (0x20 < c.toNat)
              || !decide (c.toLower = 'w')) (by decide) (by omega)
          rw [hc, decide_eq_false (by omega)] at hnot
          cases hnot
        rw [parseHttp_head hweb hblank] at hc
        cases hc

/-- What follows the host of the link. -/
theorem afterHost_eq {scheme authority rest : Chars}
    (h : Hierarchy (linkText raw) url scheme authority rest) :
    afterHost raw = rest := by
  have hcolon : ∀ c ∈ scheme, c ≠ ':' := fun c hc hcolon => by
    have hchar := h.schemeChars c hc
    rw [hcolon] at hchar
    exact absurd hchar (by decide)
  have hplain :
      ∀ c ∈ authority, (decide (c ≠ '/') && decide (c ≠ '?')) = true :=
    fun c hc => by
      obtain ⟨hslash, hquery⟩ := h.authorityChars c hc
      simp [hslash, hquery]
  unfold afterHost
  rw [h.text, cut_before hcolon]
  show (authority ++ rest).dropWhile _ = rest
  rw [List.dropWhile_append_of_pos hplain]
  rcases h.restHead with rfl | ⟨c, s, rfl, rfl | rfl⟩
  · rfl
  · rw [List.dropWhile_cons_of_neg (by simp)]
  · rw [List.dropWhile_cons_of_neg (by simp)]

theorem rawPath_head {scheme authority rest : Chars}
    (h : Hierarchy (linkText raw) url scheme authority rest) :
    rawPath raw = [] ∨ (rawPath raw).head? = some '/' := by
  unfold rawPath
  rw [afterHost_eq h]
  rcases h.restHead with rfl | ⟨c, s, rfl, rfl | rfl⟩
  · exact Or.inl rfl
  · refine Or.inr ?_
    unfold cut
    rw [List.takeWhile_cons_of_pos (by decide)]
    rfl
  · exact Or.inl rfl

/-- The first of the segments, in bytes. -/
theorem takeWhile_bytes (s : Chars) :
    (bytes s).takeWhile (· ≠ 0x2F) = bytes (s.takeWhile (· ≠ '/')) :=
  congrArg Prod.fst (cut_flatMap (f := String.utf8EncodeChar) (by decide)
    (fun _ hc => utf8_not_mem (d := '/') (by decide) hc) s)

variable {scheme authority rest : Chars} {found : WebUrl.Authority}
  {id : Chars}

/-- In a short link both read the first segment. -/
theorem short_iff (hid : VideoID id)
    (h : Hierarchy (linkText raw) url scheme authority rest)
    (hweb : web.pathname = WebUrl.parseSpecialPath (webPath raw))
    (hshort : equalFold url.hostname (name "youtu.be") = true)
    (hhost : web.hostname.map Char.toLower = "youtu.be".toList)
    (halike : PathAlike 1 raw) :
    idOf url = bytes id ↔ Web.idOf web = some id := by
  have hpath : url.path = bytes (rawPath raw) := by
    refine Url.unescape_path halike.noEscape ?_
    unfold rawPath
    rw [afterHost_eq h]
    exact h.path
  have hdrop : (if url.path.head? = some 0x2F then url.path.drop 1
      else url.path) = bytes ((rawPath raw).drop 1) := by
    rw [hpath]
    rcases rawPath_head h with hnil | hhead
    · rw [hnil]
      rfl
    · obtain ⟨tail, htail⟩ := List.head?_eq_some_iff.mp hhead
      rw [htail]
      rfl
  obtain ⟨others, hsegments⟩ := splitOn_head ((rawPath raw).drop 1)
  change segments (rawPath raw) = _ at hsegments
  have hsplit := WebUrl.splitOn_parseSpecialPath halike.plain
  have hsame := halike.same
  rw [hsegments] at hsame
  match hw : segments (webPath raw), hsame with
  | first :: more, hsame =>
    have hfirst : ((rawPath raw).drop 1).takeWhile (· ≠ '/') = first :=
      (List.cons.inj hsame).1
    rw [hw] at hsplit
    unfold idOf Web.idOf
    rw [hshort, if_pos hhost, hweb, hsplit]
    simp only [if_true]
    rw [hdrop, takeWhile_bytes, hfirst, hid.bytes_iff]
    show first = id ↔ some (percentEncode pathSet first) = some id
    rw [Option.some_inj, hid.encode_iff]

/-- In another link the path is read where the query has no video. -/
theorem path_iff (hid : VideoID id)
    (h : Hierarchy (linkText raw) url scheme authority rest)
    (hweb : web.pathname = WebUrl.parseSpecialPath (webPath raw))
    (hshort : equalFold url.hostname (name "youtu.be") = false)
    (hquery : url.queryValue (name "v") = []) (halike : PathAlike 2 raw)
    (hslashes : (rawPath raw).take 2 ≠ ['/', '/']) :
    idOf url = bytes id
      ↔ (Web.embedPattern.frontMatch? web.pathname).map (·.get 1)
        = some id := by
  have hpath : url.path = bytes (rawPath raw) := by
    refine Url.unescape_path halike.noEscape ?_
    unfold rawPath
    rw [afterHost_eq h]
    exact h.path
  have hne : (segments (webPath raw)).map (percentEncode pathSet) ≠ [] :=
    fun hnil => List.splitOn_ne_nil _ _ (List.map_eq_nil_iff.mp hnil)
  rw [idOf_path hid hpath (rawPath_head h) hslashes hshort hquery, hweb,
    frontMatch_embed (WebUrl.splitOn_parseSpecialPath halike.plain) hne,
    embedId_encode hid, ← embedId_take, halike.same, embedId_take]

/-- The value that the service reads in the query. -/
theorem queryValue_eq
    (h : Hierarchy (linkText raw) url scheme authority rest)
    (halike : QueryAlike raw) :
    url.queryValue (name "v")
      = (((videoPair (rawQuery raw)).bind Url.parameter).map
        Prod.snd).getD [] := by
  have hquery : url.rawQuery = rawQuery raw := by
    unfold rawQuery
    rw [afterHost_eq h]
    exact h.query
  unfold URL.queryValue Url.parseQuery
  rw [hquery, if_neg (Nat.not_lt.mpr halike.few)]
  have hname : ∀ c ∈ ['v'], c.toNat < 128 := of_all (by decide)
  have hfind := WebUrl.find?_parameter hname halike.wellFormed
  exact congrArg (fun found => (Option.map Prod.snd found).getD []) hfind

/-- The id in another link than a short one. -/
theorem long_iff (hid : VideoID id)
    (h : Hierarchy (linkText raw) url scheme authority rest)
    (hweb : web.pathname = WebUrl.parseSpecialPath (webPath raw))
    (hparam : web.searchParam ['v']
      = (videoPair (webQuery raw)).map fun pair => (WebUrl.formPair pair).2)
    (hshort : equalFold url.hostname (name "youtu.be") = false)
    (hhost : web.hostname.map Char.toLower ≠ "youtu.be".toList)
    (hsame : SameReading raw url) :
    idOf url = bytes id ↔ Web.idOf web = some id := by
  have halike := hsame.query hshort
  have hvalue := queryValue_eq h halike
  unfold Web.idOf
  rw [if_neg hhost, hparam, ← halike.same]
  cases hpair : videoPair (rawQuery raw) with
  | none =>
      rw [hpair] at hvalue
      obtain ⟨hpath, hslashes⟩ := hsame.path hshort hpair
      rw [Option.map_none, Option.none_or]
      exact path_iff hid h hweb hshort hvalue hpath hslashes
  | some pair =>
      obtain ⟨⟨key, value⟩, hparameter⟩ :=
        Option.isSome_iff_exists.mp (halike.wellFormed pair hpair)
      have hform := (WebUrl.formPair_of_parameter hparameter).2
      rw [hpair, Option.bind_some, hparameter] at hvalue
      change url.queryValue (name "v") = value at hvalue
      rw [Option.map_some, Option.some_or, Option.some_inj, hform,
        WebUrl.decode_eq_iff hid.ascii]
      have hid' : idOf url = value := by
        unfold idOf
        rw [hshort, hvalue]
        simp only [Bool.false_eq_true, if_false]
        split
        case h_2 => rfl
        case h_1 first second others hparts =>
          refine if_neg fun hc => ?_
          have hempty : (WebUrl.formPair pair).2 = [] := by
            rw [hform, hc.1]
            rfl
          obtain ⟨hembed, hshorts⟩ :=
            hsame.emptyID hshort pair hpair hempty first second others hparts
          exact hc.2.elim hembed hshorts
      rw [hid']

/-- The two recognisers of links find the same videos in every link
that both readers of URLs see alike: of a host that is not YouTube's in
every one whose host is plain ASCII, and of YouTube's where the part that
gives the video is read alike. -/
theorem videoID_iff_youtubeVideoId (hdomain : AsciiDomains domain)
    (hurl : parseURL raw = some url)
    (hweb : Web.parseUrl domain raw = some web) (hhost : HostAlike url)
    (hsame : isYoutubeURL url = true → SameReading raw url) {id : String}
    (hid : validVideoID (bytes id.toList) = true) :
    videoID raw = some id ↔ Web.youtubeVideoId domain raw = some id := by
  have hvideo := videoID_of_valid hid
  obtain ⟨hgo, hts⟩ := parseURL_linkText hurl hweb
  obtain ⟨scheme, authority, rest, h⟩ :=
    Url.hierarchy_of_parse hgo hhost.ne_nil
  obtain ⟨user, huser⟩ := h.authorityRead
  obtain ⟨hhttp, found, hfound, hrest⟩ := WebUrl.parseHttp_hierarchy h
    (Url.authority_ne_nil hhost.ne_nil huser)
    (Url.authority_chars hhost.plain huser) hts
  have hafter := afterHost_eq h
  have hpath : web.pathname = WebUrl.parseSpecialPath (webPath raw) := by
    rw [hrest]
    unfold webPath
    rw [hafter]
    rfl
  have hparam : web.searchParam ['v'] = (videoPair (webQuery raw)).map
      fun pair => (WebUrl.formPair pair).2 := by
    rw [hrest, WebUrl.searchParam_rest]
    unfold webQuery videoPair
    rw [hafter]
  have hscheme : web.scheme = scheme.map Char.toLower := by
    rw [hrest]
    rfl
  have hname : web.hostname = found.host := by
    rw [hrest]
    rfl
  obtain ⟨hyoutube, hshort⟩ := hosts_agree hdomain h hhost.plain
    hhost.noPunycode hhttp hfound hscheme hname
  rw [videoID_iff hurl hid, youtubeVideoId_iff hweb hvideo.ne_nil, ← hyoutube]
  refine and_congr_right fun hyes => ?_
  have hreading := hsame hyes
  have hfold := hshort hyes
  by_cases hbe : web.hostname.map Char.toLower = "youtu.be".toList
  · rw [decide_eq_true hbe] at hfold
    exact short_iff hvideo h hpath hfold hbe (hreading.short hfold)
  · rw [decide_eq_false hbe] at hfold
    exact long_iff hvideo h hpath hparam hfold hbe hreading

-- ===================================== parts

/-- What a reader of URLs takes a host for. -/
inductive HostKind
  | other
  | youtuBe
  /-- another host of YouTube -/
  | youtube
  deriving DecidableEq

/-- The kind of a host (Go). -/
def hostKind (url : URL) : HostKind :=
  if isYoutubeURL url then
    if equalFold url.hostname (name "youtu.be") then .youtuBe else .youtube
  else .other

/-- The kind of a host (TypeScript). -/
def Web.hostKind (url : WebURL) : HostKind :=
  if Web.isYoutubeUrl url then
    if url.hostname.map Char.toLower = "youtu.be".toList then .youtuBe
    else .youtube
  else .other

/-- The first segment of a path, as bytes. -/
def firstSegment (path : Bytes) : Bytes :=
  (if path.head? = some 0x2F then path.drop 1 else path).takeWhile (· ≠ 0x2F)

/-- The segment behind `embed` or `shorts`, where a path begins so. -/
def embedded (path : Bytes) : Bytes :=
  match pathParts path with
  | first :: second :: _ =>
      if first = name "embed" ∨ first = name "shorts" then second else []
  | _ => []

/-- The id in the path of an embedded video. -/
def Web.embedded (path : Chars) : Option Chars :=
  (Web.embedPattern.frontMatch? path).map (·.get 1)

/-- The part of a link that gives the video, as the service sees it. -/
def part (url : URL) : Bytes :=
  match hostKind url with
  | .other => []
  | .youtuBe => firstSegment url.path
  | .youtube =>
      if url.queryValue (name "v") = [] then embedded url.path
      else url.queryValue (name "v")

/-- The same part, as the web server sees it. -/
def Web.part (url : WebURL) : Option Chars :=
  match Web.hostKind url with
  | .other => none
  | .youtuBe => (url.pathname.splitOn '/')[1]?
  | .youtube => (url.searchParam ['v']).or (Web.embedded url.pathname)

/-- The same text, or an id for neither. -/
def SameID (s : Bytes) (t : Option Chars) : Prop :=
  ∀ id : Chars, validVideoID (bytes id) = true → (s = bytes id ↔ t = some id)

/-- The two readers of URLs see the same in the part of a link that gives
the video, as far as that may be an id. -/
structure SameVideo (url : URL) (web : WebURL) : Prop where
  /-- the first segment of a short link -/
  first : hostKind url = .youtuBe → Web.hostKind web = .youtuBe →
    SameID (firstSegment url.path) (web.pathname.splitOn '/')[1]?
  /-- the parameter `v` of another link -/
  parameter : hostKind url = .youtube → Web.hostKind web = .youtube →
    url.queryValue (name "v") ≠ [] → ∀ value,
      web.searchParam ['v'] = some value →
        SameID (url.queryValue (name "v")) (some value)
  /-- the segment behind `embed` or `shorts`, without the parameter -/
  path : hostKind url = .youtube → Web.hostKind web = .youtube →
    url.queryValue (name "v") = [] → web.searchParam ['v'] = none →
      SameID (embedded url.path) (Web.embedded web.pathname)
  /-- a parameter that is empty, or that only the web server sees -/
  empty : hostKind url = .youtube → Web.hostKind web = .youtube →
    url.queryValue (name "v") = [] → ∀ value,
      web.searchParam ['v'] = some value →
        SameID (embedded url.path) (some value)
  /-- a parameter that only the service sees -/
  hidden : hostKind url = .youtube → Web.hostKind web = .youtube →
    url.queryValue (name "v") ≠ [] → web.searchParam ['v'] = none →
      SameID (url.queryValue (name "v")) (Web.embedded web.pathname)
  /-- a host that they take for different ones -/
  host : hostKind url ≠ Web.hostKind web → SameID (part url) (Web.part web)

/-- The worker's part is the id it reads from a YouTube URL. -/
theorem part_iff {id : Chars} (hid : id ≠ []) :
    part url = bytes id ↔ isYoutubeURL url = true ∧ idOf url = bytes id := by
  have hne : ([] : Bytes) ≠ bytes id := by
    intro hnil
    obtain ⟨c, s, rfl⟩ := List.exists_cons_of_ne_nil hid
    obtain ⟨b, u, hu⟩ :=
      List.exists_cons_of_ne_nil (String.utf8EncodeChar_ne_nil (c := c))
    rw [show bytes (c :: s) = String.utf8EncodeChar c ++ bytes s from rfl, hu]
      at hnil
    cases hnil
  unfold part hostKind
  cases hyes : isYoutubeURL url with
  | false =>
      simp only [Bool.false_eq_true, if_false, false_and, iff_false]
      exact hne
  | true =>
      simp only [if_true, true_and]
      unfold idOf
      cases hshort : equalFold url.hostname (name "youtu.be") with
      | true => exact Iff.rfl
      | false =>
          simp only [Bool.false_eq_true, if_false]
          unfold embedded
          by_cases hv : url.queryValue (name "v") = []
          · rw [if_pos hv, hv]
            match pathParts url.path with
            | [] | [_] => exact Iff.rfl
            | first :: second :: _ => simp only [true_and]
          · rw [if_neg hv]
            match pathParts url.path with
            | [] | [_] => exact Iff.rfl
            | first :: second :: _ =>
                dsimp only
                rw [if_neg fun h => hv h.1]

theorem Web.part_iff {id : Chars} :
    Web.part web = some id
      ↔ Web.isYoutubeUrl web = true ∧ Web.idOf web = some id := by
  unfold Web.part Web.hostKind Web.idOf
  cases hyes : Web.isYoutubeUrl web with
  | false =>
      simp only [Bool.false_eq_true, if_false, false_and, iff_false]
      exact fun h => by cases h
  | true =>
      simp only [if_true, true_and]
      by_cases hshort : web.hostname.map Char.toLower = "youtu.be".toList
      · rw [if_pos hshort, if_pos hshort]
      · rw [if_neg hshort, if_neg hshort]
        exact Iff.rfl

/-- One case for every way the part may be found. -/
theorem sameVideo_iff :
    SameVideo url web ↔ SameID (part url) (Web.part web) := by
  constructor
  · intro h
    by_cases hkind : hostKind url = Web.hostKind web
    swap
    · exact h.host hkind
    unfold part Web.part
    rw [← hkind]
    cases hgo : hostKind url with
    | other =>
        intro id hid
        have hne := (videoID_of_valid hid).ne_nil
        constructor
        · intro hnil
          have hempty : bytes [] = bytes id := hnil
          have hnone :=
            (bytes_iff (s := id) (t := []) (fun _ hc => nomatch hc)).mp
            hempty.symm
          exact absurd hnone hne
        · intro hnone
          cases hnone
    | youtuBe => exact h.first hgo (hkind.symm.trans hgo)
    | youtube =>
        have hts := hkind.symm.trans hgo
        by_cases hv : url.queryValue (name "v") = []
        · rw [if_pos hv]
          cases hparam : web.searchParam ['v'] with
          | none => exact h.path hgo hts hv hparam
          | some value => exact h.empty hgo hts hv value hparam
        · rw [if_neg hv]
          cases hparam : web.searchParam ['v'] with
          | none => exact h.hidden hgo hts hv hparam
          | some value => exact h.parameter hgo hts hv value hparam
  · intro h
    refine ⟨?_, ?_, ?_, ?_, ?_, fun _ => h⟩
    · intro hgo hts
      unfold part Web.part at h
      rwa [hgo, hts] at h
    · intro hgo hts hv value hparam
      unfold part Web.part at h
      rwa [hgo, hts, if_neg hv, hparam] at h
    · intro hgo hts hv hparam
      unfold part Web.part at h
      rwa [hgo, hts, if_pos hv, hparam] at h
    · intro hgo hts hv value hparam
      unfold part Web.part at h
      rwa [hgo, hts, if_pos hv, hparam] at h
    · intro hgo hts hv hparam
      unfold part Web.part at h
      rwa [hgo, hts, if_neg hv, hparam] at h

end Readings

/-- Names of plain ASCII alone, and no addresses. -/
def plainDomain (s : Chars) : Option Chars :=
  if s.any WebUrl.forbiddenHost ∨ endsInNumber s then none
  else some (s.map Char.toLower)

theorem asciiDomains_plainDomain : AsciiDomains plainDomain where
  numbers _ _ hnumber h := by
    unfold plainDomain at h
    rw [if_pos (Or.inr hnumber)] at h
    cases h
  names _ _ _ h := by
    unfold plainDomain at h
    split at h
    case isTrue => cases h
    case isFalse =>
      cases h
      rfl

end StreamBrew.Youtube
