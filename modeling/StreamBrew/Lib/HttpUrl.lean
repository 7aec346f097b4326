/-
URLs of `http` and `https` as the URL Standard reads them, and their
search parameters.

The parts are those of `WebUrl`; what is special here is that a
backslash is a slash, that any number of them stands before the
authority, and that the host is a domain.

# Left out

What the standard makes of a domain (percent-decoding, the mapping of
names that are not ASCII, IPv4 addresses) is a parameter. Every other
scheme is refused.
-/
import StreamBrew.Lib.Utf8
import StreamBrew.Lib.WebUrl

namespace WebUrl

open Text

/-- The special-query percent-encode set. -/
def specialQuerySet (c : Char) : Bool := querySet c || c = '\''

/-- The parser takes either slash. -/
def isSlash (c : Char) : Bool := c = '/' || c = '\\'

/-- The end of the authority of a special URL. -/
def isSpecialTerminator (c : Char) : Bool := isTerminator c || c = '\\'

/-- The scheme of a URL of the web. -/
def isHttp (scheme : Chars) : Bool :=
  scheme = "http".toList || scheme = "https".toList

/-- The port that is left out of a text. -/
def defaultPort (scheme : Chars) : Nat :=
  if scheme = "http".toList then 80 else 443

-- =================================== parsing

section Parse

variable (domain : Chars → Option Chars)

/-- An address in brackets, or a domain. -/
def parseSpecialHost (s : Chars) : Option Chars :=
  if s.head? = some '[' then parseHost s else domain s

/-- A host and a port; the port of the scheme is none. -/
def parseSpecialHostPort (scheme username password s : Chars) :
    Option Authority :=
  let (host, port) := splitHost false s
  if host = [] then none
  else match parseSpecialHost domain host, parsePort (port.getD []) with
  | some host, some port =>
      some
        { username, password, host
          port := if port = some (defaultPort scheme) then none else port }
  | _, _ => none

/-- The credentials are before the last `@`. -/
def parseSpecialAuthority (scheme s : Chars) : Option Authority :=
  if '@' ∈ s then
    let host := (s.reverse.takeWhile (· ≠ '@')).reverse
    let credentials := ((s.reverse.dropWhile (· ≠ '@')).drop 1).reverse
    parseSpecialHostPort domain scheme
      (percentEncode userinfoSet (cut ':' credentials).1)
      (percentEncode userinfoSet ((cut ':' credentials).2.getD [])) host
  else parseSpecialHostPort domain scheme [] [] s

/-- A path, which begins with a slash unless it is empty. -/
def parseSpecialPath (s : Chars) : Chars :=
  (appendSegments [] ((s.drop 1).splitOnP isSlash)).flatMap
    fun segment => '/' :: segment

/-- The path, the query and the fragment. -/
def parseSpecialRest (scheme : Chars) (authority : Authority) (s : Chars) :
    WebURL :=
  let (beforeFragment, fragment) := cut '#' s
  let (path, query) := cut '?' beforeFragment
  { scheme
    authority := some authority
    pathname := parseSpecialPath path
    query := query.map (percentEncode specialQuerySet)
    fragment := fragment.map (percentEncode fragmentSet) }

/-- `new URL(input)` of an input whose scheme is one of the web. -/
def parseHttp (input : Chars) : Option WebURL :=
  match splitScheme (clean input) with
  | none => none
  | some (scheme, rest) =>
      if isHttp scheme then
        let rest := rest.dropWhile isSlash
        (parseSpecialAuthority domain scheme
            (rest.takeWhile fun c => !isSpecialTerminator c)).map
          fun authority => parseSpecialRest scheme authority
            (rest.dropWhile fun c => !isSpecialTerminator c)
      else none

end Parse

-- ========================= search parameters

/-- What is no escape stands for itself. -/
def percentDecode : Chars → Bytes
  | '%' :: a :: b :: s =>
      if Address.isHex a ∧ Address.isHex b then
        UInt8.ofNat (16 * Address.digitValue a + Address.digitValue b)
          :: percentDecode s
      else 0x25 :: percentDecode (a :: b :: s)
  | c :: s => String.utf8EncodeChar c ++ percentDecode s
  | [] => []

/-- A name or a value. -/
def formDecode (s : Chars) : Chars :=
  Utf8.decode (percentDecode (s.map fun c => if c = '+' then ' ' else c))

/-- One `name=value`. -/
def formPair (s : Chars) : Chars × Chars :=
  (formDecode (cut '=' s).1, formDecode ((cut '=' s).2.getD []))

/-- The parser of `application/x-www-form-urlencoded`. -/
def formParse (s : Chars) : List (Chars × Chars) :=
  ((s.splitOn '&').filter (· ≠ [])).map formPair

namespace WebURL

variable (url : WebURL)

/-- The parameters of the query. -/
def searchParams : List (Chars × Chars) := formParse (url.query.getD [])

/-- `url.searchParams.get(name)` -/
def searchParam (name : Chars) : Option Chars :=
  (url.searchParams.find? fun p => p.1 = name).map Prod.snd

end WebURL

example : (parseHttp some
    "https:\\\\u:p@a.b:443\\c/./x/%2E%2e/d?v=1+%C3%A9#".toList).map
      (fun url => (url.hostname, url.pathname, url.searchParam ['v']))
    = some ("a.b".toList, "/c/d".toList, some "1 é".toList) := by decide

end WebUrl
