/-
URLs as the URL Standard reads and writes them, as far as their scheme
is not special.

The states of its parser are functions here, each on the part of the
text that it reads: the authority ends at the first `/`, `?` or `#`, its
host at the first colon outside of brackets, the path at the first `?`
or `#`.

# Left out

A special scheme (`http`, `https`, `ws`, `wss`, `ftp`, `file`), whose
URLs are refused here.
-/
import StreamBrew.Lib.Url

namespace WebUrl

open Text

-- ========================== percent-encoding

/-- The C0 control percent-encode set. -/
def controlSet (c : Char) : Bool := c.toNat < 0x20 || 0x7E < c.toNat

/-- What is encoded in a fragment. -/
def fragmentSet (c : Char) : Bool :=
  controlSet c || c ∈ " \"<>`".toList

/-- What is encoded in a query. -/
def querySet (c : Char) : Bool := controlSet c || c ∈ " \"#<>".toList

/-- What is encoded in a path. -/
def pathSet (c : Char) : Bool := querySet c || c ∈ "?^`{}".toList

/-- What is encoded in a name or a password. -/
def userinfoSet (c : Char) : Bool :=
  pathSet c || c ∈ "/:;=@[\\]|".toList

/-- A byte with a percent sign. -/
def percentEncodeByte (b : UInt8) : Chars :=
  ['%', Url.upperhex (b.toNat / 16), Url.upperhex (b.toNat % 16)]

/-- The characters of a set are encoded byte by byte. -/
def percentEncode (set : Char → Bool) (s : Chars) : Chars :=
  s.flatMap fun c =>
    if set c then (String.utf8EncodeChar c).flatMap percentEncodeByte
    else [c]

-- ====================================== host

/-- A forbidden host code point. -/
def forbiddenHost (c : Char) : Bool :=
  c = '\x00' || c ∈ "\t\n\r #/:<>?@[\\]^|".toList

/-- An address in brackets, or an opaque host. -/
def parseHost (s : Chars) : Option Chars :=
  match s with
  | '[' :: literal =>
      if literal.getLast? = some ']' then
        (Address.parse literal.dropLast).map fun address =>
          '[' :: Address.serialize address ++ [']']
      else none
  | s =>
      if s.any forbiddenHost then none
      else some (percentEncode controlSet s)

/-- A host, and what is after the colon that ends it. -/
def splitHost : Bool → Chars → Chars × Option Chars
  | _, [] => ([], none)
  | inside, c :: s =>
      if c = ':' ∧ ¬ inside then ([], some s)
      else
        let (host, port) :=
          splitHost (if c = '[' then true else if c = ']' then false
            else inside) s
        (c :: host, port)

/-- A port that is empty is none. -/
def parsePort (s : Chars) : Option (Option Nat) :=
  if s.any fun c => !c.isDigit then none
  else if s = [] then some none
  else if Address.number 10 s ≤ 65535 then some (some (Address.number 10 s))
  else none

/-- Who is addressed, and where. -/
structure Authority where
  username : Chars := []
  password : Chars := []
  host : Chars
  port : Option Nat
  deriving DecidableEq, Repr

/-- A host and a port. -/
def parseHostPort (username password s : Chars) : Option Authority :=
  let (host, port) := splitHost false s
  if port.isSome ∧ host = [] then none
  else match parseHost host, parsePort (port.getD []) with
  | some host, some port => some { username, password, host, port }
  | _, _ => none

/-- The credentials are before the last `@`. -/
def parseAuthority (s : Chars) : Option Authority :=
  if '@' ∈ s then
    let host := (s.reverse.takeWhile (· ≠ '@')).reverse
    let credentials := ((s.reverse.dropWhile (· ≠ '@')).drop 1).reverse
    if host = [] then none
    else parseHostPort (percentEncode userinfoSet (cut ':' credentials).1)
      (percentEncode userinfoSet ((cut ':' credentials).2.getD [])) host
  else parseHostPort [] [] s

-- ====================================== path

/-- `%2e` is a dot. -/
def dots : Chars → Chars
  | '%' :: '2' :: 'e' :: s | '%' :: '2' :: 'E' :: s => '.' :: dots s
  | c :: s => c :: dots s
  | [] => []

/-- A segment that stands for its own directory. -/
def isSingleDot (segment : Chars) : Bool := dots segment = ['.']

/-- A segment that stands for the directory above. -/
def isDoubleDot (segment : Chars) : Bool := dots segment = ['.', '.']

/-- The segments of a path after those that are read. -/
def appendSegments : List Chars → List Chars → List Chars
  | path, [] => path
  | path, [last] =>
      if isDoubleDot last then path.dropLast ++ [[]]
      else if isSingleDot last then path ++ [[]]
      else path ++ [percentEncode pathSet last]
  | path, segment :: rest =>
      if isDoubleDot segment then appendSegments path.dropLast rest
      else if isSingleDot segment then appendSegments path rest
      else appendSegments (path ++ [percentEncode pathSet segment]) rest

/-- The path after its first slash. -/
def parsePath (s : Chars) : Chars :=
  (appendSegments [] (s.splitOn '/')).flatMap fun segment => '/' :: segment

-- =================================== parsing

/-- A parsed URL; its parts stay encoded. -/
structure WebURL where
  scheme : Chars
  /-- nothing where the scheme is followed by no authority -/
  authority : Option Authority
  pathname : Chars
  query : Option Chars
  fragment : Option Chars
  deriving DecidableEq, Repr

/-- The schemes whose URLs have a host. -/
def specialSchemes : List Chars :=
  ["http", "https", "ws", "wss", "ftp", "file"].map String.toList

/-- Without spaces and controls around it, and without tabs and
newlines. -/
def clean (s : Chars) : Chars :=
  (trimEnd (fun c => c.toNat ≤ 0x20)
    (s.dropWhile fun c => c.toNat ≤ 0x20)).filter
      fun c => c ∉ ['\t', '\n', '\x0D']

/-- The scheme and what is after its colon. -/
def splitScheme (s : Chars) : Option (Chars × Chars) :=
  match s with
  | c :: _ =>
      if c.isAlpha then
        match s.dropWhile Url.isSchemeChar with
        | ':' :: rest =>
            some ((s.takeWhile Url.isSchemeChar).map Char.toLower, rest)
        | _ => none
      else none
  | [] => none

/-- The end of an authority. -/
def isTerminator (c : Char) : Bool := c ∈ ['/', '?', '#']

/-- The path, the query and the fragment. -/
def parseRest (scheme : Chars) (authority : Option Authority) (s : Chars) :
    WebURL :=
  let (beforeFragment, fragment) := cut '#' s
  let (path, query) := cut '?' beforeFragment
  { scheme, authority
    pathname := match path with
      | '/' :: path => parsePath path
      | path => path
    query := query.map (percentEncode querySet)
    fragment := fragment.map (percentEncode fragmentSet) }

/-- `new URL(input)` of an input that is a text. -/
def parse (input : Chars) : Option WebURL :=
  match splitScheme (clean input) with
  | none => none
  | some (scheme, rest) =>
      if scheme ∈ specialSchemes then none
      else match rest with
      | '/' :: '/' :: rest =>
          (parseAuthority (rest.takeWhile fun c => !isTerminator c)).map
            fun authority => parseRest scheme (some authority)
              (rest.dropWhile fun c => !isTerminator c)
      | rest => some (parseRest scheme none rest)

-- ================================ the object

namespace WebURL

variable (url : WebURL)

/-- The host; none is empty. -/
def hostname : Chars := (url.authority.map Authority.host).getD []

/-- The name; none is empty. -/
def username : Chars := (url.authority.map Authority.username).getD []

/-- The password; none is empty. -/
def password : Chars := (url.authority.map Authority.password).getD []

/-- Empty also where the URL ends with a lone `?`. -/
def search : Chars :=
  match url.query with
  | none | some [] => []
  | some query => '?' :: query

/-- The fragment with its sign, where it is not empty. -/
def hash : Chars :=
  match url.fragment with
  | none | some [] => []
  | some fragment => '#' :: fragment

/-- A host that cannot be parsed is not set. -/
def setHostname (host : Chars) : WebURL :=
  match parseHost host with
  | none => url
  | some host =>
      { url with authority := url.authority.map fun a => { a with host } }

/-- The path is parsed again; other parts stay. -/
def setPathname (path : Chars) : WebURL :=
  { url with
    pathname := match path with
      | [] => []
      | '/' :: path | path => parsePath path }

end WebURL

/-- The authority, as it is written. -/
def Authority.text (a : Authority) : Chars :=
  (if a.username = [] ∧ a.password = [] then []
    else a.username ++ (if a.password = [] then [] else ':' :: a.password)
      ++ ['@'])
    ++ a.host
    ++ (a.port.map fun port => ':' :: Nat.toDigits 10 port).getD []

/-- The parts put together again. -/
def WebURL.href (url : WebURL) : Chars :=
  url.scheme ++ ':' ::
    (url.authority.map fun a => '/' :: '/' :: a.text).getD []
    ++ url.pathname
    ++ (url.query.map fun query => '?' :: query).getD []
    ++ (url.fragment.map fun fragment => '#' :: fragment).getD []

example : (parse " RTMPS://LIVE.Example.com:443/app/../live?#".toList).map
      (fun url => String.ofList url.href)
    = some "rtmps://LIVE.Example.com:443/live?#" := by decide

end WebUrl
