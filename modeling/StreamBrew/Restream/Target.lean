/-
The target of a forward: the server URL that the web server accepts
(target.ts, restream.ts), and the URL that a node accepts (target.go) of
those that the control plane builds.

A server URL and a target are texts; what the user enters are strings of
JavaScript. A key is stored as the text it decodes to.
-/
import StreamBrew.Lib.Utf16
import StreamBrew.Lib.WebUrl
import StreamBrew.Restream.Plane

namespace StreamBrew.Restream

open Text
open Utf16 (Units decode isSpace isSpaceCode)
open WebUrl (WebURL)

-- =================================== schemas

/-- What follows `^rtmps?:\/\/`. -/
def afterRtmp (s : Chars) : Option Chars :=
  match s with
  | 'r' :: 't' :: 'm' :: 'p' :: ':' :: '/' :: '/' :: rest => some rest
  | 'r' :: 't' :: 'm' :: 'p' :: 's' :: ':' :: '/' :: '/' :: rest => some rest
  | _ => none

/-- `[^\s#]+` -/
def plainText (s : Chars) : Bool :=
  s ≠ [] && s.all fun c => !isSpace c && c != '#'

/-- The schema of a server URL, as the page and the API check it. -/
def restreamServerURLSchema (s : Chars) : Bool :=
  10 ≤ Utf16.length s && Utf16.length s ≤ 2048
    && (afterRtmp s).any plainText

/-- The schema of a stream key. -/
def restreamStreamKeySchema (key : Units) : Bool :=
  1 ≤ key.length && key.length ≤ 512
    && key.all fun u => !isSpaceCode u.toNat && u != 0x23

/-- The `targetUrl` of `RestreamMediaAuthorizeResponseSchema`: what
follows the last `#` is the key. -/
def restreamTargetURLSchema (s : Chars) : Bool :=
  12 ≤ Utf16.length s && Utf16.length s ≤ 3072
    && (afterRtmp s).any fun rest =>
      let key := (rest.reverse.takeWhile (· ≠ '#')).reverse
      let server := ((rest.reverse.dropWhile (· ≠ '#')).drop 1).reverse
      '#' ∈ rest && server ≠ [] && server.all (fun c => !isSpace c)
        && plainText key

-- ================================ server URL

/-- The networks that may not be forwarded to. -/
def isPrivateIPv4 : List Nat → Bool
  | first :: second :: _ =>
      first = 0 || first = 10 || first = 127
        || (first = 169 && second = 254)
        || (first = 172 && 16 ≤ second && second ≤ 31)
        || (first = 192 && second = 168)
        || 224 ≤ first
  | _ => false

/-- The texts of addresses that may not be forwarded to. -/
def isPrivateIPv6 (hostname : Chars) : Bool :=
  let normalized := hostname.map Char.toLower
  normalized = "::".toList || normalized = "::1".toList
    || normalized.take 2 = "fc".toList || normalized.take 2 = "fd".toList
    || (normalized.take 2 = "fe".toList
      && (normalized[2]?).any fun c => c ∈ "89ab".toList)

/-- `replace(/^\[(.*)\]$/, "$1")` -/
def withoutBrackets (hostname : Chars) : Chars :=
  if hostname.head? = some '[' ∧ hostname.getLast? = some ']' then
    hostname.tail.dropLast
  else hostname

/-- A host of the same network. -/
def isPrivateHost (hostname : Chars) : Bool :=
  ((Address.dotted hostname).any isPrivateIPv4)
    || ((Address.parse hostname).isSome && isPrivateIPv6 hostname)

/-- `replace(/\/+$/, "") || "/"` -/
def trimPath (pathname : Chars) : Chars :=
  if trimEnd (· = '/') pathname = [] then ['/']
  else trimEnd (· = '/') pathname

/-- `replace(/\/$/, "")` -/
def dropSlash (href : Chars) : Chars :=
  if href.getLast? = some '/' then href.dropLast else href

/-- Nothing where it throws. -/
def normalizeRestreamServerURL (input : Units) : Option Chars :=
  match WebUrl.parse (decode (Utf16.trim input)) with
  | none => none
  | some url =>
      if url.scheme ≠ "rtmp".toList ∧ url.scheme ≠ "rtmps".toList
          ∨ url.username ≠ [] ∨ url.password ≠ [] ∨ url.search ≠ []
          ∨ url.hash ≠ [] ∨ url.hostname = []
          ∨ url.hostname = "localhost".toList then none
      else if isPrivateHost (withoutBrackets url.hostname) then none
      else
        let url := url.setHostname (url.hostname.map Char.toLower)
        let url := url.setPathname (trimPath url.pathname)
        let href := dropSlash url.href
        if restreamServerURLSchema href then some href else none

/-- The target that authorizePublisher builds of a server URL and a
key. -/
def target (server : Chars) (key : Units) : Chars :=
  (Plane.targetURL (String.ofList server)
    (String.ofList (decode key))).toList

-- ====================================== node

/-- The checks of ValidateTargetURL before it looks the host up. -/
def validTargetURL (targetURL : Chars) : Bool :=
  match Url.parse targetURL with
  | none => false
  | some parsed =>
      (parsed.scheme = "rtmp".toList || parsed.scheme = "rtmps".toList)
        && parsed.host ≠ [] && parsed.user.isNone && parsed.rawQuery = []
        && parsed.fragment ≠ []
        && parsed.fragment.all fun b =>
          b ∉ ([0x23, 0x20, 0x09, 0x0D, 0x0A] : Bytes)

-- ================================= condition

/-- Every `%` begins an escape, of two digits that a condition allows. -/
def escapesAll (allowed : Nat → Nat → Bool) : Chars → Bool
  | [] => true
  | '%' :: a :: b :: s =>
      ((Url.unhex a).any fun x => (Url.unhex b).any (allowed x))
        && escapesAll allowed s
  | c :: s => c != '%' && escapesAll allowed s

/-- Host and port of the URL, as they are written. -/
def serverAuthority (server : Chars) : Chars :=
  ((server.dropWhile (· ≠ '/')).drop 2).takeWhile (· ≠ '/')

/-- The path of the URL, as it is written. -/
def serverPath (server : Chars) : Chars :=
  (((server.dropWhile (· ≠ '/')).drop 2).dropWhile (· ≠ '/')).takeWhile
    (· ≠ '?')

/-- The host has no brace or backquote, and no escape but those of bytes
beyond ASCII and of `%`; every `%` of the path and of the key begins an
escape; and none of the key's is that of `#` or of a space, tab, carriage
return or newline. -/
def forwardable (server : Chars) (key : Units) : Bool :=
  (serverAuthority server).all (fun c => c ∉ "`{}".toList)
    && escapesAll (fun x y => 8 ≤ x || (x = 2 && y = 5))
      (serverAuthority server)
    && escapesAll (fun _ _ => true) (serverPath server)
    && escapesAll (fun x y =>
        16 * x + y ∉ [0x23, 0x20, 0x09, 0x0D, 0x0A]) (decode key)

end StreamBrew.Restream
