/-
Links to videos as the web server reads them (youtube.ts): the id of the
video that an owner adds by hand.

What the URL library makes of a domain is a parameter. A link of
another scheme than those of the web is refused by the parser here and
by `isYoutubeUrl` there.
-/
import StreamBrew.Lib.HttpUrl
import StreamBrew.Lib.Regex

namespace StreamBrew.Youtube.Web

open Regex Regex.Pattern Text WebUrl

variable (domain : Chars → Option Chars)

/-- A link without a scheme is one to a secure page. -/
def parseUrl (url : Chars) : Option WebURL :=
  parseHttp domain
    (if "www.".toList.isPrefixOf url then "https://".toList ++ url else url)

/-- The hosts that videos are linked at (TypeScript). -/
def isYoutubeUrl (url : WebURL) : Bool :=
  let host := url.hostname.map Char.toLower
  isHttp url.scheme
    && (host = "youtu.be".toList || host = "youtube.com".toList
      || ".youtube.com".toList.isSuffixOf host
      || host = "youtube-nocookie.com".toList
      || ".youtube-nocookie.com".toList.isSuffixOf host)

/-- The text, as it is written. -/
def exact (text : String) : Pattern Char := literal (· = ·) text.toList

/-- `^\/(?:embed|shorts)\/([^/]+)`, without the anchor. -/
def embedPattern : Pattern Char :=
  seq (exact "/")
    (seq (alt (exact "embed") (exact "shorts"))
      (seq (exact "/") (group 1 (plus (char (· ≠ '/'))))))

/-- The provider's id of the video behind a link. -/
def youtubeVideoId (url : Chars) : Option String :=
  match parseUrl domain url with
  | none => none
  | some parsedUrl =>
      if isYoutubeUrl parsedUrl then
        let host := parsedUrl.hostname.map Char.toLower
        let id :=
          if host = "youtu.be".toList then (parsedUrl.pathname.splitOn '/')[1]?
          else (parsedUrl.searchParam ['v']).or
            ((embedPattern.frontMatch? parsedUrl.pathname).map (·.get 1))
        if id = some [] then none else id.map String.ofList
      else none

end StreamBrew.Youtube.Web
