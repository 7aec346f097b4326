/-
The scan of a donation message (worker.go): the videos that the message
links to, with the end that a link names.

A time beyond the range of the column is none (`parseTimestamp_le`), so
an end is one that the column takes.
-/
import StreamBrew.Videos.Ingest
import StreamBrew.Videos.Youtube

namespace StreamBrew.Videos

open Youtube Text

/-- The `end` of a link; an invalid one is ignored. -/
def endSeconds (rawURL : Chars) : Option PositiveInt :=
  match Url.parse rawURL with
  | none => none
  | some parsed =>
      match h : parseTimestamp (parsed.queryValue (name "end")) with
      | none => none
      | some seconds =>
          if hpos : 0 < seconds then
            some ⟨seconds, hpos, parseTimestamp_le h⟩
          else none

/-- One link of a message. -/
def scanVideo (rawURL : Chars) : Option ScannedVideo :=
  (videoID rawURL).map fun providerVideoID =>
    { providerVideoID
      url := String.ofList rawURL
      endSeconds := endSeconds rawURL
      timed := fun e _ => e.2.1 }

/-- The videos that a message links to. -/
def scanVideos : Option String → List ScannedVideo
  | none => []
  | some message => (extractURLs message.toList).filterMap scanVideo

end StreamBrew.Videos
