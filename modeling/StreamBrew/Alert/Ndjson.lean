/-
Lines of a stream of bytes (ndjson.ts), as the overlay and the web server
read alert events.

The chunks of a stream are given; neither an abort nor a read error ends
it early. What the generator yields is the list of its lines, followed by
how it ends.
-/
import StreamBrew.Lib.Utf8
import StreamBrew.Lib.Utf16

namespace StreamBrew.Alert.Ndjson

open Text

/-- How a stream of lines ends. -/
inductive Ending
  | returned
  | lineTooLong
  deriving DecidableEq, Repr

/-- What a buffer is cut into: whole lines, and what may still grow. -/
structure Buffered where
  lines : List Chars
  remainder : Chars

/-- `buffer.split("\n")`, whose last piece is kept. -/
def completeLines (buffer : Chars) : Buffered where
  lines := (buffer.splitOn '\n').dropLast
  remainder := ((buffer.splitOn '\n').getLast?).getD []

/-- `line.trim().length > 0` -/
def nonBlank (line : Chars) : Bool := line.any fun c => !Utf16.isSpace c

section Read

variable (maximumLineLength : Nat)

/-- The length is that of a JavaScript string, in code units. -/
def tooLong (line : Chars) : Bool :=
  decide (maximumLineLength < Utf16.length line)

/-- The loop over lines: those that it yields, and whether it has come to
its end. -/
def yieldLines : List Chars → List Chars × Bool
  | [] => ([], true)
  | line :: lines =>
      if tooLong maximumLineLength line then ([], false)
      else
        let (rest, ended) := yieldLines lines
        (if nonBlank line then line :: rest else rest, ended)

/-- What is yielded of a buffer, and what stays in it; nothing stays where
a line is too long. -/
def readBuffer (buffer : Chars) : List Chars × Option Chars :=
  let buffered := completeLines buffer
  let (yielded, ended) := yieldLines maximumLineLength buffered.lines
  (yielded,
    if ended && !tooLong maximumLineLength buffered.remainder then
      some buffered.remainder
    else none)

/-- The loop over chunks; after the last one the decoder ends the text. -/
def readFrom (decoder : Utf8.Decoder) (buffer : Chars) :
    List Bytes → List Chars × Ending
  | [] =>
      match readBuffer maximumLineLength (buffer ++ decoder.flush) with
      | (yielded, none) => (yielded, .lineTooLong)
      | (yielded, some buffer) =>
          (if nonBlank buffer then yielded ++ [buffer] else yielded, .returned)
  | value :: chunks =>
      let (text, decoder) := decoder.decode value
      match readBuffer maximumLineLength (buffer ++ text) with
      | (yielded, none) => (yielded, .lineTooLong)
      | (yielded, some buffer) =>
          let (rest, ending) := readFrom decoder buffer chunks
          (yielded ++ rest, ending)

/-- The lines of a stream that comes in these chunks. -/
def readNdjsonLines (chunks : List Bytes) : List Chars × Ending :=
  readFrom maximumLineLength {} [] chunks

end Read

end StreamBrew.Alert.Ndjson
