import TxLoad.Message.Wire
import TxLoad.Text.Blank

namespace TxLoad.Message

/-!
# Messages as a stream of bytes

On a link every message is a line, ended by a line feed; blank lines mean nothing.

* `frame` is a message as it is sent;
* `readLine` reads one line, `feed` takes bytes as they arrive, `readAll` a whole stream.
-/

/-- The bytes of a text. -/
def utf8 (s : String) : List UInt8 := s.toUTF8.toList

/-- The text of some bytes, if they are one. -/
def ofUtf8? (bytes : List UInt8) : Option String := String.fromUTF8? ⟨bytes.toArray⟩

/-- The bytes of a message with the line feed that ends it. -/
def frame (m : Message) : List UInt8 := utf8 (m.wire ++ "\n")

/-- Reads a line without its end; nothing for a blank one. -/
def readLine (bytes : List UInt8) : Option Reading :=
  match ofUtf8? bytes with
  | none => some .unreadable
  | some text =>
    -- Bytes that are no text are a fault even on a blank line.
    if (Text.trim text.toList).isEmpty then none
    else
      match ofWire? text with
      | some m => some (.message m)
      | none => some .malformed

/-- The complete lines of some bytes without their ends, which are a line feed with perhaps a
    carriage return before it, and the bytes behind the last of them. `line` holds the bytes of
    the current line so far, reversed. -/
def splitLines (line : List UInt8) : List UInt8 → List (List UInt8) × List UInt8
  | [] => ([], line.reverse)
  | b :: r =>
    if b = 10 then
      let (ls, rest) := splitLines [] r
      ((match line with
        | 13 :: l => l.reverse
        | l => l.reverse) :: ls, rest)
    else splitLines (b :: line) r

/-- Takes bytes that follow those of an unfinished line: what they complete, and the unfinished
    line they leave. -/
def feed (pending bytes : List UInt8) : List Reading × List UInt8 :=
  let (ls, rest) := splitLines pending.reverse bytes
  (ls.filterMap readLine, rest)

/-- What the end of the stream completes: the unfinished line, and the end itself. -/
def finish (pending : List UInt8) : List Reading :=
  (if pending.isEmpty then [] else (readLine pending).toList) ++ [.ended]

/-- The readings up to and with the first fault of the link. -/
def untilFault : List Reading → List Reading
  | [] => []
  | .unreadable :: _ => [.unreadable]
  | r :: rs => r :: untilFault rs

/-- Reads a whole stream. -/
def readAll (bytes : List UInt8) : List Reading :=
  let (readings, pending) := feed [] bytes
  untilFault (readings ++ finish pending)

end TxLoad.Message
