/-!
# Lines of a byte stream

A stream of bytes is a sequence of lines.  A line feed ends a line and is not
part of it; the last line may lack one.  A carriage return right before the
line feed is not part of the line either.  `Line.text?` is the text of a line,
if its bytes are UTF-8.
-/

namespace ScopedLisp

/-- The text that bytes encode, if they are UTF-8. -/
def decodeText? (bytes : List UInt8) : Option String :=
  String.fromUTF8? (ByteArray.mk bytes.toArray)

/-- The bytes of a line, and whether a line feed ended it. -/
structure Line where
  bytes : List UInt8
  terminated : Bool

namespace Line

/-- The line feed. -/
def feed : UInt8 := 10

/-- The lines of a stream of bytes. -/
def ofBytes : List UInt8 → List Line
  | [] => []
  | byte :: bytes =>
    if byte = feed then ⟨[], true⟩ :: ofBytes bytes
    else
      match ofBytes bytes with
      | [] => [⟨[byte], false⟩]
      | line :: lines => { line with bytes := byte :: line.bytes } :: lines

/-- A text without one carriage return at its end. -/
def dropReturn (text : String) : String :=
  let characters := text.toList
  if characters.getLast? = some '\r' then String.ofList characters.dropLast
  else text

/-- The text of a line, if its bytes are UTF-8. -/
def text? (line : Line) : Option String :=
  (decodeText? line.bytes).map fun text =>
    if line.terminated then dropReturn text else text

end Line

end ScopedLisp
