/-!
# Faults in JSON text

* `Json.Fault` — what can be wrong with a text, with its wording.
* `Json.Position` — a line and a column, the column counted in bytes from the line's start.
* `Json.SyntaxError` — a fault and where it was noticed.
-/

namespace ProjectLayout.Json

/-- What can be wrong with a text. -/
inductive Fault where
  | endInList
  | endInObject
  | endInString
  | endInValue
  | expectedColon
  | expectedListCommaOrEnd
  | expectedObjectCommaOrEnd
  | expectedWord
  | expectedValue
  | invalidEscape
  | invalidNumber
  | numberOutOfRange
  | controlCharacter
  | keyNotString
  | loneSurrogate
  | trailingComma
  | trailingCharacters
  | unfinishedSurrogatePair
  | tooDeep
  deriving DecidableEq, Repr

def Fault.message : Fault → String
  | endInList => "EOF while parsing a list"
  | endInObject => "EOF while parsing an object"
  | endInString => "EOF while parsing a string"
  | endInValue => "EOF while parsing a value"
  | expectedColon => "expected `:`"
  | expectedListCommaOrEnd => "expected `,` or `]`"
  | expectedObjectCommaOrEnd => "expected `,` or `\x7d`"
  | expectedWord => "expected ident"
  | expectedValue => "expected value"
  | invalidEscape => "invalid escape"
  | invalidNumber => "invalid number"
  | numberOutOfRange => "number out of range"
  | controlCharacter => "control character (\\u0000-\\u001F) found while parsing a string"
  | keyNotString => "key must be a string"
  | loneSurrogate => "lone leading surrogate in hex escape"
  | trailingComma => "trailing comma"
  | trailingCharacters => "trailing characters"
  | unfinishedSurrogatePair => "unexpected end of hex escape"
  | tooDeep => "recursion limit exceeded"

/-! ## Positions -/

/-- A line from 1 and the number of bytes passed on it. -/
structure Position where
  line : Nat
  column : Nat
  deriving DecidableEq, Repr

/-- The position after `offset` more bytes of a text. -/
def Position.advance (p : Position) : List Char → Nat → Position
  | [], _ => p
  | c :: rest, offset =>
    if offset = 0 then p
    else if c = '\n' then advance ⟨p.line + 1, 0⟩ rest (offset - 1)
    else if offset < c.utf8Size then ⟨p.line, p.column + offset⟩
    else advance ⟨p.line, p.column + c.utf8Size⟩ rest (offset - c.utf8Size)

/-- The position `offset` bytes into a text. -/
def Position.ofOffset (text : List Char) (offset : Nat) : Position := advance ⟨1, 0⟩ text offset

/-- The length of a text in bytes. -/
def byteLength : List Char → Nat
  | [] => 0
  | c :: rest => c.utf8Size + byteLength rest

/-- A fault and where it was noticed. -/
structure SyntaxError where
  fault : Fault
  position : Position
  deriving DecidableEq, Repr

/-- The wording of a fault with its place. -/
def SyntaxError.message (e : SyntaxError) : String :=
  s!"{e.fault.message} at line {e.position.line} column {e.position.column}"

end ProjectLayout.Json
