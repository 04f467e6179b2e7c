import ProjectLayout.Json.Value
import ProjectLayout.Number.Shortest

/-!
# Writing JSON text

* `Value.compact` — no blanks at all (`to_string`).
* `Value.pretty` — one item or member a line, indented by two spaces a level (`to_string_pretty`).

Strings escape the quote, the backslash and the controls below the space, the common ones by a
letter and the others by their code.
-/

namespace ProjectLayout.Json

/-! ## Scalars -/

/-- A hexadecimal digit in lower case. -/
def hexDigit (n : Nat) : Char := Nat.digitChar n

/-- How one character stands in a string. -/
def escapeChar (c : Char) : List Char :=
  if c = '"' then ['\\', '"']
  else if c = '\\' then ['\\', '\\']
  else if c = '\x08' then ['\\', 'b']
  else if c = '\x0c' then ['\\', 'f']
  else if c = '\n' then ['\\', 'n']
  else if c = '\r' then ['\\', 'r']
  else if c = '\t' then ['\\', 't']
  else if c.toNat < 0x20 then
    ['\\', 'u', '0', '0', hexDigit (c.toNat / 16), hexDigit (c.toNat % 16)]
  else [c]

/-- A string between quotes. -/
def stringText (s : String) : List Char := '"' :: s.toList.flatMap escapeChar ++ ['"']

/-- A whole number in decimal digits. -/
def integerText (n : Int) : List Char :=
  (if n < 0 then ['-'] else []) ++ Nat.toDigits 10 n.natAbs

/-! ## Compact text -/

mutual

/-- A value without blanks. -/
def compactChars : Value → List Char
  | .null => "null".toList
  | .bool true => "true".toList
  | .bool false => "false".toList
  | .integer n => integerText n
  | .float x => x.text
  | .string s => stringText s
  | .array items => '[' :: compactItems items ++ [']']
  | .object members => '\x7b' :: compactMembers members ++ ['\x7d']

def compactItems : List Value → List Char
  | [] => []
  | [v] => compactChars v
  | v :: next :: more => compactChars v ++ ',' :: compactItems (next :: more)

def compactMembers : List (String × Value) → List Char
  | [] => []
  | [(key, v)] => stringText key ++ ':' :: compactChars v
  | (key, v) :: next :: more =>
    stringText key ++ ':' :: compactChars v ++ ',' :: compactMembers (next :: more)

end

/-- The text of a value without blanks. -/
def Value.compact (v : Value) : String := String.ofList (compactChars v)

/-! ## Indented text -/

/-- A line break and the indentation of a level. -/
def newline (level : Nat) : List Char := '\n' :: List.replicate (2 * level) ' '

mutual

def prettyChars (level : Nat) : Value → List Char
  | .null => "null".toList
  | .bool true => "true".toList
  | .bool false => "false".toList
  | .integer n => integerText n
  | .float x => x.text
  | .string s => stringText s
  | .array [] => ['[', ']']
  | .array (v :: more) => '[' :: prettyItems (level + 1) (v :: more) ++ newline level ++ [']']
  | .object [] => ['\x7b', '\x7d']
  | .object (m :: more) =>
    '\x7b' :: prettyMembers (level + 1) (m :: more) ++ newline level ++ ['\x7d']

def prettyItems (level : Nat) : List Value → List Char
  | [] => []
  | [v] => newline level ++ prettyChars level v
  | v :: next :: more =>
    newline level ++ prettyChars level v ++ ',' :: prettyItems level (next :: more)

def prettyMembers (level : Nat) : List (String × Value) → List Char
  | [] => []
  | [(key, v)] => newline level ++ stringText key ++ ':' :: ' ' :: prettyChars level v
  | (key, v) :: next :: more =>
    newline level ++ stringText key ++ ':' :: ' ' :: prettyChars level v ++
      ',' :: prettyMembers level (next :: more)

end

/-- The text of a value with one item or member a line. -/
def Value.pretty (v : Value) : String := String.ofList (prettyChars 0 v)

end ProjectLayout.Json
