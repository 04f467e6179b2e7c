import ProjectLayout.Json.Value
import ProjectLayout.Json.Syntax

/-!
# Reading JSON text

Each reader takes the characters left and gives a result with the characters after it, or a
`Failure` that keeps what was left when the fault was noticed.

* `readString` — a string after its opening quote, escapes and surrogate pairs resolved.
* `readNumber` — whole numbers that fit 64 bits stay exact, all others become doubles.
* `readValue` — a value of at most the given depth.
* `Value.parse` — a whole document, with the position of the first fault (`from_str`).
-/

namespace ProjectLayout.Json

/-- A fault, the characters left there, and how many bytes of them were already taken. -/
structure Failure where
  fault : Fault
  left : List Char
  taken : Nat

/-- What is read from the front of a text. -/
abbrev Reader (α : Type) := List Char → Except Failure (α × List Char)

/-- A fault at the next character, which counts as taken. -/
def failAt {α : Type} (fault : Fault) (left : List Char) : Except Failure α :=
  .error ⟨fault, left, 1⟩

/-- A fault right after the characters taken so far. -/
def failBefore {α : Type} (fault : Fault) (left : List Char) : Except Failure α :=
  .error ⟨fault, left, 0⟩

/-- Whether a character may stand between tokens. -/
def isJsonBlank (c : Char) : Bool := c = ' ' || c = '\n' || c = '\t' || c = '\r'

def skipBlanks (s : List Char) : List Char := s.dropWhile isJsonBlank

/-! ## Words -/

/-- The rest of a word such as `true` whose first letter is read. -/
def readWord : List Char → Reader Unit
  | [], s => .ok ((), s)
  | _ :: _, [] => failBefore .endInValue []
  | w :: word, c :: rest => if c = w then readWord word rest else failAt .expectedWord (c :: rest)

/-! ## Strings -/

/-- The value of a hexadecimal digit in either case. -/
def hexDigit? (c : Char) : Option Nat :=
  if '0' ≤ c ∧ c ≤ '9' then some (c.toNat - '0'.toNat)
  else if 'a' ≤ c ∧ c ≤ 'f' then some (c.toNat - 'a'.toNat + 10)
  else if 'A' ≤ c ∧ c ≤ 'F' then some (c.toNat - 'A'.toNat + 10)
  else none

/-- The number written by four hexadecimal digits. -/
def hexNumber? (a b c d : Char) : Option Nat := do
  return (((← hexDigit? a) * 16 + (← hexDigit? b)) * 16 + (← hexDigit? c)) * 16 + (← hexDigit? d)

/-- Four hexadecimal digits. -/
def readHex (s : List Char) :
    Except Failure (Nat × { rest : List Char // rest.length < s.length }) :=
  match s with
  | a :: b :: c :: d :: rest =>
    match hexNumber? a b c d with
    | some n => .ok (n, ⟨rest, by simp; omega⟩)
    | none => .error ⟨.invalidEscape, a :: b :: c :: d :: rest, 4⟩
  | short =>
    if 4 ≤ byteLength short then .error ⟨.invalidEscape, short, 4⟩ else failBefore .endInString []

def isLeadingSurrogate (n : Nat) : Bool := 0xd800 ≤ n && n ≤ 0xdbff

def isTrailingSurrogate (n : Nat) : Bool := 0xdc00 ≤ n && n ≤ 0xdfff

/-- The second half of a surrogate pair. -/
def readTrailingSurrogate (lead : Nat) (s : List Char) :
    Except Failure (Char × { rest : List Char // rest.length < s.length }) :=
  match s with
  | [] => failBefore .endInString []
  | '\\' :: [] => failBefore .endInString []
  | '\\' :: 'u' :: rest =>
    match readHex rest with
    | .error e => .error e
    | .ok (trail, ⟨after, h⟩) =>
      if isTrailingSurrogate trail then
        .ok (Char.ofNat (0x10000 + (lead - 0xd800) * 0x400 + (trail - 0xdc00)),
          ⟨after, by simp; omega⟩)
      else failBefore .loneSurrogate after
  | '\\' :: rest => failAt .unfinishedSurrogatePair rest
  | left => failAt .unfinishedSurrogatePair left

/-- The character of an escape whose backslash is read. -/
def readEscape (s : List Char) :
    Except Failure (Char × { rest : List Char // rest.length < s.length }) :=
  match s with
  | [] => failBefore .endInString []
  | '"' :: rest => .ok ('"', ⟨rest, by simp⟩)
  | '\\' :: rest => .ok ('\\', ⟨rest, by simp⟩)
  | '/' :: rest => .ok ('/', ⟨rest, by simp⟩)
  | 'b' :: rest => .ok ('\x08', ⟨rest, by simp⟩)
  | 'f' :: rest => .ok ('\x0c', ⟨rest, by simp⟩)
  | 'n' :: rest => .ok ('\n', ⟨rest, by simp⟩)
  | 'r' :: rest => .ok ('\r', ⟨rest, by simp⟩)
  | 't' :: rest => .ok ('\t', ⟨rest, by simp⟩)
  | 'u' :: rest =>
    match readHex rest with
    | .error e => .error e
    | .ok (n, ⟨after, h⟩) =>
      if isTrailingSurrogate n then failBefore .loneSurrogate after
      else if isLeadingSurrogate n then
        match readTrailingSurrogate n after with
        | .error e => .error e
        | .ok (c, ⟨more, h'⟩) => .ok (c, ⟨more, by simp; omega⟩)
      else .ok (Char.ofNat n, ⟨after, by simp; omega⟩)
  | left => failAt .invalidEscape left

/-- The characters of a string up to its closing quote. -/
def readString (s : List Char) : Except Failure (List Char × List Char) :=
  match s with
  | [] => failBefore .endInString []
  | c :: rest =>
    if c = '"' then .ok ([], rest)
    else if c = '\\' then
      match readEscape rest with
      | .error e => .error e
      | .ok (d, ⟨after, _⟩) =>
        match readString after with
        | .error e => .error e
        | .ok (more, left) => .ok (d :: more, left)
    else if c.toNat < 0x20 then failBefore .controlCharacter rest
    else
      match readString rest with
      | .error e => .error e
      | .ok (more, left) => .ok (c :: more, left)
termination_by s.length
decreasing_by all_goals simp_wf; try omega

/-! ## Numbers -/

/-- Greatest significand and greatest exponent that are kept exactly. -/
def maxSignificand : Nat := twoPow 64 - 1

def maxExponent : Nat := twoPow 31 - 1

/-- `value` continued by digits as long as it stays within `limit`, how many digits that took,
and what is left. -/
def readDigits (limit : Nat) : Nat → Nat → List Char → Nat × Nat × List Char
  | value, count, [] => (value, count, [])
  | value, count, c :: rest =>
    if c.isDigit then
      let next := value * 10 + (c.toNat - '0'.toNat)
      if limit < next then (value, count, c :: rest) else readDigits limit next (count + 1) rest
    else (value, count, c :: rest)

def skipDigits (s : List Char) : List Char := s.dropWhile Char.isDigit

/-- The double `± significand · 10 ^ exponent`. -/
def makeFloat (negative : Bool) (significand : Nat) (exponent : Int) (left : List Char) :
    Except Failure (Value × List Char) :=
  match (Binary64.ofNat significand).scaleByTen exponent with
  | some x => .ok (.float (if negative then x.neg else x), left)
  | none => failBefore .numberOutOfRange left

/-- An exponent after its letter. -/
def readExponent (negative : Bool) (significand : Nat) (start : Int) (s : List Char) :
    Except Failure (Value × List Char) :=
  let (down, s) := match s with
    | '+' :: rest => (false, rest)
    | '-' :: rest => (true, rest)
    | _ => (false, s)
  match s with
  | [] => failBefore .endInValue []
  | c :: _ =>
    if c.isDigit then
      let (exponent, _, left) := readDigits maxExponent 0 0 s
      if left.head?.any Char.isDigit then
        if significand ≠ 0 ∧ ¬ down then failAt .numberOutOfRange left
        else .ok (.float { Binary64.zero with negative }, skipDigits left)
      else makeFloat negative significand (if down then start - exponent else start + exponent) left
    else failAt .invalidNumber s

/-- What may follow the digits of a number that is to be a double. -/
def readFloatEnd (negative : Bool) (significand : Nat) (exponent : Int) (s : List Char) :
    Except Failure (Value × List Char) :=
  match s with
  | 'e' :: rest => readExponent negative significand exponent rest
  | 'E' :: rest => readExponent negative significand exponent rest
  | _ => makeFloat negative significand exponent s

/-- A fraction after its point; digits beyond the greatest significand are dropped. -/
def readFraction (negative : Bool) (significand : Nat) (exponent : Int) (s : List Char) :
    Except Failure (Value × List Char) :=
  let (significand, count, left) := readDigits maxSignificand significand 0 s
  let exponent := exponent - count
  if left.head?.any Char.isDigit then readFloatEnd negative significand exponent (skipDigits left)
  else if count = 0 then failAt (if left.isEmpty then .endInValue else .invalidNumber) left
  else readFloatEnd negative significand exponent left

/-- What follows the whole part of a number. -/
def readNumberEnd (negative : Bool) (whole : Nat) (s : List Char) :
    Except Failure (Value × List Char) :=
  match s with
  | '.' :: rest => readFraction negative whole 0 rest
  | 'e' :: rest => readExponent negative whole 0 rest
  | 'E' :: rest => readExponent negative whole 0 rest
  | _ =>
    if ¬ negative then .ok (.integer whole, s)
    else if whole = 0 ∨ twoPow 63 < whole then .ok (.float (Binary64.ofNat whole).neg, s)
    else .ok (.integer (-whole), s)

/-- A number after its sign. -/
def readNumber (negative : Bool) (s : List Char) : Except Failure (Value × List Char) :=
  match s with
  | [] => failBefore .endInValue []
  | c :: rest =>
    if c = '0' then
      if rest.head?.any Char.isDigit then failAt .invalidNumber rest
      else readNumberEnd negative 0 rest
    else if c.isDigit then
      let (whole, _, left) := readDigits maxSignificand 0 0 s
      if left.head?.any Char.isDigit then
        let after := skipDigits left
        let dropped : Int := left.length - after.length
        match after with
        | '.' :: more => readFraction negative whole dropped more
        | _ => readFloatEnd negative whole dropped after
      else readNumberEnd negative whole left
    else failAt .invalidNumber s

/-! ## Values -/

/-- The items of a list from the first one on; `fuel` bounds their number. -/
def readItems (item : Reader Value) : Nat → Reader (List Value)
  | 0, s => failAt .endInList s
  | fuel + 1, s =>
    match item s with
    | .error e => .error e
    | .ok (v, after) =>
      match skipBlanks after with
      | [] => failAt .endInList []
      | ']' :: left => .ok ([v], left)
      | ',' :: rest =>
        match skipBlanks rest with
        | [] => failAt .endInValue []
        | ']' :: left => failAt .trailingComma (']' :: left)
        | next =>
          match readItems item fuel next with
          | .error e => .error e
          | .ok (vs, left) => .ok (v :: vs, left)
      | left => failAt .expectedListCommaOrEnd left

/-- The value of a member after its key. -/
def readMemberValue (item : Reader Value) (s : List Char) : Except Failure (Value × List Char) :=
  match skipBlanks s with
  | [] => failAt .endInObject []
  | ':' :: rest => item rest
  | left => failAt .expectedColon left

/-- The members of an object from the first key's opening quote on; `fuel` bounds their number. -/
def readMembers (item : Reader Value) : Nat → Reader (List (String × Value))
  | 0, s => failAt .endInObject s
  | fuel + 1, s =>
    match s with
    | '"' :: rest =>
      match readString rest with
      | .error e => .error e
      | .ok (key, after) =>
        match readMemberValue item after with
        | .error e => .error e
        | .ok (v, after) =>
          match skipBlanks after with
          | [] => failAt .endInObject []
          | '\x7d' :: left => .ok ([(String.ofList key, v)], left)
          | ',' :: rest =>
            match skipBlanks rest with
            | [] => failAt .endInValue []
            | '\x7d' :: left => failAt .trailingComma ('\x7d' :: left)
            | next =>
              match readMembers item fuel next with
              | .error e => .error e
              | .ok (ms, left) => .ok ((String.ofList key, v) :: ms, left)
          | left => failAt .expectedObjectCommaOrEnd left
    | left => failAt .keyNotString left

/-- A value that nests at most `depth` lists and objects; `fuel` bounds the number of items or
members of each. -/
def readValue (fuel depth : Nat) (s : List Char) : Except Failure (Value × List Char) :=
  match skipBlanks s with
  | [] => failAt .endInValue []
  | 'n' :: rest => (readWord "ull".toList rest).map fun (_, left) => (.null, left)
  | 't' :: rest => (readWord "rue".toList rest).map fun (_, left) => (.bool true, left)
  | 'f' :: rest => (readWord "alse".toList rest).map fun (_, left) => (.bool false, left)
  | '-' :: rest => readNumber true rest
  | '"' :: rest => (readString rest).map fun (text, left) => (.string (String.ofList text), left)
  | '[' :: rest =>
    match depth with
    | 0 => failAt .tooDeep ('[' :: rest)
    | inner + 1 =>
      match skipBlanks rest with
      | [] => failAt .endInList []
      | ']' :: left => .ok (.array [], left)
      | first => (readItems (readValue fuel inner) fuel first).map fun (items, left) =>
          (.array items, left)
  | '\x7b' :: rest =>
    match depth with
    | 0 => failAt .tooDeep ('\x7b' :: rest)
    | inner + 1 =>
      match skipBlanks rest with
      | [] => failAt .endInObject []
      | '\x7d' :: left => .ok (.object [], left)
      | first => (readMembers (readValue fuel inner) fuel first).map fun (pairs, left) =>
          (.object (Members.ofSequence pairs), left)
  | c :: rest =>
    if c.isDigit then readNumber false (c :: rest) else failAt .expectedValue (c :: rest)

/-! ## Documents -/

/-- How deep lists and objects may nest in a document. -/
def maxDepth : Nat := 127

/-- Where a failure lies in the whole text. -/
def Failure.toSyntaxError (text : List Char) (f : Failure) : SyntaxError :=
  let length := byteLength text
  ⟨f.fault, Position.ofOffset text (min length (length - byteLength f.left + f.taken))⟩

/-- A value and nothing but blanks after it. -/
def readDocument (text : List Char) : Except Failure Value :=
  match readValue text.length maxDepth text with
  | .error e => .error e
  | .ok (v, left) =>
    match skipBlanks left with
    | [] => .ok v
    | extra => failAt .trailingCharacters extra

/-- The value written by a text. -/
def Value.parse (text : String) : Except SyntaxError Value :=
  match readDocument text.toList with
  | .ok v => .ok v
  | .error f => .error (f.toSyntaxError text.toList)

end ProjectLayout.Json
