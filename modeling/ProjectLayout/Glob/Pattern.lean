import ProjectLayout.Glob.Parser
import ProjectLayout.Glob.Position

/-!
# Matching globs

A path is matched as bytes.  `consume path tokens ends` lists where a match of the tokens can end
that starts at one of the positions `ends`; a path matches when its end is among them.

* `byteRanges`, `classMatches` — what a character class means for bytes.
* `Token.consume`, `consume` — the ends a match may have.
* `matchesTokens` — a whole path against the tokens of a pattern.
* `Pattern` — a pattern that was read, with its text.
* `Pattern.compile`, `Pattern.compile?` — a pattern read from its text (`build_glob`); how deep it
  nests is not asked, which a program has to survive that matches with it (`checkNesting`).
* `Pattern.fault?` — the wording of a pattern's fault (`pattern_error`).
-/

namespace ProjectLayout.Glob

/-- A path or a text as bytes. -/
def utf8Bytes (s : List Char) : List UInt8 := s.flatMap String.utf8EncodeChar

/-- The byte of `/`. -/
def slash : UInt8 := 0x2f

/-! ## Character classes -/

/-- The byte ranges of one range of a class.  A character of several bytes contributes each of
them; between two characters the last byte of the first and the first byte of the last span the
range. -/
def byteRanges (r : Char × Char) : List (UInt8 × UInt8) :=
  let single (bytes : List UInt8) := bytes.map fun b => (b, b)
  let first := String.utf8EncodeChar r.1
  let last := String.utf8EncodeChar r.2
  if r.1 = r.2 then single first
  else
    match first.getLast?, last with
    | some low, high :: more => single first.dropLast ++ (low, high) :: single more
    | _, _ => []

/-- Whether a class matches a byte. -/
def classMatches (negated : Bool) (ranges : List (Char × Char)) (b : UInt8) : Bool :=
  ((ranges.flatMap byteRanges).any fun r => r.1 ≤ b && b ≤ r.2) != negated

/-! ## Consuming bytes -/

/-- The ends of a match of any bytes and a `/`. -/
def throughSlash (path : Array UInt8) (ends : Ends) : Ends :=
  step path (· == slash) (spread path (fun _ => true) ends)

mutual

/-- Where a match of a token can end that starts at one of `ends`. -/
def Token.consume (path : Array UInt8) : Token → Ends → Ends
  | .literal c, ends =>
    (String.utf8EncodeChar c).foldl (fun ends b => step path (· == b) ends) ends
  | .anyByte, ends => step path (· != slash) ends
  | .star, ends => spread path (· != slash) ends
  | .leadingDirs, ends => mergeEnds ends (throughSlash path ends)
  | .trailingDirs, ends => spread path (fun _ => true) (step path (· == slash) ends)
  | .middleDirs, ends =>
    let behind := step path (· == slash) ends
    mergeEnds behind (throughSlash path behind)
  | .charClass negated ranges, ends => step path (classMatches negated ranges) ends
  | .alternatives [], ends => ends
  | .alternatives branches, ends => consumeAny path branches ends

/-- Where a match of a list of tokens can end that starts at one of `ends`. -/
def consume (path : Array UInt8) : List Token → Ends → Ends
  | [], ends => ends
  | t :: more, ends => consume path more (t.consume path ends)

/-- Where a match of one of some branches can end that starts at one of `ends`. -/
def consumeAny (path : Array UInt8) : List (List Token) → Ends → Ends
  | [], _ => []
  | branch :: more, ends => mergeEnds (consume path branch ends) (consumeAny path more ends)

end

/-! ## Whole paths -/

/-- Whether the tokens match all of a path.  A lone `**` matches everything. -/
def matchesTokens (tokens : List Token) (path : List UInt8) : Bool :=
  match tokens with
  | [.leadingDirs] => true
  | _ => (consume path.toArray tokens [0]).contains path.length

/-- A path without one leading `/`. -/
def stripRoot : List Char → List Char
  | '/' :: rest => rest
  | s => s

/-! ## Patterns -/

/-- A pattern that was read.  It may still nest too deep to be matched with (`Pattern.depth`). -/
structure Pattern where
  text : String
  tokens : List Token
  deriving Repr

/-- The pattern with a text, or the first fault in the text. -/
def Pattern.compile (text : String) : Except Fault Pattern := (parse text).map (⟨text, ·⟩)

/-- The pattern with a text, if it has no fault (`build_glob`). -/
def Pattern.compile? (text : String) : Option Pattern := (Pattern.compile text).toOption

/-- Whether the pattern matches a path; one leading `/` of the path is ignored. -/
def Pattern.matches (p : Pattern) (path : String) : Bool :=
  matchesTokens p.tokens (utf8Bytes (stripRoot path.toList))

/-- Why a text is no pattern. -/
def Pattern.fault? (text : String) : Option String :=
  match parse text with
  | .ok _ => none
  | .error e => some s!"error parsing glob '{text}': {e.message}"

end ProjectLayout.Glob
