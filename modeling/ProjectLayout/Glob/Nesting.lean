import ProjectLayout.Glob.Pattern

/-!
# Nesting of patterns

A pattern may nest only so deep.  A choice between parts and a row of parts are one level deeper
than their deepest part, a single part is as deep as itself, and so is a group one level deeper than
what stands in it.

* `sequenceDepth` — the depth of parts side by side.
* `Token.parts`, `Pattern.depth` — the depth of what a token or a pattern stands for.
* `maxNesting` — how deep a pattern may nest to be matched.
* `Abort`, `checkNesting` — what becomes of a program that matches with single patterns
  (`Pattern::new`, `compile_matcher`).

A set with a pattern that nests too deep matches nothing, while compiling such a pattern by itself
ends the program.
-/

namespace ProjectLayout.Glob

/-- The greatest of some depths. -/
def deepest (depths : List Nat) : Nat := depths.foldr Nat.max 0

/-- The depth of parts of the given depths side by side. -/
def sequenceDepth : List Nat → Nat
  | [] => 0
  | [depth] => depth
  | depths => deepest depths + 1

mutual

/-- The depths of the parts that a token stands for: one for each byte of a character, one for
each wildcard or group. -/
def Token.parts : Token → List Nat
  | .literal c => (String.utf8EncodeChar c).map fun _ => 0
  | .anyByte => [1]
  | .star => [2]
  | .leadingDirs => [4]
  | .trailingDirs => [0, 1]
  | .middleDirs => [4]
  | .charClass _ ranges => [if (ranges.flatMap byteRanges).length = 1 then 1 else 2]
  | .alternatives [] => []
  | .alternatives branches => [sequenceDepth (branchDepths branches) + 1]

/-- The depths of the parts of a list of tokens. -/
def partsOf : List Token → List Nat
  | [] => []
  | t :: more => t.parts ++ partsOf more

/-- The depth of each branch of a group. -/
def branchDepths : List (List Token) → List Nat
  | [] => []
  | branch :: more => sequenceDepth (partsOf branch) :: branchDepths more

end

/-- The depth of a whole pattern, which stands between the start and the end of a path. -/
def Pattern.depth (p : Pattern) : Nat := deepest (partsOf p.tokens) + 1

/-- How deep a pattern may nest to be matched.  What patterns are compiled to may not be larger than
some megabytes either; patterns of such a length are not considered. -/
def maxNesting : Nat := 250

/-! ## Patterns by themselves -/

/-- Why a program stops at once. -/
inductive Abort where
  | tooDeep (pattern : String)
  deriving DecidableEq, Repr

/-- Whether a text is a pattern, but nests too deep. -/
def isTooDeep (text : String) : Bool := (Pattern.compile? text).any (maxNesting < ·.depth)

/-- Patterns are compiled one by one, each to be matched by itself; a text that is no pattern is
passed over. -/
def checkNesting (texts : List String) : Except Abort Unit :=
  match texts.find? isTooDeep with
  | some text => .error (.tooDeep text)
  | none => .ok ()

theorem checkNesting_eq_ok_iff {texts : List String} :
    checkNesting texts = .ok () ↔ ∀ text ∈ texts, isTooDeep text = false := by
  unfold checkNesting
  cases h : texts.find? isTooDeep with
  | some text =>
    have htext := List.find?_some h
    simpa using ⟨text, List.mem_of_find?_eq_some h, htext⟩
  | none => simpa using h

end ProjectLayout.Glob
