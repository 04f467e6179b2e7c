/-!
# Glob tokens

A glob is a list of tokens.  Paths are matched as bytes: a token consumes some of the bytes that
follow a position in a path.

* `Token` — literals, wildcards, classes and alternatives.
* `Token.isEffective` — false of alternatives between nothing.
* `Fault` — why a pattern is no glob, with its wording.
-/

namespace ProjectLayout.Glob

/-- A part of a glob. -/
inductive Token where
  /-- A character that stands for itself. -/
  | literal (c : Char)
  /-- `?`: one byte other than `/`. -/
  | anyByte
  /-- `*`: any bytes other than `/`. -/
  | star
  /-- `**/` at the start: nothing, or anything that ends in `/`. -/
  | leadingDirs
  /-- `/**` at the end: `/` and anything after it. -/
  | trailingDirs
  /-- `/**/` in between: `/`, or `/` and anything that ends in `/`. -/
  | middleDirs
  /-- `[…]` and `[!…]`: one byte of the ranges, or one byte outside of them. -/
  | charClass (negated : Bool) (ranges : List (Char × Char))
  /-- `{…,…}`: any of the branches; nothing at all if there are none. -/
  | alternatives (branches : List (List Token))
  deriving Repr, Inhabited

/-- Whether a token can take part in a match; alternatives without branches cannot. -/
def Token.isEffective : Token → Bool
  | .alternatives [] => false
  | _ => true

/-- Why a pattern is no glob. -/
inductive Fault where
  | unclosedClass
  | invalidRange (first last : Char)
  | unopenedAlternatives
  | unclosedAlternatives
  | danglingEscape
  deriving DecidableEq, Repr

/-- The wording of a fault. -/
def Fault.message : Fault → String
  | unclosedClass => "unclosed character class; missing ']'"
  | invalidRange first last => s!"invalid range; '{first}' > '{last}'"
  | unopenedAlternatives =>
    "unopened alternate group; missing '\x7b' (maybe escape '\x7d' with '[\x7d]'?)"
  | unclosedAlternatives =>
    "unclosed alternate group; missing '\x7d' (maybe escape '\x7b' with '[\x7b]'?)"
  | danglingEscape => "dangling '\\'"

end ProjectLayout.Glob
