import ProjectLayout.Text.Segment

/-!
# Naming conventions

* `Convention` — the five conventions, and the spellings that name none of them
  (`NamingConvention`).
* `Convention.accepts` — whether a file or directory name follows a convention (`validate`).
* `splitExtension`, `stripTag` — what is taken off a name before it is judged (`split_extension`,
  `strip_suffix_tag`).

A convention is configured by its spelling: `spelling_ofSpelling` says that no spelling is lost,
`splitExtension_append` that a stem and its extension make up the name.
-/

namespace ProjectLayout.Naming

open Text

/-- A way to write names. -/
inductive Convention where
  /-- `MyComponent` -/
  | pascal
  /-- `myComponent` -/
  | camel
  /-- `my-component` -/
  | kebab
  /-- `my_component` -/
  | snake
  /-- `MY_COMPONENT` -/
  | upper
  /-- A spelling that names no convention; every name follows it. -/
  | unknown (spelling : String)
  deriving DecidableEq, Repr

namespace Convention

/-- How a convention is configured. -/
def spelling : Convention → String
  | pascal => "PascalCase"
  | camel => "camelCase"
  | kebab => "kebab-case"
  | snake => "snake_case"
  | upper => "UPPER_CASE"
  | unknown s => s

/-- The convention with a spelling. -/
def ofSpelling (s : String) : Convention :=
  if s = "PascalCase" then pascal
  else if s = "camelCase" then camel
  else if s = "kebab-case" then kebab
  else if s = "snake_case" then snake
  else if s = "UPPER_CASE" then upper
  else unknown s

/-- Whether a spelling names a convention. -/
def isKnown : Convention → Bool
  | unknown _ => false
  | _ => true

theorem spelling_ofSpelling (s : String) : (ofSpelling s).spelling = s := by
  unfold ofSpelling
  repeat' split
  all_goals simp_all [spelling]

theorem ofSpelling_spelling {c : Convention} (h : c.isKnown) : ofSpelling c.spelling = c := by
  cases c <;> first | rfl | simp [isKnown] at h

end Convention

/-! ## The judged part of a name -/

/-- A name and its extension: the last dot and what follows it, unless nothing follows or a `/`
does. -/
def splitExtension (name : List Char) : List Char × List Char :=
  match cutAtLast '.' name with
  | some (front, back) =>
    if back.isEmpty || back.contains '/' then (name, []) else (front, '.' :: back)
  | none => (name, [])

theorem splitExtension_append (name : List Char) :
    (splitExtension name).1 ++ (splitExtension name).2 = name := by
  unfold splitExtension
  split
  · next h =>
    split
    · simp
    · exact (cutAtLast_eq_some h).1.symm
  · simp

/-- The endings of a stem that say what a file is for. -/
def tags : List (List Char) :=
  [".test".toList, ".spec".toList, ".stories".toList, ".types".toList, ".d".toList]

/-- A stem without its tag, if it has one. -/
def stripTag (stem : List Char) : List Char :=
  (tags.findSome? fun tag => dropSuffix? tag stem).getD stem

/-- The part of a name that a convention is about. -/
def judgedPart (name : List Char) : List Char := stripTag (splitExtension name).1

/-! ## Shapes -/

/-- The form of the names of a convention: pieces around a separator, or one piece if there is
none; each piece is a non-empty run of `rest` characters, and the name begins with a `first`
character. -/
structure Shape where
  first : Char → Bool
  rest : Char → Bool
  separator? : Option Char

/-- The pieces of a name around the separator. -/
def Shape.pieces (shape : Shape) (name : List Char) : List (List Char) :=
  match shape.separator? with
  | some sep => splitOn sep name
  | none => [name]

/-- Whether a name has the form. -/
def Shape.accepts (shape : Shape) (name : List Char) : Bool :=
  name.head?.any shape.first &&
    (shape.pieces name).all fun piece => !piece.isEmpty && piece.all shape.rest

namespace Convention

/-- The form of the names of a convention; an unknown one asks for none. -/
def shape? : Convention → Option Shape
  | pascal => some ⟨Char.isUpper, Char.isAlphanum, none⟩
  | camel => some ⟨Char.isLower, Char.isAlphanum, none⟩
  | kebab => some ⟨Char.isLower, fun c => c.isLower || c.isDigit, some '-'⟩
  | snake => some ⟨Char.isLower, fun c => c.isLower || c.isDigit, some '_'⟩
  | upper => some ⟨Char.isUpper, fun c => c.isUpper || c.isDigit, some '_'⟩
  | unknown _ => none

/-- Whether a file or directory name follows the convention. -/
def accepts (c : Convention) (name : String) : Bool :=
  match c.shape? with
  | some shape => shape.accepts (judgedPart name.toList)
  | none => true

theorem accepts_unknown (s name : String) : (unknown s).accepts name = true := rfl

end Convention

end ProjectLayout.Naming
