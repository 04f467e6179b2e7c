import ProjectLayout.Text.Segment

/-!
# Paths as text

A path is a text with `/` between its segments; it is absolute when it begins with `/`.

* `joinPath` — a path seen from a directory (`join`).
* `parent?`, `ancestors` — the directories above a path, read off its text (`parent`, `ancestors`).
* `baseName?` — the last segment, if it names something (`file_name`).

Empty segments and `.` at the end of a path do not count: `a/b/.` and `a/b//` have the parent `a`.
-/

namespace ProjectLayout.Disk

open Text

/-- Whether a path begins at the root. -/
def isAbsolute (path : String) : Bool := path.toList.head? == some '/'

/-- `path` as seen from `base`; an absolute path stands for itself. -/
def joinPath (base path : String) : String :=
  if isAbsolute path || base.isEmpty then path
  else if base.toList.getLast? == some '/' then base ++ path
  else base ++ "/" ++ path

/-- The segments of a path, empty ones included. -/
def pathSegments (path : String) : List String := (splitOn '/' path.toList).map String.ofList

/-! ## The end of a path

These functions read a path from its end: `reversed` holds its characters, last one first. -/

/-- The path without separators and `.` segments at its end. -/
def trimEnd : List Char → List Char
  | '/' :: reversed => trimEnd reversed
  | '.' :: '/' :: reversed => trimEnd reversed
  | reversed => reversed

/-- The last segment of a path, unless it is `.` or `..` or there is none. -/
def baseName? (path : String) : Option String :=
  let name := ((trimEnd path.toList.reverse).takeWhile (· ≠ '/')).reverse
  if name = [] ∨ name = ['.'] ∨ name = ['.', '.'] then none else some (String.ofList name)

/-- The path without its last segment; a path without segments has no parent. -/
def parent? (path : String) : Option String :=
  match trimEnd path.toList.reverse with
  | [] => none
  | reversed =>
    match trimEnd (reversed.dropWhile (· ≠ '/')) with
    | [] => some (if isAbsolute path then "/" else "")
    | above => some (String.ofList above.reverse)

/-- `path` and at most `fuel` of the paths above it. -/
def ancestorsUpTo : Nat → String → List String
  | 0, path => [path]
  | fuel + 1, path =>
    path :: match parent? path with
      | some above => ancestorsUpTo fuel above
      | none => []

/-- A path and the paths above it, nearest first. -/
def ancestors (path : String) : List String := ancestorsUpTo path.length path

end ProjectLayout.Disk
