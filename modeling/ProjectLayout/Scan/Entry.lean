import ProjectLayout.Text.Segment

/-!
# Scanned entries

* `Entry` — a file or directory seen from the root of a scan (`ScannedEntry`).
* `Entry.ofPath` — the entry with a path, its other parts read off that (`ScannedEntry::new`).
* `extensionOf` — the extension of a base name (`extension_of`).
* `joinRelative` — the path of something in a directory (`join_relative`).

`joinRelative_directory_name` says that directory and name make up the path.
-/

namespace ProjectLayout.Scan

open Text

/-- A base name from its last dot on, if something other than dots stands in front of it. -/
def extensionOf (name : List Char) : List Char :=
  match cutAtLast '.' name with
  | some (front, back) => if front.all (· == '.') then [] else '.' :: back
  | none => []

/-- `name` inside `dir`, both seen from the same root. -/
def joinRelative (dir name : String) : String := if dir.isEmpty then name else dir ++ "/" ++ name

/-- A file or directory. -/
structure Entry where
  /-- The path from the root of the scan. -/
  path : String
  /-- The last segment of the path. -/
  name : String
  /-- The path in front of the name; empty at the top. -/
  directory : String
  /-- The extension with its dot, or nothing. -/
  extension : String
  isDirectory : Bool
  deriving DecidableEq, Repr

/-- The entry at a path. -/
def Entry.ofPath (path : String) (isDirectory : Bool) : Entry :=
  let (directory, name) := (cutAtLast '/' path.toList).getD ([], path.toList)
  { path
    name := String.ofList name
    directory := String.ofList directory
    extension := String.ofList (extensionOf name)
    isDirectory }

@[simp] theorem Entry.path_ofPath (path : String) (isDirectory : Bool) :
    (ofPath path isDirectory).path = path := rfl

@[simp] theorem Entry.isDirectory_ofPath (path : String) (isDirectory : Bool) :
    (ofPath path isDirectory).isDirectory = isDirectory := rfl

/-- A name is what follows the last `/`. -/
theorem Entry.slash_not_mem_name (path : String) (isDirectory : Bool) :
    '/' ∉ (ofPath path isDirectory).name.toList := by
  unfold ofPath
  cases hc : cutAtLast '/' path.toList with
  | none => simpa using cutAtLast_eq_none.mp hc
  | some cut => simpa using (cutAtLast_eq_some hc).2

/-- Directory and name make up a path that does not begin with `/`. -/
theorem Entry.joinRelative_directory_name {path : String} (h : path.toList.head? ≠ some '/')
    (isDirectory : Bool) :
    joinRelative (ofPath path isDirectory).directory (ofPath path isDirectory).name = path := by
  unfold ofPath joinRelative
  cases hc : cutAtLast '/' path.toList with
  | none => simp
  | some cut =>
    obtain ⟨front, back⟩ := cut
    have hs := (cutAtLast_eq_some hc).1
    cases front with
    | nil => rw [hs] at h; exact absurd rfl h
    | cons c front =>
      have hne : (String.ofList (c :: front)).isEmpty = false := by simp
      simp only [Option.getD_some, hne, Bool.false_eq_true, if_false]
      apply String.toList_inj.mp
      simp [hs]

end ProjectLayout.Scan
