import ProjectLayout.Disk.Locate
import ProjectLayout.Glob.PatternSet
import ProjectLayout.Scan.Entry

/-!
# Scanning a project tree

* `Scanner` — the root of a project and the patterns of what to leave out (`DirectoryScanner`).
* `Scanner.places` — everything below the root, a directory directly in front of what it holds and
  neighbours in the order of their names; what is ignored is left out with all it holds.
* `Scanner.scan` — the entries for these places (`scan_all`), if there is a root that can be read
  (`Scanner.checkRoot`, `check_root`).
* `Scanner.listOneLevel`, `Scanner.componentDirectories` — narrower views (`list_one_level`,
  `find_component_directories`).
* `Scanner.hasPath`, `Scanner.hasDirectory` — what is there, ignored or not (`exists`,
  `is_directory`).

Links are entries of their own and are not looked through, except at the root.  A directory that
cannot be read counts as empty: one that may not be listed, one that cannot be gone to because a
directory above it may not be searched, and one whose path is too long to be asked for.
-/

namespace ProjectLayout.Scan

open Disk (Name)
open Text

/-- A path from the root of a project with `/` for each backslash and without `/` at its ends;
the root itself is empty. -/
def normalizeRelative (path : String) : String :=
  let trimmed := trimBoth '/' (path.toList.map fun c => if c = '\\' then '/' else c)
  if trimmed = ['.'] then "" else String.ofList trimmed

/-- The path from the root that is reported for what is under some names (`relative_path`).  A `/`
ends whatever character was begun, so each name is made a text by itself. -/
def reportedPath (names : List Name) : String :=
  normalizeRelative (String.intercalate "/" (names.map Name.lossy))

/-- Something below the root of a project: the names down to it, and what is there. -/
structure Place where
  names : List Name
  node : Disk.Node

/-- The entry that is reported for a place. -/
def Place.entry (place : Place) : Entry :=
  .ofPath (reportedPath place.names) place.node.isDir

/-- The root of a project and what to leave out of it. -/
structure Scanner where
  root : String
  ignore : Glob.PatternSet
  deriving Repr

/-- Why a project cannot be scanned. -/
inductive ScanError where
  | rootNotFound (root : String)
  | rootUnreadable (root : String) (cause : Disk.IoError)
  deriving DecidableEq, Repr

def ScanError.message : ScanError → String
  | rootNotFound root => s!"root directory '{root}' does not exist or is not a directory"
  | rootUnreadable root cause => s!"cannot read root directory '{root}': {cause.message}"

/-! ## Orders -/

/-- Whether a name comes before another or is the same, byte by byte. -/
def nameLe (a b : Name) : Bool := decide (a.bytes ≤ b.bytes)

/-- Named things in the order of their names, as a scan has them. -/
def sortByName {α : Type} (named : List (Name × α)) : List (Name × α) :=
  named.mergeSort fun a b => nameLe a.1 b.1

/-- Whether the name of an entry comes before another's or is the same, byte by byte. -/
def entryLe (a b : Entry) : Bool :=
  decide (Glob.utf8Bytes a.name.toList ≤ Glob.utf8Bytes b.name.toList)

namespace Scanner

/-- The scanner that leaves out what the patterns match. -/
def ofPatterns (root : String) (patterns : List String) : Scanner :=
  ⟨root, Glob.PatternSet.ofTexts patterns⟩

/-- Whether a path from the root is left out. -/
def isIgnored (scanner : Scanner) (path : String) : Bool := scanner.ignore.excludes path

/-! ## The whole tree -/

/-- The number of bytes in the full path of what is under the names `above`: the root with a `/`
behind it, and the names with `/` between them. -/
def fullSize (scanner : Scanner) : List Name → Nat
  | [] => scanner.root.utf8ByteSize
  | above =>
    (Disk.joinPath scanner.root "").utf8ByteSize + Name.totalSize above + (above.length - 1)

/-- Whether the full path of what is under the names `above` is short enough to be asked for. -/
def fitsAt (scanner : Scanner) (above : List Name) : Bool :=
  scanner.fullSize above ≤ Disk.maxPathBytes

mutual

/-- The places below a node that is itself under the names `above` from the root. -/
def places (scanner : Scanner) (above : List Name) : Disk.Node → List Place
  | .dir entries rights =>
    if rights.list && scanner.fitsAt above then
      (sortByName (scanner.blocks above rights.search entries)).flatMap Prod.snd
    else []
  | _ => []

/-- Each entry that is not ignored, under its name, with all that is below it if that can be gone
to. -/
def blocks (scanner : Scanner) (above : List Name) (search : Bool) :
    List (Name × Disk.Node) → List (Name × List Place)
  | [] => []
  | (name, node) :: rest =>
    let names := above ++ [name]
    if scanner.isIgnored (reportedPath names) then scanner.blocks above search rest
    else
      (name, ⟨names, node⟩ :: if search then scanner.places names node else []) ::
        scanner.blocks above search rest

end

/-- What is reported of the tree of a project. -/
def below (scanner : Scanner) (tree : Disk.Node) : List Entry :=
  (scanner.places [] tree).map Place.entry

/-- The tree of a project, if its root is a directory that can be read. -/
def checkRoot (scanner : Scanner) (disk : Disk) : Except ScanError Disk.Node :=
  match disk.stat? scanner.root with
  | some (.dir entries rights) =>
    match disk.list scanner.root with
    | .error cause => .error (.rootUnreadable scanner.root cause)
    | .ok _ => .ok (.dir entries rights)
  | _ => .error (.rootNotFound scanner.root)

/-- Everything below the root that is not ignored. -/
def scan (scanner : Scanner) (disk : Disk) : Except ScanError (List Entry) :=
  (scanner.checkRoot disk).map scanner.below

/-! ## Narrower views -/

/-- Where on the disk a path from the root is. -/
def diskPath (scanner : Scanner) (path : String) : String :=
  Disk.joinPath scanner.root (normalizeRelative path)

/-- Whether a path from the root leads to anything, ignored or not. -/
def hasPath (scanner : Scanner) (disk : Disk) (path : String) : Bool :=
  disk.pathExists (scanner.diskPath path)

/-- Whether a path from the root leads to a directory, ignored or not. -/
def hasDirectory (scanner : Scanner) (disk : Disk) (path : String) : Bool :=
  disk.isDirectory (scanner.diskPath path)

/-- The entry for something in a directory, unless it is ignored. -/
def listed? (scanner : Scanner) (dir : String) (name : Name) (isDirectory : Bool) : Option Entry :=
  let path := joinRelative dir name.lossy
  if scanner.isIgnored path then none else some (Entry.ofPath path isDirectory)

/-- What is directly in a directory and not ignored, in the order of the names that are reported;
nothing if there is no such directory or it cannot be read. -/
def listOneLevel (scanner : Scanner) (disk : Disk) (dir : String) : List Entry :=
  match disk.list (scanner.diskPath dir) with
  | .error _ => []
  | .ok entries =>
    let listed := entries.filterMap fun (name, node) =>
      scanner.listed? (normalizeRelative dir) name node.isDir
    listed.mergeSort entryLe

/-- The paths of the directories directly in each candidate. -/
def componentDirectories (scanner : Scanner) (disk : Disk) (candidates : List String) :
    List String :=
  candidates.flatMap fun dir =>
    if scanner.hasDirectory disk dir then
      ((scanner.listOneLevel disk dir).filter (·.isDirectory)).map (·.path)
    else []

end Scanner

end ProjectLayout.Scan
