import ProjectLayout.Disk.Node
import ProjectLayout.Disk.Path

/-!
# Finding files by path

A path is followed from the root or from the working directory, one segment at a time: `.` and
empty segments stay, `..` goes up, and a symbolic link puts its target in front of what is left.

* `Disk` — a directory tree with a working directory.
* `Disk.locate` — where a path leads, as the names from the root down, all of them real.
* `Disk.stat?`, `Disk.list`, `Disk.readText`, `Disk.canonicalize` — what can be seen there
  (`metadata`, `read_dir`, `read_to_string` and `canonicalize` of the standard library).

Paths are texts, and so are the targets of links and the names of the working directory; a name
that is no text is never led to.
-/

namespace ProjectLayout.Disk

open Text

/-- Why a path does not lead where it should. -/
inductive IoError where
  | notFound
  | notDirectory
  | isDirectory
  | nameTooLong
  | tooManyLinks
  | nulInPath
  | notUtf8
  | permissionDenied
  | noSpace
  deriving DecidableEq, Repr

def IoError.message : IoError → String
  | notFound => "No such file or directory (os error 2)"
  | notDirectory => "Not a directory (os error 20)"
  | isDirectory => "Is a directory (os error 21)"
  | nameTooLong => "File name too long (os error 36)"
  | tooManyLinks => "Too many levels of symbolic links (os error 40)"
  | nulInPath => "file name contained an unexpected NUL byte"
  | notUtf8 => "stream did not contain valid UTF-8"
  | permissionDenied => "Permission denied (os error 13)"
  | noSpace => "No space left on device (os error 28)"

/-! ## Limits -/

/-- The most bytes in a name. -/
def maxNameBytes : Nat := 255

/-- The most bytes in a path that is asked for at once. -/
def maxPathBytes : Nat := 4095

/-- Whether a path is short enough to be asked for at once. -/
def fitsLimit (path : String) : Bool := path.utf8ByteSize ≤ maxPathBytes

/-- The most links on the way to a file. -/
def maxLinks : Nat := 40

end Disk

/-- A directory tree with a working directory, given by the names from the root down to it. -/
structure Disk where
  root : Disk.Node
  workingDir : List String
  /-- How many more bytes can be written, if not any number. -/
  room : Option Nat := none

namespace Disk

/-- A tree seen from its root, with room for any number of bytes. -/
abbrev ofTree (root : Node) : Disk where
  root
  workingDir := []

/-! ## Following a path -/

/-- Where a path leads, as names from the root down. -/
inductive Spot where
  | existing (names : List Name)
  /-- Nothing is under `name` in the directory `dir`. -/
  | vacant (dir : List Name) (name : String)
  deriving DecidableEq

/-- What a path is followed for. -/
inductive Purpose where
  /-- To use what is there. -/
  | access
  /-- To write a file that may be new; no directory may be asked for in its place. -/
  | writing
  /-- To learn the real path, which is found name by name. -/
  | naming
  deriving DecidableEq, Repr

/-- Whether a segment stays where it is. -/
def isIdle (segment : String) : Bool := segment == "" || segment == "."

/-- Whether a segment is the name of an entry. -/
def isName (segment : String) : Bool := !isIdle segment && segment != ".."

/-- The path of a list of names from the root down. -/
def pathOfNames (names : List String) : String := "/" ++ String.intercalate "/" names

/-- Whether segments ask for a directory where they start before they ask for any name in it. -/
def asksDirectory (rest : List String) : Bool :=
  match rest.dropWhile isIdle with
  | [] => !rest.isEmpty
  | next :: _ => next == ".."

/-- Whether there is a directory in which names may be looked up. -/
def isSearchable (root : Node) (here : List Name) : Bool :=
  (root.at? here).any (·.rights.search)

/-- Whether a segment may be asked for in the directory `here`.  A `/` alone asks for nothing.  To
learn a real path, only names are asked for, each from the root down. -/
def mayAsk (root : Node) (purpose : Purpose) (here : List Name) (segment : String) : Bool :=
  if purpose == .naming then
    !isName segment || (List.range (here.length + 1)).all fun k => isSearchable root (here.take k)
  else segment == "" || isSearchable root here

/-- Where segments lead from the directory `here`; `follow` continues behind a link.  To learn a
real path, each name is asked for by the real path to it, and what has to be a directory once more
with a `/` behind it. -/
def walk (follow : List Name → List String → Except IoError Spot) (root : Node)
    (purpose : Purpose) : List Name → List String → Except IoError Spot
  | here, [] => .ok (.existing here)
  | here, segment :: rest =>
    let names := here ++ [.text segment]
    let path := pathOfNames (names.map Name.lossy)
    if purpose == .naming && isName segment && !fitsLimit path then .error .nameTooLong
    else if !(root.at? here).any Node.isDir then .error .notDirectory
    else if !mayAsk root purpose here segment then .error .permissionDenied
    else if isIdle segment then walk follow root purpose here rest
    else if segment = ".." then walk follow root purpose here.dropLast rest
    else if purpose == .writing && !rest.isEmpty && rest.all (· == "") then .error .isDirectory
    else if maxNameBytes < segment.utf8ByteSize then .error .nameTooLong
    else
      match root.at? names with
      | some (.link target) =>
        follow (if isAbsolute target then [] else here) (pathSegments target ++ rest)
      | some _ =>
        if purpose == .naming && asksDirectory rest && !fitsLimit (path ++ "/") then
          .error .nameTooLong
        else walk follow root purpose names rest
      | none => if rest.isEmpty then .ok (.vacant here segment) else .error .notFound

/-- Where segments lead through at most so many links. -/
def follow (root : Node) (purpose : Purpose) :
    Nat → List Name → List String → Except IoError Spot
  | 0 => walk (fun _ _ => .error .tooManyLinks) root purpose
  | links + 1 => walk (follow root purpose links) root purpose

/-- The directory that a path starts from. -/
def start (disk : Disk) (path : String) : List Name :=
  if isAbsolute path then [] else disk.workingDir.map .text

/-- Where a path leads.  Only a path that is followed to learn its real path may be of any
length. -/
def locate (disk : Disk) (path : String) (purpose : Purpose) : Except IoError Spot :=
  if path.toList.contains '\x00' then .error .nulInPath
  else if path.isEmpty then .error .notFound
  else if purpose != .naming && !fitsLimit path then .error .nameTooLong
  else follow disk.root purpose maxLinks (disk.start path) (pathSegments path)

/-- The names and the node at the end of a path. -/
def resolve (disk : Disk) (path : String) : Except IoError (List Name × Node) :=
  match disk.locate path .access with
  | .error e => .error e
  | .ok (.vacant _ _) => .error .notFound
  | .ok (.existing names) =>
    match disk.root.at? names with
    | some node => .ok (names, node)
    | none => .error .notFound

/-! ## Looking -/

/-- The node at the end of a path, if there is one. -/
def stat? (disk : Disk) (path : String) : Option Node := (disk.resolve path).toOption.map Prod.snd

/-- Whether a path leads to anything. -/
def pathExists (disk : Disk) (path : String) : Bool := (disk.stat? path).isSome

/-- Whether a path leads to a directory, links looked through. -/
def isDirectory (disk : Disk) (path : String) : Bool := (disk.stat? path).any Node.isDir

/-- Whether a path leads to a file, links looked through. -/
def isFile (disk : Disk) (path : String) : Bool := (disk.stat? path).any Node.isFile

/-- The absolute path without links, `.` and `..` that leads to the same place. -/
def canonicalize (disk : Disk) (path : String) : Except IoError String :=
  match disk.locate path .naming with
  | .error e => .error e
  | .ok (.vacant _ _) => .error .notFound
  | .ok (.existing names) => .ok (pathOfNames (names.map Name.lossy))

/-- The entries of a directory. -/
def list (disk : Disk) (path : String) : Except IoError (List (Name × Node)) :=
  match disk.resolve path with
  | .error e => .error e
  | .ok (_, .dir entries rights) => if rights.list then .ok entries else .error .permissionDenied
  | .ok _ => .error .notDirectory

/-- The contents of a file as text. -/
def readText (disk : Disk) (path : String) : Except IoError String :=
  match disk.resolve path with
  | .error e => .error e
  | .ok (_, .file contents) =>
    match String.fromUTF8? contents with
    | some text => .ok text
    | none => .error .notUtf8
  | .ok _ => .error .isDirectory

end Disk

end ProjectLayout
