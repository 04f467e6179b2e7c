import ProjectLayout.Disk.Locate

/-!
# Changing a disk

* `Disk.writeText` — a file written the way a program does (`fs::write`): it is made or emptied,
  and then filled as far as there is room.
* `Disk.makeDirectory`, `Disk.put`, `Disk.putFile` — something new with the directories that it
  needs.
* `Disk.remove` — an entry taken out.
-/

namespace ProjectLayout.Disk

/-- Whether an entry may be made in the directory `here`. -/
def mayChange (disk : Disk) (here : List Name) : Bool :=
  (disk.root.at? here).any (·.rights.change)

/-- How many bytes can be written to the file under `names` after it was emptied, or made. -/
def roomAt (disk : Disk) (names : List Name) : Option Nat :=
  match disk.root.at? names with
  | some (.file contents) => disk.room.map (· + contents.size)
  | _ => disk.room

/-- The file under `names` is made or emptied, and filled with `text` as far as there is room. -/
def fill (disk : Disk) (names : List Name) (text : String) : Except IoError Unit × Disk :=
  let bytes := text.toUTF8
  let room := disk.roomAt names
  let written := room.elim bytes.size (min bytes.size)
  let file := Node.file (bytes.extract 0 written)
  (if written < bytes.size then .error .noSpace else .ok (),
    { disk with root := file.insertAt names disk.root, room := room.map (· - written) })

/-- An attempt to put `text` in the file at a path, which is made if it is not there: whether it
succeeds, and the disk after it. -/
def writeText (disk : Disk) (path text : String) : Except IoError Unit × Disk :=
  match disk.locate path .writing with
  | .error e => (.error e, disk)
  | .ok (.vacant dir name) =>
    if disk.mayChange dir then disk.fill (dir ++ [.text name]) text
    else (.error .permissionDenied, disk)
  | .ok (.existing names) =>
    if (disk.root.at? names).any Node.isDir then (.error .isDirectory, disk)
    else disk.fill names text

/-! ## Making directories -/

/-- The tree in which segments lead somewhere from the directory `here`, and the names down to
there: a name that leads nowhere gets a directory. -/
def makeWay (root : Node) (here : List Name) : List String → Node × List Name
  | [] => (root, here)
  | segment :: rest =>
    if isIdle segment then makeWay root here rest
    else if segment = ".." then makeWay root here.dropLast rest
    else
      match follow root .access maxLinks here [segment] with
      | .ok (.existing names) => makeWay root names rest
      | _ =>
        let names := here ++ [.text segment]
        makeWay ((Node.dir []).insertAt names root) names rest

/-- The disk with a directory at a path. -/
def makeDirectory (disk : Disk) (path : String) : Disk :=
  { disk with root := (makeWay disk.root (disk.start path) (pathSegments path)).1 }

/-! ## Entries -/

/-- The segments of a path that lead somewhere. -/
def stepsOf (path : String) : List String := (pathSegments path).filter (!isIdle ·)

/-- The names of the entry that a last segment stands for in the directory `here`. -/
def entryNames (here : List Name) : Option String → List Name
  | none => here
  | some segment => if segment = ".." then here.dropLast else here ++ [.text segment]

/-- The disk with a node at a path; directories on the way are made, and a link at the end is
replaced. -/
def put (disk : Disk) (path : String) (node : Node) : Disk :=
  let steps := stepsOf path
  let (root, here) := makeWay disk.root (disk.start path) steps.dropLast
  { disk with root := node.insertAt (entryNames here steps.getLast?) root }

/-- The disk with a file at a path; directories on the way are made, and a link at the end is
looked through. -/
def putFile (disk : Disk) (path : String) (contents : ByteArray) : Disk :=
  let (root, _) := makeWay disk.root (disk.start path) (stepsOf path).dropLast
  let disk := { disk with root }
  match disk.locate path .writing with
  | .ok (.vacant dir name) =>
    { disk with root := (Node.file contents).insertAt (dir ++ [.text name]) disk.root }
  | .ok (.existing names) =>
    { disk with root := (Node.file contents).insertAt names disk.root }
  | .error _ => disk.put path (.file contents)

/-- The disk without the entry at a path; a link is taken out itself. -/
def remove (disk : Disk) (path : String) : Disk :=
  let steps := stepsOf path
  match follow disk.root .access maxLinks (disk.start path) steps.dropLast with
  | .ok (.existing here) =>
    { disk with root := disk.root.eraseAt (entryNames here steps.getLast?) }
  | _ => disk

end ProjectLayout.Disk
