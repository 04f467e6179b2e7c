import ProjectLayout.CommandLine.Program

/-!
# The executable

The part of the disk that a command looks at is read first; then `runProgram` decides everything,
and what it has printed and written is passed on.
-/

namespace ProjectLayout.Main

open CommandLine

/-- Whether the contents of a file matter: configuration files are read, others only seen. -/
def isRead (explicit? : Option String) (path : String) : Bool :=
  explicit? == some path ||
    (packageFileName :: configFileNames).any fun name => Disk.baseName? path == some name

/-- The disk with the file, link or directory at an absolute path.  All that is below a directory
comes with it if `deep`, else only its configuration files. -/
partial def load (explicit? : Option String) (deep : Bool) (disk : Disk) (path : String) :
    IO Disk := do
  let file := (← IO.currentDir) / path
  match ← file.symlinkMetadata.toBaseIO with
  | .error _ => return disk
  | .ok metadata =>
    match metadata.type with
    | .dir =>
      let .ok entries ← file.readDir.toBaseIO | return disk.put path (.dir [] { list := false })
      let mut disk := disk.makeDirectory path
      for entry in entries do
        if deep || isRead explicit? entry.fileName then
          disk ← load explicit? deep disk (Disk.joinPath path entry.fileName)
      return disk
    | .symlink =>
      match ← (IO.FS.realPath file).toBaseIO with
      | .error _ => return disk.put path (.link path)
      | .ok target =>
        let disk := disk.put path (.link target.toString)
        if disk.pathExists target.toString then return disk
        else load explicit? false disk target.toString
    | _ =>
      if isRead explicit? path then return disk.putFile path (← IO.FS.readBinFile file)
      else return disk.putFile path ByteArray.empty

/-- The disk with a path, the directories on the way to it, and their configuration files. -/
def loadWithParents (explicit? : Option String) (disk : Disk) (path : String) (deep : Bool) :
    IO Disk := do
  let mut disk := disk
  for above in (Disk.ancestors path).reverse do
    disk ← load explicit? (deep && above == path) disk above
  return disk

/-- The disk as far as the arguments need it, with the working directory `dir`. -/
def snapshot (dir : String) (arguments : Arguments) : IO Disk := do
  let empty : Disk :=
    { root := .dir [], workingDir := (Disk.pathSegments dir).filter (!Disk.isIdle ·) }
  let disk ← loadWithParents none empty dir false
  match arguments.command with
  | .check options =>
    let config? := options.config.map (Disk.joinPath dir)
    let mut disk ← loadWithParents config? disk (Disk.joinPath dir options.root) false
    if let .ok root := disk.canonicalize options.root then
      disk ← loadWithParents config? disk root true
    for path in config? do
      disk ← loadWithParents config? disk path false
    return disk
  | _ => return disk

/-- The environment variables that the program looks at. -/
def environment : IO Environment := do
  let mut found := []
  for name in ["VALIDATE_STRUCTURE_CONFIG", "VALIDATE_STRUCTURE_ROOT"] do
    for value in ← IO.getEnv name do
      found := (name, value) :: found
  return found

end ProjectLayout.Main

open ProjectLayout ProjectLayout.CommandLine ProjectLayout.Main in
/-- Runs the program and ends with its exit code. -/
def main (args : List String) : IO UInt32 := do
  let dir := toString (← IO.currentDir)
  let env ← environment
  let before ← match Arguments.parse env args with
    | .ok arguments => snapshot dir arguments
    | .error _ => pure (.ofTree (.dir []))
  let outcome := runProgram before env args
  let path := Disk.joinPath dir starterFileName
  if !before.pathExists path then
    if let .ok text := outcome.disk.readText path then
      IO.FS.writeFile path text
  IO.print outcome.stdout
  IO.eprint outcome.stderr
  return outcome.exitCode.toUInt32
