import ProjectLayout.Config.Preset
import ProjectLayout.Disk.Change
import ProjectLayout.Json.Printer

/-!
# Starter configurations

* `starterText` — a configuration file that builds on a preset.
* `writeStarter` — that file put into a directory, unless it is there already
  (`write_init_config`).
-/

namespace ProjectLayout

open Json (Value)

/-- Why no starter configuration was written. -/
inductive StarterError where
  | alreadyExists (path : String)
  | unknownPreset (name : String)
  | unwritable (cause : Disk.IoError)
  deriving DecidableEq, Repr

def StarterError.message : StarterError → String
  | alreadyExists path => s!"configuration file already exists at: {path}"
  | unknownPreset name => Preset.unknownMessage name
  | unwritable cause => s!"IO error: {cause.message}"

/-- The name of the file. -/
def starterFileName : String := ".validate-structurerc.json"

/-- A configuration that takes everything from a preset. -/
def starterValue (preset : String) : Value :=
  .object
    [("preset", .string preset),
      ("rules", .object [("componentColocation", .object [("enabled", .bool true)])])]

/-- The text of the file. -/
def starterText (preset : String) : String := (starterValue preset).pretty ++ "\n"

/-- An attempt to put a starter configuration into `dir`: the path of the new file, and the disk
after it.  What a write has left that fails part of the way stays. -/
def writeStarter (disk : Disk) (dir preset : String) : Except StarterError String × Disk :=
  let path := Disk.joinPath dir starterFileName
  if disk.pathExists path then (.error (.alreadyExists path), disk)
  else if (Preset.find? preset).isNone then (.error (.unknownPreset preset), disk)
  else
    match disk.writeText path (starterText preset) with
    | (.error e, after) => (.error (.unwritable e), after)
    | (.ok (), after) => (.ok path, after)

end ProjectLayout
