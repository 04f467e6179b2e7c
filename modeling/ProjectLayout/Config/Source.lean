import ProjectLayout.Config.Decode
import ProjectLayout.Config.Merge
import ProjectLayout.Config.Preset
import ProjectLayout.Disk.Locate
import ProjectLayout.Json.Parser

/-!
# Where a configuration comes from

* `configFile?` — the nearest configuration file at or above a directory (`find_config_file`).
* `readConfigValue` — the value in a configuration file (`read_config_value`).
* `Config.ofValue` — a value read as a configuration, merged over the preset it names
  (`resolve_config`).
* `LoadedConfig.load` — the configuration of a run, with its source (`load_config`).
-/

namespace ProjectLayout

open Json (Value SyntaxError)

/-! ## Errors -/

/-- Why a configuration could not be loaded. -/
inductive LoadError where
  | unreadable (path : String) (cause : Disk.IoError)
  | unparsable (path : String) (cause : SyntaxError)
  | invalid (cause : Decode.DecodeError)
  | unknownPreset (name : String)

def LoadError.message : LoadError → String
  | unreadable path cause => s!"failed to read config file '{path}': {cause.message}"
  | unparsable path cause => s!"failed to parse config file '{path}': {cause.message}"
  | invalid cause => s!"invalid configuration: {cause.message}"
  | unknownPreset name => Preset.unknownMessage name

/-! ## Values -/

/-- A value as a configuration.  If it names a preset, it is merged over it first. -/
def Config.ofValue (value : Value) : Except LoadError Config :=
  match value.get? "preset" with
  | some (.string name) =>
    match Preset.find? name with
    | none => .error (.unknownPreset name)
    | some preset => (Decode.readConfig (Merge.mergeConfig preset.value value)).mapError .invalid
  | _ => (Decode.readConfig value).mapError .invalid

/-! ## Files -/

/-- The names of configuration files; the first one found is used. -/
def configFileNames : List String :=
  [".validate-structurerc", ".validate-structurerc.json", "validate-structure.config.json"]

/-- The name of a file that may hold a configuration among other things. -/
def packageFileName : String := "package.json"

/-- The key of the configuration in a package file. -/
def packageKey : String := "validate-structure"

/-- The value under the configuration's key in the text of a package file. -/
def packageValue? (text : String) : Option Value :=
  match Value.parse text with
  | .ok value => value.get? packageKey
  | .error _ => none

/-- Whether a package file holds a configuration. -/
def isPackageWithConfig (disk : Disk) (path : String) : Bool :=
  match disk.readText path with
  | .ok text => (packageValue? text).isSome
  | .error _ => false

/-- The configuration file in a directory: the first of the known names, else a package file
with a configuration. -/
def configFileIn? (disk : Disk) (dir : String) : Option String :=
  match (configFileNames.map (Disk.joinPath dir)).find? disk.isFile with
  | some path => some path
  | none =>
    let package := Disk.joinPath dir packageFileName
    if disk.isFile package && isPackageWithConfig disk package then some package else none

/-- The configuration file in the nearest directory at or above `start` that has one. -/
def configFile? (disk : Disk) (start : String) : Option String :=
  (Disk.ancestors start).findSome? (configFileIn? disk)

/-- The value in a configuration file.  In a package file it is the value under the
configuration's key, `null` if there is none. -/
def readConfigValue (disk : Disk) (path : String) : Except LoadError Value :=
  match disk.readText path with
  | .error cause => .error (.unreadable path cause)
  | .ok text =>
    match Value.parse text with
    | .error cause => .error (.unparsable path cause)
    | .ok value =>
      if Disk.baseName? path = some packageFileName then .ok ((value.get? packageKey).getD .null)
      else .ok value

/-! ## Runs -/

/-- Where a configuration was found. -/
inductive ConfigSource where
  | file (path : String)
  /-- No file was found. -/
  | defaultPreset
  deriving DecidableEq, Repr

/-- A configuration with its source. -/
structure LoadedConfig where
  config : Config
  source : ConfigSource

/-- The configuration in a file. -/
def LoadedConfig.ofFile (disk : Disk) (path : String) : Except LoadError LoadedConfig :=
  match readConfigValue disk path with
  | .error e => .error e
  | .ok value => (Config.ofValue value).map fun config => ⟨config, .file path⟩

/-- The configuration of a run: from the explicit path, else from the nearest file at or above
`start`, else the React preset. -/
def LoadedConfig.load (disk : Disk) (explicit? : Option String) (start : String) :
    Except LoadError LoadedConfig :=
  match explicit? <|> configFile? disk start with
  | some path => ofFile disk path
  | none => (Config.ofValue Preset.react.value).map fun config => ⟨config, .defaultPreset⟩

end ProjectLayout
