import ProjectLayout.Config.Model
import ProjectLayout.Json.Value
import ProjectLayout.Number.Shortest
import ProjectLayout.Text.Quoted

/-!
# Reading configurations from JSON values

A record is written as an object, whose unknown keys are ignored, or as an array of its fields in
order.  Members are read in the order of the document, so the first one that does not fit is the
one reported.

* `DecodeError` — why a value does not fit, with its wording.
* `Field`, `readRecord` — records by their fields.
* `readFileNaming` — rules under their patterns (`visit_map`).
* `readConfig` — a whole configuration (`from_value`).
-/

namespace ProjectLayout.Decode

open Json (Value)
open Naming (Convention)

/-! ## Errors -/

/-- Why a value does not fit. -/
inductive DecodeError where
  /-- A value of another form than the one expected. -/
  | wrongForm (found : Value) (expected : String)
  /-- A choice as an object that has not exactly one member. -/
  | notSingleKey
  /-- A choice that is none of the two there are. -/
  | unknownChoice (found first second : String)
  | missingField (key : String)
  /-- An array with the wrong number of items. -/
  | wrongLength (length : Nat) (expected : String)

/-- How a value is called in an error. -/
def describe : Value → String
  | .null => "null"
  | .bool true => "boolean `true`"
  | .bool false => "boolean `false`"
  | .integer n => s!"integer `{n}`"
  | .float x => "floating point `" ++ String.ofList x.text ++ "`"
  | .string s => "string " ++ Text.quote s
  | .array _ => "sequence"
  | .object _ => "map"

def DecodeError.message : DecodeError → String
  | wrongForm found expected => s!"invalid type: {describe found}, expected {expected}"
  | notSingleKey => "invalid value: map, expected map with a single key"
  | unknownChoice found first second =>
    s!"unknown variant `{found}`, expected `{first}` or `{second}`"
  | missingField key => s!"missing field `{key}`"
  | wrongLength length expected => s!"invalid length {length}, expected {expected}"

/-- A value read as a term of `α`. -/
abbrev Reader (α : Type) := Value → Except DecodeError α

/-! ## Plain values -/

def readBool : Reader Bool
  | .bool b => .ok b
  | v => .error (.wrongForm v "a boolean")

def readString : Reader String
  | .string s => .ok s
  | v => .error (.wrongForm v "a string")

/-- `null` counts as nothing. -/
def readOption {α : Type} (read : Reader α) : Reader (Option α)
  | .null => .ok none
  | v => (read v).map some

/-- The items of an array, up to the first one that does not fit. -/
def readList {α : Type} (read : Reader α) : Reader (List α)
  | .array items => items.mapM read
  | v => .error (.wrongForm v "a sequence")

/-- Any string is a convention; a spelling that names none is kept. -/
def readConvention : Reader Convention := fun v => (readString v).map Convention.ofSpelling

/-- The severity with a name. -/
def severityOf (name : String) : Except DecodeError Severity :=
  if name = "warning" then .ok .warning
  else if name = "error" then .ok .error
  else .error (.unknownChoice name "warning" "error")

/-- A severity as a string, or as an object whose only key names it and holds nothing. -/
def readSeverity : Reader Severity
  | .string name => severityOf name
  | .object [(name, v)] =>
    match severityOf name, v with
    | .error e, _ => .error e
    | .ok severity, .null => .ok severity
    | .ok _, v => .error (.wrongForm v "unit")
  | .object _ => .error .notSingleKey
  | v => .error (.wrongForm v "string or map")

/-! ## Records -/

/-- A field of a record `σ`: its key, whether it may be left out, and how its value is put into
the record. -/
structure Field (σ : Type) where
  key : String
  required : Bool
  read : Value → σ → Except DecodeError σ

/-- A field that keeps its default value when it is left out. -/
def Field.optional {σ α : Type} (key : String) (read : Reader α) (put : α → σ → σ) : Field σ :=
  ⟨key, false, fun v r => (read v).map fun x => put x r⟩

/-- A field that may not be left out. -/
def Field.mandatory {σ α : Type} (key : String) (read : Reader α) (put : α → σ → σ) : Field σ :=
  ⟨key, true, fun v r => (read v).map fun x => put x r⟩

/-- A record from the members of an object, in the order of the document. -/
def readMembers {σ : Type} (fields : List (Field σ)) :
    List (String × Value) → σ → Except DecodeError σ
  | [], r => .ok r
  | (key, v) :: rest, r =>
    match fields.find? (·.key == key) with
    | none => readMembers fields rest r
    | some field =>
      match field.read v r with
      | .error e => .error e
      | .ok r => readMembers fields rest r

/-- A record from the items of an array, one for each field. -/
def readItems {σ : Type} (name : String) (fields : List (Field σ)) (items : List Value) (r : σ) :
    Except DecodeError σ :=
  go 0 fields items r
where
  go (index : Nat) : List (Field σ) → List Value → σ → Except DecodeError σ
    | [], [], r => .ok r
    | [], _ :: _, _ => .error (.wrongLength items.length "fewer elements in array")
    | field :: fields', [], r =>
      if field.required then
        .error (.wrongLength index s!"struct {name} with {fields.length} elements")
      else go (index + 1) fields' [] r
    | field :: fields', v :: rest, r =>
      match field.read v r with
      | .error e => .error e
      | .ok r => go (index + 1) fields' rest r

/-- A record that starts as `initial`. -/
def readRecord {σ : Type} (name : String) (fields : List (Field σ)) (initial : σ) : Reader σ
  | .object members =>
    match readMembers fields members initial with
    | .error e => .error e
    | .ok r =>
      match fields.find? fun f => f.required && !members.any (·.1 == f.key) with
      | some field => .error (.missingField field.key)
      | none => .ok r
  | .array items => readItems name fields items initial
  | v => .error (.wrongForm v s!"struct {name}")

/-! ## Sections -/

def filePatternFields : List (Field FilePattern) :=
  [.mandatory "pattern" readString fun x r => { r with pattern := x },
    .optional "required" readBool fun x r => { r with required := x },
    .optional "description" (readOption readString) fun x r => { r with description := x }]

/-- A file of a component; not required unless it says so. -/
def readFilePattern : Reader FilePattern :=
  readRecord "FilePattern" filePatternFields ⟨"", false, none⟩

def colocationFields : List (Field ColocationRules) :=
  [.optional "enabled" readBool fun x r => { r with enabled := x },
    .optional "componentDirs" (readList readString) fun x r => { r with componentDirs := x },
    .optional "requiredFiles" (readList readFilePattern) fun x r => { r with requiredFiles := x },
    .optional "namingConvention" (readOption readConvention)
      fun x r => { r with convention := x }]

/-- The co-location section; disabled unless it says so. -/
def readColocation : Reader ColocationRules :=
  readRecord "ColocationConfig" colocationFields ⟨false, [], [], none⟩

def fileNamingFields : List (Field FileNamingRule) :=
  [.mandatory "convention" readConvention fun x r => { r with convention := x },
    .optional "severity" (readOption readSeverity) fun x r => { r with severity := x }]

/-- The rule for the files that `pattern` matches. -/
def readFileNamingRule (pattern : String) : Reader FileNamingRule :=
  readRecord "FileNamingSpec" fileNamingFields ⟨pattern, .unknown "", none⟩

/-- File naming rules under their patterns, in the order of the document. -/
def readFileNaming : Reader (List FileNamingRule)
  | .object members => members.mapM fun m => readFileNamingRule m.1 m.2
  | v => .error (.wrongForm v "a map of glob patterns to naming rules")

def folderFields : List (Field FolderRule) :=
  [.mandatory "name" readString fun x r => { r with name := x },
    .mandatory "path" readString fun x r => { r with path := x },
    .optional "namingConvention" (readOption readConvention)
      fun x r => { r with convention := x },
    .optional "allowedExtensions" (readOption (readList readString))
      fun x r => { r with allowedExtensions := x }]

/-- A rule for a folder. -/
def readFolder : Reader FolderRule :=
  readRecord "FolderRule" folderFields ⟨"", "", none, none⟩

def rulesFields : List (Field Rules) :=
  [.optional "componentColocation" (readOption readColocation)
      fun x r => { r with colocation := x },
    .optional "fileNaming" (readOption readFileNaming) fun x r => { r with fileNaming := x },
    .optional "folderStructure" (readOption (readList readFolder))
      fun x r => { r with folders := x }]

/-- The sections of rules; a section may be missing or `null`. -/
def readRules : Reader Rules := readRecord "Rules" rulesFields .empty

def configFields : List (Field Config) :=
  [.optional "preset" (readOption readString) fun x r => { r with preset := x },
    .optional "rules" readRules fun x r => { r with rules := x },
    .optional "ignore" (readList readString) fun x r => { r with ignore := x },
    .optional "severity" readSeverity fun x r => { r with severity := x }]

/-- A whole configuration. -/
def readConfig : Reader Config := readRecord "RuleConfig" configFields .empty

end ProjectLayout.Decode
