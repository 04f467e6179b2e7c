/-!
# Findings

* `Severity` — whether a finding fails a run.
* `Finding` — one place where a project breaks a rule.
* `Finding.missingFile`, `Finding.directoryNaming`, `Finding.fileNaming`,
  `Finding.missingDirectory`, `Finding.forbiddenFile` — the findings there are (`missing_file` and
  so on).
-/

namespace ProjectLayout

/-- Whether a finding fails a run. -/
inductive Severity where
  /-- Reported, but does not fail the run. -/
  | warning
  /-- Fails the run. -/
  | error
  deriving DecidableEq, Repr

/-- How a severity is written in reports and configurations. -/
def Severity.label : Severity → String
  | warning => "warning"
  | error => "error"

/-- What a finding is about. -/
inductive FindingKind where
  /-- A component lacks a required file. -/
  | missingFile
  /-- A file or directory name breaks a convention. -/
  | namingViolation
  /-- A required directory does not exist. -/
  | structureViolation
  /-- A file has an extension that is not allowed where it lies. -/
  | forbiddenFile
  deriving DecidableEq, Repr

/-- How a kind is written in reports. -/
def FindingKind.label : FindingKind → String
  | missingFile => "missing-file"
  | namingViolation => "naming-violation"
  | structureViolation => "structure-violation"
  | forbiddenFile => "forbidden-file"

/-- One place where a project breaks a rule. -/
structure Finding where
  kind : FindingKind
  severity : Severity
  message : String
  /-- The file it is about, from the root. -/
  file : Option String
  /-- The directory it is about, from the root. -/
  directory : Option String
  /-- The name or pattern that was expected. -/
  expected : Option String
  /-- The name that was found. -/
  actual : Option String
  /-- What to do about it. -/
  suggestion : Option String
  deriving DecidableEq, Repr

namespace Finding

/-- A component directory without a file for `pattern`, which is shown as `label`. -/
def missingFile (severity : Severity) (directory label pattern : String) : Finding where
  kind := .missingFile
  severity := severity
  message := s!"Missing required file: {label}"
  file := none
  directory := some directory
  expected := some pattern
  actual := none
  suggestion := some s!"Create {pattern} in {directory}/"

/-- A component directory whose name breaks a convention. -/
def directoryNaming (severity : Severity) (directory convention actual expected : String) :
    Finding where
  kind := .namingViolation
  severity := severity
  message := s!"Component directory name doesn't follow {convention} convention"
  file := none
  directory := some directory
  expected := some expected
  actual := some actual
  suggestion := some s!"Rename directory to {expected}"

/-- A file whose name breaks the rule that `message` tells. -/
def fileNaming (severity : Severity) (message file actual expected : String) : Finding where
  kind := .namingViolation
  severity := severity
  message := message
  file := some file
  directory := none
  expected := some expected
  actual := some actual
  suggestion := some s!"Rename to {expected}"

/-- A required directory that does not exist. -/
def missingDirectory (severity : Severity) (name path : String) : Finding where
  kind := .structureViolation
  severity := severity
  message := s!"Required directory not found: {name}"
  file := none
  directory := some path
  expected := none
  actual := none
  suggestion := some s!"Create directory at {path}"

/-- A file whose extension is not among those allowed; always a warning. -/
def forbiddenFile (file extension rule : String) (allowed : List String) : Finding where
  kind := .forbiddenFile
  severity := .warning
  message := s!"File extension {extension} not allowed in {rule}"
  file := some file
  directory := none
  expected := none
  actual := none
  suggestion := some ("Allowed extensions: " ++ String.intercalate ", " allowed)

/-- The path a finding points at: its file, else its directory. -/
def location (f : Finding) : Option String := f.file <|> f.directory

end Finding

end ProjectLayout
