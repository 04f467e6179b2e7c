import ProjectLayout.Finding
import ProjectLayout.Naming.Convention

/-!
# Configurations

* `Config` — what one run checks: the sections of rules, what is ignored, and the severity of
  rules that set none (`RuleConfig`).
* `ColocationRules`, `FileNamingRule`, `FolderRule` — the sections (`ColocationConfig`,
  `FileNamingRules`, `FolderRule`); a missing section is not checked.
-/

namespace ProjectLayout

open Naming (Convention)

/-- A file expected inside a component directory. -/
structure FilePattern where
  /-- A glob for file names, with `*` for the name of the component. -/
  pattern : String
  /-- Whether its absence is a finding. -/
  required : Bool
  /-- How the file is shown instead of its pattern. -/
  description : Option String
  deriving DecidableEq, Repr

/-- What component directories must hold. -/
structure ColocationRules where
  enabled : Bool
  /-- The directories whose subdirectories are components. -/
  componentDirs : List String
  requiredFiles : List FilePattern
  /-- The convention for the names of component directories. -/
  convention : Option Convention
  deriving DecidableEq, Repr

/-- A convention for the names of the files that a glob matches. -/
structure FileNamingRule where
  pattern : String
  convention : Convention
  severity : Option Severity
  deriving DecidableEq, Repr

/-- A directory that must exist, and what may be in it. -/
structure FolderRule where
  /-- How the directory is shown. -/
  name : String
  path : String
  /-- The convention for the files below it. -/
  convention : Option Convention
  /-- The extensions of the files below it. -/
  allowedExtensions : Option (List String)
  deriving DecidableEq, Repr

/-- The sections of rules. -/
structure Rules where
  colocation : Option ColocationRules
  fileNaming : Option (List FileNamingRule)
  folders : Option (List FolderRule)
  deriving DecidableEq, Repr

/-- What one run checks. -/
structure Config where
  /-- The preset it was merged over. -/
  preset : Option String
  rules : Rules
  /-- Globs of what is not scanned. -/
  ignore : List String
  severity : Severity
  deriving DecidableEq, Repr

/-- No section at all. -/
def Rules.empty : Rules := ⟨none, none, none⟩

/-- The configuration that checks nothing. -/
def Config.empty : Config := ⟨none, .empty, [], .error⟩

end ProjectLayout
