import ProjectLayout.Config.Problem
import ProjectLayout.Naming.Suggestion
import ProjectLayout.Scan.Scanner

/-!
# The co-location check

Each subdirectory of a configured directory that holds its main file is a component.  A component
must hold a file for each required pattern, and its name must follow the convention.

* `hasMainFile` — whether a listing holds a file named like the component (`find_main_file`).
* `componentFindings` — the findings of one component.
* `colocationFindings` — the findings of the check.
* `colocationCheck` — the check, which compiles patterns on its way (`ColocationCheck`).
-/

namespace ProjectLayout

open Naming (splitExtension)
open Scan (Scanner Entry)
open Text (lowercase)

/-- The name of a file without its extension. -/
def stemOf (name : String) : List Char := (splitExtension name.toList).1

/-- Whether one of the files is named like the component, capitals and small letters alike. -/
def hasMainFile (component : String) (contents : List Entry) : Bool :=
  contents.any fun e =>
    !e.isDirectory && lowercase (stemOf e.name) == lowercase component.toList

/-- The finding for a required file, unless one of the files matches its pattern or the pattern
does not compile. -/
def missingFile? (severity : Severity) (dir component : String) (contents : List Entry)
    (required : FilePattern) : Option Finding :=
  let expected := fillStars component required.pattern
  match Glob.Pattern.compile? expected with
  | none => none
  | some pattern =>
    if contents.any fun e => !e.isDirectory && pattern.matches e.name then none
    else some (.missingFile severity dir (required.description.getD expected) expected)

/-- The finding for the name of a component directory, if it breaks the convention. -/
def directoryNaming? (severity : Severity) (dir component : String)
    (convention : Naming.Convention) : Option Finding :=
  if convention.accepts component then none
  else
    some (.directoryNaming severity dir convention.spelling component
      (convention.suggestion component))

/-- The findings of the component in `dir`, which holds `contents`. -/
def componentFindings (rules : ColocationRules) (severity : Severity) (dir : String)
    (contents : List Entry) : List Finding :=
  let component := (Entry.ofPath dir true).name
  if hasMainFile component contents then
    (rules.requiredFiles.filter (·.required)).filterMap
        (missingFile? severity dir component contents) ++
      (rules.convention.bind (directoryNaming? severity dir component)).toList
  else []

/-- The findings of the check, component after component. -/
def colocationFindings (scanner : Scanner) (disk : Disk) (config : Config) : List Finding :=
  match config.rules.colocation with
  | none => []
  | some rules =>
    if rules.enabled then
      (scanner.componentDirectories disk rules.componentDirs).flatMap fun dir =>
        componentFindings rules config.severity dir (scanner.listOneLevel disk dir)
    else []

/-! ## The check -/

/-- The patterns that are compiled for the component in `dir`, which holds `contents`. -/
def componentPatterns (rules : ColocationRules) (dir : String) (contents : List Entry) :
    List String :=
  let component := (Entry.ofPath dir true).name
  if hasMainFile component contents then
    (rules.requiredFiles.filter (·.required)).map (fillStars component ·.pattern)
  else []

/-- The patterns that the check compiles, component after component. -/
def colocationPatterns (scanner : Scanner) (disk : Disk) (config : Config) : List String :=
  match config.rules.colocation with
  | none => []
  | some rules =>
    if rules.enabled then
      (scanner.componentDirectories disk rules.componentDirs).flatMap fun dir =>
        componentPatterns rules dir (scanner.listOneLevel disk dir)
    else []

/-- The check. -/
def colocationCheck (scanner : Scanner) (disk : Disk) (config : Config) :
    Except Glob.Abort (List Finding) :=
  (Glob.checkNesting (colocationPatterns scanner disk config)).map fun _ =>
    colocationFindings scanner disk config

end ProjectLayout
