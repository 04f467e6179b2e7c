import ProjectLayout.Config.Preset
import ProjectLayout.Report.Style
import ProjectLayout.Result

/-!
# The report for people

Every function gives the text that is written, in colors or without.  The two texts are put together
apart from each other wherever something is styled, as the program does it (`HumanOutput`).

* `reportText` — a whole result (`write_report`).
* `headerText`, `sectionText`, `findingText`, `summaryText` — its parts (`write_header`,
  `write_section_header`, `write_finding`, `write_summary`).
* `problemsText`, `presetsText`, `infoText`, `errorText` — what else is written
  (`write_config_errors`, `write_presets`, `write_info`, `write_error`).
-/

namespace ProjectLayout.Report

/-! ## Parts of a report -/

/-- The ending of a noun that stands behind a number (`plural`). -/
def pluralEnding (count : Nat) : String := if count = 1 then "" else "s"

/-- A horizontal rule (`write_rule`). -/
def ruleText (color : Bool) : String :=
  let rule := String.ofList (List.replicate 50 '─')
  if color then Style.dimmed.apply rule ++ "\n" else rule ++ "\n"

/-- A labelled detail of a finding (`write_detail`). -/
def detailText (color : Bool) (label value : String) : String :=
  let line := s!"   {label}: {value}"
  if color then Style.dimmed.apply line ++ "\n" else line ++ "\n"

/-- One of the numbers in the header. -/
def countText (color : Bool) (line : String) : String :=
  if color then Style.dimmed.apply line ++ "\n" else line ++ "\n"

/-- The title and what was scanned. -/
def headerText (color : Bool) (r : ValidationResult) : String :=
  let title := "Project Structure Validation Results"
  (if color then "\n" ++ Style.bold.apply title ++ "\n" else "\n" ++ title ++ "\n") ++
    ruleText color ++ countText color s!"Files scanned: {r.filesScanned}" ++
    countText color s!"Directories scanned: {r.directoriesScanned}" ++ "\n"

/-- The heading of the findings of one severity. -/
def sectionText (color : Bool) (severity : Severity) (count : Nat) : String :=
  let heading := match severity with
    | .error => s!"✗ {count} Error{pluralEnding count}"
    | .warning => s!"⚠ {count} Warning{pluralEnding count}"
  (if color then
    (match severity with
      | .error => Style.boldRed.apply heading
      | .warning => Style.boldYellow.apply heading) ++ "\n"
  else heading ++ "\n") ++ "\n"

/-- A finding under its number. -/
def findingText (color : Bool) (index : Nat) (f : Finding) : String :=
  let title := s!"{index}. {f.message}"
  (if color then
    (match f.severity with
      | .error => Style.red.apply title
      | .warning => Style.yellow.apply title) ++ "\n"
  else title ++ "\n") ++
    f.file.elim "" (detailText color "File") ++
    f.directory.elim "" (detailText color "Directory") ++
    f.actual.elim "" (detailText color "Actual") ++
    f.expected.elim "" (detailText color "Expected") ++
    f.suggestion.elim "" (fun suggestion =>
      let line := s!"   💡 {suggestion}"
      if color then Style.cyan.apply line ++ "\n" else line ++ "\n") ++
    "\n"

/-- The findings of one severity under their heading; nothing if there are none. -/
def findingsText (color : Bool) (severity : Severity) (findings : List Finding) : String :=
  if findings.isEmpty then ""
  else
    sectionText color severity findings.length ++
      String.join ((findings.zipIdx 1).map fun (f, index) => findingText color index f)

/-- Whether the project passed, and how many findings decided it. -/
def summaryText (color : Bool) (r : ValidationResult) : String :=
  let errors := r.errors.length
  let warnings := r.warnings.length
  (if 0 < errors then
    let message := s!"\n✗ Validation failed with {errors} error{pluralEnding errors}"
    if color then Style.boldRed.apply message ++ "\n" else message ++ "\n"
  else
    let message := s!"\n⚠ Validation passed with {warnings} warning{pluralEnding warnings}"
    if color then Style.boldYellow.apply message ++ "\n" else message ++ "\n") ++ "\n"

/-- The whole report of a result. -/
def reportText (color : Bool) (r : ValidationResult) : String :=
  headerText color r ++
    if r.isClean then
      let message := "✓ No issues found!"
      (if color then Style.green.apply message ++ "\n" else message ++ "\n") ++ "\n"
    else
      findingsText color .error r.errors ++ findingsText color .warning r.warnings ++
        ruleText color ++ summaryText color r

/-! ## Other output -/

/-- A problem of a configuration. -/
def problemText (color : Bool) (problem : String) : String :=
  let line := s!"  • {problem}"
  if color then Style.red.apply line ++ "\n" else line ++ "\n"

/-- The problems of a configuration. -/
def problemsText (color : Bool) (problems : List String) : String :=
  let heading := "\n✗ Configuration Errors"
  (if color then Style.boldRed.apply heading ++ "\n" else heading ++ "\n") ++
    String.join (problems.map (problemText color)) ++ "\n"

/-- The presets with their descriptions. -/
def presetsText (color : Bool) (presets : List Preset) : String :=
  let heading := "\nAvailable presets:"
  (if color then Style.bold.apply heading ++ "\n" else heading ++ "\n") ++
    String.join (presets.map fun preset => s!"  • {preset.name} - {preset.description}\n") ++ "\n"

/-- A message. -/
def infoText (message : String) : String := message ++ "\n"

/-- Why a command was not carried out. -/
def errorText (color : Bool) (message : String) : String :=
  if color then Style.boldRed.apply "Error:" ++ " " ++ message ++ "\n"
  else "Error: " ++ message ++ "\n"

end ProjectLayout.Report
