import ProjectLayout.Json.Printer
import ProjectLayout.Result

/-!
# The report for programs

`documentText` writes a result as an indented JSON document (`write_json`).  What a finding does not
have is left out.
-/

namespace ProjectLayout.Report

open Json (Value)

/-- A member for a text that is there. -/
def textMember? (key : String) (text : Option String) : List (String × Value) :=
  text.toList.map fun t => (key, .string t)

/-- A finding as an object. -/
def findingValue (f : Finding) : Value :=
  .object
    ([("type", .string f.kind.label), ("severity", .string f.severity.label),
        ("message", .string f.message)] ++
      textMember? "file" f.file ++ textMember? "directory" f.directory ++
      textMember? "expected" f.expected ++ textMember? "actual" f.actual ++
      textMember? "suggestion" f.suggestion)

/-- A result as an object. -/
def resultValue (r : ValidationResult) : Value :=
  .object
    [("valid", .bool r.valid), ("errors", .array (r.errors.map findingValue)),
      ("warnings", .array (r.warnings.map findingValue)),
      ("filesScanned", .integer r.filesScanned),
      ("directoriesScanned", .integer r.directoriesScanned)]

/-- The document, ended by a line break. -/
def documentText (r : ValidationResult) : String := (resultValue r).pretty ++ "\n"

end ProjectLayout.Report
