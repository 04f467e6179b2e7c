import Mathlib.Data.List.Forall2
import ProjectLayout.Proofs.Report.Document

/-!
# Reading results out of a report

A result can be told from its document: each field of each finding stands under a key of its own,
and a field that a finding does not have leaves its key out.

* `findingOf?`, `resultOf?` — the finding or the result that a value tells of.
* `resultOf?_resultValue` — the value of a result tells of that result.
* `Tells` — what a value says of a finding, key by key.
* `result_told_from_documentText` — the document of a result, read back.
-/

namespace ProjectLayout.Report

open Json

/-! ## Findings -/

def kindOf? (label : String) : Option FindingKind :=
  match label with
  | "missing-file" => some .missingFile
  | "naming-violation" => some .namingViolation
  | "structure-violation" => some .structureViolation
  | "forbidden-file" => some .forbiddenFile
  | _ => none

def severityOf? (label : String) : Option Severity :=
  match label with
  | "warning" => some .warning
  | "error" => some .error
  | _ => none

/-- The text of a member that has to be there. -/
def text? (key : String) (v : Value) : Option String := (v.get? key).bind Value.string?

/-- The text of a member that may be missing; nothing if the member is no text. -/
def optionalText? (key : String) (v : Value) : Option (Option String) :=
  match v.get? key with
  | none => some none
  | some (.string text) => some (some text)
  | some _ => none

/-- The finding that a value tells of. -/
def findingOf? (v : Value) : Option Finding := do
  let kind ← (text? "type" v).bind kindOf?
  let severity ← (text? "severity" v).bind severityOf?
  let message ← text? "message" v
  let file ← optionalText? "file" v
  let directory ← optionalText? "directory" v
  let expected ← optionalText? "expected" v
  let actual ← optionalText? "actual" v
  let suggestion ← optionalText? "suggestion" v
  return { kind, severity, message, file, directory, expected, actual, suggestion }

/-- The fields that a finding may not have, under their keys. -/
def optionalFields : List (String × (Finding → Option String)) :=
  [("file", Finding.file), ("directory", Finding.directory), ("expected", Finding.expected),
    ("actual", Finding.actual), ("suggestion", Finding.suggestion)]

/-- What a value says of a finding: the fields that it has, each under its key, and nothing under
other keys. -/
structure Tells (v : Value) (f : Finding) : Prop where
  kind : v.get? "type" = some (.string f.kind.label)
  severity : v.get? "severity" = some (.string f.severity.label)
  message : v.get? "message" = some (.string f.message)
  optional : ∀ field ∈ optionalFields, v.get? field.1 = (field.2 f).map .string
  others : ∀ key, key ∉ ["type", "severity", "message"] ++ optionalFields.map Prod.fst →
    v.get? key = none

theorem kindOf?_label (kind : FindingKind) : kindOf? kind.label = some kind := by
  cases kind <;> rfl

theorem severityOf?_label (severity : Severity) : severityOf? severity.label = some severity := by
  cases severity <;> rfl

theorem get?_textMember? (key k : String) (text : Option String) :
    Members.get? k (textMember? key text) = if key = k then text.map .string else none := by
  cases text <;> simp [textMember?, Members.get?]

theorem tells_findingValue (f : Finding) : Tells (findingValue f) f where
  kind := rfl
  severity := rfl
  message := rfl
  optional field hfield := by
    simp only [optionalFields, List.mem_cons, List.not_mem_nil, or_false] at hfield
    rcases hfield with rfl | rfl | rfl | rfl | rfl <;>
      simp [findingValue, Value.get?, Members.get?_append, get?_textMember?, Members.get?]
  others key hkey := by
    simp only [optionalFields, List.map_cons, List.map_nil, List.cons_append, List.nil_append,
      List.mem_cons, List.not_mem_nil, or_false, not_or, ← ne_eq] at hkey
    simp [findingValue, Value.get?, Members.get?_append, get?_textMember?, Members.get?,
      hkey.1.symm, hkey.2.1.symm, hkey.2.2.1.symm, hkey.2.2.2.1.symm, hkey.2.2.2.2.1.symm,
      hkey.2.2.2.2.2.1.symm, hkey.2.2.2.2.2.2.1.symm, hkey.2.2.2.2.2.2.2.symm]

/-- What a value says of a finding is enough to tell the finding. -/
theorem Tells.findingOf? {v : Value} {f : Finding} (h : Tells v f) :
    Report.findingOf? v = some f := by
  have hoptional : ∀ field ∈ optionalFields, optionalText? field.1 v = some (field.2 f) := by
    intro field hfield
    rw [optionalText?, h.optional field hfield]
    cases field.2 f <;> rfl
  simp only [optionalFields, List.forall_mem_cons] at hoptional
  obtain ⟨hfile, hdirectory, hexpected, hactual, hsuggestion, -⟩ := hoptional
  simp [Report.findingOf?, text?, h.kind, h.severity, h.message, hfile, hdirectory, hexpected,
    hactual, hsuggestion, Value.string?, kindOf?_label, severityOf?_label]

/-! ## Results -/

/-- The findings that a value tells of. -/
def findingsOf? : Value → Option (List Finding)
  | .array values => values.mapM findingOf?
  | _ => none

/-- The number that a value tells of. -/
def countOf? : Value → Option Nat
  | .integer n => n.toNat?
  | _ => none

/-- The truth value that a value tells of. -/
def flagOf? : Value → Option Bool
  | .bool b => some b
  | _ => none

/-- The result that a value tells of. -/
def resultOf? (v : Value) : Option ValidationResult := do
  let valid ← (v.get? "valid").bind flagOf?
  let errors ← (v.get? "errors").bind findingsOf?
  let warnings ← (v.get? "warnings").bind findingsOf?
  let filesScanned ← (v.get? "filesScanned").bind countOf?
  let directoriesScanned ← (v.get? "directoriesScanned").bind countOf?
  return { valid, errors, warnings, filesScanned, directoriesScanned }

theorem findingsOf?_map_findingValue (findings : List Finding) :
    findingsOf? (.array (findings.map findingValue)) = some findings := by
  simp only [findingsOf?]
  induction findings with
  | nil => rfl
  | cons f findings ih => simp [(tells_findingValue f).findingOf?, ih]

theorem countOf?_integer (n : Nat) : countOf? (.integer n) = some n := rfl

/-- The value of a result tells of that result. -/
theorem resultOf?_resultValue (r : ValidationResult) : resultOf? (resultValue r) = some r := by
  simp [resultOf?, resultValue, Value.get?, Members.get?, flagOf?, countOf?_integer,
    findingsOf?_map_findingValue]

/-- The document of a result is one indented JSON object with a line break after it, and both of
these are read as the same object.  Under its five keys stands all of the result: each finding in
its place, with the fields that it has and no others.  So no other result has the same document. -/
theorem result_told_from_documentText (r : ValidationResult)
    (hfiles : r.filesScanned ≤ maxSignificand)
    (hdirectories : r.directoriesScanned ≤ maxSignificand) :
    ∃ (document : String) (members : List (String × Value)),
      documentText r = document ++ "\n" ∧ document.toList.getLast? = some '\x7d' ∧
      Value.parse document = .ok (.object members) ∧
      Value.parse (documentText r) = .ok (.object members) ∧
      Members.keys members =
        ["valid", "errors", "warnings", "filesScanned", "directoriesScanned"] ∧
      resultOf? (.object members) = some r ∧
      (∃ values, Members.get? "errors" members = some (.array values) ∧
        List.Forall₂ Tells values r.errors) ∧
      (∃ values, Members.get? "warnings" members = some (.array values) ∧
        List.Forall₂ Tells values r.warnings) ∧
      ∀ other : ValidationResult, other.filesScanned ≤ maxSignificand →
        other.directoriesScanned ≤ maxSignificand → documentText other = documentText r →
        other = r := by
  have hreadable := readable_resultValue hfiles hdirectories 124
  have htells (findings : List Finding) :
      List.Forall₂ Tells (findings.map findingValue) findings := by
    rw [List.forall₂_map_left_iff, List.forall₂_same]
    exact fun f _ => tells_findingValue f
  refine ⟨(resultValue r).pretty, _, rfl, ?_, parse_pretty_alone hreadable, parse_pretty hreadable,
    rfl, resultOf?_resultValue r, ⟨_, rfl, htells r.errors⟩, ⟨_, rfl, htells r.warnings⟩, ?_⟩
  · rw [Value.pretty, String.toList_ofList, resultValue, prettyChars]
    exact List.getLast?_concat
  · intro other hotherFiles hotherDirectories heq
    have hvalue : resultValue other = resultValue r := by
      refine Except.ok.inj ((parse_documentText hotherFiles hotherDirectories).symm.trans ?_)
      rw [heq, parse_documentText hfiles hdirectories]
    have htold := resultOf?_resultValue other
    rw [hvalue, resultOf?_resultValue] at htold
    exact (Option.some.inj htold).symm

/-- A result with one finding, of a kind that leaves fields out, and the count `2 ^ 53 + 1`. -/
def sampleResult : ValidationResult where
  valid := false
  errors := [.missingDirectory .error "\"src\"\\\n" "src"]
  warnings := []
  filesScanned := 9007199254740993
  directoriesScanned := 0

theorem sampleResult_told_from_documentText :
    ∃ members, Value.parse (documentText sampleResult) = .ok (.object members) ∧
      resultOf? (.object members) = some sampleResult := by
  obtain ⟨_, members, -, -, -, hparse, -, htold, -⟩ :=
    result_told_from_documentText sampleResult (by decide) (by decide)
  exact ⟨members, hparse, htold⟩

end ProjectLayout.Report
