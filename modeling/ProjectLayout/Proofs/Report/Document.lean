import ProjectLayout.Proofs.Json.RoundTrip
import ProjectLayout.Report.Document

/-!
# Reading back the report for programs

A result is written without loss: its document is read back as it was, as long as the numbers of
files and of directories are exact for a reader.

* `readable_findingValue` — whatever a finding leaves out, its keys are distinct.
* `parse_documentText` — the document of a result is read back.
-/

namespace ProjectLayout.Report

open Json

theorem keys_textMember? (key : String) (text : Option String) :
    (Members.keys (textMember? key text)).Sublist [key] := by
  cases text with
  | none => exact List.nil_sublist [key]
  | some t => exact List.Sublist.refl [key]

theorem readable_of_mem_textMember? {key : String} {text : Option String} {m : String × Value}
    (h : m ∈ textMember? key text) {depth : Nat} : Readable depth m.2 := by
  obtain ⟨t, -, rfl⟩ := List.mem_map.mp h
  exact .string t

theorem readable_findingValue (f : Finding) (depth : Nat) :
    Readable (depth + 1) (findingValue f) := by
  refine .object ?_ fun m hm => ?_
  · simp only [Members.keys_append]
    have hall : (["type", "severity", "message"] ++ ["file"] ++ ["directory"] ++ ["expected"] ++
        ["actual"] ++ ["suggestion"]).Nodup := by decide
    refine hall.sublist ?_
    exact (((((List.Sublist.refl _).append (keys_textMember? _ _)).append
      (keys_textMember? _ _)).append (keys_textMember? _ _)).append
      (keys_textMember? _ _)).append (keys_textMember? _ _)
  · simp only [List.mem_append] at hm
    rcases hm with ((((hm | hm) | hm) | hm) | hm) | hm
    · simp only [List.mem_cons, List.not_mem_nil, or_false] at hm
      rcases hm with rfl | rfl | rfl <;> exact .string _
    all_goals exact readable_of_mem_textMember? hm

/-- A document is exact for a reader if its counts are. -/
theorem readable_resultValue {r : ValidationResult} (hfiles : r.filesScanned ≤ maxSignificand)
    (hdirectories : r.directoriesScanned ≤ maxSignificand) (depth : Nat) :
    Readable (depth + 3) (resultValue r) := by
  have hlist (findings : List Finding) :
      Readable (depth + 2) (.array (findings.map findingValue)) := by
    refine .array fun v hv => ?_
    obtain ⟨f, -, rfl⟩ := List.mem_map.mp hv
    exact readable_findingValue f depth
  refine .object (by simp [Members.keys]) fun m hm => ?_
  simp only [List.mem_cons, List.not_mem_nil, or_false] at hm
  rcases hm with rfl | rfl | rfl | rfl | rfl
  · exact .bool r.valid
  · exact hlist r.errors
  · exact hlist r.warnings
  · exact .integer (by omega) (by omega)
  · exact .integer (by omega) (by omega)

theorem parse_documentText {r : ValidationResult} (hfiles : r.filesScanned ≤ maxSignificand)
    (hdirectories : r.directoriesScanned ≤ maxSignificand) :
    Value.parse (documentText r) = .ok (resultValue r) :=
  parse_pretty (readable_resultValue hfiles hdirectories 124)

end ProjectLayout.Report
