import ProjectLayout.Finding

/-!
# Results

* `ValidationResult` — what a run found, errors and warnings apart.
* `ValidationResult.ofFindings` — findings sorted by severity, each kind in the order found
  (`from_findings`).

`errors_ofFindings` and `warnings_ofFindings` say that the two lists are the findings of either
severity, and `perm_ofFindings` that together they hold every finding once.
-/

namespace ProjectLayout

/-- What a run found. -/
structure ValidationResult where
  /-- Whether there are no errors; warnings do not count. -/
  valid : Bool
  errors : List Finding
  warnings : List Finding
  filesScanned : Nat
  directoriesScanned : Nat
  deriving DecidableEq, Repr

namespace ValidationResult

/-- Findings sorted by severity. -/
def ofFindings (findings : List Finding) (files directories : Nat) : ValidationResult :=
  let (warnings, errors) := findings.partition (·.severity == .warning)
  { valid := errors.isEmpty
    errors
    warnings
    filesScanned := files
    directoriesScanned := directories }

def hasErrors (r : ValidationResult) : Bool := !r.errors.isEmpty

def hasWarnings (r : ValidationResult) : Bool := !r.warnings.isEmpty

/-- Whether nothing at all was found. -/
def isClean (r : ValidationResult) : Bool := r.errors.isEmpty && r.warnings.isEmpty

theorem errors_ofFindings (findings : List Finding) (files directories : Nat) :
    (ofFindings findings files directories).errors = findings.filter (·.severity == .error) := by
  simp only [ofFindings, List.partition_eq_filter_filter]
  congr 1
  funext f
  show (!(f.severity == .warning)) = (f.severity == .error)
  cases f.severity <;> rfl

theorem warnings_ofFindings (findings : List Finding) (files directories : Nat) :
    (ofFindings findings files directories).warnings =
      findings.filter (·.severity == .warning) := by
  simp [ofFindings, List.partition_eq_filter_filter]

theorem valid_ofFindings (findings : List Finding) (files directories : Nat) :
    (ofFindings findings files directories).valid =
      (ofFindings findings files directories).errors.isEmpty := rfl

theorem perm_ofFindings (findings : List Finding) (files directories : Nat) :
    ((ofFindings findings files directories).errors ++
      (ofFindings findings files directories).warnings).Perm findings := by
  have hn : (fun f : Finding => f.severity == .warning) = fun f => !(f.severity == .error) := by
    funext f
    cases f.severity <;> rfl
  rw [errors_ofFindings, warnings_ofFindings, hn]
  exact List.filter_append_perm _ findings

end ValidationResult

end ProjectLayout
