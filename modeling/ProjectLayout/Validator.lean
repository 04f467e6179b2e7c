import ProjectLayout.Check.Colocation
import ProjectLayout.Check.FileNaming
import ProjectLayout.Check.FolderStructure
import ProjectLayout.Result

/-!
# Validating a project

* `runChecks` — the three checks in their order (`default_checks`).
* `validateProject` — one run: the scan, the checks, the result.
* `Validator` — a configuration with a scanner made from it, which can be run again and again
  (`ProjectValidator`).
* `Validator.State` — where a validator is in its run.
* `Validator.run` — a run of a validator (`validate`).

`Validator.run_fst` and `Validator.run_snd` say that a run depends on nothing that earlier runs
have left.
-/

namespace ProjectLayout

open Scan (Scanner ScanError Entry)

/-- The findings of all checks in their order. -/
def allFindings (scanner : Scanner) (disk : Disk) (entries : List Entry) (config : Config) :
    List Finding :=
  colocationFindings scanner disk config ++ fileNamingFindings entries config ++
    folderStructureFindings scanner disk entries config

/-- The result with these findings for a project with these entries. -/
def ValidationResult.ofScan (findings : List Finding) (entries : List Entry) : ValidationResult :=
  let files := (entries.filter (!·.isDirectory)).length
  .ofFindings findings files (entries.length - files)

/-- What the checks make of a project with these entries. -/
def resultOf (scanner : Scanner) (disk : Disk) (entries : List Entry) (config : Config) :
    ValidationResult :=
  .ofScan (allFindings scanner disk entries config) entries

@[simp] theorem filesScanned_resultOf (scanner : Scanner) (disk : Disk) (entries : List Entry)
    (config : Config) :
    (resultOf scanner disk entries config).filesScanned =
      (entries.filter (!·.isDirectory)).length := rfl

@[simp] theorem directoriesScanned_resultOf (scanner : Scanner) (disk : Disk)
    (entries : List Entry) (config : Config) :
    (resultOf scanner disk entries config).directoriesScanned =
      entries.length - (entries.filter (!·.isDirectory)).length := rfl

/-! ## Runs -/

/-- Why a run has no result. -/
inductive RunError where
  | notScanned (cause : ScanError)
  /-- The program has ended in a check. -/
  | aborted (cause : Glob.Abort)
  deriving DecidableEq, Repr

/-- The findings of all checks, which are run one after the other. -/
def runChecks (scanner : Scanner) (disk : Disk) (entries : List Entry) (config : Config) :
    Except Glob.Abort (List Finding) := do
  let colocation ← colocationCheck scanner disk config
  let fileNaming ← fileNamingCheck entries config
  return colocation ++ fileNaming ++ folderStructureFindings scanner disk entries config

/-- The result of one run. -/
def validateProject (scanner : Scanner) (disk : Disk) (config : Config) :
    Except RunError ValidationResult :=
  match scanner.scan disk with
  | .error e => .error (.notScanned e)
  | .ok entries =>
    match runChecks scanner disk entries config with
    | .error cause => .error (.aborted cause)
    | .ok findings => .ok (.ofScan findings entries)

/-- The patterns that the checks compile, in their order. -/
def checkedPatterns (scanner : Scanner) (disk : Disk) (config : Config) : List String :=
  colocationPatterns scanner disk config ++ fileNamingPatterns config

/-- A run goes on as long as every pattern can be compiled. -/
theorem runChecks_eq (scanner : Scanner) (disk : Disk) (entries : List Entry) (config : Config) :
    runChecks scanner disk entries config =
      (Glob.checkNesting (checkedPatterns scanner disk config)).map fun _ =>
        allFindings scanner disk entries config := by
  unfold runChecks colocationCheck fileNamingCheck checkedPatterns Glob.checkNesting
  rw [List.find?_append]
  cases (colocationPatterns scanner disk config).find? Glob.isTooDeep with
  | some text => rfl
  | none =>
    cases (fileNamingPatterns config).find? Glob.isTooDeep <;> rfl

theorem validateProject_of_ok {scanner : Scanner} {disk : Disk} {config : Config}
    {entries : List Entry} (h : scanner.scan disk = .ok entries) :
    validateProject scanner disk config =
      match Glob.checkNesting (checkedPatterns scanner disk config) with
      | .error cause => .error (.aborted cause)
      | .ok _ => .ok (resultOf scanner disk entries config) := by
  rw [validateProject, h]
  dsimp only
  rw [runChecks_eq]
  cases Glob.checkNesting (checkedPatterns scanner disk config) <;> rfl

/-! ## Validators -/

/-- Where a validator is in its run. -/
inductive Validator.State where
  /-- There was no run, or the last one failed. -/
  | idle
  /-- The project is being scanned. -/
  | scanning
  /-- The checks are being run on what was scanned. -/
  | evaluating
  /-- The last run has returned its result. -/
  | aggregated
  deriving DecidableEq, Repr

/-- A configuration and the scanner made from it. -/
structure Validator where
  config : Config
  scanner : Scanner
  state : Validator.State

namespace Validator

/-- The validator of the project at `root`. -/
def ofConfig (config : Config) (root : String) : Validator :=
  ⟨config, .ofPatterns root config.ignore, .idle⟩

/-- A run: its result, and the validator after it. -/
def run (v : Validator) (disk : Disk) : Except RunError ValidationResult × Validator :=
  let v := { v with state := .scanning }
  match v.scanner.scan disk with
  | .error e => (.error (.notScanned e), { v with state := .idle })
  | .ok entries =>
    let v := { v with state := .evaluating }
    match runChecks v.scanner disk entries v.config with
    | .error cause => (.error (.aborted cause), v)
    | .ok findings => (.ok (.ofScan findings entries), { v with state := .aggregated })

/-- The state in which a run leaves a validator. -/
def State.after : Except RunError ValidationResult → State
  | .error (.notScanned _) => .idle
  | .error (.aborted _) => .evaluating
  | .ok _ => .aggregated

theorem run_eq (v : Validator) (disk : Disk) :
    v.run disk = (validateProject v.scanner disk v.config,
      { v with state := .after (validateProject v.scanner disk v.config) }) := by
  unfold run validateProject
  dsimp only
  cases v.scanner.scan disk with
  | error e => rfl
  | ok entries =>
    dsimp only
    cases runChecks v.scanner disk entries v.config <;> rfl

theorem run_fst (v : Validator) (disk : Disk) :
    (v.run disk).1 = validateProject v.scanner disk v.config := by
  rw [run_eq]

theorem run_snd (v : Validator) (disk : Disk) :
    (v.run disk).2 = { v with state := .after (v.run disk).1 } := by
  rw [run_eq]

end Validator

end ProjectLayout
