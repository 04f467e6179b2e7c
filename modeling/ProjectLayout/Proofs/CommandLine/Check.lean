import ProjectLayout.CommandLine.Program
import ProjectLayout.Proofs.Config.Discovery
import ProjectLayout.Proofs.Config.Problem
import ProjectLayout.Proofs.Report.Document
import ProjectLayout.Proofs.Run

/-!
# How a check ends

A check (`run_check`) that could not be set up ends with 1 and prints nothing, and so does one whose
root cannot be listed.  Otherwise its run cannot fail, and it ends with 3 if there is an error among
the findings and with 0 if not, in whatever form the result is printed; unless one of its patterns
nests too deep, which aborts it with 101.

* `Setup.Sound` — what a setup promises; `sound_of_ofOptions`.
* `Ends`, `exists_ends` — how a check ends whose run returns a result.
* `Follows`, `follows_of_ofOptions` — how a check goes on that is set up.
* `runCheck_ends` — how every check ends.
* `deep_pattern_aborts_check` — a check that is set up and yet ends otherwise than with 0 or 3.
-/

namespace ProjectLayout.CommandLine

open Json (Value maxSignificand)

variable {disk : Disk} {options : CheckOptions} {setup : Setup}

/-! ## Setups -/

/-- A root that is there, and a configuration without problems. -/
structure Setup.Sound (disk : Disk) (options : CheckOptions) (setup : Setup) : Prop where
  root : disk.canonicalize options.root = .ok setup.root
  directory : disk.isDirectory setup.root = true
  problems : setup.config.problems = []
  json : setup.json = options.json

theorem sound_of_ofOptions (h : Setup.ofOptions disk options = .ok setup) :
    setup.Sound disk options := by
  unfold Setup.ofOptions at h
  split at h
  · cases h
  next root hroot =>
  split at h
  · cases h
  next hdirectory =>
  split at h
  · cases h
  next loaded hloaded =>
  split at h
  · next hproblems =>
    obtain rfl := Except.ok.inj h
    exact ⟨hroot, by simpa using hdirectory, List.isEmpty_iff.mp hproblems, rfl⟩
  · cases h

/-- The form of the output decides nothing else. -/
theorem ofOptions_json (disk : Disk) (options : CheckOptions) (json : Bool) :
    Setup.ofOptions disk { options with json } =
      (Setup.ofOptions disk options).map ({ · with json }) := by
  unfold Setup.ofOptions
  dsimp only
  cases disk.canonicalize options.root with
  | error cause => rfl
  | ok root =>
    dsimp only
    split
    · rfl
    split
    · rfl
    split
    · rfl
    · rfl

/-! ## Runs -/

/-- The scanner of a check. -/
def Setup.scanner (setup : Setup) : Scan.Scanner := .ofPatterns setup.root setup.config.ignore

/-- The validator of a check, in whatever state earlier runs have left it. -/
def Setup.validator (setup : Setup) (state : Validator.State) : Validator :=
  { Validator.ofConfig setup.config setup.root with state }

theorem run_validator (setup : Setup) (state : Validator.State) (disk : Disk) :
    ((setup.validator state).run disk).1 = validateProject setup.scanner disk setup.config :=
  Validator.run_fst _ disk

/-- The patterns that a check compiles. -/
def Setup.patterns (disk : Disk) (setup : Setup) : List String :=
  checkedPatterns setup.scanner disk setup.config

/-- The root of a sound setup is a directory, so the scan can fail only where that cannot be
listed. -/
theorem run_of_unlistable (h : setup.Sound disk options) {cause : Disk.IoError}
    (hlist : disk.list setup.root = .error cause) (state : Validator.State) :
    ((setup.validator state).run disk).1 =
      .error (.notScanned (.rootUnreadable setup.root cause)) := by
  rw [run_validator]
  exact validateProject_eq_notScanned_iff.mpr
    (scan_eq_error_iff.mpr (.inr ⟨cause, h.directory, hlist, rfl⟩))

theorem run_of_listable (h : setup.Sound disk options) {listed : List (Disk.Name × Disk.Node)}
    (hlist : disk.list setup.root = .ok listed) :
    ∃ result : ValidationResult, (result.valid = true ↔ result.errors = []) ∧
      ∀ state, ((setup.validator state).run disk).1 =
        match Glob.checkNesting (setup.patterns disk) with
        | .error cause => .error (.aborted cause)
        | .ok _ => .ok result := by
  obtain ⟨entries, hscan⟩ : ∃ entries, setup.scanner.scan disk = .ok entries :=
    exists_scan_eq_ok h.directory hlist
  refine ⟨_, (reports_of_scan hscan).sorts.valid, fun state => ?_⟩
  rw [run_validator, validateProject_of_ok hscan]
  rfl

theorem runCheck_of_error {e : SetupError} (h : Setup.ofOptions disk options = .error e) :
    (runCheck disk options).exitCode = 1 ∧ (runCheck disk options).stdout = "" ∧
      (runCheck disk options).disk = disk := by
  rw [runCheck, h]
  cases e <;> exact ⟨rfl, rfl, rfl⟩

/-- What a check makes of its run. -/
theorem runCheck_of_ofOptions (h : Setup.ofOptions disk options = .ok setup) :
    runCheck disk options =
      match ((setup.validator .idle).run disk).1 with
      | .error (.notScanned e) => refused disk (Report.errorText false e.message)
      | .error (.aborted _) => aborted disk
      | .ok result => printed disk (exitCodeOf result)
        (if setup.json then Report.documentText result else Report.reportText false result) := by
  rw [runCheck, h]
  rfl

theorem toNat_exitCodeOf {result : ValidationResult}
    (h : result.valid = true ↔ result.errors = []) :
    (exitCodeOf result).toNat = if result.errors = [] then 0 else 3 := by
  by_cases herrors : result.errors = []
  · rw [exitCodeOf, h.mpr herrors, if_pos herrors]
    rfl
  · rw [exitCodeOf, Bool.eq_false_iff.mpr fun hvalid => herrors (h.mp hvalid), if_neg herrors]
    rfl

/-! ## Ends -/

/-- How a check ends whose run returns a result: its errors decide. -/
structure Ends (disk : Disk) (options : CheckOptions) (setup : Setup) (result : ValidationResult) :
    Prop where
  runs : ∀ state, ((setup.validator state).run disk).1 = .ok result
  exitCode : (runCheck disk options).exitCode = if result.errors = [] then 0 else 3
  document : ∃ document : Value,
    (runCheck disk { options with json := true }).stdout = document.pretty ++ "\n" ∧
    document.get? "valid" = some (.bool (decide ((runCheck disk options).exitCode = 0))) ∧
    (result.filesScanned ≤ maxSignificand → result.directoriesScanned ≤ maxSignificand →
      Value.parse (runCheck disk { options with json := true }).stdout = .ok document)

theorem ends_of_run {result : ValidationResult} (h : Setup.ofOptions disk options = .ok setup)
    (hvalid : result.valid = true ↔ result.errors = [])
    (hrun : ∀ state, ((setup.validator state).run disk).1 = .ok result) :
    Ends disk options setup result := by
  have hcode : (runCheck disk options).exitCode = if result.errors = [] then 0 else 3 := by
    rw [runCheck_of_ofOptions h, hrun]
    exact toNat_exitCodeOf hvalid
  have hjson : Setup.ofOptions disk { options with json := true } =
      .ok { setup with json := true } := by
    rw [ofOptions_json, h]
    rfl
  have hstdout : (runCheck disk { options with json := true }).stdout =
      Report.documentText result := by
    have hrunJson : (({ setup with json := true }.validator .idle).run disk).1 = .ok result :=
      hrun .idle
    rw [runCheck_of_ofOptions hjson, hrunJson]
    rfl
  have hzero : result.valid = decide ((runCheck disk options).exitCode = 0) := by
    rw [hcode, Bool.eq_iff_iff, hvalid, decide_eq_true_iff]
    by_cases herrors : result.errors = []
    · simp [herrors]
    · simp [herrors]
  refine ⟨hrun, hcode, Report.resultValue result, hstdout, ?_, ?_⟩
  · rw [← hzero]
    rfl
  · intro hfiles hdirectories
    rw [hstdout]
    exact Report.parse_documentText hfiles hdirectories

/-- How a check goes on that is set up: without a result where the root cannot be listed or a
pattern nests too deep, and with one otherwise. -/
structure Follows (disk : Disk) (options : CheckOptions) (setup : Setup) : Prop where
  sound : setup.Sound disk options
  unlistable (cause : Disk.IoError) : disk.list setup.root = .error cause →
    (∀ state, ((setup.validator state).run disk).1 =
      .error (.notScanned (.rootUnreadable setup.root cause))) ∧
    (runCheck disk options).exitCode = 1 ∧ (runCheck disk options).stdout = ""
  aborted (listed : List (Disk.Name × Disk.Node)) : disk.list setup.root = .ok listed →
    (∃ text ∈ setup.patterns disk, Glob.isTooDeep text = true) →
    (∀ state, ∃ cause, ((setup.validator state).run disk).1 = .error (.aborted cause)) ∧
    (runCheck disk options).exitCode = 101 ∧ (runCheck disk options).stdout = ""
  ends (listed : List (Disk.Name × Disk.Node)) : disk.list setup.root = .ok listed →
    (∀ text ∈ setup.patterns disk, Glob.isTooDeep text = false) →
    ∃ result, Ends disk options setup result

theorem follows_of_ofOptions (h : Setup.ofOptions disk options = .ok setup) :
    Follows disk options setup := by
  have hsound := sound_of_ofOptions h
  refine ⟨hsound, fun cause hlist => ?_, fun listed hlist hdeep => ?_,
    fun listed hlist hshallow => ?_⟩
  · have hrun := run_of_unlistable hsound hlist
    rw [runCheck_of_ofOptions h, hrun]
    exact ⟨hrun, rfl, rfl⟩
  · obtain ⟨result, -, hrun⟩ := run_of_listable hsound hlist
    cases hcheck : Glob.checkNesting (setup.patterns disk) with
    | ok _ =>
      obtain ⟨text, hmem, htext⟩ := hdeep
      rw [Glob.checkNesting_eq_ok_iff.mp hcheck text hmem] at htext
      cases htext
    | error cause =>
      rw [hcheck] at hrun
      rw [runCheck_of_ofOptions h, hrun]
      exact ⟨fun state => ⟨cause, hrun state⟩, rfl, rfl⟩
  · obtain ⟨result, hvalid, hrun⟩ := run_of_listable hsound hlist
    rw [Glob.checkNesting_eq_ok_iff.mpr hshallow] at hrun
    exact ⟨result, ends_of_run h hvalid hrun⟩

/-- The form of the output does not change how a check ends. -/
theorem exitCode_runCheck_json (disk : Disk) (options : CheckOptions) (json : Bool) :
    (runCheck disk { options with json }).exitCode = (runCheck disk options).exitCode := by
  have hjson := ofOptions_json disk options json
  cases h : Setup.ofOptions disk options with
  | error e =>
    rw [h] at hjson
    rw [(runCheck_of_error hjson).1, (runCheck_of_error h).1]
  | ok setup =>
    have hrun : ({ setup with json }.validator .idle).run disk =
        (setup.validator .idle).run disk := rfl
    rw [h] at hjson
    rw [runCheck_of_ofOptions hjson, runCheck_of_ofOptions h, hrun]
    match ((setup.validator .idle).run disk).1 with
    | .error (.notScanned e) => rfl
    | .error (.aborted cause) => rfl
    | .ok result => rfl

theorem disk_runCheck (disk : Disk) (options : CheckOptions) :
    (runCheck disk options).disk = disk := by
  cases h : Setup.ofOptions disk options with
  | error e => exact (runCheck_of_error h).2.2
  | ok setup =>
    rw [runCheck_of_ofOptions h]
    match ((setup.validator .idle).run disk).1 with
    | .error (.notScanned e) => rfl
    | .error (.aborted cause) => rfl
    | .ok result => rfl

/-- A check that is set up ends with 1 only if its root cannot be listed. -/
theorem exists_unlistable_of_exitCode (h : Setup.ofOptions disk options = .ok setup)
    (hone : (runCheck disk options).exitCode = 1) :
    ∃ cause, disk.list setup.root = .error cause := by
  have hfollows := follows_of_ofOptions h
  cases hlist : disk.list setup.root with
  | error cause => exact ⟨cause, rfl⟩
  | ok listed =>
    by_cases hdeep : ∃ text ∈ setup.patterns disk, Glob.isTooDeep text = true
    · rw [(hfollows.aborted listed hlist hdeep).2.1] at hone
      cases hone
    · obtain ⟨result, hends⟩ := hfollows.ends listed hlist fun text htext =>
        Bool.eq_false_iff.mpr fun htrue => hdeep ⟨text, htext, htrue⟩
      -- A result makes it 0 or 3.
      have hcode := hends.exitCode
      rw [hone] at hcode
      split at hcode <;> cases hcode

/-- A check ends with 1 and an empty output exactly if it cannot be set up or its root cannot be
listed.  Otherwise it is run without a fault on a configuration without problems, and ends with 3 or
0 as its result has errors or not, and the document says the same; with a pattern that nests too
deep it is aborted. -/
theorem runCheck_ends (disk : Disk) (options : CheckOptions) :
    (((runCheck disk options).exitCode = 1 ∧ (runCheck disk options).stdout = "") ↔
      (∃ e, Setup.ofOptions disk options = .error e) ∨
        ∃ setup cause, Setup.ofOptions disk options = .ok setup ∧
          disk.list setup.root = .error cause) ∧
    (∀ setup, Setup.ofOptions disk options = .ok setup → Follows disk options setup) ∧
    (∀ json, (runCheck disk { options with json }).exitCode = (runCheck disk options).exitCode) ∧
    (runCheck disk options).disk = disk := by
  refine ⟨?_, fun setup h => follows_of_ofOptions h, exitCode_runCheck_json disk options,
    disk_runCheck disk options⟩
  cases h : Setup.ofOptions disk options with
  | error e =>
    have hrefused := runCheck_of_error h
    exact ⟨fun _ => .inl ⟨e, rfl⟩, fun _ => ⟨hrefused.1, hrefused.2.1⟩⟩
  | ok setup =>
    constructor
    · rintro ⟨hone, -⟩
      obtain ⟨cause, hlist⟩ := exists_unlistable_of_exitCode h hone
      exact .inr ⟨setup, cause, rfl, hlist⟩
    · rintro (⟨e, he⟩ | ⟨other, cause, hother, hlist⟩)
      · cases he
      · obtain rfl := Except.ok.inj hother
        exact ((follows_of_ofOptions h).unlistable cause hlist).2

/-! ## A check that is aborted -/

/-- A configuration with one rule for file names, as a value. -/
def namingValue (pattern : String) : Value :=
  .object [("rules", .object [("fileNaming",
    .object [(pattern, .object [("convention", .string "camelCase")])])])]

/-- A project with nothing but a file with such a configuration. -/
def namingDisk (pattern : String) : Disk :=
  .ofTree (.dir [("naming.json", .ofText ((namingValue pattern).pretty ++ "\n"))])

/-- A check of that project. -/
def namingOptions : CheckOptions where
  config := some "/naming.json"
  root := "/"
  json := false

/-- What such a check is set up with. -/
def namingSetup (pattern : String) : Setup where
  root := "/"
  config := Config.empty.withNamingRules [⟨pattern, .camel, none⟩]
  source := .file "/naming.json"
  json := false

theorem readable_namingValue (pattern : String) :
    Json.Readable Json.maxDepth (namingValue pattern) := by
  refine .object (List.nodup_singleton _) fun member hmember => ?_
  obtain rfl := List.mem_singleton.mp hmember
  refine .object (List.nodup_singleton _) fun member hmember => ?_
  obtain rfl := List.mem_singleton.mp hmember
  refine .object (List.nodup_singleton _) fun member hmember => ?_
  obtain rfl := List.mem_singleton.mp hmember
  refine .object (List.nodup_singleton _) fun member hmember => ?_
  obtain rfl := List.mem_singleton.mp hmember
  exact .string _

theorem ofValue_namingValue (pattern : String) :
    Config.ofValue (namingValue pattern) = .ok (namingSetup pattern).config := by
  with_unfolding_all rfl

theorem stat?_namingDisk (pattern : String) : (namingDisk pattern).stat? "/naming.json" =
    some (.ofText ((namingValue pattern).pretty ++ "\n")) := by
  with_unfolding_all rfl

theorem list_namingDisk (pattern : String) :
    (namingDisk pattern).list "/" = .ok (namingDisk pattern).root.entries := by
  with_unfolding_all rfl

theorem load_namingDisk (pattern : String) :
    LoadedConfig.load (namingDisk pattern) (some "/naming.json") "/" =
      .ok ⟨(namingSetup pattern).config, .file "/naming.json"⟩ := by
  have hread : readConfigValue (namingDisk pattern) "/naming.json" = .ok (namingValue pattern) :=
    readConfigValue_of_pretty (stat?_namingDisk pattern) (readable_namingValue pattern) (by decide)
  have hload : LoadedConfig.load (namingDisk pattern) (some "/naming.json") "/" =
      LoadedConfig.ofFile (namingDisk pattern) "/naming.json" := rfl
  rw [hload, ofFile_eq_bind, hread, Except.bind, ofValue_namingValue]
  rfl

/-- Any pattern that compiles will do. -/
theorem ofOptions_namingDisk {pattern : String} (h : Glob.Pattern.fault? pattern = none) :
    Setup.ofOptions (namingDisk pattern) namingOptions = .ok (namingSetup pattern) := by
  have hroot : (namingDisk pattern).canonicalize namingOptions.root = .ok "/" := by
    with_unfolding_all rfl
  have hdir : (namingDisk pattern).isDirectory "/" = true := by with_unfolding_all rfl
  have hproblems : (namingSetup pattern).config.problems = [] := by
    show [] ++ [_].filterMap _ ++ [] = []
    simp [globProblem?, h]
  unfold Setup.ofOptions
  rw [hroot]
  dsimp only [namingOptions]
  rw [hdir, load_namingDisk]
  dsimp only
  rw [hproblems]
  rfl

theorem fault?_of_isTooDeep {pattern : String} (h : Glob.isTooDeep pattern = true) :
    Glob.Pattern.fault? pattern = none := by
  obtain ⟨compiled, hcompiled, -⟩ := (Option.any_eq_true _ _).mp h
  have hnone : (Glob.Pattern.fault? pattern).isSome = false := by
    rw [← isNone_compile?_eq, hcompiled, Option.isNone_some]
  simpa using hnone

theorem aborts_of_isTooDeep {pattern : String} (h : Glob.isTooDeep pattern = true) :
    (∃ setup, Setup.ofOptions (namingDisk pattern) namingOptions = .ok setup ∧
        setup.config.problems = []) ∧
      (runCheck (namingDisk pattern) namingOptions).exitCode = 101 ∧
      (runCheck (namingDisk pattern) namingOptions).stdout = "" := by
  have hsetup := ofOptions_namingDisk (fault?_of_isTooDeep h)
  have hfollows := follows_of_ofOptions hsetup
  have hpattern : pattern ∈ (namingSetup pattern).patterns (namingDisk pattern) :=
    List.mem_singleton_self _
  exact ⟨⟨_, hsetup, hfollows.sound.problems⟩,
    (hfollows.aborted _ (list_namingDisk pattern) ⟨pattern, hpattern, h⟩).2⟩

/-- A check is set up without a problem, and then aborted by a pattern that nests too deep. -/
theorem deep_pattern_aborts_check :
    (∃ setup, Setup.ofOptions (namingDisk (Glob.bracedText Glob.maxNesting)) namingOptions =
        .ok setup ∧ setup.config.problems = []) ∧
      (runCheck (namingDisk (Glob.bracedText Glob.maxNesting)) namingOptions).exitCode = 101 ∧
      (runCheck (namingDisk (Glob.bracedText Glob.maxNesting)) namingOptions).stdout = "" :=
  aborts_of_isTooDeep (Glob.isTooDeep_bracedText (Nat.le_refl _))

end ProjectLayout.CommandLine
