import ProjectLayout.Validator
import ProjectLayout.Proofs.Check.Findings
import ProjectLayout.Proofs.Disk.Descent

/-!
# What a run reports

A run (`ProjectValidator::validate`) fails if its root is no directory, or one that cannot be
listed.  Otherwise each section of the configuration adds its own findings, and the result has each
of them once, among the errors or among the warnings.

* `Config.onlyColocation`, `Config.onlyFileNaming`, `Config.onlyFolders` — one section alone.
* `Sorts` — that a result has some findings by severity; `sorts_ofFindings`.
* `mild_of_allFindings` — a forbidden file never fails a run.
* `run_reports` — what a run returns, on every disk and for every configuration.
-/

namespace ProjectLayout

open Disk
open Scan (Scanner ScanError Entry)

/-! ## One section alone -/

/-- A configuration with nothing but its co-location section. -/
def Config.onlyColocation (config : Config) : Config where
  preset := none
  rules := { Rules.empty with colocation := config.rules.colocation }
  ignore := config.ignore
  severity := config.severity

/-- A configuration with nothing but its file naming section. -/
def Config.onlyFileNaming (config : Config) : Config where
  preset := none
  rules := { Rules.empty with fileNaming := config.rules.fileNaming }
  ignore := config.ignore
  severity := config.severity

/-- A configuration with nothing but its folder section. -/
def Config.onlyFolders (config : Config) : Config where
  preset := none
  rules := { Rules.empty with folders := config.rules.folders }
  ignore := config.ignore
  severity := config.severity

variable {scanner : Scanner} {disk : Disk} {entries : List Entry} {config : Config}

theorem colocationFindings_eq_nil (h : config.rules.colocation = none) :
    colocationFindings scanner disk config = [] := by
  rw [colocationFindings, h]

theorem fileNamingFindings_eq_nil (h : config.rules.fileNaming = none) :
    fileNamingFindings entries config = [] := by
  rw [fileNamingFindings, h]

theorem folderStructureFindings_eq_nil (h : config.rules.folders = none) :
    folderStructureFindings scanner disk entries config = [] := by
  rw [folderStructureFindings, h]
  rfl

/-- The co-location section alone gives the findings that it adds to those of the others. -/
theorem allFindings_onlyColocation :
    allFindings scanner disk entries config.onlyColocation =
      colocationFindings scanner disk config := by
  rw [allFindings, fileNamingFindings_eq_nil rfl, folderStructureFindings_eq_nil rfl,
    List.append_nil, List.append_nil]
  rfl

theorem allFindings_onlyFileNaming :
    allFindings scanner disk entries config.onlyFileNaming = fileNamingFindings entries config := by
  rw [allFindings, colocationFindings_eq_nil rfl, folderStructureFindings_eq_nil rfl,
    List.append_nil, List.nil_append]
  rfl

theorem allFindings_onlyFolders :
    allFindings scanner disk entries config.onlyFolders =
      folderStructureFindings scanner disk entries config := by
  rw [allFindings, colocationFindings_eq_nil rfl, fileNamingFindings_eq_nil rfl,
    List.nil_append, List.nil_append]
  rfl

/-! ## Forbidden files -/

/-- Whether a finding is no error if it is about a forbidden file. -/
def Finding.Mild (f : Finding) : Prop := f.kind = .forbiddenFile → f.severity = .warning

theorem Finding.mild_of_kind {f : Finding} (h : f.kind ≠ .forbiddenFile) : f.Mild :=
  fun hkind => absurd hkind h

theorem mild_of_colocationFindings {f : Finding} (h : f ∈ colocationFindings scanner disk config) :
    f.Mild := by
  obtain ⟨rules, -, -, dir, -, hf⟩ := mem_colocationFindings.mp h
  apply Finding.mild_of_kind
  rcases (mem_componentFindings.mp hf).2 with ⟨required, -, -, hf⟩ | ⟨convention, -, hf⟩
  · rw [(missingFile?_eq_some_iff.mp hf).2]
    exact nofun
  · rw [directoryNaming?_eq_some hf]
    exact nofun

theorem mild_of_fileNamingFindings {f : Finding} (h : f ∈ fileNamingFindings entries config) :
    f.Mild := by
  obtain ⟨rules, -, file, -, -, rule, -, pattern, -, hf⟩ := mem_fileNamingFindings.mp h
  apply Finding.mild_of_kind
  rw [(fileNaming?_eq_some_iff.mp hf).2.2]
  exact nofun

theorem mild_of_folderStructureFindings {f : Finding}
    (h : f ∈ folderStructureFindings scanner disk entries config) : f.Mild := by
  obtain ⟨rules, -, rule, -, hf⟩ := mem_folderStructureFindings.mp h
  rcases mem_folderFindings.mp hf with ⟨-, hf⟩ | ⟨-, file, -, -, -, hf⟩
  · apply Finding.mild_of_kind
    rw [hf]
    exact nofun
  rcases hf with ⟨allowed, -, hf⟩ | ⟨convention, -, hf⟩
  · rw [(forbiddenFile?_eq_some_iff.mp hf).2]
    exact fun _ => rfl
  · apply Finding.mild_of_kind
    rw [(folderNaming?_eq_some_iff.mp hf).2]
    exact nofun

/-- No check makes an error of a forbidden file. -/
theorem mild_of_allFindings {f : Finding} (h : f ∈ allFindings scanner disk entries config) :
    f.Mild := by
  rcases List.mem_append.mp h with h | h
  · rcases List.mem_append.mp h with h | h
    · exact mild_of_colocationFindings h
    · exact mild_of_fileNamingFindings h
  · exact mild_of_folderStructureFindings h

/-! ## Sorting by severity -/

/-- That a result has each of some findings once, by severity and in the order found. -/
structure Sorts (findings : List Finding) (result : ValidationResult) : Prop where
  errors : result.errors = findings.filter (·.severity == .error)
  warnings : result.warnings = findings.filter (·.severity == .warning)
  perm : (result.errors ++ result.warnings).Perm findings
  apart : ∀ f ∈ findings, (f ∈ result.errors ↔ f ∉ result.warnings)
  valid : result.valid = true ↔ result.errors = []

theorem sorts_ofFindings (findings : List Finding) (files directories : Nat) :
    Sorts findings (.ofFindings findings files directories) where
  errors := ValidationResult.errors_ofFindings findings files directories
  warnings := ValidationResult.warnings_ofFindings findings files directories
  perm := ValidationResult.perm_ofFindings findings files directories
  apart f hf := by
    rw [ValidationResult.errors_ofFindings, ValidationResult.warnings_ofFindings]
    cases hs : f.severity <;> simp [hf, hs]
  valid := by
    rw [ValidationResult.valid_ofFindings]
    exact List.isEmpty_iff

/-! ## A run -/

/-- A scan fails for one of two reasons. -/
theorem scan_eq_error_iff {e : ScanError} :
    scanner.scan disk = .error e ↔
      (disk.isDirectory scanner.root = false ∧ e = .rootNotFound scanner.root) ∨
        ∃ cause, disk.isDirectory scanner.root = true ∧ disk.list scanner.root = .error cause ∧
          e = .rootUnreadable scanner.root cause := by
  unfold Scanner.scan Scanner.checkRoot isDirectory
  cases hstat : disk.stat? scanner.root with
  | none => simp [Except.map, eq_comm]
  | some node =>
    cases node with
    | file contents => simp [Except.map, Node.isDir, eq_comm]
    | link target => simp [Except.map, Node.isDir, eq_comm]
    | dir sub rights =>
      cases hlist : disk.list scanner.root with
      | error cause => simp [Except.map, Node.isDir, eq_comm]
      | ok listed => simp [Except.map, Node.isDir]

theorem isDirectory_of_scan_ok (h : scanner.scan disk = .ok entries) :
    disk.isDirectory scanner.root = true := by
  refine eq_true_of_ne_false fun hno => ?_
  rw [scan_eq_error_iff.mpr (.inl ⟨hno, rfl⟩)] at h
  cases h

theorem exists_scan_eq_ok (hdir : disk.isDirectory scanner.root = true)
    {listed : List (Name × Node)} (hlist : disk.list scanner.root = .ok listed) :
    ∃ entries, scanner.scan disk = .ok entries := by
  cases hscan : scanner.scan disk with
  | ok entries => exact ⟨entries, rfl⟩
  | error e =>
    rcases scan_eq_error_iff.mp hscan with ⟨hno, -⟩ | ⟨cause, -, hcause, -⟩
    · rw [hdir] at hno
      cases hno
    · rw [hlist] at hcause
      cases hcause

/-- A run fails to scan when its scanner does. -/
theorem validateProject_eq_notScanned_iff {e : ScanError} :
    validateProject scanner disk config = .error (.notScanned e) ↔
      scanner.scan disk = .error e := by
  cases hscan : scanner.scan disk with
  | error problem => simp [validateProject, hscan]
  | ok entries =>
    rw [validateProject_of_ok hscan]
    split <;> simp

/-- Entries are files or directories. -/
theorem length_filter_isDirectory (entries : List Entry) :
    (entries.filter (!·.isDirectory)).length + (entries.filter (·.isDirectory)).length =
      entries.length := by
  induction entries with
  | nil => rfl
  | cons e rest ih =>
    cases he : e.isDirectory <;> simp only [List.filter_cons, he, Bool.not_false, Bool.not_true,
      Bool.false_eq_true, if_true, if_false, List.length_cons] <;> omega

/-- What the result of a run says of a project with these entries: it has what each section of the
configuration finds by itself, no forbidden file is an error, and every entry is counted. -/
structure Reports (disk : Disk) (root : String) (config : Config) (entries : List Entry)
    (result : ValidationResult) : Prop where
  scanned : (Scanner.ofPatterns root config.ignore).scan disk = .ok entries
  sorts : Sorts
    (colocationFindings (.ofPatterns root config.onlyColocation.ignore) disk
        config.onlyColocation ++
      fileNamingFindings entries config.onlyFileNaming ++
      folderStructureFindings (.ofPatterns root config.onlyFolders.ignore) disk entries
        config.onlyFolders) result
  colocation :
    allFindings (.ofPatterns root config.onlyColocation.ignore) disk entries config.onlyColocation =
      colocationFindings (.ofPatterns root config.onlyColocation.ignore) disk config.onlyColocation
  naming :
    allFindings (.ofPatterns root config.onlyFileNaming.ignore) disk entries config.onlyFileNaming =
      fileNamingFindings entries config.onlyFileNaming
  folders :
    allFindings (.ofPatterns root config.onlyFolders.ignore) disk entries config.onlyFolders =
      folderStructureFindings (.ofPatterns root config.onlyFolders.ignore) disk entries
        config.onlyFolders
  forbidden : ∀ f ∈ result.errors, f.kind ≠ .forbiddenFile
  files : result.filesScanned = (entries.filter (!·.isDirectory)).length
  directories : result.directoriesScanned = (entries.filter (·.isDirectory)).length
  counted : result.filesScanned + result.directoriesScanned = entries.length

theorem reports_of_scan {root : String}
    (h : (Scanner.ofPatterns root config.ignore).scan disk = .ok entries) :
    Reports disk root config entries
      (resultOf (.ofPatterns root config.ignore) disk entries config) where
  scanned := h
  sorts := sorts_ofFindings _ _ _
  colocation := allFindings_onlyColocation
  naming := allFindings_onlyFileNaming
  folders := allFindings_onlyFolders
  forbidden f hf hkind := by
    rw [resultOf, ValidationResult.ofScan, ValidationResult.errors_ofFindings,
      List.mem_filter] at hf
    have hwarning := mild_of_allFindings hf.1 hkind
    simp [hwarning] at hf
  files := rfl
  directories := by
    rw [directoriesScanned_resultOf, ← length_filter_isDirectory entries]
    exact Nat.add_sub_cancel_left _ _
  counted := Nat.add_sub_of_le (List.length_filter_le _ _)

/-- A run fails to scan exactly if its root is no directory or cannot be listed.  If it can, and no
pattern nests too deep, the run has a result; and a result has every finding of every section
once. -/
theorem run_reports (disk : Disk) (root : String) (config : Config) (state : Validator.State) :
    (∀ e, (Validator.run { Validator.ofConfig config root with state } disk).1 =
        .error (.notScanned e) ↔
      (disk.isDirectory root = false ∧ e = .rootNotFound root) ∨
        ∃ cause, disk.isDirectory root = true ∧ disk.list root = .error cause ∧
          e = .rootUnreadable root cause) ∧
    (disk.isDirectory root = true → ∀ listed, disk.list root = .ok listed →
      (∀ text ∈ checkedPatterns (.ofPatterns root config.ignore) disk config,
        Glob.isTooDeep text = false) →
      ∃ result, (Validator.run { Validator.ofConfig config root with state } disk).1 =
        .ok result) ∧
    ∀ result, (Validator.run { Validator.ofConfig config root with state } disk).1 = .ok result →
      disk.isDirectory root = true ∧ ∃ entries, Reports disk root config entries result := by
  have hrun : (Validator.run { Validator.ofConfig config root with state } disk).1 =
      validateProject (.ofPatterns root config.ignore) disk config := Validator.run_fst _ disk
  have hroot : (Scanner.ofPatterns root config.ignore).root = root := rfl
  rw [hrun]
  refine ⟨fun e => ?_, fun hdir listed hlist hshallow => ?_, fun result hresult => ?_⟩
  · rw [validateProject_eq_notScanned_iff, scan_eq_error_iff, hroot]
  · obtain ⟨entries, hscan⟩ : ∃ entries,
        (Scanner.ofPatterns root config.ignore).scan disk = .ok entries :=
      exists_scan_eq_ok hdir hlist
    rw [validateProject_of_ok hscan, Glob.checkNesting_eq_ok_iff.mpr hshallow]
    exact ⟨_, rfl⟩
  · cases hscan : (Scanner.ofPatterns root config.ignore).scan disk with
    | error problem =>
      rw [validateProject_eq_notScanned_iff.mpr hscan] at hresult
      cases hresult
    | ok entries =>
      have hdir : disk.isDirectory root = true := hroot ▸ isDirectory_of_scan_ok hscan
      rw [validateProject_of_ok hscan] at hresult
      split at hresult
      · cases hresult
      · obtain rfl := Except.ok.inj hresult
        exact ⟨hdir, entries, reports_of_scan hscan⟩

/-- A path of more than 4095 bytes is no root, wherever it leads. -/
theorem run_of_long_root {root : String} (h : fitsLimit root = false) :
    ((Validator.ofConfig config root).run disk).1 = .error (.notScanned (.rootNotFound root)) := by
  have hno : disk.isDirectory root = false := by
    cases hstat : disk.stat? root with
    | none => rw [isDirectory, hstat, Option.any_none]
    | some node =>
      rw [(askable_of_stat? hstat).2] at h
      cases h
  rw [Validator.run_fst]
  exact validateProject_eq_notScanned_iff.mpr (scan_eq_error_iff.mpr (.inl ⟨hno, rfl⟩))

/-- A disk with one file, and what may be done with its root. -/
def guardedDisk (rights : Rights) : Disk := .ofTree (.dir [("a.ts", .emptyFile)] rights)

/-- A run fails though its root is a directory: where that may not be listed, and where the path
that leads to it has more than 4095 bytes. -/
theorem run_fails_in_directory :
    ((guardedDisk { list := false }).isDirectory "/" = true ∧
      ((Validator.ofConfig Config.empty "/").run (guardedDisk { list := false })).1 =
        .error (.notScanned (.rootUnreadable "/" .permissionDenied))) ∧
    follow (guardedDisk {}).root .access maxLinks [] (pathSegments (idlePath 2048)) =
        .ok (.existing []) ∧
      (guardedDisk {}).root.isDir = true ∧
      ((Validator.ofConfig Config.empty (idlePath 2048)).run (guardedDisk {})).1 =
        .error (.notScanned (.rootNotFound (idlePath 2048))) := by
  have hlong : fitsLimit (idlePath 2048) = false := by
    rw [fitsLimit, utf8ByteSize_idlePath]
    decide
  refine ⟨⟨by decide, by with_unfolding_all rfl⟩, ?_, rfl, ?_⟩
  · rw [pathSegments_idlePath]
    exact walk_idle rfl rfl rfl fun segment h => isIdle_of_mem_idlePath h
  · exact run_of_long_root hlong

end ProjectLayout
