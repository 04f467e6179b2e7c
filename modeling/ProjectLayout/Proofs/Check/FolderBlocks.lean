import ProjectLayout.Proofs.Check.Folder

/-!
# Folder findings, block by block

Each folder rule has a block of findings of its own.  A missing folder is the only finding of its
block; in a folder that exists, the forbidden files come first and the badly named ones follow,
both in the order of the entries.

* `FolderRule.examined` — the files that a rule looks at.
* `FolderRule.forbiddenPart`, `FolderRule.namingPart` — the two parts of a block.
* `FolderRule.IsBlock` — the shape of a block; `isBlock_folderFindings`.
* `FolderRule.LooksAt` — the files looked at beside those below the folder; `looksAt_of_path_eq`.
* `folder_findings_in_blocks` — the findings of all rules.
-/

namespace ProjectLayout

open Disk Scan

/-! ## One rule -/

namespace FolderRule

/-- The files that a rule looks at: those whose paths begin with the text of its path. -/
def examined (rule : FolderRule) (entries : List Entry) : List Entry :=
  entries.filter fun e =>
    !e.isDirectory && decide ((normalizeRelative rule.path).toList <+: e.path.toList)

/-- The findings about files whose extensions are not allowed. -/
def forbiddenPart (rule : FolderRule) (entries : List Entry) : List Finding :=
  match rule.allowedExtensions with
  | none => []
  | some allowed =>
    ((rule.examined entries).filter (·.extension ∉ allowed)).map fun file =>
      .forbiddenFile file.path file.extension rule.name allowed

/-- The findings about files whose names break the convention. -/
def namingPart (rule : FolderRule) (severity : Severity) (entries : List Entry) : List Finding :=
  match rule.convention with
  | none => []
  | some convention =>
    ((rule.examined entries).filter fun file => !convention.accepts file.name).map fun file =>
      .fileNaming severity s!"File in {rule.name} doesn't follow {convention.spelling} convention"
        file.path file.name (convention.suggestion file.name)

variable {rule : FolderRule} {entries : List Entry} {severity : Severity} {f : Finding}

theorem mem_examined {file : Entry} :
    file ∈ rule.examined entries ↔ file ∈ entries ∧ file.isDirectory = false ∧
      (normalizeRelative rule.path).toList <+: file.path.toList := by
  simp [examined]

theorem examined_eq_filter_isWithin :
    rule.examined entries =
      entries.filter fun e => !e.isDirectory && isWithin (normalizeRelative rule.path) e := by
  refine List.filter_congr fun e _ => congrArg (!e.isDirectory && ·) ?_
  rw [Bool.eq_iff_iff, decide_eq_true_eq, isWithin_iff]

theorem kind_of_mem_forbiddenPart (h : f ∈ rule.forbiddenPart entries) :
    f.kind = .forbiddenFile ∧ f.severity = .warning := by
  unfold forbiddenPart at h
  split at h
  · simp at h
  · obtain ⟨file, -, rfl⟩ := List.mem_map.mp h
    exact ⟨rfl, rfl⟩

theorem kind_of_mem_namingPart (h : f ∈ rule.namingPart severity entries) :
    f.kind = .namingViolation ∧ f.severity = severity := by
  unfold namingPart at h
  split at h
  · simp at h
  · obtain ⟨file, -, rfl⟩ := List.mem_map.mp h
    exact ⟨rfl, rfl⟩

/-- In a folder that exists the forbidden files come before the badly named ones. -/
theorem folderContentFindings_eq_append (rule : FolderRule) (severity : Severity)
    (entries : List Entry) :
    folderContentFindings rule severity entries =
      rule.forbiddenPart entries ++ rule.namingPart severity entries := by
  have hforbidden (allowed : List String) (files : List Entry) :
      files.filterMap (forbiddenFile? rule allowed) =
        (files.filter (·.extension ∉ allowed)).map fun file =>
          .forbiddenFile file.path file.extension rule.name allowed := by
    rw [← List.filterMap_eq_map, List.filterMap_filter]
    refine List.filterMap_congr fun file _ => ?_
    by_cases hext : file.extension ∈ allowed <;> simp [forbiddenFile?, hext]
  have hnaming (convention : Naming.Convention) (files : List Entry) :
      files.filterMap (folderNaming? severity rule convention) =
        (files.filter fun file => !convention.accepts file.name).map fun file =>
          .fileNaming severity
            s!"File in {rule.name} doesn't follow {convention.spelling} convention" file.path
            file.name (convention.suggestion file.name) := by
    rw [← List.filterMap_eq_map, List.filterMap_filter]
    refine List.filterMap_congr fun file _ => ?_
    cases hname : convention.accepts file.name <;> simp [folderNaming?, hname]
  unfold folderContentFindings
  rw [← examined_eq_filter_isWithin]
  refine congrArg₂ (· ++ ·) ?_ ?_
  · unfold forbiddenPart
    cases rule.allowedExtensions with
    | none => rfl
    | some allowed => exact hforbidden allowed _
  · unfold namingPart
    cases rule.convention with
    | none => rfl
    | some convention => exact hnaming convention _

/-- The shape of the findings of one rule. -/
structure IsBlock (rule : FolderRule) (scanner : Scanner) (disk : Disk) (entries : List Entry)
    (severity : Severity) (block : List Finding) : Prop where
  /-- A missing folder is one finding. -/
  missing : scanner.hasDirectory disk rule.path = false →
    block = [.missingDirectory severity rule.name rule.path]
  /-- In a folder that exists forbidden files come before badly named ones. -/
  existing : scanner.hasDirectory disk rule.path = true →
    block = rule.forbiddenPart entries ++ rule.namingPart severity entries
  forbidden : ∀ f ∈ rule.forbiddenPart entries, f.kind = .forbiddenFile ∧ f.severity = .warning
  naming : ∀ f ∈ rule.namingPart severity entries,
    f.kind = .namingViolation ∧ f.severity = severity

theorem isBlock_folderFindings (rule : FolderRule) (scanner : Scanner) (disk : Disk)
    (entries : List Entry) (severity : Severity) :
    rule.IsBlock scanner disk entries severity
      (folderFindings scanner disk entries severity rule) where
  missing hmissing := by
    rw [folderFindings, hmissing, if_neg Bool.false_ne_true]
  existing hexists := by
    rw [folderFindings, if_pos hexists, folderContentFindings_eq_append]
  forbidden _ := kind_of_mem_forbiddenPart
  naming _ := kind_of_mem_namingPart

end FolderRule

/-! ## The files below a folder -/

/-- Whether the path of an entry goes on behind some names. -/
def Scan.Entry.IsUnder (names : List String) (e : Entry) : Prop :=
  names <+: pathSegments e.path ∧ pathSegments e.path ≠ names

instance (names : List String) (e : Entry) : Decidable (e.IsUnder names) :=
  inferInstanceAs (Decidable (_ ∧ _))

/-- What is under some names begins with their path. -/
theorem Scan.Entry.IsUnder.isPrefix {names : List String} {e : Entry} (h : e.IsUnder names) :
    (pathOf names).toList <+: e.path.toList := by
  obtain ⟨more, hmore⟩ := h.1
  rw [← pathOf_pathSegments e.path, ← hmore]
  exact isPrefix_pathOf_append names more

namespace FolderRule

/-- How the files that a rule looks at are related to what is under some names. -/
structure LooksAt (rule : FolderRule) (names : List String) (scanner : Scanner) (disk : Disk)
    (entries : List Entry) : Prop where
  /-- Each file under the names is looked at. -/
  under : ∀ file ∈ entries, file.isDirectory = false → file.IsUnder names →
    file ∈ rule.examined entries
  /-- No other file is, unless its path begins with the text of the rule's path. -/
  only : (∀ file ∈ entries, file.isDirectory = false → ¬file.IsUnder names →
      ¬rule.path.toList <+: file.path.toList) →
    rule.examined entries = entries.filter fun e => !e.isDirectory && decide (e.IsUnder names)
  /-- In a scan, the files under the names are those that it reports below the folder. -/
  reported : scanner.scan disk = .ok entries →
    ∀ tree, disk.stat? scanner.root = some tree → tree.WellFormed →
      ∀ more found file, scanner.Reports tree (names.map .text ++ more) found file →
        found.isDir = false → file ∈ rule.examined entries

theorem looksAt_of_path_eq {rule : FolderRule} {names : List String}
    (hnames : ∀ name ∈ names, IsPlainName name) (hpath : rule.path = pathOf names)
    (scanner : Scanner) (disk : Disk) (entries : List Entry) :
    rule.LooksAt names scanner disk entries := by
  have hnormal : normalizeRelative rule.path = rule.path := by
    rw [hpath, normalizeRelative_pathOf hnames]
  have hunder : ∀ file ∈ entries, file.isDirectory = false → file.IsUnder names →
      file ∈ rule.examined entries := by
    intro file hmem hfile h
    refine mem_examined.mpr ⟨hmem, hfile, ?_⟩
    rw [hnormal, hpath]
    exact h.isPrefix
  refine ⟨hunder, fun honly => List.filter_congr fun e he => ?_, ?_⟩
  · cases hdir : e.isDirectory with
    | true => rw [Bool.not_true, Bool.false_and, Bool.false_and]
    | false =>
      rw [hnormal, Bool.not_false, Bool.true_and, Bool.true_and]
      refine decide_eq_decide.mpr ⟨fun hbegins => ?_, fun h => hpath ▸ h.isPrefix⟩
      exact Decidable.by_contra fun h => honly e he hdir h hbegins
  · intro hscan tree hroot hw more found file hreport hfile
    obtain rfl := Scanner.below_eq_of_scan hroot hscan
    have hmem := (Scanner.mem_below_root_iff_reports hw).mpr ⟨_, _, hreport⟩
    refine mem_examined.mpr ⟨hmem, ?_, ?_⟩
    · rw [hreport.entry_eq, Entry.isDirectory_ofPath, hfile]
    · by_cases hne : names = []
      · rw [hnormal, hpath, hne]
        exact List.nil_prefix
      · have hsegments : pathSegments (normalizeRelative rule.path) = names := by
          rw [hnormal, hpath, pathSegments_pathOf hne fun name hn => (hnames name hn).1]
        have hdirect : ∀ segment ∈ pathSegments (normalizeRelative rule.path),
            isName segment = true :=
          fun segment hs => (hnames segment (hsegments ▸ hs)).1.1
        have hwithin := isWithin_of_isName hdirect more found.isDir
        rw [hsegments] at hwithin
        rw [hreport.entry_eq]
        exact isWithin_iff.mp hwithin

end FolderRule

/-- The findings about folders are a block for each rule, in the order of the rules; a rule whose
path goes straight down looks at all that is below its folder. -/
theorem folder_findings_in_blocks (scanner : Scanner) (disk : Disk) (entries : List Entry)
    (config : Config) :
    ∃ block : FolderRule → List Finding,
      folderStructureFindings scanner disk entries config =
          (config.rules.folders.getD []).flatMap block ∧
        ∀ rule : FolderRule, rule.IsBlock scanner disk entries config.severity (block rule) ∧
          ∀ names, (∀ name ∈ names, IsPlainName name) → rule.path = pathOf names →
            rule.LooksAt names scanner disk entries :=
  ⟨folderFindings scanner disk entries config.severity, rfl, fun rule =>
    ⟨rule.isBlock_folderFindings scanner disk entries config.severity,
      fun _ hnames hpath => FolderRule.looksAt_of_path_eq hnames hpath scanner disk entries⟩⟩

end ProjectLayout
