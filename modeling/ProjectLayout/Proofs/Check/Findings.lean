import ProjectLayout.Check.Colocation
import ProjectLayout.Check.FileNaming
import ProjectLayout.Check.FolderStructure

/-!
# What the checks find

* `mem_colocationFindings`, `mem_componentFindings` — the findings of components.
* `mem_fileNamingFindings` — the findings of single files.
* `mem_folderStructureFindings`, `mem_folderFindings` — the findings of folders.
-/

namespace ProjectLayout

open Scan (Scanner Entry normalizeRelative)

theorem ite_none_some_eq_some {α : Type} {c : Prop} [Decidable c] {a b : α} :
    (if c then none else some a) = some b ↔ ¬c ∧ b = a := by
  by_cases h : c <;> simp [h, eq_comm]

/-! ## Co-location -/

theorem mem_componentFindings {rules : ColocationRules} {severity : Severity} {dir : String}
    {contents : List Entry} {f : Finding} :
    f ∈ componentFindings rules severity dir contents ↔
      hasMainFile (Entry.ofPath dir true).name contents = true ∧
        ((∃ required ∈ rules.requiredFiles, required.required = true ∧
            missingFile? severity dir (Entry.ofPath dir true).name contents required = some f) ∨
          ∃ convention, rules.convention = some convention ∧
            directoryNaming? severity dir (Entry.ofPath dir true).name convention = some f) := by
  unfold componentFindings
  generalize (Entry.ofPath dir true).name = component
  by_cases h : hasMainFile component contents = true
  · rw [if_pos h]
    simp only [h, List.mem_append, List.mem_filterMap, List.mem_filter, and_assoc,
      Option.mem_toList, Option.bind_eq_some_iff, true_and]
  · simp [h]

theorem mem_colocationFindings {scanner : Scanner} {disk : Disk} {config : Config} {f : Finding} :
    f ∈ colocationFindings scanner disk config ↔
      ∃ rules, config.rules.colocation = some rules ∧ rules.enabled = true ∧
        ∃ dir ∈ scanner.componentDirectories disk rules.componentDirs,
          f ∈ componentFindings rules config.severity dir (scanner.listOneLevel disk dir) := by
  unfold colocationFindings
  cases config.rules.colocation with
  | none => simp
  | some rules => cases henabled : rules.enabled <;> simp [henabled]

/-- A required file is missed if its pattern compiles and matches the name of no file. -/
theorem missingFile?_eq_some_iff {severity : Severity} {dir component : String}
    {contents : List Entry} {required : FilePattern} {f : Finding} :
    missingFile? severity dir component contents required = some f ↔
      (∃ pattern, Glob.Pattern.compile? (fillStars component required.pattern) = some pattern ∧
        ∀ e ∈ contents, e.isDirectory = false → pattern.matches e.name = false) ∧
      f = .missingFile severity dir
        (required.description.getD (fillStars component required.pattern))
        (fillStars component required.pattern) := by
  simp only [missingFile?]
  cases Glob.Pattern.compile? (fillStars component required.pattern) with
  | none => simp
  | some pattern =>
    by_cases h : (contents.any fun e => !e.isDirectory && pattern.matches e.name) = true
    · have hno : ¬∀ e ∈ contents, e.isDirectory = false → pattern.matches e.name = false := by
        simpa using h
      simp [h, hno]
    · have hall : ∀ e ∈ contents, e.isDirectory = false → pattern.matches e.name = false := by
        simpa using h
      simp only [h, Bool.false_eq_true, if_false]
      constructor
      · intro hf
        exact ⟨⟨pattern, rfl, hall⟩, (Option.some.inj hf).symm⟩
      · rintro ⟨-, hf⟩
        rw [hf]

theorem directoryNaming?_eq_some {severity : Severity} {dir component : String}
    {convention : Naming.Convention} {f : Finding}
    (h : directoryNaming? severity dir component convention = some f) :
    f = .directoryNaming severity dir convention.spelling component
      (convention.suggestion component) := by
  unfold directoryNaming? at h
  exact (ite_none_some_eq_some.mp h).2

/-- A finding of a component is about its directory. -/
theorem directory_of_mem_componentFindings {rules : ColocationRules} {severity : Severity}
    {dir : String} {contents : List Entry} {f : Finding}
    (h : f ∈ componentFindings rules severity dir contents) : f.directory = some dir := by
  rcases (mem_componentFindings.mp h).2 with ⟨_, -, -, hf⟩ | ⟨_, -, hf⟩
  · rw [(missingFile?_eq_some_iff.mp hf).2]
    rfl
  · rw [directoryNaming?_eq_some hf]
    rfl

theorem exists_of_hasMainFile {component : String} {contents : List Entry}
    (h : hasMainFile component contents = true) : ∃ e, e ∈ contents := by
  obtain ⟨e, he, -⟩ := List.any_eq_true.mp h
  exact ⟨e, he⟩

/-! ## File naming -/

theorem fileNaming?_eq_some_iff {severity : Severity} {file : Entry} {pattern : Glob.Pattern}
    {rule : FileNamingRule} {f : Finding} :
    fileNaming? severity file pattern rule = some f ↔
      pattern.matches file.path = true ∧ rule.convention.accepts file.name = false ∧
        f = .fileNaming (rule.severity.getD severity)
          s!"File name doesn't follow {rule.convention.spelling} convention" file.path file.name
          (rule.convention.suggestion file.name) := by
  unfold fileNaming?
  rw [ite_none_some_eq_some]
  simp only [Bool.or_eq_true, Bool.not_eq_true', not_or, Bool.not_eq_false, Bool.not_eq_true,
    and_assoc]

theorem mem_compileRules {rules : List FileNamingRule} {pattern : Glob.Pattern}
    {rule : FileNamingRule} :
    (pattern, rule) ∈ compileRules rules ↔
      rule ∈ rules ∧ Glob.Pattern.compile? rule.pattern = some pattern := by
  simp only [compileRules, List.mem_filterMap, Option.map_eq_some_iff, Prod.mk.injEq]
  constructor
  · rintro ⟨other, hmem, compiled, hcompiled, rfl, rfl⟩
    exact ⟨hmem, hcompiled⟩
  · rintro ⟨hmem, hcompiled⟩
    exact ⟨rule, hmem, pattern, hcompiled, rfl, rfl⟩

theorem mem_fileNamingFindings {entries : List Entry} {config : Config} {f : Finding} :
    f ∈ fileNamingFindings entries config ↔
      ∃ rules, config.rules.fileNaming = some rules ∧
        ∃ file ∈ entries, file.isDirectory = false ∧
          ∃ rule ∈ rules, ∃ pattern, Glob.Pattern.compile? rule.pattern = some pattern ∧
            fileNaming? config.severity file pattern rule = some f := by
  unfold fileNamingFindings
  cases config.rules.fileNaming with
  | none => simp
  | some rules =>
    simp only [List.mem_flatMap, List.mem_filter, List.mem_filterMap, Prod.exists,
      mem_compileRules, Bool.not_eq_true', Option.some.injEq, exists_eq_left', and_assoc]
    refine exists_congr fun file => and_congr_right fun _ => and_congr_right fun _ => ?_
    constructor
    · rintro ⟨pattern, rule, hmem, hcompiled, hf⟩
      exact ⟨rule, hmem, pattern, hcompiled, hf⟩
    · rintro ⟨rule, hmem, pattern, hcompiled, hf⟩
      exact ⟨pattern, rule, hmem, hcompiled, hf⟩

/-! ## Folder structure -/

theorem forbiddenFile?_eq_some_iff {rule : FolderRule} {allowed : List String} {file : Entry}
    {f : Finding} :
    forbiddenFile? rule allowed file = some f ↔
      file.extension ∉ allowed ∧
        f = .forbiddenFile file.path file.extension rule.name allowed := by
  unfold forbiddenFile?
  rw [ite_none_some_eq_some, List.contains_iff_mem]

theorem folderNaming?_eq_some_iff {severity : Severity} {rule : FolderRule}
    {convention : Naming.Convention} {file : Entry} {f : Finding} :
    folderNaming? severity rule convention file = some f ↔
      convention.accepts file.name = false ∧
        f = .fileNaming severity
          s!"File in {rule.name} doesn't follow {convention.spelling} convention" file.path
          file.name (convention.suggestion file.name) := by
  unfold folderNaming?
  rw [ite_none_some_eq_some, Bool.not_eq_true]

theorem mem_folderContentFindings {rule : FolderRule} {severity : Severity} {entries : List Entry}
    {f : Finding} :
    f ∈ folderContentFindings rule severity entries ↔
      ∃ file ∈ entries, file.isDirectory = false ∧
        isWithin (normalizeRelative rule.path) file = true ∧
        ((∃ allowed, rule.allowedExtensions = some allowed ∧
            forbiddenFile? rule allowed file = some f) ∨
          ∃ convention, rule.convention = some convention ∧
            folderNaming? severity rule convention file = some f) := by
  unfold folderContentFindings
  cases rule.allowedExtensions <;> cases rule.convention <;>
    simp [and_assoc, ← exists_or, ← and_or_left]

/-- A folder is missing, or a file in it breaks a rule. -/
theorem mem_folderFindings {scanner : Scanner} {disk : Disk} {entries : List Entry}
    {severity : Severity} {rule : FolderRule} {f : Finding} :
    f ∈ folderFindings scanner disk entries severity rule ↔
      scanner.hasDirectory disk rule.path = false ∧
          f = .missingDirectory severity rule.name rule.path ∨
        scanner.hasDirectory disk rule.path = true ∧
          ∃ file ∈ entries, file.isDirectory = false ∧
            isWithin (normalizeRelative rule.path) file = true ∧
            ((∃ allowed, rule.allowedExtensions = some allowed ∧
                forbiddenFile? rule allowed file = some f) ∨
              ∃ convention, rule.convention = some convention ∧
                folderNaming? severity rule convention file = some f) := by
  unfold folderFindings
  cases scanner.hasDirectory disk rule.path with
  | false => simp
  | true => simp [mem_folderContentFindings]

theorem mem_folderStructureFindings {scanner : Scanner} {disk : Disk} {entries : List Entry}
    {config : Config} {f : Finding} :
    f ∈ folderStructureFindings scanner disk entries config ↔
      ∃ rules, config.rules.folders = some rules ∧
        ∃ rule ∈ rules, f ∈ folderFindings scanner disk entries config.severity rule := by
  unfold folderStructureFindings
  cases config.rules.folders with
  | none => simp
  | some rules => simp

end ProjectLayout
