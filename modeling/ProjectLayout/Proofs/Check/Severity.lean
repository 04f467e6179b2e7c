import Mathlib.Data.List.Forall2
import ProjectLayout.Proofs.Run

/-!
# The severity of rules that set none

Such rules take the severity of the configuration.  It decides among which findings theirs are
listed, and neither which findings there are nor their order.

* `Softens` — that one finding is another one, perhaps made milder.
* `forall₂_softens_allFindings` — a milder configuration makes findings milder, one by one.
* `sublist_filter_of_softens` — so its errors are among the errors of the stricter one.
* `errors_of_warning` — the errors that are left are those of rules that set their severity.
* `severity_reclassifies` — two runs that differ in the severity.
-/

namespace ProjectLayout

open List (Forall₂)
open Scan (Scanner Entry)

/-- The configuration with another severity. -/
def Config.rated (config : Config) (severity : Severity) : Config := { config with severity }

@[simp] theorem Config.severity_rated (config : Config) (severity : Severity) :
    (config.rated severity).severity = severity := rfl

/-- The configuration with those file naming rules that make errors of their own accord. -/
def Config.onlyOwnErrors (config : Config) : Config :=
  { config with
    rules.fileNaming := config.rules.fileNaming.map (·.filter (·.severity == some .error)) }

/-- A finding but for its severity. -/
def Finding.unrated (f : Finding) : Finding := { f with severity := .warning }

/-! ## Findings made milder -/

/-- Whether `mild` is the finding `strict` with the same severity or a milder one. -/
structure Softens (mild strict : Finding) : Prop where
  same : mild.unrated = strict.unrated
  milder : mild.severity = .error → strict.severity = .error

theorem Softens.eq_of_error {mild strict : Finding} (h : Softens mild strict)
    (hs : mild.severity = .error) : mild = strict := by
  have hsame := h.same
  have hstrict := h.milder hs
  cases mild
  cases strict
  simp_all [Finding.unrated]

theorem map_unrated_of_softens {mild strict : List Finding} (h : Forall₂ Softens mild strict) :
    mild.map Finding.unrated = strict.map Finding.unrated := by
  induction h with
  | nil => rfl
  | cons hf _ ih => rw [List.map_cons, List.map_cons, hf.same, ih]

/-- The errors among milder findings are among the errors of the stricter ones. -/
theorem sublist_filter_of_softens {mild strict : List Finding} (h : Forall₂ Softens mild strict) :
    (mild.filter (·.severity == .error)).Sublist (strict.filter (·.severity == .error)) := by
  induction h with
  | nil => exact List.Sublist.refl _
  | @cons f g _ _ hf _ ih =>
    by_cases he : f.severity = .error
    · rw [← hf.eq_of_error he]
      simpa [List.filter_cons, he] using ih
    · rw [List.filter_cons_of_neg (by simpa using he)]
      exact ih.trans ((List.sublist_cons_self g _).filter _)

/-! ## Lists side by side -/

section Lists

variable {α β : Type} {R : β → β → Prop} {l : List α}

theorem forall₂_flatMap {f g : α → List β} (h : ∀ a, Forall₂ R (f a) (g a)) :
    Forall₂ R (l.flatMap f) (l.flatMap g) :=
  List.rel_flatMap (R := Eq) (List.forall₂_refl l) fun a _ hab => hab ▸ h a

theorem forall₂_filterMap {f g : α → Option β} (h : ∀ a, Option.Rel R (f a) (g a)) :
    Forall₂ R (l.filterMap f) (l.filterMap g) :=
  List.rel_filterMap (R := Eq) (fun a _ hab => hab ▸ h a) (List.forall₂_refl l)

theorem forall₂_toList {a b : Option β} (h : Option.Rel R a b) : Forall₂ R a.toList b.toList := by
  cases h with
  | none => exact .nil
  | some h => exact .cons h .nil

theorem rel_ite {c : Prop} [Decidable c] {a b : β} (h : R a b) :
    Option.Rel R (if c then none else some a) (if c then none else some b) := by
  by_cases hc : c
  · rw [if_pos hc, if_pos hc]
    exact .none
  · rw [if_neg hc, if_neg hc]
    exact .some h

end Lists

/-! ## The checks -/

section Checks

variable {scanner : Scanner} {disk : Disk} {entries : List Entry} {config : Config}
variable {low high : Severity}

theorem softens_componentFindings (h : low = .error → high = .error) (rules : ColocationRules)
    (dir : String) (contents : List Entry) :
    Forall₂ Softens (componentFindings rules low dir contents)
      (componentFindings rules high dir contents) := by
  unfold componentFindings
  dsimp only
  split
  · refine List.rel_append (forall₂_filterMap fun required => ?_) (forall₂_toList ?_)
    · unfold missingFile?
      dsimp only
      split
      · exact .none
      · exact rel_ite ⟨rfl, h⟩
    · cases rules.convention with
      | none => exact .none
      | some convention => exact rel_ite ⟨rfl, h⟩
  · exact .nil

theorem softens_colocationFindings (h : low = .error → high = .error) :
    Forall₂ Softens (colocationFindings scanner disk (config.rated low))
      (colocationFindings scanner disk (config.rated high)) := by
  unfold colocationFindings Config.rated
  dsimp only
  split
  · exact .nil
  · split
    · exact forall₂_flatMap fun dir => softens_componentFindings h _ dir _
    · exact .nil

/-- A rule's own severity goes first, so its findings are the same under either severity. -/
theorem softens_fileNamingFindings (h : low = .error → high = .error) :
    Forall₂ Softens (fileNamingFindings entries (config.rated low))
      (fileNamingFindings entries (config.rated high)) := by
  unfold fileNamingFindings Config.rated
  dsimp only
  split
  · exact .nil
  · refine forall₂_flatMap fun file => forall₂_filterMap fun (pattern, rule) => rel_ite ⟨rfl, ?_⟩
    show rule.severity.getD low = .error → rule.severity.getD high = .error
    cases rule.severity with
    | none => exact h
    | some own => exact id

theorem softens_folderFindings (h : low = .error → high = .error) (rule : FolderRule) :
    Forall₂ Softens (folderFindings scanner disk entries low rule)
      (folderFindings scanner disk entries high rule) := by
  unfold folderFindings folderContentFindings
  dsimp only
  split
  · refine List.rel_append ?_ ?_
    · exact List.forall₂_same.mpr fun f _ => ⟨rfl, id⟩
    · cases rule.convention with
      | none => exact .nil
      | some convention => exact forall₂_filterMap fun file => rel_ite ⟨rfl, h⟩
  · exact .cons ⟨rfl, h⟩ .nil

theorem softens_folderStructureFindings (h : low = .error → high = .error) :
    Forall₂ Softens (folderStructureFindings scanner disk entries (config.rated low))
      (folderStructureFindings scanner disk entries (config.rated high)) :=
  forall₂_flatMap fun rule => softens_folderFindings h rule

/-- A milder configuration makes findings milder, one by one. -/
theorem forall₂_softens_allFindings (h : low = .error → high = .error) :
    Forall₂ Softens (allFindings scanner disk entries (config.rated low))
      (allFindings scanner disk entries (config.rated high)) :=
  List.rel_append (List.rel_append (softens_colocationFindings h) (softens_fileNamingFindings h))
    (softens_folderStructureFindings h)

/-! ## Errors under `warning` -/

theorem severity_of_colocationFindings {f : Finding}
    (h : f ∈ colocationFindings scanner disk config) : f.severity = config.severity := by
  obtain ⟨rules, -, -, dir, -, hf⟩ := mem_colocationFindings.mp h
  rcases (mem_componentFindings.mp hf).2 with ⟨required, -, -, hf⟩ | ⟨convention, -, hf⟩
  · rw [(missingFile?_eq_some_iff.mp hf).2]
    rfl
  · rw [directoryNaming?_eq_some hf]
    rfl

theorem severity_of_folderStructureFindings {f : Finding}
    (h : f ∈ folderStructureFindings scanner disk entries config) :
    f.severity = config.severity ∨ f.severity = .warning := by
  obtain ⟨rules, -, rule, -, hf⟩ := mem_folderStructureFindings.mp h
  rcases mem_folderFindings.mp hf with ⟨-, hf⟩ | ⟨-, file, -, -, -, hf⟩
  · rw [hf]
    exact .inl rfl
  rcases hf with ⟨allowed, -, hf⟩ | ⟨convention, -, hf⟩
  · rw [(forbiddenFile?_eq_some_iff.mp hf).2]
    exact .inr rfl
  · rw [(folderNaming?_eq_some_iff.mp hf).2]
    exact .inl rfl

/-- Under `warning` a naming rule makes errors only if it sets that severity. -/
theorem filter_fileNaming? (file : Entry) (pattern : Glob.Pattern) (rule : FileNamingRule) :
    (fileNaming? .warning file pattern rule).filter (·.severity == .error) =
      if rule.severity == some .error then fileNaming? .warning file pattern rule else none := by
  unfold fileNaming?
  split
  · simp
  · cases hs : rule.severity with
    | none => simp [Finding.fileNaming]
    | some own => cases own <;> simp [Finding.fileNaming]

theorem filter_fileNamingFindings :
    (fileNamingFindings entries (config.rated .warning)).filter (·.severity == .error) =
      fileNamingFindings entries (config.rated .warning).onlyOwnErrors := by
  unfold fileNamingFindings Config.onlyOwnErrors Config.rated
  cases config.rules.fileNaming with
  | none => rfl
  | some rules =>
    dsimp only [Option.map_some]
    rw [List.filter_flatMap]
    refine List.flatMap_congr fun file _ => ?_
    unfold compileRules
    rw [List.filter_filterMap, List.filterMap_filterMap, List.filterMap_filterMap,
      List.filterMap_filter]
    refine List.filterMap_congr fun rule _ => ?_
    cases Glob.Pattern.compile? rule.pattern with
    | none => simp
    | some pattern => exact filter_fileNaming? file pattern rule

/-- Under `warning` the errors are those of the naming rules that make errors of their own
accord. -/
theorem errors_of_warning :
    (allFindings scanner disk entries (config.rated .warning)).filter (·.severity == .error) =
      fileNamingFindings entries (config.rated .warning).onlyOwnErrors := by
  have hcolocation : (colocationFindings scanner disk (config.rated .warning)).filter
      (·.severity == .error) = [] := by
    refine List.filter_eq_nil_iff.mpr fun f hf => ?_
    rw [severity_of_colocationFindings hf, Config.severity_rated]
    decide
  have hfolders : (folderStructureFindings scanner disk entries (config.rated .warning)).filter
      (·.severity == .error) = [] := by
    refine List.filter_eq_nil_iff.mpr fun f hf => ?_
    rcases severity_of_folderStructureFindings hf with h | h
    · rw [h, Config.severity_rated]
      decide
    · rw [h]
      decide
  rw [allFindings, List.filter_append, List.filter_append, hcolocation, hfolders,
    filter_fileNamingFindings, List.nil_append, List.append_nil]

theorem onlyOwnErrors_eq_nil (config : Config)
    (h : ∀ rules, config.rules.fileNaming = some rules →
      ∀ rule ∈ rules, rule.severity ≠ some .error) :
    fileNamingFindings entries config.onlyOwnErrors = [] := by
  refine List.eq_nil_iff_forall_not_mem.mpr fun f hf => ?_
  obtain ⟨kept, hkept, -, -, -, rule, hrule, -⟩ := mem_fileNamingFindings.mp hf
  obtain ⟨rules, hrules, rfl⟩ := Option.map_eq_some_iff.mp hkept
  obtain ⟨hmem, hown⟩ := List.mem_filter.mp hrule
  exact h rules hrules rule hmem (by simpa using hown)

end Checks

/-! ## Two runs -/

/-- What the results of two runs over the same entries have to do with each other if one takes
every rule without a severity for an error and the other for a warning. -/
structure Reclassifies (scanner : Scanner) (disk : Disk) (entries : List Entry) (config : Config)
    (strict mild : ValidationResult) : Prop where
  sortsStrict : Sorts (allFindings scanner disk entries (config.rated .error)) strict
  sortsMild : Sorts (allFindings scanner disk entries (config.rated .warning)) mild
  colocation : (colocationFindings scanner disk (config.rated .warning)).map Finding.unrated =
    (colocationFindings scanner disk (config.rated .error)).map Finding.unrated
  naming : (fileNamingFindings entries (config.rated .warning)).map Finding.unrated =
    (fileNamingFindings entries (config.rated .error)).map Finding.unrated
  folders :
    (folderStructureFindings scanner disk entries (config.rated .warning)).map Finding.unrated =
      (folderStructureFindings scanner disk entries (config.rated .error)).map Finding.unrated
  files : mild.filesScanned = strict.filesScanned
  directories : mild.directoriesScanned = strict.directoriesScanned
  errors : mild.errors.Sublist strict.errors
  own : mild.errors = fileNamingFindings entries (config.rated .warning).onlyOwnErrors
  valid : (∀ rules, config.rules.fileNaming = some rules →
    ∀ rule ∈ rules, rule.severity ≠ some .error) → mild.valid = true
  forbidden : ∀ f, f ∈ allFindings scanner disk entries (config.rated .error) ∨
    f ∈ allFindings scanner disk entries (config.rated .warning) → f.Mild

theorem reclassifies_resultOf (scanner : Scanner) (disk : Disk) (entries : List Entry)
    (config : Config) :
    Reclassifies scanner disk entries config
      (resultOf scanner disk entries (config.rated .error))
      (resultOf scanner disk entries (config.rated .warning)) := by
  have hmilder : Severity.warning = .error → Severity.error = .error := fun _ => rfl
  have hown : (resultOf scanner disk entries (config.rated .warning)).errors =
      fileNamingFindings entries (config.rated .warning).onlyOwnErrors := by
    rw [resultOf, ValidationResult.ofScan, ValidationResult.errors_ofFindings, errors_of_warning]
  exact {
    sortsStrict := sorts_ofFindings _ _ _
    sortsMild := sorts_ofFindings _ _ _
    colocation := map_unrated_of_softens (softens_colocationFindings hmilder)
    naming := map_unrated_of_softens (softens_fileNamingFindings hmilder)
    folders := map_unrated_of_softens (softens_folderStructureFindings hmilder)
    files := by rw [filesScanned_resultOf, filesScanned_resultOf]
    directories := by rw [directoriesScanned_resultOf, directoriesScanned_resultOf]
    errors := by
      unfold resultOf ValidationResult.ofScan
      rw [ValidationResult.errors_ofFindings, ValidationResult.errors_ofFindings]
      exact sublist_filter_of_softens (forall₂_softens_allFindings hmilder)
    own := hown
    valid := fun h => by
      refine (sorts_ofFindings _ _ _).valid.mpr ?_
      exact hown.trans (onlyOwnErrors_eq_nil (config.rated .warning) h)
    forbidden := fun f hf => hf.elim mild_of_allFindings mild_of_allFindings }

section Runs

variable {disk : Disk} {root : String} {config : Config}

theorem run_rated_of_error {e : Scan.ScanError}
    (h : (Scanner.ofPatterns root config.ignore).scan disk = .error e) (severity : Severity) :
    ((Validator.ofConfig (config.rated severity) root).run disk).1 = .error (.notScanned e) :=
  (Validator.run_fst _ disk).trans (validateProject_eq_notScanned_iff.mpr h)

/-- The same patterns are compiled whatever the severity. -/
theorem run_rated_of_ok {entries : List Entry}
    (h : (Scanner.ofPatterns root config.ignore).scan disk = .ok entries) (severity : Severity) :
    ((Validator.ofConfig (config.rated severity) root).run disk).1 =
      match Glob.checkNesting (checkedPatterns (.ofPatterns root config.ignore) disk config) with
      | .error cause => .error (.aborted cause)
      | .ok _ =>
        .ok (resultOf (.ofPatterns root config.ignore) disk entries (config.rated severity)) := by
  rw [Validator.run_fst]
  exact validateProject_of_ok h

end Runs

/-- Two runs that differ in the severity of the configuration fail alike or find the same; the
severity only moves findings between the errors and the warnings. -/
theorem severity_reclassifies (disk : Disk) (root : String) (config : Config) :
    match ((Validator.ofConfig (config.rated .error) root).run disk).1,
      ((Validator.ofConfig (config.rated .warning) root).run disk).1 with
    | .error e, .error e' => e = e'
    | .ok strict, .ok mild =>
      ∃ entries, (Scanner.ofPatterns root config.ignore).scan disk = .ok entries ∧
        Reclassifies (.ofPatterns root config.ignore) disk entries config strict mild
    | _, _ => False := by
  cases hscan : (Scanner.ofPatterns root config.ignore).scan disk with
  | error e => rw [run_rated_of_error hscan, run_rated_of_error hscan]
  | ok entries =>
    rw [run_rated_of_ok hscan, run_rated_of_ok hscan]
    cases Glob.checkNesting (checkedPatterns (.ofPatterns root config.ignore) disk config) with
    | error cause => rfl
    | ok _ => exact ⟨entries, rfl, reclassifies_resultOf _ disk entries config⟩

end ProjectLayout
