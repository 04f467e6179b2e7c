import Mathlib.Data.List.Basic
import Mathlib.Data.List.Flatten
import ProjectLayout.Proofs.Check.Findings
import ProjectLayout.Proofs.Glob.Excluding

/-!
# File naming, pair by pair

The check (`FileNamingCheck`) compiles the rules first and then goes through the files.  Seen from
outside it goes through the pairs of an entry and a rule, and each pair in which the rule is broken
is one finding.  With a pattern that nests too deep the check is aborted before there is any.

* `FileNamingRule.IsBrokenBy` — whether a file breaks a rule.
* `brokenPairs` — the pairs that a list of entries and a list of rules have at odds.
* `fileNamingFindings_eq_flatMap` — the findings of one entry after those of the other.
* `file_naming_reports_pairs` — one finding for each pair, and what follows for longer lists of
  entries, for rules that cannot be broken, and for rules in another order.
* `deep_rule_aborts` — a rule that cannot be broken is not passed over if its pattern is too deep.
-/

namespace ProjectLayout

open Scan (Entry)
open Glob (isTooDeep)

/-! ## Broken rules -/

namespace FileNamingRule

/-- Whether the pattern of a rule compiles and matches a path. -/
def IsAbout (rule : FileNamingRule) (path : String) : Prop :=
  ∃ pattern, Glob.Pattern.compile? rule.pattern = some pattern ∧ pattern.matches path = true

/-- Whether an entry is a file that a rule is about and whose name breaks the convention. -/
structure IsBrokenBy (rule : FileNamingRule) (entry : Entry) : Prop where
  file : entry.isDirectory = false
  about : rule.IsAbout entry.path
  name : rule.convention.accepts entry.name = false

/-- Whether a rule can be broken at all: its pattern compiles and its convention is known. -/
def CanBeBroken (rule : FileNamingRule) : Prop :=
  (Glob.Pattern.compile? rule.pattern).isSome = true ∧ rule.convention.isKnown = true

instance (rule : FileNamingRule) (path : String) : Decidable (rule.IsAbout path) :=
  decidable_of_iff ((Glob.Pattern.compile? rule.pattern).any (·.matches path) = true)
    (by simp [IsAbout, Option.any_eq_true])

theorem isBrokenBy_iff {rule : FileNamingRule} {entry : Entry} :
    rule.IsBrokenBy entry ↔ entry.isDirectory = false ∧ rule.IsAbout entry.path ∧
      rule.convention.accepts entry.name = false :=
  ⟨fun h => ⟨h.file, h.about, h.name⟩, fun ⟨file, about, name⟩ => ⟨file, about, name⟩⟩

instance (rule : FileNamingRule) (entry : Entry) : Decidable (rule.IsBrokenBy entry) :=
  decidable_of_iff _ isBrokenBy_iff.symm

instance (rule : FileNamingRule) : Decidable rule.CanBeBroken := inferInstanceAs (Decidable (_ ∧ _))

theorem isKnown_of_accepts_eq_false {convention : Naming.Convention} {name : String}
    (h : convention.accepts name = false) : convention.isKnown = true := by
  cases convention with
  | unknown spelling => simp [Naming.Convention.accepts_unknown] at h
  | _ => rfl

theorem IsBrokenBy.canBeBroken {rule : FileNamingRule} {entry : Entry}
    (h : rule.IsBrokenBy entry) : rule.CanBeBroken := by
  obtain ⟨pattern, hcompiled, -⟩ := h.about
  exact ⟨Option.isSome_of_eq_some hcompiled, isKnown_of_accepts_eq_false h.name⟩

/-- The finding about a file that breaks a rule, if rules without a severity have `severity`. -/
def finding (severity : Severity) (rule : FileNamingRule) (file : Entry) : Finding :=
  .fileNaming (rule.severity.getD severity)
    s!"File name doesn't follow {rule.convention.spelling} convention" file.path file.name
    (rule.convention.suggestion file.name)

end FileNamingRule

/-- The pairs of an entry and a rule that it breaks, entry after entry and for each in the order of
the rules. -/
def brokenPairs (entries : List Entry) (rules : List FileNamingRule) :
    List (Entry × FileNamingRule) :=
  (entries ×ˢ rules).filter fun pair => pair.2.IsBrokenBy pair.1

/-- The rules for file names; a configuration without that section has none. -/
def Config.namingRules (config : Config) : List FileNamingRule := config.rules.fileNaming.getD []

/-- The configuration with other rules for file names. -/
def Config.withNamingRules (config : Config) (rules : List FileNamingRule) : Config :=
  { config with rules.fileNaming := some rules }

/-! ## One entry -/

/-- The findings about one entry, in the order of the rules. -/
def findingsAbout (severity : Severity) (rules : List FileNamingRule) (entry : Entry) :
    List Finding :=
  (rules.filter (·.IsBrokenBy entry)).map (·.finding severity entry)

/-- What the check finds against a file with a rule whose pattern is compiled. -/
theorem bind_fileNaming?_eq {severity : Severity} {file : Entry} (rule : FileNamingRule)
    (hfile : file.isDirectory = false) :
    ((Glob.Pattern.compile? rule.pattern).bind fun pattern =>
        fileNaming? severity file pattern rule) =
      if rule.IsBrokenBy file then some (rule.finding severity file) else none := by
  by_cases hbroken : rule.IsBrokenBy file
  · obtain ⟨pattern, hcompiled, hmatches⟩ := hbroken.about
    rw [if_pos hbroken, hcompiled, Option.bind_some]
    exact fileNaming?_eq_some_iff.mpr ⟨hmatches, hbroken.name, rfl⟩
  · rw [if_neg hbroken]
    refine Option.eq_none_iff_forall_ne_some.mpr fun f hf => hbroken ?_
    obtain ⟨pattern, hcompiled, hf⟩ := Option.bind_eq_some_iff.mp hf
    obtain ⟨hmatches, hname, -⟩ := fileNaming?_eq_some_iff.mp hf
    exact ⟨hfile, ⟨pattern, hcompiled, hmatches⟩, hname⟩

theorem filterMap_compileRules {severity : Severity} {file : Entry}
    (hfile : file.isDirectory = false) (rules : List FileNamingRule) :
    ((compileRules rules).filterMap fun (pattern, rule) => fileNaming? severity file pattern rule) =
      findingsAbout severity rules file := by
  rw [findingsAbout, ← List.filterMap_eq_map, List.filterMap_filter, compileRules,
    List.filterMap_filterMap]
  refine List.filterMap_congr fun rule _ => ?_
  rw [Option.bind_map]
  simpa [Function.comp_def] using bind_fileNaming?_eq rule hfile

theorem findingsAbout_of_isDirectory {severity : Severity} {entry : Entry}
    (h : entry.isDirectory = true) (rules : List FileNamingRule) :
    findingsAbout severity rules entry = [] := by
  have hnone : rules.filter (·.IsBrokenBy entry) = [] := by
    refine List.filter_eq_nil_iff.mpr fun rule _ hbroken => ?_
    have hfile := (of_decide_eq_true hbroken).file
    rw [h] at hfile
    cases hfile
  rw [findingsAbout, hnone, List.map_nil]

/-- The check finds what there is about one entry after what there is about the other. -/
theorem fileNamingFindings_eq_flatMap (entries : List Entry) (config : Config) :
    fileNamingFindings entries config =
      entries.flatMap (findingsAbout config.severity config.namingRules) := by
  have hfiles (rules : List FileNamingRule) :
      ((entries.filter (!·.isDirectory)).flatMap fun file => (compileRules rules).filterMap
        fun (pattern, rule) => fileNaming? config.severity file pattern rule) =
      entries.flatMap (findingsAbout config.severity rules) := by
    induction entries with
    | nil => rfl
    | cons entry rest ih =>
      rw [List.flatMap_cons, ← ih]
      cases hdir : entry.isDirectory with
      | true => rw [findingsAbout_of_isDirectory hdir]; simp [hdir]
      | false => rw [← filterMap_compileRules hdir rules]; simp [hdir]
  unfold fileNamingFindings Config.namingRules
  cases config.rules.fileNaming with
  | none => simp [findingsAbout]
  | some rules => exact hfiles rules

/-! ## Lists of entries and of rules -/

theorem flatMap_findingsAbout (severity : Severity) (entries : List Entry)
    (rules : List FileNamingRule) :
    entries.flatMap (findingsAbout severity rules) =
      (brokenPairs entries rules).map fun (entry, rule) => rule.finding severity entry := by
  have hproduct : entries ×ˢ rules = entries.flatMap fun entry => rules.map (entry, ·) := rfl
  rw [brokenPairs, hproduct, List.filter_flatMap, List.map_flatMap]
  refine List.flatMap_congr fun entry _ => ?_
  rw [List.filter_map, List.map_map]
  rfl

theorem findingsAbout_congr (severity : Severity) {rules others : List FileNamingRule}
    (h : others.filter (·.CanBeBroken) = rules.filter (·.CanBeBroken)) (entry : Entry) :
    findingsAbout severity others entry = findingsAbout severity rules entry := by
  have hkept (list : List FileNamingRule) : list.filter (·.IsBrokenBy entry) =
      (list.filter (·.CanBeBroken)).filter (·.IsBrokenBy entry) := by
    rw [List.filter_filter]
    refine List.filter_congr fun rule _ => ?_
    by_cases hbroken : rule.IsBrokenBy entry
    · simp [hbroken, hbroken.canBeBroken]
    · simp [hbroken]
  rw [findingsAbout, findingsAbout, hkept others, h, ← hkept rules]

theorem findingsAbout_perm (severity : Severity) {rules others : List FileNamingRule}
    (h : others.Perm rules) (entry : Entry) :
    (findingsAbout severity others entry).Perm (findingsAbout severity rules entry) :=
  (h.filter _).map _

/-- Whether every pattern among some rules can be compiled by itself, or is no pattern at all. -/
def AllShallow (rules : List FileNamingRule) : Prop :=
  ∀ rule ∈ rules, isTooDeep rule.pattern = false

theorem fileNamingCheck_of_shallow {entries : List Entry} {config : Config}
    (h : AllShallow config.namingRules) :
    fileNamingCheck entries config = .ok (fileNamingFindings entries config) := by
  have hpatterns : ∀ text ∈ fileNamingPatterns config, isTooDeep text = false :=
    List.forall_mem_map.mpr h
  rw [fileNamingCheck, Glob.checkNesting_eq_ok_iff.mpr hpatterns]
  rfl

/-- The check is aborted by the first pattern that nests too deep, whatever files there are. -/
theorem fileNamingCheck_eq_error_iff {entries : List Entry} {config : Config} {text : String} :
    fileNamingCheck entries config = .error (.tooDeep text) ↔
      (config.namingRules.map (·.pattern)).find? isTooDeep = some text := by
  show (Glob.checkNesting (config.namingRules.map (·.pattern))).map _ = _ ↔ _
  unfold Glob.checkNesting
  cases (config.namingRules.map (·.pattern)).find? isTooDeep <;> simp [Except.map]

/-- What the check has to do with the entries and the rules if no pattern nests too deep. -/
structure ReportsPairs (entries : List Entry) (config : Config) : Prop where
  /-- Each pair of an entry and a rule that it breaks is one finding, in the order of the pairs. -/
  pairs : fileNamingCheck entries config =
    .ok ((brokenPairs entries config.namingRules).map fun (entry, rule) =>
      rule.finding config.severity entry)
  /-- More entries add their own findings at the end. -/
  append (more : List Entry) : ∃ found added, fileNamingCheck entries config = .ok found ∧
    fileNamingCheck more config = .ok added ∧
    fileNamingCheck (entries ++ more) config = .ok (found ++ added)
  /-- Rules that cannot be broken may stand anywhere between the others, or not at all. -/
  idle (rules : List FileNamingRule)
    (h : rules.filter (·.CanBeBroken) = config.namingRules.filter (·.CanBeBroken))
    (hrules : AllShallow rules) :
    fileNamingCheck entries (config.withNamingRules rules) = fileNamingCheck entries config
  /-- With the rules in another order the findings about each entry are in another order, and stay
  between those about the entries before and after it. -/
  reordered (rules : List FileNamingRule) (h : rules.Perm config.namingRules) :
    ∃ before after : Entry → List Finding, (∀ entry, (after entry).Perm (before entry)) ∧
      fileNamingCheck entries config = .ok (entries.flatMap before) ∧
      fileNamingCheck entries (config.withNamingRules rules) = .ok (entries.flatMap after)

theorem reportsPairs_of_shallow (entries : List Entry) {config : Config}
    (hshallow : AllShallow config.namingRules) : ReportsPairs entries config where
  pairs := by
    rw [fileNamingCheck_of_shallow hshallow, fileNamingFindings_eq_flatMap, flatMap_findingsAbout]
  append more := by
    refine ⟨_, _, fileNamingCheck_of_shallow hshallow, fileNamingCheck_of_shallow hshallow, ?_⟩
    rw [fileNamingCheck_of_shallow hshallow]
    simp only [fileNamingFindings_eq_flatMap, List.flatMap_append]
  idle rules h hrules := by
    have hcheck : fileNamingCheck entries (config.withNamingRules rules) = .ok _ :=
      fileNamingCheck_of_shallow hrules
    rw [fileNamingCheck_of_shallow hshallow, hcheck, fileNamingFindings_eq_flatMap,
      fileNamingFindings_eq_flatMap]
    exact congrArg _ (List.flatMap_congr fun entry _ => findingsAbout_congr config.severity h entry)
  reordered rules h := by
    have hrules : AllShallow rules := fun rule hrule => hshallow rule (h.mem_iff.mp hrule)
    refine ⟨findingsAbout config.severity config.namingRules, findingsAbout config.severity rules,
      findingsAbout_perm config.severity h, ?_, ?_⟩
    · rw [fileNamingCheck_of_shallow hshallow, fileNamingFindings_eq_flatMap]
    · have hcheck : fileNamingCheck entries (config.withNamingRules rules) = .ok _ :=
        fileNamingCheck_of_shallow hrules
      rw [hcheck, fileNamingFindings_eq_flatMap]
      rfl

/-- The check is aborted by the first pattern that nests too deep.  If there is none, it has one
finding for each pair of a file and a rule that the file breaks, file after file and for each in the
order of the rules. -/
theorem file_naming_reports_pairs (entries : List Entry) (config : Config) :
    (∀ text, fileNamingCheck entries config = .error (.tooDeep text) ↔
      (config.namingRules.map (·.pattern)).find? isTooDeep = some text) ∧
    (AllShallow config.namingRules → ReportsPairs entries config) :=
  ⟨fun _ => fileNamingCheck_eq_error_iff, reportsPairs_of_shallow entries⟩

/-- A rule with a convention that is not known and a pattern that nests too deep. -/
def deepRule : FileNamingRule :=
  ⟨Glob.bracedText Glob.maxNesting, .unknown "", none⟩

/-- Such a rule cannot be broken, and yet a check that had no findings is aborted by it. -/
theorem deep_rule_aborts :
    ¬deepRule.CanBeBroken ∧
      fileNamingCheck [.ofPath "a" false] (Config.empty.withNamingRules []) = .ok [] ∧
      ∀ findings, fileNamingCheck [.ofPath "a" false] (Config.empty.withNamingRules [deepRule]) ≠
        .ok findings := by
  refine ⟨fun h => ?_, rfl, fun findings h => ?_⟩
  · exact absurd h.2 (by decide)
  · have hdeep : ([deepRule].map (·.pattern)).find? isTooDeep =
        some (Glob.bracedText Glob.maxNesting) :=
      List.find?_cons_of_pos (Glob.isTooDeep_bracedText (Nat.le_refl _))
    have herror : fileNamingCheck [.ofPath "a" false] (Config.empty.withNamingRules [deepRule]) =
        .error (.tooDeep (Glob.bracedText Glob.maxNesting)) :=
      fileNamingCheck_eq_error_iff.mpr hdeep
    rw [h] at herror
    cases herror

/-- A rule that stands there twice is reported twice, and a pattern that does not compile is not. -/
example : (fileNamingFindings [.ofPath "src" true, .ofPath "src/my-file.ts" false]
    { rules.colocation := none
      rules.fileNaming := some [⟨"src/*", .camel, none⟩, ⟨"src/[", .camel, none⟩,
        ⟨"src/*", .camel, some .warning⟩]
      rules.folders := none
      preset := none
      ignore := []
      severity := .error }).map (fun f => (f.file, f.severity, f.expected)) =
    [(some "src/my-file.ts", .error, some "myFile.ts"),
      (some "src/my-file.ts", .warning, some "myFile.ts")] := by
  decide +kernel

end ProjectLayout
