import ProjectLayout.Config.Problem
import ProjectLayout.Proofs.Check.FileNaming
import ProjectLayout.Proofs.Glob.Disjunction
import ProjectLayout.Validator

/-!
# What a configuration without problems keeps

The globs of a configuration are compiled when it is checked for problems, once more for the scanner
and once more by the file naming check, and these two pass over what does not compile.  A
configuration without problems gives them nothing to pass over.  What can still be lost is the whole
set of ignored patterns, as soon as one of them nests too deep.

* `faulty`, `Config.emptyLists` — what is wrong with a configuration.
* `Config.TellsProblems` — one message for each of these, in groups.
* `Config.KeepsRules` — what scanner and check do with rules that all compile.
* `Config.problems_tell_lost_rules` — both of every configuration.
* `deep_pattern_loses_ignored` — a configuration without problems that ignores nothing.
-/

namespace ProjectLayout

open Glob (Pattern Buildable StandsFor endsInParent isKeyedByFileName)

/-! ## Globs that do not compile -/

section Globs

variable {α β : Type} {glob : α → String}

/-- The items whose glob does not compile. -/
def faulty (glob : α → String) (items : List α) : List α :=
  items.filter fun item => (Pattern.compile? (glob item)).isNone

/-- Whether a message tells of `pattern` that `glob` does not compile, and why. -/
def TellsFault (what pattern glob message : String) : Prop :=
  ∃ fault, Pattern.fault? glob = some fault ∧
    message = s!"{what} pattern '{pattern}' is invalid: {fault}"

theorem isNone_compile?_eq (text : String) :
    (Pattern.compile? text).isNone = (Pattern.fault? text).isSome := by
  unfold Pattern.compile? Pattern.compile Pattern.fault?
  cases Glob.parse text <;> rfl

theorem isSome_globProblem? (what pattern glob : String) :
    (globProblem? what pattern glob).isSome = (Pattern.compile? glob).isNone := by
  rw [globProblem?, Option.isSome_map, isNone_compile?_eq]

theorem tellsFault_of_globProblem? {what pattern glob message : String}
    (h : globProblem? what pattern glob = some message) : TellsFault what pattern glob message := by
  obtain ⟨fault, hfault, hmessage⟩ := Option.map_eq_some_iff.mp h
  exact ⟨fault, hfault, hmessage.symm⟩

/-- The results of a filter beside the items that they are made from. -/
theorem forall₂_filter_filterMap (f : α → Option β) (items : List α) :
    List.Forall₂ (fun item result => f item = some result)
      (items.filter fun item => (f item).isSome) (items.filterMap f) := by
  induction items with
  | nil => exact .nil
  | cons item items ih =>
    cases h : f item with
    | none => rwa [List.filterMap_cons_none h, List.filter_cons_of_neg (by simp [h])]
    | some result =>
      rw [List.filterMap_cons_some h, List.filter_cons_of_pos (by simp [h])]
      exact .cons h ih

/-- There is one message for each glob that does not compile, in their order. -/
theorem forall₂_globProblem? (what : String) (pattern glob : α → String) (items : List α) :
    List.Forall₂ (fun item => TellsFault what (pattern item) (glob item)) (faulty glob items)
      (items.filterMap fun item => globProblem? what (pattern item) (glob item)) := by
  have hmessages :=
    forall₂_filter_filterMap (fun item => globProblem? what (pattern item) (glob item)) items
  simp only [isSome_globProblem?] at hmessages
  exact hmessages.imp fun _ _ => tellsFault_of_globProblem?

theorem exists_compile?_of_faulty_eq_nil {items : List α} (h : faulty glob items = []) {item : α}
    (hitem : item ∈ items) : ∃ p, Pattern.compile? (glob item) = some p := by
  have hcompiles := List.filter_eq_nil_iff.mp h item hitem
  rw [Option.isNone_iff_eq_none] at hcompiles
  exact Option.ne_none_iff_exists'.mp hcompiles

end Globs

/-! ## Problems -/

namespace Config

variable {config : Config}

/-- The lists that must not be empty and are, while their section is enabled. -/
def emptyLists (config : Config) : List String :=
  config.rules.colocation.elim [] fun rules =>
    if rules.enabled then
      (if rules.componentDirs = [] then ["componentDirs"] else []) ++
        (if rules.requiredFiles = [] then ["requiredFiles"] else [])
    else []

/-- The required files, whether their section is enabled or not. -/
def requiredFiles (config : Config) : List FilePattern :=
  config.rules.colocation.elim [] ColocationRules.requiredFiles

/-- The required files whose patterns do not compile for a component named `Component`. -/
def faultyFiles (config : Config) : List FilePattern :=
  faulty (fun file => fillStars "Component" file.pattern) config.requiredFiles

def faultyRules (config : Config) : List FileNamingRule :=
  faulty FileNamingRule.pattern config.namingRules

def faultyIgnored (config : Config) : List String := faulty id config.ignore

/-- Whether messages tell what is wrong with a configuration, in four groups. -/
structure AreProblems (config : Config) (lists files rules ignored : List String) : Prop where
  lists : lists = config.emptyLists.map fun list =>
    s!"componentColocation.{list} must be specified when enabled"
  files : List.Forall₂ (fun file => TellsFault "componentColocation.requiredFiles" file.pattern
    (fillStars "Component" file.pattern)) config.faultyFiles files
  rules : List.Forall₂ (fun rule => TellsFault "fileNaming" rule.pattern rule.pattern)
    config.faultyRules rules
  ignored : List.Forall₂ (fun text => TellsFault "ignore" text text) config.faultyIgnored ignored

/-- What the problems of a configuration are. -/
structure TellsProblems (config : Config) : Prop where
  grouped : ∃ lists files rules ignored, config.problems = lists ++ files ++ rules ++ ignored ∧
    config.AreProblems lists files rules ignored
  count : config.problems.length = config.emptyLists.length + config.faultyFiles.length +
    config.faultyRules.length + config.faultyIgnored.length

theorem colocationProblems_eq (config : Config) :
    config.colocationProblems =
      (config.emptyLists.map fun list =>
        s!"componentColocation.{list} must be specified when enabled") ++
      config.requiredFiles.filterMap fun file =>
        globProblem? "componentColocation.requiredFiles" file.pattern
          (fillStars "Component" file.pattern) := by
  unfold colocationProblems emptyLists requiredFiles
  cases config.rules.colocation with
  | none => rfl
  | some rules =>
    have hlists : rules.listProblems =
        (if rules.enabled then
          (if rules.componentDirs = [] then ["componentDirs"] else []) ++
            (if rules.requiredFiles = [] then ["requiredFiles"] else [])
        else []).map fun list => s!"componentColocation.{list} must be specified when enabled" := by
      simp only [ColocationRules.listProblems, List.isEmpty_iff]
      split
      · split <;> split <;> rfl
      · rfl
    exact congrArg (· ++ _) hlists

theorem tellsProblems (config : Config) : config.TellsProblems := by
  have hproblems : config.AreProblems _ _ _ _ :=
    ⟨rfl, forall₂_globProblem? "componentColocation.requiredFiles" FilePattern.pattern _ _,
      forall₂_globProblem? "fileNaming" FileNamingRule.pattern _ _,
      forall₂_globProblem? "ignore" id _ _⟩
  have hgroups : config.problems = _ ++ config.fileNamingProblems ++ config.ignoreProblems :=
    congrArg (· ++ _ ++ _) config.colocationProblems_eq
  refine ⟨⟨_, _, _, _, hgroups, hproblems⟩, ?_⟩
  rw [hgroups, hproblems.files.length_eq, hproblems.rules.length_eq, hproblems.ignored.length_eq]
  simp only [List.length_append, List.length_map]
  rfl

/-! ## Rules at run time -/

/-- What is done with the rules of a configuration when each of them compiles. -/
structure KeepsRules (config : Config) : Prop where
  patterns (root : String) :
    (Validator.ofConfig config root).scanner.ignore.texts = config.ignore
  /-- What an ignored pattern matches alone is ignored, and what the directory in front of its `/**`
  matches, if the set can be built. -/
  ignored : ∀ text ∈ config.ignore, (∃ p, Pattern.compile? text = some p) ∧
    (Buildable config.ignore → ∀ p, StandsFor text p → ∀ root path, p.matches path = true →
      endsInParent path.toList = false ∨ isKeyedByFileName p.tokens = false →
        (Validator.ofConfig config root).scanner.isIgnored path = true)
  unbuilt : ¬Buildable config.ignore → ∀ root path,
    (Validator.ofConfig config root).scanner.isIgnored path = false
  /-- A file that a rule is about and that breaks it is reported. -/
  reported : ∀ rule ∈ config.namingRules, ∃ p, Pattern.compile? rule.pattern = some p ∧
    ∀ entries, ∀ file ∈ entries, file.isDirectory = false → p.matches file.path = true →
      rule.convention.accepts file.name = false →
        rule.finding config.severity file ∈ fileNamingFindings entries config

theorem isIgnored_ofConfig (config : Config) (root path : String) :
    (Validator.ofConfig config root).scanner.isIgnored path =
      (Glob.PatternSet.ofTexts config.ignore).excludes path := rfl

theorem keepsRules (hrules : config.faultyRules = []) (hignored : config.faultyIgnored = []) :
    config.KeepsRules where
  patterns root := by
    refine (Glob.PatternSet.texts_ofTexts config.ignore).trans (List.filter_eq_self.mpr ?_)
    exact fun text htext =>
      Option.isSome_iff_exists.mpr (exists_compile?_of_faulty_eq_nil hignored htext)
  ignored text htext := by
    refine ⟨exists_compile?_of_faulty_eq_nil hignored htext, ?_⟩
    intro hbuildable p hstands root path hmatch hname
    have hglob : p ∈ Glob.globsOf config.ignore := Glob.mem_globsOf_iff.mpr ⟨text, htext, hstands⟩
    rw [isIgnored_ofConfig]
    exact Glob.PatternSet.excludes_ofTexts_iff.mpr
      ⟨hbuildable, p, hglob, Glob.matchesInSet_iff.mpr ⟨hmatch, hname⟩⟩
  unbuilt hdeep _ path := Glob.PatternSet.excludes_eq_false_of_not_buildable hdeep path
  reported rule hrule := by
    obtain ⟨p, hp⟩ := exists_compile?_of_faulty_eq_nil hrules hrule
    refine ⟨p, hp, fun entries file hmem hfile hmatch hname => ?_⟩
    have hbroken : rule.IsBrokenBy file := ⟨hfile, ⟨p, hp, hmatch⟩, hname⟩
    rw [fileNamingFindings_eq_flatMap]
    exact List.mem_flatMap.mpr ⟨file, hmem, List.mem_map.mpr
      ⟨rule, List.mem_filter.mpr ⟨hrule, decide_eq_true hbroken⟩, rfl⟩⟩

/-- The problems of a configuration are its empty lists and the globs that do not compile, and
without problems no rule is passed over at run time. -/
theorem problems_tell_lost_rules (config : Config) :
    config.TellsProblems ∧ (config.problems = [] → config.KeepsRules) := by
  refine ⟨config.tellsProblems, fun hnone => ?_⟩
  have hcount := config.tellsProblems.count
  rw [hnone, List.length_nil] at hcount
  exact keepsRules (List.length_eq_zero_iff.mp (by omega)) (List.length_eq_zero_iff.mp (by omega))

end Config

/-- A configuration that ignores a subtree and has a rule for the names of source files. -/
def sourceConfig : Config :=
  ⟨none, ⟨none, some [⟨"src/*", .camel, none⟩], none⟩, ["dist/**"], .error⟩

/-- The subtree is ignored, and a name that breaks the rule is reported. -/
theorem problems_tell_lost_rules_sample :
    sourceConfig.problems = [] ∧
      (Validator.ofConfig sourceConfig "/").scanner.isIgnored "dist/main.js" = true ∧
      ∃ f ∈ fileNamingFindings [.ofPath "src/my-file.ts" false] sourceConfig,
        f.expected = some "myFile.ts" := by
  have hnone : sourceConfig.problems = [] := by decide +kernel
  have hkept := sourceConfig.problems_tell_lost_rules.2 hnone
  obtain ⟨-, hignored⟩ := hkept.ignored "dist/**" (by decide)
  obtain ⟨p, hp, hreported⟩ := hkept.reported ⟨"src/*", .camel, none⟩ (by decide)
  obtain rfl : p = ⟨"src/*", _⟩ := Option.some.inj (hp.symm.trans (by rfl))
  refine ⟨hnone, ?_, _, hreported _ (.ofPath "src/my-file.ts" false) (List.mem_singleton_self _) rfl
    (by decide +kernel) (by decide +kernel), by decide +kernel⟩
  exact hignored (by decide +kernel) _ (.itself rfl) "/" "dist/main.js" (by decide +kernel)
    (.inl (by decide))

/-- A configuration with an ignored pattern next to one that nests too deep. -/
def deepConfig : Config := ⟨none, .empty, ["a", Glob.bracedText Glob.maxNesting], .error⟩

/-- A pattern that nests too deep is no problem of a configuration, and what the pattern next to it
matches is not ignored anywhere. -/
theorem deep_pattern_loses_ignored :
    deepConfig.problems = [] ∧ "a" ∈ deepConfig.ignore ∧
      (∃ p, Pattern.compile? "a" = some p ∧ p.matches "a" = true) ∧
      ∀ root, (Validator.ofConfig deepConfig root).scanner.isIgnored "a" = false := by
  have hcompiles : ∀ text ∈ deepConfig.ignore, (Pattern.compile? text).isNone = false := by
    intro text htext
    rcases List.mem_pair.mp htext with rfl | rfl
    · rfl
    · rw [Glob.compile?_bracedText, Option.isNone_some]
  have hnone : deepConfig.faultyIgnored = [] :=
    List.filter_eq_nil_iff.mpr fun text htext => by simp [hcompiles text htext]
  have hcount := deepConfig.tellsProblems.count
  rw [hnone] at hcount
  have hdeep : ¬Buildable deepConfig.ignore :=
    Glob.not_buildable_of_bracedText_mem (List.mem_pair.mpr (.inr rfl)) (Nat.le_refl _)
  refine ⟨List.length_eq_zero_iff.mp hcount, List.mem_cons_self, ⟨_, rfl, by decide +kernel⟩,
    fun root => ?_⟩
  exact Glob.PatternSet.excludes_eq_false_of_not_buildable hdeep "a"

end ProjectLayout
