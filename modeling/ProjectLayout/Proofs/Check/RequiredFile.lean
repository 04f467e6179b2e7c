import ProjectLayout.Proofs.Check.Colocation
import ProjectLayout.Proofs.Glob.Literal

/-!
# Required files of a component

The name of a component is put into the pattern of a required file as it is, and the result is read
as a glob.

* `exists_missingFile_iff` — when the check reports a required file as missing.
* `exists_misjudged` — a component name that means something to a glob is misjudged.
* `required_file_judged_by_name` — all other components are judged by the names of their files.
-/

namespace ProjectLayout

open Disk
open Glob (isSpecial)
open Scan (Scanner Entry joinRelative)
open Text

/-! ## Expected names -/

/-- A star in front of a text without stars becomes the name of the component. -/
theorem fillStars_star_append (component : String) {suffix : String}
    (h : '*' ∉ suffix.toList) : fillStars component ("*" ++ suffix) = component ++ suffix := by
  have hkeep (s : List Char) (hs : '*' ∉ s) :
      (s.flatMap fun c => if c = '*' then component.toList else [c]) = s := by
    induction s with
    | nil => rfl
    | cons c s ih =>
      simp only [List.mem_cons, not_or] at hs
      rw [List.flatMap_cons, if_neg (Ne.symm hs.1), ih hs.2]
      rfl
  apply String.toList_inj.mp
  rw [fillStars, String.toList_ofList, String.toList_append, List.flatMap_append, hkeep _ h]
  simp

/-- Whether a finding is about the missing file `expected`. -/
def Finding.Misses (f : Finding) (expected : String) : Prop :=
  f.kind = .missingFile ∧ f.expected = some expected

/-- A required file is reported as missing exactly if the expected text compiles and its pattern
matches no file. -/
theorem exists_missingFile_iff {rules : ColocationRules} {severity : Severity} {dir : String}
    {contents : List Entry} {required : FilePattern}
    (hmain : hasMainFile (Entry.ofPath dir true).name contents = true)
    (hmem : required ∈ rules.requiredFiles) (hrequired : required.required = true)
    {expected : String}
    (hexpected : fillStars (Entry.ofPath dir true).name required.pattern = expected) :
    (∃ f ∈ componentFindings rules severity dir contents, f.Misses expected) ↔
      ∃ p, Glob.Pattern.compile? expected = some p ∧
        ∀ e ∈ contents, e.isDirectory = false → p.matches e.name = false := by
  constructor
  · rintro ⟨f, hf, hkind, hfile⟩
    rcases (mem_componentFindings.mp hf).2 with ⟨other, -, -, hf⟩ | ⟨convention, -, hf⟩
    · obtain ⟨hp, hfinding⟩ := missingFile?_eq_some_iff.mp hf
      rw [hfinding] at hfile
      rwa [← Option.some.inj hfile]
    · rw [directoryNaming?_eq_some hf] at hkind
      simp [Finding.directoryNaming] at hkind
  · intro hp
    refine ⟨.missingFile severity dir (required.description.getD expected) expected,
      mem_componentFindings.mpr ⟨hmain, .inl ⟨required, hmem, hrequired, ?_⟩⟩, rfl, rfl⟩
    rw [missingFile?_eq_some_iff, hexpected]
    exact ⟨hp, rfl⟩

/-- The findings about a component directory are those of its own listing. -/
theorem exists_colocationFindings_iff {scanner : Scanner} {disk : Disk} {config : Config}
    {rules : ColocationRules} (hrules : config.rules.colocation = some rules)
    (henabled : rules.enabled = true) {dir : String}
    (hdir : dir ∈ scanner.componentDirectories disk rules.componentDirs) {p : Finding → Prop} :
    (∃ f ∈ colocationFindings scanner disk config, f.directory = some dir ∧ p f) ↔
      ∃ f ∈ componentFindings rules config.severity dir (scanner.listOneLevel disk dir), p f := by
  constructor
  · rintro ⟨f, hf, hfd, hp⟩
    obtain ⟨others, hothers, -, dir', -, hf⟩ := mem_colocationFindings.mp hf
    rw [hrules] at hothers
    rw [directory_of_mem_componentFindings hf] at hfd
    rw [← Option.some.inj hothers, Option.some.inj hfd] at hf
    exact ⟨f, hf, hp⟩
  · rintro ⟨f, hf, hp⟩
    exact ⟨f, mem_colocationFindings.mpr ⟨rules, hrules, henabled, dir, hdir, hf⟩,
      directory_of_mem_componentFindings hf, hp⟩

/-! ## Listings -/

/-- The files with some names in a directory. -/
def filesIn (dir : String) (names : List String) : List Entry :=
  names.map fun name => Entry.ofPath (joinRelative dir name) false

theorem name_ofPath_joinRelative (dir : String) {name : String} (h : '/' ∉ name.toList) :
    (Entry.ofPath (joinRelative dir name) false).name = name := by
  have hname (path : String) : (Entry.ofPath path false).name =
      String.ofList ((cutAtLast '/' path.toList).getD ([], path.toList)).2 := rfl
  rw [hname, joinRelative]
  split
  · rw [cutAtLast_eq_none.mpr h, Option.getD_none, String.ofList_toList]
  · have hcut : cutAtLast '/' (dir ++ "/" ++ name).toList = some (dir.toList, name.toList) := by
      rw [← cutAtLast_append dir.toList h]
      simp
    rw [hcut, Option.getD_some, String.ofList_toList]

theorem forall_filesIn (dir : String) {names : List String} (h : ∀ n ∈ names, IsEntryName n)
    (q : String → Prop) :
    (∀ e ∈ filesIn dir names, e.isDirectory = false → q e.name) ↔ ∀ n ∈ names, q n := by
  rw [filesIn, List.forall_mem_map]
  constructor
  · intro hq n hn
    have hqn := hq n hn (Entry.isDirectory_ofPath _ _)
    rwa [name_ofPath_joinRelative dir (h n hn).2] at hqn
  · intro hq n hn _
    rw [name_ofPath_joinRelative dir (h n hn).2]
    exact hq n hn

theorem stemOf_append (stem : String) {c : Char} (hdot : c ≠ '.') (hslash : c ≠ '/') :
    stemOf (stem ++ String.ofList ['.', c]) = stem.toList := by
  have hcut : cutAtLast '.' (stem ++ String.ofList ['.', c]).toList = some (stem.toList, [c]) := by
    rw [String.toList_append, String.toList_ofList]
    exact cutAtLast_append stem.toList (by simpa using hdot.symm)
  rw [stemOf, Naming.splitExtension, hcut]
  simp [hslash.symm]

/-! ## Special names -/

/-- A component name with a special character in it is misjudged in some directory: the expected
file is there and reported as missing, or it is missing and not reported. -/
theorem exists_misjudged {component suffix : String} (hslash : '/' ∉ component.toList)
    (hsuffix : '/' ∉ suffix.toList) (h : component.toList.any isSpecial = true) :
    ∃ names : List String, names.Nodup ∧ (∀ n ∈ names, IsEntryName n) ∧
      (∃ n ∈ names, stemOf n = component.toList) ∧
      ¬((∃ p, Glob.Pattern.compile? (component ++ suffix) = some p ∧
          ∀ n ∈ names, p.matches n = false) ↔ ∀ n ∈ names, n ≠ component ++ suffix) := by
  have hspecial (ending : String) : (component ++ ending).toList.any isSpecial = true := by
    rw [String.toList_append, List.any_append, h, Bool.true_or]
  have hentry (ending : String) (he : '/' ∉ ending.toList) : IsEntryName (component ++ ending) :=
    Glob.isEntryName_of_isSpecial (by simp [hslash, he]) (hspecial ending)
  obtain ⟨main, hmain, hstem, hne⟩ : ∃ main, IsEntryName main ∧ stemOf main = component.toList ∧
      main ≠ component ++ suffix := by
    by_cases hx : suffix = ".x"
    · refine ⟨component ++ ".y", hentry ".y" (by decide), stemOf_append component (by decide)
        (by decide), fun heq => ?_⟩
      rw [hx] at heq
      exact absurd (String.append_right_inj component |>.mp heq) (by decide)
    · exact ⟨component ++ ".x", hentry ".x" (by decide), stemOf_append component (by decide)
        (by decide), fun heq => hx (String.append_right_inj component |>.mp heq).symm⟩
  have hexpected := hentry suffix hsuffix
  cases hcompile : Glob.Pattern.compile? (component ++ suffix) with
  | none =>
    exact ⟨[main], by simp, by simpa using hmain, ⟨main, by simp, hstem⟩, by simpa using hne⟩
  | some p =>
    by_cases hmatch : p.matches main = true
    · exact ⟨[main], by simp, by simpa using hmain, ⟨main, by simp, hstem⟩, by simp [hmatch, hne]⟩
    by_cases hself : p.matches (component ++ suffix) = true
    · obtain ⟨other, hother, hdiff, hom⟩ :=
        Glob.exists_other_match hcompile hexpected.2 (hspecial suffix) hself
      have hmo : main ≠ other := by
        rintro rfl
        exact hmatch hom
      exact ⟨[main, other], by simp [hmo], by simp [hmain, hother], ⟨main, by simp, hstem⟩,
        by simp [hom, hne, hdiff]⟩
    · exact ⟨[main, component ++ suffix], by simp [hne], by simp [hmain, hexpected],
        ⟨main, by simp, hstem⟩, by simp [hmatch, hself]⟩

theorem hasMainFile_filesIn {component dir : String} {names : List String}
    (hnames : ∀ n ∈ names, IsEntryName n) (h : ∃ n ∈ names, stemOf n = component.toList) :
    hasMainFile component (filesIn dir names) = true := by
  obtain ⟨n, hn, hstem⟩ := h
  refine List.any_eq_true.mpr ⟨_, List.mem_map.mpr ⟨n, hn, rfl⟩, ?_⟩
  rw [name_ofPath_joinRelative dir (hnames n hn).2, hstem, Entry.isDirectory_ofPath]
  simp

/-- A required file is judged by its literal name exactly in components whose names mean nothing
to a glob. -/
theorem required_file_judged_by_name (scanner : Scanner) (disk : Disk) (config : Config)
    {rules : ColocationRules} (hrules : config.rules.colocation = some rules)
    (henabled : rules.enabled = true) {dir component : String}
    (hdir : dir ∈ scanner.componentDirectories disk rules.componentDirs)
    (hcomponent : (Entry.ofPath dir true).name = component)
    (hmain : hasMainFile component (scanner.listOneLevel disk dir) = true)
    {required : FilePattern} (hmem : required ∈ rules.requiredFiles)
    (hrequired : required.required = true) {suffix : String}
    (hpattern : required.pattern = "*" ++ suffix) (hslash : '/' ∉ suffix.toList)
    (hsuffix : suffix.toList.any isSpecial = false) :
    (component.toList.any isSpecial = false →
      ((∃ f ∈ colocationFindings scanner disk config,
          f.directory = some dir ∧ f.Misses (component ++ suffix)) ↔
        ∀ e ∈ scanner.listOneLevel disk dir,
          e.isDirectory = false → e.name ≠ component ++ suffix)) ∧
    (component.toList.any isSpecial = true →
      ∃ names : List String, names.Nodup ∧ (∀ n ∈ names, IsEntryName n) ∧
        hasMainFile component (filesIn dir names) = true ∧
        ¬((∃ f ∈ componentFindings rules config.severity dir (filesIn dir names),
            f.Misses (component ++ suffix)) ↔
          ∀ e ∈ filesIn dir names, e.isDirectory = false → e.name ≠ component ++ suffix)) := by
  have hstar : '*' ∉ suffix.toList := fun hm =>
    absurd (List.any_eq_false.mp hsuffix _ hm) (by decide)
  have hexpected :
      fillStars (Entry.ofPath dir true).name required.pattern = component ++ suffix := by
    rw [hpattern, fillStars_star_append _ hstar, hcomponent]
  have hcslash : '/' ∉ component.toList := hcomponent ▸ Entry.slash_not_mem_name dir true
  constructor
  · intro hliteral
    have hplain : (component ++ suffix).toList.any isSpecial = false := by
      rw [String.toList_append, List.any_append, hliteral, hsuffix]
      rfl
    obtain ⟨p, hp, hmatches⟩ := Glob.matches_iff_eq_of_not_special hplain
    rw [exists_colocationFindings_iff hrules henabled hdir,
      exists_missingFile_iff (hcomponent ▸ hmain) hmem hrequired hexpected, hp]
    simp only [Option.some.injEq, exists_eq_left']
    refine forall_congr' fun e => forall_congr' fun he => forall_congr' fun _ => ?_
    rw [← Bool.not_eq_true, hmatches e.name (Scanner.slash_not_mem_name_of_mem he)]
  · intro hspecial
    obtain ⟨names, hnodup, hnames, hstem, hwrong⟩ := exists_misjudged hcslash hslash hspecial
    refine ⟨names, hnodup, hnames, hasMainFile_filesIn hnames hstem, ?_⟩
    rw [exists_missingFile_iff (hcomponent ▸ hasMainFile_filesIn hnames hstem) hmem hrequired
      hexpected]
    have hnone (p : Glob.Pattern) := forall_filesIn dir hnames (p.matches · = false)
    simp only [hnone]
    rw [forall_filesIn dir hnames (· ≠ component ++ suffix)]
    exact hwrong

theorem untested_button_reported :
    ∃ f ∈ colocationFindings (.ofPatterns "/" []) untestedButton (requiring "*.test.tsx" []),
      f.directory = some "src/components/Button" ∧ f.Misses "Button.test.tsx" := by
  have hlisting : (Scanner.ofPatterns "/" []).listOneLevel untestedButton "src/components/Button" =
      [Entry.ofPath "src/components/Button/Button.tsx" false] := by
    decide +kernel
  have hdir : "src/components/Button" ∈ (Scanner.ofPatterns "/" []).componentDirectories
      untestedButton ["src/components"] := by
    decide +kernel
  have hname : (Entry.ofPath "src/components/Button" true).name = "Button" := by decide +kernel
  have hmain : hasMainFile "Button" ((Scanner.ofPatterns "/" []).listOneLevel untestedButton
      "src/components/Button") = true := by
    rw [hlisting]
    decide +kernel
  have hpattern : "*.test.tsx" = "*" ++ ".test.tsx" := rfl
  have hjudged := required_file_judged_by_name (.ofPatterns "/" []) untestedButton
    (requiring "*.test.tsx" []) rfl rfl hdir hname hmain (List.mem_singleton_self _) rfl hpattern
    (by decide) (by decide)
  refine (hjudged.1 (by decide)).mpr ?_
  rw [hlisting]
  decide +kernel

/-- The test and the main file of a component whose name is a character class. -/
def routeFiles : List (Name × Node) := [("[id].test.tsx", .emptyFile), ("[id].tsx", .emptyFile)]

/-- A project with that component. -/
def routeComponent : Disk :=
  .ofTree (.dir [("src", .dir [("components", .dir [("[id]", .dir routeFiles)])])])

theorem listOneLevel_routeComponent :
    (Scanner.ofPatterns "/" []).listOneLevel routeComponent "src/components/[id]" =
      [Entry.ofPath "src/components/[id]/[id].test.tsx" false,
        Entry.ofPath "src/components/[id]/[id].tsx" false] := by
  have hlist : routeComponent.list
      ((Scanner.ofPatterns "/" []).diskPath "src/components/[id]") = .ok routeFiles := by
    with_unfolding_all rfl
  exact Scanner.listOneLevel_eq_filterMap hlist (by decide +kernel)

/-- The test of a component is there and reported as missing. -/
theorem route_reported_though_present :
    Entry.ofPath "src/components/[id]/[id].test.tsx" false ∈
        (Scanner.ofPatterns "/" []).listOneLevel routeComponent "src/components/[id]" ∧
      (Entry.ofPath "src/components/[id]/[id].test.tsx" false).name = "[id].test.tsx" ∧
      colocationFindings (.ofPatterns "/" []) routeComponent (requiring "*.test.tsx" []) =
        [.missingFile .error "src/components/[id]" "[id].test.tsx" "[id].test.tsx"] := by
  have hdirs : (Scanner.ofPatterns "/" []).componentDirectories routeComponent ["src/components"] =
      ["src/components/[id]"] := by decide +kernel
  refine ⟨?_, by decide +kernel, ?_⟩
  · rw [listOneLevel_routeComponent]
    exact List.mem_cons_self
  · unfold colocationFindings
    simp only [requiring, if_true, hdirs, List.flatMap_cons, listOneLevel_routeComponent]
    decide +kernel

end ProjectLayout
