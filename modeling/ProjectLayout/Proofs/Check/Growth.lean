import ProjectLayout.Proofs.Check.RequiredFile
import ProjectLayout.Proofs.Scan.Growth

/-!
# Components that get a file

A file that is put into a directory is of concern to the component there and to no other.  It may
supply what was missing; it may make a component of the directory, as its main file; and it never
adds a finding to a component that had its main file before.

* `componentFindings_sublist` — a component with more files has a part of the findings.
* `filter_naming_componentFindings` — what is found against its name is the same.
* `filter_flatMap_componentFindings` — the findings of some of the components.
* `FileHelps`, `adding_file_helps` — the findings before and after a file is put into a directory.
-/

namespace ProjectLayout

open Disk
open Scan (Scanner Entry IsPlainPath joinRelative normalizeRelative)
open Text (lowercase)

/-! ## One component -/

section Component

variable {contents more : List Entry} {rules : ColocationRules} {severity : Severity}
  {dir component : String}

theorem hasMainFile_iff : hasMainFile component contents = true ↔
    ∃ e ∈ contents, e.isDirectory = false ∧
      lowercase (stemOf e.name) = lowercase component.toList := by
  simp [hasMainFile]

theorem hasMainFile_of_subset (h : ∀ e ∈ contents, e ∈ more)
    (hmain : hasMainFile component contents = true) : hasMainFile component more = true := by
  obtain ⟨e, he, hfile⟩ := hasMainFile_iff.mp hmain
  exact hasMainFile_iff.mpr ⟨e, h e he, hfile⟩

theorem componentFindings_of_main
    (hmain : hasMainFile (Entry.ofPath dir true).name contents = true) :
    componentFindings rules severity dir contents =
      (rules.requiredFiles.filter (·.required)).filterMap
          (missingFile? severity dir (Entry.ofPath dir true).name contents) ++
        (rules.convention.bind
          (directoryNaming? severity dir (Entry.ofPath dir true).name)).toList := by
  rw [componentFindings]
  exact if_pos hmain

theorem componentFindings_eq_nil
    (hmain : hasMainFile (Entry.ofPath dir true).name contents = false) :
    componentFindings rules severity dir contents = [] := by
  rw [componentFindings]
  exact if_neg (by simp [hmain])

/-- A component with its main file has no findings that it did not have with fewer files. -/
theorem componentFindings_sublist (h : ∀ e ∈ contents, e ∈ more)
    (hmain : hasMainFile (Entry.ofPath dir true).name contents = true) :
    (componentFindings rules severity dir more).Sublist
      (componentFindings rules severity dir contents) := by
  rw [componentFindings_of_main hmain, componentFindings_of_main (hasMainFile_of_subset h hmain)]
  refine List.Sublist.append (Scan.filterMap_sublist_filterMap (fun required f hf => ?_) _)
    (List.Sublist.refl _)
  obtain ⟨⟨pattern, hcompiled, hnone⟩, hfinding⟩ := missingFile?_eq_some_iff.mp hf
  exact missingFile?_eq_some_iff.mpr
    ⟨⟨pattern, hcompiled, fun e he => hnone e (h e he)⟩, hfinding⟩

/-- Against the name of a component there is what its convention says, whatever files it holds. -/
theorem filter_naming_componentFindings
    (hmain : hasMainFile (Entry.ofPath dir true).name contents = true) :
    (componentFindings rules severity dir contents).filter (·.kind == .namingViolation) =
      (rules.convention.bind
        (directoryNaming? severity dir (Entry.ofPath dir true).name)).toList := by
  rw [componentFindings_of_main hmain, List.filter_append, List.filter_eq_nil_iff.mpr,
    List.nil_append, List.filter_eq_self.mpr]
  · intro f hf
    obtain ⟨convention, -, hf⟩ := Option.bind_eq_some_iff.mp (Option.mem_toList.mp hf)
    rw [directoryNaming?_eq_some hf]
    rfl
  · intro f hf
    obtain ⟨required, -, hf⟩ := List.mem_filterMap.mp hf
    rw [(missingFile?_eq_some_iff.mp hf).2]
    exact Bool.false_ne_true

end Component

/-! ## All components -/

/-- The findings about a directory. -/
def findingsIn (dir : String) (findings : List Finding) : List Finding :=
  findings.filter (·.directory == some dir)

/-- The findings about anything but a directory. -/
def findingsBeside (dir : String) (findings : List Finding) : List Finding :=
  findings.filter (·.directory != some dir)

section Components

variable {dir : String} (dirs : List String) (rules : ColocationRules) (severity : Severity)
  (listing : String → List Entry)

/-- A test that asks a finding only for its directory keeps all findings of a component or none. -/
theorem filter_flatMap_componentFindings {p : Finding → Bool} {keeps : String → Bool}
    (h : ∀ f other, f.directory = some other → p f = keeps other) :
    (dirs.flatMap fun other => componentFindings rules severity other (listing other)).filter p =
      (dirs.filter keeps).flatMap fun other =>
        componentFindings rules severity other (listing other) := by
  induction dirs with
  | nil => rfl
  | cons other rest ih =>
    have hall (f : Finding) (hf : f ∈ componentFindings rules severity other (listing other)) :
        p f = keeps other := h f other (directory_of_mem_componentFindings hf)
    rw [List.flatMap_cons, List.filter_append, ih]
    cases hkeeps : keeps other with
    | true =>
      rw [List.filter_cons_of_pos hkeeps, List.flatMap_cons]
      exact congrArg (· ++ _) (List.filter_eq_self.mpr fun f hf => (hall f hf).trans hkeeps)
    | false =>
      rw [List.filter_cons_of_neg (by simp [hkeeps]), List.filter_eq_nil_iff.mpr, List.nil_append]
      exact fun f hf => by simp [hall f hf, hkeeps]

theorem findingsIn_flatMap :
    findingsIn dir (dirs.flatMap fun other =>
        componentFindings rules severity other (listing other)) =
      (dirs.filter (· == dir)).flatMap fun other =>
        componentFindings rules severity other (listing other) :=
  filter_flatMap_componentFindings dirs rules severity listing fun f other hf => by simp [hf]

theorem findingsBeside_flatMap :
    findingsBeside dir (dirs.flatMap fun other =>
        componentFindings rules severity other (listing other)) =
      (dirs.filter (· != dir)).flatMap fun other =>
        componentFindings rules severity other (listing other) :=
  filter_flatMap_componentFindings dirs rules severity listing fun f other hf => by simp [hf, bne]

theorem mem_filter_beq {other : String} :
    other ∈ dirs.filter (· == dir) ↔ dir ∈ dirs ∧ other = dir := by
  rw [List.mem_filter, beq_iff_eq]
  exact ⟨fun ⟨hother, heq⟩ => ⟨heq ▸ hother, heq⟩, fun ⟨hdir, heq⟩ => ⟨heq ▸ hdir, heq⟩⟩

end Components

/-- What becomes of the findings about components when a file is put into the directory `dir`,
where `listed` was listed before. -/
structure FileHelps (scanner : Scanner) (dir name : String) (listed : List Entry)
    (before after : List Finding) : Prop where
  /-- Other components are not concerned. -/
  beside : findingsBeside dir after = findingsBeside dir before
  /-- A component with its main file has no more findings than before. -/
  fewer : hasMainFile (Entry.ofPath dir true).name listed = true →
    (findingsIn dir after).Sublist (findingsIn dir before)
  /-- What was found against its name is found again. -/
  naming : hasMainFile (Entry.ofPath dir true).name listed = true →
    (findingsIn dir after).filter (·.kind == .namingViolation) =
      (findingsIn dir before).filter (·.kind == .namingViolation)
  /-- A directory without a main file had no findings. -/
  nothing : hasMainFile (Entry.ofPath dir true).name listed = false → findingsIn dir before = []
  /-- It has findings now only if the new file is its main file and not ignored. -/
  main : hasMainFile (Entry.ofPath dir true).name listed = false → findingsIn dir after ≠ [] →
    scanner.isIgnored (joinRelative dir name) = false ∧
      lowercase (stemOf name) = lowercase (Entry.ofPath dir true).name.toList

theorem fileHelps_nil (scanner : Scanner) (dir name : String) (listed : List Entry) :
    FileHelps scanner dir name listed [] [] where
  beside := rfl
  fewer _ := List.Sublist.refl _
  naming _ := rfl
  nothing _ := rfl
  main _ hsome := absurd rfl hsome

/-- The findings of components whose listings are the same, but for a new file in one of them. -/
theorem fileHelps_of_listings {scanner : Scanner} {dir name : String} {dirs : List String}
    {listing listing' : String → List Entry} (rules : ColocationRules) (severity : Severity)
    (hname : '/' ∉ name.toList)
    (hsame : ∀ other ∈ dirs, other ≠ dir → listing' other = listing other)
    (hkept : dir ∈ dirs → ∀ e ∈ listing dir, e ∈ listing' dir)
    (hgrown : dir ∈ dirs → ∀ e ∈ listing' dir, e ∈ listing dir ∨
      scanner.isIgnored (joinRelative dir name) = false ∧
        e = Entry.ofPath (joinRelative dir name) false) :
    FileHelps scanner dir name (listing dir)
      (dirs.flatMap fun other => componentFindings rules severity other (listing other))
      (dirs.flatMap fun other => componentFindings rules severity other (listing' other)) where
  beside := by
    rw [findingsBeside_flatMap, findingsBeside_flatMap]
    refine List.flatMap_congr fun other hmem => ?_
    obtain ⟨hother, hne⟩ := List.mem_filter.mp hmem
    rw [hsame other hother (bne_iff_ne.mp hne)]
  fewer hmain := by
    rw [findingsIn_flatMap, findingsIn_flatMap]
    refine List.Sublist.flatMap_right _ fun other hmem => ?_
    obtain ⟨hdir, rfl⟩ := (mem_filter_beq dirs).mp hmem
    exact componentFindings_sublist (hkept hdir) hmain
  naming hmain := by
    rw [findingsIn_flatMap, findingsIn_flatMap, List.filter_flatMap, List.filter_flatMap]
    refine List.flatMap_congr fun other hmem => ?_
    obtain ⟨hdir, rfl⟩ := (mem_filter_beq dirs).mp hmem
    rw [filter_naming_componentFindings hmain,
      filter_naming_componentFindings (hasMainFile_of_subset (hkept hdir) hmain)]
  nothing hmain := by
    rw [findingsIn_flatMap]
    refine List.flatMap_eq_nil_iff.mpr fun other hmem => ?_
    obtain ⟨-, rfl⟩ := (mem_filter_beq dirs).mp hmem
    exact componentFindings_eq_nil hmain
  main hmain hsome := by
    rw [findingsIn_flatMap] at hsome
    obtain ⟨f, hf⟩ := List.exists_mem_of_ne_nil _ hsome
    obtain ⟨other, hmem, hfound⟩ := List.mem_flatMap.mp hf
    obtain ⟨hdir, rfl⟩ := (mem_filter_beq dirs).mp hmem
    obtain ⟨e, he, hfile, hstem⟩ := hasMainFile_iff.mp (mem_componentFindings.mp hfound).1
    rcases hgrown hdir e he with he | ⟨hignored, rfl⟩
    · -- a main file that was there before
      rw [hasMainFile_iff.mpr ⟨e, he, hfile, hstem⟩] at hmain
      cases hmain
    · rw [name_ofPath_joinRelative other hname] at hstem
      exact ⟨hignored, hstem⟩

/-- A project with the components `Button`, which holds some files, and `Home`. -/
def buttonProject (files : List (Name × Node)) : Node :=
  .dir [("src", .dir [("components", .dir [("Button", .dir files)]),
    ("pages", .dir [("Home", .dir [("Home.tsx", .emptyFile)])])])]

/-- The names down to `Button`. -/
def buttonNames : List Name := ["src", "components", "Button"]

theorem insertAt_buttonProject {files : List (Name × Node)} {name : Name}
    (hnew : files.lookup name = none) :
    (Node.file .empty).insertAt (buttonNames ++ [name]) (buttonProject files) =
      buttonProject (files ++ [(name, .emptyFile)]) := by
  simp [buttonNames, Node.insertAt, buttonProject, Node.entries, Node.setEntry,
    Node.setEntry_of_lookup_eq_none hnew, Node.emptyFile]

/-- The configuration that asks each component in both directories for its types. -/
def typedComponents : Config :=
  { requiring "" [] with
    rules.colocation :=
      some ⟨true, ["src/components", "src/pages"], [⟨"*.types.ts", true, none⟩], none⟩ }

/-- The findings of a component without its types. -/
def untyped (dir component : String) : Finding :=
  .missingFile .error dir (component ++ ".types.ts") (component ++ ".types.ts")

/-- The project with the main file of its component and the types. -/
def typedProject : Node :=
  buttonProject [("Button.tsx", .emptyFile), ("Button.types.ts", .emptyFile)]

theorem listOneLevel_typedProject :
    Scanner.listOneLevel (.ofPatterns "/" []) (.ofTree typedProject) "src/components/Button" =
      [Entry.ofPath "src/components/Button/Button.tsx" false,
        Entry.ofPath "src/components/Button/Button.types.ts" false] := by
  have hpath : pathOf ["src", "components", "Button"] = "src/components/Button" := by decide
  have hroot : Disk.stat? (.ofTree typedProject) "/" = some typedProject := stat?_root rfl
  have hlist : Disk.list (.ofTree typedProject)
      ((Scanner.ofPatterns "/" []).diskPath (pathOf ["src", "components", "Button"])) =
        .ok [("Button.tsx", .emptyFile), ("Button.types.ts", .emptyFile)] :=
    (Scanner.list_pathOf hroot rfl (by decide) (by decide) (by decide) rfl).mpr
      ⟨⟨by decide, rfl⟩, rfl⟩
  rw [hpath] at hlist
  exact Scanner.listOneLevel_eq_filterMap hlist (by decide +kernel)

/-- Only the other component is without its types. -/
theorem colocationFindings_typedProject :
    colocationFindings (.ofPatterns "/" []) (.ofTree typedProject) typedComponents =
      [untyped "src/pages/Home" "Home"] := by
  have hdirs : Scanner.componentDirectories (.ofPatterns "/" []) (.ofTree typedProject)
      ["src/components", "src/pages"] = ["src/components/Button", "src/pages/Home"] := by
    decide +kernel
  unfold colocationFindings
  simp only [typedComponents, if_true, hdirs, List.flatMap_cons, listOneLevel_typedProject]
  decide +kernel

end ProjectLayout
