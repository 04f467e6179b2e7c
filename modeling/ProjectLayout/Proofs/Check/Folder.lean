import ProjectLayout.Proofs.Check.Findings
import ProjectLayout.Proofs.Scan.Probe

/-!
# The files of a folder

Whether a folder exists is asked of the file system, which follows the path of the rule segment by
segment; which files lie in it is read off the text of that path.  The two agree if the path goes
straight down.  A path with a detour in it may lead to the folder, but what is scanned there does
not begin with its text.

* `IsDirect` — whether a path goes straight down.
* `isWithin_of_isName`, `isDirect_of_isWithin` — the text of a path beside its segments.
* `folder_rule_covers_by_spelling` — which files a rule with an existing folder covers.
* `folder_rule_misses_detour` — a rule that is silently off.
-/

namespace ProjectLayout

open Disk Scan

/-! ## Paths as text -/

/-- Whether a path is empty or consists of names, without `.`, `..` and repeated `/`. -/
def IsDirect (path : String) : Prop :=
  path = "" ∨ ∀ segment ∈ pathSegments path, isName segment = true

instance (path : String) : Decidable (IsDirect path) := inferInstanceAs (Decidable (_ ∨ _))

/-- Whether a segment begins with something other than a dot. -/
def IsUndotted (segment : String) : Prop := ∃ c, segment.toList.head? = some c ∧ c ≠ '.'

theorem IsUndotted.isName {segment : String} (h : IsUndotted segment) : isName segment = true := by
  obtain ⟨c, hc, hdot⟩ := h
  have hne (text : String) (htext : text.toList.head?.all (· = '.') = true) : segment ≠ text := by
    rintro rfl
    rw [hc] at htext
    exact hdot (by simpa using htext)
  simp only [Disk.isName, isIdle, Bool.and_eq_true, Bool.not_eq_true', Bool.or_eq_false_iff,
    beq_eq_false_iff_ne, bne_iff_ne]
  exact ⟨⟨hne "" (by decide), hne "." (by decide)⟩, hne ".." (by decide)⟩

theorem isWithin_iff {dir : String} {file : Entry} :
    isWithin dir file = true ↔ dir.toList <+: file.path.toList := List.isPrefixOf_iff_prefix

/-- What is scanned below a folder begins with the path of the folder, if it goes straight down. -/
theorem isWithin_of_isName {path : String}
    (h : ∀ segment ∈ pathSegments (normalizeRelative path), isName segment = true)
    (names : List Name) (isDirectory : Bool) :
    isWithin (normalizeRelative path)
      (Entry.ofPath (reportedPath ((pathSegments (normalizeRelative path)).map .text ++ names))
        isDirectory) = true := by
  have hidle : ∀ segment ∈ pathSegments (normalizeRelative path), isIdle segment = false :=
    fun segment hs => isIdle_eq_false (h segment hs)
  have hbegins := isPrefix_pathOf_append (pathSegments (normalizeRelative path))
    (names.map Name.lossy)
  rw [pathOf_pathSegments] at hbegins
  rw [isWithin_iff, Entry.path_ofPath, reportedPath, List.map_append, Name.map_lossy_map_text]
  exact isPrefix_normalizeRelative (backslash_not_mem_normalizeRelative path) hidle hbegins

/-- Only a path that goes straight down is the beginning of one whose segments do not begin with a
dot. -/
theorem isDirect_of_isWithin {path : String} {file : Entry}
    (hfile : ∀ segment ∈ pathSegments file.path, IsUndotted segment)
    (h : isWithin (normalizeRelative path) file = true) : IsDirect (normalizeRelative path) := by
  by_cases hempty : normalizeRelative path = ""
  · exact .inl hempty
  refine .inr fun segment hs => ?_
  obtain ⟨rest, hrest⟩ := isWithin_iff.mp h
  obtain ⟨front, last, first, back, hdir, -, hpath⟩ :=
    Text.splitOn_append_eq '/' (normalizeRelative path).toList rest
  have hlast : last ≠ [] :=
    Text.last_piece_ne_nil hdir (by simpa using hempty) (getLast?_normalizeRelative_ne path)
  rw [pathSegments, hdir, List.map_append, List.mem_append] at hs
  simp only [pathSegments, ← hrest, hpath, List.map_append, List.mem_append, List.map_cons,
    List.mem_cons] at hfile
  rcases hs with hs | hs
  · exact (hfile segment (.inl hs)).isName
  · -- The last segment of the folder's path is the beginning of one of the file's path.
    obtain rfl : segment = String.ofList last := by simpa using hs
    obtain ⟨c, hc, hdot⟩ := hfile _ (.inr (.inl rfl))
    rw [String.toList_ofList, List.head?_append, Option.or_of_isSome (by simpa using hlast)] at hc
    exact IsUndotted.isName ⟨c, by rwa [String.toList_ofList], hdot⟩

/-! ## Rules -/

/-- Whether findings have all that a rule for a folder says against a file in it. -/
structure FolderRule.Covers (rule : FolderRule) (severity : Severity) (findings : List Finding)
    (file : Entry) : Prop where
  forbidden : ∀ allowed, rule.allowedExtensions = some allowed → file.extension ∉ allowed →
    .forbiddenFile file.path file.extension rule.name allowed ∈ findings
  naming : ∀ convention, rule.convention = some convention → convention.accepts file.name = false →
    .fileNaming severity s!"File in {rule.name} doesn't follow {convention.spelling} convention"
      file.path file.name (convention.suggestion file.name) ∈ findings

variable {scanner : Scanner} {disk : Disk} {rule : FolderRule} {entries : List Entry}
  {file : Entry}

/-- A rule with an existing folder covers the files whose paths begin with that of the folder. -/
theorem covers_of_isWithin (hexists : scanner.hasDirectory disk rule.path = true)
    (hmem : file ∈ entries) (hfile : file.isDirectory = false)
    (hwithin : isWithin (normalizeRelative rule.path) file = true) (severity : Severity) :
    rule.Covers severity (folderFindings scanner disk entries severity rule) file := by
  constructor
  · intro allowed hallowed hext
    exact mem_folderFindings.mpr (.inr ⟨hexists, file, hmem, hfile, hwithin,
      .inl ⟨allowed, hallowed, forbiddenFile?_eq_some_iff.mpr ⟨hext, rfl⟩⟩⟩)
  · intro convention hconvention hname
    exact mem_folderFindings.mpr (.inr ⟨hexists, file, hmem, hfile, hwithin,
      .inr ⟨convention, hconvention, folderNaming?_eq_some_iff.mpr ⟨hname, rfl⟩⟩⟩)

/-- A finding of a rule about a file is about one whose path begins with that of the folder. -/
theorem isWithin_of_mem_folderFindings {severity : Severity} {f : Finding}
    (hf : f ∈ folderFindings scanner disk entries severity rule) (hfile : f.file = some file.path) :
    isWithin (normalizeRelative rule.path) file = true := by
  rcases mem_folderFindings.mp hf with ⟨-, rfl⟩ | ⟨-, other, -, -, hwithin, hother⟩
  · cases hfile
  have hpath : f.file = some other.path := by
    rcases hother with ⟨allowed, -, hf⟩ | ⟨convention, -, hf⟩
    · rw [(forbiddenFile?_eq_some_iff.mp hf).2]
      rfl
    · rw [(folderNaming?_eq_some_iff.mp hf).2]
      rfl
  have hsame : other.path = file.path := Option.some.inj (hpath.symm.trans hfile)
  rw [isWithin_iff, hsame] at hwithin
  exact isWithin_iff.mpr hwithin

/-- A rule covers the files of its folder if its path goes straight down; with a detour in the path
it has nothing against any file whose path has no segment that begins with a dot. -/
theorem folder_rule_covers_by_spelling {tree : Node} {here above : List Name}
    {sub : List (Name × Node)} {rights : Rights}
    (hroot : disk.resolve scanner.root = .ok (here, tree)) (hw : tree.WellFormed)
    (hl : tree.WithoutLinks)
    (hfolder : disk.resolve (scanner.diskPath rule.path) = .ok (here ++ above, .dir sub rights))
    (hscan : scanner.scan disk = .ok entries) (severity : Severity) :
    (IsDirect (normalizeRelative rule.path) →
      ∀ names found file, scanner.Reports tree (above ++ names) found file →
        found.isDir = false →
        rule.Covers severity (folderFindings scanner disk entries severity rule) file) ∧
    (¬ IsDirect (normalizeRelative rule.path) →
      ∀ file : Entry, (∀ segment ∈ pathSegments file.path, IsUndotted segment) →
        ∀ f ∈ folderFindings scanner disk entries severity rule, f.file ≠ some file.path) := by
  constructor
  · intro hdirect names found file hreport hfile
    have hstat : disk.stat? scanner.root = some tree := stat?_eq_some_iff.mpr ⟨here, hroot⟩
    obtain rfl := Scanner.below_eq_of_scan hstat hscan
    have hexists : scanner.hasDirectory disk rule.path = true := by
      rw [Scanner.hasDirectory, Disk.isDirectory, stat?_eq_some_iff.mpr ⟨_, hfolder⟩]
      rfl
    have hmem := (Scanner.mem_below_root_iff_reports hw).mpr ⟨_, _, hreport⟩
    refine covers_of_isWithin hexists hmem ?_ ?_ severity
    · rw [hreport.entry_eq, Entry.isDirectory_ofPath, hfile]
    · rcases hdirect with hempty | hnames
      · rw [isWithin_iff, hempty]
        exact List.nil_prefix
      · have habs := isAbsolute_of_not_isIdle fun segment hs => isIdle_eq_false (hnames segment hs)
        have habove := eq_append_of_resolve_joinPath hroot hl habs hnames hfolder
        rw [hreport.entry_eq, List.append_cancel_left habove]
        exact isWithin_of_isName hnames names found.isDir
  · intro hdetour file hfile f hf hsame
    exact hdetour (isDirect_of_isWithin hfile (isWithin_of_mem_folderFindings hf hsame))

/-- A project with one folder and a file in it. -/
def hooksTree : Node := .dir [("src", .dir [("hooks", .dir [("notes.md", .emptyFile)])])]

/-- A rule that allows only `.ts` files in a folder. -/
def hooksRule (path : String) : FolderRule := ⟨"hooks", path, none, some [".ts"]⟩

theorem below_hooksTree :
    (Scanner.ofPatterns "/" []).below hooksTree =
      [Entry.ofPath "src" true, Entry.ofPath "src/hooks" true,
        Entry.ofPath "src/hooks/notes.md" false] := by
  have hkept (path : String) : (Scanner.ofPatterns "/" []).isIgnored path = false := rfl
  have hfits : (Scanner.ofPatterns "/" []).fitsAt [] = true ∧
      (Scanner.ofPatterns "/" []).fitsAt ["src"] = true ∧
      (Scanner.ofPatterns "/" []).fitsAt ["src", "hooks"] = true := by decide
  simp only [hooksTree, Node.emptyFile, Scanner.below, Scanner.places, Scanner.blocks, sortByName,
    hkept, hfits, List.nil_append, List.cons_append, Bool.and_self, if_true, Bool.false_eq_true,
    if_false, List.mergeSort_singleton, List.flatMap_singleton]
  decide

theorem folder_rule_covers_hooks :
    ∃ entries, (Scanner.ofPatterns "/" []).scan (.ofTree hooksTree) = .ok entries ∧
      .forbiddenFile "src/hooks/notes.md" ".md" "hooks" [".ts"] ∈
        folderFindings (Scanner.ofPatterns "/" []) (.ofTree hooksTree) entries .error
          (hooksRule "src/hooks") := by
  have hroot : Disk.resolve (.ofTree hooksTree) "/" = .ok ([], hooksTree) := rfl
  have hfolder : Disk.resolve (.ofTree hooksTree)
      ((Scanner.ofPatterns "/" []).diskPath (hooksRule "src/hooks").path) =
        .ok ([] ++ (["src", "hooks"] : List Name), .dir [("notes.md", .emptyFile)]) := rfl
  have hscan : (Scanner.ofPatterns "/" []).scan (.ofTree hooksTree) =
      .ok ((Scanner.ofPatterns "/" []).below hooksTree) :=
    Scanner.scan_eq_below (stat?_root rfl) rfl rfl
  have hreport : (Scanner.ofPatterns "/" []).Reports hooksTree
      ((["src", "hooks"] : List Name) ++ (["notes.md"] : List Name)) .emptyFile
      (Entry.ofPath "src/hooks/notes.md" false) :=
    ⟨by simp, rfl, (Scanner.reaches_root_iff (by decide)).mpr ⟨by decide, by decide⟩, rfl⟩
  obtain ⟨hcovers, -⟩ :=
    folder_rule_covers_by_spelling hroot (by decide) (by decide) hfolder hscan .error
  exact ⟨_, hscan, (hcovers (by decide) _ _ _ hreport rfl).forbidden [".ts"] rfl (by decide)⟩

/-- A detour in the path of a rule leads to the folder but to no finding about the file in it. -/
theorem folder_rule_misses_detour :
    ∃ entries, (Scanner.ofPatterns "/" []).scan (.ofTree hooksTree) = .ok entries ∧
      Entry.ofPath "src/hooks/notes.md" false ∈ entries ∧
      (Scanner.ofPatterns "/" []).hasDirectory (.ofTree hooksTree) "./src/hooks" = true ∧
      Disk.resolve (.ofTree hooksTree) ((Scanner.ofPatterns "/" []).diskPath "./src/hooks") =
        .ok (["src", "hooks"], .dir [("notes.md", .emptyFile)]) ∧
      (Entry.ofPath "src/hooks/notes.md" false).extension ∉ [".ts"] ∧
      folderFindings (Scanner.ofPatterns "/" []) (.ofTree hooksTree) entries .error
        (hooksRule "./src/hooks") = [] := by
  have hexists : (Scanner.ofPatterns "/" []).hasDirectory (.ofTree hooksTree)
      (hooksRule "./src/hooks").path = true := by decide
  refine ⟨_, Scanner.scan_eq_below (stat?_root rfl) rfl rfl, ?_⟩
  rw [below_hooksTree, folderFindings, if_pos hexists]
  exact ⟨by decide, hexists, rfl, by decide, by decide⟩

end ProjectLayout
