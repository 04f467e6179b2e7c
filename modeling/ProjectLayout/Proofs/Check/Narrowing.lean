import ProjectLayout.Proofs.Glob.Excluding
import ProjectLayout.Proofs.Run
import ProjectLayout.Proofs.Scan.Narrowing

/-!
# Reports of configurations that ignore more

With more patterns to ignore fewer files are scanned, and fewer are reported for their names or
for their place; the folders that are missing stay the same.  The set of patterns has to be built
for that: a pattern that nests too deep keeps it from being built, and then nothing is ignored.

* `Config.ignoring` — a configuration with more patterns to ignore.
* `ReportsLess` — that one configuration reports a part of what another reports.
* `ignoring_more_reports_less` — when more patterns mean a smaller report, and when a larger one.
* `deep_pattern_scans_more` — a pattern too deep for a set undoes the patterns before it.
-/

namespace ProjectLayout

open Scan (Scanner Entry)
open Glob (Buildable)

/-- The configuration with more patterns to ignore. -/
def Config.ignoring (config : Config) (extra : List String) : Config :=
  { config with ignore := config.ignore ++ extra }

/-- Whether a finding is about a directory that a rule requires and that does not exist. -/
def Finding.isMissingDirectory (f : Finding) : Bool := f.kind == .structureViolation

/-! ## Checks on fewer entries -/

section Checks

variable {narrow wide : Scanner} {disk : Disk} {kept listed : List Entry}
variable (config : Config)

theorem fileNamingFindings_sublist (h : kept.Sublist listed) :
    (fileNamingFindings kept config).Sublist (fileNamingFindings listed config) := by
  unfold fileNamingFindings
  split
  · exact List.Sublist.refl _
  · exact (h.filter _).flatMap _

theorem folderContentFindings_sublist (h : kept.Sublist listed) (rule : FolderRule)
    (severity : Severity) :
    (folderContentFindings rule severity kept).Sublist
      (folderContentFindings rule severity listed) := by
  unfold folderContentFindings
  dsimp only
  refine List.Sublist.append ?_ ?_
  · cases rule.allowedExtensions with
    | none => exact List.Sublist.refl _
    | some allowed => exact (h.filter _).filterMap _
  · cases rule.convention with
    | none => exact List.Sublist.refl _
    | some convention => exact (h.filter _).filterMap _

theorem folderStructureFindings_sublist (hscanner : narrow.Narrows wide)
    (h : kept.Sublist listed) :
    (folderStructureFindings narrow disk kept config).Sublist
      (folderStructureFindings wide disk listed config) := by
  refine List.Sublist.flatMap_right _ fun rule _ => ?_
  unfold folderFindings
  rw [hscanner.hasDirectory]
  split
  · exact folderContentFindings_sublist h rule config.severity
  · exact List.Sublist.refl _

/-- A folder that exists has no finding about a missing directory. -/
theorem filter_folderContentFindings (rule : FolderRule) (severity : Severity)
    (entries : List Entry) :
    (folderContentFindings rule severity entries).filter Finding.isMissingDirectory = [] := by
  refine List.filter_eq_nil_iff.mpr fun f hf => ?_
  obtain ⟨file, -, -, -, hf⟩ := mem_folderContentFindings.mp hf
  rcases hf with ⟨allowed, -, hf⟩ | ⟨convention, -, hf⟩
  · rw [(forbiddenFile?_eq_some_iff.mp hf).2]
    exact nofun
  · rw [(folderNaming?_eq_some_iff.mp hf).2]
    exact nofun

/-- Whether a directory is missing does not depend on what is ignored. -/
theorem filter_folderStructureFindings (hscanner : narrow.Narrows wide) :
    (folderStructureFindings narrow disk kept config).filter Finding.isMissingDirectory =
      (folderStructureFindings wide disk listed config).filter Finding.isMissingDirectory := by
  unfold folderStructureFindings
  rw [List.filter_flatMap, List.filter_flatMap]
  refine List.flatMap_congr fun rule _ => ?_
  unfold folderFindings
  rw [hscanner.hasDirectory]
  split
  · rw [filter_folderContentFindings, filter_folderContentFindings]
  · rfl

end Checks

/-! ## Reports -/

/-- What the scans of two configurations and the checks on them have to do with each other, if one
scans a part of what the other scans. -/
structure Within (disk : Disk) (root : String) (narrow wide : Config) (kept listed : List Entry) :
    Prop where
  entries : kept.Sublist listed
  files : (resultOf (.ofPatterns root narrow.ignore) disk kept narrow).filesScanned ≤
    (resultOf (.ofPatterns root wide.ignore) disk listed wide).filesScanned
  directories : (resultOf (.ofPatterns root narrow.ignore) disk kept narrow).directoriesScanned ≤
    (resultOf (.ofPatterns root wide.ignore) disk listed wide).directoriesScanned
  naming : (fileNamingFindings kept narrow).Sublist (fileNamingFindings listed wide)
  folders : (folderStructureFindings (.ofPatterns root narrow.ignore) disk kept narrow).Sublist
    (folderStructureFindings (.ofPatterns root wide.ignore) disk listed wide)
  missing :
    (folderStructureFindings (.ofPatterns root narrow.ignore) disk kept narrow).filter
        Finding.isMissingDirectory =
      (folderStructureFindings (.ofPatterns root wide.ignore) disk listed wide).filter
        Finding.isMissingDirectory

/-- That one configuration reports a part of what another reports of the project at `root`. -/
structure ReportsLess (disk : Disk) (root : String) (narrow wide : Config) : Prop where
  scans :
    match (Scanner.ofPatterns root wide.ignore).scan disk,
      (Scanner.ofPatterns root narrow.ignore).scan disk with
    | .error e, .error e' => e = e'
    | .ok listed, .ok kept => Within disk root narrow wide kept listed
    | _, _ => False
  components : ∀ candidates,
    ((Scanner.ofPatterns root narrow.ignore).componentDirectories disk candidates).Sublist
      ((Scanner.ofPatterns root wide.ignore).componentDirectories disk candidates)

theorem directoriesScanned_resultOf_eq (scanner : Scanner) (disk : Disk) (entries : List Entry)
    (config : Config) :
    (resultOf scanner disk entries config).directoriesScanned =
      (entries.filter (·.isDirectory)).length := by
  rw [directoriesScanned_resultOf, ← length_filter_isDirectory entries]
  exact Nat.add_sub_cancel_left _ _

variable {disk : Disk} {root : String} {config : Config}

theorem within_of_narrows {ignore ignore' : List String} {kept listed : List Entry}
    (h : (Scanner.ofPatterns root ignore).Narrows (.ofPatterns root ignore'))
    (hkept : kept.Sublist listed) :
    Within disk root { config with ignore } { config with ignore := ignore' } kept listed where
  entries := hkept
  files := by
    rw [filesScanned_resultOf, filesScanned_resultOf]
    exact (hkept.filter _).length_le
  directories := by
    rw [directoriesScanned_resultOf_eq, directoriesScanned_resultOf_eq]
    exact (hkept.filter _).length_le
  naming := fileNamingFindings_sublist config hkept
  folders := folderStructureFindings_sublist config h hkept
  missing := filter_folderStructureFindings config h

theorem reportsLess_of_narrows {ignore ignore' : List String}
    (h : (Scanner.ofPatterns root ignore).Narrows (.ofPatterns root ignore')) :
    ReportsLess disk root { config with ignore } { config with ignore := ignore' } where
  scans := by
    have hscan := h.scan disk
    dsimp only
    revert hscan
    cases (Scanner.ofPatterns root ignore').scan disk with
    | error e =>
      cases (Scanner.ofPatterns root ignore).scan disk with
      | error e' => exact id
      | ok kept => exact id
    | ok listed =>
      cases (Scanner.ofPatterns root ignore).scan disk with
      | error e' => exact id
      | ok kept => exact within_of_narrows h
  components := h.componentDirectories disk

/-- With more patterns to ignore a configuration reports a part of what it reported before, unless
one of them keeps a set from being built that could be built before.  Then nothing is ignored, and
it was the smaller report. -/
theorem ignoring_more_reports_less (disk : Disk) (root : String) (config : Config)
    (extra : List String) :
    ((Buildable config.ignore → Buildable extra) →
        ReportsLess disk root (config.ignoring extra) config) ∧
      (¬(Buildable config.ignore → Buildable extra) →
        (∀ path, (Scanner.ofPatterns root (config.ignoring extra).ignore).isIgnored path = false) ∧
          ReportsLess disk root config (config.ignoring extra)) := by
  constructor
  · intro h
    exact reportsLess_of_narrows ⟨rfl, fun _ => Glob.PatternSet.excludes_ofTexts_append h⟩
  · intro h
    have hset : ¬Buildable (config.ignore ++ extra) :=
      fun hb => h fun _ => (Glob.buildable_append.mp hb).2
    have hnone (path : String) :
        (Scanner.ofPatterns root (config.ignore ++ extra)).isIgnored path = false :=
      Glob.PatternSet.excludes_eq_false_of_not_buildable hset path
    refine ⟨hnone, reportsLess_of_narrows ⟨rfl, fun path hpath => ?_⟩⟩
    rw [hnone] at hpath
    cases hpath

/-- A project with one file. -/
def loggedDisk : Disk := .ofTree (.dir [("a.log", .emptyFile)])

theorem scan_loggedDisk (patterns : List String) :
    (Scanner.ofPatterns "/" patterns).scan loggedDisk =
      .ok (if (Scanner.ofPatterns "/" patterns).isIgnored "a.log" then []
        else [Entry.ofPath "a.log" false]) := by
  have hscan : (Scanner.ofPatterns "/" patterns).scan loggedDisk =
      .ok ((Scanner.ofPatterns "/" patterns).below (.dir [("a.log", .emptyFile)])) :=
    Scanner.scan_eq_below (Disk.stat?_root rfl) rfl rfl
  have hpath : Scan.reportedPath ["a.log"] = "a.log" := by decide
  have hroot : (Scanner.ofPatterns "/" patterns).fitsAt [] = true := of_decide_eq_true rfl
  rw [hscan, Scanner.below, Scanner.places]
  cases hignored : (Scanner.ofPatterns "/" patterns).isIgnored "a.log" with
  | true => simp [hroot, Scanner.blocks, hpath, hignored, Scan.sortByName]
  | false =>
    simp [hroot, Scanner.blocks, Scanner.places, hpath, hignored, Scan.sortByName,
      Scan.Place.entry, Disk.Node.isDir, Disk.Node.emptyFile]

/-- The configuration that ignores that file and checks nothing. -/
def loggedConfig : Config := Config.empty.ignoring ["a.log"]

/-- With one more pattern, which nests too deep, the file that was ignored is scanned. -/
theorem deep_pattern_scans_more :
    (Scanner.ofPatterns "/" loggedConfig.ignore).scan loggedDisk = .ok [] ∧
      (Scanner.ofPatterns "/"
          (loggedConfig.ignoring [Glob.bracedText Glob.maxNesting]).ignore).scan loggedDisk =
        .ok [Entry.ofPath "a.log" false] ∧
      ¬ReportsLess loggedDisk "/" (loggedConfig.ignoring [Glob.bracedText Glob.maxNesting])
        loggedConfig := by
  have hignored : (Scanner.ofPatterns "/" loggedConfig.ignore).isIgnored "a.log" = true := by
    decide
  have hset : ¬Buildable (loggedConfig.ignoring [Glob.bracedText Glob.maxNesting]).ignore :=
    Glob.not_buildable_of_bracedText_mem (List.mem_append_right _ (List.mem_singleton_self _))
      (Nat.le_refl _)
  have hlisted : (Scanner.ofPatterns "/"
      (loggedConfig.ignoring [Glob.bracedText Glob.maxNesting]).ignore).isIgnored "a.log" = false :=
    Glob.PatternSet.excludes_eq_false_of_not_buildable hset "a.log"
  have hwide := scan_loggedDisk loggedConfig.ignore
  have hnarrow :=
    scan_loggedDisk (loggedConfig.ignoring [Glob.bracedText Glob.maxNesting]).ignore
  rw [hignored, if_pos rfl] at hwide
  rw [hlisted, if_neg Bool.false_ne_true] at hnarrow
  refine ⟨hwide, hnarrow, fun h => ?_⟩
  have hscans := h.scans
  rw [hwide, hnarrow] at hscans
  exact absurd hscans.entries.length_le (by decide)

end ProjectLayout
