import ProjectLayout.Proofs.Scan.Exact

/-!
# Component directories in the tree

* `Scanner.mem_listOneLevel`, `Scanner.mem_componentDirectories` — what the narrower views list.
* `Scanner.stepsTo` — the names that a plain path leads down along.
* `Scanner.plain_of_mem_componentDirectories` — what is the path of a component directory.
* `Scanner.at?_of_mem_listOneLevel` — where in a tree a directory lies that something is listed in.
-/

namespace ProjectLayout.Scan

open Disk

/-! ## Listings -/

theorem joinRelative_pathOf {above : List String} {name : String}
    (h : ∀ n ∈ above, IsEntryName n) :
    joinRelative (pathOf above) name = pathOf (above ++ [name]) := by
  by_cases hne : above = []
  · subst hne
    rw [List.nil_append, pathOf_singleton]
    rfl
  · have hempty : (pathOf above).isEmpty = false := by simpa using pathOf_ne_empty hne h
    rw [joinRelative, hempty, if_neg (by decide), pathOf_append hne (by simp), pathOf_singleton]

namespace Scanner

variable {scanner : Scanner} {disk : Disk}

theorem listed?_eq_some_iff {dir : String} {name : Name} {isDirectory : Bool} {e : Entry} :
    scanner.listed? dir name isDirectory = some e ↔
      scanner.isIgnored (joinRelative dir name.lossy) = false ∧
        e = Entry.ofPath (joinRelative dir name.lossy) isDirectory := by
  rw [listed?]
  cases scanner.isIgnored (joinRelative dir name.lossy) <;> simp [eq_comm]

theorem mem_listOneLevel {dir : String} {e : Entry} :
    e ∈ scanner.listOneLevel disk dir ↔
      ∃ entries name node, disk.list (scanner.diskPath dir) = .ok entries ∧
        (name, node) ∈ entries ∧
        scanner.isIgnored (joinRelative (normalizeRelative dir) name.lossy) = false ∧
        e = Entry.ofPath (joinRelative (normalizeRelative dir) name.lossy) node.isDir := by
  unfold listOneLevel
  cases disk.list (scanner.diskPath dir) with
  | error e => simp
  | ok entries =>
    simp only [List.mem_mergeSort, List.mem_filterMap, Except.ok.injEq, Prod.exists,
      listed?_eq_some_iff]
    constructor
    · rintro ⟨name, node, hmem, h⟩
      exact ⟨entries, name, node, rfl, hmem, h⟩
    · rintro ⟨_, name, node, rfl, hmem, h⟩
      exact ⟨name, node, hmem, h⟩

/-- Entries that are in order are listed as they are. -/
theorem listOneLevel_eq_filterMap {dir : String} {entries : List (Name × Node)}
    (h : disk.list (scanner.diskPath dir) = .ok entries)
    (hsorted : (entries.filterMap fun e =>
      scanner.listed? (normalizeRelative dir) e.1 e.2.isDir).Pairwise
        fun a b => entryLe a b = true) :
    scanner.listOneLevel disk dir = entries.filterMap fun e =>
      scanner.listed? (normalizeRelative dir) e.1 e.2.isDir := by
  unfold listOneLevel
  rw [h]
  exact List.mergeSort_of_pairwise hsorted

theorem slash_not_mem_name_of_mem {dir : String} {e : Entry}
    (h : e ∈ scanner.listOneLevel disk dir) : '/' ∉ e.name.toList := by
  obtain ⟨_, _, _, -, -, -, he⟩ := mem_listOneLevel.mp h
  rw [he]
  exact Entry.slash_not_mem_name _ _

theorem mem_componentDirectories {dirs : List String} {path : String} :
    path ∈ scanner.componentDirectories disk dirs ↔
      ∃ dir ∈ dirs, scanner.hasDirectory disk dir = true ∧
        ∃ e ∈ scanner.listOneLevel disk dir, e.isDirectory = true ∧ e.path = path := by
  simp only [componentDirectories, List.mem_flatMap]
  refine exists_congr fun dir => and_congr_right fun _ => ?_
  split
  · next h => simp [h, and_assoc]
  · next h => simp [h]

/-! ## Plain paths -/

/-- The names that a path leads down along. -/
def stepsTo (dir : String) : List String := pathSegments (withSlashes dir)

theorem stepsTo_pathOf {names : List String} (hne : names ≠ [])
    (h : ∀ name ∈ names, IsPlainName name) : stepsTo (pathOf names) = names := by
  rw [stepsTo, withSlashes_pathOf h, pathSegments_pathOf hne fun name hn => (h name hn).1]

theorem normalizeRelative_eq_pathOf {dir : String} (hplain : IsPlainPath dir) :
    normalizeRelative dir = pathOf (stepsTo dir) := by
  rw [stepsTo, pathOf_pathSegments, normalizeRelative_eq_withSlashes hplain.not_isIdle]

theorem isEntryName_of_mem_stepsTo {dir : String} (hplain : IsPlainPath dir) :
    ∀ name ∈ stepsTo dir, IsEntryName name := by
  intro name hname
  refine ⟨hplain name hname, ?_⟩
  obtain ⟨piece, hpiece, rfl⟩ := List.mem_map.mp hname
  rw [String.toList_ofList]
  exact Text.sep_not_mem_of_mem_splitOn hpiece

/-! ## Places in the tree -/

variable {tree : Node}

/-- What is listed at a plain path is found under its segments and can be listed, and the full path
of the directory can be asked for. -/
theorem at?_of_list (hroot : disk.stat? scanner.root = some tree) (hl : tree.WithoutLinks)
    {dir : String} (hdir : IsPlainPath dir) {entries : List (Name × Node)}
    (h : disk.list (scanner.diskPath dir) = .ok entries) :
    fitsLimit (scanner.diskPath dir) = true ∧
      ∃ rights, tree.at? ((stepsTo dir).map .text) = some (.dir entries rights) ∧
        tree.isListable ((stepsTo dir).map .text) = true := by
  obtain ⟨here, hbase⟩ := stat?_eq_some_iff.mp hroot
  obtain ⟨rights, hstat, hlist⟩ := list_eq_ok_iff.mp h
  obtain ⟨names, hres⟩ := stat?_eq_some_iff.mp hstat
  have hnorm := normalizeRelative_eq_withSlashes hdir.not_isIdle
  rw [diskPath, hnorm] at hres ⊢
  obtain ⟨hfits, hat⟩ := at?_of_resolve_joinPath hbase hl hdir.isAbsolute_withSlashes hdir hres
  obtain ⟨-, hopen⟩ := way_of_resolve_joinPath hbase hl hdir.isAbsolute_withSlashes hdir hres
  refine ⟨hfits, rights, hat, ?_⟩
  rw [Node.isListable, stepsTo, hopen, hat, Bool.true_and, Option.any_some, Node.rights_dir, hlist]

/-- A component directory has a plain path and is not ignored. -/
theorem plain_of_mem_componentDirectories (hroot : disk.stat? scanner.root = some tree)
    (hw : tree.WellFormed) (hb : tree.WithoutBackslash) (hl : tree.WithoutLinks)
    {dirs : List String} (hdirs : ∀ dir ∈ dirs, IsPlainPath dir) {path : String}
    (h : path ∈ scanner.componentDirectories disk dirs) :
    ∃ names : List String, names ≠ [] ∧ (∀ name ∈ names, IsPlainName name) ∧
      path = pathOf names ∧ scanner.isIgnored path = false := by
  obtain ⟨dir, hmem, -, e, he, -, hpath⟩ := mem_componentDirectories.mp h
  obtain ⟨entries, name, node, hlist, hnode, hkept, hentry⟩ := mem_listOneLevel.mp he
  rw [hentry, Entry.path_ofPath] at hpath
  have hplain := hdirs dir hmem
  obtain ⟨-, rights, hat, -⟩ := at?_of_list hroot hl hplain hlist
  rw [normalizeRelative_eq_pathOf hplain, joinRelative_pathOf (hw.isEntryName hat)] at hkept hpath
  have hsub : tree.at? ((stepsTo dir).map .text ++ [name]) = some node := by
    rw [Node.at?_append, hat]
    exact (Node.at?_cons (Node.Everywhere.at? hw hat).here.1).mpr ⟨node, hnode, rfl⟩
  have hnames := Name.isPlainName_of_mem_map (Node.isPlain hw hb hsub)
  rw [List.map_append, Name.map_lossy_map_text] at hnames
  exact ⟨_, by simp, hnames, hpath.symm, hpath ▸ hkept⟩

/-- If something is listed in a directory, then that is a directory of the tree which can be listed,
and its full path can be asked for. -/
theorem at?_of_mem_listOneLevel (hroot : disk.stat? scanner.root = some tree)
    (hl : tree.WithoutLinks) {names : List String} (hne : names ≠ [])
    (hnames : ∀ name ∈ names, IsPlainName name) {e : Entry}
    (he : e ∈ scanner.listOneLevel disk (pathOf names)) :
    ∃ sub rights, tree.at? (names.map .text) = some (.dir sub rights) ∧
      tree.isListable (names.map .text) = true ∧ scanner.fitsAt (names.map .text) = true := by
  obtain ⟨entries, -, -, hlist, -⟩ := mem_listOneLevel.mp he
  have hplain : IsPlainPath (pathOf names) := isPlainPath_pathOf hne hnames
  obtain ⟨hfits, rights, hat, hlistable⟩ := at?_of_list hroot hl hplain hlist
  rw [stepsTo_pathOf hne hnames] at hat hlistable
  rw [diskPath, normalizeRelative_pathOf hnames,
    ← scanner.fitsAt_map_text hne fun name hn => (hnames name hn).1] at hfits
  exact ⟨entries, rights, hat, hlistable, hfits⟩

end Scanner

end ProjectLayout.Scan
