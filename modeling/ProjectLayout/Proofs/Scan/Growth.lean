import ProjectLayout.Proofs.Disk.Growth
import ProjectLayout.Proofs.Scan.Listing
import ProjectLayout.Proofs.Scan.Narrowing

/-!
# Listings of a tree that a file is put into

A listing depends only on what is seen of one directory.  So a file that is put into a directory is
listed there, unless it is ignored, and all other listings stay as they were.

* `Scanner.CanAsk` — that a directory can be asked for, whatever is there.
* `Scanner.view`, `Scanner.listOneLevel_eq_view` — a listing as a function of what is seen.
* `Scanner.listOneLevel_insertAt_of_ne`, `Scanner.mem_listOneLevel_insertAt` — listings elsewhere
  and in the directory of the new file.
* `Scanner.componentDirectories_insertAt` — no component comes or goes.
-/

namespace ProjectLayout.Scan

open Disk

/-- Sorting what is left of a list leaves it in the order of the sorted list. -/
theorem mergeSort_filter {α : Type} {le : α → α → Bool}
    (trans : ∀ a b c, le a b = true → le b c = true → le a c = true)
    (total : ∀ a b, (le a b || le b a) = true) (p : α → Bool) (l : List α) :
    (l.filter p).mergeSort le = (l.mergeSort le).filter p := by
  have hall : ((l.filter p).mergeSort le).filter p = (l.filter p).mergeSort le :=
    List.filter_eq_self.mpr fun a ha => (List.mem_filter.mp (List.mem_mergeSort.mp ha)).2
  have hpart : ((l.filter p).mergeSort le).Sublist ((l.mergeSort le).filter p) :=
    hall ▸ (mergeSort_sublist_mergeSort trans total List.filter_sublist).filter p
  refine hpart.eq_of_length ?_
  rw [((List.mergeSort_perm l le).filter p).length_eq]
  exact List.length_mergeSort _

namespace Scanner

variable {scanner : Scanner} {disk disk' : Disk} {dir : String} {e : Entry}

/-! ## Listings and what is seen -/

/-- What a listing of a directory says when some names are seen in it. -/
def view (scanner : Scanner) (dir : String) (seen : List (Name × Bool)) : List Entry :=
  (seen.filterMap fun s => scanner.listed? dir s.1 s.2).mergeSort entryLe

theorem mem_view {seen : List (Name × Bool)} :
    e ∈ scanner.view dir seen ↔
      ∃ s ∈ seen, scanner.isIgnored (joinRelative dir s.1.lossy) = false ∧
        e = Entry.ofPath (joinRelative dir s.1.lossy) s.2 := by
  simp only [view, List.mem_mergeSort, List.mem_filterMap, listed?_eq_some_iff]

/-- The directories in a listing are those that are seen. -/
theorem filter_view (seen : List (Name × Bool)) :
    (scanner.view dir seen).filter (·.isDirectory) = scanner.view dir (seen.filter (·.2)) := by
  rw [view, view, ← mergeSort_filter entryLe_trans entryLe_total, List.filter_filterMap,
    List.filterMap_filter]
  refine congrArg (List.mergeSort · entryLe) (List.filterMap_congr fun s _ => ?_)
  cases hlisted : scanner.listed? dir s.1 s.2 with
  | none => simp
  | some found =>
    obtain ⟨-, rfl⟩ := listed?_eq_some_iff.mp hlisted
    rw [Option.filter_some, Entry.isDirectory_ofPath]

theorem listOneLevel_of_list {entries : List (Name × Node)}
    (h : disk.list (scanner.diskPath dir) = .ok entries) :
    scanner.listOneLevel disk dir = scanner.view (normalizeRelative dir) (Node.seen entries) := by
  unfold listOneLevel view Node.seen
  rw [h, List.filterMap_map]
  rfl

/-- Whether a directory can be asked for: its full path is short enough, and its names could be
those of entries. -/
def CanAsk (scanner : Scanner) (dir : String) : Prop :=
  fitsLimit (scanner.diskPath dir) = true ∧ ∀ name ∈ stepsTo dir, IsStorable name

instance (scanner : Scanner) (dir : String) : Decidable (scanner.CanAsk dir) :=
  inferInstanceAs (Decidable (_ ∧ _))

theorem canAsk_of_list {tree : Node} (hroot : disk.stat? scanner.root = some tree)
    (hl : tree.WithoutLinks) (hplain : IsPlainPath dir) {entries : List (Name × Node)}
    (h : disk.list (scanner.diskPath dir) = .ok entries) : scanner.CanAsk dir := by
  obtain ⟨here, hbase⟩ := stat?_eq_some_iff.mp hroot
  obtain ⟨rights, hstat, -⟩ := list_eq_ok_iff.mp h
  obtain ⟨names, hres⟩ := stat?_eq_some_iff.mp hstat
  rw [diskPath, normalizeRelative_eq_withSlashes hplain.not_isIdle] at hres
  exact ⟨(at?_of_list hroot hl hplain h).1,
    (way_of_resolve_joinPath hbase hl hplain.isAbsolute_withSlashes hplain hres).1⟩

/-- A listing at a plain path is what is seen there, if it can be asked for. -/
theorem listOneLevel_eq_view {tree : Node} (hroot : disk.stat? scanner.root = some tree)
    (hdir : tree.isDir = true) (hl : tree.WithoutLinks) (hplain : IsPlainPath dir) :
    scanner.listOneLevel disk dir =
      if scanner.CanAsk dir then
        (tree.seenAt? ((stepsTo dir).map .text)).elim [] (scanner.view (normalizeRelative dir))
      else [] := by
  cases hlist : disk.list (scanner.diskPath dir) with
  | ok entries =>
    obtain ⟨-, rights, hat, hread⟩ := at?_of_list hroot hl hplain hlist
    rw [Node.isListable, hat, Option.any_some, Node.rights_dir, Bool.and_eq_true] at hread
    have hseen : tree.seenAt? ((stepsTo dir).map .text) = some (Node.seen entries) :=
      Node.seenAt?_eq_some_iff.mpr ⟨entries, rights, hat, hread.2, hread.1, rfl⟩
    rw [listOneLevel_of_list hlist, if_pos (canAsk_of_list hroot hl hplain hlist), hseen]
    rfl
  | error problem =>
    have hnil : scanner.listOneLevel disk dir = [] := by
      unfold listOneLevel
      rw [hlist]
    rw [hnil]
    split
    · next hask =>
      cases hseen : tree.seenAt? ((stepsTo dir).map .text) with
      | none => rfl
      | some found =>
        -- the directory is there and can be asked for, so it could be listed
        obtain ⟨hfits, hstore⟩ := hask
        obtain ⟨entries, rights, hat, hright, hopen, -⟩ := Node.seenAt?_eq_some_iff.mp hseen
        have hstat := stat?_joinPath_pathOf hroot hdir
          (isEntryName_of_mem_stepsTo hplain) hstore hat rfl
        rw [diskPath, normalizeRelative_eq_pathOf hplain] at hfits hlist
        rw [hfits, hopen, Bool.and_self, if_pos rfl] at hstat
        rw [list_eq_ok_iff.mpr ⟨rights, hstat, hright⟩] at hlist
        cases hlist
    · rfl

/-- A component directory is at the names that its path leads down along. -/
theorem stepsTo_of_mem_componentDirectories {tree : Node}
    (hroot : disk.stat? scanner.root = some tree) (hw : tree.WellFormed)
    (hb : tree.WithoutBackslash) (hl : tree.WithoutLinks) {dirs : List String}
    (hdirs : ∀ dir ∈ dirs, IsPlainPath dir) (h : dir ∈ scanner.componentDirectories disk dirs) :
    IsPlainPath dir ∧ normalizeRelative dir = dir ∧ dir = pathOf (stepsTo dir) := by
  obtain ⟨names, hne, hnames, rfl, -⟩ :=
    plain_of_mem_componentDirectories hroot hw hb hl hdirs h
  rw [stepsTo_pathOf hne hnames]
  exact ⟨isPlainPath_pathOf hne hnames, normalizeRelative_pathOf hnames, rfl⟩

/-! ## A new file -/

section NewFile

variable {tree : Node} {above : List Name} {sub : List (Name × Node)} {rights : Rights}
  {name : Name} {contents : ByteArray}
variable (hroot : disk.stat? scanner.root = some tree)
  (hroot' : disk'.stat? scanner.root =
    some ((Node.file contents).insertAt (above ++ [name]) tree))
  (hl : tree.WithoutLinks) (hat : tree.at? above = some (.dir sub rights))
  (hnew : sub.lookup name = none)

include hroot hroot' hl hat hnew

/-- The listings once the file is there and before. -/
theorem listings_eq_view (hplain : IsPlainPath dir) :
    scanner.listOneLevel disk' dir =
        (if scanner.CanAsk dir then
          (if (stepsTo dir).map .text = above then
              (tree.seenAt? ((stepsTo dir).map .text)).map (· ++ [(name, false)])
            else tree.seenAt? ((stepsTo dir).map .text)).elim []
            (scanner.view (normalizeRelative dir))
        else []) ∧
      scanner.listOneLevel disk dir =
        if scanner.CanAsk dir then
          (tree.seenAt? ((stepsTo dir).map .text)).elim [] (scanner.view (normalizeRelative dir))
        else [] := by
  have hlinks : ((Node.file contents).insertAt (above ++ [name]) tree).WithoutLinks :=
    .insertAt (.intro rfl (by simp [Node.entries])) hl _
  constructor
  · rw [listOneLevel_eq_view hroot' (Node.isDir_insertAt _ (by simp) _) hlinks hplain,
      Node.seenAt?_insertAt hat hnew]
  · exact listOneLevel_eq_view hroot (Node.isDir_of_at? hat) hl hplain

/-- The listing of another directory stays as it was. -/
theorem listOneLevel_insertAt_of_ne (hplain : IsPlainPath dir)
    (hne : (stepsTo dir).map .text ≠ above) :
    scanner.listOneLevel disk' dir = scanner.listOneLevel disk dir := by
  obtain ⟨hafter, hbefore⟩ := listings_eq_view hroot hroot' hl hat hnew hplain
  rw [hafter, hbefore, if_neg hne]

/-- In a listing of the directory of the new file the directories stay as they were. -/
theorem filter_listOneLevel_insertAt (hplain : IsPlainPath dir) :
    (scanner.listOneLevel disk' dir).filter (·.isDirectory) =
      (scanner.listOneLevel disk dir).filter (·.isDirectory) := by
  by_cases hsteps : (stepsTo dir).map .text = above
  · obtain ⟨hafter, hbefore⟩ := listings_eq_view hroot hroot' hl hat hnew hplain
    rw [hafter, hbefore, if_pos hsteps]
    split
    · cases tree.seenAt? ((stepsTo dir).map .text) with
      | none => rfl
      | some seen =>
        rw [Option.map_some, Option.elim_some, Option.elim_some, filter_view, filter_view,
          List.filter_append]
        simp
    · rfl
  · rw [listOneLevel_insertAt_of_ne hroot hroot' hl hat hnew hplain hsteps]

/-- In its own directory the new file is listed, if that can be listed and the file is not ignored,
and nothing else is new. -/
theorem mem_listOneLevel_insertAt (hplain : IsPlainPath dir)
    (hsteps : (stepsTo dir).map .text = above) :
    e ∈ scanner.listOneLevel disk' dir ↔ e ∈ scanner.listOneLevel disk dir ∨
      (scanner.CanAsk dir ∧ tree.isListable above = true) ∧
        scanner.isIgnored (joinRelative (normalizeRelative dir) name.lossy) = false ∧
        e = Entry.ofPath (joinRelative (normalizeRelative dir) name.lossy) false := by
  obtain ⟨hafter, hbefore⟩ := listings_eq_view hroot hroot' hl hat hnew hplain
  have hseen : tree.seenAt? above =
      if tree.isListable above then some (Node.seen sub) else none := by
    rw [Node.seenAt?, Node.isListable, hat, Option.any_some, Bool.and_comm]
    rfl
  rw [hafter, hbefore, if_pos hsteps, hsteps, hseen]
  by_cases hask : scanner.CanAsk dir
  · rw [if_pos hask, if_pos hask]
    cases tree.isListable above with
    | false => simp
    | true =>
      simp only [if_true, Option.map_some, Option.elim_some, mem_view, List.mem_append,
        List.mem_singleton, or_and_right, exists_or, exists_eq_left, hask, true_and]
  · simp [hask]

/-- A new file makes no component and takes none away. -/
theorem componentDirectories_insertAt {dirs : List String}
    (hdirs : ∀ dir ∈ dirs, IsPlainPath dir) :
    scanner.componentDirectories disk' dirs = scanner.componentDirectories disk dirs := by
  rw [componentDirectories_eq_flatMap, componentDirectories_eq_flatMap]
  refine List.flatMap_congr fun dir hdir => ?_
  rw [filter_listOneLevel_insertAt hroot hroot' hl hat hnew (hdirs dir hdir)]

end NewFile

end Scanner

end ProjectLayout.Scan
