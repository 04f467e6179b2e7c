import Mathlib.Data.List.Basic
import Mathlib.Data.List.Flatten
import ProjectLayout.Proofs.Scan.Exact

/-!
# Scanners that ignore more

Of two scanners of one project, the one that ignores more lists a part of what the other lists, in
the same order.

* `mergeSort_sublist_mergeSort` — sorting a part of a list gives a part of the sorted list.
* `Scanner.places_dir` — a scan below a directory goes through its entries that are not ignored.
* `Scanner.Narrows` — that one scanner ignores more than another.
* `Scanner.Narrows.places`, `Scanner.Narrows.scan`, `Scanner.Narrows.componentDirectories` — what
  it lists then.
-/

namespace ProjectLayout.Scan

open Disk

/-! ## Parts of lists -/

section Lists

variable {α β : Type}

/-- Sorting a part of a list gives a part of the sorted list. -/
theorem mergeSort_sublist_mergeSort {le : α → α → Bool}
    (trans : ∀ a b c, le a b = true → le b c = true → le a c = true)
    (total : ∀ a b, (le a b || le b a) = true) {part whole : List α} (h : part.Sublist whole) :
    (part.mergeSort le).Sublist (whole.mergeSort le) := by
  -- In a sorted list `a` stands between what it does not come before and what it does.
  have hcut {a : α} {front back : List α} (hfront : ∀ b ∈ front, (!le a b) = true)
      (hsorted : (front ++ a :: back).Pairwise fun x y => le x y = true) :
      (front ++ back).filter (fun b => !le a b) = front ∧ (front ++ back).filter (le a) = back := by
    have hback : ∀ b ∈ back, le a b = true :=
      (List.pairwise_cons.mp (List.pairwise_append.mp hsorted).2.1).1
    constructor
    · rw [List.filter_append, List.filter_eq_self.mpr hfront, List.filter_eq_nil_iff.mpr,
        List.append_nil]
      exact fun b hb => by simp [hback b hb]
    · rw [List.filter_append, List.filter_eq_self.mpr hback, List.filter_eq_nil_iff.mpr,
        List.nil_append]
      exact fun b hb => by simpa using hfront b hb
  induction h with
  | slnil => exact List.Sublist.refl _
  | @cons part whole a _ ih =>
    obtain ⟨front, back, hwhole, hrest, -⟩ := List.mergeSort_cons trans total a whole
    rw [hwhole]
    rw [hrest] at ih
    exact ih.trans ((List.sublist_cons_self a back).append_left front)
  | @cons_cons part whole a _ ih =>
    obtain ⟨front, back, hpart, hrest, hfront⟩ := List.mergeSort_cons trans total a part
    obtain ⟨front', back', hwhole, hrest', hfront'⟩ := List.mergeSort_cons trans total a whole
    have hcutPart := hcut hfront (hpart ▸ List.pairwise_mergeSort trans total (a :: part))
    have hcutWhole := hcut hfront' (hwhole ▸ List.pairwise_mergeSort trans total (a :: whole))
    rw [hrest, hrest'] at ih
    rw [hpart, hwhole, ← hcutPart.1, ← hcutWhole.1]
    refine (ih.filter _).append (List.Sublist.cons_cons a ?_)
    rw [← hcutPart.2, ← hcutWhole.2]
    exact ih.filter _

theorem sortByName_sublist {part whole : List (Name × α)} (h : part.Sublist whole) :
    (sortByName part).Sublist (sortByName whole) := by
  apply mergeSort_sublist_mergeSort _ _ h
  · intro a b c
    exact nameLe_trans a.1 b.1 c.1
  · intro a b
    exact nameLe_total a.1 b.1

/-- Sorting by name does not look at what the names stand for. -/
theorem sortByName_map (f : Name × α → β) (named : List (Name × α)) :
    sortByName (named.map fun e => (e.1, f e)) = (sortByName named).map fun e => (e.1, f e) := by
  unfold sortByName
  rw [List.map_mergeSort (f := fun e => (e.1, f e))]
  exact fun _ _ _ _ => rfl

theorem filterMap_sublist_filterMap {f g : α → Option β} (h : ∀ a b, f a = some b → g a = some b)
    (l : List α) : (l.filterMap f).Sublist (l.filterMap g) := by
  induction l with
  | nil => exact List.Sublist.refl _
  | cons a rest ih =>
    cases hf : f a with
    | some b => simpa [hf, h a b hf] using ih
    | none =>
      rw [List.filterMap_cons_none hf]
      cases hg : g a with
      | none => simpa [hg] using ih
      | some b => simpa [hg] using ih.cons b

end Lists

namespace Scanner

/-! ## One directory -/

/-- Whether an entry of the directory `above` is not ignored. -/
def isKept (scanner : Scanner) (above : List Name) (e : Name × Node) : Bool :=
  !scanner.isIgnored (reportedPath (above ++ [e.1]))

/-- An entry of the directory `above` with all that is below it, if that can be gone to. -/
def block (scanner : Scanner) (above : List Name) (search : Bool) (e : Name × Node) :
    List Place :=
  ⟨above ++ [e.1], e.2⟩ :: if search then scanner.places (above ++ [e.1]) e.2 else []

theorem blocks_eq_map (scanner : Scanner) (above : List Name) (search : Bool)
    (entries : List (Name × Node)) :
    scanner.blocks above search entries =
      (entries.filter (scanner.isKept above)).map fun e =>
        (e.1, scanner.block above search e) := by
  rw [blocks_eq_filterMap, ← List.filterMap_eq_map, List.filterMap_filter]
  refine List.filterMap_congr fun e _ => ?_
  cases h : scanner.isIgnored (reportedPath (above ++ [e.1])) <;> simp [isKept, block, h]

/-- A scan goes through the entries of a directory that are not ignored, in the order of their
names. -/
theorem places_dir (scanner : Scanner) (above : List Name) (entries : List (Name × Node))
    (rights : Rights) :
    scanner.places above (.dir entries rights) =
      if rights.list && scanner.fitsAt above then
        (sortByName (entries.filter (scanner.isKept above))).flatMap
          (scanner.block above rights.search)
      else [] := by
  rw [places, blocks_eq_map, sortByName_map, List.flatMap_map]

/-! ## Ignoring more -/

/-- That `narrow` scans the same project as `wide` and ignores all that `wide` ignores. -/
structure Narrows (narrow wide : Scanner) : Prop where
  root : narrow.root = wide.root
  ignored : ∀ path, wide.isIgnored path = true → narrow.isIgnored path = true

variable {narrow wide : Scanner} {disk : Disk}

theorem Narrows.isKept (h : narrow.Narrows wide) {above : List Name} {e : Name × Node}
    (hkept : narrow.isKept above e = true) : wide.isKept above e = true := by
  simp only [Scanner.isKept, Bool.not_eq_true'] at hkept ⊢
  refine Bool.eq_false_iff.mpr fun hi => ?_
  rw [h.ignored _ hi] at hkept
  cases hkept

/-- Below any node a scanner that ignores more comes to a part of what the other comes to. -/
theorem Narrows.places (h : narrow.Narrows wide) (above : List Name) (node : Node) :
    (narrow.places above node).Sublist (wide.places above node) := by
  induction node using Node.dirInduction generalizing above with
  | file contents => exact List.Sublist.refl _
  | link target => exact List.Sublist.refl _
  | dir entries rights ih =>
    rw [places_dir, places_dir, fitsAt_congr h.root]
    split
    · have hentries : (sortByName (entries.filter (narrow.isKept above))).Sublist
          (sortByName (entries.filter (wide.isKept above))) :=
        sortByName_sublist (List.monotone_filter_right entries fun _ => h.isKept)
      have hblocks : ∀ e ∈ sortByName (entries.filter (narrow.isKept above)),
          (narrow.block above rights.search e).Sublist (wide.block above rights.search e) := by
        intro e he
        have hmem := (List.mem_filter.mp (mem_sortByName.mp he)).1
        refine List.Sublist.cons_cons _ ?_
        split
        · exact ih e hmem _
        · exact List.Sublist.refl _
      exact (List.Sublist.flatMap_right _ hblocks).trans (hentries.flatMap _)
    · exact List.Sublist.refl _

theorem Narrows.below (h : narrow.Narrows wide) (tree : Node) :
    (narrow.below tree).Sublist (wide.below tree) := (h.places [] tree).map _

/-- A scanner that ignores more fails as the other does, or lists a part of what it lists. -/
theorem Narrows.scan (h : narrow.Narrows wide) (disk : Disk) :
    match wide.scan disk, narrow.scan disk with
    | .error e, .error e' => e = e'
    | .ok listed, .ok kept => kept.Sublist listed
    | _, _ => False := by
  have hroot : narrow.checkRoot disk = wide.checkRoot disk := by
    unfold checkRoot
    rw [h.root]
  rw [Scanner.scan, Scanner.scan, hroot]
  cases wide.checkRoot disk with
  | error e => rfl
  | ok tree => exact h.below tree

/-! ## Narrower views -/

theorem Narrows.diskPath (h : narrow.Narrows wide) (path : String) :
    narrow.diskPath path = wide.diskPath path := by
  rw [Scanner.diskPath, Scanner.diskPath, h.root]

theorem Narrows.hasDirectory (h : narrow.Narrows wide) (disk : Disk) (path : String) :
    narrow.hasDirectory disk path = wide.hasDirectory disk path := by
  rw [Scanner.hasDirectory, Scanner.hasDirectory, h.diskPath]

theorem Narrows.listed? (h : narrow.Narrows wide) {dir : String} {name : Name}
    {isDirectory : Bool} {e : Entry} (he : narrow.listed? dir name isDirectory = some e) :
    wide.listed? dir name isDirectory = some e := by
  unfold Scanner.listed? at he ⊢
  dsimp only at he ⊢
  split at he
  · cases he
  · next hkept => rwa [if_neg fun hi => hkept (h.ignored _ hi)]

theorem Narrows.listOneLevel (h : narrow.Narrows wide) (disk : Disk) (dir : String) :
    (narrow.listOneLevel disk dir).Sublist (wide.listOneLevel disk dir) := by
  unfold Scanner.listOneLevel
  rw [h.diskPath]
  split
  · exact List.Sublist.refl _
  · exact mergeSort_sublist_mergeSort entryLe_trans entryLe_total
      (filterMap_sublist_filterMap (fun _ _ => h.listed?) _)

theorem Narrows.componentDirectories (h : narrow.Narrows wide) (disk : Disk)
    (candidates : List String) :
    (narrow.componentDirectories disk candidates).Sublist
      (wide.componentDirectories disk candidates) := by
  refine List.Sublist.flatMap_right _ fun dir _ => ?_
  rw [h.hasDirectory]
  split
  · exact ((h.listOneLevel disk dir).filter _).map _
  · exact List.Sublist.refl _

end Scanner

end ProjectLayout.Scan
