import ProjectLayout.Proofs.Glob.Subtree
import ProjectLayout.Proofs.Scan.Listing

/-!
# Scanners that ignore whole subtrees

A scan does not go below what is ignored.  Where everything below what is ignored is ignored itself,
this leaves out nothing that a look at the single paths would keep.

* `Scanner.IgnoresBelow` — that a scanner ignores with a path all that is below it.
* `Scanner.below_eq_filter` — such a scanner lists what another lists and it does not ignore.
* `Scanner.scan_of_subtrees_eq_filter` — scanners whose patterns end in `/**`.
-/

namespace ProjectLayout.Scan

open Disk Glob

namespace Scanner

/-- That a scanner ignores with a path from the root all that is below it. -/
def IgnoresBelow (scanner : Scanner) : Prop :=
  ∀ path more : String, path ≠ "" → path.toList.head? ≠ some '/' →
    scanner.isIgnored path = true → scanner.isIgnored (path ++ "/" ++ more) = true

variable {scanner : Scanner}

/-- Then something is kept unless it is ignored itself. -/
theorem IgnoresBelow.keeps_iff (h : scanner.IgnoresBelow) {names : List Name} (hne : names ≠ [])
    (hnames : ∀ name ∈ names, name.IsEntry) :
    scanner.Keeps names ↔ scanner.isIgnored (pathOf (names.map Name.lossy)) = false := by
  constructor
  · intro hkeeps
    exact hkeeps names (List.prefix_refl _) hne
  · rintro hlast way ⟨below, rfl⟩ hway
    by_cases hbelow : below = []
    · rwa [hbelow, List.append_nil] at hlast
    refine Bool.eq_false_iff.mpr fun hignored => ?_
    have hwayMap : way.map Name.lossy ≠ [] := by simpa using hway
    have hnamesWay : ∀ text ∈ way.map Name.lossy, IsEntryName text :=
      Name.isEntryName_of_mem_map fun name hm => hnames name (List.mem_append_left _ hm)
    have hpath := h (pathOf (way.map Name.lossy)) (pathOf (below.map Name.lossy))
      (pathOf_ne_empty hwayMap hnamesWay) (ends_pathOf_ne hwayMap hnamesWay).1 hignored
    rw [← pathOf_append hwayMap (by simpa using hbelow), ← List.map_append, hlast] at hpath
    cases hpath

/-- A scanner that ignores what is below what it ignores lists what a scanner of the same root lists
that ignores nothing, without what is ignored. -/
theorem IgnoresBelow.below_eq_filter (h : scanner.IgnoresBelow) (wide : Scanner)
    (hroot : wide.root = scanner.root) (hwide : ∀ path, wide.isIgnored path = false) {tree : Node}
    (hw : tree.WellFormed) (hb : tree.WithoutBackslash) :
    scanner.below tree = (wide.below tree).filter fun e => !scanner.isIgnored e.path := by
  have hread (names : List Name) : wide.CanRead tree names ↔ scanner.CanRead tree names := by
    simp only [CanRead, fitsAt_congr hroot]
  have hsorted (s : Scanner) : (s.places [] tree).Pairwise fun a b => Before a.names b.names :=
    places_pairwise hw []
  have hplaces : scanner.places [] tree =
      (wide.places [] tree).filter fun place => !scanner.isIgnored place.entry.path := by
    refine eq_of_pairwise_before (hsorted scanner) ((hsorted wide).filter _) fun place => ?_
    rw [List.mem_filter, mem_places_root hw hb, mem_places_root hw hb, Bool.not_eq_true', hread]
    constructor
    · rintro ⟨hne, hat, hkeeps, hcan⟩
      rw [entry_eq_ofPath hw hb hat]
      exact ⟨⟨hne, hat, fun _ _ _ => hwide _, hcan⟩, (h.keeps_iff hne (hw.isEntry hat)).mp hkeeps⟩
    · rintro ⟨⟨hne, hat, -, hcan⟩, hignored⟩
      rw [entry_eq_ofPath hw hb hat] at hignored
      exact ⟨hne, hat, (h.keeps_iff hne (hw.isEntry hat)).mpr hignored, hcan⟩
  rw [below, below, hplaces, List.filter_map]
  rfl

/-- A directory that is ignored has nothing in it that is not. -/
theorem IgnoresBelow.listOneLevel_eq_nil (h : scanner.IgnoresBelow) (disk : Disk)
    {names : List String} (hne : names ≠ []) (hnames : ∀ name ∈ names, IsPlainName name)
    (hignored : scanner.isIgnored (pathOf names) = true) :
    scanner.listOneLevel disk (pathOf names) = [] := by
  have hentry : ∀ name ∈ names, IsEntryName name := fun name hm => (hnames name hm).1
  have hpath : pathOf names ≠ "" := pathOf_ne_empty hne hentry
  refine List.eq_nil_iff_forall_not_mem.mpr fun e he => ?_
  obtain ⟨entries, name, node, -, -, hkept, -⟩ := mem_listOneLevel.mp he
  rw [normalizeRelative_pathOf hnames, joinRelative, if_neg (by simpa using hpath),
    h _ _ hpath (ends_pathOf_ne hne hentry).1 hignored] at hkept
  cases hkept

/-! ## Patterns that end in `/**` -/

theorem ignoresBelow_of_subtrees (root : String) {ignore : List String}
    (hends : ∀ text ∈ ignore, (Pattern.compile? text).isSome → subtreeEnding <:+ text.toList) :
    (ofPatterns root ignore).IgnoresBelow := by
  intro path more hne hroot hignored
  exact PatternSet.excludes_append hends (by simpa using hne) hroot hignored more

/-- If all patterns that compile end in `/**`, then with a path all that is below it is excluded, a
scan lists what a scan without patterns lists and the patterns do not exclude, and nothing is listed
in a directory that the scan without patterns lists and the patterns exclude. -/
theorem scan_of_subtrees_eq_filter (ignore : List String)
    (hends : ∀ text ∈ ignore, (Pattern.compile? text).isSome → subtreeEnding <:+ text.toList) :
    (∀ path more : String, path ≠ "" → path.toList.head? ≠ some '/' →
      (PatternSet.ofTexts ignore).excludes path = true →
        (PatternSet.ofTexts ignore).excludes (path ++ "/" ++ more) = true) ∧
    ∀ (root : String) (disk : Disk),
      (∀ tree, disk.stat? root = some tree → tree.WellFormed ∧ tree.WithoutBackslash) →
        (ofPatterns root ignore).scan disk =
          ((ofPatterns root []).scan disk).map (fun entries =>
            entries.filter fun e => !(ofPatterns root ignore).isIgnored e.path) ∧
        ∀ entries, (ofPatterns root []).scan disk = .ok entries → ∀ e ∈ entries,
          (ofPatterns root ignore).isIgnored e.path = true →
            (ofPatterns root ignore).listOneLevel disk e.path = [] := by
  refine ⟨fun path more hne hroot hpath => ?_, fun root disk htree => ?_⟩
  · exact PatternSet.excludes_append hends (by simpa using hne) hroot hpath more
  have hclosed := ignoresBelow_of_subtrees root hends
  have hcheck (patterns : List String) : (ofPatterns root patterns).checkRoot disk =
      (ofPatterns root []).checkRoot disk := rfl
  rw [scan, scan, hcheck]
  cases hroot : (ofPatterns root []).checkRoot disk with
  | error e => exact ⟨rfl, fun _ h => by cases h⟩
  | ok tree =>
    obtain ⟨hw, hb⟩ := htree tree (checkRoot_eq_ok_iff.mp hroot).1
    refine ⟨?_, fun entries hentries e he hignored => ?_⟩
    · rw [Except.map, Except.map, Except.map,
        hclosed.below_eq_filter (ofPatterns root []) rfl (fun _ => rfl) hw hb]
    · rw [← Except.ok.inj hentries] at he
      obtain ⟨names, found, hne, hat, -, -, rfl⟩ := (mem_below_root hw hb).mp he
      exact hclosed.listOneLevel_eq_nil disk (by simpa using hne)
        (Name.isPlainName_of_mem_map (Node.isPlain hw hb hat)) hignored

theorem scan_of_subtrees_sample :
    (PatternSet.ofTexts ["[", "\x7bn,o\x7d/**"]).excludes ("n" ++ "/" ++ "x") = true ∧
      (ofPatterns "/" ["[", "\x7bn,o\x7d/**"]).scan (.ofTree sampleTree) =
        ((ofPatterns "/" []).scan (.ofTree sampleTree)).map (fun entries =>
          entries.filter fun e => !(ofPatterns "/" ["[", "\x7bn,o\x7d/**"]).isIgnored e.path) ∧
      (ofPatterns "/" ["[", "\x7bn,o\x7d/**"]).listOneLevel (.ofTree sampleTree) "n" = [] := by
  have hroot : Disk.stat? (.ofTree sampleTree) "/" = some sampleTree := stat?_root rfl
  obtain ⟨hclosed, hscan⟩ :=
    scan_of_subtrees_eq_filter ["[", "\x7bn,o\x7d/**"] (by decide +kernel)
  have htree : ∀ tree, Disk.stat? (.ofTree sampleTree) "/" = some tree →
      tree.WellFormed ∧ tree.WithoutBackslash := by
    intro tree h
    rw [← Option.some.inj (hroot.symm.trans h)]
    exact ⟨by decide, by decide⟩
  obtain ⟨hfilter, hlisting⟩ := hscan "/" (.ofTree sampleTree) htree
  refine ⟨hclosed "n" "x" (by decide) (by decide) (by decide +kernel), hfilter, ?_⟩
  have hmem : Entry.ofPath "n" true ∈ (ofPatterns "/" []).below sampleTree :=
    (mem_below_root (by decide) (by decide)).mpr
      ⟨["n"], .dir [("x", .emptyFile)], by simp, rfl, by decide, by decide, rfl⟩
  have hempty := hlisting _ (scan_eq_below hroot rfl rfl) _ hmem (by decide +kernel)
  rwa [Entry.path_ofPath] at hempty

end Scanner

end ProjectLayout.Scan
