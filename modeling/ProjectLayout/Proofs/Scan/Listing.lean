import ProjectLayout.Proofs.Scan.Component

/-!
# Listings beside the scan

A directory is listed (`list_one_level`) by asking for its path once more, without the walk that a
scan makes from the root.  Where all names are texts, what a scan and a listing say of one directory
is in the same order, so that it is enough to compare what they hold.

* `Scanner.mem_listOneLevel_pathOf` — what is listed in a directory of the tree.
* `Scanner.mem_filter_below` — what a scan says of one directory.
* `Scanner.narrower_views_agree_with_scan` — the narrower views are parts of the scan.
-/

namespace ProjectLayout.Scan

open Disk Glob

/-! ## Paths of directories -/

/-- What is directly in a directory has the path of the directory in front of its name. -/
theorem directory_ofPath_pathOf {above : List String} {name : String}
    (habove : ∀ n ∈ above, IsEntryName n) (hname : IsEntryName name) (isDirectory : Bool) :
    (Entry.ofPath (pathOf (above ++ [name])) isDirectory).directory = pathOf above := by
  rw [← joinRelative_pathOf habove, joinRelative]
  split
  · next hempty =>
    have hcut : Text.cutAtLast '/' name.toList = none := Text.cutAtLast_eq_none.mpr hname.2
    simpa [Entry.ofPath, hcut] using (String.isEmpty_iff.mp hempty).symm
  · simp [Entry.ofPath, Text.cutAtLast_append (pathOf above).toList hname.2]

theorem name_ofPath_pathOf {above : List String} {name : String}
    (habove : ∀ n ∈ above, IsEntryName n) (hname : IsEntryName name) (isDirectory : Bool) :
    (Entry.ofPath (pathOf (above ++ [name])) isDirectory).name = name := by
  rw [← joinRelative_pathOf habove, joinRelative]
  split
  · have hcut : Text.cutAtLast '/' name.toList = none := Text.cutAtLast_eq_none.mpr hname.2
    simp [Entry.ofPath, hcut]
  · simp [Entry.ofPath, Text.cutAtLast_append (pathOf above).toList hname.2]

/-- Different names have different paths, and no names at all have the empty one. -/
theorem eq_of_pathOf_eq {names others : List String} (hnames : ∀ name ∈ names, IsEntryName name)
    (hothers : ∀ name ∈ others, IsEntryName name) (h : pathOf names = pathOf others) :
    names = others := by
  by_cases hn : names = []
  · by_cases ho : others = []
    · rw [hn, ho]
    · subst hn
      exact absurd h.symm (pathOf_ne_empty ho hothers)
  · by_cases ho : others = []
    · subst ho
      exact absurd h (pathOf_ne_empty hn hnames)
    · exact pathOf_injective hn ho hnames hothers h

namespace Scanner

variable {scanner : Scanner} {disk : Disk}

/-! ## What a listing holds -/

theorem diskPath_pathOf {names : List String} (h : ∀ name ∈ names, IsPlainName name) :
    scanner.diskPath (pathOf names) = joinPath scanner.root (pathOf names) := by
  rw [diskPath, normalizeRelative_pathOf h]

theorem listOneLevel_eq_nil {dir : String} (h : scanner.hasDirectory disk dir = false) :
    scanner.listOneLevel disk dir = [] := by
  refine List.eq_nil_iff_forall_not_mem.mpr fun e he => ?_
  obtain ⟨entries, -, -, hlist, -⟩ := mem_listOneLevel.mp he
  obtain ⟨rights, hstat, -⟩ := list_eq_ok_iff.mp hlist
  rw [hasDirectory, isDirectory, hstat] at h
  exact absurd h (by simp [Node.isDir])

/-- Component directories are the directories among what is listed in the candidates. -/
theorem componentDirectories_eq_flatMap (candidates : List String) :
    scanner.componentDirectories disk candidates = candidates.flatMap fun dir =>
      ((scanner.listOneLevel disk dir).filter (·.isDirectory)).map (·.path) := by
  refine List.flatMap_congr fun dir _ => ?_
  split
  · rfl
  · next hmissing =>
    rw [listOneLevel_eq_nil (by simpa using hmissing)]
    rfl

/-- The entries of a directory are listed in order, if their names are texts. -/
theorem listOneLevel_pairwise {dir : String} {above : List String}
    (hdir : normalizeRelative dir = pathOf above) (habove : ∀ name ∈ above, IsEntryName name)
    (hw : ∀ entries, disk.list (scanner.diskPath dir) = .ok entries →
      (entries.map Prod.fst).Nodup ∧ ∀ e ∈ entries, e.1.IsEntry ∧ e.1.isText = true) :
    (scanner.listOneLevel disk dir).Pairwise fun a b => Earlier a.path b.path := by
  unfold listOneLevel
  split
  · exact .nil
  next entries hlist =>
  obtain ⟨hnodup, hentries⟩ := hw entries hlist
  rw [hdir]
  -- what is listed is known by its name, and no name comes twice
  have hform (x : Name × Node) (hx : x ∈ entries) (e : Entry)
      (he : scanner.listed? (pathOf above) x.1 x.2.isDir = some e) :
      x.1 = .text e.name ∧ IsEntryName e.name ∧ e.path = pathOf (above ++ [e.name]) := by
    obtain ⟨name, node⟩ := x
    obtain ⟨hentry, htext⟩ := hentries _ hx
    obtain ⟨text, rfl⟩ := Name.isText_iff.mp htext
    obtain ⟨-, rfl⟩ := listed?_eq_some_iff.mp he
    rw [Name.lossy_text, joinRelative_pathOf habove, name_ofPath_pathOf habove hentry]
    exact ⟨rfl, hentry, rfl⟩
  have hdistinct : (entries.filterMap fun x =>
      scanner.listed? (pathOf above) x.1 x.2.isDir).Pairwise fun a b => a.name ≠ b.name := by
    rw [List.pairwise_filterMap]
    refine (List.pairwise_map.mp hnodup).imp_of_mem fun {x y} hx hy hne a ha b hb hname => ?_
    rw [(hform x hx a ha).1, (hform y hy b hb).1, hname] at hne
    exact hne rfl
  have hsorted := List.pairwise_mergeSort entryLe_trans entryLe_total
    (entries.filterMap fun x => scanner.listed? (pathOf above) x.1 x.2.isDir)
  have hnames := (List.mergeSort_perm _ entryLe).symm.pairwise hdistinct fun {a b} h => h.symm
  refine (hsorted.and hnames).imp_of_mem fun {a b} ha hb hab => ?_
  obtain ⟨x, hx, hxa⟩ := List.mem_filterMap.mp (List.mem_mergeSort.mp ha)
  obtain ⟨y, hy, hyb⟩ := List.mem_filterMap.mp (List.mem_mergeSort.mp hb)
  obtain ⟨-, hnamea, hpatha⟩ := hform x hx a hxa
  obtain ⟨-, hnameb, hpathb⟩ := hform y hy b hyb
  rw [hpatha, hpathb]
  refine earlier_of_before (by simp) (by simp) (List.forall_mem_append.mpr ⟨habove, by simpa⟩)
    (List.forall_mem_append.mpr ⟨habove, by simpa⟩) ?_
  have hlt : NameLt (.text a.name) (.text b.name) := byteLt_of_entryLe hab.1 hab.2
  rw [List.map_append, List.map_append]
  exact before_of_nameLt _ hlt [] []

/-! ## Directories that a scan comes to -/

theorem keeps_nil : scanner.Keeps [] := fun _ hway hne => absurd (List.prefix_nil.mp hway) hne

theorem canRead_nil (tree : Node) : scanner.CanRead tree [] :=
  fun _ hway hne => absurd (List.prefix_nil.mp hway) hne

theorem keeps_append_singleton {names : List Name} {name : Name} :
    scanner.Keeps (names ++ [name]) ↔
      scanner.Keeps names ∧
        scanner.isIgnored (pathOf ((names ++ [name]).map Name.lossy)) = false := by
  constructor
  · intro h
    exact ⟨fun way hway => h way (hway.trans (List.prefix_append _ _)),
      h _ (List.prefix_refl _) (by simp)⟩
  · rintro ⟨habove, hlast⟩ way hway hne
    rcases List.prefix_concat_iff.mp hway with rfl | hway
    · exact hlast
    · exact habove way hway hne

theorem canRead_append_singleton {tree : Node} {names : List Name} {name : Name} :
    scanner.CanRead tree (names ++ [name]) ↔
      scanner.CanRead tree names ∧ scanner.fitsAt names = true ∧ tree.isListable names = true := by
  constructor
  · intro h
    have hup (way : List Name) (hway : way <+: names) :
        scanner.fitsAt way = true ∧ tree.isListable way = true :=
      h way (hway.trans (List.prefix_append _ _)) fun heq => by
        have := heq ▸ hway.length_le
        simp only [List.length_append, List.length_singleton] at this
        omega
    exact ⟨fun way hway _ => hup way hway, hup names (List.prefix_refl _)⟩
  · rintro ⟨habove, hlast⟩ way hway hne
    rcases List.prefix_concat_iff.mp hway with rfl | hway
    · exact absurd rfl hne
    · by_cases heq : way = names
      · exact heq ▸ hlast
      · exact habove way hway heq

section Below

variable {tree : Node} {above : List String} {sub : List (Name × Node)} {rights : Rights}
variable (hroot : disk.stat? scanner.root = some tree) (hdir : tree.isDir = true)
  (hw : tree.WellFormed) (hb : tree.WithoutBackslash) (ht : tree.HasTextNames)
  (hs : tree.Storable) (hat : tree.at? (above.map .text) = some (.dir sub rights))

include hw hb ht hat in
/-- What a scan says of a directory that it comes to. -/
theorem mem_filter_below (hkeeps : scanner.Keeps (above.map .text))
    (hread : scanner.CanRead tree (above.map .text)) {e : Entry} :
    e ∈ (scanner.below tree).filter (·.directory == pathOf above) ↔
      (scanner.fitsAt (above.map .text) = true ∧ tree.isListable (above.map .text) = true) ∧
        ∃ name node, tree.at? ((above ++ [name]).map .text) = some node ∧
          scanner.isIgnored (pathOf (above ++ [name])) = false ∧
          e = Entry.ofPath (pathOf (above ++ [name])) node.isDir := by
  have habove := hw.isEntryName hat
  have hsplit (front : List String) (name : String) :
      (front ++ [name]).map Name.text = front.map .text ++ [.text name] := by simp
  rw [List.mem_filter, beq_iff_eq, mem_below_root hw hb]
  constructor
  · rintro ⟨⟨names, found, hne, hfound, hkept, hcan, rfl⟩, hdirectory⟩
    obtain ⟨texts, rfl⟩ := ht.exists_texts hfound
    obtain ⟨front, name, rfl⟩ := (List.eq_nil_or_concat' texts).resolve_left (by simpa using hne)
    have hnames := hw.isEntryName hfound
    have hfront : ∀ n ∈ front, IsEntryName n := fun n hn => hnames n (List.mem_append_left _ hn)
    rw [Name.map_lossy_map_text, directory_ofPath_pathOf hfront (hnames name (by simp))]
      at hdirectory
    obtain rfl := eq_of_pathOf_eq hfront habove hdirectory
    rw [hsplit] at hkept hcan
    have hlast := (keeps_append_singleton.mp hkept).2
    rw [← hsplit, Name.map_lossy_map_text] at hlast
    exact ⟨(canRead_append_singleton.mp hcan).2, name, found, hfound, hlast, by
      rw [Name.map_lossy_map_text]⟩
  · rintro ⟨hlistable, name, node, hnode, hkept, rfl⟩
    have hname := hw.isEntryName hnode name (by simp)
    refine ⟨⟨_, node, by simp, hnode, ?_, ?_, by rw [Name.map_lossy_map_text]⟩,
      directory_ofPath_pathOf habove hname _⟩
    · rw [hsplit, keeps_append_singleton, ← hsplit, Name.map_lossy_map_text]
      exact ⟨hkeeps, hkept⟩
    · rw [hsplit, canRead_append_singleton]
      exact ⟨hread, hlistable⟩

include hroot in
/-- A directory that a scan comes to has a full path that can be asked for if and only if the path
that a listing asks for can be; of the root this has to be known. -/
theorem fitsLimit_diskPath_pathOf (hslash : above = [] → fitsLimit (scanner.diskPath "") = true)
    (habove : ∀ name ∈ above, IsPlainName name) :
    fitsLimit (scanner.diskPath (pathOf above)) = scanner.fitsAt (above.map .text) := by
  by_cases hnil : above = []
  · have hfits := (askable_of_stat? hroot).2
    rw [hnil]
    exact (hslash hnil).trans hfits.symm
  · rw [diskPath_pathOf habove, scanner.fitsAt_map_text hnil fun name hn => (habove name hn).1]

include hroot hdir hw hb hs hat

/-- A directory of the tree is listed if its path is short enough and it can be listed. -/
theorem list_pathOf {entries : List (Name × Node)} :
    disk.list (scanner.diskPath (pathOf above)) = .ok entries ↔
      (fitsLimit (scanner.diskPath (pathOf above)) = true ∧
        tree.isListable (above.map .text) = true) ∧ entries = sub := by
  rw [list_eq_ok_iff, diskPath_pathOf (Node.isPlainName_of_at? hw hb hat),
    stat?_joinPath_pathOf hroot hdir (hw.isEntryName hat) (hs.isStorable hat) hat rfl,
    Node.isListable, hat, Option.any_some, Node.rights_dir]
  split
  · next hopen =>
    obtain ⟨hfits, hopen⟩ := Bool.and_eq_true_iff.mp hopen
    rw [hfits, hopen, Bool.true_and]
    constructor
    · rintro ⟨_, hsub, hlist⟩
      obtain ⟨rfl, rfl⟩ := Node.dir.inj (Option.some.inj hsub)
      exact ⟨⟨rfl, hlist⟩, rfl⟩
    · rintro ⟨⟨-, hlist⟩, rfl⟩
      exact ⟨rights, rfl, hlist⟩
  · next hclosed =>
    constructor
    · rintro ⟨_, hsub, -⟩
      cases hsub
    · rintro ⟨⟨hfits, hread⟩, -⟩
      refine absurd ?_ hclosed
      rw [hfits, (Bool.and_eq_true_iff.mp hread).1]
      rfl

/-- What is listed in a directory of the tree. -/
theorem mem_listOneLevel_pathOf {e : Entry} :
    e ∈ scanner.listOneLevel disk (pathOf above) ↔
      (fitsLimit (scanner.diskPath (pathOf above)) = true ∧
        tree.isListable (above.map .text) = true) ∧
        ∃ name node, tree.at? (above.map .text ++ [name]) = some node ∧
          scanner.isIgnored (pathOf (above ++ [name.lossy])) = false ∧
          e = Entry.ofPath (pathOf (above ++ [name.lossy])) node.isDir := by
  have hchild (name : Name) (node : Node) :
      tree.at? (above.map .text ++ [name]) = some node ↔ (name, node) ∈ sub := by
    rw [Node.at?_append, hat]
    have hnodup : ((Node.dir sub rights).entries.map Prod.fst).Nodup :=
      (Node.Everywhere.at? hw hat).here.1
    exact (Node.at?_cons hnodup).trans (by simp [Node.at?, Node.entries])
  simp only [mem_listOneLevel, list_pathOf hroot hdir hw hb hs hat,
    normalizeRelative_pathOf (Node.isPlainName_of_at? hw hb hat),
    joinRelative_pathOf (hw.isEntryName hat), hchild]
  constructor
  · rintro ⟨_, name, node, ⟨hread, rfl⟩, hmem, hkept, he⟩
    exact ⟨hread, name, node, hmem, hkept, he⟩
  · rintro ⟨hread, name, node, hmem, hkept, he⟩
    exact ⟨sub, name, node, ⟨hread, rfl⟩, hmem, hkept, he⟩

include ht

/-- A listing of a directory that a scan comes to is what the scan says of it. -/
theorem listOneLevel_eq_filter (hslash : above = [] → fitsLimit (scanner.diskPath "") = true)
    (hkeeps : scanner.Keeps (above.map .text)) (hread : scanner.CanRead tree (above.map .text)) :
    scanner.listOneLevel disk (pathOf above) =
      (scanner.below tree).filter (·.directory == pathOf above) := by
  have hplain := Node.isPlainName_of_at? hw hb hat
  have hlisted : (scanner.listOneLevel disk (pathOf above)).Pairwise fun a b =>
      Earlier a.path b.path := by
    refine listOneLevel_pairwise (normalizeRelative_pathOf hplain) (hw.isEntryName hat) ?_
    intro entries hlist
    obtain ⟨-, rfl⟩ := (list_pathOf hroot hdir hw hb hs hat).mp hlist
    obtain ⟨hnodup, hentry⟩ := (Node.Everywhere.at? hw hat).here
    exact ⟨hnodup, fun e he => ⟨hentry e he, (Node.Everywhere.at? ht hat).here e he⟩⟩
  refine eq_of_pairwise_earlier hlisted ((below_pairwise hw hb ht).filter _) fun e => ?_
  rw [mem_listOneLevel_pathOf hroot hdir hw hb hs hat, mem_filter_below hw hb ht hat hkeeps hread,
    fitsLimit_diskPath_pathOf hroot hslash hplain]
  refine and_congr_right fun _ => ⟨?_, ?_⟩
  · rintro ⟨name, node, hnode, hkept, he⟩
    have htext : name.isText = true :=
      Node.forall_of_at? (q := fun name => name.isText = true) ht hnode name (by simp)
    obtain ⟨text, rfl⟩ := Name.isText_iff.mp htext
    exact ⟨text, node, by simpa using hnode, hkept, he⟩
  · rintro ⟨text, node, hnode, hkept, he⟩
    exact ⟨.text text, node, by simpa using hnode, hkept, he⟩

end Below

/-! ## The narrower views -/

/-- Whether a path is that of a directory among the entries of a scan, or that of the root, which a
listing asks for with a `/` behind it. -/
def IsScannedDirectory (scanner : Scanner) (entries : List Entry) (dir : String) : Prop :=
  (dir = "" ∧ fitsLimit (scanner.diskPath "") = true) ∨
    ∃ e ∈ entries, e.isDirectory = true ∧ e.path = dir

/-- Where all names are texts, the narrower views are parts of the scan: what is listed in a
directory is what the scan says of it, and component directories are the directories that the scan
says are in the candidates. -/
theorem narrower_views_agree_with_scan (scanner : Scanner) (disk : Disk) {tree : Node}
    (hroot : disk.stat? scanner.root = some tree) (hdir : tree.isDir = true)
    (hlist : tree.rights.list = true) (hw : tree.WellFormed) (hb : tree.WithoutBackslash)
    (ht : tree.HasTextNames) (hs : tree.Storable) :
    ∃ entries, scanner.scan disk = .ok entries ∧
      (∀ dir, scanner.IsScannedDirectory entries dir →
        scanner.listOneLevel disk dir = entries.filter (·.directory == dir)) ∧
      ∀ candidates, (∀ dir ∈ candidates, scanner.IsScannedDirectory entries dir) →
        scanner.componentDirectories disk candidates = candidates.flatMap fun dir =>
          (entries.filter fun e => e.isDirectory && e.directory == dir).map (·.path) := by
  have hlisting (dir : String) (h : scanner.IsScannedDirectory (scanner.below tree) dir) :
      scanner.listOneLevel disk dir = (scanner.below tree).filter (·.directory == dir) := by
    rcases h with ⟨rfl, hslash⟩ | ⟨e, he, hedir, rfl⟩
    · obtain ⟨sub, rights, rfl⟩ := Node.isDir_iff.mp hdir
      have hat : (Node.dir sub rights).at? (([] : List String).map .text) =
          some (.dir sub rights) := rfl
      have htop := listOneLevel_eq_filter hroot hdir hw hb ht hs hat (fun _ => hslash) keeps_nil
        (canRead_nil _)
      rwa [show pathOf [] = "" from rfl] at htop
    · obtain ⟨names, found, hne, hat, hkeeps, hread, rfl⟩ := (mem_below_root hw hb).mp he
      obtain ⟨texts, rfl⟩ := ht.exists_texts hat
      rw [Entry.isDirectory_ofPath] at hedir
      obtain ⟨sub, rights, rfl⟩ := Node.isDir_iff.mp hedir
      rw [Entry.path_ofPath, Name.map_lossy_map_text]
      exact listOneLevel_eq_filter hroot hdir hw hb ht hs hat (fun hnil => by simp [hnil] at hne)
        hkeeps hread
  refine ⟨_, scan_eq_below hroot hdir hlist, hlisting, fun candidates hcandidates => ?_⟩
  rw [componentDirectories_eq_flatMap]
  refine List.flatMap_congr fun dir hmem => ?_
  rw [hlisting dir (hcandidates dir hmem), List.filter_filter]

theorem narrower_views_sample :
    ∃ entries, (ofPatterns "/" ["n"]).scan (.ofTree sampleTree) = .ok entries ∧
      Entry.ofPath "a" true ∈ entries ∧
      (ofPatterns "/" ["n"]).listOneLevel (.ofTree sampleTree) "a" =
        entries.filter (·.directory == "a") ∧
      (ofPatterns "/" ["n"]).componentDirectories (.ofTree sampleTree) [""] =
        (entries.filter fun e => e.isDirectory && e.directory == "").map (·.path) := by
  have hroot : Disk.stat? (.ofTree sampleTree) "/" = some sampleTree := stat?_root rfl
  obtain ⟨entries, hscan, hlisting, hcomponents⟩ :=
    narrower_views_agree_with_scan (ofPatterns "/" ["n"]) (.ofTree sampleTree) hroot rfl rfl
      (by decide) (by decide) (by decide) (by decide)
  have hmem : Entry.ofPath "a" true ∈ entries := by
    have hbelow : (ofPatterns "/" ["n"]).scan (.ofTree sampleTree) = .ok (below _ sampleTree) :=
      scan_eq_below hroot rfl rfl
    rw [Except.ok.inj (hscan.symm.trans hbelow), mem_below_root (by decide) (by decide)]
    exact ⟨["a"], .dir [("b", .emptyFile)], by simp, rfl, by decide, by decide, rfl⟩
  refine ⟨entries, hscan, hmem, hlisting "a" (.inr ⟨_, hmem, rfl, rfl⟩), ?_⟩
  have htop : ∀ dir ∈ [""], (ofPatterns "/" ["n"]).IsScannedDirectory entries dir :=
    fun dir hdir => .inl ⟨List.mem_singleton.mp hdir, by decide⟩
  simpa using hcomponents [""] htop

/-! ## Where they do not agree -/

/-- What has a full path that is too long is not listed. -/
theorem listOneLevel_eq_nil_of_long {dir : String}
    (h : fitsLimit (scanner.diskPath dir) = false) : scanner.listOneLevel disk dir = [] := by
  refine List.eq_nil_iff_forall_not_mem.mpr fun e he => ?_
  obtain ⟨entries, -, -, hlist, -⟩ := mem_listOneLevel.mp he
  obtain ⟨rights, hstat, -⟩ := list_eq_ok_iff.mp hlist
  rw [(askable_of_stat? hstat).2] at h
  cases h

/-- A path of 4095 bytes that leads to the root. -/
def longRoot : String := idlePath 2047

theorem fitsLimit_longRoot : fitsLimit longRoot = true := by
  rw [fitsLimit, longRoot, utf8ByteSize_idlePath]
  decide

/-- A path without a `/` at its end gets one when something is joined to it. -/
theorem utf8ByteSize_joinPath_empty {base : String} (hne : base ≠ "")
    (hlast : base.toList.getLast? ≠ some '/') :
    (joinPath base "").utf8ByteSize = base.utf8ByteSize + 1 := by
  have hempty : base.isEmpty = false := by simpa using hne
  have hslash : "/".utf8ByteSize = 1 := by decide
  rw [joinPath, hempty, show isAbsolute "" = false by decide, Bool.or_self, if_neg (by decide),
    if_neg (by simpa using hlast)]
  simp only [String.utf8ByteSize_append, String.utf8ByteSize_empty, hslash]

/-- The root is not asked for with a `/` behind so long a path. -/
theorem not_fitsLimit_longRoot : fitsLimit (joinPath longRoot "") = false := by
  have hne : longRoot ≠ "" := by
    intro hempty
    have hsize := utf8ByteSize_idlePath 2047
    rw [← longRoot, hempty] at hsize
    simp at hsize
  rw [fitsLimit, utf8ByteSize_joinPath_empty hne (getLast?_idlePath_ne 2046), longRoot,
    utf8ByteSize_idlePath]
  decide

/-- In a root the path of which cannot be asked for with a `/` behind, nothing is listed. -/
theorem scanned_but_not_listed_of_long {root : String}
    (hroot : Disk.stat? (.ofTree sampleTree) root = some sampleTree)
    (hlong : fitsLimit (joinPath root "") = false) :
    ∃ entries, (ofPatterns root []).scan (.ofTree sampleTree) = .ok entries ∧
      Entry.ofPath "l" false ∈ entries.filter (·.directory == "") ∧
      (ofPatterns root []).listOneLevel (.ofTree sampleTree) "" = [] := by
  have hfits : (ofPatterns root []).fitsAt [] = true := (askable_of_stat? hroot).2
  have hread : (ofPatterns root []).CanRead sampleTree ([] ++ [.text "l"]) :=
    canRead_append_singleton.mpr ⟨canRead_nil _, hfits, rfl⟩
  refine ⟨_, scan_eq_below hroot rfl rfl, List.mem_filter.mpr ⟨?_, by decide⟩,
    listOneLevel_eq_nil_of_long hlong⟩
  exact (mem_below_root (by decide) (by decide)).mpr
    ⟨["l"], .link "a", by simp, rfl, fun _ _ _ => rfl, hread, rfl⟩

/-- A name that is no text. -/
def rawDir : Name := brokenName 0xff fromUTF8?_ff

/-- A project with one directory, the name of which is no text. -/
def rawProject : Node := .dir [(rawDir, .dir [("x", .emptyFile)])]

theorem mem_below_rawProject (names : List Name) {found : Node} (hne : names ≠ [])
    (hat : rawProject.at? names = some found)
    (hread : (ofPatterns "/" []).CanRead rawProject names) :
    Entry.ofPath (pathOf (names.map Name.lossy)) found.isDir ∈
      (ofPatterns "/" []).below rawProject :=
  (mem_below_root (by decide) (by decide)).mpr
    ⟨names, found, hne, hat, fun _ _ _ => rfl, hread, rfl⟩

/-- What is scanned in a root of 4095 bytes, or in a directory the name of which is no text, is not
listed. -/
theorem scanned_but_not_listed :
    (sampleTree.WithoutBackslash ∧
      ∃ entries, (ofPatterns longRoot []).scan (.ofTree sampleTree) = .ok entries ∧
        Entry.ofPath "l" false ∈ entries.filter (·.directory == "") ∧
        (ofPatterns longRoot []).listOneLevel (.ofTree sampleTree) "" = []) ∧
    rawProject.WithoutBackslash ∧
      ∃ entries, (ofPatterns "/" []).scan (.ofTree rawProject) = .ok entries ∧
        Entry.ofPath "\uFFFD" true ∈ entries ∧
        Entry.ofPath "\uFFFD/x" false ∈ entries.filter (·.directory == "\uFFFD") ∧
        (ofPatterns "/" []).listOneLevel (.ofTree rawProject) "\uFFFD" = [] := by
  have hlong := scanned_but_not_listed_of_long
    (stat?_idlePath rfl rfl fitsLimit_longRoot) not_fitsLimit_longRoot
  have hraw : Disk.stat? (.ofTree rawProject) "/" = some rawProject := stat?_root rfl
  refine ⟨⟨by decide, hlong⟩,
    by decide, _, scan_eq_below hraw rfl rfl, ?_, List.mem_filter.mpr ⟨?_, by decide⟩, ?_⟩
  · have hpath : pathOf ([rawDir].map Name.lossy) = "\uFFFD" := by decide
    exact hpath ▸ mem_below_rawProject [rawDir] (by simp) rfl (by decide)
  · have hpath : pathOf ([rawDir, "x"].map Name.lossy) = "\uFFFD/x" := by decide
    exact hpath ▸ mem_below_rawProject [rawDir, "x"] (by simp) rfl (by decide)
  · decide

end Scanner

end ProjectLayout.Scan
