import ProjectLayout.Proofs.Disk.Descent
import ProjectLayout.Proofs.Scan.Order
import ProjectLayout.Proofs.Scan.Paths

/-!
# What a scan lists

A scan (`scan_all`) goes down from the root and stops at what is ignored and at directories that
cannot be listed: what may not be listed, what is behind a directory that may not be searched, and
what has a full path that is too long to be asked for.

* `Scanner.Reaches` — whether a scan that has come to one place goes on to another below it.
* `Scanner.mem_places` — a scan comes exactly to what it reaches.
* `Scanner.places_pairwise` — it comes there in the order of the names.
* `Scanner.scan_lists_exactly` — both, for what is reported of the tree of a project.
-/

namespace ProjectLayout.Scan

open Disk

namespace Scanner

variable {scanner : Scanner}

/-! ## One directory -/

theorem blocks_eq_filterMap (above : List Name) (search : Bool) (entries : List (Name × Node)) :
    scanner.blocks above search entries = entries.filterMap fun e =>
      if scanner.isIgnored (reportedPath (above ++ [e.1])) then none
      else some (e.1, ⟨above ++ [e.1], e.2⟩ ::
        if search then scanner.places (above ++ [e.1]) e.2 else []) := by
  induction entries with
  | nil => rfl
  | cons e rest ih =>
    obtain ⟨name, node⟩ := e
    rw [blocks, List.filterMap_cons, ih]
    dsimp only
    split <;> rfl

theorem mem_blocks {above : List Name} {search : Bool} {entries : List (Name × Node)}
    {block : Name × List Place} :
    block ∈ scanner.blocks above search entries ↔
      ∃ node, (block.1, node) ∈ entries ∧
        scanner.isIgnored (reportedPath (above ++ [block.1])) = false ∧
        block.2 = ⟨above ++ [block.1], node⟩ ::
          if search then scanner.places (above ++ [block.1]) node else [] := by
  obtain ⟨name, listed⟩ := block
  rw [blocks_eq_filterMap, List.mem_filterMap]
  constructor
  · rintro ⟨e, he, h⟩
    split at h
    · simp at h
    · next hi =>
      simp only [Option.some.injEq, Prod.mk.injEq] at h
      obtain ⟨rfl, rfl⟩ := h
      exact ⟨e.2, he, by simpa using hi, rfl⟩
  · rintro ⟨node, he, hi, hl⟩
    exact ⟨(name, node), he, by simp_all⟩

/-- The names of the blocks are names of entries. -/
theorem map_fst_blocks_sublist (scanner : Scanner) (above : List Name) (search : Bool)
    (entries : List (Name × Node)) :
    ((scanner.blocks above search entries).map Prod.fst).Sublist (entries.map Prod.fst) := by
  induction entries with
  | nil => exact List.Sublist.refl _
  | cons e rest ih =>
    obtain ⟨name, node⟩ := e
    rw [blocks]
    split
    · exact ih.cons name
    · exact ih.cons_cons name

/-- What a scan comes to below a directory comes with one of the entries of the directory. -/
theorem mem_places_dir {above : List Name} {entries : List (Name × Node)} {rights : Rights}
    {place : Place} :
    place ∈ scanner.places above (.dir entries rights) ↔
      (rights.list = true ∧ scanner.fitsAt above = true) ∧
      ∃ name node, (name, node) ∈ entries ∧
        scanner.isIgnored (reportedPath (above ++ [name])) = false ∧
        (place = ⟨above ++ [name], node⟩ ∨
          rights.search = true ∧ place ∈ scanner.places (above ++ [name]) node) := by
  rw [places, ← Bool.and_eq_true_iff]
  split
  · next hread =>
    simp only [List.mem_flatMap, mem_sortByName, hread, true_and]
    have hcons (names : List Name) (node : Node) :
        (place ∈ (⟨names, node⟩ : Place) ::
            if rights.search then scanner.places names node else []) ↔
          place = ⟨names, node⟩ ∨ rights.search = true ∧ place ∈ scanner.places names node := by
      rw [List.mem_cons]
      cases rights.search <;> simp
    constructor
    · rintro ⟨block, hblock, hp⟩
      obtain ⟨node, hnode, hi, hl⟩ := mem_blocks.mp hblock
      rw [hl] at hp
      exact ⟨block.1, node, hnode, hi, (hcons _ _).mp hp⟩
    · rintro ⟨name, node, hnode, hi, hp⟩
      exact ⟨(name, _), mem_blocks.mpr ⟨node, hnode, hi, rfl⟩, (hcons _ _).mpr hp⟩
  · next hread => simp [hread]

/-! ## What is reached -/

/-- Whether a scan that has come to `node` under the names `above` goes on to what is under `names`
from there: nothing on the way is ignored, and every directory on the way can be listed. -/
structure Reaches (scanner : Scanner) (above : List Name) (node : Node) (names : List Name) :
    Prop where
  kept : ∀ way, way <+: names → way ≠ [] →
    scanner.isIgnored (reportedPath (above ++ way)) = false
  readable : ∀ way, way <+: names → way ≠ names →
    scanner.fitsAt (above ++ way) = true ∧ node.isListable way = true

/-- A scan goes on through an entry that is not ignored of a directory that can be listed. -/
theorem reaches_cons {above names : List Name} {name : Name} {node child : Node}
    (hchild : node.entries.lookup name = some child) :
    scanner.Reaches above node (name :: names) ↔
      (node.rights.list = true ∧ scanner.fitsAt above = true) ∧
        scanner.isIgnored (reportedPath (above ++ [name])) = false ∧
        (names = [] ∨
          node.rights.search = true ∧ scanner.Reaches (above ++ [name]) child names) := by
  have hsplit (way : List Name) : above ++ name :: way = above ++ [name] ++ way := by simp
  constructor
  · intro h
    obtain ⟨hfits, hlist⟩ := h.readable [] List.nil_prefix (by simp)
    rw [List.append_nil] at hfits
    rw [Node.isListable_nil] at hlist
    refine ⟨⟨hlist, hfits⟩, h.kept [name] (by simp) (by simp), ?_⟩
    by_cases hnil : names = []
    · exact .inl hnil
    have hbelow (way : List Name) (hway : way <+: names) (hne : way ≠ names) :
        scanner.fitsAt (above ++ [name] ++ way) = true ∧
          node.rights.search = true ∧ child.isListable way = true := by
      have hread := h.readable (name :: way) (List.cons_prefix_cons.mpr ⟨rfl, hway⟩)
        (by simpa using hne)
      rwa [hsplit, Node.isListable_cons hchild, Bool.and_eq_true] at hread
    refine .inr ⟨(hbelow [] List.nil_prefix (Ne.symm hnil)).2.1, ?_, ?_⟩
    · intro way hway hne
      rw [← hsplit]
      exact h.kept (name :: way) (List.cons_prefix_cons.mpr ⟨rfl, hway⟩) (by simp)
    · intro way hway hne
      exact ⟨(hbelow way hway hne).1, (hbelow way hway hne).2.2⟩
  · rintro ⟨⟨hlist, hfits⟩, hkept, h⟩
    refine ⟨?_, ?_⟩
    · intro way hway hne
      rcases List.prefix_cons_iff.mp hway with rfl | ⟨more, rfl, hmore⟩
      · exact absurd rfl hne
      · rw [hsplit]
        cases more with
        | nil => simpa using hkept
        | cons next rest =>
          have hnames : names ≠ [] := hmore.ne_nil (by simp)
          exact (h.resolve_left hnames).2.kept _ hmore (by simp)
    · intro way hway hne
      rcases List.prefix_cons_iff.mp hway with rfl | ⟨more, rfl, hmore⟩
      · exact ⟨by simpa using hfits, by simpa using hlist⟩
      · have hproper : more ≠ names := by simpa using hne
        have hnames : names ≠ [] := fun hnil => hproper (by
          rw [hnil] at hmore ⊢
          exact List.prefix_nil.mp hmore)
        obtain ⟨hsearch, hreach⟩ := h.resolve_left hnames
        rw [hsplit, Node.isListable_cons hchild, hsearch, Bool.true_and]
        exact hreach.readable more hmore hproper

/-- A scan comes exactly to what it reaches. -/
theorem mem_places {node : Node} (hw : node.WellFormed) {above : List Name} {place : Place} :
    place ∈ scanner.places above node ↔
      ∃ names, names ≠ [] ∧ node.at? names = some place.node ∧
        scanner.Reaches above node names ∧ place.names = above ++ names := by
  induction node using Node.dirInduction generalizing above with
  | file contents =>
    simp only [places, List.not_mem_nil, false_iff]
    rintro ⟨names, hne, hat, -⟩
    cases names <;> simp [Node.at?, Node.entries] at hne hat
  | link target =>
    simp only [places, List.not_mem_nil, false_iff]
    rintro ⟨names, hne, hat, -⟩
    cases names <;> simp [Node.at?, Node.entries] at hne hat
  | dir entries rights ih =>
    rw [mem_places_dir]
    constructor
    · rintro ⟨hread, name, node, hnode, hkept, rfl | ⟨hsearch, hp⟩⟩
      · have hlookup : (Node.dir entries rights).entries.lookup name = some node :=
          Node.lookup_eq_of_mem hw.nodup hnode
        exact ⟨[name], by simp, (Node.at?_cons hw.nodup).mpr ⟨node, hnode, rfl⟩,
          (reaches_cons hlookup).mpr ⟨hread, hkept, .inl rfl⟩, rfl⟩
      · have hlookup : (Node.dir entries rights).entries.lookup name = some node :=
          Node.lookup_eq_of_mem hw.nodup hnode
        obtain ⟨names, -, hat, hreach, hp⟩ :=
          (ih _ hnode (Node.Everywhere.child hw hnode)).mp hp
        exact ⟨name :: names, by simp, (Node.at?_cons hw.nodup).mpr ⟨node, hnode, hat⟩,
          (reaches_cons hlookup).mpr ⟨hread, hkept, .inr ⟨hsearch, hreach⟩⟩, by simpa using hp⟩
    · rintro ⟨names, hne, hat, hreach, hp⟩
      cases names with
      | nil => exact absurd rfl hne
      | cons name names =>
        obtain ⟨node, hnode, hat⟩ := (Node.at?_cons hw.nodup).mp hat
        obtain ⟨hread, hkept, hmore⟩ :=
          (reaches_cons (Node.lookup_eq_of_mem hw.nodup hnode)).mp hreach
        refine ⟨hread, name, node, hnode, hkept, ?_⟩
        cases names with
        | nil =>
          obtain rfl : node = place.node := Option.some.inj hat
          exact .inl (congrArg (Place.mk · _) hp)
        | cons next rest =>
          obtain ⟨hsearch, hreach⟩ := hmore.resolve_left (by simp)
          exact .inr ⟨hsearch, (ih _ hnode (Node.Everywhere.child hw hnode)).mpr
            ⟨next :: rest, by simp, hat, hreach, by simpa using hp⟩⟩

/-! ## Order -/

/-- Each place of a block is at or below the entry that the block is about. -/
theorem names_of_mem_block {above : List Name} {search : Bool} {entries : List (Name × Node)}
    (hw : ∀ e ∈ entries, e.2.WellFormed) {block : Name × List Place}
    (hblock : block ∈ scanner.blocks above search entries) {place : Place}
    (hp : place ∈ block.2) : ∃ names, place.names = above ++ block.1 :: names := by
  obtain ⟨node, hnode, -, hl⟩ := mem_blocks.mp hblock
  rw [hl] at hp
  rcases List.mem_cons.mp hp with rfl | hp
  · exact ⟨[], rfl⟩
  · cases search with
    | false => simp at hp
    | true =>
      obtain ⟨names, -, -, -, hp⟩ := (mem_places (hw _ hnode)).mp hp
      exact ⟨names, by simpa using hp⟩

/-- A scan comes to what is below a node in the order of the names. -/
theorem places_pairwise {node : Node} (hw : node.WellFormed) (above : List Name) :
    (scanner.places above node).Pairwise fun a b => Before a.names b.names := by
  induction node using Node.dirInduction generalizing above with
  | file contents => exact .nil
  | link target => exact .nil
  | dir entries rights ih =>
    have hwc : ∀ e ∈ entries, e.2.WellFormed := fun e he => Node.Everywhere.child hw he
    rw [places]
    split
    · rw [List.pairwise_flatMap]
      constructor
      · intro block hblock
        obtain ⟨child, hchild, -, hl⟩ := mem_blocks.mp (mem_sortByName.mp hblock)
        rw [hl, List.pairwise_cons]
        split
        · refine ⟨fun place hp => ?_, ih _ hchild (hwc _ hchild) _⟩
          obtain ⟨names, hne, -, -, hp⟩ := (mem_places (hwc _ hchild)).mp hp
          rw [hp]
          exact before_append _ hne
        · exact ⟨fun _ hp => absurd hp List.not_mem_nil, .nil⟩
      · have hnames := (map_fst_blocks_sublist scanner above rights.search entries).nodup hw.nodup
        refine (sortByName_pairwise hnames).imp_of_mem ?_
        intro a b hma hmb hlt x hx y hy
        obtain ⟨namesA, hxa⟩ := names_of_mem_block hwc (mem_sortByName.mp hma) hx
        obtain ⟨namesB, hyb⟩ := names_of_mem_block hwc (mem_sortByName.mp hmb) hy
        rw [hxa, hyb]
        exact before_of_nameLt above hlt namesA namesB
    · exact .nil

/-! ## The whole tree -/

/-- Whether neither what is under some names nor a directory on the way to it is ignored. -/
def Keeps (scanner : Scanner) (names : List Name) : Prop :=
  ∀ way, way <+: names → way ≠ [] → scanner.isIgnored (pathOf (way.map Name.lossy)) = false

/-- Whether every directory on the way to what is under some names can be listed: its full path is
short enough to be asked for, those above it may be searched, and it may be listed itself. -/
def CanRead (scanner : Scanner) (tree : Node) (names : List Name) : Prop :=
  ∀ way, way <+: names → way ≠ names → scanner.fitsAt way = true ∧ tree.isListable way = true

theorem keeps_iff {names : List Name} :
    scanner.Keeps names ↔
      ∀ k, k < names.length →
        scanner.isIgnored (pathOf ((names.take (k + 1)).map Name.lossy)) = false := by
  constructor
  · intro h k hk
    exact h _ (List.take_prefix _ _) (List.ne_nil_of_length_pos (by simp; omega))
  · intro h way hway hne
    have hpos := List.length_pos_iff.mpr hne
    rw [List.prefix_iff_eq_take.mp hway, show way.length = way.length - 1 + 1 by omega]
    exact h _ (by have := hway.length_le; omega)

theorem canRead_iff {tree : Node} {names : List Name} :
    scanner.CanRead tree names ↔
      ∀ k, k < names.length →
        scanner.fitsAt (names.take k) = true ∧ tree.isListable (names.take k) = true := by
  constructor
  · intro h k hk
    refine h _ (List.take_prefix _ _) fun heq => ?_
    have := congrArg List.length heq
    rw [List.length_take] at this
    omega
  · intro h way hway hne
    rw [List.prefix_iff_eq_take.mp hway]
    exact h _ (Nat.lt_of_le_of_ne hway.length_le fun heq => hne (hway.eq_of_length heq))

instance (scanner : Scanner) (names : List Name) : Decidable (scanner.Keeps names) :=
  decidable_of_iff _ keeps_iff.symm

instance (scanner : Scanner) (tree : Node) (names : List Name) :
    Decidable (scanner.CanRead tree names) :=
  decidable_of_iff _ canRead_iff.symm

theorem reaches_root_iff {tree : Node} {names : List Name} (h : ∀ name ∈ names, name.IsPlain) :
    scanner.Reaches [] tree names ↔ scanner.Keeps names ∧ scanner.CanRead tree names := by
  have hpath (way : List Name) (hway : way <+: names) :
      reportedPath way = pathOf (way.map Name.lossy) :=
    reportedPath_eq_pathOf fun name hn => h name (hway.subset hn)
  constructor
  · intro hr
    exact ⟨fun way hway hne => hpath way hway ▸ hr.kept way hway hne, hr.readable⟩
  · rintro ⟨hk, hc⟩
    refine ⟨fun way hway hne => ?_, hc⟩
    rw [List.nil_append, hpath way hway]
    exact hk way hway hne

theorem checkRoot_eq_ok_iff {disk : Disk} {tree : Node} :
    scanner.checkRoot disk = .ok tree ↔
      disk.stat? scanner.root = some tree ∧ tree.isDir = true ∧ tree.rights.list = true := by
  unfold checkRoot
  split
  · next entries rights hstat =>
    cases hlist : disk.list scanner.root with
    | ok listed =>
      obtain ⟨_, hstat', hright⟩ := list_eq_ok_iff.mp hlist
      obtain ⟨rfl, rfl⟩ := Node.dir.inj (Option.some.inj (hstat.symm.trans hstat'))
      constructor
      · intro h
        obtain rfl := Except.ok.inj h
        exact ⟨hstat, rfl, hright⟩
      · rintro ⟨h, -⟩
        exact congrArg Except.ok (Option.some.inj (hstat.symm.trans h))
    | error cause =>
      refine iff_of_false nofun ?_
      rintro ⟨h, -, hright⟩
      obtain rfl := Option.some.inj (hstat.symm.trans h)
      rw [list_eq_ok_iff.mpr ⟨rights, hstat, hright⟩] at hlist
      cases hlist
  · next hno =>
    refine iff_of_false nofun ?_
    rintro ⟨h, hdir, -⟩
    obtain ⟨entries, rights, rfl⟩ := Node.isDir_iff.mp hdir
    exact hno entries rights h

theorem scan_eq_below {disk : Disk} {tree : Node} (hroot : disk.stat? scanner.root = some tree)
    (hdir : tree.isDir = true) (hlist : tree.rights.list = true) :
    scanner.scan disk = .ok (scanner.below tree) := by
  rw [scan, checkRoot_eq_ok_iff.mpr ⟨hroot, hdir, hlist⟩]
  rfl

/-- What a scan of a tree without backslashes comes to: what is kept and can be read. -/
theorem mem_places_root {tree : Node} (hw : tree.WellFormed) (hb : tree.WithoutBackslash)
    {place : Place} :
    place ∈ scanner.places [] tree ↔
      place.names ≠ [] ∧ tree.at? place.names = some place.node ∧ scanner.Keeps place.names ∧
        scanner.CanRead tree place.names := by
  rw [mem_places hw]
  constructor
  · rintro ⟨names, hne, hat, hr, hp⟩
    rw [hp, List.nil_append]
    exact ⟨hne, hat, (reaches_root_iff (Node.isPlain hw hb hat)).mp hr⟩
  · rintro ⟨hne, hat, hkept⟩
    exact ⟨place.names, hne, hat, (reaches_root_iff (Node.isPlain hw hb hat)).mpr hkept, rfl⟩

/-- The entry for something in a tree without backslashes. -/
theorem entry_eq_ofPath {tree : Node} (hw : tree.WellFormed) (hb : tree.WithoutBackslash)
    {place : Place} (hat : tree.at? place.names = some place.node) :
    place.entry = .ofPath (pathOf (place.names.map Name.lossy)) place.node.isDir := by
  rw [Place.entry, reportedPath_eq_pathOf (Node.isPlain hw hb hat)]

theorem mem_below_root {tree : Node} (hw : tree.WellFormed) (hb : tree.WithoutBackslash)
    {e : Entry} :
    e ∈ scanner.below tree ↔
      ∃ names found, names ≠ [] ∧ tree.at? names = some found ∧ scanner.Keeps names ∧
        scanner.CanRead tree names ∧
        e = Entry.ofPath (pathOf (names.map Name.lossy)) found.isDir := by
  simp only [below, List.mem_map, mem_places_root hw hb]
  constructor
  · rintro ⟨place, ⟨hne, hat, hkeeps, hread⟩, rfl⟩
    exact ⟨place.names, place.node, hne, hat, hkeeps, hread, entry_eq_ofPath hw hb hat⟩
  · rintro ⟨names, found, hne, hat, hkeeps, hread, rfl⟩
    exact ⟨⟨names, found⟩, ⟨hne, hat, hkeeps, hread⟩, entry_eq_ofPath hw hb hat⟩

/-- Where all names are texts, a path stands for one thing. -/
theorem ofPath_mem_below_iff {tree : Node} (hw : tree.WellFormed) (hb : tree.WithoutBackslash)
    (ht : tree.HasTextNames) {names : List String} (hne : names ≠ [])
    (hnames : ∀ name ∈ names, IsEntryName name) {isDirectory : Bool} :
    Entry.ofPath (pathOf names) isDirectory ∈ scanner.below tree ↔
      ∃ found, tree.at? (names.map .text) = some found ∧ scanner.Keeps (names.map .text) ∧
        scanner.CanRead tree (names.map .text) ∧ isDirectory = found.isDir := by
  rw [mem_below_root hw hb]
  constructor
  · rintro ⟨others, found, hone, hat, hkeeps, hread, he⟩
    obtain ⟨texts, rfl⟩ := ht.exists_texts hat
    rw [Name.map_lossy_map_text] at he
    have hpath : pathOf names = pathOf texts := congrArg Entry.path he
    obtain rfl : names = texts :=
      pathOf_injective hne (by simpa using hone) hnames (hw.isEntryName hat) hpath
    exact ⟨found, hat, hkeeps, hread, congrArg Entry.isDirectory he⟩
  · rintro ⟨found, hat, hkeeps, hread, rfl⟩
    exact ⟨names.map .text, found, by simpa using hne, hat, hkeeps, hread, by
      rw [Name.map_lossy_map_text]⟩

/-- Where all names are texts, what a scan reports is in the order of the paths. -/
theorem below_pairwise {tree : Node} (hw : tree.WellFormed) (hb : tree.WithoutBackslash)
    (ht : tree.HasTextNames) :
    (scanner.below tree).Pairwise fun a b => Earlier a.path b.path := by
  rw [below, List.pairwise_map]
  refine (places_pairwise hw []).imp_of_mem fun {a b} ha hbmem hlt => ?_
  obtain ⟨hnea, hata, -⟩ := (mem_places_root hw hb).mp ha
  obtain ⟨hneb, hatb, -⟩ := (mem_places_root hw hb).mp hbmem
  rw [entry_eq_ofPath hw hb hata, entry_eq_ofPath hw hb hatb, Entry.path_ofPath, Entry.path_ofPath]
  obtain ⟨textsA, hA⟩ := ht.exists_texts hata
  obtain ⟨textsB, hB⟩ := ht.exists_texts hatb
  rw [hA] at hnea hata hlt ⊢
  rw [hB] at hneb hatb hlt ⊢
  rw [Name.map_lossy_map_text, Name.map_lossy_map_text]
  exact earlier_of_before (by simpa using hnea) (by simpa using hneb) (hw.isEntryName hata)
    (hw.isEntryName hatb) hlt

/-- The parts of an entry that a scan lists. -/
theorem entry_parts {tree : Node} (hw : tree.WellFormed) (hb : tree.WithoutBackslash)
    {place : Place} (hne : place.names ≠ []) (hat : tree.at? place.names = some place.node) :
    place.entry.path = pathOf (place.names.map Name.lossy) ∧ '/' ∉ place.entry.name.toList ∧
      joinRelative place.entry.directory place.entry.name = place.entry.path ∧
      place.entry.isDirectory = place.node.isDir := by
  have hnames := Name.isEntryName_of_mem_map (hw.isEntry hat)
  rw [entry_eq_ofPath hw hb hat]
  refine ⟨rfl, Entry.slash_not_mem_name _ _, ?_, rfl⟩
  exact Entry.joinRelative_directory_name (ends_pathOf_ne (by simpa using hne) hnames).1 _

/-- A scan comes exactly to what is neither ignored nor below something ignored and in directories
that can all be listed; to each once, and in the order of the names.  What it reports is told by the
names as texts, and where all of them are texts the paths are different and in order. -/
theorem scan_lists_exactly (scanner : Scanner) (disk : Disk) {tree : Node}
    (hroot : disk.stat? scanner.root = some tree) (hdir : tree.isDir = true)
    (hlist : tree.rights.list = true) (hw : tree.WellFormed) (hb : tree.WithoutBackslash) :
    ∃ places : List Place, scanner.scan disk = .ok (places.map Place.entry) ∧
      (∀ place, place ∈ places ↔
        place.names ≠ [] ∧ tree.at? place.names = some place.node ∧ scanner.Keeps place.names ∧
          scanner.CanRead tree place.names) ∧
      (places.map (·.names)).Nodup ∧
      places.Pairwise (fun a b => Before a.names b.names) ∧
      (∀ place ∈ places, place.entry.path = pathOf (place.names.map Name.lossy) ∧
        '/' ∉ place.entry.name.toList ∧
        joinRelative place.entry.directory place.entry.name = place.entry.path ∧
        place.entry.isDirectory = place.node.isDir) ∧
      (tree.HasTextNames → (places.map (·.entry.path)).Nodup ∧
        places.Pairwise fun a b => Earlier a.entry.path b.entry.path) := by
  have hsorted : (scanner.places [] tree).Pairwise fun a b => Before a.names b.names :=
    places_pairwise hw []
  refine ⟨scanner.places [] tree, scan_eq_below hroot hdir hlist,
    fun place => mem_places_root hw hb, ?_, hsorted, fun place hp => ?_, fun ht => ?_⟩
  · rw [List.Nodup, List.pairwise_map]
    refine hsorted.imp fun {a b} hab heq => ?_
    rw [heq] at hab
    exact Before.irrefl _ hab
  · obtain ⟨hne, hat, -⟩ := (mem_places_root hw hb).mp hp
    exact entry_parts hw hb hne hat
  · have hpaths : (scanner.below tree).Pairwise fun a b => Earlier a.path b.path :=
      below_pairwise hw hb ht
    have hnodup := nodup_path_of_pairwise_earlier hpaths
    rw [below, List.map_map] at hnodup
    rw [below, List.pairwise_map] at hpaths
    exact ⟨hnodup, hpaths⟩

/-- A project with `a-b` beside `a`, a link, a directory `n`, and a directory `o` that may not be
listed. -/
def sampleTree : Node :=
  .dir [("a-b", .emptyFile), ("a", .dir [("b", .emptyFile)]), ("l", .link "a"),
    ("n", .dir [("x", .emptyFile)]), ("o", .dir [("y", .emptyFile)] { list := false })]

theorem scan_lists_sample :
    ∃ places : List Place,
      (ofPatterns "/" ["n"]).scan (.ofTree sampleTree) = .ok (places.map Place.entry) ∧
        ⟨["a", "b"], .emptyFile⟩ ∈ places ∧ ⟨["l"], .link "a"⟩ ∈ places ∧
        (∀ place ∈ places, place.names ≠ ["n", "x"] ∧ place.names ≠ ["o", "y"]) ∧
        (places.map (·.entry.path)).Nodup := by
  obtain ⟨places, hscan, hmem, -, -, -, htexts⟩ :=
    scan_lists_exactly (ofPatterns "/" ["n"]) (.ofTree sampleTree) (stat?_root rfl) rfl rfl
      (by decide) (by decide)
  refine ⟨places, hscan, ?_, ?_, fun place hp => ?_, (htexts (by decide)).1⟩
  · exact (hmem _).mpr ⟨by simp, rfl, by decide, by decide⟩
  · exact (hmem _).mpr ⟨by simp, rfl, by decide, by decide⟩
  · obtain ⟨-, -, hkeeps, hread⟩ := (hmem _).mp hp
    constructor
    · exact fun hn => absurd (hn ▸ hkeeps) (by decide)
    · exact fun ho => absurd (ho ▸ hread) (by decide)

/-! ## What is left out, and what is told apart by no path -/

/-- Directories of one name in each other, with a file in the innermost. -/
def nested (name : String) : Nat → Node
  | 0 => .dir [("a.ts", .emptyFile)]
  | depth + 1 => .dir [(.text name, nested name depth)]

theorem nested_wellFormed {name : String} (h : IsEntryName name) (depth : Nat) :
    (nested name depth).WellFormed := by
  induction depth with
  | zero => exact of_decide_eq_true (by rfl)
  | succ depth ih => simp [nested, Name.IsEntry, h, ih]

theorem nested_withoutBackslash {name : String} (h : '\\' ∉ name.toList) (depth : Nat) :
    (nested name depth).WithoutBackslash := by
  induction depth with
  | zero => exact of_decide_eq_true (by rfl)
  | succ depth ih => simp [nested, h, ih]

theorem nested_hasTextNames (name : String) (depth : Nat) : (nested name depth).HasTextNames := by
  induction depth with
  | zero => exact of_decide_eq_true (by rfl)
  | succ depth ih =>
    exact Node.everywhere_dir.mpr ⟨by simp [Node.entries, Name.isText], fun e he => by
      rwa [List.mem_singleton.mp he]⟩

/-- The names down to the file in the innermost directory. -/
def nestedFile (name : String) (depth : Nat) : List String := List.replicate depth name ++ ["a.ts"]

theorem at?_nested (name : String) (depth : Nat) :
    (nested name depth).at? ((nestedFile name depth).map .text) = some .emptyFile := by
  induction depth with
  | zero => rfl
  | succ depth ih =>
    simpa [nestedFile, nested, List.replicate_succ, Node.at?, Node.entries] using ih

/-- The file at the bottom is not listed if the names of the directories alone are too long. -/
theorem not_mem_below_nested {name : String} (h : IsPlainName name) {depth : Nat}
    (hlong : maxPathBytes < depth * name.utf8ByteSize) :
    Entry.ofPath (pathOf (nestedFile name depth)) false ∉ scanner.below (nested name depth) := by
  have hat := at?_nested name depth
  have hw := nested_wellFormed h.1 depth
  rw [ofPath_mem_below_iff hw (nested_withoutBackslash h.2 depth) (nested_hasTextNames name depth)
    (by simp [nestedFile]) (hw.isEntryName hat)]
  rintro ⟨found, -, -, hread, -⟩
  obtain ⟨hfits, -⟩ := hread ((List.replicate depth name).map .text)
    (by simp [nestedFile]) (by simp [nestedFile])
  have hsize := scanner.fullSize_append_le [] ((List.replicate depth name).map .text)
  simp only [List.map_replicate, Name.size_text, Name.totalSize_replicate, List.nil_append] at hsize
  simp only [fitsAt, decide_eq_true_eq, List.map_replicate] at hfits
  omega

/-- A name of 250 bytes. -/
def longName : String := String.ofList (List.replicate 250 'd')

theorem utf8ByteSize_longName : longName.utf8ByteSize = 250 := by decide +kernel

theorem toList_longName : longName.toList = List.replicate 250 'd' := String.toList_ofList

theorem not_mem_longName {c : Char} (h : c ≠ 'd') : c ∉ longName.toList := by
  rw [toList_longName, List.mem_replicate]
  exact fun hc => h hc.2

theorem isPlainName_longName : IsPlainName longName :=
  ⟨⟨by decide +kernel, not_mem_longName (by decide)⟩, not_mem_longName (by decide)⟩

/-- A directory that may not be listed, with a file in it. -/
def lockedTree : Node := .dir [("o", .dir [("y", .emptyFile)] { list := false })]

/-- A name of one byte that is no text. -/
def brokenName (b : UInt8) (h : String.fromUTF8? ⟨#[b]⟩ = none) : Name := .raw ⟨#[b]⟩ h

theorem fromUTF8?_fe : String.fromUTF8? ⟨#[0xfe]⟩ = none := by decide

theorem fromUTF8?_ff : String.fromUTF8? ⟨#[0xff]⟩ = none := by decide

/-- Two files whose names are no texts. -/
def rawTree : Node :=
  .dir [(brokenName 0xfe fromUTF8?_fe, .emptyFile), (brokenName 0xff fromUTF8?_ff, .emptyFile)]

theorem mem_places_rawTree (name : Name) (hat : rawTree.at? [name] = some .emptyFile)
    (hread : (ofPatterns "/" []).CanRead rawTree [name]) :
    ⟨[name], .emptyFile⟩ ∈ (ofPatterns "/" []).places [] rawTree :=
  (mem_places_root (by decide) (by decide)).mpr ⟨by simp, hat, fun _ _ _ => rfl, hread⟩

/-- A file is not listed though neither it nor anything above it is ignored, where the full path of
its directory has more than 4095 bytes or where this directory may not be listed; and two files
whose names are no texts are given one path. -/
theorem scan_omits_and_repeats :
    ((nested longName 17).WellFormed ∧ (nested longName 17).WithoutBackslash ∧
      (nested longName 17).at? ((nestedFile longName 17).map .text) = some .emptyFile ∧
      (ofPatterns "/" []).Keeps ((nestedFile longName 17).map .text) ∧
      ∃ entries, (ofPatterns "/" []).scan (.ofTree (nested longName 17)) = .ok entries ∧
        Entry.ofPath (pathOf (nestedFile longName 17)) false ∉ entries) ∧
    (lockedTree.WellFormed ∧ lockedTree.WithoutBackslash ∧
      lockedTree.at? ["o", "y"] = some .emptyFile ∧ (ofPatterns "/" []).Keeps ["o", "y"] ∧
      ∃ entries, (ofPatterns "/" []).scan (.ofTree lockedTree) = .ok entries ∧
        Entry.ofPath "o/y" false ∉ entries) ∧
    (rawTree.WellFormed ∧ rawTree.WithoutBackslash ∧
      ∃ entries, (ofPatterns "/" []).scan (.ofTree rawTree) = .ok entries ∧
        ¬ (entries.map (·.path)).Nodup) := by
  refine ⟨⟨nested_wellFormed isPlainName_longName.1 17,
    nested_withoutBackslash isPlainName_longName.2 17, at?_nested longName 17,
    fun _ _ _ => rfl, _, scan_eq_below (stat?_root rfl) rfl rfl, ?_⟩,
    ⟨by decide, by decide, rfl, by decide, _, scan_eq_below (stat?_root rfl) rfl rfl, ?_⟩,
    ⟨by decide, by decide, _, scan_eq_below (stat?_root rfl) rfl rfl, ?_⟩⟩
  · exact not_mem_below_nested isPlainName_longName (by rw [utf8ByteSize_longName]; decide)
  · have hnames : ∀ name ∈ ["o", "y"], IsEntryName name := by decide
    rw [show "o/y" = pathOf ["o", "y"] from rfl,
      ofPath_mem_below_iff (by decide) (by decide) (by decide) (by simp) hnames]
    rintro ⟨found, -, -, hread, -⟩
    exact absurd hread (by decide)
  · intro hnodup
    rw [below, List.map_map] at hnodup
    have hfirst := mem_places_rawTree (brokenName 0xfe fromUTF8?_fe) rfl (by decide)
    have hsecond := mem_places_rawTree (brokenName 0xff fromUTF8?_ff) rfl (by decide)
    have hsame := congrArg Place.names
      (List.inj_on_of_nodup_map hnodup hfirst hsecond (by decide))
    exact absurd hsame (by decide)

end Scanner

end ProjectLayout.Scan
