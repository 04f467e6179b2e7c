import ProjectLayout.Proofs.Disk.Route

/-!
# Going down a tree by path

A path of names that is joined to the path of a directory leads down to the node under these names,
if that is no link, every directory on the way may be searched and the joined path is short enough
to be asked for.

* `Node.Storable` — that a file system can store all names of a tree.
* `Node.letsThrough` — that the directories on the way may be searched.
* `Node.isListable` — that a directory can be listed.
* `follow_pathOf` — following a path of names from a directory of the tree.
* `stat?_joinPath_pathOf` — what is found at a joined path.
* `way_of_resolve_joinPath` — only names that can be stored lead to anything, and only through
  directories that may be searched.
-/

namespace ProjectLayout.Disk

/-! ## Names that can be stored -/

/-- Whether a file system can store a name. -/
def IsStorable (name : String) : Prop :=
  name.utf8ByteSize ≤ maxNameBytes ∧ '\x00' ∉ name.toList

instance (name : String) : Decidable (IsStorable name) := inferInstanceAs (Decidable (_ ∧ _))

/-- Whether a file system can store a name. -/
def Name.IsStorable : Name → Prop
  | .text name => Disk.IsStorable name
  | .raw bytes _ => bytes.size ≤ maxNameBytes ∧ 0 ∉ bytes.data.toList

instance : (name : Name) → Decidable name.IsStorable
  | .text name => inferInstanceAs (Decidable (Disk.IsStorable name))
  | .raw _ _ => inferInstanceAs (Decidable (_ ∧ _))

namespace Node

/-- Whether a file system can store all names of a tree. -/
def Storable : Node → Prop := Everywhere fun node => ∀ e ∈ node.entries, e.1.IsStorable

instance (node : Node) : Decidable node.Storable := inferInstanceAs (Decidable (Everywhere _ _))

theorem Storable.isStorable {tree found : Node} (h : tree.Storable) {names : List String}
    (hat : tree.at? (names.map .text) = some found) : ∀ name ∈ names, IsStorable name :=
  fun _ hname => forall_of_at? (q := Name.IsStorable) h hat _ (List.mem_map_of_mem hname)

theorem WellFormed.isEntryName {tree found : Node} (h : tree.WellFormed) {names : List String}
    (hat : tree.at? (names.map .text) = some found) : ∀ name ∈ names, IsEntryName name :=
  fun _ hname => h.isEntry hat _ (List.mem_map_of_mem hname)

theorem isPlainName_of_at? {tree found : Node} (hw : tree.WellFormed) (hb : tree.WithoutBackslash)
    {names : List String} (hat : tree.at? (names.map .text) = some found) :
    ∀ name ∈ names, IsPlainName name :=
  fun _ hname => isPlain hw hb hat _ (List.mem_map_of_mem hname)

/-! ## Nodes on the way -/

/-- Whether each directory on the way down to some names may be searched. -/
def letsThrough : Node → List Name → Bool
  | _, [] => true
  | node, name :: names =>
    node.rights.search &&
      match node.entries.lookup name with
      | some child => child.letsThrough names
      | none => true

/-- Whether what is under some names can be gone to and may be listed. -/
def isListable (node : Node) (names : List Name) : Bool :=
  node.letsThrough names && (node.at? names).any (·.rights.list)

@[simp] theorem isListable_nil (node : Node) : node.isListable [] = node.rights.list := by
  simp [isListable, letsThrough, at?]

theorem isListable_cons {node child : Node} {name : Name}
    (h : node.entries.lookup name = some child) (names : List Name) :
    node.isListable (name :: names) = (node.rights.search && child.isListable names) := by
  rw [isListable, letsThrough, at?, h, isListable, Bool.and_assoc]

theorem isDir_of_at?_cons {tree found : Node} {name : Name} {rest : List Name}
    (h : tree.at? (name :: rest) = some found) : tree.isDir = true := by
  obtain ⟨child, hchild, -⟩ := exists_of_at?_cons h
  cases tree with
  | dir entries rights => rfl
  | file contents => simp [entries] at hchild
  | link target => simp [entries] at hchild

/-- No link is on the way to what is no link. -/
theorem isLink_of_at? {tree found : Node} {names : List Name}
    (h : tree.at? names = some found) (hfound : found.isLink = false) : tree.isLink = false := by
  cases names with
  | nil => exact Option.some.inj h ▸ hfound
  | cons name rest =>
    have hdir := isDir_of_at?_cons h
    cases tree with
    | dir entries rights => rfl
    | file contents => rfl
    | link target => simp [isDir] at hdir

end Node

/-! ## Following -/

variable {root : Node}

theorem isSearchable_eq {here : List Name} {tree : Node} (hhere : root.at? here = some tree) :
    isSearchable root here = tree.rights.search := by
  rw [isSearchable, hhere]
  rfl

/-- Names lead to what is under them, unless a directory on the way may not be searched. -/
theorem walk_of_at? {jump : List Name → List String → Except IoError Spot}
    {here : List Name} {names : List String} {tree found : Node}
    (hhere : root.at? here = some tree) (hnames : ∀ name ∈ names, IsEntryName name)
    (hstore : ∀ name ∈ names, IsStorable name) (hat : tree.at? (names.map .text) = some found)
    (hlink : found.isLink = false) :
    walk jump root .access here names =
      if tree.letsThrough (names.map .text) then .ok (.existing (here ++ names.map .text))
      else .error .permissionDenied := by
  induction names generalizing here tree with
  | nil => simp [walk, Node.letsThrough]
  | cons name rest ih =>
    obtain ⟨hname, hrest⟩ := List.forall_mem_cons.mp hnames
    obtain ⟨hfirst, hmore⟩ := List.forall_mem_cons.mp hstore
    have hdir : tree.isDir = true := Node.isDir_of_at?_cons hat
    have hup : name ≠ ".." := ne_up_of_isName hname.1
    have hne : (name == "") = false := by simpa using hname.ne_empty
    rw [List.map_cons, Node.at?] at hat
    rw [walk_access_cons, isSearchable_eq hhere, hne, Bool.false_or, hhere, hname.not_isIdle,
      if_neg hup, if_neg (Nat.not_lt.mpr hfirst.1), List.map_cons, Node.letsThrough]
    simp only [Option.any_some, hdir, Bool.not_true, Bool.false_eq_true, if_false]
    cases hsearch : tree.rights.search with
    | false => simp
    | true =>
      cases hl : tree.entries.lookup (.text name) with
      | none => simp [hl] at hat
      | some child =>
        simp only [hl] at hat
        have hchild : root.at? (here ++ [.text name]) = some child := by
          rw [Node.at?_append, hhere]
          simp [Node.at?, hl]
        have hnolink : child.isLink = false := Node.isLink_of_at? hat hlink
        have hgo := ih hchild hrest hmore hat
        rw [hchild]
        simp only [Bool.not_true, Bool.false_eq_true, if_false, Bool.true_and]
        cases child with
        | link target => simp [Node.isLink] at hnolink
        | file contents => simpa using hgo
        | dir entries rights => simpa using hgo

/-- Empty segments stay in a directory. -/
theorem walk_empty {jump : List Name → List String → Except IoError Spot} {here : List Name}
    {pad : List String} {tree : Node} (hhere : root.at? here = some tree)
    (hdir : tree.isDir = true) (hpad : ∀ segment ∈ pad, segment = "") :
    walk jump root .access here pad = .ok (.existing here) := by
  induction pad with
  | nil => simp [walk]
  | cons segment pad ih =>
    obtain ⟨rfl, hrest⟩ := List.forall_mem_cons.mp hpad
    rw [walk_access_cons, hhere, ih hrest]
    simp [hdir, isIdle]

/-- Idle segments stay in a directory that may be searched. -/
theorem walk_idle {jump : List Name → List String → Except IoError Spot} {here : List Name}
    {way : List String} {tree : Node} (hhere : root.at? here = some tree)
    (hdir : tree.isDir = true) (hsearch : tree.rights.search = true)
    (hway : ∀ segment ∈ way, isIdle segment = true) :
    walk jump root .access here way = .ok (.existing here) := by
  induction way with
  | nil => simp [walk]
  | cons segment way ih =>
    obtain ⟨hidle, hrest⟩ := List.forall_mem_cons.mp hway
    rw [walk_access_cons, isSearchable_eq hhere, hhere, ih hrest]
    simp [hdir, hsearch, hidle]

theorem follow_empty (links : Nat) {here : List Name} {pad : List String} {tree : Node}
    (hhere : root.at? here = some tree) (hdir : tree.isDir = true)
    (hpad : ∀ segment ∈ pad, segment = "") :
    follow root .access links here pad = .ok (.existing here) := by
  cases links <;> exact walk_empty hhere hdir hpad

/-- A path of names leads down from a directory to what is under the names. -/
theorem follow_pathOf (links : Nat) {here : List Name} {names : List String} {tree found : Node}
    (hhere : root.at? here = some tree) (hdir : tree.isDir = true)
    (hnames : ∀ name ∈ names, IsEntryName name) (hstore : ∀ name ∈ names, IsStorable name)
    (hat : tree.at? (names.map .text) = some found) (hlink : found.isLink = false) :
    follow root .access links here (pathSegments (pathOf names)) =
      if tree.letsThrough (names.map .text) then .ok (.existing (here ++ names.map .text))
      else .error .permissionDenied := by
  by_cases hne : names = []
  · -- The path of no names at all has one empty segment.
    subst hne
    rw [List.map_nil, List.append_nil, if_pos (by rw [Node.letsThrough])]
    exact follow_empty links hhere hdir (by decide)
  · rw [pathSegments_pathOf hne hnames]
    cases links <;> exact walk_of_at? hhere hnames hstore hat hlink

/-- In a tree without links names that lead anywhere are not too long to be stored, and each
directory on the way may be searched. -/
theorem way_of_walk {jump : List Name → List String → Except IoError Spot}
    {here : List Name} {way : List String} {spot : Spot} {tree : Node}
    (hhere : root.at? here = some tree) (hlinks : tree.WithoutLinks)
    (hway : ∀ segment ∈ way, isName segment = true)
    (h : walk jump root .access here way = .ok spot) :
    (∀ segment ∈ way, segment.utf8ByteSize ≤ maxNameBytes) ∧
      tree.letsThrough (way.map .text) = true := by
  induction way generalizing here tree with
  | nil => exact ⟨fun _ hsegment => absurd hsegment List.not_mem_nil, rfl⟩
  | cons segment way ih =>
    obtain ⟨hfirst, hmore⟩ := List.forall_mem_cons.mp hway
    have hname : isIdle segment = false ∧ segment ≠ ".." := by simpa [isName] using hfirst
    have hne : (segment == "") = false := by
      rw [beq_eq_false_iff_ne]
      rintro rfl
      exact absurd hname.1 (by decide)
    have hat : root.at? (here ++ [.text segment]) = tree.at? [.text segment] := by
      rw [Node.at?_append, hhere]
      rfl
    rw [walk_access_cons, hat, hname.1, if_neg hname.2, if_neg Bool.false_ne_true,
      isSearchable_eq hhere, hne] at h
    split at h
    · simp at h
    split at h
    · simp at h
    next hsearch =>
    have hsearch : tree.rights.search = true := by simpa using hsearch
    split at h
    · simp at h
    next hsize =>
    rw [List.forall_mem_cons, List.map_cons, Node.letsThrough, hsearch, Bool.true_and]
    split at h
    · next target ht =>
      exact absurd (Node.Everywhere.at? hlinks ht).here (by simp [Node.isLink])
    · next child _ hc =>
      obtain ⟨hsizes, hopen⟩ := ih (hat.trans hc) (Node.Everywhere.at? hlinks hc) hmore h
      refine ⟨⟨Nat.not_lt.mp hsize, hsizes⟩, ?_⟩
      split
      · next node hnode =>
        obtain rfl : node = child := by simpa [Node.at?, hnode] using hc
        exact hopen
      · rfl
    · next hnone =>
      split at h
      · next hlast =>
        rw [List.isEmpty_iff.mp hlast]
        refine ⟨⟨Nat.not_lt.mp hsize, List.forall_mem_nil _⟩, ?_⟩
        split <;> rfl
      · simp at h

theorem way_of_follow {links : Nat} {here : List Name} {way : List String} {spot : Spot}
    {tree : Node} (hhere : root.at? here = some tree) (hlinks : tree.WithoutLinks)
    (hway : ∀ segment ∈ way, isName segment = true)
    (h : follow root .access links here way = .ok spot) :
    (∀ segment ∈ way, segment.utf8ByteSize ≤ maxNameBytes) ∧
      tree.letsThrough (way.map .text) = true := by
  cases links <;> exact way_of_walk hhere hlinks hway h

/-! ## Joined paths -/

theorem mem_joinPath {base path : String} {c : Char} (h : c ∈ (joinPath base path).toList) :
    c ∈ base.toList ∨ c = '/' ∨ c ∈ path.toList := by
  unfold joinPath at h
  split at h
  · exact .inr (.inr h)
  · split at h
    · rw [String.toList_append, List.mem_append] at h
      exact h.imp_right .inr
    · simp only [String.toList_append, List.mem_append, or_assoc] at h
      refine h.imp_right fun h => h.imp_left fun h => ?_
      simpa using h

theorem mem_joinPath_of_mem {base path : String} {c : Char} (h : c ∈ path.toList) :
    c ∈ (joinPath base path).toList := by
  unfold joinPath
  split
  · exact h
  · split <;> simp [h]

/-- A path that leads anywhere has no NUL in it. -/
theorem nul_not_mem_of_locate {disk : Disk} {path : String} {purpose : Purpose} {spot : Spot}
    (h : disk.locate path purpose = .ok spot) : '\x00' ∉ path.toList := by
  rw [locate] at h
  split at h
  · simp at h
  · next hnul => simpa using hnul

/-- What can be asked for leads where its segments lead. -/
theorem locate_eq_follow {disk : Disk} {path : String} (hnul : '\x00' ∉ path.toList)
    (hne : path ≠ "") (hfits : fitsLimit path = true) :
    disk.locate path .access =
      follow disk.root .access maxLinks (disk.start path) (pathSegments path) := by
  rw [locate, if_neg (by simpa using hnul), if_neg (by simpa using hne), hfits]
  simp

theorem joinPath_ne_empty {base : String} (hbase : base ≠ "") (path : String) :
    joinPath base path ≠ "" := by
  have hempty : base.isEmpty = false := by simpa using hbase
  unfold joinPath
  rw [hempty, Bool.or_false]
  split
  · next habs =>
    rintro rfl
    exact absurd habs (by decide)
  · split <;> simp [hbase]

section Joined

variable {disk : Disk} {base : String} {here : List Name} {names : List String} {tree found : Node}

theorem nul_not_mem_joinPath (hbase : '\x00' ∉ base.toList)
    (hstore : ∀ name ∈ names, IsStorable name) :
    '\x00' ∉ (joinPath base (pathOf names)).toList := by
  intro hm
  rcases mem_joinPath hm with hm | hm | hm
  · exact hbase hm
  · exact absurd hm (by decide)
  · rw [toList_pathOf] at hm
    rcases Text.mem_joinWith hm with hm | ⟨piece, hpiece, hm⟩
    · exact absurd hm (by decide)
    · obtain ⟨name, hname, rfl⟩ := List.mem_map.mp hpiece
      exact (hstore name hname).2 hm

/-- A joined path that can be asked for leads down to what is under its names. -/
theorem locate_joinPath_pathOf (hbase : disk.resolve base = .ok (here, tree))
    (hdir : tree.isDir = true) (hnames : ∀ name ∈ names, IsEntryName name)
    (hstore : ∀ name ∈ names, IsStorable name) (hat : tree.at? (names.map .text) = some found)
    (hlink : found.isLink = false) (hfits : fitsLimit (joinPath base (pathOf names)) = true) :
    disk.locate (joinPath base (pathOf names)) .access =
      if tree.letsThrough (names.map .text) then .ok (.existing (here ++ names.map .text))
      else .error .permissionDenied := by
  obtain ⟨hloc, hhere⟩ := resolve_eq_ok_iff.mp hbase
  obtain ⟨hne, -, hfollow⟩ := follow_of_locate hloc
  have habs := isAbsolute_pathOf hnames
  obtain ⟨front, pad, hpad, hsegBase, hseg⟩ := pathSegments_joinPath hne habs
  rw [hsegBase] at hfollow
  obtain ⟨left, hleft⟩ := follow_append (pathSegments (pathOf names)) hpad maxLinks hfollow
  rw [locate_eq_follow (nul_not_mem_joinPath (nul_not_mem_of_locate hloc) hstore)
    (joinPath_ne_empty hne _) hfits, start, isAbsolute_joinPath hne habs, hseg, ← start, hleft]
  exact follow_pathOf left hhere hdir hnames hstore hat hlink

/-- What is found at a path joined from that of a directory and names below it. -/
theorem stat?_joinPath_pathOf (hbase : disk.stat? base = some tree) (hdir : tree.isDir = true)
    (hnames : ∀ name ∈ names, IsEntryName name) (hstore : ∀ name ∈ names, IsStorable name)
    (hat : tree.at? (names.map .text) = some found) (hlink : found.isLink = false) :
    disk.stat? (joinPath base (pathOf names)) =
      if fitsLimit (joinPath base (pathOf names)) && tree.letsThrough (names.map .text) then
        some found
      else none := by
  obtain ⟨here, hres⟩ := stat?_eq_some_iff.mp hbase
  by_cases hfits : fitsLimit (joinPath base (pathOf names)) = true
  · have hloc := locate_joinPath_pathOf hres hdir hnames hstore hat hlink hfits
    rw [hfits, Bool.true_and]
    split
    · next hopen =>
      refine stat?_eq_some_iff.mpr ⟨_, resolve_eq_ok_iff.mpr ⟨by rw [hloc, if_pos hopen], ?_⟩⟩
      rw [Node.at?_append, (resolve_eq_ok_iff.mp hres).2]
      exact hat
    · next hclosed =>
      rw [stat?, resolve, hloc, if_neg hclosed]
      rfl
  · rw [Bool.eq_false_iff.mpr hfits]
    cases hfound : disk.stat? (joinPath base (pathOf names)) with
    | none => rfl
    | some node => exact absurd (askable_of_stat? hfound).2 hfits

/-- Names that lead to anything below a tree without links can be stored, and the directories on
the way may be searched. -/
theorem way_of_resolve_joinPath {path : String} {there : List Name} {node : Node}
    (hbase : disk.resolve base = .ok (here, tree)) (hlinks : tree.WithoutLinks)
    (habs : isAbsolute path = false)
    (hpath : ∀ segment ∈ pathSegments path, isName segment = true)
    (h : disk.resolve (joinPath base path) = .ok (there, node)) :
    (∀ segment ∈ pathSegments path, IsStorable segment) ∧
      tree.letsThrough ((pathSegments path).map .text) = true := by
  obtain ⟨hlocBase, hhere⟩ := resolve_eq_ok_iff.mp hbase
  obtain ⟨hloc, -⟩ := resolve_eq_ok_iff.mp h
  obtain ⟨left, hfollow⟩ := follow_of_resolve_joinPath hbase habs h
  obtain ⟨hsizes, hopen⟩ := way_of_follow hhere hlinks hpath hfollow
  refine ⟨fun segment hsegment => ⟨hsizes segment hsegment, ?_⟩, hopen⟩
  intro hnul
  obtain ⟨piece, hpiece, rfl⟩ := List.mem_map.mp hsegment
  rw [String.toList_ofList] at hnul
  refine nul_not_mem_of_locate hloc (mem_joinPath_of_mem ?_)
  exact Text.mem_of_mem_splitOn hpiece hnul

end Joined

/-! ## Long paths -/

/-- A path of the root that stays there so many times. -/
def idlePath (stays : Nat) : String := pathOf ("" :: "" :: List.replicate stays ".")

theorem eq_of_mem_idlePath {stays : Nat} {segment : String}
    (h : segment ∈ "" :: "" :: List.replicate stays ".") : segment = "" ∨ segment = "." := by
  simp only [List.mem_cons, List.mem_replicate] at h
  rcases h with h | h | ⟨-, h⟩
  · exact .inl h
  · exact .inl h
  · exact .inr h

theorem pathSegments_idlePath (stays : Nat) :
    pathSegments (idlePath stays) = "" :: "" :: List.replicate stays "." := by
  refine pathSegments_pathOf_of_slash_not_mem (by simp) fun name hname => ?_
  rcases eq_of_mem_idlePath hname with rfl | rfl <;> decide

theorem isIdle_of_mem_idlePath {stays : Nat} {segment : String}
    (h : segment ∈ "" :: "" :: List.replicate stays ".") : isIdle segment = true := by
  rcases eq_of_mem_idlePath h with rfl | rfl <;> decide

theorem utf8ByteSize_idlePath (stays : Nat) : (idlePath stays).utf8ByteSize = 2 * stays + 1 := by
  have hdot : ".".utf8ByteSize = 1 := by decide
  simp only [idlePath, utf8ByteSize_pathOf, List.map_cons, List.map_replicate,
    Name.totalSize_cons, Name.totalSize_replicate, Name.size_text, String.utf8ByteSize_empty, hdot,
    List.length_cons, List.length_replicate]
  omega

theorem isAbsolute_idlePath (stays : Nat) : isAbsolute (idlePath stays) = true := by
  simp [isAbsolute, idlePath, toList_pathOf, Text.joinWith]

theorem getLast?_idlePath_ne (stays : Nat) :
    (idlePath (stays + 1)).toList.getLast? ≠ some '/' := by
  rw [idlePath, List.replicate_succ', ← List.cons_append, ← List.cons_append,
    pathOf_append (by simp) (by simp), pathOf_singleton]
  simp

theorem not_mem_idlePath {c : Char} (hslash : c ≠ '/') (hdot : c ≠ '.') (stays : Nat) :
    c ∉ (idlePath stays).toList := by
  refine not_mem_pathOf hslash fun name hname => ?_
  rcases eq_of_mem_idlePath hname with rfl | rfl
  · simp
  · simpa using hdot

/-- Such a path leads to the root, as far as it can be asked for. -/
theorem stat?_idlePath {disk : Disk} (hdir : disk.root.isDir = true)
    (hsearch : disk.root.rights.search = true) {stays : Nat}
    (hfits : fitsLimit (idlePath stays) = true) : disk.stat? (idlePath stays) = some disk.root := by
  have hne : idlePath stays ≠ "" := by
    intro hempty
    have habs := isAbsolute_idlePath stays
    rw [hempty] at habs
    exact absurd habs (by decide)
  have hlocate : disk.locate (idlePath stays) .access = .ok (.existing []) := by
    rw [locate_eq_follow (not_mem_idlePath (by decide) (by decide) stays) hne hfits, start,
      isAbsolute_idlePath, if_pos rfl, maxLinks, follow, pathSegments_idlePath]
    exact walk_idle rfl hdir hsearch fun _ => isIdle_of_mem_idlePath
  exact stat?_eq_some_iff.mpr ⟨[], resolve_eq_ok_iff.mpr ⟨hlocate, rfl⟩⟩

end ProjectLayout.Disk
