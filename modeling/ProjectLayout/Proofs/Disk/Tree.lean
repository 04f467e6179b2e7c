import ProjectLayout.Disk.Locate
import ProjectLayout.Proofs.Disk.Name
import ProjectLayout.Proofs.Text.Pieces

/-!
# Trees of a file system

A directory of a file system holds each name once, and no name has a `/` in it or means a place on
the way.

* `IsEntryName`, `Name.IsEntry` — which names a directory can hold.
* `pathOf` — names with `/` between them; `pathSegments_pathOf` takes them apart again.
* `Node.dirInduction` — induction over a tree.
* `Node.WellFormed` — what a file system promises of a tree.
* `Node.HasTextNames` — that all names in a tree are texts.
-/

namespace ProjectLayout.Disk

open Text

/-! ## Names -/

/-- Whether a directory can hold an entry of that name. -/
def IsEntryName (name : String) : Prop := isName name = true ∧ '/' ∉ name.toList

instance (name : String) : Decidable (IsEntryName name) :=
  inferInstanceAs (Decidable (_ ∧ _))

theorem IsEntryName.ne_empty {name : String} (h : IsEntryName name) : name ≠ "" := by
  rintro rfl
  exact absurd h.1 (by decide)

theorem isIdle_eq_false {segment : String} (h : isName segment = true) :
    isIdle segment = false := by
  simp only [isName, Bool.and_eq_true, Bool.not_eq_true'] at h
  exact h.1

theorem ne_up_of_isName {segment : String} (h : isName segment = true) : segment ≠ ".." := by
  simp only [isName, Bool.and_eq_true, bne_iff_ne] at h
  exact h.2

theorem IsEntryName.not_isIdle {name : String} (h : IsEntryName name) : isIdle name = false :=
  isIdle_eq_false h.1

/-- A name with anything but dots in it can be an entry's. -/
theorem isEntryName_of_mem {name : String} {c : Char} (hslash : '/' ∉ name.toList)
    (hc : c ∈ name.toList) (hdot : c ≠ '.') : IsEntryName name := by
  have hne (dots : String) (h : c ∉ dots.toList) : name ≠ dots := fun he => h (he ▸ hc)
  refine ⟨?_, hslash⟩
  simp only [isName, isIdle, Bool.and_eq_true, Bool.not_eq_true', Bool.or_eq_false_iff,
    beq_eq_false_iff_ne, bne_iff_ne]
  exact ⟨⟨hne "" (by simp), hne "." (by simpa using hdot)⟩, hne ".." (by simpa using hdot)⟩

/-- Whether a name can be an entry's and has no backslash in it. -/
def IsPlainName (name : String) : Prop := IsEntryName name ∧ '\\' ∉ name.toList

instance (name : String) : Decidable (IsPlainName name) :=
  inferInstanceAs (Decidable (_ ∧ _))

namespace Name

/-- Whether a directory can hold an entry of that name. -/
def IsEntry : Name → Prop
  | text name => IsEntryName name
  | raw bytes _ => Glob.slash ∉ bytes.data.toList

instance : (name : Name) → Decidable name.IsEntry
  | text name => inferInstanceAs (Decidable (IsEntryName name))
  | raw _ _ => inferInstanceAs (Decidable (_ ∉ _))

/-- Whether a name can be an entry's and has no backslash in it. -/
def IsPlain (name : Name) : Prop := name.IsEntry ∧ '\\' ∉ name.lossy.toList

instance (name : Name) : Decidable name.IsPlain := inferInstanceAs (Decidable (_ ∧ _))

/-- What is put in for broken bytes makes no name of a place on the way, and no separator. -/
theorem IsEntry.isEntryName {name : Name} (h : name.IsEntry) : IsEntryName name.lossy := by
  cases name with
  | text name => exact h
  | raw bytes hraw =>
    refine isEntryName_of_mem (fun hm => h ?_) (replacement_mem_lossy_raw hraw) (by decide)
    exact mem_bytes_of_mem_lossy hm (by decide) _ (Glob.slash_mem_utf8EncodeChar.mpr rfl)

theorem IsPlain.isPlainName {name : Name} (h : name.IsPlain) : IsPlainName name.lossy :=
  ⟨h.1.isEntryName, h.2⟩

theorem isPlainName_of_mem_map {names : List Name} (h : ∀ name ∈ names, name.IsPlain) :
    ∀ text ∈ names.map lossy, IsPlainName text :=
  List.forall_mem_map.mpr fun name hname => (h name hname).isPlainName

theorem isEntryName_of_mem_map {names : List Name} (h : ∀ name ∈ names, name.IsEntry) :
    ∀ text ∈ names.map lossy, IsEntryName text :=
  List.forall_mem_map.mpr fun name hname => (h name hname).isEntryName

/-- Names that are texts. -/
theorem exists_texts {names : List Name} (h : ∀ name ∈ names, name.isText = true) :
    ∃ texts : List String, names = texts.map text := by
  refine ⟨names.map lossy, ?_⟩
  rw [List.map_map]
  conv => lhs; rw [← List.map_id names]
  refine List.map_congr_left fun name hname => ?_
  obtain ⟨s, rfl⟩ := isText_iff.mp (h name hname)
  rfl

@[simp] theorem map_lossy_map_text (texts : List String) : (texts.map text).map lossy = texts := by
  simp [Function.comp_def]

end Name

/-! ## Names with `/` between them -/

/-- The path of what is under some names. -/
def pathOf (names : List String) : String := String.intercalate "/" names

theorem toList_pathOf (names : List String) :
    (pathOf names).toList = joinWith '/' (names.map String.toList) := by
  unfold pathOf
  induction names with
  | nil => rfl
  | cons name names ih =>
    cases names with
    | nil => simp [joinWith]
    | cons next more =>
      rw [String.intercalate_cons_cons]
      simp only [String.toList_append, ih, List.map_cons, joinWith]
      simp

theorem pathSegments_pathOf_of_slash_not_mem {names : List String} (hne : names ≠ [])
    (h : ∀ name ∈ names, '/' ∉ name.toList) : pathSegments (pathOf names) = names := by
  have hs : ∀ piece ∈ names.map String.toList, '/' ∉ piece := by
    intro piece hp
    obtain ⟨name, hn, rfl⟩ := List.mem_map.mp hp
    exact h name hn
  unfold pathSegments
  rw [toList_pathOf, splitOn_joinWith (by simpa using hne) hs, List.map_map]
  simp

theorem pathSegments_pathOf {names : List String} (hne : names ≠ [])
    (h : ∀ name ∈ names, IsEntryName name) : pathSegments (pathOf names) = names :=
  pathSegments_pathOf_of_slash_not_mem hne fun name hn => (h name hn).2

theorem nil_not_mem_splitOn_pathOf {names : List String} (hne : names ≠ [])
    (h : ∀ name ∈ names, IsEntryName name) : [] ∉ splitOn '/' (pathOf names).toList := by
  intro hm
  have hempty : "" ∈ pathSegments (pathOf names) := List.mem_map.mpr ⟨[], hm, rfl⟩
  rw [pathSegments_pathOf hne h] at hempty
  exact (h "" hempty).ne_empty rfl

theorem ends_pathOf_ne {names : List String} (hne : names ≠ [])
    (h : ∀ name ∈ names, IsEntryName name) :
    (pathOf names).toList.head? ≠ some '/' ∧ (pathOf names).toList.getLast? ≠ some '/' :=
  ends_ne_of_nil_not_mem (nil_not_mem_splitOn_pathOf hne h)

theorem isAbsolute_pathOf {names : List String} (h : ∀ name ∈ names, IsEntryName name) :
    isAbsolute (pathOf names) = false := by
  by_cases hne : names = []
  · subst hne
    decide
  · rw [isAbsolute, beq_eq_false_iff_ne]
    exact (ends_pathOf_ne hne h).1

theorem pathOf_ne_empty {names : List String} (hne : names ≠ [])
    (h : ∀ name ∈ names, IsEntryName name) : pathOf names ≠ "" := by
  intro hempty
  have := nil_not_mem_splitOn_pathOf hne h
  rw [hempty] at this
  exact this (by decide)

theorem pathOf_pathSegments (path : String) : pathOf (pathSegments path) = path := by
  apply String.toList_inj.mp
  rw [toList_pathOf, pathSegments, List.map_map]
  simpa using joinWith_splitOn '/' path.toList

/-- Different names have different paths. -/
theorem pathOf_injective {names others : List String} (hn : names ≠ []) (ho : others ≠ [])
    (hnames : ∀ name ∈ names, IsEntryName name) (hothers : ∀ name ∈ others, IsEntryName name)
    (h : pathOf names = pathOf others) : names = others := by
  rw [← pathSegments_pathOf hn hnames, h, pathSegments_pathOf ho hothers]

theorem pathOf_append {names more : List String} (h : names ≠ []) (hm : more ≠ []) :
    pathOf (names ++ more) = pathOf names ++ "/" ++ pathOf more := by
  apply String.toList_inj.mp
  simp only [toList_pathOf, String.toList_append, List.map_append]
  rw [joinWith_append '/' (by simpa using h) (by simpa using hm)]
  simp

/-- The path of what lies below some names begins with the path of these names. -/
theorem isPrefix_pathOf_append (above names : List String) :
    (pathOf above).toList <+: (pathOf (above ++ names)).toList := by
  by_cases ha : above = []
  · subst ha
    exact List.nil_prefix
  by_cases hn : names = []
  · simp [hn]
  · rw [pathOf_append ha hn, String.toList_append, String.toList_append, List.append_assoc]
    exact List.prefix_append _ _

theorem pathOf_singleton (name : String) : pathOf [name] = name := by
  apply String.toList_inj.mp
  simp [toList_pathOf, joinWith]

theorem not_mem_pathOf {c : Char} {names : List String} (hc : c ≠ '/')
    (h : ∀ name ∈ names, c ∉ name.toList) : c ∉ (pathOf names).toList := by
  rw [toList_pathOf]
  intro hm
  rcases mem_joinWith hm with hm | ⟨piece, hp, hm⟩
  · exact hc hm
  · obtain ⟨name, hname, rfl⟩ := List.mem_map.mp hp
    exact h name hname hm

theorem utf8ByteSize_pathOf (names : List String) :
    (pathOf names).utf8ByteSize = Name.totalSize (names.map .text) + (names.length - 1) := by
  unfold pathOf
  induction names with
  | nil => rfl
  | cons name names ih =>
    cases names with
    | nil => simp
    | cons next more =>
      have hslash : "/".utf8ByteSize = 1 := by decide
      rw [String.intercalate_cons_cons]
      simp only [String.utf8ByteSize_append, ih, hslash, List.map_cons, Name.totalSize_cons,
        Name.size_text, List.length_cons]
      omega

/-! ## Trees -/

namespace Node

theorem isDir_iff {node : Node} :
    node.isDir = true ↔ ∃ entries rights, node = .dir entries rights := by
  cases node <;> simp [isDir]

theorem at?_append (node : Node) (names more : List Name) :
    node.at? (names ++ more) = (node.at? names).bind (·.at? more) := by
  induction names generalizing node with
  | nil => rfl
  | cons name names ih =>
    simp only [List.cons_append, at?]
    cases node.entries.lookup name with
    | none => rfl
    | some child => exact ih child

theorem sizeOf_lt_of_mem {entries : List (Name × Node)} {e : Name × Node} (h : e ∈ entries)
    (rights : Rights) : sizeOf e.2 < sizeOf (Node.dir entries rights) := by
  have hlt := List.sizeOf_lt_of_mem h
  obtain ⟨name, node⟩ := e
  simp only [Prod.mk.sizeOf_spec, Node.dir.sizeOf_spec] at hlt ⊢
  omega

/-- Induction over a tree: what holds of files and links, and of a directory as soon as it holds
of its entries, holds of every node. -/
theorem dirInduction {motive : Node → Prop} (file : ∀ contents, motive (.file contents))
    (link : ∀ target, motive (.link target))
    (dir : ∀ entries rights, (∀ e ∈ entries, motive e.2) → motive (.dir entries rights)) :
    ∀ node, motive node
  | .file contents => file contents
  | .link target => link target
  | .dir entries rights => dir entries rights fun e _ => dirInduction file link dir e.2
termination_by node => sizeOf node
decreasing_by exact sizeOf_lt_of_mem ‹_› _

theorem lookup_eq_of_mem {entries : List (Name × Node)} (h : (entries.map Prod.fst).Nodup)
    {name : Name} {node : Node} (he : (name, node) ∈ entries) :
    entries.lookup name = some node := by
  induction entries with
  | nil => simp at he
  | cons e rest ih =>
    simp only [List.map_cons, List.nodup_cons] at h
    rcases List.mem_cons.mp he with rfl | he
    · simp
    · have hne : name ≠ e.1 := fun e' => h.1 (e' ▸ List.mem_map_of_mem he)
      rw [List.lookup_cons, beq_eq_false_iff_ne.mpr hne]
      exact ih h.2 he

theorem mem_of_lookup {entries : List (Name × Node)} {name : Name} {node : Node}
    (h : entries.lookup name = some node) : (name, node) ∈ entries := by
  obtain ⟨front, back, rfl, -⟩ := List.lookup_eq_some_iff.mp h
  simp

theorem exists_of_at?_cons {node found : Node} {name : Name} {names : List Name}
    (h : node.at? (name :: names) = some found) :
    ∃ child, (name, child) ∈ node.entries ∧ child.at? names = some found := by
  rw [at?] at h
  cases hl : node.entries.lookup name with
  | none => simp [hl] at h
  | some child => exact ⟨child, mem_of_lookup hl, by simpa [hl] using h⟩

/-- What is found under a first name and more names. -/
theorem at?_cons {node found : Node} {name : Name} {names : List Name}
    (h : (node.entries.map Prod.fst).Nodup) :
    node.at? (name :: names) = some found ↔
      ∃ child, (name, child) ∈ node.entries ∧ child.at? names = some found := by
  refine ⟨exists_of_at?_cons, ?_⟩
  rintro ⟨child, he, hf⟩
  rw [at?, lookup_eq_of_mem h he]
  exact hf

/-! ## What holds everywhere -/

/-- Whether `p` holds of a node and of all nodes below it. -/
inductive Everywhere (p : Node → Prop) : Node → Prop where
  | intro {node : Node} (here : p node) (below : ∀ e ∈ node.entries, Everywhere p e.2) :
      Everywhere p node

mutual

/-- Whether a check succeeds at a node and at all nodes below it. -/
def checkAll (check : Node → Bool) : Node → Bool
  | .file contents => check (.file contents)
  | .link target => check (.link target)
  | .dir entries rights => check (.dir entries rights) && checkEntries check entries

/-- Whether a check succeeds at all nodes of some entries and below them. -/
def checkEntries (check : Node → Bool) : List (Name × Node) → Bool
  | [] => true
  | (_, node) :: rest => checkAll check node && checkEntries check rest

end

theorem checkEntries_eq_all (check : Node → Bool) (entries : List (Name × Node)) :
    checkEntries check entries = entries.all fun e => checkAll check e.2 := by
  induction entries with
  | nil => rfl
  | cons e rest ih => rw [checkEntries, ih, List.all_cons]

theorem checkAll_eq (check : Node → Bool) (node : Node) :
    checkAll check node = (check node && node.entries.all fun e => checkAll check e.2) := by
  cases node with
  | file contents => simp [checkAll, entries]
  | link target => simp [checkAll, entries]
  | dir entries rights => rw [checkAll, checkEntries_eq_all]; rfl

theorem checkAll_iff {p : Node → Prop} [DecidablePred p] (node : Node) :
    checkAll (fun n => decide (p n)) node = true ↔ Everywhere p node := by
  induction node using dirInduction with
  | file contents =>
    rw [checkAll_eq]
    exact ⟨fun h => .intro (by simpa [entries] using h) (by simp [entries]), fun h => by
      cases h with | intro here below => simpa [entries] using here⟩
  | link target =>
    rw [checkAll_eq]
    exact ⟨fun h => .intro (by simpa [entries] using h) (by simp [entries]), fun h => by
      cases h with | intro here below => simpa [entries] using here⟩
  | dir entries rights ih =>
    rw [checkAll_eq, Bool.and_eq_true, List.all_eq_true, decide_eq_true_eq]
    constructor
    · rintro ⟨here, below⟩
      exact .intro here fun e he => (ih e he).mp (below e he)
    · rintro ⟨here, below⟩
      exact ⟨here, fun e he => (ih e he).mpr (below e he)⟩

instance {p : Node → Prop} [DecidablePred p] (node : Node) : Decidable (Everywhere p node) :=
  decidable_of_iff _ (checkAll_iff node)

namespace Everywhere

variable {p : Node → Prop}

theorem here {node : Node} (h : Everywhere p node) : p node := by
  cases h
  assumption

theorem child {node : Node} (h : Everywhere p node) {e : Name × Node}
    (he : e ∈ node.entries) : Everywhere p e.2 := by
  cases h with
  | intro _ below => exact below e he

/-- What holds everywhere in a tree holds of what is under some names, and of the directories on
the way there. -/
theorem at? {tree found : Node} (h : Everywhere p tree) {names : List Name}
    (hn : tree.at? names = some found) : Everywhere p found := by
  induction names generalizing tree with
  | nil =>
    simp only [Node.at?, Option.some.injEq] at hn
    exact hn ▸ h
  | cons first rest ih =>
    obtain ⟨child, he, hc⟩ := exists_of_at?_cons hn
    exact ih (h.child he) hc

end Everywhere

/-- What a file system promises of a tree: the names in a directory are different from each other,
and each of them can be one. -/
def WellFormed : Node → Prop :=
  Everywhere fun node =>
    (node.entries.map Prod.fst).Nodup ∧ ∀ e ∈ node.entries, e.1.IsEntry

/-- Whether no name in a tree has a backslash in it. -/
def WithoutBackslash : Node → Prop :=
  Everywhere fun node => ∀ e ∈ node.entries, '\\' ∉ e.1.lossy.toList

/-- Whether all names in a tree are texts. -/
def HasTextNames : Node → Prop := Everywhere fun node => ∀ e ∈ node.entries, e.1.isText = true

/-- Whether a node is a symbolic link. -/
def isLink : Node → Bool
  | .link _ => true
  | _ => false

/-- Whether there is no symbolic link in a tree. -/
def WithoutLinks : Node → Prop := Everywhere fun node => node.isLink = false

instance (node : Node) : Decidable node.WellFormed := inferInstanceAs (Decidable (Everywhere _ _))

instance (node : Node) : Decidable node.WithoutBackslash :=
  inferInstanceAs (Decidable (Everywhere _ _))

instance (node : Node) : Decidable node.HasTextNames :=
  inferInstanceAs (Decidable (Everywhere _ _))

instance (node : Node) : Decidable node.WithoutLinks :=
  inferInstanceAs (Decidable (Everywhere _ _))

@[simp] theorem everywhere_dir {p : Node → Prop} {entries : List (Name × Node)} {rights : Rights} :
    Everywhere p (.dir entries rights) ↔
      p (.dir entries rights) ∧ ∀ e ∈ entries, Everywhere p e.2 :=
  ⟨fun h => ⟨h.here, fun _ he => h.child he⟩, fun h => .intro h.1 h.2⟩

@[simp] theorem wellFormed_dir {entries : List (Name × Node)} {rights : Rights} :
    (Node.dir entries rights).WellFormed ↔
      ((entries.map Prod.fst).Nodup ∧ ∀ e ∈ entries, e.1.IsEntry) ∧
        ∀ e ∈ entries, e.2.WellFormed := everywhere_dir

@[simp] theorem withoutBackslash_dir {entries : List (Name × Node)} {rights : Rights} :
    (Node.dir entries rights).WithoutBackslash ↔
      (∀ e ∈ entries, '\\' ∉ e.1.lossy.toList) ∧ ∀ e ∈ entries, e.2.WithoutBackslash :=
  everywhere_dir

theorem WellFormed.nodup {node : Node} (h : node.WellFormed) :
    (node.entries.map Prod.fst).Nodup := (Everywhere.here h).1

/-- The names that lead somewhere are names of entries, whatever holds of all of these. -/
theorem forall_of_at? {q : Name → Prop} {tree found : Node}
    (h : Everywhere (fun node => ∀ e ∈ node.entries, q e.1) tree) {names : List Name}
    (hn : tree.at? names = some found) : ∀ name ∈ names, q name := by
  induction names generalizing tree with
  | nil => simp
  | cons first rest ih =>
    obtain ⟨child, he, hc⟩ := exists_of_at?_cons hn
    intro name hm
    rcases List.mem_cons.mp hm with rfl | hm
    · exact h.here _ he
    · exact ih (h.child he) hc name hm

theorem Everywhere.imp {p q : Node → Prop} (hpq : ∀ node, p node → q node) {node : Node}
    (h : Everywhere p node) : Everywhere q node := by
  induction h with
  | intro here below ih => exact .intro (hpq _ here) ih

theorem WellFormed.isEntry {tree found : Node} (h : tree.WellFormed) {names : List Name}
    (hn : tree.at? names = some found) : ∀ name ∈ names, name.IsEntry :=
  forall_of_at? (Everywhere.imp (fun _ hp => hp.2) h) hn

theorem isPlain {tree found : Node} (hw : tree.WellFormed) (hb : tree.WithoutBackslash)
    {names : List Name} (hn : tree.at? names = some found) : ∀ name ∈ names, name.IsPlain :=
  fun name hm => ⟨hw.isEntry hn name hm,
    forall_of_at? (q := fun name => '\\' ∉ name.lossy.toList) hb hn name hm⟩

/-- In a tree of text names, what is found is found under texts. -/
theorem HasTextNames.exists_texts {tree found : Node} (h : tree.HasTextNames) {names : List Name}
    (hn : tree.at? names = some found) : ∃ texts : List String, names = texts.map .text :=
  Name.exists_texts (forall_of_at? (q := fun name => name.isText = true) h hn)

end Node

end ProjectLayout.Disk
