import ProjectLayout.Proofs.Disk.Descent

/-!
# Putting a file into a tree

What a listing sees of a directory that can be read are the names of its entries, and which of them
are directories.  A file put into one directory is seen there and nowhere else.

* `Node.seenAt?` — what a listing sees of the directory under some names.
* `Node.seenAt?_insertAt` — what it sees after a file was put into a directory.
* `Node.Everywhere.insertAt` — what holds everywhere in a tree that something was put into.
-/

namespace ProjectLayout.Disk.Node

/-! ## What a listing sees -/

/-- Names with whether they are those of directories. -/
def seen (entries : List (Name × Node)) : List (Name × Bool) :=
  entries.map fun e => (e.1, e.2.isDir)

/-- What is seen of the directory under some names; nothing if there is no directory, or if it
cannot be gone to or may not be listed. -/
def seenAt? (tree : Node) (names : List Name) : Option (List (Name × Bool)) :=
  match tree.at? names with
  | some (.dir entries rights) =>
    if rights.list && tree.letsThrough names then some (seen entries) else none
  | _ => none

theorem seenAt?_eq_some_iff {tree : Node} {names : List Name} {found : List (Name × Bool)} :
    tree.seenAt? names = some found ↔
      ∃ entries rights, tree.at? names = some (.dir entries rights) ∧ rights.list = true ∧
        tree.letsThrough names = true ∧ seen entries = found := by
  unfold seenAt?
  split
  · next entries rights hat =>
    constructor
    · intro h
      split at h
      · next hread =>
        obtain ⟨hlist, hopen⟩ := Bool.and_eq_true_iff.mp hread
        exact ⟨entries, rights, hat, hlist, hopen, Option.some.inj h⟩
      · cases h
    · rintro ⟨_, _, hdir, hlist, hopen, rfl⟩
      obtain ⟨rfl, rfl⟩ := Node.dir.inj (Option.some.inj (hat.symm.trans hdir))
      rw [hlist, hopen]
      rfl
  · next hnone =>
    refine ⟨nofun, fun ⟨entries, rights, hat, _⟩ => absurd hat (hnone entries rights)⟩

theorem seenAt?_nil (entries : List (Name × Node)) (rights : Rights) :
    (Node.dir entries rights).seenAt? [] = if rights.list then some (seen entries) else none := by
  simp [seenAt?, at?, letsThrough]

theorem seenAt?_cons (tree : Node) (name : Name) (names : List Name) :
    tree.seenAt? (name :: names) =
      if tree.rights.search then (tree.entries.lookup name).bind (·.seenAt? names) else none := by
  rw [seenAt?, at?, letsThrough]
  cases tree.rights.search with
  | false =>
    simp only [Bool.false_and, Bool.and_false, Bool.false_eq_true, if_false]
    split <;> rfl
  | true =>
    cases tree.entries.lookup name <;> rfl

theorem seenAt?_file (contents : ByteArray) (names : List Name) :
    (Node.file contents).seenAt? names = none := by
  cases names with
  | nil => rfl
  | cons name names =>
    rw [seenAt?_cons]
    rfl

/-! ## Putting something in -/

theorem setEntry_of_lookup_eq_none {name : Name} {entries : List (Name × Node)}
    (h : entries.lookup name = none) (node : Node) :
    setEntry name node entries = entries ++ [(name, node)] := by
  induction entries with
  | nil => rfl
  | cons e rest ih =>
    have hne : e.1 ≠ name := by
      rintro rfl
      simp at h
    rw [List.lookup_cons, beq_eq_false_iff_ne.mpr hne.symm] at h
    rw [setEntry, if_neg hne, ih h, List.cons_append]

/-- Something else under a name is not seen if it is a directory as before or none as before. -/
theorem seen_setEntry {name : Name} {entries : List (Name × Node)} {before after : Node}
    (h : entries.lookup name = some before) (hdir : after.isDir = before.isDir) :
    seen (setEntry name after entries) = seen entries := by
  induction entries with
  | nil => simp at h
  | cons e rest ih =>
    by_cases hname : e.1 = name
    · subst hname
      rw [List.lookup_cons, beq_self_eq_true] at h
      rw [setEntry, if_pos rfl, seen, seen, List.map_cons, List.map_cons, hdir, ← Option.some.inj h]
    · rw [List.lookup_cons, beq_eq_false_iff_ne.mpr (Ne.symm hname)] at h
      rw [setEntry, if_neg hname, seen, seen, List.map_cons, List.map_cons]
      exact congrArg _ (ih h)

theorem mem_of_mem_setEntry {name : Name} {node : Node} {entries : List (Name × Node)}
    {e : Name × Node} (h : e ∈ setEntry name node entries) : e = (name, node) ∨ e ∈ entries := by
  induction entries with
  | nil => exact .inl (List.mem_singleton.mp h)
  | cons first rest ih =>
    unfold setEntry at h
    split at h
    · exact (List.mem_cons.mp h).imp_right (List.mem_cons_of_mem _)
    · rcases List.mem_cons.mp h with rfl | h
      · exact .inr (List.mem_cons_self ..)
      · exact (ih h).imp_right (List.mem_cons_of_mem _)

theorem isDir_insertAt (node : Node) {names : List Name} (h : names ≠ []) (tree : Node) :
    (node.insertAt names tree).isDir = true := by
  cases names with
  | nil => exact absurd rfl h
  | cons name names => rfl

@[simp] theorem rights_insertAt_cons (node : Node) (name : Name) (names : List Name) (tree : Node) :
    (node.insertAt (name :: names) tree).rights = tree.rights := rfl

/-- What holds of directories, of a tree and of what is put into it holds of the result. -/
theorem Everywhere.insertAt {p : Node → Prop} (hdir : ∀ entries rights, p (.dir entries rights))
    {node : Node} (hnode : Everywhere p node) (names : List Name) {tree : Node}
    (htree : Everywhere p tree) : Everywhere p (node.insertAt names tree) := by
  induction names generalizing tree with
  | nil => exact hnode
  | cons name names ih =>
    have hbelow : Everywhere p ((tree.entries.lookup name).getD (.dir [])) := by
      cases hfound : tree.entries.lookup name with
      | none => exact .intro (hdir _ _) (by simp [entries])
      | some child => exact htree.child (mem_of_lookup hfound)
    rw [Node.insertAt, everywhere_dir]
    refine ⟨hdir _ _, fun e he => ?_⟩
    rcases mem_of_mem_setEntry he with rfl | he
    · exact ih hbelow
    · exact htree.child he

theorem WithoutLinks.insertAt {node tree : Node} (hnode : node.WithoutLinks)
    (htree : tree.WithoutLinks) (names : List Name) : (node.insertAt names tree).WithoutLinks :=
  Everywhere.insertAt (fun _ _ => rfl) hnode names htree

/-- What leads to a directory is a directory. -/
theorem isDir_of_at? {tree : Node} {names : List Name} {sub : List (Name × Node)} {rights : Rights}
    (h : tree.at? names = some (.dir sub rights)) : tree.isDir = true := by
  cases names with
  | nil => exact Option.some.inj h ▸ rfl
  | cons name rest => exact isDir_of_at?_cons h

/-- A file that is put into a directory is seen there, and everything else as before. -/
theorem seenAt?_insertAt {contents : ByteArray} {name : Name} {above : List Name}
    {tree : Node} {sub : List (Name × Node)} {rights : Rights}
    (hat : tree.at? above = some (.dir sub rights)) (hnew : sub.lookup name = none)
    (names : List Name) :
    ((Node.file contents).insertAt (above ++ [name]) tree).seenAt? names =
      if names = above then (tree.seenAt? names).map (· ++ [(name, false)])
      else tree.seenAt? names := by
  induction above generalizing tree names with
  | nil =>
    obtain rfl : tree = .dir sub rights := Option.some.inj hat
    rw [List.nil_append, insertAt, insertAt, entries, setEntry_of_lookup_eq_none hnew]
    cases names with
    | nil =>
      rw [if_pos rfl, seenAt?_nil, seenAt?_nil]
      cases hlist : rights.list <;> simp [Node.rights, hlist, seen, isDir]
    | cons first rest =>
      rw [if_neg (List.cons_ne_nil first rest), seenAt?_cons, seenAt?_cons, entries,
        ← setEntry_of_lookup_eq_none hnew, lookup_setEntry, rights_dir, rights_dir]
      split
      · split
        · next hname =>
          rw [hname, entries, hnew, Option.bind_some, seenAt?_file]
          rfl
        · rfl
      · rfl
  | cons a above ih =>
    obtain ⟨listed, outer, rfl⟩ := isDir_iff.mp (isDir_of_at? hat)
    rw [at?, entries] at hat
    cases hchild : listed.lookup a with
    | none => simp [hchild] at hat
    | some child =>
      simp only [hchild] at hat
      have hsame : ((Node.file contents).insertAt (above ++ [name]) child).isDir = child.isDir := by
        rw [isDir_insertAt _ (by simp), isDir_of_at? hat]
      rw [List.cons_append, insertAt, entries, hchild, Option.getD_some]
      cases names with
      | nil =>
        rw [if_neg (List.cons_ne_nil a above).symm, seenAt?_nil, seen_setEntry hchild hsame,
          seenAt?_nil]
        rfl
      | cons first rest =>
        rw [seenAt?_cons, seenAt?_cons, entries, entries, lookup_setEntry, rights_dir, rights_dir]
        cases outer.search with
        | false => simp
        | true =>
          simp only [if_true]
          split
          · next hname =>
            rw [hname, hchild, Option.bind_some, Option.bind_some, ih hat rest]
            simp
          · next hname => simp [hname]

end ProjectLayout.Disk.Node
