import ProjectLayout.Proofs.Disk.Tree

/-!
# Following a path in two parts

A path that is joined from a directory and a relative path first leads to the directory and then,
if no link is in the way, from there along the names of the relative path.

* `follow_append` — following segments that lead somewhere, and more segments.
* `eq_append_of_follow` — without links, names lead nowhere but down.
* `at?_of_resolve_joinPath` — what a joined path leads to is found under its segments.
-/

namespace ProjectLayout.Disk

open Text

/-! ## Segments of a joined path -/

theorem pathSegments_append (s t : List Char) :
    pathSegments (String.ofList (s ++ '/' :: t)) =
      pathSegments (String.ofList s) ++ pathSegments (String.ofList t) := by
  simp [pathSegments, splitOn_append]

/-- A joined path has the segments of its parts; an empty segment at the end of the first part is
lost. -/
theorem pathSegments_joinPath {base path : String} (hbase : base ≠ "")
    (hpath : isAbsolute path = false) :
    ∃ front pad, (∀ segment ∈ pad, segment = "") ∧ pathSegments base = front ++ pad ∧
      pathSegments (joinPath base path) = front ++ pathSegments path := by
  have hempty : base.isEmpty = false := by simpa using hbase
  rw [joinPath, hpath, hempty]
  simp only [Bool.or_self, Bool.false_eq_true, if_false, beq_iff_eq]
  split
  · next hslash =>
    obtain ⟨front, hfront⟩ := List.getLast?_eq_some_iff.mp hslash
    refine ⟨pathSegments (String.ofList front), [""], by decide, ?_, ?_⟩
    · rw [← String.ofList_toList (s := base), hfront, pathSegments_append]
      rfl
    · have happend := pathSegments_append front path.toList
      rw [String.ofList_toList] at happend
      rw [← happend]
      refine congrArg pathSegments ?_
      apply String.toList_inj.mp
      simp [hfront]
  · refine ⟨pathSegments base, [], by simp, by simp, ?_⟩
    have happend := pathSegments_append base.toList path.toList
    rw [String.ofList_toList, String.ofList_toList] at happend
    rw [← happend]
    refine congrArg pathSegments ?_
    apply String.toList_inj.mp
    simp

theorem isAbsolute_joinPath {base path : String} (hbase : base ≠ "")
    (hpath : isAbsolute path = false) : isAbsolute (joinPath base path) = isAbsolute base := by
  have hempty : base.isEmpty = false := by simpa using hbase
  have hne : base.toList ≠ [] := by simpa using hbase
  obtain ⟨c, more, hmore⟩ := List.exists_cons_of_ne_nil hne
  rw [joinPath, hpath, hempty]
  simp only [Bool.or_self, Bool.false_eq_true, if_false]
  split <;> simp [isAbsolute, hmore]

/-! ## Following -/

/-- One segment of a path that is followed to use what is there. -/
theorem walk_access_cons (jump : List Name → List String → Except IoError Spot) (root : Node)
    (here : List Name) (segment : String) (rest : List String) :
    walk jump root .access here (segment :: rest) =
      if !(root.at? here).any Node.isDir then .error .notDirectory
      else if !(segment == "" || isSearchable root here) then .error .permissionDenied
      else if isIdle segment then walk jump root .access here rest
      else if segment = ".." then walk jump root .access here.dropLast rest
      else if maxNameBytes < segment.utf8ByteSize then .error .nameTooLong
      else
        match root.at? (here ++ [.text segment]) with
        | some (.link target) =>
          jump (if isAbsolute target then [] else here) (pathSegments target ++ rest)
        | some _ => walk jump root .access (here ++ [.text segment]) rest
        | none => if rest.isEmpty then .ok (.vacant here segment) else .error .notFound := by
  rw [walk]
  rfl

variable {root : Node}

/-- Empty segments lead nowhere else. -/
theorem eq_of_walk_empty {jump : List Name → List String → Except IoError Spot}
    {here names : List Name} {pad : List String} (hpad : ∀ segment ∈ pad, segment = "")
    (h : walk jump root .access here pad = .ok (.existing names)) : names = here := by
  induction pad with
  | nil =>
    simp only [walk, Except.ok.injEq, Spot.existing.injEq] at h
    exact h.symm
  | cons segment pad ih =>
    obtain ⟨rfl, hrest⟩ := List.forall_mem_cons.mp hpad
    rw [walk_access_cons] at h
    split at h
    · simp at h
    · exact ih hrest h

/-- One walk up to the next link, if what follows a link is known. -/
theorem walk_append {jump : List Name → List String → Except IoError Spot}
    {names : List Name} {pad : List String} (rest : List String)
    (hpad : ∀ segment ∈ pad, segment = "")
    (hstop : ∃ left, walk jump root .access names rest = follow root .access left names rest)
    (hjump : ∀ here way, jump here (way ++ pad) = .ok (.existing names) →
      ∃ left, jump here (way ++ rest) = follow root .access left names rest)
    {here : List Name} {way : List String}
    (h : walk jump root .access here (way ++ pad) = .ok (.existing names)) :
    ∃ left, walk jump root .access here (way ++ rest) = follow root .access left names rest := by
  induction way generalizing here with
  | nil =>
    rw [List.nil_append] at h ⊢
    rwa [← eq_of_walk_empty hpad h]
  | cons segment way ih =>
    rw [List.cons_append, walk_access_cons] at h ⊢
    split at h
    · simp at h
    next hdir =>
    rw [if_neg hdir]
    split at h
    · simp at h
    next hmay =>
    rw [if_neg hmay]
    split at h
    · next hidle => rw [if_pos hidle]; exact ih h
    next hidle =>
    rw [if_neg hidle]
    split at h
    · next hup => rw [if_pos hup]; exact ih h
    next hup =>
    rw [if_neg hup]
    split at h
    · simp at h
    next hlong =>
    rw [if_neg hlong]
    split at h
    · rw [← List.append_assoc] at h ⊢
      exact hjump _ _ h
    · exact ih h
    · split at h <;> simp at h

/-- Segments that lead to a directory, and more segments: what they lead to from there, through
some number of links. -/
theorem follow_append {names : List Name} {pad : List String} (rest : List String)
    (hpad : ∀ segment ∈ pad, segment = "") (links : Nat) {here : List Name} {way : List String}
    (h : follow root .access links here (way ++ pad) = .ok (.existing names)) :
    ∃ left, follow root .access links here (way ++ rest) =
      follow root .access left names rest := by
  induction links generalizing here way with
  | zero => exact walk_append rest hpad ⟨0, rfl⟩ (fun _ _ hj => by simp at hj) h
  | succ links ih => exact walk_append rest hpad ⟨links + 1, rfl⟩ (fun _ _ hj => ih hj) h

/-- In a tree without links names lead nowhere but down. -/
theorem eq_append_of_walk {jump : List Name → List String → Except IoError Spot}
    {here names : List Name} {way : List String} {tree : Node} (hhere : root.at? here = some tree)
    (hlinks : tree.WithoutLinks) (hway : ∀ segment ∈ way, isName segment = true)
    (h : walk jump root .access here way = .ok (.existing names)) :
    names = here ++ way.map .text := by
  induction way generalizing here tree with
  | nil =>
    simp only [walk, Except.ok.injEq, Spot.existing.injEq] at h
    simp [h]
  | cons segment way ih =>
    have hname : isIdle segment = false ∧ segment ≠ ".." := by
      simpa [isName] using hway segment List.mem_cons_self
    have hat : root.at? (here ++ [.text segment]) = tree.at? [.text segment] := by
      rw [Node.at?_append, hhere]
      rfl
    rw [walk_access_cons, hat, hname.1, if_neg hname.2] at h
    split at h
    · simp at h
    split at h
    · simp at h
    simp only [Bool.false_eq_true, if_false] at h
    split at h
    · simp at h
    split at h
    · next target ht =>
      exact absurd (Node.Everywhere.at? hlinks ht).here (by simp [Node.isLink])
    · next child _ hc =>
      rw [ih (hat.trans hc) (Node.Everywhere.at? hlinks hc)
        (fun s hs => hway s (List.mem_cons_of_mem _ hs)) h]
      simp
    · split at h <;> simp at h

theorem eq_append_of_follow {links : Nat} {here names : List Name} {way : List String}
    {tree : Node} (hhere : root.at? here = some tree) (hlinks : tree.WithoutLinks)
    (hway : ∀ segment ∈ way, isName segment = true)
    (h : follow root .access links here way = .ok (.existing names)) :
    names = here ++ way.map .text := by
  cases links <;> exact eq_append_of_walk hhere hlinks hway h

/-! ## Joined paths -/

theorem resolve_eq_ok_iff {disk : Disk} {path : String} {names : List Name} {node : Node} :
    disk.resolve path = .ok (names, node) ↔
      disk.locate path .access = .ok (.existing names) ∧ disk.root.at? names = some node := by
  rw [resolve]
  cases disk.locate path .access with
  | error e => simp
  | ok spot =>
    cases spot with
    | vacant dir name => simp
    | existing found =>
      simp only
      split
      · next hat =>
        simp only [Except.ok.injEq, Prod.mk.injEq, Spot.existing.injEq]
        constructor
        · rintro ⟨rfl, rfl⟩
          exact ⟨rfl, hat⟩
        · rintro ⟨rfl, h⟩
          exact ⟨rfl, Option.some.inj (hat.symm.trans h)⟩
      · next hat =>
        simp only [reduceCtorEq, false_iff, not_and, Except.ok.injEq, Spot.existing.injEq]
        rintro rfl
        simp [hat]

theorem stat?_eq_some_iff {disk : Disk} {path : String} {node : Node} :
    disk.stat? path = some node ↔ ∃ names, disk.resolve path = .ok (names, node) := by
  rw [stat?]
  cases disk.resolve path with
  | error e => simp [Except.toOption]
  | ok found => cases found; simp [Except.toOption]

/-- The root of a disk is found under `/`. -/
theorem stat?_root {disk : Disk} (h : disk.root.isDir = true) :
    disk.stat? "/" = some disk.root := by
  have hseg : pathSegments "/" = ["", ""] := by decide
  have hfits : fitsLimit "/" = true := by decide
  have hloc : disk.locate "/" .access = .ok (.existing []) := by
    simp [locate, follow, walk, hseg, hfits, start, isAbsolute, maxLinks, h, Node.at?, isIdle,
      mayAsk]
  simp [stat?, resolve, hloc, Node.at?, Except.toOption]

theorem list_eq_ok_iff {disk : Disk} {path : String} {entries : List (Name × Node)} :
    disk.list path = .ok entries ↔
      ∃ rights, disk.stat? path = some (.dir entries rights) ∧ rights.list = true := by
  simp only [list, stat?_eq_some_iff]
  cases disk.resolve path with
  | error e => simp
  | ok found =>
    obtain ⟨names, node⟩ := found
    cases node with
    | dir sub rights =>
      cases hlist : rights.list with
      | false => simp [hlist]
      | true =>
        simp only [hlist, if_true, Except.ok.injEq, Prod.mk.injEq, Node.dir.injEq]
        exact ⟨fun h => ⟨rights, ⟨names, rfl, h, rfl⟩, hlist⟩, fun ⟨_, ⟨_, _, h, _⟩, _⟩ => h⟩
    | file contents => simp
    | link target => simp

/-- A path that leads anywhere is short enough and leads there segment by segment, unless it is
followed to learn its real path. -/
theorem follow_of_locate_of_ne {disk : Disk} {path : String} {purpose : Purpose} {spot : Spot}
    (hpurpose : purpose ≠ .naming) (h : disk.locate path purpose = .ok spot) :
    path ≠ "" ∧ fitsLimit path = true ∧
      follow disk.root purpose maxLinks (disk.start path) (pathSegments path) = .ok spot := by
  rw [locate] at h
  split at h
  · simp at h
  split at h
  · simp at h
  next hempty =>
  split at h
  · simp at h
  next hfits =>
  refine ⟨by simpa using hempty, ?_, h⟩
  simpa [hpurpose] using hfits

theorem follow_of_locate {disk : Disk} {path : String} {spot : Spot}
    (h : disk.locate path .access = .ok spot) :
    path ≠ "" ∧ fitsLimit path = true ∧
      follow disk.root .access maxLinks (disk.start path) (pathSegments path) = .ok spot :=
  follow_of_locate_of_ne (by decide) h

/-- What is found was asked for by a path that is not empty and short enough. -/
theorem askable_of_stat? {disk : Disk} {path : String} {node : Node}
    (h : disk.stat? path = some node) : path ≠ "" ∧ fitsLimit path = true := by
  obtain ⟨names, hres⟩ := stat?_eq_some_iff.mp h
  obtain ⟨hne, hfits, -⟩ := follow_of_locate (resolve_eq_ok_iff.mp hres).1
  exact ⟨hne, hfits⟩

section Joined

variable {disk : Disk} {base path : String} {here names : List Name} {tree node : Node}

/-- The second part of a joined path is followed from where the first part leads. -/
theorem follow_of_resolve_joinPath (hbase : disk.resolve base = .ok (here, tree))
    (habs : isAbsolute path = false)
    (h : disk.resolve (joinPath base path) = .ok (names, node)) :
    ∃ left, follow disk.root .access left here (pathSegments path) = .ok (.existing names) := by
  obtain ⟨hlocBase, -⟩ := resolve_eq_ok_iff.mp hbase
  obtain ⟨hloc, -⟩ := resolve_eq_ok_iff.mp h
  obtain ⟨hne, -, hfollowBase⟩ := follow_of_locate hlocBase
  obtain ⟨-, -, hfollow⟩ := follow_of_locate hloc
  obtain ⟨front, pad, hpad, hsegBase, hseg⟩ := pathSegments_joinPath hne habs
  have hstart : disk.start (joinPath base path) = disk.start base := by
    rw [start, start, isAbsolute_joinPath hne habs]
  rw [hsegBase] at hfollowBase
  rw [hstart, hseg] at hfollow
  obtain ⟨left, hleft⟩ := follow_append (pathSegments path) hpad maxLinks hfollowBase
  exact ⟨left, hleft ▸ hfollow⟩

/-- The segments of the second part of a joined path lead down, if these are names and the first
part leads to a tree without links. -/
theorem eq_append_of_resolve_joinPath (hbase : disk.resolve base = .ok (here, tree))
    (hlinks : tree.WithoutLinks) (habs : isAbsolute path = false)
    (hpath : ∀ segment ∈ pathSegments path, isName segment = true)
    (h : disk.resolve (joinPath base path) = .ok (names, node)) :
    names = here ++ (pathSegments path).map .text := by
  obtain ⟨left, hfollow⟩ := follow_of_resolve_joinPath hbase habs h
  exact eq_append_of_follow (resolve_eq_ok_iff.mp hbase).2 hlinks hpath hfollow

/-- What a joined path leads to is found under the segments of its second part. -/
theorem at?_of_resolve_joinPath (hbase : disk.resolve base = .ok (here, tree))
    (hlinks : tree.WithoutLinks) (habs : isAbsolute path = false)
    (hpath : ∀ segment ∈ pathSegments path, isName segment = true)
    (h : disk.resolve (joinPath base path) = .ok (names, node)) :
    fitsLimit (joinPath base path) = true ∧
      tree.at? ((pathSegments path).map .text) = some node := by
  obtain ⟨hloc, hat⟩ := resolve_eq_ok_iff.mp h
  rw [eq_append_of_resolve_joinPath hbase hlinks habs hpath h, Node.at?_append,
    (resolve_eq_ok_iff.mp hbase).2] at hat
  exact ⟨(follow_of_locate hloc).2.1, hat⟩

end Joined

end ProjectLayout.Disk
