import ProjectLayout.Disk.Change
import ProjectLayout.Proofs.Disk.Growth

/-!
# Writing a new file

A path is followed to write a file just as it is followed to look at what is there, except that it
may end at a name that nothing is under, maybe behind links.  A file that is written there is what
the same path leads to afterwards, and nothing else in the tree has changed.

* `Leads` — where segments lead, with a case for each way to go on.
* `leads_of_follow`, `follow_of_leads` — segments are followed in this way.
* `Node.AddsFile` — a tree with one more file; `addsFile_insertAt`.
* `Leads.of_addsFile` — what leads to an empty place leads to the file that is put there.
* `exists_vacant_of_not_pathExists`, `writeText_of_vacant` — writing where nothing is yet, as far as
  there is room.
-/

namespace ProjectLayout.Disk

/-! ## Where segments lead -/

/-- Whether there is a directory under some names in which a segment may be asked for. -/
def LetsAsk (root : Node) (names : List Name) (segment : String) : Prop :=
  ∃ entries rights, root.at? names = some (.dir entries rights) ∧
    (segment = "" ∨ rights.search = true)

/-- Whether a segment asks for an entry under a name that can be looked up. -/
structure IsAsked (segment : String) : Prop where
  name : isName segment = true
  size : segment.utf8ByteSize ≤ maxNameBytes

/-- Where segments lead from the directory `here` through at most so many links. -/
inductive Leads (root : Node) : Nat → List Name → List String → Spot → Prop where
  | done {links : Nat} {here : List Name} : Leads root links here [] (.existing here)
  | stay {links : Nat} {here : List Name} {rest : List String} {segment : String} {spot : Spot}
      (hdir : LetsAsk root here segment) (hidle : isIdle segment = true)
      (h : Leads root links here rest spot) : Leads root links here (segment :: rest) spot
  | up {links : Nat} {here : List Name} {rest : List String} {spot : Spot}
      (hdir : LetsAsk root here "..") (h : Leads root links here.dropLast rest spot) :
      Leads root links here (".." :: rest) spot
  | down {links : Nat} {here : List Name} {rest : List String} {segment : String} {node : Node}
      {spot : Spot} (hdir : LetsAsk root here segment) (hname : IsAsked segment)
      (hat : root.at? (here ++ [.text segment]) = some node) (hlink : node.isLink = false)
      (h : Leads root links (here ++ [.text segment]) rest spot) :
      Leads root links here (segment :: rest) spot
  | through {links : Nat} {here : List Name} {rest : List String} {segment target : String}
      {spot : Spot} (hdir : LetsAsk root here segment) (hname : IsAsked segment)
      (hat : root.at? (here ++ [.text segment]) = some (.link target))
      (h : Leads root links (if isAbsolute target then [] else here) (pathSegments target ++ rest)
        spot) : Leads root (links + 1) here (segment :: rest) spot
  | new {links : Nat} {here : List Name} {segment : String} (hdir : LetsAsk root here segment)
      (hname : IsAsked segment) (hat : root.at? (here ++ [.text segment]) = none) :
      Leads root links here [segment] (.vacant here segment)

variable {root : Node} {links : Nat} {here above : List Name} {way : List String} {name : String}
  {spot : Spot}

theorem letsAsk_iff {names : List Name} {segment : String} :
    LetsAsk root names segment ↔ (root.at? names).any Node.isDir = true ∧
      (segment == "" || isSearchable root names) = true := by
  unfold LetsAsk isSearchable
  cases root.at? names with
  | none => simp
  | some node =>
    cases node with
    | dir entries rights => simp [Node.isDir, and_assoc]
    | file contents => simp [Node.isDir]
    | link target => simp [Node.isDir]

/-- One walk up to the next link, if what follows a link is known. -/
theorem leads_of_walk {jump : List Name → List String → Except IoError Spot} {purpose : Purpose}
    (hpurpose : purpose ≠ .naming)
    (hjump : ∀ here way, jump here way = .ok spot →
      ∃ left, links = left + 1 ∧ Leads root left here way spot)
    (h : walk jump root purpose here way = .ok spot) : Leads root links here way spot := by
  have hnaming : (purpose == .naming) = false := beq_eq_false_iff_ne.mpr hpurpose
  induction way generalizing here with
  | nil =>
    obtain rfl : .existing here = spot := Except.ok.inj h
    exact .done
  | cons segment rest ih =>
    rw [walk] at h
    simp only [mayAsk, hnaming, Bool.false_and, Bool.false_eq_true, if_false] at h
    split at h
    · cases h
    next hdir =>
    split at h
    · cases h
    next hmay =>
    have hdir : LetsAsk root here segment :=
      letsAsk_iff.mpr ⟨by simpa using hdir, by simpa only [Bool.not_not_eq] using hmay⟩
    split at h
    · next hidle => exact .stay hdir hidle (ih h)
    next hidle =>
    split at h
    · next hup =>
      subst hup
      exact .up hdir (ih h)
    next hup =>
    split at h
    · cases h
    split at h
    · cases h
    next hsize =>
    have hname : IsAsked segment := ⟨by simp [isName, hidle, hup], Nat.not_lt.mp hsize⟩
    split at h
    · next target hat =>
      obtain ⟨left, rfl, hleads⟩ := hjump _ _ h
      exact .through hdir hname hat hleads
    · next node hlink hat =>
      have hlink : node.isLink = false := by
        cases node with
        | link target => exact absurd rfl (hlink target)
        | _ => rfl
      exact .down hdir hname hat hlink (ih h)
    · next hat =>
      split at h
      · next hlast =>
        obtain rfl : .vacant here segment = spot := Except.ok.inj h
        obtain rfl := List.isEmpty_iff.mp hlast
        exact .new hdir hname hat
      · cases h

/-- Segments that are followed lead somewhere, unless they are followed to learn a real path. -/
theorem leads_of_follow {purpose : Purpose} (hpurpose : purpose ≠ .naming)
    (h : follow root purpose links here way = .ok spot) : Leads root links here way spot := by
  induction links generalizing here way with
  | zero => exact leads_of_walk hpurpose (fun _ _ hjump => by cases hjump) h
  | succ left ih => exact leads_of_walk hpurpose (fun _ _ hjump => ⟨left, rfl, ih hjump⟩) h

theorem follow_access_cons (root : Node) (links : Nat) (here : List Name) (segment : String)
    (rest : List String) :
    follow root .access links here (segment :: rest) =
      if !(root.at? here).any Node.isDir then .error .notDirectory
      else if !(segment == "" || isSearchable root here) then .error .permissionDenied
      else if isIdle segment then follow root .access links here rest
      else if segment = ".." then follow root .access links here.dropLast rest
      else if maxNameBytes < segment.utf8ByteSize then .error .nameTooLong
      else
        match root.at? (here ++ [.text segment]) with
        | some (.link target) =>
          match links with
          | 0 => .error .tooManyLinks
          | left + 1 =>
            follow root .access left (if isAbsolute target then [] else here)
              (pathSegments target ++ rest)
        | some _ => follow root .access links (here ++ [.text segment]) rest
        | none => if rest.isEmpty then .ok (.vacant here segment) else .error .notFound := by
  cases links <;> exact walk_access_cons _ root here segment rest

/-- In a directory that lets a segment be asked for, the segment decides. -/
theorem follow_access_of_letsAsk {segment : String} (hdir : LetsAsk root here segment)
    (rest : List String) :
    follow root .access links here (segment :: rest) =
      if isIdle segment then follow root .access links here rest
      else if segment = ".." then follow root .access links here.dropLast rest
      else if maxNameBytes < segment.utf8ByteSize then .error .nameTooLong
      else
        match root.at? (here ++ [.text segment]) with
        | some (.link target) =>
          match links with
          | 0 => .error .tooManyLinks
          | left + 1 =>
            follow root .access left (if isAbsolute target then [] else here)
              (pathSegments target ++ rest)
        | some _ => follow root .access links (here ++ [.text segment]) rest
        | none => if rest.isEmpty then .ok (.vacant here segment) else .error .notFound := by
  obtain ⟨hisDir, hmay⟩ := letsAsk_iff.mp hdir
  rw [follow_access_cons, hisDir, hmay]
  rfl

/-- A name in a directory is looked up there. -/
theorem follow_access_name {segment : String} (hdir : LetsAsk root here segment)
    (hname : IsAsked segment) (rest : List String) :
    follow root .access links here (segment :: rest) =
      match root.at? (here ++ [.text segment]) with
      | some (.link target) =>
        match links with
        | 0 => .error .tooManyLinks
        | left + 1 =>
          follow root .access left (if isAbsolute target then [] else here)
            (pathSegments target ++ rest)
      | some _ => follow root .access links (here ++ [.text segment]) rest
      | none => if rest.isEmpty then .ok (.vacant here segment) else .error .notFound := by
  rw [follow_access_of_letsAsk hdir, isIdle_eq_false hname.name,
    if_neg (ne_up_of_isName hname.name), if_neg (Nat.not_lt.mpr hname.size)]
  rfl

/-- Segments that lead somewhere are followed there to use what is there. -/
theorem follow_of_leads (h : Leads root links here way spot) :
    follow root .access links here way = .ok spot := by
  induction h with
  | done => cases ‹Nat› <;> rfl
  | stay hdir hidle _ ih =>
    rw [follow_access_of_letsAsk hdir, hidle, ih]
    rfl
  | up hdir _ ih =>
    have hidle : isIdle ".." = false := by decide
    rw [follow_access_of_letsAsk hdir, hidle, if_pos rfl, ih]
    rfl
  | @down links here rest segment node spot hdir hname hat hlink _ ih =>
    rw [follow_access_name hdir hname, hat]
    cases node with
    | link target => cases hlink
    | _ => exact ih
  | through hdir hname hat _ ih =>
    rw [follow_access_name hdir hname, hat]
    exact ih
  | new hdir hname hat =>
    rw [follow_access_name hdir hname, hat]
    rfl

/-! ## The end of the way -/

theorem LetsAsk.isSome_at? {segment : String} (h : LetsAsk root here segment) :
    (root.at? here).isSome = true := by
  obtain ⟨entries, rights, hat, -⟩ := h
  rw [hat]
  rfl

/-- Above what is there is something. -/
theorem isSome_at?_dropLast (h : (root.at? here).isSome = true) :
    (root.at? here.dropLast).isSome = true := by
  by_cases hnil : here = []
  · rwa [hnil] at h ⊢
  · rw [← List.dropLast_concat_getLast hnil, Node.at?_append] at h
    exact Option.isSome_of_isSome_bind h

/-- What is led to is there, if the way is not empty or begins at something that is there. -/
theorem Leads.isSome_at? {names : List Name} (h : Leads root links here way (.existing names))
    (hhere : way = [] → (root.at? here).isSome = true) : (root.at? names).isSome = true := by
  generalize hspot : Spot.existing names = spot at h
  induction h with
  | done =>
    obtain rfl := Spot.existing.inj hspot
    exact hhere rfl
  | stay hdir _ _ ih => exact ih (fun _ => hdir.isSome_at?) hspot
  | up hdir _ ih => exact ih (fun _ => isSome_at?_dropLast hdir.isSome_at?) hspot
  | down _ _ hat _ _ ih => exact ih (fun _ => Option.isSome_of_eq_some hat) hspot
  | through hdir _ _ _ ih =>
    refine ih (fun _ => ?_) hspot
    split
    · rfl
    · exact hdir.isSome_at?
  | new => cases hspot

/-- A place where a file can be made is an unused name in a directory. -/
theorem Leads.vacant_spot (h : Leads root links here way (.vacant above name)) :
    ∃ sub rights, root.at? above = some (.dir sub rights) ∧ sub.lookup (.text name) = none := by
  generalize hspot : Spot.vacant above name = spot at h
  induction h with
  | done => cases hspot
  | stay _ _ _ ih => exact ih hspot
  | up _ _ ih => exact ih hspot
  | down _ _ _ _ _ ih => exact ih hspot
  | through _ _ _ _ ih => exact ih hspot
  | new hdir _ hat =>
    obtain ⟨rfl, rfl⟩ := Spot.vacant.inj hspot
    obtain ⟨sub, rights, hsub, -⟩ := hdir
    refine ⟨sub, rights, hsub, ?_⟩
    rw [Node.at?_append, hsub, Option.bind_some, Node.at?, Node.entries] at hat
    cases hlookup : sub.lookup (.text name) with
    | none => rfl
    | some child => simp [hlookup, Node.at?] at hat

/-! ## One more file -/

namespace Node

/-- A node without what is in it, if it is a directory. -/
def bare : Node → Node
  | .dir _ rights => .dir [] rights
  | node => node

/-- Whether a tree has a file more than another and is the same otherwise: under all other names
there are the same files and links, and directories with the same rights where there were
directories. -/
structure AddsFile (before after : Node) (names : List Name) (contents : ByteArray) : Prop where
  absent : before.at? names = none
  file : after.at? names = some (.file contents)
  others (other : List Name) (h : other ≠ names) :
    (after.at? other).map bare = (before.at? other).map bare

theorem at?_file (contents : ByteArray) {names : List Name} (h : names ≠ []) :
    (Node.file contents).at? names = none := by
  cases names with
  | nil => exact absurd rfl h
  | cons name names => rfl

theorem at?_dir_cons (entries : List (Name × Node)) (rights : Rights) (name : Name)
    (names : List Name) :
    (Node.dir entries rights).at? (name :: names) = (entries.lookup name).bind (·.at? names) := by
  rw [at?, Node.entries]
  cases entries.lookup name <;> rfl

/-- What is under some names after something else was put under a first name. -/
theorem at?_dir_setEntry (name : Name) (node : Node) (entries : List (Name × Node))
    (rights : Rights) (first : Name) (rest : List Name) :
    (Node.dir (setEntry name node entries) rights).at? (first :: rest) =
      if first = name then node.at? rest else (Node.dir entries rights).at? (first :: rest) := by
  rw [at?_dir_cons, at?_dir_cons, lookup_setEntry]
  split <;> rfl

/-- A file that is put into a directory under an unused name changes nothing elsewhere. -/
theorem bare_at?_insertAt {above : List Name} {name : Name} {tree : Node}
    {sub : List (Name × Node)} {rights : Rights} (contents : ByteArray)
    (hat : tree.at? above = some (.dir sub rights)) (hnew : sub.lookup name = none)
    {other : List Name} (h : other ≠ above ++ [name]) :
    (((Node.file contents).insertAt (above ++ [name]) tree).at? other).map bare =
      (tree.at? other).map bare := by
  induction above generalizing tree other with
  | nil =>
    obtain rfl : tree = .dir sub rights := Option.some.inj hat
    cases other with
    | nil => rfl
    | cons first rest =>
      rw [List.nil_append, insertAt, insertAt, entries, at?_dir_setEntry]
      split
      · next hname =>
        have hrest : rest ≠ [] := fun hnil => h (by rw [hname, hnil, List.nil_append])
        rw [at?_file contents hrest, at?_dir_cons, hname, hnew]
        rfl
      · rfl
  | cons a above ih =>
    obtain ⟨listed, outer, rfl⟩ := isDir_iff.mp (isDir_of_at? hat)
    rw [at?_dir_cons] at hat
    obtain ⟨child, hchild, hbelow⟩ := Option.bind_eq_some_iff.mp hat
    cases other with
    | nil => rfl
    | cons first rest =>
      rw [List.cons_append, insertAt, entries, hchild, Option.getD_some, at?_dir_setEntry]
      split
      · next hname =>
        subst hname
        have hrest : rest ≠ above ++ [name] := fun hrest => h (by rw [hrest, List.cons_append])
        rw [ih hbelow hrest, at?_dir_cons, hchild]
        rfl
      · rfl

/-- A file that is put into a directory under an unused name is one more file. -/
theorem addsFile_insertAt {above : List Name} {name : Name} {tree : Node}
    {sub : List (Name × Node)} {rights : Rights} (contents : ByteArray)
    (hat : tree.at? above = some (.dir sub rights)) (hnew : sub.lookup name = none) :
    tree.AddsFile ((Node.file contents).insertAt (above ++ [name]) tree) (above ++ [name])
      contents where
  absent := by
    rw [at?_append, hat, Option.bind_some, at?_dir_cons, hnew]
    rfl
  file := at?_insertAt _ _ _
  others _ h := bare_at?_insertAt contents hat hnew h

@[simp] theorem isLink_bare (node : Node) : node.bare.isLink = node.isLink := by
  cases node <;> rfl

theorem eq_dir_of_bare_eq {node : Node} {rights : Rights} (h : node.bare = .dir [] rights) :
    ∃ entries, node = .dir entries rights := by
  cases node with
  | dir entries others => exact ⟨entries, by rw [(Node.dir.inj h).2]⟩
  | file contents => cases h
  | link target => cases h

theorem eq_link_of_bare_eq {node : Node} {target : String} (h : node.bare = .link target) :
    node = .link target := by
  cases node with
  | dir entries rights => cases h
  | _ => exact h

namespace AddsFile

variable {before after node : Node} {names other : List Name} {contents : ByteArray}

/-- What was there is still there, as far as it is not the contents of a directory. -/
theorem exists_at? (h : before.AddsFile after names contents) (hat : before.at? other = some node) :
    ∃ same, after.at? other = some same ∧ same.bare = node.bare := by
  have hne : other ≠ names := by
    rintro rfl
    rw [h.absent] at hat
    cases hat
  have hsame := h.others other hne
  rw [hat, Option.map_some] at hsame
  exact Option.map_eq_some_iff.mp hsame

theorem letsAsk {segment : String} (h : before.AddsFile after names contents)
    (hdir : LetsAsk before other segment) : LetsAsk after other segment := by
  obtain ⟨entries, rights, hat, hmay⟩ := hdir
  obtain ⟨same, hafter, hbare⟩ := h.exists_at? hat
  obtain ⟨sub, rfl⟩ := eq_dir_of_bare_eq hbare
  exact ⟨sub, rights, hafter, hmay⟩

end AddsFile

end Node

/-- What led to an empty place leads to the file that was put there. -/
theorem Leads.of_addsFile {after : Node} {contents : ByteArray}
    (hadds : root.AddsFile after (above ++ [.text name]) contents)
    (h : Leads root links here way (.vacant above name)) :
    Leads after links here way (.existing (above ++ [.text name])) := by
  generalize hspot : Spot.vacant above name = spot at h
  induction h with
  | done => cases hspot
  | stay hdir hidle _ ih => exact .stay (hadds.letsAsk hdir) hidle (ih hspot)
  | up hdir _ ih => exact .up (hadds.letsAsk hdir) (ih hspot)
  | down hdir hname hat hlink _ ih =>
    obtain ⟨same, hafter, hbare⟩ := hadds.exists_at? hat
    have hsame : same.isLink = false := by rw [← Node.isLink_bare, hbare, Node.isLink_bare, hlink]
    exact .down (hadds.letsAsk hdir) hname hafter hsame (ih hspot)
  | through hdir hname hat _ ih =>
    obtain ⟨same, hafter, hbare⟩ := hadds.exists_at? hat
    obtain rfl := Node.eq_link_of_bare_eq hbare
    exact .through (hadds.letsAsk hdir) hname hafter (ih hspot)
  | new hdir hname _ =>
    obtain ⟨rfl, rfl⟩ := Spot.vacant.inj hspot
    exact .down (hadds.letsAsk hdir) hname hadds.file rfl .done

/-! ## Writing -/

variable {disk : Disk} {path : String}

/-- A path that leads anywhere can be asked for, and its segments lead there. -/
theorem leads_of_locate {purpose : Purpose} (hpurpose : purpose ≠ .naming)
    (h : disk.locate path purpose = .ok spot) :
    '\x00' ∉ path.toList ∧ path ≠ "" ∧ fitsLimit path = true ∧
      Leads disk.root maxLinks (disk.start path) (pathSegments path) spot := by
  obtain ⟨hne, hfits, hfollow⟩ := follow_of_locate_of_ne hpurpose h
  exact ⟨nul_not_mem_of_locate h, hne, hfits, leads_of_follow hpurpose hfollow⟩

/-- A path that can be written to leads to the same place when it is looked at. -/
theorem locate_access_of_writing (h : disk.locate path .writing = .ok spot) :
    disk.locate path .access = .ok spot := by
  obtain ⟨hnul, hne, hfits, hleads⟩ := leads_of_locate (by decide) h
  rw [locate_eq_follow hnul hne hfits]
  exact follow_of_leads hleads

/-- A path that leads to nothing can be written to only where a file can be made. -/
theorem exists_vacant_of_not_pathExists (hnone : disk.pathExists path = false)
    (h : disk.locate path .writing = .ok spot) : ∃ above name, spot = .vacant above name := by
  cases spot with
  | vacant above name => exact ⟨above, name, rfl⟩
  | existing names =>
    obtain ⟨-, -, -, hleads⟩ := leads_of_locate (by decide) h
    have hway : pathSegments path ≠ [] := by
      simpa [pathSegments] using Text.splitOn_ne_nil '/' path.toList
    obtain ⟨node, hat⟩ :=
      Option.isSome_iff_exists.mp (hleads.isSome_at? fun hnil => absurd hnil hway)
    have hstat : disk.stat? path = some node :=
      stat?_eq_some_iff.mpr ⟨names, resolve_eq_ok_iff.mpr ⟨locate_access_of_writing h, hat⟩⟩
    rw [pathExists, hstat] at hnone
    cases hnone

/-- Whether there is room for a text. -/
def HasRoom (disk : Disk) (text : String) : Prop := ∀ n ∈ disk.room, text.toUTF8.size ≤ n

instance (disk : Disk) (text : String) : Decidable (disk.HasRoom text) :=
  inferInstanceAs (Decidable (∀ _ ∈ disk.room, _))

/-- As much of a text as there is room for. -/
def fitting (disk : Disk) (text : String) : ByteArray :=
  text.toUTF8.extract 0 (disk.room.elim text.toUTF8.size (min text.toUTF8.size))

theorem fitting_eq {text : String} (h : disk.HasRoom text) : disk.fitting text = text.toUTF8 := by
  unfold HasRoom at h
  unfold fitting
  cases hroom : disk.room with
  | none => exact ByteArray.extract_zero_size
  | some n =>
    have hle : text.toUTF8.size ≤ n := h n hroom
    rw [Option.elim_some, Nat.min_eq_left hle, ByteArray.extract_zero_size]

/-- Without room for a text, it is cut off. -/
theorem size_fitting_lt {text : String} (h : ¬disk.HasRoom text) :
    (disk.fitting text).size < text.toUTF8.size := by
  unfold HasRoom at h
  unfold fitting
  cases hroom : disk.room with
  | none => simp [hroom] at h
  | some n =>
    have hlt : n < text.toUTF8.size := by simpa [hroom] using h
    rw [Option.elim_some, ByteArray.size_extract]
    omega

/-- A file that is written where nothing is yet is one more file, and the path leads to it.  The
text is cut off where there is no more room. -/
theorem writeText_of_vacant (text : String)
    (h : disk.locate path .writing = .ok (.vacant above name))
    (hchange : disk.mayChange above = true) :
    ∃ after, disk.writeText path text =
        (if disk.HasRoom text then .ok () else .error .noSpace, after) ∧
      after.workingDir = disk.workingDir ∧
      disk.root.AddsFile after.root (above ++ [.text name]) (disk.fitting text) ∧
      after.stat? path = some (.file (disk.fitting text)) := by
  obtain ⟨hnul, hne, hfits, hleads⟩ := leads_of_locate (by decide) h
  obtain ⟨sub, rights, hat, hnew⟩ := hleads.vacant_spot
  have hadds := Node.addsFile_insertAt (disk.fitting text) hat hnew
  have hroom : disk.roomAt (above ++ [.text name]) = disk.room := by rw [roomAt, hadds.absent]
  have hcut : disk.room.elim text.toUTF8.size (min text.toUTF8.size) < text.toUTF8.size ↔
      ¬disk.HasRoom text := by
    unfold HasRoom
    cases disk.room with
    | none => simp
    | some n =>
      simp only [Option.elim_some, Option.mem_some, forall_eq']
      omega
  refine ⟨(disk.fill (above ++ [.text name]) text).2, ?_, rfl, ?_, ?_⟩
  · rw [writeText, h]
    dsimp only
    rw [if_pos hchange, fill, hroom]
    dsimp only
    simp only [hcut, ite_not]
  · rw [fill, hroom]
    exact hadds
  · refine stat?_eq_some_iff.mpr ⟨above ++ [.text name], resolve_eq_ok_iff.mpr ⟨?_, ?_⟩⟩
    · rw [fill, hroom, locate_eq_follow hnul hne hfits]
      exact follow_of_leads (hleads.of_addsFile hadds)
    · rw [fill, hroom]
      exact hadds.file

end ProjectLayout.Disk
