import Mathlib.Data.List.Induction
import ProjectLayout.Proofs.Scan.Listing

/-!
# Asking for what was scanned

The path that a scan gives to something can be asked for again.  A name with a backslash in it does
not come back, since the backslash is taken for a `/`, and a path can be too long to be asked for
though the scan has come to it name by name.

* `Scanner.Reports` — that a scan reports what is under some names as an entry.
* `Scanner.probes_agree_with_scan` — what is reported is found under its path, and different things
  have different paths.
* `Scanner.reported_but_not_found` — backslashes and long paths.
-/

namespace ProjectLayout.Scan

open Disk

namespace Scanner

variable {scanner : Scanner} {disk : Disk} {tree found : Node} {names : List Name}

/-! ## One path -/

/-- What is found at the path of something that is no link. -/
theorem stat?_diskPath_pathOf {texts : List String} (hroot : disk.stat? scanner.root = some tree)
    (hdir : tree.isDir = true) (hne : texts ≠ []) (hplain : ∀ name ∈ texts, IsPlainName name)
    (hstore : ∀ name ∈ texts, IsStorable name) (hat : tree.at? (texts.map .text) = some found)
    (hlink : found.isLink = false) :
    disk.stat? (scanner.diskPath (pathOf texts)) =
      if scanner.fitsAt (texts.map .text) && tree.letsThrough (texts.map .text) then some found
      else none := by
  have hentry : ∀ name ∈ texts, IsEntryName name := fun name hn => (hplain name hn).1
  rw [diskPath_pathOf hplain, scanner.fitsAt_map_text hne hentry]
  exact stat?_joinPath_pathOf hroot hdir hentry hstore hat hlink

/-- That a scan of a tree reports what is under some names as an entry. -/
structure Reports (scanner : Scanner) (tree : Node) (names : List Name) (found : Node)
    (e : Entry) : Prop where
  ne_nil : names ≠ []
  at?_eq : tree.at? names = some found
  reaches : scanner.Reaches [] tree names
  entry_eq : e = Entry.ofPath (reportedPath names) found.isDir

theorem mem_below_root_iff_reports (hw : tree.WellFormed) {e : Entry} :
    e ∈ scanner.below tree ↔ ∃ names found, scanner.Reports tree names found e := by
  simp only [below, List.mem_map, mem_places hw, List.nil_append]
  constructor
  · rintro ⟨place, ⟨_, hne, hat, hreach, rfl⟩, rfl⟩
    exact ⟨place.names, place.node, hne, hat, hreach, rfl⟩
  · rintro ⟨names, found, hne, hat, hreach, rfl⟩
    exact ⟨⟨names, found⟩, ⟨names, hne, hat, hreach, rfl⟩, rfl⟩

theorem below_eq_of_scan {entries : List Entry} (hroot : disk.stat? scanner.root = some tree)
    (hscan : scanner.scan disk = .ok entries) : scanner.below tree = entries := by
  rw [scan] at hscan
  cases hcheck : scanner.checkRoot disk with
  | error e =>
    rw [hcheck] at hscan
    cases hscan
  | ok checked =>
    rw [hcheck] at hscan
    obtain rfl : checked = tree :=
      Option.some.inj ((checkRoot_eq_ok_iff.mp hcheck).1.symm.trans hroot)
    exact Except.ok.inj hscan

/-- What is reported is found under its path as what it was reported, if the path is short enough
to be asked for, the directories on the way may be searched and no name on the way has a backslash
in it. -/
theorem Reports.probes {texts : List String} {e : Entry}
    (h : scanner.Reports tree (texts.map .text) found e)
    (hroot : disk.stat? scanner.root = some tree) (hdir : tree.isDir = true)
    (hw : tree.WellFormed) (hstore : ∀ name ∈ texts, IsStorable name)
    (hlink : found.isLink = false) (hslash : ∀ name ∈ texts, '\\' ∉ name.toList) :
    scanner.hasPath disk e.path =
        (scanner.fitsAt (texts.map .text) && tree.letsThrough (texts.map .text)) ∧
      scanner.hasDirectory disk e.path = (e.isDirectory &&
        (scanner.fitsAt (texts.map .text) && tree.letsThrough (texts.map .text))) := by
  have hentry := hw.isEntryName h.at?_eq
  have hplain : ∀ name ∈ texts, IsPlainName name := fun name hn => ⟨hentry name hn, hslash name hn⟩
  have hpath : reportedPath (texts.map .text) = pathOf texts := by
    rw [reportedPath_eq_pathOf fun name hname => ?_, Name.map_lossy_map_text]
    obtain ⟨text, htext, rfl⟩ := List.mem_map.mp hname
    exact hplain text htext
  have hstat := stat?_diskPath_pathOf hroot hdir (by simpa using h.ne_nil) hplain hstore h.at?_eq
    hlink
  rw [h.entry_eq, Entry.path_ofPath, Entry.isDirectory_ofPath, hpath, hasPath, pathExists,
    hasDirectory, isDirectory, hstat]
  split
  · next hfound => simp [hfound]
  · next hlost => simp [hlost]

/-- What a scan reports under texts is found under the path that it reports, and where all names
are texts the paths of different things are different unless there are backslashes in the tree. -/
theorem probes_agree_with_scan (scanner : Scanner) (disk : Disk) {tree : Node}
    (hroot : disk.stat? scanner.root = some tree) (hdir : tree.isDir = true)
    (hlist : tree.rights.list = true) (hw : tree.WellFormed) (hs : tree.Storable) :
    ∃ entries, scanner.scan disk = .ok entries ∧
      (∀ e, e ∈ entries ↔ ∃ names found, scanner.Reports tree names found e) ∧
      (tree.WithoutBackslash → tree.HasTextNames → (entries.map (·.path)).Nodup) ∧
      ∀ (texts : List String) found e, scanner.Reports tree (texts.map .text) found e →
        found.isLink = false → (∀ name ∈ texts, '\\' ∉ name.toList) →
        scanner.hasPath disk e.path =
            (scanner.fitsAt (texts.map .text) && tree.letsThrough (texts.map .text)) ∧
          scanner.hasDirectory disk e.path = (e.isDirectory &&
            (scanner.fitsAt (texts.map .text) && tree.letsThrough (texts.map .text))) := by
  refine ⟨_, scan_eq_below hroot hdir hlist, fun e => mem_below_root_iff_reports hw,
    fun hb ht => nodup_path_of_pairwise_earlier (below_pairwise hw hb ht), ?_⟩
  intro texts found e h hlink hslash
  exact h.probes hroot hdir hw (hs.isStorable h.at?_eq) hlink hslash

theorem probes_agree_sample :
    (ofPatterns "/" ["n"]).Reports sampleTree ["a", "b"] .emptyFile (Entry.ofPath "a/b" false) ∧
      (ofPatterns "/" ["n"]).hasPath (.ofTree sampleTree) "a/b" = true ∧
      (ofPatterns "/" ["n"]).hasDirectory (.ofTree sampleTree) "a/b" = false := by
  have hroot : Disk.stat? (.ofTree sampleTree) "/" = some sampleTree := stat?_root rfl
  obtain ⟨-, -, -, -, hprobes⟩ :=
    probes_agree_with_scan (ofPatterns "/" ["n"]) (.ofTree sampleTree) hroot rfl rfl
      (by decide) (by decide)
  have hreport : (ofPatterns "/" ["n"]).Reports sampleTree (["a", "b"].map .text) .emptyFile
      (Entry.ofPath "a/b" false) :=
    ⟨by simp, rfl, (reaches_root_iff (by decide)).mpr ⟨by decide, by decide⟩, rfl⟩
  obtain ⟨hpath, hdirectory⟩ := hprobes ["a", "b"] _ _ hreport rfl (by decide)
  exact ⟨hreport, hpath, hdirectory⟩

/-! ## What is not found -/

theorem utf8ByteSize_joinPath_empty_le (base : String) :
    (joinPath base "").utf8ByteSize ≤ base.utf8ByteSize + 1 := by
  unfold joinPath
  split
  · simp
  · split
    · simp
    · rw [String.utf8ByteSize_append, String.utf8ByteSize_append]
      exact Nat.le_refl _

/-- Each name makes a full path longer by one byte more than it has at most. -/
theorem fullSize_le (scanner : Scanner) (names : List Name) :
    scanner.fullSize names ≤
      scanner.root.utf8ByteSize + Name.totalSize names + names.length := by
  have hslash := utf8ByteSize_joinPath_empty_le scanner.root
  cases names with
  | nil => simp [fullSize]
  | cons name names =>
    simp only [fullSize, List.length_cons]
    omega

theorem at?_nested_replicate (name : String) (depth : Nat) :
    (nested name depth).at? (List.replicate depth (.text name)) = some (nested name 0) := by
  induction depth with
  | zero => rfl
  | succ depth ih => simpa [nested, List.replicate_succ, Node.at?, Node.entries] using ih

theorem isListable_nested (name : String) {depth stays : Nat} (h : stays ≤ depth) :
    (nested name depth).isListable (List.replicate stays (.text name)) = true := by
  induction stays generalizing depth with
  | zero => cases depth <;> rfl
  | succ stays ih =>
    cases depth with
    | zero => simp at h
    | succ depth =>
      have hchild : (nested name (depth + 1)).entries.lookup (.text name) =
          some (nested name depth) := by simp [nested, Node.entries]
      rw [List.replicate_succ, Node.isListable_cons hchild, ih (Nat.le_of_succ_le_succ h)]
      rfl

theorem fullSize_replicate_longName (scanner : Scanner) (depth : Nat) :
    scanner.root.utf8ByteSize + 250 * depth ≤
        scanner.fullSize (List.replicate depth (.text longName)) ∧
      scanner.fullSize (List.replicate depth (.text longName)) ≤
        scanner.root.utf8ByteSize + 251 * depth := by
  have hlower := scanner.fullSize_append_le [] (List.replicate depth (.text longName))
  have hupper := scanner.fullSize_le (List.replicate depth (.text longName))
  simp only [Name.totalSize_replicate, Name.size_text, utf8ByteSize_longName,
    List.length_replicate, List.nil_append, fullSize] at hlower hupper ⊢
  omega

/-- A directory can be reported though its path is too long to be asked for: the scan only asks for
the one that holds it. -/
theorem reports_nested_longName :
    (ofPatterns "/" []).Reports (nested longName 17) ((List.replicate 17 longName).map .text)
      (nested longName 0) (Entry.ofPath (pathOf (List.replicate 17 longName)) true) := by
  have hplain : ∀ name ∈ List.replicate 17 (Name.text longName), name.IsPlain :=
    List.forall_mem_replicate.mpr (.inr isPlainName_longName)
  rw [List.map_replicate]
  refine ⟨by simp, at?_nested_replicate _ _, (reaches_root_iff hplain).mpr ⟨?_, ?_⟩, ?_⟩
  · exact fun _ _ _ => rfl
  · intro way hway hne
    have hsame := List.prefix_replicate_iff.mp hway
    obtain ⟨stays, hle, rfl⟩ : ∃ stays ≤ 17, way = List.replicate stays (.text longName) :=
      ⟨_, hsame.1, hsame.2⟩
    have hne : stays ≠ 17 := fun h => hne (by rw [h])
    have hsize := (fullSize_replicate_longName (ofPatterns "/" []) stays).2
    have hroot : (ofPatterns "/" []).root.utf8ByteSize = 1 := by decide
    refine ⟨decide_eq_true ?_, isListable_nested longName hle⟩
    rw [maxPathBytes]
    omega
  · rw [reportedPath_eq_pathOf hplain, List.map_replicate]
    rfl

/-- Files with a backslash in their names, and one with such a name less the backslash. -/
def slashedTree : Node :=
  .dir [("\\x", .emptyFile), ("x", .emptyFile), ("x\\y", .emptyFile)]

theorem mem_places_slashedTree (name : Name) (hat : slashedTree.at? [name] = some .emptyFile)
    (hlookup : slashedTree.entries.lookup name = some .emptyFile) :
    ⟨[name], .emptyFile⟩ ∈ (ofPatterns "/" []).places [] slashedTree :=
  (mem_places (by decide)).mpr ⟨[name], by simp, hat,
    (reaches_cons hlookup).mpr ⟨by decide, rfl, .inl rfl⟩, rfl⟩

/-- Two files get one path; a file at the top gets a path that leads nowhere and that has it in a
directory, and a directory gets a path that leads nowhere. -/
theorem reported_but_not_found :
    (slashedTree.WellFormed ∧ slashedTree.Storable ∧
      ∃ entries, (ofPatterns "/" []).scan (.ofTree slashedTree) = .ok entries ∧
        ¬ (entries.map (·.path)).Nodup ∧ Entry.ofPath "x/y" false ∈ entries ∧
        (Entry.ofPath "x/y" false).name = "y" ∧ (Entry.ofPath "x/y" false).directory = "x" ∧
        (ofPatterns "/" []).hasPath (.ofTree slashedTree) "x/y" = false) ∧
    (nested longName 17).WellFormed ∧
      ∃ entries, (ofPatterns "/" []).scan (.ofTree (nested longName 17)) = .ok entries ∧
        Entry.ofPath (pathOf (List.replicate 17 longName)) true ∈ entries ∧
        (ofPatterns "/" []).hasPath (.ofTree (nested longName 17))
          (pathOf (List.replicate 17 longName)) = false := by
  have hlong : (nested longName 17).WellFormed := nested_wellFormed isPlainName_longName.1 17
  have hslashed : Disk.stat? (.ofTree slashedTree) "/" = some slashedTree := stat?_root rfl
  have hroot : Disk.stat? (.ofTree (nested longName 17)) (ofPatterns "/" []).root =
      some (nested longName 17) := stat?_root rfl
  refine ⟨⟨by decide, by decide, _, scan_eq_below hslashed rfl rfl, ?_, ?_, by decide, by decide,
    by decide⟩, hlong, _, scan_eq_below hroot rfl rfl, ?_, ?_⟩
  · intro hnodup
    rw [below, List.map_map] at hnodup
    have hfirst := mem_places_slashedTree "\\x" rfl rfl
    have hsecond := mem_places_slashedTree "x" rfl rfl
    have hsame := congrArg Place.names
      (List.inj_on_of_nodup_map hnodup hfirst hsecond (by decide))
    exact absurd hsame (by decide)
  · exact List.mem_map.mpr ⟨_, mem_places_slashedTree "x\\y" rfl rfl, rfl⟩
  · exact (mem_below_root_iff_reports hlong).mpr ⟨_, _, reports_nested_longName⟩
  · have hstorable : IsStorable longName :=
      ⟨by rw [utf8ByteSize_longName]; decide, not_mem_longName (by decide)⟩
    have hstore : ∀ name ∈ List.replicate 17 longName, IsStorable name :=
      List.forall_mem_replicate.mpr (.inr hstorable)
    have hslash : ∀ name ∈ List.replicate 17 longName, '\\' ∉ name.toList :=
      List.forall_mem_replicate.mpr (.inr isPlainName_longName.2)
    obtain ⟨hpath, -⟩ := reports_nested_longName.probes hroot rfl hlong hstore rfl hslash
    have hsize := (fullSize_replicate_longName (ofPatterns "/" []) 17).1
    have hfits : (ofPatterns "/" []).fitsAt ((List.replicate 17 longName).map .text) = false := by
      rw [List.map_replicate, fitsAt, maxPathBytes]
      exact decide_eq_false (by omega)
    rw [Entry.path_ofPath, hfits, Bool.false_and] at hpath
    exact hpath

end Scanner

end ProjectLayout.Scan
