import ProjectLayout.Scan.Scanner
import ProjectLayout.Proofs.Disk.Tree

/-!
# Paths of a scan

A scan names what it finds by its path from the root, and asks for it by the full path, which is
the root with the names behind it.

* `normalizeRelative_eq_withSlashes` — plain paths only get `/` for each backslash.
* `reportedPath_eq_pathOf` — the path of plain names is the names with `/` between them.
* `Scanner.fullSize_append_le` — every name makes a full path longer.
* `Scanner.fitsAt_map_text` — whether the full path of what is under texts can be asked for.
-/

namespace ProjectLayout.Scan

open Disk Text

/-! ## Relative paths -/

/-- A path with `/` for each backslash. -/
def withSlashes (path : String) : String :=
  String.ofList (path.toList.map fun c => if c = '\\' then '/' else c)

/-- Whether all segments of a path are names, backslashes being separators too. -/
def IsPlainPath (path : String) : Prop :=
  ∀ segment ∈ pathSegments (withSlashes path), isName segment = true

instance (path : String) : Decidable (IsPlainPath path) :=
  inferInstanceAs (Decidable (∀ _ ∈ _, _))

theorem map_slashes_eq_self {s : List Char} (h : '\\' ∉ s) :
    (s.map fun c => if c = '\\' then '/' else c) = s := by
  conv => rhs; rw [← List.map_id s]
  refine List.map_congr_left fun c hc => if_neg ?_
  rintro rfl
  exact h hc

theorem withSlashes_eq_self {path : String} (h : '\\' ∉ path.toList) : withSlashes path = path := by
  rw [withSlashes, map_slashes_eq_self h, String.ofList_toList]

theorem IsPlainPath.not_isIdle {path : String} (h : IsPlainPath path) :
    ∀ segment ∈ pathSegments (withSlashes path), isIdle segment = false :=
  fun segment hs => isIdle_eq_false (h segment hs)

theorem nil_not_mem_splitOn {path : String}
    (h : ∀ segment ∈ pathSegments path, isIdle segment = false) :
    [] ∉ splitOn '/' path.toList := by
  intro hm
  exact absurd (h "" (List.mem_map.mpr ⟨[], hm, rfl⟩)) (by decide)

theorem isAbsolute_of_not_isIdle {path : String}
    (h : ∀ segment ∈ pathSegments path, isIdle segment = false) : isAbsolute path = false := by
  rw [isAbsolute, beq_eq_false_iff_ne]
  exact (ends_ne_of_nil_not_mem (nil_not_mem_splitOn h)).1

theorem IsPlainPath.isAbsolute_withSlashes {path : String} (h : IsPlainPath path) :
    isAbsolute (withSlashes path) = false :=
  isAbsolute_of_not_isIdle h.not_isIdle

/-- A path without segments that stay in place only gets `/` for each backslash. -/
theorem normalizeRelative_eq_withSlashes {path : String}
    (h : ∀ segment ∈ pathSegments (withSlashes path), isIdle segment = false) :
    normalizeRelative path = withSlashes path := by
  obtain ⟨hfirst, hlast⟩ := ends_ne_of_nil_not_mem (nil_not_mem_splitOn h)
  have hdot : (withSlashes path).toList ≠ ['.'] := by
    intro hd
    rw [pathSegments, hd] at h
    exact absurd (h "." (by decide)) (by decide)
  rw [withSlashes, String.toList_ofList] at hfirst hlast hdot
  simp only [normalizeRelative, withSlashes, trimBoth_eq_self hfirst hlast, if_neg hdot]

theorem backslash_not_mem_normalizeRelative (path : String) :
    '\\' ∉ (normalizeRelative path).toList := by
  simp only [normalizeRelative]
  split
  · simp
  · rw [String.toList_ofList]
    intro hm
    obtain ⟨c, -, hc⟩ := List.mem_map.mp (mem_of_mem_trimBoth hm)
    split at hc
    · exact absurd hc (by decide)
    · next hne => exact hne hc

theorem getLast?_normalizeRelative_ne (path : String) :
    (normalizeRelative path).toList.getLast? ≠ some '/' := by
  simp only [normalizeRelative]
  split
  · simp
  · rw [String.toList_ofList]
    exact getLast?_trimBoth_ne _ _

/-- A path without backslashes and without segments that stay in place is kept at the beginning of
a longer one. -/
theorem isPrefix_normalizeRelative {dir path : String} (hslash : '\\' ∉ dir.toList)
    (hidle : ∀ segment ∈ pathSegments dir, isIdle segment = false)
    (h : dir.toList <+: path.toList) : dir.toList <+: (normalizeRelative path).toList := by
  obtain ⟨hfirst, hlast⟩ := ends_ne_of_nil_not_mem (nil_not_mem_splitOn hidle)
  have hne (text : List Char) (hidleText : isIdle (String.ofList text) = true)
      (hsplit : splitOn '/' text = [text]) : dir.toList ≠ text := by
    intro heq
    have hseg := hidle (String.ofList text) (by simp [pathSegments, heq, hsplit])
    rw [hidleText] at hseg
    cases hseg
  obtain ⟨rest, hrest⟩ := h
  have hkept := isPrefix_trimBoth_append (hne [] (by decide) (by decide)) hfirst hlast
    (rest.map fun c => if c = '\\' then '/' else c)
  simp only [normalizeRelative, ← hrest, List.map_append, map_slashes_eq_self hslash]
  split
  · next hdot =>
    rw [hdot] at hkept
    rcases List.prefix_cons_iff.mp hkept with hnil | ⟨more, hmore, hnone⟩
    · exact absurd hnil (hne [] (by decide) (by decide))
    · rw [List.prefix_nil.mp hnone] at hmore
      exact absurd hmore (hne ['.'] (by decide) (by decide))
  · rwa [String.toList_ofList]

theorem withSlashes_pathOf {names : List String} (h : ∀ name ∈ names, IsPlainName name) :
    withSlashes (pathOf names) = pathOf names :=
  withSlashes_eq_self (not_mem_pathOf (by decide) fun name hname => (h name hname).2)

theorem isPlainPath_pathOf {names : List String} (hne : names ≠ [])
    (h : ∀ name ∈ names, IsPlainName name) : IsPlainPath (pathOf names) := by
  intro segment hs
  rw [withSlashes_pathOf h, pathSegments_pathOf hne fun name hname => (h name hname).1] at hs
  exact (h segment hs).1.1

theorem normalizeRelative_pathOf {names : List String} (h : ∀ name ∈ names, IsPlainName name) :
    normalizeRelative (pathOf names) = pathOf names := by
  by_cases hne : names = []
  · subst hne
    rfl
  · rw [normalizeRelative_eq_withSlashes (isPlainPath_pathOf hne h).not_isIdle,
      withSlashes_pathOf h]

theorem reportedPath_eq_pathOf {names : List Name} (h : ∀ name ∈ names, name.IsPlain) :
    reportedPath names = pathOf (names.map Name.lossy) :=
  normalizeRelative_pathOf (Name.isPlainName_of_mem_map h)

/-! ## Full paths -/

/-- A joined path has the size of its parts, the first of them with a `/` behind it. -/
theorem utf8ByteSize_joinPath (base : String) {path : String} (h : isAbsolute path = false) :
    (joinPath base path).utf8ByteSize =
      (joinPath base "").utf8ByteSize + path.utf8ByteSize := by
  unfold joinPath
  rw [h, show isAbsolute "" = false by decide, Bool.false_or]
  split
  · simp
  · split <;> simp only [String.utf8ByteSize_append, String.utf8ByteSize_empty] <;> omega

theorem le_utf8ByteSize_joinPath_empty (base : String) :
    base.utf8ByteSize ≤ (joinPath base "").utf8ByteSize := by
  unfold joinPath
  rw [show isAbsolute "" = false by decide, Bool.false_or]
  split
  · next hempty => simp [String.isEmpty_iff.mp hempty]
  · split <;> simp only [String.utf8ByteSize_append] <;> omega

namespace Scanner

variable (scanner : Scanner)

/-- More names make a full path longer by their sizes at least. -/
theorem fullSize_append_le (above names : List Name) :
    scanner.fullSize above + Name.totalSize names ≤ scanner.fullSize (above ++ names) := by
  have hslash := le_utf8ByteSize_joinPath_empty scanner.root
  cases above with
  | nil =>
    cases names with
    | nil => simp [fullSize]
    | cons name names =>
      simp only [fullSize, List.nil_append]
      omega
  | cons first above =>
    simp only [fullSize, List.cons_append, Name.totalSize_cons, Name.totalSize_append,
      List.length_cons, List.length_append]
    omega

/-- If a full path can be asked for, so can the full paths above it. -/
theorem fitsAt_of_prefix {way names : List Name} (hway : way <+: names)
    (hfits : scanner.fitsAt names = true) : scanner.fitsAt way = true := by
  obtain ⟨rest, rfl⟩ := hway
  have hle := scanner.fullSize_append_le way rest
  simp only [fitsAt, decide_eq_true_eq] at hfits ⊢
  omega

/-- Full paths depend on the root alone. -/
theorem fitsAt_congr {scanner other : Scanner} (h : scanner.root = other.root) (names : List Name) :
    scanner.fitsAt names = other.fitsAt names := by
  unfold fitsAt fullSize
  rw [h]

/-- The full path of what is under some texts is the root joined with their path. -/
theorem fitsAt_map_text {names : List String} (hne : names ≠ [])
    (h : ∀ name ∈ names, IsEntryName name) :
    scanner.fitsAt (names.map .text) = fitsLimit (joinPath scanner.root (pathOf names)) := by
  obtain ⟨name, more, rfl⟩ := List.exists_cons_of_ne_nil hne
  rw [fitsAt, fitsLimit, utf8ByteSize_joinPath _ (isAbsolute_pathOf h), utf8ByteSize_pathOf]
  simp only [fullSize, List.map_cons, List.length_cons, List.length_map, Nat.add_assoc]

end Scanner

end ProjectLayout.Scan
