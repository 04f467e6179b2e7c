import ProjectLayout.Proofs.Check.Folder
import ProjectLayout.Proofs.Scan.Extension

/-!
# Allowed extensions

The extension of a file is what follows the last dot of its name, while an allowed extension is any
text.  The two meet if the text has one dot, at its beginning.

* `extension_ofPath_of_name` — the extension of a file whose name ends in an allowed extension.
* `extension_ne_of_dot_before` — no file has an extension with a second dot.
* `allowed_extension_effective_iff` — when an allowed extension keeps a file from being reported.
* `allowed_style_module_reported` — an allowed extension with two dots that never does.
-/

namespace ProjectLayout

open Disk Scan

/-! ## Extensions of names -/

/-- The extension of a name begins at its last dot. -/
theorem extensionOf_append {front back : List Char} (hfront : ∃ c ∈ front, c ≠ '.')
    (hback : '.' ∉ back) : extensionOf (front ++ '.' :: back) = '.' :: back := by
  obtain ⟨c, hc, hdot⟩ := hfront
  have hother : ¬front.all (· == '.') = true := fun hdots =>
    hdot (by simpa using List.all_eq_true.mp hdots c hc)
  rw [extensionOf_of_isLastDot ⟨rfl, hback⟩, if_neg hother]

theorem extension_ofPath (path : String) (isDirectory : Bool) :
    (Entry.ofPath path isDirectory).extension =
      String.ofList (extensionOf (Entry.ofPath path isDirectory).name.toList) := by
  simp [Entry.ofPath]

/-- The extension of a file whose name ends in `front.back`, with something else than dots before
it. -/
theorem extension_ofPath_of_name {path stem front back : String} {isDirectory : Bool}
    (hname : (Entry.ofPath path isDirectory).name = stem ++ (front ++ "." ++ back))
    (hstem : ∃ c ∈ stem.toList, c ≠ '.') (hback : '.' ∉ back.toList) :
    (Entry.ofPath path isDirectory).extension = "." ++ back := by
  obtain ⟨c, hc, hdot⟩ := hstem
  have hfront : ∃ c ∈ stem.toList ++ front.toList, c ≠ '.' :=
    ⟨c, List.mem_append_left _ hc, hdot⟩
  have hsplit : (stem ++ (front ++ "." ++ back)).toList =
      (stem.toList ++ front.toList) ++ '.' :: back.toList := by
    simp
  rw [extension_ofPath, hname, hsplit, extensionOf_append hfront hback]
  apply String.toList_inj.mp
  simp

/-- No file has an extension with anything before its last dot. -/
theorem extension_ne_of_dot_before {front : String} (hfront : front ≠ "") (back path : String)
    (isDirectory : Bool) : (Entry.ofPath path isDirectory).extension ≠ front ++ "." ++ back := by
  intro heq
  have hlist := congrArg String.toList heq
  rw [extension_ofPath, String.toList_ofList] at hlist
  obtain ⟨first, rest, hcons⟩ := List.exists_cons_of_ne_nil (show front.toList ≠ [] by simpa)
  rcases extensionOf_eq_nil_or (Entry.ofPath path isDirectory).name.toList with
    hnil | ⟨_, tail, ⟨-, hdot⟩, htail⟩
  · rw [hnil] at hlist
    simp at hlist
  · rw [htail, String.toList_append, String.toList_append, hcons] at hlist
    refine hdot ?_
    rw [(List.cons.inj hlist).2]
    simp

/-! ## Rules -/

section Scanned

variable {scanner : Scanner} {disk : Disk} {entries : List Entry}

/-- What a scan lists is made from its path. -/
theorem ofPath_path_of_scan (hscan : scanner.scan disk = .ok entries) {e : Entry}
    (he : e ∈ entries) : Entry.ofPath e.path e.isDirectory = e := by
  rw [Scanner.scan] at hscan
  cases hcheck : scanner.checkRoot disk with
  | error problem =>
    rw [hcheck] at hscan
    cases hscan
  | ok tree =>
    rw [hcheck] at hscan
    obtain rfl := Except.ok.inj hscan
    obtain ⟨place, -, rfl⟩ := List.mem_map.mp he
    rfl

variable {rule : FolderRule} {allowed : List String} {file : Entry}

/-- A rule with an existing folder has nothing against the extension of a scanned file in it if and
only if that is allowed. -/
theorem not_forbidden_iff (hexists : scanner.hasDirectory disk rule.path = true)
    (hallowed : rule.allowedExtensions = some allowed) (hscan : scanner.scan disk = .ok entries)
    (hmem : file ∈ entries) (hfile : file.isDirectory = false)
    (hwithin : isWithin (normalizeRelative rule.path) file = true) (severity : Severity) :
    (∀ f ∈ folderFindings scanner disk entries severity rule, f.kind = .forbiddenFile →
        f.file ≠ some file.path) ↔ file.extension ∈ allowed := by
  constructor
  · intro hnone
    by_contra hext
    have hcovers := covers_of_isWithin hexists hmem hfile hwithin severity
    exact hnone _ (hcovers.forbidden allowed hallowed hext) rfl rfl
  · intro hext f hf hkind hpath
    rcases mem_folderFindings.mp hf with ⟨-, rfl⟩ | ⟨-, other, hother, hdir, -, hf⟩
    · cases hkind
    rcases hf with ⟨allowed', hallowed', hf⟩ | ⟨convention, -, hf⟩
    · obtain ⟨hforbidden, rfl⟩ := forbiddenFile?_eq_some_iff.mp hf
      -- another entry with the same path is the same file
      have hsame : other = file := by
        rw [← ofPath_path_of_scan hscan hother, ← ofPath_path_of_scan hscan hmem, hdir, hfile,
          show other.path = file.path from Option.some.inj hpath]
      rw [hallowed] at hallowed'
      rw [hsame, ← Option.some.inj hallowed'] at hforbidden
      exact hforbidden hext
    · rw [(folderNaming?_eq_some_iff.mp hf).2] at hkind
      cases hkind

/-- An allowed extension keeps a file whose name ends in it from being reported if and only if the
part from its last dot on is allowed as well.  With one dot, at its beginning, that is the
extension itself; with something before the last dot it is the extension of no file at all. -/
theorem allowed_extension_effective_iff {stem front back : String}
    (hexists : scanner.hasDirectory disk rule.path = true)
    (hallowed : rule.allowedExtensions = some allowed) (hlisted : front ++ "." ++ back ∈ allowed)
    (hback : '.' ∉ back.toList) (hscan : scanner.scan disk = .ok entries) (hmem : file ∈ entries)
    (hfile : file.isDirectory = false)
    (hwithin : isWithin (normalizeRelative rule.path) file = true)
    (hname : file.name = stem ++ (front ++ "." ++ back)) (hstem : ∃ c ∈ stem.toList, c ≠ '.')
    (severity : Severity) :
    ((∀ f ∈ folderFindings scanner disk entries severity rule, f.kind = .forbiddenFile →
        f.file ≠ some file.path) ↔ "." ++ back ∈ allowed) ∧
      (front = "" → ∀ f ∈ folderFindings scanner disk entries severity rule,
        f.kind = .forbiddenFile → f.file ≠ some file.path) ∧
      (front ≠ "" → ∀ path isDirectory,
        (Entry.ofPath path isDirectory).extension ≠ front ++ "." ++ back) := by
  have hext : file.extension = "." ++ back := by
    have hmade := ofPath_path_of_scan hscan hmem
    rw [← hmade] at hname ⊢
    exact extension_ofPath_of_name hname hstem hback
  have hiff := not_forbidden_iff hexists hallowed hscan hmem hfile hwithin severity
  rw [hext] at hiff
  refine ⟨hiff, fun hfront => hiff.mpr ?_, fun hfront => extension_ne_of_dot_before hfront back⟩
  rw [hfront] at hlisted
  simpa using hlisted

end Scanned

/-- A project with one style sheet in a folder. -/
def stylesTree : Node :=
  .dir [("src", .dir [("components", .dir [("Button.module.css", .emptyFile)])])]

/-- A rule that allows some extensions in that folder. -/
def stylesRule (allowed : List String) : FolderRule :=
  ⟨"components", "src/components", none, some allowed⟩

theorem exists_scan_stylesTree :
    ∃ entries, (Scanner.ofPatterns "/" []).scan (.ofTree stylesTree) = .ok entries ∧
      Entry.ofPath "src/components/Button.module.css" false ∈ entries := by
  have hreport : (Scanner.ofPatterns "/" []).Reports stylesTree
      ["src", "components", "Button.module.css"] .emptyFile
      (Entry.ofPath "src/components/Button.module.css" false) :=
    ⟨by simp, rfl, (Scanner.reaches_root_iff (by decide)).mpr ⟨by decide, by decide⟩, rfl⟩
  exact ⟨_, Scanner.scan_eq_below (stat?_root rfl) rfl rfl,
    (Scanner.mem_below_root_iff_reports (by decide)).mpr ⟨_, _, hreport⟩⟩

/-- With `.css` allowed too, a style module is not reported. -/
theorem allowed_style_sheet_effective :
    ∃ entries, (Scanner.ofPatterns "/" []).scan (.ofTree stylesTree) = .ok entries ∧
      ∀ f ∈ folderFindings (Scanner.ofPatterns "/" []) (.ofTree stylesTree) entries .error
          (stylesRule [".module.css", ".css"]),
        f.kind = .forbiddenFile → f.file ≠ some "src/components/Button.module.css" := by
  obtain ⟨entries, hscan, hmem⟩ := exists_scan_stylesTree
  have hexists : (Scanner.ofPatterns "/" []).hasDirectory (.ofTree stylesTree)
      (stylesRule [".module.css", ".css"]).path = true := by decide
  have hlisted : ".module" ++ "." ++ "css" ∈ [".module.css", ".css"] := by decide
  have hname : (Entry.ofPath "src/components/Button.module.css" false).name =
      "Button" ++ (".module" ++ "." ++ "css") := by decide
  obtain ⟨hiff, -⟩ := allowed_extension_effective_iff hexists rfl hlisted (by decide) hscan hmem rfl
    (by decide) hname ⟨'B', by decide, by decide⟩ .error
  exact ⟨entries, hscan, hiff.mpr (by decide)⟩

/-- A style module is reported for its extension though it ends in the only one allowed. -/
theorem allowed_style_module_reported :
    ∃ entries, (Scanner.ofPatterns "/" []).scan (.ofTree stylesTree) = .ok entries ∧
      Entry.ofPath "src/components/Button.module.css" false ∈ entries ∧
      (Entry.ofPath "src/components/Button.module.css" false).name = "Button" ++ ".module.css" ∧
      (Scanner.ofPatterns "/" []).hasDirectory (.ofTree stylesTree) "src/components" = true ∧
      .forbiddenFile "src/components/Button.module.css" ".css" "components" [".module.css"] ∈
        folderFindings (Scanner.ofPatterns "/" []) (.ofTree stylesTree) entries .error
          (stylesRule [".module.css"]) := by
  obtain ⟨entries, hscan, hmem⟩ := exists_scan_stylesTree
  have hexists : (Scanner.ofPatterns "/" []).hasDirectory (.ofTree stylesTree)
      (stylesRule [".module.css"]).path = true := by decide
  have hcovers := covers_of_isWithin hexists hmem rfl (by decide) .error
  exact ⟨entries, hscan, hmem, by decide, hexists,
    hcovers.forbidden [".module.css"] rfl (by decide)⟩

end ProjectLayout
