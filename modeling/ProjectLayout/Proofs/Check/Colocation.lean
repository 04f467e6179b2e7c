import ProjectLayout.Proofs.Check.Findings
import ProjectLayout.Proofs.Scan.Component

/-!
# Where components are reported

The co-location check looks for components in directories that it is told by name, while a scan
comes to them from the root.

* `mem_scan_iff_of_colocationFindings` — where it can go, a scan lists the directory of a finding
  exactly if nothing above it is ignored.
-/

namespace ProjectLayout

open Disk
open Scan (Scanner Entry IsPlainPath)

/-- The beginning of mapped names is that of the names, mapped. -/
theorem exists_prefix_of_prefix_map {α β : Type} {f : α → β} {names : List α} {way : List β}
    (h : way <+: names.map f) : ∃ front, front <+: names ∧ way = front.map f := by
  rw [List.prefix_iff_eq_take.mp h, ← List.map_take]
  exact ⟨_, List.take_prefix _ _, rfl⟩

/-- The check reports a directory even where a scan does not come: the directory of a finding is
not ignored itself, and where the directories above it can be listed, a scan lists it exactly if
none of them is ignored. -/
theorem mem_scan_iff_of_colocationFindings (scanner : Scanner) (disk : Disk) (config : Config)
    {tree : Node} (hroot : disk.stat? scanner.root = some tree) (hdir : tree.isDir = true)
    (hlist : tree.rights.list = true) (hw : tree.WellFormed) (hb : tree.WithoutBackslash)
    (hl : tree.WithoutLinks)
    (hplain : ∀ rules, config.rules.colocation = some rules →
      ∀ dir ∈ rules.componentDirs, IsPlainPath dir) :
    ∃ entries, scanner.scan disk = .ok entries ∧
      ∀ f ∈ colocationFindings scanner disk config, ∃ (names : List String) (sub : Node),
        names ≠ [] ∧ f.directory = some (pathOf names) ∧
          tree.at? (names.map .text) = some sub ∧ sub.isDir = true ∧
          scanner.isIgnored (pathOf names) = false ∧
          ((∃ e ∈ entries, e.path = pathOf names ∧ e.isDirectory = true) →
            ∀ above, above <+: names → above ≠ [] → above ≠ names →
              scanner.isIgnored (pathOf above) = false) ∧
          ((∀ above, above <+: names → above ≠ names →
              tree.isListable (above.map .text) = true) →
            (∀ above, above <+: names → above ≠ [] → above ≠ names →
              scanner.isIgnored (pathOf above) = false) →
            ∃ e ∈ entries, e.path = pathOf names ∧ e.isDirectory = true) := by
  refine ⟨_, Scanner.scan_eq_below hroot hdir hlist, fun f hf => ?_⟩
  obtain ⟨rules, hrules, -, dir, hcomponent, hf⟩ := mem_colocationFindings.mp hf
  obtain ⟨names, hne, hnames, hpath, hkept⟩ :=
    Scanner.plain_of_mem_componentDirectories hroot hw hb hl (hplain rules hrules) hcomponent
  rw [hpath] at hkept hf
  -- a component has a main file, so its listing was not cut off
  obtain ⟨e, he⟩ := exists_of_hasMainFile (mem_componentFindings.mp hf).1
  obtain ⟨sub, rights, hat, -, hfits⟩ := Scanner.at?_of_mem_listOneLevel hroot hl hne hnames he
  refine ⟨names, _, hne, directory_of_mem_componentFindings hf, hat, rfl, hkept, ?_, ?_⟩
  · rintro ⟨e, he, hep, -⟩ above habove hane -
    obtain ⟨others, found, hone, hfound, hkeeps, -, hentry⟩ :=
      (Scanner.mem_below_root hw hb).mp he
    rw [hentry, Entry.path_ofPath] at hep
    have hsame : others.map Name.lossy = names :=
      pathOf_injective (by simpa using hone) hne
        (Name.isEntryName_of_mem_map (hw.isEntry hfound)) (hw.isEntryName hat) hep
    obtain ⟨way, hway, rfl⟩ := exists_prefix_of_prefix_map (hsame ▸ habove)
    exact hkeeps way hway (by simpa using hane)
  · intro hlistable habove
    refine ⟨Entry.ofPath (pathOf names) true, ?_, rfl, rfl⟩
    refine (Scanner.mem_below_root hw hb).mpr
      ⟨names.map .text, _, by simpa using hne, hat, ?_, ?_, by rw [Name.map_lossy_map_text]; rfl⟩
    · intro way hway hwne
      obtain ⟨texts, htexts, rfl⟩ := exists_prefix_of_prefix_map hway
      rw [Name.map_lossy_map_text]
      by_cases heq : texts = names
      · rwa [heq]
      · exact habove texts htexts (by simpa using hwne) heq
    · intro way hway hproper
      obtain ⟨texts, htexts, rfl⟩ := exists_prefix_of_prefix_map hway
      exact ⟨scanner.fitsAt_of_prefix hway hfits,
        hlistable texts htexts fun heq => hproper (heq ▸ rfl)⟩

/-- A component without a test in `src/components`. -/
def untestedButton : Disk where
  root :=
    .dir [("src",
      .dir [("components", .dir [("Button", .dir [("Button.tsx", .emptyFile)])])])]
  workingDir := []

/-- The configuration that asks each component in `src/components` for a file. -/
def requiring (pattern : String) (ignore : List String) : Config where
  preset := none
  rules.colocation := some ⟨true, ["src/components"], [⟨pattern, true, none⟩], none⟩
  rules.fileNaming := none
  rules.folders := none
  ignore := ignore
  severity := .error

theorem scan_lists_reported_button :
    ∃ entries, (Scanner.ofPatterns "/" []).scan untestedButton = .ok entries ∧
      ∃ f ∈ colocationFindings (.ofPatterns "/" []) untestedButton (requiring "*.test.tsx" []),
        ∃ e ∈ entries, f.directory = some e.path ∧ e.isDirectory = true := by
  obtain ⟨entries, hscan, hfindings⟩ :=
    mem_scan_iff_of_colocationFindings (.ofPatterns "/" []) untestedButton
      (requiring "*.test.tsx" []) (stat?_root rfl) rfl rfl (by decide) (by decide) (by decide)
      (fun rules hrules => by
        rw [← Option.some.inj hrules]
        decide)
  have hf : Finding.missingFile .error "src/components/Button" "Button.test.tsx" "Button.test.tsx" ∈
      colocationFindings (.ofPatterns "/" []) untestedButton (requiring "*.test.tsx" []) := by
    decide +kernel
  obtain ⟨names, sub, hne, hdirectory, hat, -, -, -, hlisted⟩ := hfindings _ hf
  have hnames : ["src", "components", "Button"] = names := by
    have hw : untestedButton.root.WellFormed := by decide
    exact pathOf_injective (by simp) hne (by decide) (hw.isEntryName hat)
      (Option.some.inj hdirectory)
  subst hnames
  have hlistable : ∀ k < 3, untestedButton.root.isListable
      ((["src", "components", "Button"].take k).map .text) = true := by decide
  obtain ⟨e, he, hpath, hdir⟩ := hlisted
    (fun above habove hproper => by
      rw [List.prefix_iff_eq_take.mp habove]
      exact hlistable _ (Nat.lt_of_le_of_ne habove.length_le fun h =>
        hproper (habove.eq_of_length h)))
    fun _ _ _ _ => rfl
  exact ⟨entries, hscan, _, hf, e, he, hpath ▸ hdirectory, hdir⟩

/-- What is below an ignored directory is not scanned, but its components are reported. -/
theorem colocation_reports_below_ignored :
    (Scanner.ofPatterns "/" ["src"]).scan untestedButton = .ok [] ∧
      colocationFindings (.ofPatterns "/" ["src"]) untestedButton (requiring "*.test.tsx" ["src"]) =
        [.missingFile .error "src/components/Button" "Button.test.tsx" "Button.test.tsx"] :=
  ⟨by with_unfolding_all rfl, by decide +kernel⟩

end ProjectLayout
