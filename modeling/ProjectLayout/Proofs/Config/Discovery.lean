import Mathlib.Data.List.Find
import ProjectLayout.Config.Source
import ProjectLayout.Proofs.Disk.Ancestors
import ProjectLayout.Proofs.Disk.Name
import ProjectLayout.Proofs.Json.Distinct
import ProjectLayout.Proofs.Json.Members
import ProjectLayout.Proofs.Json.RoundTrip

/-!
# Finding and loading a configuration

A configuration is looked for at and above a directory.  The nearest directory that holds a
candidate decides, and in it the name of the highest priority; loading reads the file that was
found, and falls back on a preset only when there is none.

* `IsCandidate`, `IsFirst`, `IsNearest` — what is found, without saying how it is looked for.
* `configFile?_eq_some_iff`, `configFile?_eq_none_iff` — the search finds just that.
* `IsPackageValue` — the configuration in a package file; `readConfigValue_eq_ok`,
  `readConfigValue_of_pretty`.
* `discovery` — how the configuration of a run is found and loaded.
-/

namespace ProjectLayout

open Disk (isAbsolute joinPath baseName? ancestors IsAbove IsEntryName)
open Json (Value Members)

variable {disk : Disk} {dir name path start : String}

/-! ## Reading files -/

theorem Disk.isFile_iff :
    disk.isFile path = true ↔ ∃ contents, disk.stat? path = some (.file contents) := by
  rw [Disk.isFile]
  cases disk.stat? path with
  | none => simp
  | some node => cases node <;> simp [Disk.Node.isFile]

theorem Disk.readText_eq_ok_iff {text : String} :
    disk.readText path = .ok text ↔
      ∃ contents, disk.stat? path = some (.file contents) ∧
        String.fromUTF8? contents = some text := by
  rw [Disk.readText, Disk.stat?]
  cases disk.resolve path with
  | error e => simp [Except.toOption]
  | ok found =>
    obtain ⟨names, node⟩ := found
    cases node with
    | link target => simp [Except.toOption]
    | dir entries rights => simp [Except.toOption]
    | file contents => cases h : String.fromUTF8? contents <;> simp [Except.toOption, h]

/-! ## Package files -/

/-- Whether the contents of a package file are an object with a value under the configuration's
key. -/
def IsPackageValue (contents : ByteArray) (value : Value) : Prop :=
  ∃ text members, String.fromUTF8? contents = some text ∧
    Value.parse text = .ok (.object members) ∧ (packageKey, value) ∈ members

theorem packageValue?_eq_some_iff {text : String} {value : Value} :
    packageValue? text = some value ↔
      ∃ members, Value.parse text = .ok (.object members) ∧ (packageKey, value) ∈ members := by
  rw [packageValue?]
  cases hparse : Value.parse text with
  | error e => simp
  | ok document =>
    cases document with
    | object members =>
      have hdistinct := Json.hasDistinctKeys_object.mp (Json.hasDistinctKeys_of_parse hparse)
      simp [Value.get?, Members.get?_eq_some_iff hdistinct.nodup]
    | _ => simp [Value.get?]

theorem isPackageValue_iff {contents : ByteArray} {value : Value} :
    IsPackageValue contents value ↔
      ∃ text, String.fromUTF8? contents = some text ∧ packageValue? text = some value := by
  simp only [packageValue?_eq_some_iff, IsPackageValue, exists_and_left]

theorem IsPackageValue.unique {contents : ByteArray} {value other : Value}
    (h : IsPackageValue contents value) (hother : IsPackageValue contents other) :
    other = value := by
  obtain ⟨text, htext, hvalue⟩ := isPackageValue_iff.mp h
  obtain ⟨text', htext', hother⟩ := isPackageValue_iff.mp hother
  obtain rfl := Option.some.inj (htext.symm.trans htext')
  exact Option.some.inj (hother.symm.trans hvalue)

theorem isPackageWithConfig_iff {contents : ByteArray}
    (h : disk.stat? path = some (.file contents)) :
    isPackageWithConfig disk path = true ↔ ∃ value, IsPackageValue contents value := by
  have hread (text : String) :
      disk.readText path = .ok text ↔ String.fromUTF8? contents = some text := by
    rw [Disk.readText_eq_ok_iff, h]
    simp
  simp only [isPackageValue_iff, ← hread]
  rw [isPackageWithConfig]
  cases disk.readText path with
  | error e => simp
  | ok text => simp [Option.isSome_iff_exists]

/-- In a package file that has one, the value under the key is what is read. -/
theorem readConfigValue_eq_ok {contents : ByteArray} {value : Value}
    (h : disk.stat? path = some (.file contents)) (hname : baseName? path = some packageFileName)
    (hvalue : IsPackageValue contents value) : readConfigValue disk path = .ok value := by
  obtain ⟨text, htext, hpackage⟩ := isPackageValue_iff.mp hvalue
  have hread : disk.readText path = .ok text := Disk.readText_eq_ok_iff.mpr ⟨contents, h, htext⟩
  rw [packageValue?] at hpackage
  cases hparse : Value.parse text with
  | error e => simp [hparse] at hpackage
  | ok document =>
    simp only [hparse] at hpackage
    simp [readConfigValue, hread, hparse, hname, hpackage]

/-- From any other file with the text of a value that value is read back. -/
theorem readConfigValue_of_pretty {value : Value}
    (h : disk.stat? path = some (.ofText (value.pretty ++ "\n")))
    (hvalue : Json.Readable Json.maxDepth value) (hname : baseName? path ≠ some packageFileName) :
    readConfigValue disk path = .ok value := by
  have htext : disk.readText path = .ok (value.pretty ++ "\n") :=
    Disk.readText_eq_ok_iff.mpr ⟨_, h, Disk.fromUTF8?_toByteArray _⟩
  have hparse : Value.parse (value.pretty ++ "\n") = .ok value := Json.parse_pretty hvalue
  simp only [readConfigValue, htext, hparse, if_neg hname]

/-! ## Candidates -/

/-- The names of configuration files in the order of their priority. -/
def candidateNames : List String := configFileNames ++ [packageFileName]

theorem isEntryName_of_mem_configFileNames :
    ∀ name ∈ configFileNames, IsEntryName name ∧ name ≠ packageFileName := by
  decide

/-- Whether a directory holds a configuration file of a name: a file of one of the dedicated
names, or a package file with a value under the configuration's key. -/
def IsCandidate (disk : Disk) (dir name : String) : Prop :=
  ∃ contents, disk.stat? (joinPath dir name) = some (.file contents) ∧
    (name ∈ configFileNames ∨
      name = packageFileName ∧ ∃ value, IsPackageValue contents value)

/-- Whether a directory holds a configuration file of a name and none of a name before it. -/
def IsFirst (disk : Disk) (dir name : String) : Prop :=
  IsCandidate disk dir name ∧ ∃ higher lower, candidateNames = higher ++ name :: lower ∧
    ∀ other ∈ higher, ¬IsCandidate disk dir other

/-- Whether a directory is `start` or lies above it. -/
def IsAtOrAbove (dir start : String) : Prop := dir = start ∨ IsAbove dir start

/-- Whether a name in a directory is that of the nearest configuration file at or above `start`. -/
structure IsNearest (disk : Disk) (start dir name : String) : Prop where
  atOrAbove : IsAtOrAbove dir start
  first : IsFirst disk dir name
  closest : ∀ near, IsAtOrAbove near start → IsAbove dir near → ∀ other,
    ¬IsCandidate disk near other

theorem mem_candidateNames (h : IsCandidate disk dir name) : name ∈ candidateNames := by
  obtain ⟨-, -, hname | ⟨hname, -⟩⟩ := h
  · exact List.mem_append_left _ hname
  · exact List.mem_append_right _ (List.mem_singleton.mpr hname)

/-- The test that the search makes of a name. -/
def holdsCandidate (disk : Disk) (dir name : String) : Bool :=
  disk.isFile (joinPath dir name) &&
    (name != packageFileName || isPackageWithConfig disk (joinPath dir name))

theorem holdsCandidate_iff (h : name ∈ candidateNames) :
    holdsCandidate disk dir name = true ↔ IsCandidate disk dir name := by
  have hdedicated : name ∈ configFileNames ↔ name ≠ packageFileName := by
    refine ⟨fun hname => (isEntryName_of_mem_configFileNames name hname).2, fun hne => ?_⟩
    exact (List.mem_append.mp h).resolve_right fun hpackage => hne (List.mem_singleton.mp hpackage)
  rw [holdsCandidate, Bool.and_eq_true, Disk.isFile_iff, ← exists_and_right, IsCandidate]
  refine exists_congr fun contents => and_congr_right fun hfile => ?_
  rw [Bool.or_eq_true, bne_iff_ne, isPackageWithConfig_iff hfile, hdedicated]
  by_cases hname : name = packageFileName <;> simp [hname]

theorem configFileIn?_eq_map_find? (disk : Disk) (dir : String) :
    configFileIn? disk dir =
      (candidateNames.find? (holdsCandidate disk dir)).map (joinPath dir) := by
  have hdedicated : configFileNames.find? (disk.isFile ∘ joinPath dir) =
      configFileNames.find? (holdsCandidate disk dir) := by
    refine List.find?_congr fun name hname => ?_
    have hne : (name != packageFileName) = true :=
      bne_iff_ne.mpr (isEntryName_of_mem_configFileNames name hname).2
    rw [holdsCandidate, hne, Bool.true_or, Bool.and_true]
    rfl
  rw [configFileIn?, List.find?_map, hdedicated, candidateNames, List.find?_append]
  cases configFileNames.find? (holdsCandidate disk dir) with
  | some name => rfl
  | none =>
    rw [Option.none_or, List.find?_singleton, holdsCandidate, bne_self_eq_false, Bool.false_or,
      apply_ite (Option.map (joinPath dir))]
    rfl

theorem configFileIn?_eq_some_iff :
    configFileIn? disk dir = some path ↔
      ∃ name, IsFirst disk dir name ∧ path = joinPath dir name := by
  rw [configFileIn?_eq_map_find?, Option.map_eq_some_iff]
  refine exists_congr fun name => and_congr ?_ eq_comm
  rw [List.find?_eq_some_iff_append, IsFirst]
  constructor
  · rintro ⟨hname, higher, lower, hnames, hhigher⟩
    have hmem : name ∈ candidateNames := by rw [hnames]; simp
    refine ⟨(holdsCandidate_iff hmem).mp hname, higher, lower, hnames, fun other hother h => ?_⟩
    have hmem' : other ∈ candidateNames := mem_candidateNames h
    simpa [(holdsCandidate_iff hmem').mpr h] using hhigher other hother
  · rintro ⟨hname, higher, lower, hnames, hhigher⟩
    refine ⟨(holdsCandidate_iff (mem_candidateNames hname)).mpr hname, higher, lower, hnames,
      fun other hother => ?_⟩
    have hmem : other ∈ candidateNames := hnames ▸ List.mem_append_left _ hother
    simpa [← holdsCandidate_iff hmem] using hhigher other hother

theorem configFileIn?_eq_none_iff :
    configFileIn? disk dir = none ↔ ∀ name, ¬IsCandidate disk dir name := by
  rw [configFileIn?_eq_map_find?, Option.map_eq_none_iff, List.find?_eq_none]
  constructor
  · intro h name hname
    have hmem := mem_candidateNames hname
    exact h name hmem ((holdsCandidate_iff hmem).mpr hname)
  · intro h name hmem hholds
    exact h name ((holdsCandidate_iff hmem).mp hholds)

/-! ## The search -/

section Search

variable (h : isAbsolute start = true)

include h

theorem configFile?_eq_some_iff :
    configFile? disk start = some path ↔
      ∃ dir name, IsNearest disk start dir name ∧ path = joinPath dir name := by
  rw [configFile?, List.findSome?_eq_some_iff]
  constructor
  · rintro ⟨front, dir, back, hsplit, hdir, hfront⟩
    obtain ⟨name, hfirst, rfl⟩ := configFileIn?_eq_some_iff.mp hdir
    have hmem : dir ∈ ancestors start := by rw [hsplit]; simp
    refine ⟨dir, name, ⟨(Disk.mem_ancestors_iff h).mp hmem, hfirst, ?_⟩, rfl⟩
    intro near hnear habove
    have hmem := (Disk.mem_ancestors_iff h).mpr hnear
    exact configFileIn?_eq_none_iff.mp (hfront near ((Disk.mem_front_iff h hsplit hmem).mpr habove))
  · rintro ⟨dir, name, hnearest, rfl⟩
    obtain ⟨front, back, hsplit⟩ :=
      List.append_of_mem ((Disk.mem_ancestors_iff h).mpr hnearest.atOrAbove)
    refine ⟨front, dir, back, hsplit,
      configFileIn?_eq_some_iff.mpr ⟨name, hnearest.first, rfl⟩, fun near hnear => ?_⟩
    have hmem : near ∈ ancestors start := by rw [hsplit]; exact List.mem_append_left _ hnear
    exact configFileIn?_eq_none_iff.mpr <| hnearest.closest near
      ((Disk.mem_ancestors_iff h).mp hmem) ((Disk.mem_front_iff h hsplit hmem).mp hnear)

theorem configFile?_eq_none_iff :
    configFile? disk start = none ↔
      ∀ dir, IsAtOrAbove dir start → ∀ name, ¬IsCandidate disk dir name := by
  simp only [configFile?, List.findSome?_eq_none_iff, configFileIn?_eq_none_iff, IsAtOrAbove,
    Disk.mem_ancestors_iff h]

/-- A package file that is found has a configuration, and that is what is read of it. -/
theorem readConfigValue_of_configFile? (hfound : configFile? disk start = some path)
    (hname : baseName? path = some packageFileName) :
    ∃ contents value, disk.stat? path = some (.file contents) ∧ IsPackageValue contents value ∧
      readConfigValue disk path = .ok value := by
  obtain ⟨dir, name, hnearest, rfl⟩ := (configFile?_eq_some_iff h).mp hfound
  obtain ⟨contents, hfile, hdedicated | ⟨-, value, hvalue⟩⟩ := hnearest.first.1
  · have hentry := isEntryName_of_mem_configFileNames name hdedicated
    rw [Disk.baseName?_joinPath dir hentry.1] at hname
    exact absurd (Option.some.inj hname) hentry.2
  · exact ⟨contents, value, hfile, hvalue, readConfigValue_eq_ok hfile hname hvalue⟩

end Search

/-! ## Loading -/

theorem ofFile_eq_bind (disk : Disk) (path : String) :
    LoadedConfig.ofFile disk path =
      (readConfigValue disk path).bind fun value =>
        (Config.ofValue value).map fun config => ⟨config, .file path⟩ := by
  rw [LoadedConfig.ofFile]
  cases readConfigValue disk path <;> rfl

/-- What is loaded from a file has that file as its source. -/
theorem source_of_ofFile {loaded : LoadedConfig} (h : LoadedConfig.ofFile disk path = .ok loaded) :
    loaded.source = .file path := by
  unfold LoadedConfig.ofFile at h
  split at h
  · cases h
  next value _ =>
  cases hconfig : Config.ofValue value with
  | error e =>
    rw [hconfig] at h
    cases h
  | ok config =>
    rw [hconfig] at h
    obtain rfl := Except.ok.inj h
    rfl

theorem load_of_configFile?_eq_some (h : configFile? disk start = some path) :
    LoadedConfig.load disk none start = LoadedConfig.ofFile disk path := by
  rw [LoadedConfig.load, h]
  rfl

theorem load_of_configFile?_eq_none (h : configFile? disk start = none) :
    LoadedConfig.load disk none start =
      (Config.ofValue Preset.react.value).map fun config => ⟨config, .defaultPreset⟩ := by
  rw [LoadedConfig.load, h]
  rfl

/-- The preset that stands in for a missing file is a configuration. -/
theorem isOk_react : (Config.ofValue Preset.react.value).isOk = true := by decide +kernel

theorem exists_default_iff (disk : Disk) (start : String) :
    (∃ loaded, LoadedConfig.load disk none start = .ok loaded ∧ loaded.source = .defaultPreset) ↔
      configFile? disk start = none := by
  cases hfound : configFile? disk start with
  | some path =>
    rw [load_of_configFile?_eq_some hfound]
    refine iff_of_false ?_ (by simp)
    rintro ⟨loaded, hloaded, hsource⟩
    rw [source_of_ofFile hloaded] at hsource
    cases hsource
  | none =>
    rw [load_of_configFile?_eq_none hfound]
    refine iff_of_true ?_ rfl
    cases hreact : Config.ofValue Preset.react.value with
    | error e =>
      have hok := isOk_react
      rw [hreact] at hok
      cases hok
    | ok config => exact ⟨_, rfl, rfl⟩

/-- From an explicit path nothing is looked for, and only what is read there matters. -/
theorem load_explicit_congr {other : Disk} (h : disk.readText path = other.readText path)
    (start elsewhere : String) :
    LoadedConfig.load disk (some path) start = LoadedConfig.load other (some path) elsewhere := by
  have hread : readConfigValue disk path = readConfigValue other path := by
    rw [readConfigValue, h, readConfigValue]
  calc LoadedConfig.load disk (some path) start
    _ = LoadedConfig.ofFile disk path := rfl
    _ = LoadedConfig.ofFile other path := by rw [ofFile_eq_bind, hread, ← ofFile_eq_bind]
    _ = LoadedConfig.load other (some path) elsewhere := rfl

/-- How the configuration of a run that starts in `start` is found and loaded. -/
structure Discovery (disk : Disk) (start : String) : Prop where
  found : ∀ path, configFile? disk start = some path ↔
    ∃ dir name, IsNearest disk start dir name ∧ path = joinPath dir name
  missing : configFile? disk start = none ↔
    ∀ dir, IsAtOrAbove dir start → ∀ name, ¬IsCandidate disk dir name
  default :
    (∃ loaded, LoadedConfig.load disk none start = .ok loaded ∧ loaded.source = .defaultPreset) ↔
      ∀ dir, IsAtOrAbove dir start → ∀ name, ¬IsCandidate disk dir name
  loaded : ∀ path, configFile? disk start = some path →
    LoadedConfig.load disk none start =
      (readConfigValue disk path).bind fun value =>
        (Config.ofValue value).map fun config => ⟨config, .file path⟩
  package : ∀ path, configFile? disk start = some path → baseName? path = some packageFileName →
    ∃ contents value, disk.stat? path = some (.file contents) ∧
      (∀ other, IsPackageValue contents other ↔ other = value) ∧
      readConfigValue disk path = .ok value
  explicit : ∀ (other : Disk) (path elsewhere : String), disk.readText path = other.readText path →
    LoadedConfig.load disk (some path) start = LoadedConfig.load other (some path) elsewhere

/-- Discovery picks the nearest configuration file, and loading agrees with it. -/
theorem discovery (disk : Disk) {start : String} (h : isAbsolute start = true) :
    Discovery disk start where
  found _ := configFile?_eq_some_iff h
  missing := configFile?_eq_none_iff h
  default := (exists_default_iff disk start).trans (configFile?_eq_none_iff h)
  loaded path hfound := (load_of_configFile?_eq_some hfound).trans (ofFile_eq_bind disk path)
  package path hfound hname := by
    obtain ⟨contents, value, hfile, hvalue, hread⟩ := readConfigValue_of_configFile? h hfound hname
    refine ⟨contents, value, hfile, fun other => ⟨hvalue.unique, ?_⟩, hread⟩
    rintro rfl
    exact hvalue
  explicit _ _ elsewhere hread := load_explicit_congr hread start elsewhere

/-- A project with a configuration in its package file. -/
def packageDisk : Disk :=
  .ofTree <| .dir [("app", .dir [("package.json",
    .ofText "\x7b\"validate-structure\": \x7b\x7d\x7d"), ("src", .dir [])])]

theorem discovery_of_package :
    isAbsolute "/app/src/." = true ∧
      (∃ dir name, IsNearest packageDisk "/app/src/." dir name ∧
        "/app/package.json" = joinPath dir name) ∧
      ∃ value, readConfigValue packageDisk "/app/package.json" = .ok value := by
  have habsolute : isAbsolute "/app/src/." = true := by decide
  have hfound : configFile? packageDisk "/app/src/." = some "/app/package.json" := by
    decide +kernel
  have h := discovery packageDisk habsolute
  obtain ⟨-, value, -, -, hread⟩ := h.package _ hfound (by decide)
  exact ⟨habsolute, (h.found _).mp hfound, value, hread⟩

end ProjectLayout
