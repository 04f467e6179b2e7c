import ProjectLayout.Config.Problem
import ProjectLayout.Config.Starter
import ProjectLayout.Proofs.Config.Discovery
import ProjectLayout.Proofs.Disk.Writing
import ProjectLayout.Proofs.Json.RoundTrip
import ProjectLayout.Proofs.Outcome

/-!
# What a starter configuration is good for

A starter configuration is read back as the preset that it names.  In its directory it is the one
that is found, unless there is a file of the one name that comes before its own.

* `ofValue_starterValue` — the preset as it is, without problems.
* `readConfigValue_starter` — reading the file that was written.
* `configFile?_of_starter` — which file is found in its directory.
* `CanStart`, `writeStarter_of_canStart`, `writeStarter_of_not_canStart` — an attempt to write it
  (`write_init_config`), with a file left or without.
* `exists_writeStarter_iff` — when it is written.
* `IsStarted`, `isStarted_of_writeStarter` — what there is afterwards.
-/

namespace ProjectLayout

open Disk (joinPath)
open Json (Value Readable maxDepth)

variable {disk after : Disk} {dir preset path : String}

/-! ## The value -/

/-- Whether a name is that of a preset there is. -/
def IsPresetName (preset : String) : Prop := ∃ p ∈ Preset.all, p.name = preset

theorem isSome_find?_iff : (Preset.find? preset).isSome = true ↔ IsPresetName preset := by
  simp [Preset.find?, IsPresetName]

/-- Each preset can be read as it is and has no problems, and its starter configuration is the same
configuration. -/
theorem toOption_ofValue_starterValue : ∀ p ∈ Preset.all,
    (Config.ofValue (starterValue p.name)).toOption = (Decode.readConfig p.value).toOption ∧
      (Decode.readConfig p.value).toOption.any (·.problems = []) = true := by
  decide +kernel

theorem ofValue_starterValue (h : IsPresetName preset) :
    ∃ p ∈ Preset.all, p.name = preset ∧ ∃ config, Decode.readConfig p.value = .ok config ∧
      Config.ofValue (starterValue preset) = .ok config ∧ config.problems = [] := by
  obtain ⟨p, hmem, rfl⟩ := h
  obtain ⟨hsame, hproblems⟩ := toOption_ofValue_starterValue p hmem
  obtain ⟨config, hconfig, hnone⟩ := (Option.any_eq_true _ _).mp hproblems
  rw [hconfig] at hsame
  exact ⟨p, hmem, rfl, config, eq_ok_of_toOption hconfig, eq_ok_of_toOption hsame,
    of_decide_eq_true hnone⟩

/-! ## The file -/

theorem readable_starterValue (preset : String) : Readable maxDepth (starterValue preset) := by
  have hkeys : ["preset", "rules"].Nodup := by decide
  refine .object hkeys fun member hmember => ?_
  rcases List.mem_pair.mp hmember with rfl | rfl
  · exact .string preset
  · refine .object (by decide) fun member hmember => ?_
    obtain rfl := List.mem_singleton.mp hmember
    refine .object (by decide) fun member hmember => ?_
    obtain rfl := List.mem_singleton.mp hmember
    exact .bool true

theorem starterFileName_mem : starterFileName ∈ configFileNames := by decide

/-- The value in a starter configuration is read back. -/
theorem readConfigValue_starter
    (h : disk.stat? (joinPath dir starterFileName) = some (.ofText (starterText preset))) :
    readConfigValue disk (joinPath dir starterFileName) = .ok (starterValue preset) := by
  obtain ⟨hentry, hpackage⟩ := isEntryName_of_mem_configFileNames _ starterFileName_mem
  refine readConfigValue_of_pretty h (readable_starterValue preset) fun heq => hpackage ?_
  rw [Disk.baseName?_joinPath dir hentry] at heq
  exact Option.some.inj heq

/-! ## Finding it -/

/-- The name of a configuration file that is looked for first. -/
def firstFileName : String := ".validate-structurerc"

theorem configFileNames_eq :
    configFileNames = [firstFileName, starterFileName, "validate-structure.config.json"] := rfl

theorem joinPath_firstFileName_ne (dir : String) :
    joinPath dir firstFileName ≠ joinPath dir starterFileName := by
  intro heq
  have hname := congrArg Disk.baseName? heq
  rw [Disk.baseName?_joinPath dir (by decide), Disk.baseName?_joinPath dir (by decide)] at hname
  exact absurd hname (by decide)

/-- What is found in a directory itself is what is found at or above it. -/
theorem configFile?_of_configFileIn? (h : configFileIn? disk dir = some path) :
    configFile? disk dir = some path := by
  have hancestors : ∃ above, Disk.ancestors dir = dir :: above := by
    unfold Disk.ancestors
    cases dir.length <;> exact ⟨_, rfl⟩
  obtain ⟨above, habove⟩ := hancestors
  rw [configFile?, habove, List.findSome?_cons, h]

/-- Where there is a starter configuration it is found, if there is no file of the name before. -/
theorem configFile?_of_starter (h : disk.isFile (joinPath dir starterFileName) = true) :
    configFile? disk dir = some (joinPath dir
      (if disk.isFile (joinPath dir firstFileName) then firstFileName else starterFileName)) := by
  apply configFile?_of_configFileIn?
  rw [configFileIn?, configFileNames_eq, List.map_cons, List.map_cons, List.find?_cons,
    List.find?_cons, h]
  cases disk.isFile (joinPath dir firstFileName) <;> rfl

/-! ## Writing it -/

/-- Whether a starter configuration can be begun: for a preset there is, and under an unused name in
a directory that may be changed. -/
structure CanStart (disk : Disk) (dir preset : String) (above : List Disk.Name) (name : String) :
    Prop where
  known : IsPresetName preset
  spot : disk.locate (joinPath dir starterFileName) .writing = .ok (.vacant above name)
  change : disk.mayChange above = true

variable {above : List Disk.Name} {name : String}

/-- One that can be begun makes a file, and succeeds if there is room for all of it. -/
theorem writeStarter_of_canStart (h : CanStart disk dir preset above name) :
    ∃ after, writeStarter disk dir preset =
        (if disk.HasRoom (starterText preset) then .ok (joinPath dir starterFileName)
          else .error (.unwritable .noSpace), after) ∧
      after.workingDir = disk.workingDir ∧
      disk.root.AddsFile after.root (above ++ [.text name]) (disk.fitting (starterText preset)) ∧
      after.stat? (joinPath dir starterFileName) =
        some (.file (disk.fitting (starterText preset))) := by
  obtain ⟨after, hwrite, hafter⟩ := Disk.writeText_of_vacant (starterText preset) h.spot h.change
  have hnone : disk.pathExists (joinPath dir starterFileName) = false := by
    rw [Disk.pathExists, Disk.stat?, Disk.resolve, Disk.locate_access_of_writing h.spot]
    rfl
  have hknown : (Preset.find? preset).isNone = false := by
    have hsome := isSome_find?_iff.mpr h.known
    simpa [Option.isSome_iff_ne_none] using hsome
  refine ⟨after, ?_, hafter⟩
  rw [writeStarter, hnone, hknown, hwrite]
  by_cases hroom : disk.HasRoom (starterText preset)
  · rw [if_pos hroom, if_pos hroom]
    rfl
  · rw [if_neg hroom, if_neg hroom]
    rfl

/-- One that cannot be begun fails and changes nothing. -/
theorem writeStarter_of_not_canStart (h : ∀ above name, ¬CanStart disk dir preset above name) :
    ∃ e, writeStarter disk dir preset = (.error e, disk) := by
  unfold writeStarter
  dsimp only
  split
  · exact ⟨_, rfl⟩
  next hnone =>
  split
  · exact ⟨_, rfl⟩
  next hknown =>
  have hpreset : IsPresetName preset := isSome_find?_iff.mp (by
    simpa [Option.isSome_iff_ne_none] using hknown)
  cases hspot : disk.locate (joinPath dir starterFileName) .writing with
  | error e => exact ⟨.unwritable e, by rw [Disk.writeText, hspot]⟩
  | ok spot =>
    obtain ⟨above, name, rfl⟩ := Disk.exists_vacant_of_not_pathExists (by simpa using hnone) hspot
    have hchange : disk.mayChange above = false :=
      Bool.eq_false_iff.mpr fun hmay => h above name ⟨hpreset, hspot, hmay⟩
    refine ⟨.unwritable .permissionDenied, ?_⟩
    rw [Disk.writeText, hspot]
    dsimp only
    rw [hchange]
    rfl

/-- A starter configuration is written just where it can be begun and has room. -/
theorem exists_writeStarter_iff :
    (∃ path, (writeStarter disk dir preset).1 = .ok path) ↔
      (∃ above name, CanStart disk dir preset above name) ∧
        disk.HasRoom (starterText preset) := by
  constructor
  · rintro ⟨path, hpath⟩
    by_cases hcan : ∃ above name, CanStart disk dir preset above name
    · obtain ⟨above, name, hcan⟩ := hcan
      obtain ⟨after, hwrite, -⟩ := writeStarter_of_canStart hcan
      refine ⟨⟨above, name, hcan⟩, Decidable.byContradiction fun hroom => ?_⟩
      rw [hwrite, if_neg hroom] at hpath
      cases hpath
    · obtain ⟨e, hwrite⟩ := writeStarter_of_not_canStart fun above name h => hcan ⟨above, name, h⟩
      rw [hwrite] at hpath
      cases hpath
  · rintro ⟨⟨above, name, hcan⟩, hroom⟩
    obtain ⟨after, hwrite, -⟩ := writeStarter_of_canStart hcan
    exact ⟨_, by rw [hwrite, if_pos hroom]⟩

/-- What there is after a starter configuration for a preset was written in `dir`. -/
structure IsStarted (before after : Disk) (dir preset : String) : Prop where
  known : IsPresetName preset
  /-- There is one more file and nothing else has changed. -/
  added : ∃ names, before.root.AddsFile after.root names (starterText preset).toUTF8
  workingDir : after.workingDir = before.workingDir
  written : after.stat? (joinPath dir starterFileName) = some (.ofText (starterText preset))
  /-- The new file is the one that is found, unless there is one of the name before. -/
  found : configFile? after dir = some (joinPath dir starterFileName) ↔
    after.isFile (joinPath dir firstFileName) = false
  shadowed : after.isFile (joinPath dir firstFileName) = true →
    configFile? after dir = some (joinPath dir firstFileName)
  /-- What is loaded from the new file is the preset as it is. -/
  loaded : after.isFile (joinPath dir firstFileName) = false →
    ∃ p ∈ Preset.all, p.name = preset ∧ ∃ config, Decode.readConfig p.value = .ok config ∧
      LoadedConfig.load after none dir =
        .ok ⟨config, .file (joinPath dir starterFileName)⟩ ∧ config.problems = []

theorem isStarted_of_writeStarter (h : (writeStarter disk dir preset).1 = .ok path) :
    path = joinPath dir starterFileName ∧
      IsStarted disk (writeStarter disk dir preset).2 dir preset := by
  obtain ⟨⟨above, name, hcan⟩, hroom⟩ := exists_writeStarter_iff.mp ⟨path, h⟩
  obtain ⟨after, hwrite, hdir, hadds, hstat⟩ := writeStarter_of_canStart hcan
  rw [Disk.fitting_eq hroom] at hadds hstat
  rw [hwrite, if_pos hroom] at h ⊢
  have hfile : after.isFile (joinPath dir starterFileName) = true :=
    Disk.isFile_iff.mpr ⟨_, hstat⟩
  have hfound := configFile?_of_starter hfile
  refine ⟨(Except.ok.inj h).symm, hcan.known, ⟨_, hadds⟩, hdir, hstat, ?_, fun hfirst => ?_,
    fun hfirst => ?_⟩
  · rw [hfound]
    cases after.isFile (joinPath dir firstFileName) with
    | true => simp [joinPath_firstFileName_ne]
    | false => simp
  · rw [hfound, hfirst, if_pos rfl]
  · obtain ⟨p, hmem, hname, config, hread, hvalue, hproblems⟩ := ofValue_starterValue hcan.known
    rw [hfirst, if_neg Bool.false_ne_true] at hfound
    refine ⟨p, hmem, hname, config, hread, ?_, hproblems⟩
    rw [load_of_configFile?_eq_some hfound, ofFile_eq_bind, readConfigValue_starter hstat,
      Except.bind, hvalue]
    rfl

end ProjectLayout
