import ProjectLayout.CommandLine.Program
import ProjectLayout.Proofs.Config.Starter

/-!
# What an init leaves

An init (`run_init`) overwrites nothing.  One that succeeds leaves one file more, and a run in that
directory uses it, unless there is a file of the name that is looked for first; a link of that name
may even lead to the new file, which is then found by the name of the link.  One that fails leaves
the disk as it was, unless there is no room for the whole file: what was written of it stays.

* `diskLeft` — the disk after an attempt; `disk_runInit`, `exitCode_runInit_eq_zero_iff`.
* `Starts` — what an attempt to write a starter configuration does.
* `init_adds_used_file` — all of that for every disk, directory and name of a preset.
* `init_leaves_traces` — a failure that leaves a file, and a link that was dangling before.
-/

namespace ProjectLayout.CommandLine

open Disk (joinPath)

/-- The disk after an attempt to write a starter configuration. -/
def diskLeft (disk : Disk) (dir preset : String) : Disk := (writeStarter disk dir preset).2

theorem disk_runInit (disk : Disk) (preset : String) :
    (runInit disk preset).disk = diskLeft disk (Disk.pathOfNames disk.workingDir) preset := by
  unfold runInit diskLeft
  match writeStarter disk (Disk.pathOfNames disk.workingDir) preset with
  | (.error e, after) => rfl
  | (.ok path, after) => rfl

theorem exitCode_runInit_eq_zero_iff (disk : Disk) (preset : String) :
    (runInit disk preset).exitCode = 0 ↔
      ∃ path, (writeStarter disk (Disk.pathOfNames disk.workingDir) preset).1 = .ok path := by
  unfold runInit
  match writeStarter disk (Disk.pathOfNames disk.workingDir) preset with
  | (.error e, after) => simp [refused, ExitCode.toNat]
  | (.ok path, after) => exact iff_of_true rfl ⟨path, rfl⟩

/-- What an attempt to write a starter configuration for a preset in `dir` does. -/
structure Starts (disk : Disk) (dir preset : String) : Prop where
  /-- It succeeds for a preset there is, where a file can be made that is not there yet, and with
  room for the whole file. -/
  succeeds : (∃ path, (writeStarter disk dir preset).1 = .ok path) ↔
    (∃ above name, CanStart disk dir preset above name) ∧ disk.HasRoom (starterText preset)
  refuses : disk.pathExists (joinPath dir starterFileName) = true →
    (writeStarter disk dir preset).1 = .error (.alreadyExists (joinPath dir starterFileName)) ∧
      diskLeft disk dir preset = disk
  /-- With room for the whole file a failure leaves no trace. -/
  failed (e : StarterError) : disk.HasRoom (starterText preset) →
    (writeStarter disk dir preset).1 = .error e → diskLeft disk dir preset = disk
  /-- Without that room it fails, and leaves at most a file with the part of the text that there was
  room for. -/
  cutOff : ¬disk.HasRoom (starterText preset) →
    (∃ e, (writeStarter disk dir preset).1 = .error e) ∧
      (disk.fitting (starterText preset)).size < (starterText preset).toUTF8.size ∧
      (diskLeft disk dir preset = disk ∨
        (diskLeft disk dir preset).workingDir = disk.workingDir ∧
          ∃ names, disk.root.AddsFile (diskLeft disk dir preset).root names
            (disk.fitting (starterText preset)))
  started (path : String) : (writeStarter disk dir preset).1 = .ok path →
    path = joinPath dir starterFileName ∧ IsStarted disk (diskLeft disk dir preset) dir preset
  /-- The program does that in its working directory. -/
  program : dir = Disk.pathOfNames disk.workingDir →
    (runInit disk preset).disk = diskLeft disk dir preset ∧
      ((runInit disk preset).exitCode = 0 ↔
        ∃ path, (writeStarter disk dir preset).1 = .ok path)

theorem refuses_existing {disk : Disk} {dir preset : String}
    (h : disk.pathExists (joinPath dir starterFileName) = true) : writeStarter disk dir preset =
      (.error (.alreadyExists (joinPath dir starterFileName)), disk) := by
  rw [writeStarter, if_pos h]

/-- An attempt to write a starter configuration never overwrites anything.  When it fails it changes
nothing, but for a file that is cut off where there is no room for it; when it succeeds it adds one
file, which is the configuration of a run in that directory unless a file of the name that is looked
for first is there. -/
theorem init_adds_used_file (disk : Disk) (dir preset : String) : Starts disk dir preset where
  succeeds := exists_writeStarter_iff
  refuses h := by
    rw [diskLeft, refuses_existing h]
    exact ⟨rfl, rfl⟩
  failed e hroom herror := by
    by_cases hcan : ∃ above name, CanStart disk dir preset above name
    · obtain ⟨path, hpath⟩ := exists_writeStarter_iff.mpr ⟨hcan, hroom⟩
      rw [hpath] at herror
      cases herror
    · obtain ⟨e, hwrite⟩ := writeStarter_of_not_canStart fun above name h => hcan ⟨above, name, h⟩
      rw [diskLeft, hwrite]
  cutOff hroom := by
    by_cases hcan : ∃ above name, CanStart disk dir preset above name
    · obtain ⟨above, name, hcan⟩ := hcan
      obtain ⟨after, hwrite, hdir, hadds, -⟩ := writeStarter_of_canStart hcan
      rw [diskLeft, hwrite, if_neg hroom]
      exact ⟨⟨_, rfl⟩, Disk.size_fitting_lt hroom, .inr ⟨hdir, _, hadds⟩⟩
    · obtain ⟨e, hwrite⟩ := writeStarter_of_not_canStart fun above name h => hcan ⟨above, name, h⟩
      rw [diskLeft, hwrite]
      exact ⟨⟨e, rfl⟩, Disk.size_fitting_lt hroom, .inl rfl⟩
  started path h := isStarted_of_writeStarter h
  program hdir := by
    subst hdir
    exact ⟨disk_runInit disk preset, exitCode_runInit_eq_zero_iff disk preset⟩

/-- Two projects without a configuration; in one a link waits for the file that an init writes. -/
def unstartedDisk (room : Option Nat) : Disk where
  root := .dir [("app", .dir []), ("lib", .dir [(firstFileName, .link starterFileName)])]
  workingDir := []
  room

theorem isPresetName_react : IsPresetName "react" := ⟨_, List.mem_singleton_self _, rfl⟩

/-- The file is used where nothing is before it. -/
theorem init_adds_used_file_sample :
    ∃ config, config.problems = [] ∧
      LoadedConfig.load (diskLeft (unstartedDisk none) "/app" "react") none "/app" =
        .ok ⟨config, .file "/app/.validate-structurerc.json"⟩ := by
  have happ := init_adds_used_file (unstartedDisk none) "/app" "react"
  obtain ⟨path, hwritten⟩ := happ.succeeds.mpr
    ⟨⟨["app"], starterFileName, isPresetName_react, by decide +kernel, by decide +kernel⟩, nofun⟩
  obtain ⟨-, hstarted⟩ := happ.started path hwritten
  have hfirst : (diskLeft (unstartedDisk none) "/app" "react").isFile
      (joinPath "/app" firstFileName) = false := by decide +kernel
  obtain ⟨-, -, -, config, -, hload, hproblems⟩ := hstarted.loaded hfirst
  exact ⟨config, hproblems, hload⟩

/-- An attempt that fails may leave a file, on a disk without room.  And one that succeeds may fill
the name that is looked for first, where no file was before: a link of that name waited for it. -/
theorem init_leaves_traces :
    ((unstartedDisk (some 0)).pathExists "/app/.validate-structurerc.json" = false ∧
      (writeStarter (unstartedDisk (some 0)) "/app" "react").1 =
        .error (.unwritable .noSpace) ∧
      (diskLeft (unstartedDisk (some 0)) "/app" "react").isFile
        "/app/.validate-structurerc.json" = true) ∧
      (unstartedDisk none).isFile "/lib/.validate-structurerc" = false ∧
      (writeStarter (unstartedDisk none) "/lib" "react").1 =
        .ok "/lib/.validate-structurerc.json" ∧
      configFile? (diskLeft (unstartedDisk none) "/lib" "react") "/lib" =
        some "/lib/.validate-structurerc" := by
  decide +kernel

end ProjectLayout.CommandLine
