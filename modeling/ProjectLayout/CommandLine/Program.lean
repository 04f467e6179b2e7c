import ProjectLayout.CommandLine.Arguments
import ProjectLayout.Config.Problem
import ProjectLayout.Config.Source
import ProjectLayout.Config.Starter
import ProjectLayout.Report.Document
import ProjectLayout.Report.Human
import ProjectLayout.Validator

/-!
# The program

* `Setup` — what a check needs, found out from its options (`ValidatedConfig`, `from_args`).
* `runCheck`, `runInit`, `runPresets` — the commands on a disk (`run_check`, `run_init`,
  `run_presets`).
* `runProgram` — the program: arguments and environment in, `Outcome` out (`run`).

A check ends with 0 if the project is valid, with 3 if it is not, and with 1 if it could not be
checked.  With a pattern that nests too deep it is aborted.
-/

namespace ProjectLayout.CommandLine

/-! ## Setting up a check -/

/-- Why a check cannot be set up. -/
inductive SetupError where
  | rootUnusable (root : String) (cause : Disk.IoError)
  | rootNotDirectory (root : String)
  | notLoaded (cause : LoadError)
  | problems (problems : List String)

def SetupError.message : SetupError → String
  | rootUnusable root cause =>
    s!"invalid configuration: root directory '{root}' is invalid: {cause.message}"
  | rootNotDirectory root => s!"invalid configuration: root '{root}' is not a directory"
  | notLoaded cause => cause.message
  | problems list => s!"configuration has {list.length} problem(s)"

/-- What a check needs. -/
structure Setup where
  /-- The canonical path of the project. -/
  root : String
  config : Config
  source : ConfigSource
  json : Bool

/-- What the options of a check stand for; a configuration with problems is refused. -/
def Setup.ofOptions (disk : Disk) (options : CheckOptions) : Except SetupError Setup :=
  match disk.canonicalize options.root with
  | .error cause => .error (.rootUnusable options.root cause)
  | .ok root =>
    if !disk.isDirectory root then .error (.rootNotDirectory options.root)
    else
      match LoadedConfig.load disk options.config root with
      | .error cause => .error (.notLoaded cause)
      | .ok loaded =>
        if loaded.config.problems.isEmpty then
          .ok ⟨root, loaded.config, loaded.source, options.json⟩
        else .error (.problems loaded.config.problems)

/-! ## Exit codes -/

/-- How a command ended. -/
inductive ExitCode where
  | success
  /-- The command could not be carried out. -/
  | failure
  /-- The project is not valid. -/
  | invalid
  deriving DecidableEq, Repr

/-- The number that the program ends with. -/
def ExitCode.toNat : ExitCode → Nat
  | success => 0
  | failure => 1
  | invalid => 3

/-- The number that a program ends with that is aborted. -/
def abortCode : Nat := 101

/-- Only errors fail a check; warnings do not (`exit_code_for_result`). -/
def exitCodeOf (result : ValidationResult) : ExitCode := if result.valid then .success else .invalid

/-! ## Commands -/

/-- What a run has printed and left on the disk. -/
structure Outcome where
  exitCode : Nat
  stdout : String
  stderr : String
  disk : Disk

/-- Lines on the standard output. -/
def printed (disk : Disk) (exitCode : ExitCode) (text : String) : Outcome :=
  ⟨exitCode.toNat, text, "", disk⟩

/-- A command that could not be carried out, with lines on the standard error. -/
def refused (disk : Disk) (text : String) : Outcome := ⟨ExitCode.failure.toNat, "", text, disk⟩

/-- A command that was aborted.  Where in the program that was is left out of what is printed. -/
def aborted (disk : Disk) : Outcome := ⟨abortCode, "", "regex compilation shouldn't fail\n", disk⟩

/-- The project is validated and the result reported. -/
def runCheck (disk : Disk) (options : CheckOptions) : Outcome :=
  match Setup.ofOptions disk options with
  | .error (.problems list) => refused disk (Report.problemsText false list)
  | .error e => refused disk (Report.errorText false e.message)
  | .ok setup =>
    match ((Validator.ofConfig setup.config setup.root).run disk).1 with
    | .error (.notScanned e) => refused disk (Report.errorText false e.message)
    | .error (.aborted _) => aborted disk
    | .ok result =>
      printed disk (exitCodeOf result)
        (if setup.json then Report.documentText result else Report.reportText false result)

/-- A starter configuration is put into the working directory. -/
def runInit (disk : Disk) (preset : String) : Outcome :=
  match writeStarter disk (Disk.pathOfNames disk.workingDir) preset with
  | (.error e, after) => refused after (Report.errorText false e.message)
  | (.ok path, after) =>
    printed after .success
      (Report.infoText s!"Configuration file created at: {path}" ++
        Report.infoText s!"Using preset: {preset}")

/-- The presets are listed. -/
def runPresets (disk : Disk) : Outcome :=
  printed disk .success (Report.presetsText false Preset.all)

/-! ## Everything -/

def UsageError.message : UsageError → String
  | unknownArgument => "error: unexpected argument"
  | invalidValue => "error: a value is required"
  | argumentConflict => "error: an argument cannot be used multiple times"
  | tooManyValues => "error: unexpected value"
  | invalidCommand => "error: unrecognized subcommand"
  | missingCommand => "error: a subcommand is required"
  | nothingAsked => "Usage: validate-structure [-v] <check|init|presets|help>"
  | helpAsked => "Usage: validate-structure [-v] <check|init|presets|help>"
  | versionAsked => "validate-structure"

/-- A command line that was not carried out. -/
def usageOutcome (disk : Disk) (e : UsageError) : Outcome :=
  if e.exitCode = 0 then ⟨0, e.message ++ "\n", "", disk⟩
  else ⟨e.exitCode, "", e.message ++ "\n", disk⟩

/-- The program on a disk, with its arguments and its environment. -/
def runProgram (disk : Disk) (env : Environment) (args : List String) : Outcome :=
  match Arguments.parse env args with
  | .error e => usageOutcome disk e
  | .ok arguments =>
    match arguments.command with
    | .check options => runCheck disk options
    | .init preset => runInit disk preset
    | .presets => runPresets disk

end ProjectLayout.CommandLine
