/-!
# Arguments

A command line has options, a command, and options of that command.  An option's value is part of
the same argument (`-rapp`, `--root=app`) or the next one; it is taken in when the next option
comes or the arguments end.

* `Arguments` — a command line that was understood.
* `UsageError` — why a command line was not understood, or what it asks for instead.
* `Level` — the options and commands that are known at one place of the command line.
* `Arguments.parse` — arguments read together with the environment (`try_parse_from`).
-/

namespace ProjectLayout.CommandLine

/-! ## What is asked for -/

/-- The options of a check. -/
structure CheckOptions where
  /-- The configuration file; looked for if there is none. -/
  config : Option String
  /-- The project to check. -/
  root : String
  /-- Whether the report is for programs. -/
  json : Bool
  deriving DecidableEq, Repr

/-- What the program is asked to do. -/
inductive Command where
  | check (options : CheckOptions)
  | init (preset : String)
  | presets
  deriving DecidableEq, Repr

/-- A command line that was understood. -/
structure Arguments where
  command : Command
  /-- How often more log output was asked for, at most 255. -/
  verbose : Nat
  deriving DecidableEq, Repr

/-- Whether the output is a report for programs. -/
def Arguments.jsonOutput (arguments : Arguments) : Bool :=
  match arguments.command with
  | .check options => options.json
  | _ => false

/-- Why a command line is not carried out. -/
inductive UsageError where
  | unknownArgument
  | invalidValue
  | argumentConflict
  | tooManyValues
  | invalidCommand
  | missingCommand
  /-- Nothing was asked for at all. -/
  | nothingAsked
  | helpAsked
  | versionAsked
  deriving DecidableEq, Repr

/-- Asking for help or the version is no failure. -/
def UsageError.exitCode : UsageError → Nat
  | helpAsked => 0
  | versionAsked => 0
  | _ => 2

/-! ## Options -/

/-- What an option does with its value. -/
inductive OptionKind where
  /-- Takes one value. -/
  | value (mayBeEmpty : Bool)
  /-- Given once or not at all. -/
  | switch
  /-- Counts how often it is given. -/
  | counter
  | help
  | version
  deriving DecidableEq, Repr

/-- An option under its long and its short name. -/
structure OptionSpec where
  long : String
  short : Char
  kind : OptionKind
  deriving DecidableEq, Repr

/-- What is known at one place of the command line. -/
structure Level where
  options : List OptionSpec
  commands : List String

/-- The error for a word that has no meaning at a level. -/
def Level.strayWord (level : Level) : UsageError :=
  if level.commands.isEmpty then .unknownArgument else .invalidCommand

/-- What has been read at a level. -/
structure Progress where
  /-- The values of options, newest first. -/
  values : List (String × String)
  switches : List String
  count : Nat
  /-- An option whose value, if there is one yet, has not been taken in. -/
  pending : Option (OptionSpec × Option String)

namespace Progress

/-- Nothing read yet. -/
def start : Progress := ⟨[], [], 0, none⟩

/-- Whether the next word is a value. -/
def awaitsValue (p : Progress) : Bool :=
  match p.pending with
  | some (_, none) => true
  | _ => false

/-- The value of an option taken in. -/
def take (p : Progress) (spec : OptionSpec) (value : String) : Except UsageError Progress :=
  if p.values.any (·.1 == spec.long) then .error .argumentConflict
  else if value.isEmpty && spec.kind != .value true then .error .invalidValue
  else .ok { p with values := (spec.long, value) :: p.values }

/-- The pending option taken in. -/
def settle (p : Progress) : Except UsageError Progress :=
  match p.pending with
  | none => .ok p
  | some (_, none) => .error .invalidValue
  | some (spec, some value) => { p with pending := none }.take spec value

/-- An option without a value. -/
def mark (p : Progress) (spec : OptionSpec) : Except UsageError Progress :=
  match p.settle with
  | .error e => .error e
  | .ok p =>
    match spec.kind with
    | .value _ => .ok { p with pending := some (spec, none) }
    | .switch =>
      if p.switches.contains spec.long then .error .argumentConflict
      else .ok { p with switches := spec.long :: p.switches }
    | .counter => .ok { p with count := min (p.count + 1) 255 }
    | .help => .error .helpAsked
    | .version => .error .versionAsked

/-- An option with a value in the same argument. -/
def attach (p : Progress) (spec : OptionSpec) (value : String) : Except UsageError Progress :=
  match spec.kind with
  | .value _ =>
    match p.settle with
    | .error e => .error e
    | .ok p => p.take spec value
  | _ => .error .tooManyValues

/-- Short options in one argument; a value is the rest of it, without a leading `=`. -/
def readShort (level : Level) (p : Progress) : List Char → Except UsageError Progress
  | [] => .ok p
  | c :: rest =>
    match level.options.find? (·.short == c) with
    | none => .error .unknownArgument
    | some spec =>
      match spec.kind, rest with
      | .value _, '=' :: value => p.attach spec (String.ofList value)
      | .value _, first :: more => p.attach spec (String.ofList (first :: more))
      | _, _ =>
        match p.mark spec with
        | .error e => .error e
        | .ok p => p.readShort level rest

/-- A long option, with a value behind `=` or without. -/
def readLong (level : Level) (p : Progress) (text : List Char) : Except UsageError Progress :=
  let name := text.takeWhile (· ≠ '=')
  match level.options.find? (·.long.toList == name) with
  | none => .error .unknownArgument
  | some spec =>
    match text.dropWhile (· ≠ '=') with
    | [] => p.mark spec
    | _ :: value => p.attach spec (String.ofList value)

end Progress

/-- The options of a level, and the command behind them with the arguments that follow it. -/
def Level.read (level : Level) (p : Progress) :
    List String → Except UsageError (Progress × Option (String × List String))
  | [] => p.settle.map fun p => (p, none)
  | arg :: rest =>
    if !p.awaitsValue && level.commands.contains arg then
      p.settle.map fun p => (p, some (arg, rest))
    else
      match arg.toList with
      | ['-', '-'] =>
        match rest with
        | [] => p.settle.map fun p => (p, none)
        | word :: _ =>
          if level.commands.contains word then .error .unknownArgument else .error level.strayWord
      | '-' :: '-' :: text =>
        match p.readLong level text with
        | .error e => .error e
        | .ok p => level.read p rest
      | '-' :: c :: text =>
        match p.readShort level (c :: text) with
        | .error e => .error e
        | .ok p => level.read p rest
      | _ =>
        match p.pending with
        | some (spec, none) => level.read { p with pending := some (spec, some arg) } rest
        | _ => .error level.strayWord

/-! ## The tool -/

def verboseOption : OptionSpec := ⟨"verbose", 'v', .counter⟩

def helpOption : OptionSpec := ⟨"help", 'h', .help⟩

/-- In front of the command. -/
def mainLevel : Level :=
  ⟨[verboseOption, helpOption, ⟨"version", 'V', .version⟩], ["check", "init", "presets", "help"]⟩

/-- Behind `check`. -/
def checkLevel : Level :=
  ⟨[⟨"config", 'c', .value false⟩, ⟨"root", 'r', .value false⟩, ⟨"json", 'j', .switch⟩,
    verboseOption, helpOption], []⟩

/-- Behind `init`. -/
def initLevel : Level := ⟨[⟨"preset", 'p', .value true⟩, verboseOption, helpOption], []⟩

/-- Behind `presets`. -/
def presetsLevel : Level := ⟨[verboseOption, helpOption], []⟩

/-- Names and values of environment variables. -/
abbrev Environment := List (String × String)

/-- The value of an option, else that of its environment variable. -/
def valueOrEnv (p : Progress) (env : Environment) (long variableName : String) :
    Except UsageError (Option String) :=
  match p.values.lookup long, env.lookup variableName with
  | some value, _ => .ok (some value)
  | none, some "" => .error .invalidValue
  | none, found => .ok found

/-- The command with a name, read from the arguments behind it, and how often more log output was
asked for there. -/
def readCommand (env : Environment) (name : String) (args : List String) :
    Except UsageError (Command × Nat) :=
  if name = "check" then do
    let (p, _) ← checkLevel.read .start args
    let config ← valueOrEnv p env "config" "VALIDATE_STRUCTURE_CONFIG"
    let root ← valueOrEnv p env "root" "VALIDATE_STRUCTURE_ROOT"
    return (.check ⟨config, root.getD ".", p.switches.contains "json"⟩, p.count)
  else if name = "init" then do
    let (p, _) ← initLevel.read .start args
    return (.init ((p.values.lookup "preset").getD "react"), p.count)
  else if name = "presets" then do
    let (p, _) ← presetsLevel.read .start args
    return (.presets, p.count)
  else
    match args with
    | [] => .error .helpAsked
    | [topic] =>
      if mainLevel.commands.contains topic then .error .helpAsked else .error .invalidCommand
    | _ => .error .invalidCommand

/-- Arguments, the name of the program not among them. -/
def Arguments.parse (env : Environment) (args : List String) : Except UsageError Arguments :=
  match mainLevel.read .start args with
  | .error e => .error e
  | .ok (p, none) => .error (if p.count = 0 then .nothingAsked else .missingCommand)
  | .ok (p, some (name, rest)) =>
    (readCommand env name rest).map fun (command, count) =>
      ⟨command, if count = 0 then p.count else count⟩

end ProjectLayout.CommandLine
