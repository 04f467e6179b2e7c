import ProjectLayout.Config.Model
import ProjectLayout.Glob.Nesting
import ProjectLayout.Naming.Suggestion
import ProjectLayout.Scan.Entry

/-!
# The file naming check

Each file is held against every rule whose pattern matches its path, in the order of the rules;
a file that breaks several rules has a finding for each.

* `compileRules` — the rules that can be followed.
* `fileNamingFindings` — the findings of the check.
* `fileNamingCheck` — the check, which compiles its patterns first (`FileNamingCheck`).
-/

namespace ProjectLayout

open Scan (Entry)

/-- The finding for a file whose name breaks a rule, if the rule is about it. -/
def fileNaming? (severity : Severity) (file : Entry) (pattern : Glob.Pattern)
    (rule : FileNamingRule) : Option Finding :=
  if !pattern.matches file.path || rule.convention.accepts file.name then none
  else
    some (.fileNaming (rule.severity.getD severity)
      s!"File name doesn't follow {rule.convention.spelling} convention" file.path file.name
      (rule.convention.suggestion file.name))

/-- The rules whose patterns compile, with their patterns. -/
def compileRules (rules : List FileNamingRule) : List (Glob.Pattern × FileNamingRule) :=
  rules.filterMap fun rule => (Glob.Pattern.compile? rule.pattern).map fun p => (p, rule)

/-- The findings of the check, file after file. -/
def fileNamingFindings (entries : List Entry) (config : Config) : List Finding :=
  match config.rules.fileNaming with
  | none => []
  | some rules =>
    let compiled := compileRules rules
    (entries.filter (!·.isDirectory)).flatMap fun file =>
      compiled.filterMap fun (pattern, rule) => fileNaming? config.severity file pattern rule

/-- The patterns that the check compiles, whatever files there are. -/
def fileNamingPatterns (config : Config) : List String :=
  (config.rules.fileNaming.getD []).map (·.pattern)

/-- The check. -/
def fileNamingCheck (entries : List Entry) (config : Config) : Except Glob.Abort (List Finding) :=
  (Glob.checkNesting (fileNamingPatterns config)).map fun _ => fileNamingFindings entries config

end ProjectLayout
