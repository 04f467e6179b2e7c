import ProjectLayout.Config.Model
import ProjectLayout.Glob.Pattern

/-!
# Problems of a configuration

`Config.problems` lists what would make a run meaningless (`validate_config`): lists that are empty
although their section is enabled, and globs that do not compile.  Whether a glob nests too deep to
be matched is not asked.
-/

namespace ProjectLayout

/-- A text with `name` for each `*`. -/
def fillStars (name : String) (pattern : String) : String :=
  String.ofList (pattern.toList.flatMap fun c => if c = '*' then name.toList else [c])

/-- A problem for a glob that does not compile; `what` is said of `pattern`, and `glob` is
compiled. -/
def globProblem? (what pattern glob : String) : Option String :=
  (Glob.Pattern.fault? glob).map fun fault => s!"{what} pattern '{pattern}' is invalid: {fault}"

namespace ColocationRules

/-- The lists that must not be empty while the section is enabled. -/
def listProblems (rules : ColocationRules) : List String :=
  if rules.enabled then
    (if rules.componentDirs.isEmpty then
      ["componentColocation.componentDirs must be specified when enabled"] else []) ++
    (if rules.requiredFiles.isEmpty then
      ["componentColocation.requiredFiles must be specified when enabled"] else [])
  else []

def problems (rules : ColocationRules) : List String :=
  rules.listProblems ++ rules.requiredFiles.filterMap fun file =>
    globProblem? "componentColocation.requiredFiles" file.pattern
      (fillStars "Component" file.pattern)

end ColocationRules

namespace Config

/-- The problems of the co-location section. -/
def colocationProblems (config : Config) : List String :=
  config.rules.colocation.elim [] ColocationRules.problems

/-- The globs of file naming rules that do not compile. -/
def fileNamingProblems (config : Config) : List String :=
  (config.rules.fileNaming.getD []).filterMap fun rule =>
    globProblem? "fileNaming" rule.pattern rule.pattern

/-- The ignored globs that do not compile. -/
def ignoreProblems (config : Config) : List String :=
  config.ignore.filterMap fun pattern => globProblem? "ignore" pattern pattern

/-- What is wrong with a configuration, one message a problem. -/
def problems (config : Config) : List String :=
  config.colocationProblems ++ config.fileNamingProblems ++ config.ignoreProblems

end Config

end ProjectLayout
