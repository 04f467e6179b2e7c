import ProjectLayout.Config.Model
import ProjectLayout.Naming.Suggestion
import ProjectLayout.Scan.Scanner

/-!
# The folder structure check

A folder that a rule requires and that does not exist is one finding.  In a folder that exists,
files with other extensions than those allowed come first, then files whose names break the
convention.

* `isWithin` — which files a rule is about; a path is compared as text, so `src/hooks` is also
  about `src/hooks-old/a.ts` (`is_within`).
* `folderFindings` — the findings of one rule (`check_folder`).
* `folderStructureFindings` — the findings of the check, rule after rule (`FolderStructureCheck`).
-/

namespace ProjectLayout

open Scan (Scanner Entry normalizeRelative)

/-- Whether the path of an entry begins with the text `dir`. -/
def isWithin (dir : String) (file : Entry) : Bool := dir.toList.isPrefixOf file.path.toList

/-- The finding for a file whose extension is not allowed. -/
def forbiddenFile? (rule : FolderRule) (allowed : List String) (file : Entry) : Option Finding :=
  if allowed.contains file.extension then none
  else some (.forbiddenFile file.path file.extension rule.name allowed)

/-- The finding for a file whose name breaks the convention of its folder. -/
def folderNaming? (severity : Severity) (rule : FolderRule) (convention : Naming.Convention)
    (file : Entry) : Option Finding :=
  if convention.accepts file.name then none
  else
    some (.fileNaming severity
      s!"File in {rule.name} doesn't follow {convention.spelling} convention" file.path file.name
      (convention.suggestion file.name))

/-- The findings of a rule whose folder exists. -/
def folderContentFindings (rule : FolderRule) (severity : Severity) (entries : List Entry) :
    List Finding :=
  let files := entries.filter fun e => !e.isDirectory && isWithin (normalizeRelative rule.path) e
  rule.allowedExtensions.elim [] (fun allowed => files.filterMap (forbiddenFile? rule allowed)) ++
    rule.convention.elim [] fun convention =>
      files.filterMap (folderNaming? severity rule convention)

/-- The findings of one rule. -/
def folderFindings (scanner : Scanner) (disk : Disk) (entries : List Entry) (severity : Severity)
    (rule : FolderRule) : List Finding :=
  if scanner.hasDirectory disk rule.path then folderContentFindings rule severity entries
  else [.missingDirectory severity rule.name rule.path]

/-- The findings of the check, rule after rule. -/
def folderStructureFindings (scanner : Scanner) (disk : Disk) (entries : List Entry)
    (config : Config) : List Finding :=
  (config.rules.folders.getD []).flatMap (folderFindings scanner disk entries config.severity)

end ProjectLayout
