import ProjectLayout.Json.Value

/-!
# Merging a configuration over a preset

Two values are merged before they are read, so a configuration only has to mention what it
changes.

* `mergeSections` — the rules: sections of both sides are overlaid key by key, a list of folders
  replaces the other one (`merge_rules`, `merge_shallow`).
* `mergeConfig` — whole configurations: ignored globs are put together, other keys replaced
  (`merge_with_preset`).

A value of the wrong form counts as empty, and a section that is `null` as absent.
-/

namespace ProjectLayout.Merge

open Json (Value Members)

/-- The members of an object; other values have none. -/
def membersOf : Value → Members Value
  | .object members => members
  | _ => []

/-- The items of an array; other values have none. -/
def itemsOf : Value → List Value
  | .array items => items
  | _ => []

/-- The value under a key, where `null` counts as absent. -/
def present? (key : String) (members : Members Value) : Option Value :=
  match members.get? key with
  | some .null => none
  | found => found

/-- Objects overlaid key by key; otherwise the second value if there is one. -/
def overlaySection : Option Value → Option Value → Option Value
  | some (.object base), some (.object top) => some (.object (Members.overlay base top))
  | base, none => base
  | _, some top => some top

/-- The members with a value under a key, if there is one. -/
def setPresent (key : String) (value : Option Value) (members : Members Value) : Members Value :=
  match value with
  | some v => members.set key v
  | none => members

/-- The rules of `base` with those of `top` merged over them. -/
def mergeSections (base top : Members Value) : Members Value :=
  let colocation :=
    overlaySection (base.get? "componentColocation") (present? "componentColocation" top)
  let fileNaming := overlaySection (base.get? "fileNaming") (present? "fileNaming" top)
  let base := (base.erase "componentColocation").erase "fileNaming"
  let rest := ((top.erase "componentColocation").erase "fileNaming").erase "folderStructure"
  let (folders, base) :=
    match present? "folderStructure" top with
    | some list => (some list, base)
    | none => (base.get? "folderStructure", base.erase "folderStructure")
  setPresent "folderStructure" folders
    (setPresent "fileNaming" fileNaming
      (setPresent "componentColocation" colocation (base.overlay rest)))

/-- The value under a key of a configuration; `null` if there is none. -/
def part (key : String) (members : Members Value) : Value := (members.get? key).getD .null

/-- The configuration `base` with `top` merged over it. -/
def mergeConfig (base top : Value) : Value :=
  let base := membersOf base
  let top := membersOf top
  let rules := mergeSections (membersOf (part "rules" base)) (membersOf (part "rules" top))
  let ignore := itemsOf (part "ignore" base) ++ itemsOf (part "ignore" top)
  let rest (members : Members Value) := (members.erase "rules").erase "ignore"
  .object ((((rest base).overlay (rest top)).set "rules" (.object rules)).set "ignore"
    (.array ignore))

end ProjectLayout.Merge
