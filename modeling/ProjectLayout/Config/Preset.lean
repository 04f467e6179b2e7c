import ProjectLayout.Json.Value

/-!
# Presets

* `Preset` — a configuration that is built in, with its name.
* `Preset.all`, `Preset.find?` — the presets there are (`PRESETS`, `find_preset`).
* `Preset.react` — for React projects; used where nothing is configured (`DEFAULT_PRESET`).
-/

namespace ProjectLayout

open Json (Value)

/-- A configuration that is built in. -/
structure Preset where
  name : String
  description : String
  value : Value

namespace Preset

private def texts (items : List String) : Value := .array (items.map .string)

private def requiredFile (pattern : String) (required : Bool) (description : String) : Value :=
  .object
    [("pattern", .string pattern), ("required", .bool required),
      ("description", .string description)]

private def naming (pattern convention severity : String) : String × Value :=
  (pattern, .object [("convention", .string convention), ("severity", .string severity)])

private def folder (name path convention : String) (extensions : List String) : Value :=
  .object
    [("name", .string name), ("path", .string path), ("namingConvention", .string convention),
      ("allowedExtensions", texts extensions)]

def reactColocation : Value :=
  .object
    [("enabled", .bool true),
      ("componentDirs", texts ["src/components", "src/pages", "src/features"]),
      ("requiredFiles", .array
        [requiredFile "*.test.\x7bts,tsx,js,jsx\x7d" true "Test file",
          requiredFile "*.stories.\x7bts,tsx,js,jsx\x7d" true "Storybook stories file",
          requiredFile "index.\x7bts,tsx,js,jsx\x7d" false "Barrel export file"]),
      ("namingConvention", .string "PascalCase")]

def reactFileNaming : Value :=
  .object
    [naming "src/components/**/*.\x7btsx,jsx\x7d" "PascalCase" "error",
      naming "src/hooks/**/*.\x7bts,tsx,js,jsx\x7d" "camelCase" "error",
      naming "src/utils/**/*.\x7bts,js\x7d" "camelCase" "error",
      naming "src/types/**/*.\x7bts,tsx\x7d" "PascalCase" "error",
      naming "src/constants/**/*.\x7bts,js\x7d" "UPPER_CASE" "warning"]

def reactFolders : Value :=
  .array
    [folder "components" "src/components" "PascalCase"
        [".tsx", ".ts", ".jsx", ".js", ".css", ".scss", ".module.css"],
      folder "hooks" "src/hooks" "camelCase" [".ts", ".tsx", ".js", ".jsx"],
      folder "utils" "src/utils" "camelCase" [".ts", ".js"],
      folder "types" "src/types" "PascalCase" [".ts", ".d.ts"]]

def reactIgnore : Value :=
  texts
    ["**/node_modules/**", "**/dist/**", "**/build/**", "**/.next/**", "**/coverage/**",
      "**/.git/**"]

/-- The preset for React projects. -/
def react : Preset where
  name := "react"
  description := "React project with component co-location, tests, and stories"
  value :=
    .object
      [("preset", .string "react"),
        ("rules", .object
          [("componentColocation", reactColocation), ("fileNaming", reactFileNaming),
            ("folderStructure", reactFolders)]),
        ("ignore", reactIgnore), ("severity", .string "error")]

/-- The presets there are. -/
def all : List Preset := [react]

/-- The names of the presets. -/
def names : List String := all.map (·.name)

/-- The preset with a name. -/
def find? (name : String) : Option Preset := all.find? (·.name == name)

/-- What is said about a name that no preset has. -/
def unknownMessage (name : String) : String :=
  "Preset \"" ++ name ++ "\" not found. Available presets: " ++ String.intercalate ", " names

end Preset

end ProjectLayout
