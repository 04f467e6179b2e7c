import ProjectLayout.Proofs.Config.Discovery
import ProjectLayout.Proofs.Config.Merge
import ProjectLayout.Proofs.Config.Record
import ProjectLayout.Proofs.Json.Alike

/-!
# The default configuration

Where nothing is configured a preset stands in.  It names itself, so it is merged over itself on
the way, and merging puts lists of ignored globs together.

* `Merge.mergeConfig_self` — an object merged over itself: only the ignored globs stand twice.
* `Merge.alike_mergeConfig_self_iff` — it stays the same just if it ignores nothing.
* `ofValue_react` — the default configuration and the preset as it stands.
* `ofValue_named` — a configuration that only names the preset.
* `default_is_preset` — what a run without a configuration file uses.
-/

namespace ProjectLayout

open Json

namespace Merge

variable {base top : Members Value}

/-! ## Merging something over itself -/

/-- Objects overlaid over themselves, and other values replaced by themselves, stay the same. -/
theorem overlaySection_self (h : HaveDistinctKeys base) (key : String) :
    overlaySection (base.get? key) (present? key base) = base.get? key := by
  by_cases habsent : IsAbsent (base.get? key)
  · rw [present?_of_isAbsent habsent, overlaySection_none]
  rw [present?_of_not_isAbsent habsent]
  cases hv : base.get? key with
  | none => rfl
  | some v =>
    cases v with
    | object members =>
      rw [overlaySection, Members.overlay_self (hasDistinctKeys_object.mp (h.get? hv)).nodup]
    | _ => rfl

theorem get?_mergeSections_self (h : HaveDistinctKeys base) (key : String) :
    (mergeSections base base).get? key = base.get? key := by
  have hfolders : (present? "folderStructure" base).or (base.get? "folderStructure") =
      base.get? "folderStructure" := by
    by_cases habsent : IsAbsent (base.get? "folderStructure")
    · rw [present?_of_isAbsent habsent, Option.none_or]
    · rw [present?_of_not_isAbsent habsent, Option.or_self]
  rw [get?_mergeSections h h, overlaySection_self h, overlaySection_self h, hfolders,
    Option.or_self]
  grind

/-- An object merged over itself is that object, but for the ignored globs, which stand twice. -/
theorem mergeConfig_self {members rules : Members Value} {items : List Value}
    (h : (Value.object members).hasDistinctKeys = true)
    (hrules : members.get? "rules" = some (.object rules))
    (hignore : members.get? "ignore" = some (.array items)) :
    Alike (mergeConfig (.object members) (.object members))
      (.object (members.set "ignore" (.array (items ++ items)))) := by
  have hmembers := hasDistinctKeys_object.mp h
  have hsections := hasDistinctKeys_object.mp (hmembers.get? hrules)
  have hdistinct := hasDistinctKeys_mergeConfig h h
  have hget := get?_mergeConfig hmembers hmembers
  obtain ⟨merged, hmerge⟩ :
      ∃ merged, mergeConfig (.object members) (.object members) = .object merged := ⟨_, rfl⟩
  simp only [hmerge, Value.get?, part, hrules, hignore, Option.getD_some, membersOf, itemsOf,
    Option.or_self] at hget
  rw [hmerge] at hdistinct ⊢
  have hnodup := (hasDistinctKeys_object.mp hdistinct).nodup
  refine (alike_object_iff hnodup (Members.nodup_keys_set hmembers.nodup _ _)).mpr fun key => ?_
  rw [hget, Members.get?_set]
  by_cases hk : key = "rules"
  · subst hk
    rw [if_pos rfl, if_neg (by decide), hrules]
    have hmerged := (haveDistinctKeys_mergeSections hsections hsections).nodup
    refine .some ((alike_object_iff hmerged hsections.nodup).mpr fun k => ?_)
    rw [get?_mergeSections_self hsections]
    exact relAlike_refl _
  by_cases hk' : key = "ignore"
  · subst hk'
    exact relAlike_refl _
  · rw [if_neg hk, if_neg hk', if_neg (Ne.symm hk')]
    exact relAlike_refl _

/-- An object merged over itself stays the same just if it ignores nothing. -/
theorem alike_mergeConfig_self_iff {members rules : Members Value} {items : List Value}
    (h : (Value.object members).hasDistinctKeys = true)
    (hrules : members.get? "rules" = some (.object rules))
    (hignore : members.get? "ignore" = some (.array items)) :
    Alike (mergeConfig (.object members) (.object members)) (.object members) ↔ items = [] := by
  have hmembers := hasDistinctKeys_object.mp h
  have hself := mergeConfig_self h hrules hignore
  have hdistinct := hasDistinctKeys_mergeConfig h h
  have hget := get?_mergeConfig hmembers hmembers "ignore"
  obtain ⟨merged, hmerge⟩ : ∃ merged : Members Value,
      mergeConfig (.object members) (.object members) = .object merged := ⟨_, rfl⟩
  rw [hmerge] at hself hdistinct hget ⊢
  have hnodup := (hasDistinctKeys_object.mp hdistinct).nodup
  have htwice := (alike_object_iff hnodup (Members.nodup_keys_set hmembers.nodup _ _)).mp hself
  rw [alike_object_iff hnodup hmembers.nodup]
  constructor
  · intro hsame
    have hitems : merged.get? "ignore" = some (.array (items ++ items)) := by
      rw [if_neg (by decide), if_pos rfl] at hget
      simpa [Value.get?, part, hignore, itemsOf] using hget
    have hrel := hsame "ignore"
    rw [hitems, hignore] at hrel
    cases hrel with
    | some hlist =>
      have hlength := length_eq_of_alike hlist
      rw [List.length_append] at hlength
      exact List.eq_nil_of_length_eq_zero (by omega)
  · rintro rfl key
    have hkey := htwice key
    rw [Members.get?_set] at hkey
    split at hkey
    · next heq =>
      subst heq
      rwa [hignore]
    · exact hkey

end Merge

/-! ## The default configuration -/

/-- The preset as it is can be read. -/
theorem isSome_readConfig_react :
    (Decode.readConfig Preset.react.value).toOption.isSome = true := by
  decide +kernel

/-- The default configuration is the preset merged over itself. -/
theorem ofValue_react : (Config.ofValue Preset.react.value).toOption =
    (Decode.readConfig Preset.react.value).toOption.map fun direct =>
      { direct with ignore := direct.ignore ++ direct.ignore } := by
  decide +kernel

/-- A configuration that only names the preset is the preset as it is. -/
theorem ofValue_named : (Config.ofValue (.object [("preset", .string "react")])).toOption =
    (Decode.readConfig Preset.react.value).toOption := by
  decide +kernel

theorem configFile?_eq_none {disk : Disk} {start : String}
    (h : ∀ dir ∈ Disk.ancestors start, ∀ name, ¬IsCandidate disk dir name) :
    configFile? disk start = none :=
  List.findSome?_eq_none_iff.mpr fun dir hdir => configFileIn?_eq_none_iff.mpr (h dir hdir)

/-- The preset ignores something. -/
theorem ignore_react :
    (Decode.readConfig Preset.react.value).toOption.map (·.ignore.isEmpty) = some false := by
  decide +kernel

/-- Where nothing is configured the preset is loaded with its ignored globs repeated. -/
theorem load_default {disk : Disk} {start : String} {direct : Config}
    (hdirect : (Decode.readConfig Preset.react.value).toOption = some direct)
    (h : ∀ dir ∈ Disk.ancestors start, ∀ name, ¬IsCandidate disk dir name) :
    LoadedConfig.load disk none start =
      .ok ⟨{ direct with ignore := direct.ignore ++ direct.ignore }, .defaultPreset⟩ := by
  have hdefault := ofValue_react
  rw [hdirect] at hdefault
  rw [load_of_configFile?_eq_none (configFile?_eq_none h), eq_ok_of_toOption hdefault]
  rfl

/-- A file that only names the preset gives the preset as it is. -/
theorem load_named {disk : Disk} {start path text : String} {direct : Config}
    (hdirect : (Decode.readConfig Preset.react.value).toOption = some direct)
    (htext : disk.readText path = .ok text)
    (hparse : Value.parse text = .ok (.object [("preset", .string "react")]))
    (hname : Disk.baseName? path ≠ some packageFileName) :
    LoadedConfig.load disk (some path) start = .ok ⟨direct, .file path⟩ := by
  have hnamed := ofValue_named
  rw [hdirect] at hnamed
  have hread : readConfigValue disk path = .ok (.object [("preset", .string "react")]) := by
    simp only [readConfigValue, htext, hparse, if_neg hname]
  have hload : LoadedConfig.load disk (some path) start = LoadedConfig.ofFile disk path := rfl
  rw [hload, ofFile_eq_bind, hread, Except.bind, eq_ok_of_toOption hnamed]
  rfl

/-- Where no directory at or above the start holds a configuration file, loading succeeds, and what
it gives is never the preset as it is: every glob is ignored twice, and the rest is the preset.  A
file that only names the preset gives just the preset.  Merging an object over itself repeats its
ignored globs and changes nothing else apart from the order of keys, so it gives the object back
just if there are none. -/
theorem default_is_preset (disk : Disk) (start : String) (members rules : Members Value)
    (items : List Value) :
    (∃ direct, Decode.readConfig Preset.react.value = .ok direct ∧
      ((∀ dir ∈ Disk.ancestors start, ∀ name, ¬IsCandidate disk dir name) →
        LoadedConfig.load disk none start =
            .ok ⟨{ direct with ignore := direct.ignore ++ direct.ignore }, .defaultPreset⟩ ∧
          LoadedConfig.load disk none start ≠ .ok ⟨direct, .defaultPreset⟩) ∧
      ∀ path text : String, disk.readText path = .ok text →
        Value.parse text = .ok (.object [("preset", .string "react")]) →
        Disk.baseName? path ≠ some packageFileName →
          LoadedConfig.load disk (some path) start = .ok ⟨direct, .file path⟩) ∧
    ((Value.object members).hasDistinctKeys = true →
      members.get? "rules" = some (.object rules) →
      members.get? "ignore" = some (.array items) →
        Alike (Merge.mergeConfig (.object members) (.object members))
            (.object (members.set "ignore" (.array (items ++ items)))) ∧
          (Alike (Merge.mergeConfig (.object members) (.object members)) (.object members) ↔
            items = [])) := by
  refine ⟨?_, fun hdistinct hrules hignore =>
    ⟨Merge.mergeConfig_self hdistinct hrules hignore,
      Merge.alike_mergeConfig_self_iff hdistinct hrules hignore⟩⟩
  obtain ⟨direct, hdirect⟩ := Option.isSome_iff_exists.mp isSome_readConfig_react
  have hignore := ignore_react
  rw [hdirect] at hignore
  refine ⟨direct, eq_ok_of_toOption hdirect, fun h => ⟨load_default hdirect h, fun hsame => ?_⟩,
    fun path text => load_named hdirect⟩
  rw [load_default hdirect h] at hsame
  have hrepeated : direct.ignore ++ direct.ignore = direct.ignore :=
    congrArg (·.config.ignore) (Except.ok.inj hsame)
  simp [List.self_eq_append_left.mp hrepeated.symm] at hignore

/-- A project without a configuration file beside one that only names the preset. -/
def unconfiguredDisk : Disk :=
  .ofTree (.dir [("app", .dir []), ("react.json", .ofText "\x7b\"preset\": \"react\"\x7d")])

theorem not_isCandidate_unconfiguredDisk :
    ∀ dir ∈ Disk.ancestors "/app", ∀ name, ¬IsCandidate unconfiguredDisk dir name := by
  have hnone : ∀ dir ∈ Disk.ancestors "/app", configFileIn? unconfiguredDisk dir = none := by
    decide +kernel
  exact fun dir hdir => configFileIn?_eq_none_iff.mp (hnone dir hdir)

theorem default_is_preset_unconfiguredDisk :
    ∃ direct,
      LoadedConfig.load unconfiguredDisk none "/app" =
        .ok ⟨{ direct with ignore := direct.ignore ++ direct.ignore }, .defaultPreset⟩ ∧
      LoadedConfig.load unconfiguredDisk (some "/react.json") "/app" =
        .ok ⟨direct, .file "/react.json"⟩ ∧
      Alike
        (Merge.mergeConfig
          (.object [("rules", .object []), ("ignore", .array [.string "dist"])])
          (.object [("rules", .object []), ("ignore", .array [.string "dist"])]))
        (.object [("rules", .object []), ("ignore", .array [.string "dist", .string "dist"])]) := by
  obtain ⟨⟨direct, -, hdefault, hnamed⟩, hself⟩ :=
    default_is_preset unconfiguredDisk "/app"
      [("rules", .object []), ("ignore", .array [.string "dist"])] [] [.string "dist"]
  have htext : unconfiguredDisk.readText "/react.json" =
      .ok "\x7b\"preset\": \"react\"\x7d" := by
    decide +kernel
  have hparse : Value.parse "\x7b\"preset\": \"react\"\x7d" =
      .ok (.object [("preset", .string "react")]) := by
    with_unfolding_all rfl
  exact ⟨direct, (hdefault not_isCandidate_unconfiguredDisk).1,
    hnamed _ _ htext hparse (by decide), (hself (by decide) rfl rfl).1⟩

/-- The default configuration is not the preset as it is, and an object merged over itself is not
that object, the order of keys aside: the ignored globs are repeated. -/
theorem default_repeats_ignored_globs :
    (∀ dir ∈ Disk.ancestors "/app", ∀ name, ¬IsCandidate unconfiguredDisk dir name) ∧
      (LoadedConfig.load unconfiguredDisk none "/app").toOption.map (·.config) ≠
        (Decode.readConfig Preset.react.value).toOption ∧
      ¬Alike
        (Merge.mergeConfig
          (.object [("rules", .object []), ("ignore", .array [.string "dist"])])
          (.object [("rules", .object []), ("ignore", .array [.string "dist"])]))
        (.object [("rules", .object []), ("ignore", .array [.string "dist"])]) := by
  refine ⟨not_isCandidate_unconfiguredDisk, by decide +kernel, fun h => ?_⟩
  have hget := (alike_object_iff (by decide) (by decide)).mp h "ignore"
  cases hget with
  | some hitems => exact absurd (length_eq_of_alike hitems) (by decide)

end ProjectLayout
