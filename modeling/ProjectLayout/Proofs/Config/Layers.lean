import ProjectLayout.Config.Source
import ProjectLayout.Proofs.Config.Merge
import ProjectLayout.Proofs.Config.Record
import ProjectLayout.Proofs.Json.Alike

/-!
# Configurations in layers

Merging is associative where the sections in the middle layer can be overlaid, and the empty
configuration on either side only fills in what a merged configuration always has.  Up to the order
of keys, that is; the file naming rules agree with their order.

* `nonNull` — what is present, where `null` counts as absent.
* `overlaySection_assoc` — a section of three layers.
* `get?_mergeSections_assoc` — the rules of three layers, key by key.
* `completed` — a configuration with rules and ignored globs, and without sections that are `null`.
* `mergeConfig_assoc_and_identity` — the laws of merging.
* `mergedValue?`, `toOption_ofValue` — a configuration on the layer of the preset that it names.
-/

namespace ProjectLayout.Merge

open Json

/-! ## Sections -/

/-- What is found, unless it is `null`. -/
def nonNull : Option Value → Option Value
  | some .null => none
  | found => found

theorem present?_eq (key : String) (members : Members Value) :
    present? key members = nonNull (members.get? key) := rfl

theorem nonNull_or (first second : Option Value) :
    nonNull ((nonNull first).or second) = (nonNull first).or (nonNull second) := by
  cases first with
  | none => rfl
  | some v => cases v <;> rfl

/-- Whether a section can be overlaid: it is absent, `null` or an object. -/
def IsOverlayable (found : Option Value) : Prop :=
  IsAbsent found ∨ ∃ members, found = some (.object members)

theorem nonNull_of_isAbsent {found : Option Value} (h : IsAbsent found) : nonNull found = none := by
  rcases h with rfl | rfl <;> rfl

/-- Nothing, or `null`, takes no part in what is laid on it. -/
theorem nonNull_overlaySection_of_isAbsent {base : Option Value} (h : IsAbsent base)
    (top : Option Value) : nonNull (overlaySection base (nonNull top)) = nonNull top := by
  cases top with
  | none => rcases h with rfl | rfl <;> rfl
  | some v => rcases h with rfl | rfl <;> cases v <;> rfl

/-- An object laid on something keeps the members of an object below it. -/
theorem overlaySection_object {members : Members Value} (h : (Members.keys members).Nodup)
    (base : Option Value) :
    overlaySection base (some (.object members)) =
      some (.object (Members.overlay (membersOf (base.getD .null)) members)) := by
  have hempty : Members.overlay [] members = members := Members.ofSequence_eq_self h
  cases base with
  | none => exact congrArg (fun members => some (Value.object members)) hempty.symm
  | some v =>
    cases v with
    | object lower => rfl
    | _ => exact congrArg (fun members => some (Value.object members)) hempty.symm

/-- A section of three layers, if the middle one can be overlaid. -/
theorem overlaySection_assoc {first second third : Option Value} (h : IsOverlayable second)
    (hsecond : ∀ members, second = some (.object members) → (Members.keys members).Nodup)
    (hthird : ∀ members, third = some (.object members) → (Members.keys members).Nodup) :
    overlaySection (overlaySection first (nonNull second)) (nonNull third) =
      overlaySection first (nonNull (overlaySection second (nonNull third))) := by
  rcases h with habsent | ⟨middle, rfl⟩
  · rw [nonNull_of_isAbsent habsent, overlaySection_none,
      nonNull_overlaySection_of_isAbsent habsent]
  have hmiddle := hsecond middle rfl
  show overlaySection (overlaySection first (some (.object middle))) (nonNull third) = _
  by_cases habsent : IsAbsent third
  · rw [nonNull_of_isAbsent habsent, overlaySection_none, overlaySection_none]
    rfl
  cases third with
  | none => exact absurd (.inl rfl) habsent
  | some v =>
    cases v with
    | null => exact absurd (.inr rfl) habsent
    | object upper =>
      show overlaySection _ (some (.object upper)) =
        overlaySection first (some (.object (Members.overlay middle upper)))
      rw [overlaySection_object hmiddle, overlaySection_object (hthird upper rfl),
        overlaySection_object (Members.nodup_keys_overlay hmiddle upper)]
      show some (Value.object (Members.overlay (Members.overlay _ middle) upper)) = _
      rw [Members.overlay_assoc hmiddle]
    | _ =>
      -- whatever is below is replaced
      cases first with
      | none => rfl
      | some w => cases w <;> rfl

/-! ## Rules -/

/-- The keys of the sections that are overlaid. -/
def overlaidKeys : List String := ["componentColocation", "fileNaming"]

variable {base top first second third : Members Value}

theorem get?_mergeSections_overlaid (hbase : HaveDistinctKeys base) (htop : HaveDistinctKeys top)
    {key : String} (hkey : key ∈ overlaidKeys) :
    (mergeSections base top).get? key =
      overlaySection (base.get? key) (nonNull (top.get? key)) := by
  rw [get?_mergeSections hbase htop]
  simp only [overlaidKeys, List.mem_cons, List.not_mem_nil, or_false] at hkey
  rcases hkey with rfl | rfl
  · rw [if_pos rfl, present?_eq]
  · rw [if_neg (by decide), if_pos rfl, present?_eq]

theorem get?_mergeSections_folders (hbase : HaveDistinctKeys base) (htop : HaveDistinctKeys top) :
    (mergeSections base top).get? "folderStructure" =
      (nonNull (top.get? "folderStructure")).or (base.get? "folderStructure") := by
  rw [get?_mergeSections hbase htop, if_neg (by decide), if_neg (by decide), if_pos rfl,
    present?_eq]

theorem get?_mergeSections_other (hbase : HaveDistinctKeys base) (htop : HaveDistinctKeys top)
    {key : String} (hkey : key ∉ sectionKeys) :
    (mergeSections base top).get? key = (top.get? key).or (base.get? key) :=
  (mergesRules_mergeSections hbase htop).others key hkey

/-- A key of the rules is that of an overlaid section, that of the folders, or another one. -/
theorem ruleKey_cases (key : String) :
    key ∈ overlaidKeys ∨ key = "folderStructure" ∨ key ∉ sectionKeys := by
  by_cases hkey : key ∈ sectionKeys
  · simp only [sectionKeys, overlaidKeys, List.mem_cons, List.not_mem_nil, or_false] at hkey ⊢
    tauto
  · exact .inr (.inr hkey)

theorem nodup_of_get?_eq_object {members inner : Members Value} {key : String}
    (h : HaveDistinctKeys members) (hget : members.get? key = some (.object inner)) :
    (Members.keys inner).Nodup :=
  (hasDistinctKeys_object.mp (h.get? hget)).nodup

/-- The rules of three layers, key by key. -/
theorem get?_mergeSections_assoc (hfirst : HaveDistinctKeys first)
    (hsecond : HaveDistinctKeys second) (hthird : HaveDistinctKeys third)
    (h : ∀ key ∈ overlaidKeys, IsOverlayable (second.get? key)) (key : String) :
    (mergeSections (mergeSections first second) third).get? key =
      (mergeSections first (mergeSections second third)).get? key := by
  have hfront := haveDistinctKeys_mergeSections hfirst hsecond
  have hback := haveDistinctKeys_mergeSections hsecond hthird
  rcases ruleKey_cases key with hkey | rfl | hkey
  · rw [get?_mergeSections_overlaid hfront hthird hkey,
      get?_mergeSections_overlaid hfirst hsecond hkey,
      get?_mergeSections_overlaid hfirst hback hkey,
      get?_mergeSections_overlaid hsecond hthird hkey]
    exact overlaySection_assoc (h key hkey) (fun _ => nodup_of_get?_eq_object hsecond)
      fun _ => nodup_of_get?_eq_object hthird
  · rw [get?_mergeSections_folders hfront hthird, get?_mergeSections_folders hfirst hsecond,
      get?_mergeSections_folders hfirst hback, get?_mergeSections_folders hsecond hthird,
      nonNull_or, Option.or_assoc]
  · rw [get?_mergeSections_other hfront hthird hkey, get?_mergeSections_other hfirst hsecond hkey,
      get?_mergeSections_other hfirst hback hkey, get?_mergeSections_other hsecond hthird hkey,
      Option.or_assoc]

/-! ## Empty layers -/

/-- Whether a member is a section that is `null`. -/
def isNullSection : String × Value → Bool
  | (key, .null) => key ∈ sectionKeys
  | _ => false

/-- Rules without the sections that are `null`. -/
def withoutNullSections (rules : Members Value) : Members Value :=
  rules.filter fun m => !isNullSection m

theorem isNullSection_iff {key : String} {v : Value} :
    isNullSection (key, v) = true ↔ key ∈ sectionKeys ∧ v = .null := by
  cases v <;> simp [isNullSection]

theorem nonNull_eq_some_iff {found : Option Value} {v : Value} :
    nonNull found = some v ↔ found = some v ∧ v ≠ .null := by
  cases found with
  | none => simp [nonNull]
  | some w => cases w <;> simp [nonNull] <;> rintro rfl <;> simp

theorem nodup_keys_withoutNullSections (h : (Members.keys top).Nodup) :
    (Members.keys (withoutNullSections top)).Nodup :=
  h.sublist (List.filter_sublist.map _)

theorem get?_withoutNullSections (h : (Members.keys top).Nodup) (key : String) :
    (withoutNullSections top).get? key =
      if key ∈ sectionKeys then nonNull (top.get? key) else top.get? key := by
  apply Option.ext
  intro v
  rw [Members.get?_eq_some_iff (nodup_keys_withoutNullSections h), withoutNullSections,
    List.mem_filter, ← Members.get?_eq_some_iff h, Bool.not_eq_true', Bool.eq_false_iff, Ne,
    isNullSection_iff]
  split
  · next hkey => simp [nonNull_eq_some_iff, hkey]
  · next hkey => simp [hkey]

theorem mem_sectionKeys_of_overlaid {key : String} (h : key ∈ overlaidKeys) :
    key ∈ sectionKeys := by
  simp only [overlaidKeys, sectionKeys, List.mem_cons, List.not_mem_nil, or_false] at h ⊢
  tauto

/-- Rules laid on nothing: a section that is `null` counts as absent. -/
theorem get?_mergeSections_nil_left (htop : HaveDistinctKeys top) (key : String) :
    (mergeSections [] top).get? key = (withoutNullSections top).get? key := by
  rw [get?_withoutNullSections htop.nodup]
  rcases ruleKey_cases key with hkey | rfl | hkey
  · rw [get?_mergeSections_overlaid .nil htop hkey, if_pos (mem_sectionKeys_of_overlaid hkey)]
    show overlaySection none _ = _
    cases nonNull (top.get? key) <;> rfl
  · rw [get?_mergeSections_folders .nil htop, if_pos (by decide)]
    exact Option.or_none
  · rw [get?_mergeSections_other .nil htop hkey, if_neg hkey]
    exact Option.or_none

/-- Nothing laid on rules. -/
theorem get?_mergeSections_nil_right (hbase : HaveDistinctKeys base) (key : String) :
    (mergeSections base []).get? key = base.get? key := by
  rcases ruleKey_cases key with hkey | rfl | hkey
  · rw [get?_mergeSections_overlaid hbase .nil hkey]
    exact overlaySection_none _
  · rw [get?_mergeSections_folders hbase .nil]
    rfl
  · rw [get?_mergeSections_other hbase .nil hkey]
    rfl

/-! ## Configurations -/

/-- The rules of a configuration. -/
def rulesOf (config : Value) : Members Value := membersOf (part "rules" (membersOf config))

/-- The ignored globs of a configuration. -/
def ignoreOf (config : Value) : List Value := itemsOf (part "ignore" (membersOf config))

/-- The file naming rules of a configuration. -/
def fileNamingOf (config : Value) : Option Value := (rulesOf config).get? "fileNaming"

/-- The members of a configuration with rules and ignored globs, empty ones where it has none. -/
def completed (config : Value) : Members Value :=
  ((membersOf config).set "rules" (.object (withoutNullSections (rulesOf config)))).set "ignore"
    (.array (ignoreOf config))

theorem haveDistinctKeys_rulesOf {config : Value} (h : config.hasDistinctKeys = true) :
    HaveDistinctKeys (rulesOf config) :=
  haveDistinctKeys_membersOf (hasDistinctKeys_part (haveDistinctKeys_membersOf h) "rules")

/-- One look at a merged configuration, whatever the form of its layers. -/
theorem get?_membersOf_mergeConfig {lower upper : Value} (hlower : lower.hasDistinctKeys = true)
    (hupper : upper.hasDistinctKeys = true) (key : String) :
    (membersOf (mergeConfig lower upper)).get? key =
      if key = "rules" then some (.object (mergeSections (rulesOf lower) (rulesOf upper)))
      else if key = "ignore" then some (.array (ignoreOf lower ++ ignoreOf upper))
      else ((membersOf upper).get? key).or ((membersOf lower).get? key) :=
  get?_mergeConfig (haveDistinctKeys_membersOf hlower) (haveDistinctKeys_membersOf hupper) key

theorem rulesOf_mergeConfig {lower upper : Value} (hlower : lower.hasDistinctKeys = true)
    (hupper : upper.hasDistinctKeys = true) :
    rulesOf (mergeConfig lower upper) = mergeSections (rulesOf lower) (rulesOf upper) := by
  rw [rulesOf, part, get?_membersOf_mergeConfig hlower hupper, if_pos rfl]
  rfl

theorem ignoreOf_mergeConfig {lower upper : Value} (hlower : lower.hasDistinctKeys = true)
    (hupper : upper.hasDistinctKeys = true) :
    ignoreOf (mergeConfig lower upper) = ignoreOf lower ++ ignoreOf upper := by
  rw [ignoreOf, part, get?_membersOf_mergeConfig hlower hupper, if_neg (by decide), if_pos rfl]
  rfl

/-- Objects under whose keys the same stands are alike. -/
theorem alike_of_get?_eq (hbase : (Members.keys base).Nodup) (htop : (Members.keys top).Nodup)
    (h : ∀ key, base.get? key = top.get? key) : Alike (.object base) (.object top) := by
  refine (alike_object_iff hbase htop).mpr fun key => ?_
  rw [h key]
  exact relAlike_refl _

/-- Configurations are alike if the same stands under all keys, up to the order of the rules. -/
theorem alike_of_same_rules {lower upper : Members Value} (hbase : (Members.keys base).Nodup)
    (htop : (Members.keys top).Nodup) (hlower : (Members.keys lower).Nodup)
    (hupper : (Members.keys upper).Nodup) (hbaseRules : base.get? "rules" = some (.object lower))
    (htopRules : top.get? "rules" = some (.object upper))
    (hrules : ∀ key, lower.get? key = upper.get? key)
    (hothers : ∀ key, key ≠ "rules" → base.get? key = top.get? key) :
    Alike (.object base) (.object top) := by
  refine (alike_object_iff hbase htop).mpr fun key => ?_
  by_cases hkey : key = "rules"
  · rw [hkey, hbaseRules, htopRules]
    exact .some (alike_of_get?_eq hlower hupper hrules)
  · rw [hothers key hkey]
    exact relAlike_refl _

theorem mergeConfig_assoc {a b c : Value} (ha : a.hasDistinctKeys = true)
    (hb : b.hasDistinctKeys = true) (hc : c.hasDistinctKeys = true)
    (h : ∀ key ∈ overlaidKeys, IsOverlayable ((rulesOf b).get? key)) :
    Alike (mergeConfig (mergeConfig a b) c) (mergeConfig a (mergeConfig b c)) := by
  have hab := hasDistinctKeys_mergeConfig ha hb
  have hbc := hasDistinctKeys_mergeConfig hb hc
  have hleft := hasDistinctKeys_mergeConfig hab hc
  have hright := hasDistinctKeys_mergeConfig ha hbc
  have hleftRules := get?_membersOf_mergeConfig hab hc "rules"
  have hrightRules := get?_membersOf_mergeConfig ha hbc "rules"
  refine alike_of_same_rules (hasDistinctKeys_object.mp hleft).nodup
    (hasDistinctKeys_object.mp hright).nodup ?_ ?_ hleftRules hrightRules ?_ fun key hkey => ?_
  · exact (haveDistinctKeys_mergeSections (haveDistinctKeys_rulesOf hab)
      (haveDistinctKeys_rulesOf hc)).nodup
  · exact (haveDistinctKeys_mergeSections (haveDistinctKeys_rulesOf ha)
      (haveDistinctKeys_rulesOf hbc)).nodup
  · rw [rulesOf_mergeConfig ha hb, rulesOf_mergeConfig hb hc]
    exact get?_mergeSections_assoc (haveDistinctKeys_rulesOf ha) (haveDistinctKeys_rulesOf hb)
      (haveDistinctKeys_rulesOf hc) h
  · show (membersOf (mergeConfig (mergeConfig a b) c)).get? key =
      (membersOf (mergeConfig a (mergeConfig b c))).get? key
    rw [get?_membersOf_mergeConfig hab hc, get?_membersOf_mergeConfig ha hbc, if_neg hkey,
      if_neg hkey]
    by_cases hignore : key = "ignore"
    · rw [if_pos hignore, if_pos hignore, ignoreOf_mergeConfig ha hb, ignoreOf_mergeConfig hb hc,
        List.append_assoc]
    · rw [if_neg hignore, if_neg hignore, get?_membersOf_mergeConfig ha hb,
        get?_membersOf_mergeConfig hb hc, if_neg hkey, if_neg hkey, if_neg hignore,
        if_neg hignore, Option.or_assoc]

/-- The file naming rules of three layers, with their order. -/
theorem fileNamingOf_mergeConfig_assoc {a b c : Value} (ha : a.hasDistinctKeys = true)
    (hb : b.hasDistinctKeys = true) (hc : c.hasDistinctKeys = true)
    (h : ∀ key ∈ overlaidKeys, IsOverlayable ((rulesOf b).get? key)) :
    fileNamingOf (mergeConfig (mergeConfig a b) c) =
      fileNamingOf (mergeConfig a (mergeConfig b c)) := by
  unfold fileNamingOf
  rw [rulesOf_mergeConfig (hasDistinctKeys_mergeConfig ha hb) hc, rulesOf_mergeConfig ha hb,
    rulesOf_mergeConfig ha (hasDistinctKeys_mergeConfig hb hc), rulesOf_mergeConfig hb hc]
  exact get?_mergeSections_assoc (haveDistinctKeys_rulesOf ha) (haveDistinctKeys_rulesOf hb)
    (haveDistinctKeys_rulesOf hc) h "fileNaming"

theorem get?_completed (config : Value) (key : String) :
    (completed config).get? key =
      if key = "rules" then some (.object (withoutNullSections (rulesOf config)))
      else if key = "ignore" then some (.array (ignoreOf config))
      else (membersOf config).get? key := by
  rw [completed, Members.get?_set, Members.get?_set]
  grind

/-- The empty configuration below another one. -/
theorem mergeConfig_empty_left {u : Value} (hu : u.hasDistinctKeys = true) :
    Alike (mergeConfig (.object []) u) (.object (completed u)) := by
  have hempty : (Value.object []).hasDistinctKeys = true := rfl
  have hrules := haveDistinctKeys_rulesOf hu
  have hmerged := hasDistinctKeys_object.mp (hasDistinctKeys_mergeConfig hempty hu)
  refine alike_of_same_rules hmerged.nodup ?_ ?_ (nodup_keys_withoutNullSections hrules.nodup)
    (get?_membersOf_mergeConfig hempty hu "rules") (get?_completed u "rules")
    (get?_mergeSections_nil_left hrules) fun key hkey => ?_
  · exact Members.nodup_keys_set
      (Members.nodup_keys_set (haveDistinctKeys_membersOf hu).nodup _ _) _ _
  · exact (haveDistinctKeys_mergeSections .nil hrules).nodup
  · show (membersOf (mergeConfig (.object []) u)).get? key = _
    rw [get?_membersOf_mergeConfig hempty hu, get?_completed, if_neg hkey, if_neg hkey]
    by_cases hignore : key = "ignore"
    · rw [if_pos hignore, if_pos hignore]
      rfl
    · rw [if_neg hignore, if_neg hignore]
      exact Option.or_none

/-- The empty configuration on top of one that has rules and ignored globs. -/
theorem mergeConfig_empty_right {members rules : Members Value} {items : List Value}
    (h : (Value.object members).hasDistinctKeys = true)
    (hrules : members.get? "rules" = some (.object rules))
    (hignore : members.get? "ignore" = some (.array items)) :
    Alike (mergeConfig (.object members) (.object [])) (.object members) := by
  have hempty : (Value.object []).hasDistinctKeys = true := rfl
  have hmembers := hasDistinctKeys_object.mp h
  have hdistinct := hasDistinctKeys_object.mp (hmembers.get? hrules)
  have hmerged := hasDistinctKeys_object.mp (hasDistinctKeys_mergeConfig h hempty)
  have hparts : rulesOf (.object members) = rules ∧ ignoreOf (.object members) = items := by
    simp [rulesOf, ignoreOf, membersOf, part, hrules, hignore, itemsOf]
  refine alike_of_same_rules hmerged.nodup hmembers.nodup ?_ hdistinct.nodup
    (get?_membersOf_mergeConfig h hempty "rules") hrules ?_ fun key hkey => ?_
  · exact (haveDistinctKeys_mergeSections (haveDistinctKeys_rulesOf h) .nil).nodup
  · rw [hparts.1]
    exact get?_mergeSections_nil_right hdistinct
  · show (membersOf (mergeConfig (.object members) (.object []))).get? key = _
    rw [get?_membersOf_mergeConfig h hempty, if_neg hkey]
    by_cases hkey' : key = "ignore"
    · rw [if_pos hkey', hkey', hignore, hparts.2]
      exact congrArg (fun items => some (Value.array items)) (List.append_nil items)
    · rw [if_neg hkey']
      rfl

/-- Up to the order of keys, merging is associative where the sections in the middle layer that are
overlaid are absent, `null` or objects, and then the file naming rules agree with their order.  A
configuration laid on the empty one gets rules and ignored globs if it has none of the right form,
and loses the sections that are `null`.  The empty configuration laid on one that has both changes
nothing. -/
theorem mergeConfig_assoc_and_identity :
    (∀ a b c : Value, a.hasDistinctKeys = true → b.hasDistinctKeys = true →
      c.hasDistinctKeys = true → (∀ key ∈ overlaidKeys, IsOverlayable ((rulesOf b).get? key)) →
        Alike (mergeConfig (mergeConfig a b) c) (mergeConfig a (mergeConfig b c)) ∧
        fileNamingOf (mergeConfig (mergeConfig a b) c) =
          fileNamingOf (mergeConfig a (mergeConfig b c))) ∧
    (∀ u : Value, u.hasDistinctKeys = true →
      Alike (mergeConfig (.object []) u) (.object (completed u))) ∧
    ∀ (members rules : Members Value) (items : List Value),
      (Value.object members).hasDistinctKeys = true →
      members.get? "rules" = some (.object rules) → members.get? "ignore" = some (.array items) →
        Alike (mergeConfig (.object members) (.object [])) (.object members) :=
  ⟨fun _ _ _ ha hb hc h =>
      ⟨mergeConfig_assoc ha hb hc h, fileNamingOf_mergeConfig_assoc ha hb hc h⟩,
    fun _ => mergeConfig_empty_left, fun _ _ _ => mergeConfig_empty_right⟩

/-- A pattern for which the preset has a rule. -/
def hooksGlob : String := "src/hooks/**/*.\x7bts,tsx,js,jsx\x7d"

/-- A configuration with a new pattern and one of the preset. -/
def hookNaming : Value :=
  .object
    [("rules", .object
      [("fileNaming", .object
        [("src/api/**", .object [("convention", .string "kebab-case")]),
          (hooksGlob, .object [("convention", .string "kebab-case")])])]),
      ("ignore", .array [.string "dist"])]

theorem mergeConfig_assoc_and_identity_hooks :
    (∀ key ∈ overlaidKeys, IsOverlayable ((rulesOf overrides).get? key)) ∧
      Alike (mergeConfig (mergeConfig Preset.react.value overrides) hookNaming)
        (mergeConfig Preset.react.value (mergeConfig overrides hookNaming)) ∧
      fileNamingOf (mergeConfig (mergeConfig Preset.react.value overrides) hookNaming) =
        fileNamingOf (mergeConfig Preset.react.value (mergeConfig overrides hookNaming)) ∧
      Alike (mergeConfig (.object []) overrides) (.object (completed overrides)) ∧
      Alike (mergeConfig hookNaming (.object [])) hookNaming := by
  obtain ⟨hassoc, hleft, hright⟩ := mergeConfig_assoc_and_identity
  have hoverlayable : ∀ key ∈ overlaidKeys, IsOverlayable ((rulesOf overrides).get? key) := by
    intro key hkey
    simp only [overlaidKeys, List.mem_cons, List.not_mem_nil, or_false] at hkey
    rcases hkey with rfl | rfl
    · exact .inr ⟨_, rfl⟩
    · exact .inl (.inr rfl)
  obtain ⟨halike, hnaming⟩ :=
    hassoc Preset.react.value overrides hookNaming (by decide) (by decide) (by decide) hoverlayable
  exact ⟨hoverlayable, halike, hnaming, hleft overrides (by decide),
    hright _ _ _ (by decide) rfl rfl⟩

/-! ## Presets -/

/-- The value that is read as a configuration: the one that is given, merged over the preset that it
names, if there is such a preset. -/
def mergedValue? (v : Value) : Option Value :=
  match v.get? "preset" with
  | some (.string name) => (Preset.find? name).map fun preset => mergeConfig preset.value v
  | _ => some v

theorem toOption_ofValue (v : Value) :
    (Config.ofValue v).toOption =
      (mergedValue? v).bind fun merged => (Decode.readConfig merged).toOption := by
  have hinvalid (x : Except Decode.DecodeError Config) :
      (x.mapError LoadError.invalid).toOption = x.toOption := by
    cases x <;> rfl
  unfold Config.ofValue mergedValue?
  generalize v.get? "preset" = found
  cases found with
  | none => exact hinvalid _
  | some named =>
    cases named with
    | string name =>
      cases hfind : Preset.find? name with
      | none =>
        simp only [hfind]
        rfl
      | some preset =>
        simp only [hfind]
        exact hinvalid _
    | _ => exact hinvalid _

theorem hasDistinctKeys_preset {name : String} {preset : Preset}
    (h : Preset.find? name = some preset) : preset.value.hasDistinctKeys = true := by
  have hall : ∀ preset ∈ Preset.all, preset.value.hasDistinctKeys = true := by decide
  exact hall preset (List.mem_of_find?_eq_some h)

theorem get?_eq_get?_membersOf (v : Value) (key : String) :
    v.get? key = (membersOf v).get? key := by
  cases v <;> rfl

theorem mergedValue?_of_ne {u : Value} (h : ∀ name, u.get? "preset" ≠ some (.string name)) :
    mergedValue? u = some u := by
  unfold mergedValue?
  split
  · next name hname => exact absurd hname (h name)
  · rfl

theorem readConfig_of_ofValue {u merged : Value} {config : Config}
    (hmerged : mergedValue? u = some merged) (h : Config.ofValue u = .ok config) :
    Decode.readConfig merged = .ok config := by
  have hoption := toOption_ofValue u
  rw [h, hmerged, Option.bind_some] at hoption
  exact eq_ok_of_toOption hoption.symm

/-- Every preset has file naming rules. -/
theorem exists_fileNamingOf_preset {name : String} {preset : Preset}
    (h : Preset.find? name = some preset) :
    ∃ own, fileNamingOf preset.value = some (.object own) := by
  have hall : ∀ preset ∈ Preset.all, ∃ own, fileNamingOf preset.value = some (.object own) := by
    intro preset hpreset
    obtain rfl := List.mem_singleton.mp hpreset
    exact ⟨_, rfl⟩
  exact hall preset (List.mem_of_find?_eq_some h)

end ProjectLayout.Merge
