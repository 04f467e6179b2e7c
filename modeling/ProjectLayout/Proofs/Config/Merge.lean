import ProjectLayout.Config.Merge
import ProjectLayout.Config.Preset
import ProjectLayout.Proofs.Json.Distinct

/-!
# What merging keeps and what it replaces

A configuration merged over a base has the keys of both.  What stands under a key is said key by
key, with `null` counting as absent in the sections of the rules only.  Both sides are documents
with distinct keys, as every document that is read is.

* `Overlays`, `Replaces` — the value of a section, from that of the base and that on top.
* `MergesRules`, `MergesConfig` — the rules and the whole configuration, key by key.
* `get?_mergeSections`, `get?_mergeConfig` — one look at the merged rules and configuration.
* `mergeConfig_merges` — merging does what these say, on every two documents.
-/

namespace ProjectLayout.Merge

open Json

/-! ## What stands under a key -/

/-- The members of what may stand under a key: none where no object stands. -/
inductive HoldsMembers : Option Value → Members Value → Prop where
  | object (members : Members Value) : HoldsMembers (some (.object members)) members
  | other {found : Option Value} (h : ∀ members, found ≠ some (.object members)) :
      HoldsMembers found []

/-- The items of what may stand under a key: none where no array stands. -/
inductive HoldsItems : Option Value → List Value → Prop where
  | array (items : List Value) : HoldsItems (some (.array items)) items
  | other {found : Option Value} (h : ∀ items, found ≠ some (.array items)) : HoldsItems found []

/-- Whether nothing stands under a key, or `null`. -/
def IsAbsent (found : Option Value) : Prop := found = none ∨ found = some .null

/-- The value of a section that is put together key by key. -/
inductive Overlays : Option Value → Option Value → Option Value → Prop where
  | absent {base top : Option Value} (h : IsAbsent top) : Overlays base top base
  | objects {lower upper merged : Members Value}
      (h : ∀ key, merged.get? key = (upper.get? key).or (lower.get? key)) :
      Overlays (some (.object lower)) (some (.object upper)) (some (.object merged))
  | replaced {base top : Option Value} (htop : ¬ IsAbsent top)
      (h : ∀ lower upper, ¬ (base = some (.object lower) ∧ top = some (.object upper))) :
      Overlays base top top

/-- The value of a section that is replaced as a whole. -/
inductive Replaces : Option Value → Option Value → Option Value → Prop where
  | absent {base top : Option Value} (h : IsAbsent top) : Replaces base top base
  | replaced {base top : Option Value} (htop : ¬ IsAbsent top) : Replaces base top top

/-! ## Rules and configurations -/

/-- The keys of the sections that have a rule of their own. -/
def sectionKeys : List String := ["componentColocation", "fileNaming", "folderStructure"]

/-- What is under the keys of merged rules. -/
structure MergesRules (base top merged : Members Value) : Prop where
  colocation : Overlays (base.get? "componentColocation") (top.get? "componentColocation")
    (merged.get? "componentColocation")
  fileNaming : Overlays (base.get? "fileNaming") (top.get? "fileNaming") (merged.get? "fileNaming")
  folders : Replaces (base.get? "folderStructure") (top.get? "folderStructure")
    (merged.get? "folderStructure")
  others : ∀ key, key ∉ sectionKeys → merged.get? key = (top.get? key).or (base.get? key)

/-- What is under the keys of a merged configuration. -/
structure MergesConfig (base top merged : Members Value) : Prop where
  rules : ∃ lower upper rules, HoldsMembers (base.get? "rules") lower ∧
    HoldsMembers (top.get? "rules") upper ∧ merged.get? "rules" = some (.object rules) ∧
    MergesRules lower upper rules
  ignore : ∃ first second, HoldsItems (base.get? "ignore") first ∧
    HoldsItems (top.get? "ignore") second ∧ merged.get? "ignore" = some (.array (first ++ second))
  others : ∀ key, key ≠ "rules" → key ≠ "ignore" →
    merged.get? key = (top.get? key).or (base.get? key)

/-! ## Looking at one side -/

theorem holdsMembers_membersOf (v : Value) : HoldsMembers (some v) (membersOf v) := by
  cases v with
  | object members => exact .object members
  | _ => exact .other fun members h => nomatch h

theorem holdsMembers_part (key : String) (members : Members Value) :
    HoldsMembers (members.get? key) (membersOf (part key members)) := by
  unfold part
  cases members.get? key with
  | none => exact .other fun members h => nomatch h
  | some v => exact holdsMembers_membersOf v

theorem holdsItems_part (key : String) (members : Members Value) :
    HoldsItems (members.get? key) (itemsOf (part key members)) := by
  unfold part
  cases members.get? key with
  | none => exact .other fun items h => nomatch h
  | some v =>
    cases v with
    | array items => exact .array items
    | _ => exact .other fun items h => nomatch h

theorem present?_of_isAbsent {key : String} {members : Members Value}
    (h : IsAbsent (members.get? key)) : present? key members = none := by
  unfold present?
  rcases h with h | h <;> rw [h]

theorem present?_of_not_isAbsent {key : String} {members : Members Value}
    (h : ¬ IsAbsent (members.get? key)) : present? key members = members.get? key := by
  unfold present?
  split
  · next hnull => exact absurd (.inr hnull) h
  · rfl

theorem get?_of_present? {key : String} {members : Members Value} {v : Value}
    (h : present? key members = some v) : members.get? key = some v := by
  by_cases habsent : IsAbsent (members.get? key)
  · rw [present?_of_isAbsent habsent] at h
    cases h
  · rw [← h, present?_of_not_isAbsent habsent]

variable {base top : Members Value}

theorem haveDistinctKeys_membersOf {v : Value} (h : v.hasDistinctKeys = true) :
    HaveDistinctKeys (membersOf v) := by
  cases v with
  | object members => exact hasDistinctKeys_object.mp h
  | _ => exact .nil

theorem hasDistinctKeys_part (h : HaveDistinctKeys base) (key : String) :
    (part key base).hasDistinctKeys = true := by
  unfold part
  cases hv : base.get? key with
  | none => rfl
  | some v => exact h.get? hv

theorem hasDistinctKeys_of_mem_itemsOf {v item : Value} (h : v.hasDistinctKeys = true)
    (hi : item ∈ itemsOf v) : item.hasDistinctKeys = true := by
  cases v with
  | array items => exact hasDistinctKeys_array.mp h item hi
  | _ => exact absurd hi List.not_mem_nil

/-! ## Sections -/

theorem overlaySection_none (base : Option Value) : overlaySection base none = base := by
  cases base with
  | none => rfl
  | some v => cases v <;> rfl

theorem overlays_overlaySection (htop : HaveDistinctKeys top) (base : Option Value) (key : String) :
    Overlays base (top.get? key) (overlaySection base (present? key top)) := by
  by_cases habsent : IsAbsent (top.get? key)
  · rw [present?_of_isAbsent habsent, overlaySection_none]
    exact .absent habsent
  rw [present?_of_not_isAbsent habsent]
  unfold overlaySection
  split
  · next lower upper hupper =>
    rw [hupper]
    have hnodup := (hasDistinctKeys_object.mp (htop.get? hupper)).nodup
    exact .objects fun k => Members.get?_overlay hnodup lower k
  · next hnone => exact absurd (.inl hnone) habsent
  · next v hother hv =>
    rw [hv] at habsent ⊢
    refine .replaced habsent ?_
    rintro lower upper ⟨rfl, hupper⟩
    exact hother lower upper rfl (Option.some.inj hupper)

theorem replaces_present? (base : Option Value) (key : String) :
    Replaces base (top.get? key) ((present? key top).or base) := by
  by_cases habsent : IsAbsent (top.get? key)
  · rw [present?_of_isAbsent habsent]
    exact .absent habsent
  · rw [present?_of_not_isAbsent habsent]
    cases hv : top.get? key with
    | none => exact absurd (.inl hv) habsent
    | some v => exact .replaced (hv ▸ habsent)

theorem hasDistinctKeys_overlaySection {lower upper : Option Value} {v : Value}
    (hlower : ∀ w, lower = some w → w.hasDistinctKeys = true)
    (hupper : ∀ w, upper = some w → w.hasDistinctKeys = true)
    (h : overlaySection lower upper = some v) : v.hasDistinctKeys = true := by
  unfold overlaySection at h
  split at h
  · obtain rfl := Option.some.inj h
    have hbase := hasDistinctKeys_object.mp (hlower _ rfl)
    exact hasDistinctKeys_object.mpr
      (hbase.overlay (hasDistinctKeys_object.mp (hupper _ rfl)).values)
  · exact hlower v h
  · exact hupper v h

theorem get?_setPresent (key : String) (found : Option Value) (members : Members Value)
    (k : String) :
    (setPresent key found members).get? k =
      if key = k then found.or (members.get? k) else members.get? k := by
  cases found with
  | none => simp [setPresent]
  | some v => simp [setPresent, Members.get?_set]

theorem haveDistinctKeys_setPresent (h : HaveDistinctKeys base) (key : String)
    {found : Option Value} (hfound : ∀ v, found = some v → v.hasDistinctKeys = true) :
    HaveDistinctKeys (setPresent key found base) := by
  cases found with
  | none => exact h
  | some v => exact h.set key (hfound v rfl)

/-! ## Rules -/

/-- Members without the sections that are put together key by key. -/
theorem get?_erase_erase (h : HaveDistinctKeys base) (key : String) :
    ((base.erase "componentColocation").erase "fileNaming").get? key =
      if key = "componentColocation" ∨ key = "fileNaming" then none else base.get? key := by
  rw [Members.get?_erase (h.erase _).nodup, Members.get?_erase h.nodup]
  grind

theorem get?_mergeSections (hbase : HaveDistinctKeys base) (htop : HaveDistinctKeys top)
    (key : String) :
    (mergeSections base top).get? key =
      if key = "componentColocation" then
        overlaySection (base.get? "componentColocation") (present? "componentColocation" top)
      else if key = "fileNaming" then
        overlaySection (base.get? "fileNaming") (present? "fileNaming" top)
      else if key = "folderStructure" then
        (present? "folderStructure" top).or (base.get? "folderStructure")
      else (top.get? key).or (base.get? key) := by
  have hbelow := (hbase.erase "componentColocation").erase "fileNaming"
  have habove := (htop.erase "componentColocation").erase "fileNaming"
  have hrest := habove.erase "folderStructure"
  unfold mergeSections
  -- Folders of the base that are replaced stay among its members, below those put in at the end.
  cases present? "folderStructure" top with
  | none =>
    simp only [get?_setPresent, Members.get?_overlay hrest.nodup, Members.get?_erase habove.nodup,
      Members.get?_erase hbelow.nodup, get?_erase_erase hbase, get?_erase_erase htop]
    grind
  | some list =>
    simp only [get?_setPresent, Members.get?_overlay hrest.nodup, Members.get?_erase habove.nodup,
      get?_erase_erase hbase, get?_erase_erase htop]
    grind

theorem haveDistinctKeys_mergeSections (hbase : HaveDistinctKeys base)
    (htop : HaveDistinctKeys top) : HaveDistinctKeys (mergeSections base top) := by
  have hbelow := (hbase.erase "componentColocation").erase "fileNaming"
  have habove := (htop.erase "componentColocation").erase "fileNaming"
  have hrest := habove.erase "folderStructure"
  have hover (key : String) (v : Value)
      (h : overlaySection (base.get? key) (present? key top) = some v) :
      v.hasDistinctKeys = true :=
    hasDistinctKeys_overlaySection (fun w hw => hbase.get? hw)
      (fun w hw => htop.get? (get?_of_present? hw)) h
  unfold mergeSections
  cases hfolders : present? "folderStructure" top with
  | none =>
    refine haveDistinctKeys_setPresent ?_ _ fun v hv => hbelow.get? hv
    refine haveDistinctKeys_setPresent ?_ _ (hover _)
    refine haveDistinctKeys_setPresent ?_ _ (hover _)
    exact (hbelow.erase _).overlay hrest.values
  | some list =>
    refine haveDistinctKeys_setPresent ?_ _ fun v hv => ?_
    · refine haveDistinctKeys_setPresent ?_ _ (hover _)
      refine haveDistinctKeys_setPresent ?_ _ (hover _)
      exact hbelow.overlay hrest.values
    · obtain rfl := Option.some.inj hv
      exact htop.get? (get?_of_present? hfolders)

theorem mergesRules_mergeSections (hbase : HaveDistinctKeys base) (htop : HaveDistinctKeys top) :
    MergesRules base top (mergeSections base top) where
  colocation := by
    rw [get?_mergeSections hbase htop]
    exact overlays_overlaySection htop _ _
  fileNaming := by
    rw [get?_mergeSections hbase htop]
    exact overlays_overlaySection htop _ _
  folders := by
    rw [get?_mergeSections hbase htop]
    exact replaces_present? _ _
  others key hkey := by
    simp only [sectionKeys, List.mem_cons, List.not_mem_nil, or_false, not_or] at hkey
    rw [get?_mergeSections hbase htop, if_neg hkey.1, if_neg hkey.2.1, if_neg hkey.2.2]

/-! ## Configurations -/

theorem hasDistinctKeys_mergeConfig {lower upper : Value} (hlower : lower.hasDistinctKeys = true)
    (hupper : upper.hasDistinctKeys = true) : (mergeConfig lower upper).hasDistinctKeys = true := by
  have hbase := haveDistinctKeys_membersOf hlower
  have htop := haveDistinctKeys_membersOf hupper
  have hrules := haveDistinctKeys_mergeSections
    (haveDistinctKeys_membersOf (hasDistinctKeys_part hbase "rules"))
    (haveDistinctKeys_membersOf (hasDistinctKeys_part htop "rules"))
  have hignore : (Value.array (itemsOf (part "ignore" (membersOf lower)) ++
      itemsOf (part "ignore" (membersOf upper)))).hasDistinctKeys = true := by
    refine hasDistinctKeys_array.mpr fun item hi => ?_
    rcases List.mem_append.mp hi with hi | hi
    · exact hasDistinctKeys_of_mem_itemsOf (hasDistinctKeys_part hbase _) hi
    · exact hasDistinctKeys_of_mem_itemsOf (hasDistinctKeys_part htop _) hi
  unfold mergeConfig
  refine hasDistinctKeys_object.mpr (.set (.set ?_ _ ?_) _ hignore)
  · exact ((hbase.erase _).erase _).overlay ((htop.erase _).erase _).values
  · exact hasDistinctKeys_object.mpr hrules

/-- Members without the parts that are put together. -/
theorem get?_erase_parts (h : HaveDistinctKeys base) {key : String} (hrules : key ≠ "rules")
    (hignore : key ≠ "ignore") :
    ((base.erase "rules").erase "ignore").get? key = base.get? key := by
  rw [Members.get?_erase (h.erase _).nodup, if_neg (Ne.symm hignore), Members.get?_erase h.nodup,
    if_neg (Ne.symm hrules)]

theorem get?_mergeConfig (hbase : HaveDistinctKeys base) (htop : HaveDistinctKeys top)
    (key : String) :
    (mergeConfig (.object base) (.object top)).get? key =
      if key = "rules" then
        some (.object
          (mergeSections (membersOf (part "rules" base)) (membersOf (part "rules" top))))
      else if key = "ignore" then
        some (.array (itemsOf (part "ignore" base) ++ itemsOf (part "ignore" top)))
      else (top.get? key).or (base.get? key) := by
  have habove := (htop.erase "rules").erase "ignore"
  have hobject (members : Members Value) : membersOf (.object members) = members := rfl
  simp only [mergeConfig, hobject, Value.get?, Members.get?_set]
  by_cases hrules : key = "rules"
  · subst hrules
    rfl
  by_cases hignore : key = "ignore"
  · subst hignore
    rfl
  rw [if_neg hrules, if_neg hignore, if_neg (Ne.symm hignore), if_neg (Ne.symm hrules),
    Members.get?_overlay habove.nodup, get?_erase_parts htop hrules hignore,
    get?_erase_parts hbase hrules hignore]

/-- A merged configuration has the keys of both sides, with the value on top where both have one;
its rules are merged section by section and the ignored globs put together.  A side that is no
object counts as an empty one. -/
theorem mergeConfig_merges (base top : Value) (hbase : base.hasDistinctKeys = true)
    (htop : top.hasDistinctKeys = true) :
    ∃ lower upper merged, HoldsMembers (some base) lower ∧ HoldsMembers (some top) upper ∧
      mergeConfig base top = .object merged ∧ (Value.object merged).hasDistinctKeys = true ∧
      MergesConfig lower upper merged := by
  have hlower := haveDistinctKeys_membersOf hbase
  have hupper := haveDistinctKeys_membersOf htop
  refine ⟨membersOf base, membersOf top, _, holdsMembers_membersOf base, holdsMembers_membersOf top,
    rfl, hasDistinctKeys_mergeConfig hbase htop, ?_⟩
  constructor
  case rules =>
    refine ⟨_, _, _, holdsMembers_part "rules" _, holdsMembers_part "rules" _, ?_,
      mergesRules_mergeSections (haveDistinctKeys_membersOf (hasDistinctKeys_part hlower _))
        (haveDistinctKeys_membersOf (hasDistinctKeys_part hupper _))⟩
    rw [Members.get?_set, if_neg (by decide), Members.get?_set, if_pos rfl]
  case ignore =>
    refine ⟨_, _, holdsItems_part "ignore" _, holdsItems_part "ignore" _, ?_⟩
    rw [Members.get?_set, if_pos rfl]
  case others =>
    intro key hrules hignore
    have habove := (hupper.erase "rules").erase "ignore"
    rw [Members.get?_set, if_neg (Ne.symm hignore), Members.get?_set, if_neg (Ne.symm hrules),
      Members.get?_overlay habove.nodup, get?_erase_parts hlower hrules hignore,
      get?_erase_parts hupper hrules hignore]

/-- A configuration that changes a part of each section: one key of an object, a section that is
`null`, one of a wrong type, ignored globs that are no list, a key that nothing reads. -/
def overrides : Value :=
  .object
    [("preset", .string "react"), ("severity", .null), ("ignore", .string "dist"),
      ("rules", .object
        [("fileNaming", .null), ("folderStructure", .bool false), ("extra", .integer 1),
          ("componentColocation", .object [("enabled", .bool false)])])]

theorem mergeConfig_overrides_merges :
    Preset.react.value.hasDistinctKeys = true ∧ overrides.hasDistinctKeys = true ∧
      ∃ lower upper merged, HoldsMembers (some Preset.react.value) lower ∧
        HoldsMembers (some overrides) upper ∧
        mergeConfig Preset.react.value overrides = .object merged ∧
        (Value.object merged).hasDistinctKeys = true ∧ MergesConfig lower upper merged :=
  have hreact : Preset.react.value.hasDistinctKeys = true := by decide
  have hover : overrides.hasDistinctKeys = true := by decide
  ⟨hreact, hover, mergeConfig_merges Preset.react.value overrides hreact hover⟩

end ProjectLayout.Merge
