import ProjectLayout.Proofs.Config.Layers
import ProjectLayout.Proofs.Config.Record
import ProjectLayout.Proofs.Json.Repeated

/-!
# The order of file naming rules

Rules are checked in order, so the order in which they are configured shows in the findings.  It is
the order of the document, after the rules of a preset, and it is not disturbed by the merge.

* `SaysRule` — what the body of a rule says.
* `ReadsRules` — rules that are read from members, in their order.
* `fileNamingAt` — the value that holds the rules of a configuration.
* `rules_in_order` — the rules of every configuration that is read, with and without a preset.
-/

namespace ProjectLayout

open Json
open Naming (Convention)

/-! ## One rule -/

namespace Decode

/-- What may be said about the severity of a rule: nothing, or a severity in one of its two
forms. -/
inductive SaysSeverity : Option Value → Option Severity → Prop where
  | nothing {found : Option Value} (h : Merge.IsAbsent found) : SaysSeverity found none
  | name {name : String} {severity : Severity} (h : severityOf name = .ok severity) :
      SaysSeverity (some (.string name)) (some severity)
  | key {name : String} {severity : Severity} (h : severityOf name = .ok severity) :
      SaysSeverity (some (.object [(name, .null)])) (some severity)

/-- What the body of a rule says, as an object or as an array. -/
structure SaysRule (body : Value) (rule : FileNamingRule) : Prop where
  convention : ∃ spelling, valueAt fileNamingFields "convention" body = some (.string spelling) ∧
    rule.convention = .ofSpelling spelling
  severity : SaysSeverity (valueAt fileNamingFields "severity" body) rule.severity

theorem exists_of_readConvention {v : Value} {convention : Convention}
    (h : readConvention v = .ok convention) :
    ∃ spelling, v = .string spelling ∧ convention = .ofSpelling spelling := by
  cases v with
  | string spelling => exact ⟨spelling, rfl, (Except.ok.inj h).symm⟩
  | _ => cases h

theorem saysSeverity_of_readSeverity {v : Value} {severity : Severity}
    (h : readSeverity v = .ok severity) : SaysSeverity (some v) (some severity) := by
  cases v with
  | string name => exact .name h
  | object members =>
    match members with
    | [] => cases h
    | _ :: _ :: _ => cases h
    | [(name, v)] =>
      by_cases hv : v = .null
      · subst hv
        refine .key ?_
        cases hname : severityOf name with
        | error e => simp [readSeverity, hname] at h
        | ok s => simpa [readSeverity, hname] using h
      · have hnone := toOption_readSeverity_single name hv
        rw [h] at hnone
        cases hnone
  | _ => cases h

theorem saysSeverity_of_readOption {v : Value} {severity : Option Severity}
    (h : readOption readSeverity v = .ok severity) : SaysSeverity (some v) severity := by
  obtain ⟨rfl, rfl⟩ | ⟨s, hread, rfl⟩ := readOption_cases h
  · exact .nothing (.inr rfl)
  · exact saysSeverity_of_readSeverity hread

theorem keeps_fileNamingFields :
    (∀ f ∈ fileNamingFields, f.Keeps FileNamingRule.pattern) ∧
    (∀ f ∈ fileNamingFields, f.key ≠ "convention" → f.Keeps FileNamingRule.convention) ∧
    ∀ f ∈ fileNamingFields, f.key ≠ "severity" → f.Keeps FileNamingRule.severity := by
  simp only [fileNamingFields, List.forall_mem_cons, List.not_mem_nil, false_imp_iff, implies_true,
    and_true]
  and_intros
  · exact Field.keeps fun _ _ => rfl
  · exact Field.keeps fun _ _ => rfl
  · exact fun h => absurd rfl h
  · exact fun _ => Field.keeps fun _ _ => rfl
  · exact fun _ => Field.keeps fun _ _ => rfl
  · exact fun h => absurd rfl h

theorem saysRule_of_readFileNamingRule {pattern : String} {body : Value} {rule : FileNamingRule}
    (hbody : body.hasDistinctKeys = true) (h : readFileNamingRule pattern body = .ok rule) :
    rule.pattern = pattern ∧ SaysRule body rule := by
  obtain ⟨hpattern, hconvention, hseverity⟩ := keeps_fileNamingFields
  refine ⟨get_of_readRecord independent_fileNamingFields hpattern hbody h, ?_, ?_⟩
  · obtain ⟨-, hrequired, -⟩ | ⟨v, hv, hread⟩ := part_of_readRecord independent_fileNamingFields
      List.mem_cons_self (Field.puts _ _ _ _) (fun _ _ => rfl) hconvention hbody h
    · cases hrequired
    · obtain ⟨spelling, rfl, hspelling⟩ := exists_of_readConvention hread
      exact ⟨spelling, hv, hspelling⟩
  · obtain ⟨hnone, -, hkept⟩ | ⟨v, hv, hread⟩ := part_of_readRecord independent_fileNamingFields
      (List.mem_cons_of_mem _ List.mem_cons_self) (Field.puts _ _ _ _) (fun _ _ => rfl) hseverity
      hbody h
    · rw [hkept]
      exact .nothing (.inl hnone)
    · exact hv ▸ saysSeverity_of_readOption hread

/-! ## All rules -/

/-- Rules that are read from members: one for each of them, in their order, with what it says. -/
structure ReadsRules (members : Members Value) (rules : List FileNamingRule) : Prop where
  patterns : rules.map FileNamingRule.pattern = members.keys
  bodies : ∀ rule ∈ rules, ∃ body, members.get? rule.pattern = some body ∧ SaysRule body rule

theorem says_of_forall₂ {members : Members Value} {rules : List FileNamingRule}
    (hvalues : ∀ m ∈ members, m.2.hasDistinctKeys = true)
    (h : List.Forall₂ (fun m rule => readFileNamingRule m.1 m.2 = .ok rule) members rules) :
    rules.map FileNamingRule.pattern = Members.keys members ∧
      ∀ rule ∈ rules, ∃ body, (rule.pattern, body) ∈ members ∧ SaysRule body rule := by
  induction h with
  | nil => exact ⟨rfl, nofun⟩
  | @cons m rule members rules hfirst _ ih =>
    obtain ⟨hvalue, hmore⟩ := List.forall_mem_cons.mp hvalues
    obtain ⟨hpattern, hsays⟩ := saysRule_of_readFileNamingRule hvalue hfirst
    obtain ⟨hpatterns, hbodies⟩ := ih hmore
    constructor
    · rw [List.map_cons, hpattern, hpatterns]
      rfl
    · refine List.forall_mem_cons.mpr ⟨⟨m.2, ?_, hsays⟩, fun other hother => ?_⟩
      · rw [hpattern]
        exact List.mem_cons_self
      · obtain ⟨body, hbody, hother⟩ := hbodies other hother
        exact ⟨body, List.mem_cons_of_mem _ hbody, hother⟩

theorem readsRules_of_readFileNaming {v : Value} {rules : List FileNamingRule}
    (hv : v.hasDistinctKeys = true) (h : readFileNaming v = .ok rules) :
    ∃ members, v = .object members ∧ ReadsRules members rules := by
  cases v with
  | object members =>
    have hmembers := hasDistinctKeys_object.mp hv
    obtain ⟨hpatterns, hbodies⟩ := says_of_forall₂ hmembers.values (forall₂_of_mapM h)
    refine ⟨members, rfl, hpatterns, fun rule hrule => ?_⟩
    obtain ⟨body, hbody, hsays⟩ := hbodies rule hrule
    exact ⟨body, (Members.get?_eq_some_iff hmembers.nodup).mpr hbody, hsays⟩
  | _ => cases h

/-- The rules that are read from what may stand under their key, in their order. -/
inductive ReadsNaming : Option Value → Option (List FileNamingRule) → Prop where
  | absent {found : Option Value} (h : Merge.IsAbsent found) : ReadsNaming found none
  | object {members : Members Value} {rules : List FileNamingRule} (h : ReadsRules members rules) :
      ReadsNaming (some (.object members)) (some rules)

theorem readsNaming_of_readOption {v : Value} {naming : Option (List FileNamingRule)}
    (hv : v.hasDistinctKeys = true) (h : readOption readFileNaming v = .ok naming) :
    ReadsNaming (some v) naming := by
  obtain ⟨rfl, rfl⟩ | ⟨rules, hread, rfl⟩ := readOption_cases h
  · exact .absent (.inr rfl)
  · obtain ⟨members, rfl, hrules⟩ := readsRules_of_readFileNaming hv hread
    exact .object hrules

/-! ## Configurations -/

/-- The value that holds the file naming rules of a configuration. -/
def fileNamingAt (v : Value) : Option Value :=
  (valueAt configFields "rules" v).bind (valueAt rulesFields "fileNaming")

theorem keeps_rules : ∀ f ∈ configFields, f.key ≠ "rules" → f.Keeps Config.rules := by
  simp only [configFields, List.forall_mem_cons, List.not_mem_nil, false_imp_iff, implies_true,
    and_true]
  and_intros
  · exact fun _ => Field.keeps fun _ _ => rfl
  · exact fun h => absurd rfl h
  · exact fun _ => Field.keeps fun _ _ => rfl
  · exact fun _ => Field.keeps fun _ _ => rfl

theorem keeps_fileNaming : ∀ f ∈ rulesFields, f.key ≠ "fileNaming" → f.Keeps Rules.fileNaming := by
  simp only [rulesFields, List.forall_mem_cons, List.not_mem_nil, false_imp_iff, implies_true,
    and_true]
  and_intros
  · exact fun _ => Field.keeps fun _ _ => rfl
  · exact fun h => absurd rfl h
  · exact fun _ => Field.keeps fun _ _ => rfl

theorem readsNaming_of_readRules {v : Value} {rules : Rules} (hv : v.hasDistinctKeys = true)
    (h : readRules v = .ok rules) :
    ReadsNaming (valueAt rulesFields "fileNaming" v) rules.fileNaming := by
  obtain ⟨hnone, -, hkept⟩ | ⟨w, hw, hread⟩ := part_of_readRecord independent_rulesFields
    (List.mem_cons_of_mem _ List.mem_cons_self) (Field.puts _ _ _ _) (fun _ _ => rfl)
    keeps_fileNaming hv h
  · rw [hkept]
    exact .absent (.inl hnone)
  · exact hw ▸ readsNaming_of_readOption (hasDistinctKeys_of_valueAt hv hw) hread

theorem readsNaming_of_readConfig {v : Value} {config : Config} (hv : v.hasDistinctKeys = true)
    (h : readConfig v = .ok config) : ReadsNaming (fileNamingAt v) config.rules.fileNaming := by
  rw [fileNamingAt]
  obtain ⟨hnone, -, hkept⟩ | ⟨w, hw, hread⟩ := part_of_readRecord independent_configFields
    (List.mem_cons_of_mem _ List.mem_cons_self) (Field.puts _ _ _ _) (fun _ _ => rfl)
    keeps_rules hv h
  · rw [hkept, show valueAt configFields "rules" v = none from hnone]
    exact .absent (.inl rfl)
  · rw [show valueAt configFields "rules" v = some w from hw]
    exact readsNaming_of_readRules (hasDistinctKeys_of_valueAt hv hw) hread

end Decode

/-! ## With and without a preset -/

open Merge

theorem fileNamingAt_object {members rules : Members Value}
    (h : members.get? "rules" = some (.object rules)) :
    Decode.fileNamingAt (.object members) = fileNamingOf (.object members) := by
  have hvalue : Decode.valueAt Decode.configFields "rules" (.object members) =
      some (.object rules) := h
  rw [Decode.fileNamingAt, hvalue, Option.bind_some, fileNamingOf, rulesOf, membersOf, part, h]
  rfl

theorem fileNamingAt_mergeConfig {preset u : Value} (hpreset : preset.hasDistinctKeys = true)
    (hu : u.hasDistinctKeys = true) :
    Decode.fileNamingAt (mergeConfig preset u) =
      overlaySection (fileNamingOf preset) (nonNull (fileNamingOf u)) := by
  have hrules := get?_membersOf_mergeConfig hpreset hu "rules"
  rw [if_pos rfl] at hrules
  have hobject : Decode.fileNamingAt (mergeConfig preset u) = fileNamingOf (mergeConfig preset u) :=
    fileNamingAt_object hrules
  rw [hobject, fileNamingOf, rulesOf_mergeConfig hpreset hu]
  exact get?_mergeSections_overlaid (haveDistinctKeys_rulesOf hpreset) (haveDistinctKeys_rulesOf hu)
    (by decide)

/-- The rules that a configuration adds to those of a preset: none where nothing stands. -/
inductive Adds : Option Value → Members Value → Prop where
  | nothing {found : Option Value} (h : IsAbsent found) : Adds found []
  | object (members : Members Value) : Adds (some (.object members)) members

theorem Adds.nodup_keys {found : Option Value} {more : Members Value} (h : Adds found more)
    (hfound : ∀ v, found = some v → v.hasDistinctKeys = true) : (Members.keys more).Nodup := by
  cases h with
  | nothing => exact List.nodup_nil
  | object => exact (hasDistinctKeys_object.mp (hfound _ rfl)).nodup

/-- What is laid on rules is read only if it is absent or holds rules. -/
theorem exists_adds {own : Members Value} {found : Option Value}
    {naming : Option (List FileNamingRule)}
    (h : Decode.ReadsNaming (overlaySection (some (.object own)) (nonNull found)) naming) :
    ∃ more, Adds found more ∧
      overlaySection (some (.object own)) (nonNull found) = some (.object (own.overlay more)) := by
  by_cases habsent : IsAbsent found
  · refine ⟨[], .nothing habsent, ?_⟩
    rw [nonNull_of_isAbsent habsent]
    rfl
  cases found with
  | none => exact absurd (.inl rfl) habsent
  | some v =>
    cases v with
    | null => exact absurd (.inr rfl) habsent
    | object more => exact ⟨more, .object more, rfl⟩
    | _ =>
      -- A value of another form is kept by the merge and is not read.
      cases h with
      | absent hother => exact absurd hother habsent

theorem rules_with_preset {u : Value} {name : String} {preset : Preset} {config : Config}
    (hu : u.hasDistinctKeys = true) (hname : u.get? "preset" = some (.string name))
    (hpreset : Preset.find? name = some preset) (h : Config.ofValue u = .ok config) :
    ∃ own more rules, fileNamingOf preset.value = some (.object own) ∧
      Adds (fileNamingOf u) more ∧ config.rules.fileNaming = some rules ∧
      rules.map FileNamingRule.pattern =
        Members.keys own ++ (Members.keys more).filter (· ∉ Members.keys own) ∧
      (rules.map FileNamingRule.pattern).Nodup ∧
      ∀ rule ∈ rules, ∃ body,
        (Members.get? rule.pattern more).or (Members.get? rule.pattern own) = some body ∧
          Decode.SaysRule body rule := by
  have hvalue := hasDistinctKeys_preset hpreset
  have hmerged : mergedValue? u = some (mergeConfig preset.value u) := by
    simp [mergedValue?, hname, hpreset]
  have hnaming := Decode.readsNaming_of_readConfig (hasDistinctKeys_mergeConfig hvalue hu)
    (readConfig_of_ofValue hmerged h)
  obtain ⟨own, hown⟩ := exists_fileNamingOf_preset hpreset
  rw [fileNamingAt_mergeConfig hvalue hu, hown] at hnaming
  obtain ⟨more, hadds, hoverlay⟩ := exists_adds hnaming
  have hownKeys : (Members.keys own).Nodup :=
    nodup_of_get?_eq_object (haveDistinctKeys_rulesOf hvalue) hown
  have hmoreKeys := hadds.nodup_keys fun v hv => (haveDistinctKeys_rulesOf hu).get? hv
  rw [hoverlay] at hnaming
  generalize config.rules.fileNaming = naming at hnaming ⊢
  cases hnaming with
  | absent habsent => rcases habsent with h | h <;> cases h
  | @object _ rules hrules =>
    refine ⟨own, more, rules, hown, hadds, rfl, ?_, ?_, fun rule hrule => ?_⟩
    · rw [hrules.patterns, Members.keys_overlay hmoreKeys]
    · rw [hrules.patterns]
      exact Members.nodup_keys_overlay hownKeys more
    · obtain ⟨body, hbody, hsays⟩ := hrules.bodies rule hrule
      rw [Members.get?_overlay hmoreKeys] at hbody
      exact ⟨body, hbody, hsays⟩

/-- The file naming rules of a configuration that is read stand in a fixed order.

With a preset they are the rules of the preset, in its order, and those that the configuration adds,
in the order of the document.  Each pattern stands once, with what the configuration says about it,
or else with what the preset says.  Without a preset they are the rules of the document.  A key that
a text has several times counts once, with its first place and its last value. -/
theorem rules_in_order :
    (∀ (u : Value) (name : String) (preset : Preset) (config : Config),
      u.hasDistinctKeys = true → u.get? "preset" = some (.string name) →
      Preset.find? name = some preset → Config.ofValue u = .ok config →
        ∃ own more rules, fileNamingOf preset.value = some (.object own) ∧
          Adds (fileNamingOf u) more ∧ config.rules.fileNaming = some rules ∧
          rules.map FileNamingRule.pattern =
            Members.keys own ++ (Members.keys more).filter (· ∉ Members.keys own) ∧
          (rules.map FileNamingRule.pattern).Nodup ∧
          ∀ rule ∈ rules, ∃ body,
            (Members.get? rule.pattern more).or (Members.get? rule.pattern own) = some body ∧
              Decode.SaysRule body rule) ∧
    (∀ (u : Value) (config : Config), u.hasDistinctKeys = true →
      (∀ name, u.get? "preset" ≠ some (.string name)) → Config.ofValue u = .ok config →
        Decode.ReadsNaming (Decode.fileNamingAt u) config.rules.fileNaming) ∧
    (∀ text, Value.parse text = (Value.parseWritten text).map Value.collapse) ∧
    ∀ pairs : Members Value, ∃ members, (Value.object pairs).collapse = .object members ∧
      Members.keys members = (Members.keys pairs).eraseDups ∧
      ∀ key, Members.get? key members = (Members.get? key pairs.reverse).map Value.collapse := by
  refine ⟨fun u name preset config => rules_with_preset, fun u config hu hnone h => ?_,
    parse_eq_collapse, fun pairs => ?_⟩
  · exact Decode.readsNaming_of_readConfig hu (readConfig_of_ofValue (mergedValue?_of_ne hnone) h)
  · exact ⟨_, collapse_object pairs, keys_collapsed pairs, get?_collapsed pairs⟩

/-- The same configuration as `hookNaming`, over the preset. -/
def hookNamingOnPreset : Value := .object (("preset", .string "react") :: membersOf hookNaming)

theorem rules_in_order_hooks :
    (∃ config own more rules, Config.ofValue hookNamingOnPreset = .ok config ∧
      fileNamingOf Preset.react.value = some (.object own) ∧
      Adds (fileNamingOf hookNamingOnPreset) more ∧ config.rules.fileNaming = some rules ∧
      rules.map FileNamingRule.pattern =
        Members.keys own ++ (Members.keys more).filter (· ∉ Members.keys own)) ∧
    (∃ config, Config.ofValue hookNaming = .ok config ∧
      Decode.ReadsNaming (Decode.fileNamingAt hookNaming) config.rules.fileNaming) ∧
    ∃ members, (Value.object [("a", .null), ("b", .null), ("a", .bool true)]).collapse =
        .object members ∧
      Members.keys members = ["a", "b"] ∧ Members.get? "a" members = some (.bool true) := by
  obtain ⟨hpreset, hplain, -, hrepeated⟩ := rules_in_order
  have hread : (Config.ofValue hookNamingOnPreset).toOption.isSome = true := by decide +kernel
  have hread' : (Config.ofValue hookNaming).toOption.isSome = true := by decide +kernel
  obtain ⟨config, hoption⟩ := Option.isSome_iff_exists.mp hread
  obtain ⟨config', hoption'⟩ := Option.isSome_iff_exists.mp hread'
  have hconfig := eq_ok_of_toOption hoption
  have hconfig' := eq_ok_of_toOption hoption'
  have hnone : ∀ name, hookNaming.get? "preset" ≠ some (.string name) := by
    simp [hookNaming, Value.get?, Members.get?]
  obtain ⟨own, more, rules, hown, hadds, hrules, hpatterns, -⟩ :=
    hpreset hookNamingOnPreset "react" Preset.react config (by decide) rfl rfl hconfig
  obtain ⟨members, hmembers, hkeys, hget⟩ :=
    hrepeated [("a", .null), ("b", .null), ("a", .bool true)]
  exact ⟨⟨config, own, more, rules, hconfig, hown, hadds, hrules, hpatterns⟩,
    ⟨config', hconfig', hplain hookNaming config' (by decide) hnone hconfig'⟩,
    members, hmembers, hkeys.trans (by decide), hget "a"⟩

end ProjectLayout
