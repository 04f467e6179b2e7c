import ProjectLayout.Proofs.Config.Layers
import ProjectLayout.Proofs.Config.Reading

/-!
# The order of keys in a configuration

Merging moves keys about, and what is read does not depend on where they stand.  Only the order of
the file naming rules is kept, by the merge and by the reader.

* `alike_overlaySection`, `rulesAlike_overlaySection` — related sections laid on the same one.
* `configAlike_mergeConfig` — related configurations merged over the same preset.
* `ofValue_ignores_key_order` — what is read from related configurations.
-/

namespace ProjectLayout

open Json

/-! ## Merging -/

namespace Merge

variable {keys : List String} {key : String} {rel inner : Value → Value → Prop} {v w : Value}
  {found other base : Option Value}

theorem rel_nonNull (h : Option.Rel rel found other)
    (hnull : ∀ v w, rel v w → (v = .null ↔ w = .null)) :
    Option.Rel rel (nonNull found) (nonNull other) := by
  cases h with
  | none => exact .none
  | @some v w hvw =>
    by_cases hv : v = .null
    · rw [hv, (hnull v w hvw).mp hv]
      exact .none
    · rw [nonNull_eq_some_iff.mpr ⟨rfl, hv⟩,
        nonNull_eq_some_iff.mpr ⟨rfl, mt (hnull v w hvw).mpr hv⟩]
      exact .some hvw

theorem rel_or (h : Option.Rel rel found other) (hbase : Option.Rel rel base base) :
    Option.Rel rel (found.or base) (other.or base) := by
  cases h with
  | none => exact hbase
  | some hvw => exact .some hvw

theorem overlaySection_of_ne (h : ∀ members, v ≠ .object members) (base : Option Value) :
    overlaySection base (some v) = some v := by
  cases v with
  | object members => exact absurd rfl (h members)
  | _ =>
    cases base with
    | none => rfl
    | some lower => cases lower <;> rfl

/-- Sections that are alike are laid on something with results that are alike. -/
theorem alike_overlaySection (hv : ∀ v, found = some v → v.hasDistinctKeys = true)
    (hw : ∀ w, other = some w → w.hasDistinctKeys = true)
    (hbase : (base.getD .null).hasDistinctKeys = true) (h : Option.Rel Alike found other) :
    Option.Rel Alike (overlaySection base found) (overlaySection base other) := by
  cases h with
  | none => exact relAlike_refl _
  | some hvw =>
    cases hvw with
    | refl => exact relAlike_refl _
    | array h =>
      have hne (items : List Value) : ∀ members, Value.array items ≠ .object members := nofun
      rw [overlaySection_of_ne (hne _), overlaySection_of_ne (hne _)]
      exact .some (.array h)
    | @object upper upper' hkeys h =>
      have hupper := (hasDistinctKeys_object.mp (hv _ rfl)).nodup
      have hupper' := (hasDistinctKeys_object.mp (hw _ rfl)).nodup
      rw [overlaySection_object hupper, overlaySection_object hupper']
      have hlower := (haveDistinctKeys_membersOf hbase).nodup
      refine .some ((alike_object_iff (Members.nodup_keys_overlay hlower _)
        (Members.nodup_keys_overlay hlower _)).mpr fun key => ?_)
      rw [Members.get?_overlay hupper, Members.get?_overlay hupper']
      exact rel_or ((alike_object_iff hupper hupper').mp (.object hkeys h) key) (relAlike_refl _)

theorem forall₂_set {members others : Members Value} (h : List.Forall₂ SameRule members others)
    {m n : String × Value} (hmn : SameRule m n) :
    List.Forall₂ SameRule (members.set m.1 m.2) (others.set n.1 n.2) := by
  induction h with
  | nil => exact .cons hmn .nil
  | cons hfirst hrest ih =>
    rw [Members.set_cons, Members.set_cons, ← hfirst.1, ← hmn.1]
    split
    · exact .cons ⟨rfl, hmn.2⟩ hrest
    · exact .cons ⟨rfl, hfirst.2⟩ (hmn.1 ▸ ih)

theorem forall₂_overlay {members others more more' : Members Value}
    (h : List.Forall₂ SameRule members others) (hmore : List.Forall₂ SameRule more more') :
    List.Forall₂ SameRule (members.overlay more) (others.overlay more') := by
  induction hmore generalizing members others with
  | nil => exact h
  | cons hfirst _ ih => exact ih (forall₂_set h hfirst)

/-- File naming rules in one order are laid on others in one order. -/
theorem rulesAlike_overlaySection (hv : ∀ v, found = some v → v.hasDistinctKeys = true)
    (hw : ∀ w, other = some w → w.hasDistinctKeys = true) (h : Option.Rel RulesAlike found other) :
    Option.Rel RulesAlike (overlaySection base found) (overlaySection base other) := by
  cases h with
  | none => exact rel_refl RulesAlike.refl _
  | some hvw =>
    cases hvw with
    | object h =>
      rw [overlaySection_object (hasDistinctKeys_object.mp (hv _ rfl)).nodup,
        overlaySection_object (hasDistinctKeys_object.mp (hw _ rfl)).nodup]
      exact .some (.object (forall₂_overlay (List.forall₂_same.mpr fun m _ => ⟨rfl, .refl m.2⟩) h))
    | other hne h =>
      rw [overlaySection_of_ne hne, overlaySection_of_ne (h.ne_object hne)]
      exact .some (.other hne h)

theorem get?_membersOf_related (hinner : ∀ v, inner v v) (h : AlikeBut keys key inner v w)
    (k : String) :
    Option.Rel (if k = key then inner else Alike) ((membersOf v).get? k)
      ((membersOf w).get? k) := by
  cases h with
  | refl => exact rel_refl (ite_refl hinner (k = key)) _
  | object h => exact h k
  | array h => exact .none

theorem getD_related (hrefl : ∀ v, rel v v) (h : Option.Rel rel found other) :
    rel (found.getD .null) (other.getD .null) := by
  cases h with
  | none => exact hrefl .null
  | some hvw => exact hvw

/-- How the sections of the rules of two configurations are related. -/
def SectionsAlike (base top : Members Value) : Prop :=
  ∀ k, Option.Rel (if k = "fileNaming" then RulesAlike else Alike) (base.get? k) (top.get? k)

theorem sectionsAlike_rulesOf (h : ConfigAlike v w) : SectionsAlike (rulesOf v) (rulesOf w) := by
  have hrules := get?_membersOf_related AlikeBut.refl h "rules"
  rw [if_pos rfl] at hrules
  exact get?_membersOf_related RulesAlike.refl (getD_related AlikeBut.refl hrules)

theorem forall₂_ignoreOf (h : ConfigAlike v w) : List.Forall₂ Alike (ignoreOf v) (ignoreOf w) := by
  have hignore := get?_membersOf_related AlikeBut.refl h "ignore"
  rw [if_neg (by decide)] at hignore
  have hpart : Alike (part "ignore" (membersOf v)) (part "ignore" (membersOf w)) :=
    getD_related Alike.refl hignore
  unfold ignoreOf
  generalize part "ignore" (membersOf v) = x, part "ignore" (membersOf w) = y at hpart
  cases hpart with
  | refl => exact List.forall₂_same.mpr fun item _ => .refl item
  | array h => exact h
  | object => exact .nil

theorem hasDistinctKeys_of_nonNull {members : Members Value} (h : HaveDistinctKeys members)
    (k : String) (v : Value) (hv : nonNull (members.get? k) = some v) : v.hasDistinctKeys = true :=
  h.get? (nonNull_eq_some_iff.mp hv).1

/-- Sections that are alike, laid on the same ones, are alike. -/
theorem sectionsAlike_mergeSections {lower upper upper' : Members Value}
    (hlower : HaveDistinctKeys lower) (hupper : HaveDistinctKeys upper)
    (hupper' : HaveDistinctKeys upper') (h : SectionsAlike upper upper') :
    SectionsAlike (mergeSections lower upper) (mergeSections lower upper') := by
  intro k
  have hk := h k
  rcases ruleKey_cases k with hkey | rfl | hkey
  · rw [get?_mergeSections_overlaid hlower hupper hkey,
      get?_mergeSections_overlaid hlower hupper' hkey]
    have hdistinct := hasDistinctKeys_of_nonNull hupper k
    have hdistinct' := hasDistinctKeys_of_nonNull hupper' k
    by_cases hnaming : k = "fileNaming"
    · rw [if_pos hnaming] at hk ⊢
      exact rulesAlike_overlaySection hdistinct hdistinct'
        (rel_nonNull hk fun _ _ => RulesAlike.eq_null_iff)
    · rw [if_neg hnaming] at hk ⊢
      exact alike_overlaySection hdistinct hdistinct' (hasDistinctKeys_part hlower k)
        (rel_nonNull hk fun _ _ => Alike.eq_null_iff)
  · rw [get?_mergeSections_folders hlower hupper, get?_mergeSections_folders hlower hupper']
    exact rel_or (rel_nonNull hk fun _ _ => Alike.eq_null_iff) (relAlike_refl _)
  · rw [get?_mergeSections_other hlower hupper hkey, get?_mergeSections_other hlower hupper' hkey]
    exact rel_or hk (rel_refl (ite_refl RulesAlike.refl _) _)

/-- Configurations that are alike, merged over the same preset, are alike. -/
theorem configAlike_mergeConfig {preset : Value} (hpreset : preset.hasDistinctKeys = true)
    (hv : v.hasDistinctKeys = true) (hw : w.hasDistinctKeys = true) (h : ConfigAlike v w) :
    ConfigAlike (mergeConfig preset v) (mergeConfig preset w) := by
  refine AlikeBut.object fun k => ?_
  show Option.Rel _ ((membersOf (mergeConfig preset v)).get? k)
    ((membersOf (mergeConfig preset w)).get? k)
  rw [get?_membersOf_mergeConfig hpreset hv, get?_membersOf_mergeConfig hpreset hw]
  by_cases hrules : k = "rules"
  · rw [if_pos hrules, if_pos hrules, if_pos hrules]
    exact .some (.object (sectionsAlike_mergeSections (haveDistinctKeys_rulesOf hpreset)
      (haveDistinctKeys_rulesOf hv) (haveDistinctKeys_rulesOf hw) (sectionsAlike_rulesOf h)))
  rw [if_neg hrules, if_neg hrules, if_neg hrules]
  by_cases hignore : k = "ignore"
  · rw [if_pos hignore, if_pos hignore]
    refine .some (.array ?_)
    exact List.rel_append (List.forall₂_same.mpr fun item _ => .refl item) (forall₂_ignoreOf h)
  · rw [if_neg hignore, if_neg hignore]
    have hk := get?_membersOf_related AlikeBut.refl h k
    rw [if_neg hrules] at hk
    exact rel_or hk (relAlike_refl _)

end Merge

/-! ## Configurations -/

open Merge

variable {v w : Value}

/-- Two values that are read for configurations that are alike. -/
structure ReadAlike (v w : Value) : Prop where
  left : v.hasDistinctKeys = true
  right : w.hasDistinctKeys = true
  alike : ConfigAlike v w

theorem readAlike_mergedValue? (h : ReadAlike v w) :
    Option.Rel ReadAlike (mergedValue? v) (mergedValue? w) := by
  have hpreset := get?_membersOf_related AlikeBut.refl h.alike "preset"
  rw [if_neg (by decide), ← get?_eq_get?_membersOf, ← get?_eq_get?_membersOf] at hpreset
  unfold mergedValue?
  generalize v.get? "preset" = found, w.get? "preset" = other at hpreset
  cases hpreset with
  | none => exact .some h
  | some hnames =>
    cases hnames with
    | array => exact .some h
    | object => exact .some h
    | refl =>
      split
      · next name _ =>
        cases hfind : Preset.find? name with
        | none => exact .none
        | some preset =>
          have hvalue := hasDistinctKeys_preset hfind
          exact .some ⟨hasDistinctKeys_mergeConfig hvalue h.left,
            hasDistinctKeys_mergeConfig hvalue h.right,
            configAlike_mergeConfig hvalue h.left h.right h.alike⟩
      · exact .some h

/-- The order of keys does not matter, except that of the file naming rules: configurations that
differ in nothing else are read with the same result, or neither is read. -/
theorem ofValue_ignores_key_order (hv : v.hasDistinctKeys = true) (hw : w.hasDistinctKeys = true)
    (h : ConfigAlike v w) (config : Config) :
    Config.ofValue v = .ok config ↔ Config.ofValue w = .ok config := by
  have hsame : (Config.ofValue v).toOption = (Config.ofValue w).toOption := by
    rw [toOption_ofValue, toOption_ofValue]
    exact Decode.bind_eq_of_rel (readAlike_mergedValue? ⟨hv, hw, h⟩) fun _ _ _ _ hread =>
      Decode.respects_readConfig hread.left hread.right hread.alike
  rw [← toOption_eq_some_iff, hsame, toOption_eq_some_iff]

/-- A configuration that changes a rule of the preset. -/
def hooksInKebabCase : Value :=
  .object
    [("preset", .string "react"),
      ("rules", .object
        [("folderStructure", .null),
          ("fileNaming", .object
            [(hooksGlob,
              .object [("convention", .string "kebab-case"), ("severity", .string "warning")])])])]

/-- The same with its keys in another order. -/
def hooksInKebabCaseReordered : Value :=
  .object
    [("rules", .object
        [("fileNaming", .object
            [(hooksGlob,
              .object [("severity", .string "warning"), ("convention", .string "kebab-case")])]),
          ("folderStructure", .null)]),
      ("preset", .string "react")]

/-- Two members may change places. -/
theorem rel_get?_swap {rel : String → Value → Value → Prop} {first second : String}
    (hne : first ≠ second) {v v' w w' : Value} (hfirst : rel first v v')
    (hsecond : rel second w w') (k : String) :
    Option.Rel (rel k) (Members.get? k [(first, v), (second, w)])
      (Members.get? k [(second, w'), (first, v')]) := by
  by_cases hk : first = k
  · subst hk
    simpa [Members.get?, hne.symm] using hfirst
  by_cases hk' : second = k
  · subst hk'
    simpa [Members.get?, hne] using hsecond
  · simp [Members.get?, hk, hk']

theorem configAlike_hooksInKebabCase : ConfigAlike hooksInKebabCase hooksInKebabCaseReordered := by
  have hbody : Alike
      (.object [("convention", .string "kebab-case"), ("severity", .string "warning")])
      (.object [("severity", .string "warning"), ("convention", .string "kebab-case")]) :=
    (alike_object_iff (by decide) (by decide)).mpr
      (rel_get?_swap (by decide) (.refl _) (.refl _))
  have hnaming : RulesAlike
      (.object [(hooksGlob,
        .object [("convention", .string "kebab-case"), ("severity", .string "warning")])])
      (.object [(hooksGlob,
        .object [("severity", .string "warning"), ("convention", .string "kebab-case")])]) :=
    .object (.cons ⟨rfl, hbody⟩ .nil)
  refine .object (rel_get?_swap (by decide) ?_ ?_)
  · exact Alike.refl _
  · exact AlikeBut.object (rel_get?_swap (by decide) (Alike.refl _) hnaming)

theorem ofValue_ignores_key_order_hooks :
    ConfigAlike hooksInKebabCase hooksInKebabCaseReordered ∧
      ∃ config, Config.ofValue hooksInKebabCase = .ok config ∧
        Config.ofValue hooksInKebabCaseReordered = .ok config := by
  have hread : (Config.ofValue hooksInKebabCase).toOption.isSome = true := by decide +kernel
  obtain ⟨config, hconfig⟩ := Option.isSome_iff_exists.mp hread
  have hok := eq_ok_of_toOption hconfig
  exact ⟨configAlike_hooksInKebabCase, config, hok,
    (ofValue_ignores_key_order (by decide) (by decide) configAlike_hooksInKebabCase config).mp hok⟩

end ProjectLayout
