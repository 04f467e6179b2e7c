import ProjectLayout.Config.Source
import ProjectLayout.Proofs.Config.Merge

/-!
# Sections of a wrong form

Read as it stands, a configuration is rejected if its rules or its ignored globs have the wrong
form.  Merged over a preset, they count as empty before they are read, and nothing is said.

* `Decode.readRecord_error` — a record with a member that does not fit.
* `Merge.mergeConfig_set_empty` — merging does not see which wrong value a section has.
* `wrong_section_rejected_or_emptied` — what becomes of a section of the wrong form.
-/

namespace ProjectLayout

open Json

/-- Whether a value is a string, a number or a boolean. -/
def Json.Value.IsScalar : Value → Prop
  | .bool _ | .integer _ | .float _ | .string _ => True
  | .null | .array _ | .object _ => False

/-- The sections that are put together in a merge, with what counts as an empty one. -/
inductive EmptySection : String → Value → Prop where
  | rules : EmptySection "rules" (.object [])
  | ignore : EmptySection "ignore" (.array [])

/-! ## Reading -/

namespace Decode

variable {σ : Type} {fields : List (Field σ)} {field : Field σ} {key : String} {v : Value}
  {members : Members Value}

/-- Members are not read if one of them does not fit its field. -/
theorem readMembers_error (hfield : fields.find? (·.key == key) = some field)
    (hfail : ∀ r, ∃ e, field.read v r = .error e) (hmem : (key, v) ∈ members) (r : σ) :
    ∃ e, readMembers fields members r = .error e := by
  induction members generalizing r with
  | nil => simp at hmem
  | cons m rest ih =>
    obtain ⟨k, w⟩ := m
    rcases List.mem_cons.mp hmem with hm | hm
    · obtain ⟨rfl, rfl⟩ := Prod.mk.inj hm
      obtain ⟨e, he⟩ := hfail r
      exact ⟨e, by rw [readMembers, hfield]; simp only [he]⟩
    · rw [readMembers]
      split
      · exact ih hm r
      · split
        · next e _ => exact ⟨e, rfl⟩
        · next r' _ => exact ih hm r'

theorem readRecord_error (name : String) (hfield : fields.find? (·.key == key) = some field)
    (hfail : ∀ r, ∃ e, field.read v r = .error e) (hmem : (key, v) ∈ members) (initial : σ) :
    ∃ e, readRecord name fields initial (.object members) = .error e := by
  obtain ⟨e, he⟩ := readMembers_error hfield hfail hmem initial
  exact ⟨e, by rw [readRecord, he]⟩

/-- A configuration with a section that is a string, a number or a boolean is not read. -/
theorem readConfig_error {empty : Value} (hsection : EmptySection key empty) (hv : v.IsScalar)
    (hmem : (key, v) ∈ members) : ∃ e, readConfig (.object members) = .error e := by
  unfold readConfig
  cases hsection with
  | rules =>
    refine readRecord_error _ rfl (fun r => ?_) hmem _
    cases v <;> first | exact hv.elim | exact ⟨_, rfl⟩
  | ignore =>
    refine readRecord_error _ rfl (fun r => ?_) hmem _
    cases v <;> first | exact hv.elim | exact ⟨_, rfl⟩

end Decode

/-! ## Merging -/

namespace Merge

variable {key : String} {v empty : Value} {members : Members Value}

theorem membersOf_eq_nil (hv : v.IsScalar) : membersOf v = [] := by
  cases v <;> first | exact hv.elim | rfl

theorem itemsOf_eq_nil (hv : v.IsScalar) : itemsOf v = [] := by
  cases v <;> first | exact hv.elim | rfl

theorem part_set_self (key : String) (v : Value) (members : Members Value) :
    part key (members.set key v) = v := by
  rw [part, Members.get?_set, if_pos rfl, Option.getD_some]

theorem part_set_of_ne {key k : String} (hne : key ≠ k) (v : Value) (members : Members Value) :
    part k (members.set key v) = part k members := by
  rw [part, Members.get?_set, if_neg hne, part]

/-- A merge takes a section that is a string, a number or a boolean for an empty one. -/
theorem mergeConfig_set_empty (hkeys : (Members.keys members).Nodup)
    (hsection : EmptySection key empty) (hget : members.get? key = some v) (hv : v.IsScalar)
    (base : Value) :
    mergeConfig base (.object (members.set key empty)) = mergeConfig base (.object members) := by
  have hpart : part key members = v := by rw [part, hget, Option.getD_some]
  have hmem : key ∈ Members.keys members := Members.mem_keys.mpr ⟨v, Members.mem_of_get? hget⟩
  have hrest : ((members.set key empty).erase "rules").erase "ignore" =
      (members.erase "rules").erase "ignore" := by
    refine Members.erase_erase_set hkeys ?_ hmem empty
    cases hsection with
    | rules => exact .inl rfl
    | ignore => exact .inr rfl
  have hrules : membersOf (part "rules" (members.set key empty)) =
      membersOf (part "rules" members) := by
    cases hsection with
    | rules =>
      rw [part_set_self, hpart, membersOf_eq_nil hv]
      rfl
    | ignore => rw [part_set_of_ne (by decide)]
  have hignore : itemsOf (part "ignore" (members.set key empty)) =
      itemsOf (part "ignore" members) := by
    cases hsection with
    | rules => rw [part_set_of_ne (by decide)]
    | ignore =>
      rw [part_set_self, hpart, itemsOf_eq_nil hv]
      rfl
  have hobject (more : Members Value) : membersOf (.object more) = more := rfl
  simp only [mergeConfig, hobject, hrest, hrules, hignore]

end Merge

/-! ## Configurations -/

variable {members : Members Value}

theorem ofValue_eq_readConfig (h : members.get? "preset" = none) :
    Config.ofValue (.object members) =
      (Decode.readConfig (.object members)).mapError .invalid := by
  simp [Config.ofValue, Value.get?, h]

theorem ofValue_eq_mergeConfig {name : String} {preset : Preset}
    (h : members.get? "preset" = some (.string name)) (hpreset : Preset.find? name = some preset) :
    Config.ofValue (.object members) =
      (Decode.readConfig (Merge.mergeConfig preset.value (.object members))).mapError .invalid := by
  simp [Config.ofValue, Value.get?, h, hpreset]

/-- A section that is a string, a number or a boolean makes a configuration without a preset
invalid; in one that names a preset it counts as an empty section. -/
theorem wrong_section_rejected_or_emptied {key : String} {v empty : Value}
    (hkeys : (Members.keys members).Nodup) (hsection : EmptySection key empty)
    (hget : members.get? key = some v) (hv : v.IsScalar) :
    (members.get? "preset" = none →
      ∃ cause, Config.ofValue (.object members) = .error (.invalid cause)) ∧
    ∀ name preset, members.get? "preset" = some (.string name) →
      Preset.find? name = some preset →
      Config.ofValue (.object members) = Config.ofValue (.object (members.set key empty)) := by
  constructor
  · intro hnone
    obtain ⟨cause, hcause⟩ := Decode.readConfig_error hsection hv (Members.mem_of_get? hget)
    exact ⟨cause, by rw [ofValue_eq_readConfig hnone, hcause]; rfl⟩
  · intro name preset hname hpreset
    have hset : (members.set key empty).get? "preset" = some (.string name) := by
      have hne : key ≠ "preset" := by cases hsection <;> decide
      rw [Members.get?_set, if_neg hne, hname]
    rw [ofValue_eq_mergeConfig hname hpreset, ofValue_eq_mergeConfig hset hpreset,
      Merge.mergeConfig_set_empty hkeys hsection hget hv]

theorem wrong_ignore_rejected_or_emptied :
    (∃ cause, Config.ofValue (.object [("ignore", .string "dist")]) = .error (.invalid cause)) ∧
      Config.ofValue (.object [("preset", .string "react"), ("ignore", .string "dist")]) =
        Config.ofValue (.object [("preset", .string "react"), ("ignore", .array [])]) := by
  have hplain : Members.get? "ignore" [("ignore", Value.string "dist")] = some (.string "dist") :=
    rfl
  have hmerged : Members.get? "ignore" [("preset", .string "react"), ("ignore", .string "dist")] =
      some (Value.string "dist") := rfl
  exact ⟨(wrong_section_rejected_or_emptied (by decide) .ignore hplain trivial).1 rfl,
    (wrong_section_rejected_or_emptied (by decide) .ignore hmerged trivial).2 _ _ rfl rfl⟩

/-- Wrong sections are accepted next to the name of a preset. -/
theorem wrong_sections_accepted :
    (Config.ofValue
      (.object [("preset", .string "react"), ("ignore", .string "dist")])).isOk = true ∧
    (Config.ofValue
      (.object [("preset", .string "react"), ("rules", .string "dist")])).isOk = true := by
  decide +kernel

end ProjectLayout
