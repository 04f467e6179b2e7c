import ProjectLayout.Proofs.Config.Record
import ProjectLayout.Proofs.Json.Alike

/-!
# Reading up to the order of keys

Keys may stand in any order in a configuration, except those of the file naming rules, whose order
is the order of the rules.  A relation says which values differ in no other way, and every reader
gives the same for values that it relates.

* `AlikeBut` — records that are alike but for one field, written as objects or as arrays.
* `ConfigAlike` — configurations that are alike, the order of the file naming rules kept.
* `Respects` — a reader that gives the same for related values, with one lemma for each reader.
* `respects_readRecord` — records, from their fields.
* `respects_readConfig` — whole configurations.
-/

namespace ProjectLayout

open Json

/-! ## Related values -/

namespace Json

/-- Whether two values are records that are alike, whatever the order of their keys, except that the
values of one field are related in another way. -/
inductive AlikeBut (keys : List String) (key : String) (inner : Value → Value → Prop) :
    Value → Value → Prop where
  | refl (v : Value) : AlikeBut keys key inner v v
  | object {members others : Members Value}
      (h : ∀ k, Option.Rel (if k = key then inner else Alike) (members.get? k) (others.get? k)) :
      AlikeBut keys key inner (.object members) (.object others)
  | array {items others : List Value}
      (h : ∀ i : Nat,
        Option.Rel (if keys[i]? = some key then inner else Alike) items[i]? others[i]?) :
      AlikeBut keys key inner (.array items) (.array others)

/-- Whether two members are a rule under one key, the bodies alike. -/
def SameRule (m n : String × Value) : Prop := m.1 = n.1 ∧ Alike m.2 n.2

/-- Whether two values are rules under the same keys in the same order, the bodies alike. -/
inductive RulesAlike : Value → Value → Prop where
  | object {members others : Members Value} (h : List.Forall₂ SameRule members others) :
      RulesAlike (.object members) (.object others)
  /-- What is no object holds no rules. -/
  | other {v w : Value} (hv : ∀ members, v ≠ .object members) (h : Alike v w) : RulesAlike v w

end Json

/-- Whether two configurations differ in the order of keys only, and not in that of the file naming
rules. -/
def ConfigAlike : Value → Value → Prop :=
  AlikeBut (Decode.configFields.map (·.key)) "rules"
    (AlikeBut (Decode.rulesFields.map (·.key)) "fileNaming" RulesAlike)

namespace Json

variable {keys : List String} {key : String} {rel inner : Value → Value → Prop} {v w : Value}

theorem RulesAlike.refl (v : Value) : RulesAlike v v := by
  cases v with
  | object members => exact .object (List.forall₂_same.mpr fun m _ => ⟨rfl, .refl m.2⟩)
  | _ => exact .other nofun (.refl _)

theorem rel_refl (h : ∀ v, rel v v) (found : Option Value) : Option.Rel rel found found := by
  cases found with
  | none => exact .none
  | some v => exact .some (h v)

theorem ite_refl (hinner : ∀ v, inner v v) (c : Prop) [Decidable c] (v : Value) :
    (if c then inner else Alike) v v := by
  split
  · exact hinner v
  · exact .refl v

theorem isSome_eq_of_rel {found other : Option Value} (h : Option.Rel rel found other) :
    found.isSome = other.isSome := by
  cases h <;> rfl

theorem rel_getElem? {items others : List Value} (h : List.Forall₂ rel items others) (i : Nat) :
    Option.Rel rel items[i]? others[i]? := by
  induction h generalizing i with
  | nil => exact .none
  | cons hfirst _ ih =>
    cases i with
    | zero => exact .some hfirst
    | succ i => exact ih i

theorem length_eq_of_isSome {items others : List Value}
    (h : ∀ i : Nat, items[i]?.isSome = others[i]?.isSome) : items.length = others.length := by
  have hlt (i : Nat) : i < items.length ↔ i < others.length := by
    simpa using congrArg (· = true) (h i)
  have hfirst := hlt items.length
  have hsecond := hlt others.length
  omega

/-- What is alike is alike but for the values of any field, which are alike as well. -/
theorem Alike.alikeBut (key : String) (h : Alike v w) (hv : v.hasDistinctKeys = true)
    (hw : w.hasDistinctKeys = true) : AlikeBut keys key Alike v w := by
  cases h with
  | refl => exact .refl v
  | array h =>
    refine .array fun i => ?_
    rw [ite_self]
    exact rel_getElem? h i
  | object hkeys h =>
    refine .object fun k => ?_
    rw [ite_self]
    exact (alike_object_iff (hasDistinctKeys_object.mp hv).nodup
      (hasDistinctKeys_object.mp hw).nodup).mp (.object hkeys h) k

theorem Alike.eq_null_iff (h : Alike v w) : v = .null ↔ w = .null := by
  cases h <;> simp

theorem Alike.ne_object (h : Alike v w) (hv : ∀ members, v ≠ .object members) :
    ∀ members, w ≠ .object members := by
  cases h with
  | refl => exact hv
  | array => exact nofun
  | object => exact absurd rfl (hv _)

theorem RulesAlike.eq_null_iff (h : RulesAlike v w) : v = .null ↔ w = .null := by
  cases h with
  | object h => simp
  | other hv h => exact h.eq_null_iff

end Json

/-! ## Reading -/

namespace Decode

variable {α σ : Type} {rel inner : Value → Value → Prop} {key : String} {fields : List (Field σ)}

/-- Whether a reader gives the same for related values, apart from what is said when it fails. -/
def Respects (read : Reader α) (rel : Value → Value → Prop) : Prop :=
  ∀ ⦃v w⦄, v.hasDistinctKeys = true → w.hasDistinctKeys = true → rel v w →
    (read v).toOption = (read w).toOption

theorem respects_readBool : Respects readBool Alike := by
  intro v w hv hw h
  cases h <;> rfl

theorem respects_readString : Respects readString Alike := by
  intro v w hv hw h
  cases h <;> rfl

theorem Respects.map {β : Type} {read : Reader α} (h : Respects read rel) (f : α → β) :
    Respects (fun v => (read v).map f) rel := by
  intro v w hv hw hrel
  show ((read v).map f).toOption = ((read w).map f).toOption
  rw [toOption_map, toOption_map, h hv hw hrel]

theorem respects_readConvention : Respects readConvention Alike :=
  respects_readString.map _

theorem Respects.readOption {read : Reader α} (h : Respects read rel)
    (hnull : ∀ v w, rel v w → (v = .null ↔ w = .null)) : Respects (readOption read) rel := by
  intro v w hv hw hrel
  by_cases hcase : v = .null
  · rw [hcase, (hnull v w hrel).mp hcase]
  · rw [readOption_of_ne hcase, readOption_of_ne (mt (hnull v w hrel).mpr hcase)]
    exact h.map some hv hw hrel

theorem Respects.readOption_alike {read : Reader α} (h : Respects read Alike) :
    Respects (Decode.readOption read) Alike :=
  h.readOption fun _ _ => Alike.eq_null_iff

/-- Related items give the same if each of them does. -/
theorem toOption_mapM {β : Type} {R : β → β → Prop} {f : β → Except DecodeError α}
    {items others : List β} (hrel : List.Forall₂ R items others)
    (h : ∀ x ∈ items, ∀ y ∈ others, R x y → (f x).toOption = (f y).toOption) :
    (items.mapM f).toOption = (others.mapM f).toOption := by
  induction hrel with
  | nil => rfl
  | @cons x y items others hfirst _ ih =>
    have hxy := h x List.mem_cons_self y List.mem_cons_self hfirst
    have hrest := ih fun x' hx' y' hy' =>
      h x' (List.mem_cons_of_mem _ hx') y' (List.mem_cons_of_mem _ hy')
    rw [List.mapM_cons, List.mapM_cons]
    cases hx : f x with
    | error e =>
      rw [hx] at hxy
      cases hy : f y with
      | error e' => rfl
      | ok b => simp [hy, Except.toOption] at hxy
    | ok a =>
      rw [hx] at hxy
      rw [eq_ok_of_toOption hxy.symm]
      show ((items.mapM f).map (a :: ·)).toOption = ((others.mapM f).map (a :: ·)).toOption
      rw [toOption_map, toOption_map, hrest]

theorem Respects.readList {read : Reader α} (h : Respects read Alike) :
    Respects (readList read) Alike := by
  intro v w hv hw hrel
  cases hrel with
  | refl => rfl
  | object => rfl
  | array hitems =>
    exact toOption_mapM hitems fun x hx y hy =>
      h (hasDistinctKeys_array.mp hv x hx) (hasDistinctKeys_array.mp hw y hy)

/-- A severity is not read from an object with several keys, and with one key there is no order. -/
theorem respects_readSeverity : Respects readSeverity Alike := by
  intro v w hv hw h
  cases h with
  | refl => rfl
  | array => rfl
  | @object members others hkeys h =>
    have hlength : members.length = others.length := by simpa [Members.keys] using hkeys.length_eq
    rcases members with _ | ⟨⟨name, v⟩, _ | ⟨second, rest⟩⟩
    · obtain rfl := List.eq_nil_of_length_eq_zero hlength.symm
      rfl
    · obtain ⟨⟨other, w⟩, rfl⟩ := List.length_eq_one_iff.mp hlength.symm
      obtain rfl : name = other := by simpa [Members.keys] using hkeys
      have hnull := (h name v w (if_pos rfl) (if_pos rfl)).eq_null_iff
      by_cases hv' : v = .null
      · rw [hv', hnull.mp hv']
      · rw [toOption_readSeverity_single name hv',
          toOption_readSeverity_single name (mt hnull.mpr hv')]
    · obtain ⟨n, more, rfl⟩ := List.exists_cons_of_length_eq_add_one hlength.symm
      obtain ⟨n', more, rfl⟩ := List.exists_cons_of_length_eq_add_one (Nat.succ.inj hlength.symm)
      rfl

/-! ## Reading records -/

/-- Whether a field reads the same from related values. -/
def Field.Respects (field : Field σ) (rel : Value → Value → Prop) : Prop :=
  ∀ r, Decode.Respects (field.read · r) rel

theorem Respects.field {read : Reader α} (h : Respects read rel) {key : String} {required : Bool}
    {put : α → σ → σ} :
    (Field.mk key required fun v r => (read v).map fun x => put x r).Respects rel :=
  fun r => h.map fun x => put x r

theorem Field.Respects.fill {field : Field σ} (h : field.Respects rel) {found other : Option Value}
    (hfound : ∀ v, found = some v → v.hasDistinctKeys = true)
    (hother : ∀ w, other = some w → w.hasDistinctKeys = true) (hrel : Option.Rel rel found other)
    (r : σ) : field.fill found r = field.fill other r := by
  cases hrel with
  | none => rfl
  | some hvw => exact h r (hfound _ rfl) (hother _ rfl) hvw

variable {members others : Members Value} {relAt : String → Value → Value → Prop}

theorem fillFields_related {place other : String → Option Value}
    (hplace : ∀ key v, place key = some v → v.hasDistinctKeys = true)
    (hother : ∀ key v, other key = some v → v.hasDistinctKeys = true)
    (hrel : ∀ key, Option.Rel (relAt key) (place key) (other key))
    (hfields : ∀ f ∈ fields, f.Respects (relAt f.key)) (r : σ) :
    fillFields place fields r = fillFields other fields r := by
  induction fields generalizing r with
  | nil => rfl
  | cons field more ih =>
    obtain ⟨hfield, hmore⟩ := List.forall_mem_cons.mp hfields
    rw [fillFields, fillFields,
      hfield.fill (hplace field.key) (hother field.key) (hrel field.key)]
    exact congrArg _ (funext (ih hmore))

theorem recordOf_related
    (hmembers : ∀ key v, members.get? key = some v → v.hasDistinctKeys = true)
    (hothers : ∀ key v, others.get? key = some v → v.hasDistinctKeys = true)
    (hrel : ∀ key, Option.Rel (relAt key) (members.get? key) (others.get? key))
    (hfields : ∀ f ∈ fields, f.Respects (relAt f.key)) (initial : σ) :
    recordOf fields initial members = recordOf fields initial others := by
  have hcomplete : Complete fields (members.get? ·) ↔ Complete fields (others.get? ·) := by
    refine forall_congr' fun f => forall_congr' fun _ => ?_
    rw [isSome_eq_of_rel (hrel f.key)]
  rw [recordOf, recordOf, if_congr hcomplete rfl rfl,
    fillFields_related hmembers hothers hrel hfields]

/-- The members of records that are alike but for one field. -/
theorem membersAs_related {keys : List String} {v w : Value} (hinner : ∀ v, inner v v)
    (h : AlikeBut keys key inner v w) :
    Option.Rel
      (fun members others : Members Value => ∀ k,
        Option.Rel (if k = key then inner else Alike) (members.get? k) (others.get? k))
      (membersAs keys v) (membersAs keys w) := by
  cases h with
  | refl =>
    cases membersAs keys v with
    | none => exact .none
    | some members => exact .some fun k => rel_refl (ite_refl hinner (k = key)) _
  | object h => exact .some h
  | @array items others h =>
    rw [membersAs, membersAs, length_eq_of_isSome fun i => isSome_eq_of_rel (h i)]
    split
    · refine .some fun k => ?_
      rw [get?_itemMembers, get?_itemMembers]
      cases hk : keys.idxOf? k with
      | none => exact .none
      | some i =>
        obtain ⟨hlt, hget, -⟩ := List.idxOf?_eq_some_iff.mp hk
        have hi := h i
        rw [List.getElem?_eq_getElem hlt, hget] at hi
        simp only [Option.some.injEq] at hi
        exact hi
    · exact .none

theorem bind_eq_of_rel {γ δ : Type} {R : γ → γ → Prop} {x y : Option γ} {f : γ → Option δ}
    (h : Option.Rel R x y) (hf : ∀ a b, x = some a → y = some b → R a b → f a = f b) :
    x.bind f = y.bind f := by
  cases h with
  | none => rfl
  | some hab => exact hf _ _ rfl rfl hab

/-- Records that are alike but for one field are read alike if their fields are. -/
theorem respects_readRecord (h : Independent fields) (name : String) (initial : σ)
    (hinner : ∀ v, inner v v)
    (hfields : ∀ f ∈ fields, f.Respects (if f.key = key then inner else Alike)) :
    Respects (readRecord name fields initial) (AlikeBut (fields.map Field.key) key inner) := by
  intro v w hv hw hrel
  rw [readRecord_eq h name initial hv, readRecord_eq h name initial hw]
  refine bind_eq_of_rel (membersAs_related hinner hrel) fun members others hread hread' hboth => ?_
  exact recordOf_related (fun _ _ => hasDistinctKeys_of_membersAs hv hread)
    (fun _ _ => hasDistinctKeys_of_membersAs hw hread') hboth hfields initial

/-- Records whose fields do not mind the order of keys do not mind it either. -/
theorem respects_readRecord_alike (h : Independent fields) (name : String) (initial : σ)
    (hfields : ∀ f ∈ fields, f.Respects Alike) :
    Respects (readRecord name fields initial) Alike := by
  intro v w hv hw hrel
  refine respects_readRecord h name initial .refl (fun f hf => ?_) hv hw
    (hrel.alikeBut "" hv hw)
  rw [ite_self]
  exact hfields f hf

/-! ## Reading configurations -/

theorem respects_readFilePattern : Respects readFilePattern Alike := by
  refine respects_readRecord_alike independent_filePatternFields _ _ ?_
  simp only [filePatternFields, List.forall_mem_cons, List.not_mem_nil, false_imp_iff,
    implies_true, and_true]
  exact ⟨respects_readString.field, respects_readBool.field,
    respects_readString.readOption_alike.field⟩

theorem respects_readColocation : Respects readColocation Alike := by
  refine respects_readRecord_alike independent_colocationFields _ _ ?_
  simp only [colocationFields, List.forall_mem_cons, List.not_mem_nil, false_imp_iff,
    implies_true, and_true]
  exact ⟨respects_readBool.field,
    respects_readString.readList.field,
    respects_readFilePattern.readList.field,
    respects_readConvention.readOption_alike.field⟩

theorem respects_readFolder : Respects readFolder Alike := by
  refine respects_readRecord_alike independent_folderFields _ _ ?_
  simp only [folderFields, List.forall_mem_cons, List.not_mem_nil, false_imp_iff,
    implies_true, and_true]
  exact ⟨respects_readString.field,
    respects_readString.field,
    respects_readConvention.readOption_alike.field,
    respects_readString.readList.readOption_alike.field⟩

theorem respects_readFileNamingRule (pattern : String) :
    Respects (readFileNamingRule pattern) Alike := by
  refine respects_readRecord_alike independent_fileNamingFields _ _ ?_
  simp only [fileNamingFields, List.forall_mem_cons, List.not_mem_nil, false_imp_iff,
    implies_true, and_true]
  exact ⟨respects_readConvention.field,
    respects_readSeverity.readOption_alike.field⟩

/-- File naming rules are read in the order in which they stand. -/
theorem respects_readFileNaming : Respects readFileNaming RulesAlike := by
  intro v w hv hw h
  cases h with
  | other hobject h =>
    cases h with
    | refl => rfl
    | array => rfl
    | object => exact absurd rfl (hobject _)
  | object h =>
    refine toOption_mapM h fun m hm n hn ⟨hkey, hbody⟩ => ?_
    rw [← hkey]
    exact respects_readFileNamingRule m.1 ((hasDistinctKeys_object.mp hv).values m hm)
      ((hasDistinctKeys_object.mp hw).values n hn) hbody

theorem respects_readRules :
    Respects readRules (AlikeBut (rulesFields.map (·.key)) "fileNaming" RulesAlike) := by
  refine respects_readRecord independent_rulesFields _ _ RulesAlike.refl ?_
  simp only [rulesFields, List.forall_mem_cons, List.not_mem_nil, false_imp_iff, implies_true,
    and_true]
  exact ⟨respects_readColocation.readOption_alike.field,
    (respects_readFileNaming.readOption fun _ _ => RulesAlike.eq_null_iff).field,
    respects_readFolder.readList.readOption_alike.field⟩

theorem respects_readConfig : Respects readConfig ConfigAlike := by
  refine respects_readRecord independent_configFields _ _ .refl ?_
  simp only [configFields, List.forall_mem_cons, List.not_mem_nil, false_imp_iff, implies_true,
    and_true]
  exact ⟨respects_readString.readOption_alike.field,
    respects_readRules.field,
    respects_readString.readList.field,
    respects_readSeverity.field⟩

end Decode

end ProjectLayout
