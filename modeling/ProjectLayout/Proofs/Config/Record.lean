import ProjectLayout.Config.Decode
import ProjectLayout.Proofs.Json.Distinct
import ProjectLayout.Proofs.Outcome

/-!
# Records field by field

A record is read in the order of the document, and the first member that does not fit is reported.
What is read does not depend on that order: it is found by going through the fields instead, each
with the value that stands in its place.  An array of fields is read as the object with these
members.

* `Independent` — fields with keys of their own that put values into different parts of a record.
* `fillFields` — the fields one after another, each from the value in its place.
* `membersAs`, `valueAt` — what stands under the keys of a record, however it is written.
* `readRecord_eq` — a record from its fields.
* `part_of_readRecord` — what one field says about a record that is read.
* `independent_configFields` and others — the records of a configuration.
-/

namespace ProjectLayout

namespace Decode

open Json (Value Members hasDistinctKeys_object hasDistinctKeys_array)

variable {σ β : Type} {fields : List (Field σ)} {place other : String → Option Value}

/-! ## Fields -/

/-- The record with a field from the value in its place, if there is one. -/
def Field.fill (field : Field σ) (found : Option Value) (r : σ) : Option σ :=
  match found with
  | none => some r
  | some v => (field.read v r).toOption

/-- The record with its fields, each from the value in its place. -/
def fillFields (place : String → Option Value) : List (Field σ) → σ → Option σ
  | [], r => some r
  | field :: more, r => (field.fill (place field.key) r).bind (fillFields place more)

/-- Whether it does not matter which of two fields is read first. -/
def Field.Commutes (f g : Field σ) : Prop :=
  ∀ v w r, ((f.read v r).toOption.bind fun s => (g.read w s).toOption) =
    (g.read w r).toOption.bind fun s => (f.read v s).toOption

/-- Fields that can be told apart and read in any order. -/
structure Independent (fields : List (Field σ)) : Prop where
  nodup : (fields.map Field.key).Nodup
  commutes : fields.Pairwise Field.Commutes

/-- Whether all fields that may not be left out have a value in their place. -/
def Complete (fields : List (Field σ)) (place : String → Option Value) : Prop :=
  ∀ field ∈ fields, field.required = true → (place field.key).isSome = true

instance (fields : List (Field σ)) (place : String → Option Value) :
    Decidable (Complete fields place) :=
  inferInstanceAs (Decidable (∀ _ ∈ _, _))

/-- Whether a field puts what a reader gives into a record. -/
def Field.Puts {α : Type} (field : Field σ) (read : Reader α) (put : α → σ → σ) : Prop :=
  ∀ v r, field.read v r = (read v).map fun x => put x r

/-- Whether a field leaves a part of a record as it is. -/
def Field.Keeps (field : Field σ) (get : σ → β) : Prop :=
  ∀ v r s, field.read v r = .ok s → get s = get r

section

variable {α γ : Type} {f g : Field σ} {read : Reader α} {put : α → σ → σ} {read' : Reader γ}
  {put' : γ → σ → σ}

/-- A field puts what it reads into a record, whether or not it may be left out. -/
theorem Field.puts (key : String) (required : Bool) (read : Reader α) (put : α → σ → σ) :
    (Field.mk key required fun v r => (read v).map fun x => put x r).Puts read put :=
  fun _ _ => rfl

/-- Fields that put values into different parts of a record may be read in any order. -/
theorem Field.Puts.commutes (hf : f.Puts read put) (hg : g.Puts read' put')
    (h : ∀ x y r, put' y (put x r) = put x (put' y r)) : f.Commutes g := by
  intro v w r
  simp only [hf v, hg w]
  cases read v with
  | error e =>
    cases read' w with
    | error e' => rfl
    | ok y => rfl
  | ok x =>
    cases read' w with
    | error e' => rfl
    | ok y => exact congrArg some (h x y r)

theorem Field.commutes {key key' : String} {required required' : Bool}
    (h : ∀ x y r, put' y (put x r) = put x (put' y r)) :
    (Field.mk key required fun v r => (read v).map fun x => put x r).Commutes
      (Field.mk key' required' fun v r => (read' v).map fun x => put' x r) :=
  (Field.puts key required read put).commutes (Field.puts key' required' read' put') h

theorem Field.Puts.exists_of_read (hf : f.Puts read put) {v : Value} {r s : σ}
    (hread : f.read v r = .ok s) : ∃ x, read v = .ok x ∧ s = put x r := by
  rw [hf v r] at hread
  obtain ⟨x, hx, rfl⟩ := map_eq_ok hread
  exact ⟨x, hx, rfl⟩

theorem Field.keeps {key : String} {required : Bool} {get : σ → β}
    (h : ∀ x r, get (put x r) = get r) :
    (Field.mk key required fun v r => (read v).map fun x => put x r).Keeps get := by
  intro v r s hread
  obtain ⟨x, -, rfl⟩ := (Field.puts key required read put).exists_of_read hread
  exact h x r

theorem Field.Puts.read_eq_ok {get : σ → α} (hf : f.Puts read put)
    (h : ∀ x r, get (put x r) = x) {v : Value} {r s : σ} (hread : f.read v r = .ok s) :
    read v = .ok (get s) := by
  obtain ⟨x, hx, rfl⟩ := hf.exists_of_read hread
  rw [hx, h]

end

theorem fillFields_congr (h : ∀ field ∈ fields, place field.key = other field.key) (r : σ) :
    fillFields place fields r = fillFields other fields r := by
  induction fields generalizing r with
  | nil => rfl
  | cons field more ih =>
    obtain ⟨hfield, hmore⟩ := List.forall_mem_cons.mp h
    rw [fillFields, fillFields, hfield]
    exact congrArg _ (funext (ih hmore))

theorem fillFields_none (fields : List (Field σ)) (r : σ) :
    fillFields (fun _ => none) fields r = some r := by
  induction fields with
  | nil => rfl
  | cons field more ih => exact ih

theorem Field.Commutes.fill {f g : Field σ} (h : f.Commutes g) (found : Option Value) (v : Value)
    (r : σ) : ((f.fill found r).bind fun s => (g.read v s).toOption) =
      (g.read v r).toOption.bind (f.fill found) := by
  cases found with
  | none => exact (Option.bind_fun_some _).symm
  | some w => exact h w v r

/-- A field whose place gets a value may be read before all others. -/
theorem fillFields_insert (h : Independent fields) {field : Field σ} (hmem : field ∈ fields)
    (hplace : place field.key = none) (v : Value) (r : σ) :
    fillFields (fun key => if field.key = key then some v else place key) fields r =
      (field.read v r).toOption.bind (fillFields place fields) := by
  induction fields generalizing r with
  | nil => cases hmem
  | cons f more ih =>
    obtain ⟨hkey, hkeys⟩ := List.nodup_cons.mp h.nodup
    obtain ⟨hcommutes, hmore⟩ := List.pairwise_cons.mp h.commutes
    rw [fillFields]
    rcases List.mem_cons.mp hmem with rfl | hmem
    · have hrest : fillFields (fun key => if field.key = key then some v else place key) more =
          fillFields place more := by
        refine funext (fillFields_congr fun g hg => if_neg fun heq => hkey ?_)
        exact heq ▸ List.mem_map_of_mem hg
      rw [if_pos rfl, hrest]
      refine congrArg _ (funext fun s => ?_)
      rw [fillFields, hplace]
      rfl
    · have hne : field.key ≠ f.key := fun heq => hkey (heq ▸ List.mem_map_of_mem hmem)
      calc
        (f.fill (if field.key = f.key then some v else place f.key) r).bind (fillFields _ more)
        _ = (f.fill (place f.key) r).bind fun s =>
              (field.read v s).toOption.bind (fillFields place more) := by
          rw [if_neg hne]
          exact congrArg _ (funext (ih ⟨hkeys, hmore⟩ hmem))
        _ = ((f.fill (place f.key) r).bind fun s => (field.read v s).toOption).bind
              (fillFields place more) := (Option.bind_assoc _ _ _).symm
        _ = (field.read v r).toOption.bind fun s =>
              (f.fill (place f.key) s).bind (fillFields place more) := by
          rw [(hcommutes field hmem).fill, Option.bind_assoc]

/-! ## Members and items -/

theorem readMembers_eq_fillFields (h : Independent fields) {members : Members Value}
    (hmembers : (Members.keys members).Nodup) (r : σ) :
    (readMembers fields members r).toOption =
      fillFields (fun key => members.get? key) fields r := by
  induction members generalizing r with
  | nil => exact (fillFields_none fields r).symm
  | cons m rest ih =>
    obtain ⟨key, v⟩ := m
    obtain ⟨hkey, hrest⟩ := List.nodup_cons.mp hmembers
    rw [readMembers]
    split
    · next hnone =>
      rw [ih hrest]
      refine (fillFields_congr fun field hfield => ?_) r
      have hne : field.key ≠ key := by simpa using List.find?_eq_none.mp hnone field hfield
      rw [Members.get?_cons, if_neg (Ne.symm hne)]
    · next field hfield =>
      have hsame : field.key = key := by simpa using List.find?_some hfield
      have hinsert := @fillFields_insert _ _ (Members.get? · rest) h _
        (List.mem_of_find?_eq_some hfield) (Members.get?_eq_none_iff.mpr (hsame ▸ hkey)) v r
      rw [hsame] at hinsert
      show _ = fillFields (fun k => if key = k then some v else Members.get? k rest) fields r
      rw [hinsert]
      split
      · next e herror =>
        rw [herror]
        rfl
      · next s hread =>
        rw [hread, ih hrest]
        rfl

/-- The members that an array of fields stands for. -/
def itemMembers (keys : List String) (items : List Value) : Members Value := keys.zip items

theorem complete_cons {field : Field σ} :
    Complete (field :: fields) place ↔
      (field.required = true → (place field.key).isSome = true) ∧ Complete fields place :=
  List.forall_mem_cons

theorem complete_congr (h : ∀ field ∈ fields, place field.key = other field.key) :
    Complete fields place ↔ Complete fields other := by
  unfold Complete
  exact forall_congr' fun field => forall_congr' fun hfield => by rw [h field hfield]

theorem get?_itemMembers_cons (key : String) (keys : List String) (v : Value) (rest : List Value)
    (k : String) :
    (itemMembers (key :: keys) (v :: rest)).get? k =
      if key = k then some v else (itemMembers keys rest).get? k := rfl

/-- An item stands for the key at its place. -/
theorem get?_itemMembers (keys : List String) (items : List Value) (key : String) :
    (itemMembers keys items).get? key = (keys.idxOf? key).bind (items[·]?) := by
  induction keys generalizing items with
  | nil => rfl
  | cons k keys ih =>
    cases items with
    | nil => simp [itemMembers, Members.get?]
    | cons v rest =>
      rw [get?_itemMembers_cons, List.idxOf?_cons]
      by_cases hk : k = key
      · simp [hk]
      · rw [if_neg hk, if_neg (by simpa using hk), ih, Option.bind_map]
        rfl

theorem readItems_nil (name : String) (all : List (Field σ)) (given : List Value) (index : Nat)
    (r : σ) : (readItems.go name all given index fields [] r).toOption =
      if Complete fields fun _ => none then some r else none := by
  induction fields generalizing index with
  | nil => rfl
  | cons field more ih =>
    rw [readItems.go]
    by_cases hrequired : field.required = true
    · have hincomplete : ¬ Complete (field :: more) fun _ => none := fun h => by
        cases h field List.mem_cons_self hrequired
      rw [if_pos hrequired, if_neg hincomplete]
      rfl
    · rw [if_neg hrequired, ih]
      exact if_congr (by simp [complete_cons, hrequired]) rfl rfl

/-- The items of an array, one for each field, give what the members give that they stand for. -/
theorem readItems_eq_fillFields (name : String) (all : List (Field σ)) (given : List Value)
    (index : Nat) (h : (fields.map Field.key).Nodup) (items : List Value) (r : σ) :
    (readItems.go name all given index fields items r).toOption =
      if items.length ≤ fields.length ∧
          Complete fields fun key => (itemMembers (fields.map Field.key) items).get? key then
        fillFields (fun key => (itemMembers (fields.map Field.key) items).get? key) fields r
      else none := by
  induction fields generalizing index items r with
  | nil =>
    cases items with
    | nil => rfl
    | cons v rest => rfl
  | cons field more ih =>
    obtain ⟨hkey, hmore⟩ := List.nodup_cons.mp h
    cases items with
    | nil =>
      have hempty (k : String) :
          (itemMembers ((field :: more).map Field.key) []).get? k = none := rfl
      simp only [readItems_nil, hempty, fillFields_none, List.length_nil, Nat.zero_le, true_and]
    | cons v rest =>
      have hrest : ∀ f ∈ more,
          (itemMembers ((field :: more).map Field.key) (v :: rest)).get? f.key =
            (itemMembers (more.map Field.key) rest).get? f.key := by
        intro f hf
        refine if_neg fun heq : field.key = f.key => hkey ?_
        exact heq ▸ List.mem_map_of_mem hf
      have hfirst : (itemMembers ((field :: more).map Field.key) (v :: rest)).get? field.key =
          some v := if_pos rfl
      have hcondition : ((v :: rest).length ≤ (field :: more).length ∧ Complete (field :: more)
            fun key => (itemMembers ((field :: more).map Field.key) (v :: rest)).get? key) ↔
          rest.length ≤ more.length ∧
            Complete more fun key => (itemMembers (more.map Field.key) rest).get? key := by
        have hcomplete : (Complete more
              fun key => (itemMembers ((field :: more).map Field.key) (v :: rest)).get? key) ↔
            Complete more fun key => (itemMembers (more.map Field.key) rest).get? key :=
          complete_congr hrest
        rw [complete_cons, hcomplete, hfirst]
        simp
      rw [readItems.go, if_congr hcondition rfl rfl, fillFields, hfirst, Field.fill]
      cases field.read v r with
      | error e => exact (ite_self none).symm
      | ok s =>
        show (readItems.go name all given (index + 1) more rest s).toOption = _
        rw [ih (index + 1) hmore]
        exact if_congr Iff.rfl (fillFields_congr hrest s).symm rfl

/-! ## Records -/

/-- The members that a record is written with: those of an object, or those that the items of an
array stand for. -/
def membersAs (keys : List String) : Value → Option (Members Value)
  | .object members => some members
  | .array items => if items.length ≤ keys.length then some (itemMembers keys items) else none
  | .null | .bool _ | .integer _ | .float _ | .string _ => none

/-- The record with these members, if nothing is missing and everything fits. -/
def recordOf (fields : List (Field σ)) (initial : σ) (members : Members Value) : Option σ :=
  if Complete fields (members.get? ·) then fillFields (members.get? ·) fields initial else none

theorem any_key_eq_isSome (members : Members Value) (key : String) :
    members.any (·.1 == key) = (members.get? key).isSome := by
  induction members with
  | nil => rfl
  | cons m rest ih =>
    rw [List.any_cons, Members.get?_cons, ih]
    by_cases hkey : m.1 = key
    · simp [hkey]
    · simp [hkey]

theorem find?_missing_eq_none_iff {members : Members Value} :
    (fields.find? fun f => f.required && !members.any (·.1 == f.key)) = none ↔
      Complete fields (members.get? ·) := by
  rw [List.find?_eq_none, Complete]
  refine forall_congr' fun field => forall_congr' fun _ => ?_
  rw [any_key_eq_isSome]
  cases field.required <;> simp [Option.isSome_iff_ne_none]

/-- A record, whichever way it is written. -/
theorem readRecord_eq (h : Independent fields) (name : String) (initial : σ) {v : Value}
    (hv : v.hasDistinctKeys = true) :
    (readRecord name fields initial v).toOption =
      (membersAs (fields.map Field.key) v).bind (recordOf fields initial) := by
  cases v with
  | object members =>
    have hmembers := readMembers_eq_fillFields h (hasDistinctKeys_object.mp hv).nodup initial
    show _ = recordOf fields initial members
    rw [recordOf, ← hmembers, readRecord]
    cases readMembers fields members initial with
    | error e => exact (ite_self none).symm
    | ok r =>
      by_cases hcomplete : Complete fields (Members.get? · members)
      · simp only [find?_missing_eq_none_iff.mpr hcomplete, if_pos hcomplete]
      · obtain ⟨field, hfield⟩ :=
          Option.ne_none_iff_exists'.mp (mt find?_missing_eq_none_iff.mp hcomplete)
        simp only [hfield, if_neg hcomplete]
        rfl
  | array items =>
    have hitems := readItems_eq_fillFields name fields items 0 h.nodup items initial
    rw [readRecord, readItems, hitems, membersAs, List.length_map]
    by_cases hlength : items.length ≤ fields.length
    · rw [if_pos hlength, if_congr (and_iff_right hlength) rfl rfl]
      rfl
    · rw [if_neg hlength, if_neg fun hboth => hlength hboth.1]
      rfl
  | _ => rfl

/-- A record that is read has all that it needs, and its fields are filled. -/
theorem exists_members_of_readRecord (h : Independent fields) {name : String} {initial r : σ}
    {v : Value} (hv : v.hasDistinctKeys = true) (hread : readRecord name fields initial v = .ok r) :
    ∃ members, membersAs (fields.map Field.key) v = some members ∧
      Complete fields (members.get? ·) ∧ fillFields (members.get? ·) fields initial = some r := by
  have hrecord := readRecord_eq h name initial hv
  rw [hread] at hrecord
  obtain ⟨members, hmembers, hof⟩ := Option.bind_eq_some_iff.mp hrecord.symm
  rw [recordOf] at hof
  split at hof
  · next hcomplete => exact ⟨members, hmembers, hcomplete, hof⟩
  · cases hof

/-! ## Parts of a record -/

theorem Field.Keeps.fill {get : σ → β} {field : Field σ} (h : field.Keeps get)
    {found : Option Value} {r s : σ} (hfill : field.fill found r = some s) : get s = get r := by
  cases found with
  | none => rw [Option.some.inj hfill]
  | some v => exact h v r s (eq_ok_of_toOption hfill)

theorem fillFields_cons_eq_some_iff {field : Field σ} {r s : σ} :
    fillFields place (field :: fields) r = some s ↔
      ∃ r', field.fill (place field.key) r = some r' ∧ fillFields place fields r' = some s :=
  Option.bind_eq_some_iff

theorem get_of_fillFields {get : σ → β} (h : ∀ f ∈ fields, f.Keeps get) {r s : σ}
    (hfill : fillFields place fields r = some s) : get s = get r := by
  induction fields generalizing r with
  | nil => rw [Option.some.inj hfill]
  | cons f more ih =>
    obtain ⟨hf, hmore⟩ := List.forall_mem_cons.mp h
    obtain ⟨r', hfirst, hrest⟩ := fillFields_cons_eq_some_iff.mp hfill
    rw [ih hmore hrest, hf.fill hfirst]

/-- A part of a record stays as it is where its field has no value, and is read otherwise. -/
theorem part_of_fillFields {α : Type} {get : σ → α} {read : Reader α} {put : α → σ → σ}
    {field : Field σ} (hkeys : (fields.map Field.key).Nodup) (hfield : field ∈ fields)
    (hputs : field.Puts read put) (hput : ∀ x r, get (put x r) = x)
    (hothers : ∀ f ∈ fields, f.key ≠ field.key → f.Keeps get) {r s : σ}
    (h : fillFields place fields r = some s) :
    (place field.key = none ∧ get s = get r) ∨
      ∃ v, place field.key = some v ∧ read v = .ok (get s) := by
  induction fields generalizing r with
  | nil => cases hfield
  | cons f more ih =>
    obtain ⟨hkey, hmore⟩ := List.nodup_cons.mp hkeys
    obtain ⟨hf, hrest⟩ := List.forall_mem_cons.mp hothers
    obtain ⟨r', hfirst, hlater⟩ := fillFields_cons_eq_some_iff.mp h
    rcases List.mem_cons.mp hfield with rfl | hmem
    · have hget : get s = get r' := by
        refine get_of_fillFields (fun g hg => hrest g hg fun heq => hkey ?_) hlater
        exact heq ▸ List.mem_map_of_mem hg
      rw [hget]
      cases hplace : place field.key with
      | none =>
        rw [hplace] at hfirst
        exact .inl ⟨rfl, by rw [Option.some.inj hfirst]⟩
      | some v =>
        rw [hplace] at hfirst
        exact .inr ⟨v, rfl, hputs.read_eq_ok hput (eq_ok_of_toOption hfirst)⟩
    · have hne : f.key ≠ field.key := fun heq => hkey (heq ▸ List.mem_map_of_mem hmem)
      rw [← (hf hne).fill hfirst]
      exact ih hmore hmem hrest hlater

theorem hasDistinctKeys_of_membersAs {keys : List String} {members : Members Value} {v : Value}
    (hv : v.hasDistinctKeys = true) (h : membersAs keys v = some members) {k : String} {x : Value}
    (hx : members.get? k = some x) : x.hasDistinctKeys = true := by
  cases v with
  | object own =>
    obtain rfl := Option.some.inj h
    exact (hasDistinctKeys_object.mp hv).get? hx
  | array items =>
    rw [membersAs] at h
    split at h
    · obtain rfl := Option.some.inj h
      exact hasDistinctKeys_array.mp hv x (List.of_mem_zip (Members.mem_of_get? hx)).2
    · cases h
  | _ => cases h

/-- What stands under a key of a record, however the record is written. -/
def valueAt (fields : List (Field σ)) (key : String) (v : Value) : Option Value :=
  (membersAs (fields.map Field.key) v).bind (·.get? key)

theorem hasDistinctKeys_of_valueAt {key : String} {v w : Value} (hv : v.hasDistinctKeys = true)
    (h : valueAt fields key v = some w) : w.hasDistinctKeys = true := by
  obtain ⟨members, hmembers, hget⟩ := Option.bind_eq_some_iff.mp h
  exact hasDistinctKeys_of_membersAs hv hmembers hget

theorem get_of_readRecord (h : Independent fields) {get : σ → β}
    (hkeeps : ∀ f ∈ fields, f.Keeps get) {name : String} {initial r : σ} {v : Value}
    (hv : v.hasDistinctKeys = true)
    (hread : readRecord name fields initial v = .ok r) : get r = get initial := by
  obtain ⟨members, -, -, hfill⟩ := exists_members_of_readRecord h hv hread
  exact get_of_fillFields hkeeps hfill

/-- A part of a record is what stands under the key of its field; it stays as it was where the field
may be left out and is. -/
theorem part_of_readRecord (h : Independent fields) {α : Type} {get : σ → α} {read : Reader α}
    {put : α → σ → σ} {field : Field σ} (hfield : field ∈ fields) (hputs : field.Puts read put)
    (hput : ∀ x r, get (put x r) = x) (hothers : ∀ f ∈ fields, f.key ≠ field.key → f.Keeps get)
    {name : String} {initial r : σ} {v : Value} (hv : v.hasDistinctKeys = true)
    (hread : readRecord name fields initial v = .ok r) :
    (valueAt fields field.key v = none ∧ field.required = false ∧ get r = get initial) ∨
      ∃ w, valueAt fields field.key v = some w ∧ read w = .ok (get r) := by
  obtain ⟨members, hmembers, hcomplete, hfill⟩ := exists_members_of_readRecord h hv hread
  have hvalue : valueAt fields field.key v = members.get? field.key := by
    rw [valueAt, hmembers, Option.bind_some]
  rw [hvalue]
  refine (part_of_fillFields h.nodup hfield hputs hput hothers hfill).imp_left fun ⟨hnone, hget⟩ =>
    ⟨hnone, ?_, hget⟩
  refine Bool.eq_false_iff.mpr fun hrequired => ?_
  have hsome : (members.get? field.key).isSome = true := hcomplete field hfield hrequired
  rw [hnone] at hsome
  cases hsome

/-! ## Configurations -/

theorem readOption_of_ne {α : Type} {read : Reader α} {v : Value} (h : v ≠ .null) :
    readOption read v = (read v).map some := by
  cases v with
  | null => exact absurd rfl h
  | _ => rfl

theorem readOption_cases {α : Type} {read : Reader α} {v : Value} {x : Option α}
    (h : readOption read v = .ok x) :
    (v = .null ∧ x = none) ∨ ∃ y, read v = .ok y ∧ x = some y := by
  by_cases hv : v = .null
  · subst hv
    exact .inl ⟨rfl, (Except.ok.inj h).symm⟩
  · rw [readOption_of_ne hv] at h
    obtain ⟨y, hy, rfl⟩ := map_eq_ok h
    exact .inr ⟨y, hy, rfl⟩

theorem toOption_readSeverity_single (name : String) {v : Value} (h : v ≠ .null) :
    (readSeverity (.object [(name, v)])).toOption = none := by
  cases hname : severityOf name with
  | error e => simp [readSeverity, hname, Except.toOption]
  | ok severity =>
    cases v with
    | null => exact absurd rfl h
    | _ => simp [readSeverity, hname, Except.toOption]

theorem independent_filePatternFields : Independent filePatternFields where
  nodup := by decide
  commutes := by
    simp only [filePatternFields, List.pairwise_cons, List.forall_mem_cons, List.Pairwise.nil,
      List.not_mem_nil, false_imp_iff, implies_true, and_true]
    and_intros <;> exact Field.commutes fun _ _ _ => rfl

theorem independent_colocationFields : Independent colocationFields where
  nodup := by decide
  commutes := by
    simp only [colocationFields, List.pairwise_cons, List.forall_mem_cons, List.Pairwise.nil,
      List.not_mem_nil, false_imp_iff, implies_true, and_true]
    and_intros <;> exact Field.commutes fun _ _ _ => rfl

theorem independent_fileNamingFields : Independent fileNamingFields where
  nodup := by decide
  commutes := by
    simp only [fileNamingFields, List.pairwise_cons, List.forall_mem_cons, List.Pairwise.nil,
      List.not_mem_nil, false_imp_iff, implies_true, and_true]
    exact Field.commutes fun _ _ _ => rfl

theorem independent_folderFields : Independent folderFields where
  nodup := by decide
  commutes := by
    simp only [folderFields, List.pairwise_cons, List.forall_mem_cons, List.Pairwise.nil,
      List.not_mem_nil, false_imp_iff, implies_true, and_true]
    and_intros <;> exact Field.commutes fun _ _ _ => rfl

theorem independent_rulesFields : Independent rulesFields where
  nodup := by decide
  commutes := by
    simp only [rulesFields, List.pairwise_cons, List.forall_mem_cons, List.Pairwise.nil,
      List.not_mem_nil, false_imp_iff, implies_true, and_true]
    and_intros <;> exact Field.commutes fun _ _ _ => rfl

theorem independent_configFields : Independent configFields where
  nodup := by decide
  commutes := by
    simp only [configFields, List.pairwise_cons, List.forall_mem_cons, List.Pairwise.nil,
      List.not_mem_nil, false_imp_iff, implies_true, and_true]
    and_intros <;> exact Field.commutes fun _ _ _ => rfl

end Decode

end ProjectLayout
