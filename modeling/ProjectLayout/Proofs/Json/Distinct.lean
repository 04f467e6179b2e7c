import ProjectLayout.Json.Parser
import ProjectLayout.Proofs.Json.Members

/-!
# Documents in which no object has a key twice

The order of members is kept, but what an object means is what stands under its keys.  That is
well defined where no key stands twice, at any depth.

* `Value.hasDistinctKeys` — that no object in a document has a key twice.
* `hasDistinctKeys_of_parse` — every document that is read is of this kind.
* `HaveDistinctKeys` — members of such an object; `set`, `erase` and `overlay` keep it.
-/

namespace ProjectLayout.Json

mutual

/-- Whether no object in a value has a key twice. -/
def Value.hasDistinctKeys : Value → Bool
  | .array items => itemsHaveDistinctKeys items
  | .object members => decide (Members.keys members).Nodup && membersHaveDistinctKeys members
  | .null | .bool _ | .integer _ | .float _ | .string _ => true

def itemsHaveDistinctKeys : List Value → Bool
  | [] => true
  | v :: more => v.hasDistinctKeys && itemsHaveDistinctKeys more

def membersHaveDistinctKeys : List (String × Value) → Bool
  | [] => true
  | (_, v) :: more => v.hasDistinctKeys && membersHaveDistinctKeys more

end

/-- Members of an object with distinct keys, their values with distinct keys throughout. -/
structure HaveDistinctKeys (members : Members Value) : Prop where
  nodup : (Members.keys members).Nodup
  values : ∀ m ∈ members, m.2.hasDistinctKeys = true

theorem hasDistinctKeys_array {items : List Value} :
    (Value.array items).hasDistinctKeys = true ↔ ∀ v ∈ items, v.hasDistinctKeys = true := by
  rw [Value.hasDistinctKeys]
  induction items with
  | nil => simp [itemsHaveDistinctKeys]
  | cons v more ih => simp [itemsHaveDistinctKeys, ih]

theorem hasDistinctKeys_object {members : Members Value} :
    (Value.object members).hasDistinctKeys = true ↔ HaveDistinctKeys members := by
  have hvalues : membersHaveDistinctKeys members = true ↔
      ∀ m ∈ members, m.2.hasDistinctKeys = true := by
    induction members with
    | nil => simp [membersHaveDistinctKeys]
    | cons m more ih =>
      obtain ⟨key, v⟩ := m
      simp [membersHaveDistinctKeys, ih]
  rw [Value.hasDistinctKeys, Bool.and_eq_true, decide_eq_true_iff, hvalues]
  exact ⟨fun ⟨hn, hv⟩ => ⟨hn, hv⟩, fun h => ⟨h.nodup, h.values⟩⟩

/-! ## Members -/

namespace HaveDistinctKeys

variable {members more : Members Value}

theorem nil : HaveDistinctKeys [] := ⟨List.nodup_nil, nofun⟩

theorem get? (h : HaveDistinctKeys members) {key : String} {v : Value}
    (hv : members.get? key = some v) : v.hasDistinctKeys = true :=
  h.values _ (Members.mem_of_get? hv)

theorem set (h : HaveDistinctKeys members) (key : String) {v : Value}
    (hv : v.hasDistinctKeys = true) : HaveDistinctKeys (members.set key v) where
  nodup := Members.nodup_keys_set h.nodup key v
  values m hm := by
    rcases Members.mem_of_mem_set hm with rfl | hm
    · exact hv
    · exact h.values m hm

theorem erase (h : HaveDistinctKeys members) (key : String) :
    HaveDistinctKeys (members.erase key) where
  nodup := Members.nodup_keys_erase h.nodup key
  values m hm := h.values m (Members.mem_of_mem_erase h.nodup hm)

/-- What is overlaid may have a key twice. -/
theorem overlay (h : HaveDistinctKeys members) (hmore : ∀ m ∈ more, m.2.hasDistinctKeys = true) :
    HaveDistinctKeys (members.overlay more) where
  nodup := Members.nodup_keys_overlay h.nodup more
  values m hm := by
    rcases Members.mem_of_mem_overlay hm with hm | hm
    · exact hmore m hm
    · exact h.values m hm

end HaveDistinctKeys

/-! ## Documents that are read -/

/-- Whether a value is a number. -/
def Value.IsNumber : Value → Prop
  | .integer _ | .float _ => True
  | _ => False

theorem Value.IsNumber.hasDistinctKeys {v : Value} (h : v.IsNumber) :
    v.hasDistinctKeys = true := by
  cases v with
  | integer n => rfl
  | float x => rfl
  | _ => exact h.elim

/-- That a reader gives only values of a kind. -/
def Reads (item : Reader Value) (P : Value → Prop) : Prop :=
  ∀ ⦃s v left⦄, item s = .ok (v, left) → P v

variable {negative : Bool} {significand : Nat} {exponent : Int}

theorem reads_makeFloat : Reads (makeFloat negative significand exponent) Value.IsNumber := by
  intro s v left h
  unfold makeFloat at h
  split at h
  · obtain ⟨rfl, -⟩ := Prod.mk.inj (Except.ok.inj h)
    trivial
  · cases h

theorem reads_readExponent : Reads (readExponent negative significand exponent) Value.IsNumber := by
  intro s v left h
  unfold readExponent at h
  split at h
  split at h
  · cases h
  split at h
  · split at h
    split at h
    · split at h
      · cases h
      · obtain ⟨rfl, -⟩ := Prod.mk.inj (Except.ok.inj h)
        trivial
    · exact reads_makeFloat h
  · cases h

theorem reads_readFloatEnd : Reads (readFloatEnd negative significand exponent) Value.IsNumber := by
  intro s v left h
  unfold readFloatEnd at h
  split at h
  · exact reads_readExponent h
  · exact reads_readExponent h
  · exact reads_makeFloat h

theorem reads_readFraction : Reads (readFraction negative significand exponent) Value.IsNumber := by
  intro s v left h
  unfold readFraction at h
  split at h
  extract_lets at h
  split at h
  · exact reads_readFloatEnd h
  split at h
  · cases h
  · exact reads_readFloatEnd h

theorem reads_readNumberEnd (whole : Nat) :
    Reads (readNumberEnd negative whole) Value.IsNumber := by
  intro s v left h
  unfold readNumberEnd at h
  split at h
  · exact reads_readFraction h
  · exact reads_readExponent h
  · exact reads_readExponent h
  split at h
  · obtain ⟨rfl, -⟩ := Prod.mk.inj (Except.ok.inj h)
    trivial
  split at h
  · obtain ⟨rfl, -⟩ := Prod.mk.inj (Except.ok.inj h)
    trivial
  · obtain ⟨rfl, -⟩ := Prod.mk.inj (Except.ok.inj h)
    trivial

theorem reads_readNumber : Reads (readNumber negative) Value.IsNumber := by
  intro s v left h
  unfold readNumber at h
  split at h
  · cases h
  split at h
  · split at h
    · cases h
    · exact reads_readNumberEnd 0 h
  split at h
  · split at h
    split at h
    · dsimp only at h
      split at h
      · exact reads_readFraction h
      · exact reads_readFloatEnd h
    · exact reads_readNumberEnd _ h
  · cases h

section

variable {P : Value → Prop} {item : Reader Value}

theorem forall_of_readItems (hitem : Reads item P) {fuel : Nat} {s : List Char} {items : List Value}
    {left : List Char} (h : readItems item fuel s = .ok (items, left)) : ∀ v ∈ items, P v := by
  induction fuel generalizing s items left with
  | zero => cases h
  | succ fuel ih =>
    unfold readItems at h
    split at h
    · cases h
    next v after hv =>
    split at h
    · cases h
    · obtain ⟨rfl, -⟩ := Prod.mk.inj (Except.ok.inj h)
      simpa using hitem hv
    · split at h
      · cases h
      · cases h
      split at h
      · cases h
      next more rest hmore =>
      obtain ⟨rfl, -⟩ := Prod.mk.inj (Except.ok.inj h)
      exact List.forall_mem_cons.mpr ⟨hitem hv, ih hmore⟩
    · cases h

theorem reads_readMemberValue (hitem : Reads item P) : Reads (readMemberValue item) P := by
  intro s v left h
  unfold readMemberValue at h
  split at h
  · cases h
  · exact hitem h
  · cases h

theorem forall_of_readMembers (hitem : Reads item P) {fuel : Nat} {s : List Char}
    {pairs : List (String × Value)} {left : List Char}
    (h : readMembers item fuel s = .ok (pairs, left)) : ∀ m ∈ pairs, P m.2 := by
  induction fuel generalizing s pairs left with
  | zero => cases h
  | succ fuel ih =>
    unfold readMembers at h
    split at h
    · split at h
      · cases h
      split at h
      · cases h
      next v after hv =>
      have hP := reads_readMemberValue hitem hv
      split at h
      · cases h
      · obtain ⟨rfl, -⟩ := Prod.mk.inj (Except.ok.inj h)
        simpa using hP
      · split at h
        · cases h
        · cases h
        split at h
        · cases h
        next more rest hmore =>
        obtain ⟨rfl, -⟩ := Prod.mk.inj (Except.ok.inj h)
        exact List.forall_mem_cons.mpr ⟨hP, ih hmore⟩
      · cases h
    · cases h

end

theorem hasDistinctKeys_of_map {α : Type} {x : Except Failure α} {f : α → Value × List Char}
    {v : Value} {left : List Char} (h : x.map f = .ok (v, left))
    (hf : ∀ a, x = .ok a → (f a).1.hasDistinctKeys = true) : v.hasDistinctKeys = true := by
  cases x with
  | error e => cases h
  | ok a =>
    have hv : f a = (v, left) := Except.ok.inj h
    have hread := hf a rfl
    rwa [hv] at hread

/-- Of members with one key an object keeps the last. -/
theorem reads_readValue (fuel depth : Nat) :
    Reads (readValue fuel depth) (·.hasDistinctKeys = true) := by
  induction depth using Nat.strongRecOn with
  | ind depth ih =>
    intro s v left h
    unfold readValue at h
    split at h
    · cases h
    · exact hasDistinctKeys_of_map h fun _ _ => rfl
    · exact hasDistinctKeys_of_map h fun _ _ => rfl
    · exact hasDistinctKeys_of_map h fun _ _ => rfl
    · exact (reads_readNumber h).hasDistinctKeys
    · exact hasDistinctKeys_of_map h fun _ _ => rfl
    · split at h
      · cases h
      next inner =>
      split at h
      · cases h
      · obtain ⟨rfl, -⟩ := Prod.mk.inj (Except.ok.inj h)
        rfl
      · refine hasDistinctKeys_of_map h fun _ hitems => hasDistinctKeys_array.mpr ?_
        exact forall_of_readItems (ih inner (Nat.lt_succ_self _)) hitems
    · split at h
      · cases h
      next inner =>
      split at h
      · cases h
      · obtain ⟨rfl, -⟩ := Prod.mk.inj (Except.ok.inj h)
        rfl
      · refine hasDistinctKeys_of_map h fun _ hpairs => hasDistinctKeys_object.mpr ?_
        exact .overlay .nil (forall_of_readMembers (ih inner (Nat.lt_succ_self _)) hpairs)
    · split at h
      · exact (reads_readNumber h).hasDistinctKeys
      · cases h

/-- Every document that is read has distinct keys. -/
theorem hasDistinctKeys_of_parse {text : String} {v : Value} (h : Value.parse text = .ok v) :
    v.hasDistinctKeys = true := by
  unfold Value.parse at h
  split at h
  · next document hdocument =>
    obtain rfl := Except.ok.inj h
    unfold readDocument at hdocument
    split at hdocument
    · cases hdocument
    next read left hread =>
    split at hdocument
    · obtain rfl := Except.ok.inj hdocument
      exact reads_readValue _ _ hread
    · cases hdocument
  · cases h

end ProjectLayout.Json
