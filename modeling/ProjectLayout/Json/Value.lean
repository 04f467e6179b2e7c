import ProjectLayout.Number.Binary64

/-!
# JSON values

* `Json.Value` — a document; objects keep the order of their members.
* `Json.Members` — members of an object: `set` keeps the place of a key it replaces, `erase` moves
  the last member to the freed place, `overlay` sets several members in turn.
* `get?_set` — what setting a key does to the value under a key.
-/

namespace ProjectLayout.Json

/-- The members of an object in order. -/
abbrev Members (α : Type) := List (String × α)

/-- A document. -/
inductive Value where
  | null
  | bool (b : Bool)
  | integer (n : Int)
  | float (x : Binary64)
  | string (s : String)
  | array (items : List Value)
  | object (members : List (String × Value))
  deriving Repr, Inhabited

/-! ## Members -/

namespace Members

variable {α : Type}

def get? (key : String) : Members α → Option α
  | [] => none
  | (k, v) :: rest => if k = key then some v else get? key rest

/-- The keys in order. -/
def keys (members : Members α) : List String := members.map Prod.fst

/-- The value under `key` replaced in place, or a new member at the end. -/
def set (key : String) (value : α) : Members α → Members α
  | [] => [(key, value)]
  | (k, v) :: rest => if k = key then (key, value) :: rest else (k, v) :: set key value rest

/-- The members without `key`; the last member takes its place. -/
def erase (key : String) : Members α → Members α
  | [] => []
  | (k, v) :: rest =>
    if k = key then
      match rest.getLast? with
      | none => []
      | some last => last :: rest.dropLast
    else (k, v) :: erase key rest

/-- The members with those of `more` set in turn. -/
def overlay (members more : Members α) : Members α :=
  more.foldl (fun acc m => acc.set m.1 m.2) members

/-- Members read in sequence: a repeated key keeps its first place and its last value. -/
def ofSequence (pairs : List (String × α)) : Members α := overlay [] pairs

theorem get?_set (members : Members α) (key : String) (value : α) (k : String) :
    get? k (set key value members) = if key = k then some value else get? k members := by
  induction members with
  | nil => simp [set, get?]
  | cons m rest ih =>
    obtain ⟨j, v⟩ := m
    unfold set
    by_cases hj : j = key
    · subst hj
      by_cases hk : j = k <;> simp [get?, hk]
    · by_cases hk : j = k
      · subst hk; simp [hj, get?, Ne.symm hj]
      · simp [hj, get?, hk, ih]

theorem keys_set (members : Members α) (key : String) (value : α) :
    keys (set key value members) =
      if key ∈ keys members then keys members else keys members ++ [key] := by
  induction members with
  | nil => simp [set, keys]
  | cons m rest ih =>
    obtain ⟨j, v⟩ := m
    unfold set
    simp only [keys] at ih
    by_cases hj : j = key
    · simp [hj, keys]
    · by_cases hm : key ∈ rest.map Prod.fst <;> simp_all [keys, Ne.symm hj]

theorem nodup_keys_set {members : Members α} (h : (keys members).Nodup) (key : String) (value : α) :
    (keys (set key value members)).Nodup := by
  rw [keys_set]
  split
  · exact h
  · next hn =>
    refine List.nodup_append.mpr ⟨h, by simp, fun a ha b hb he => hn ?_⟩
    rw [List.mem_singleton.mp hb] at he
    exact he ▸ ha

theorem nodup_keys_overlay {members : Members α} (h : (keys members).Nodup) (more : Members α) :
    (keys (overlay members more)).Nodup := by
  induction more generalizing members with
  | nil => exact h
  | cons m rest ih => exact ih (nodup_keys_set h m.1 m.2)

end Members

/-! ## Looking at a value -/

namespace Value

/-- The member of an object under a key. -/
def get? (key : String) : Value → Option Value
  | .object members => Members.get? key members
  | _ => none

/-- The text of a string. -/
def string? : Value → Option String
  | .string s => some s
  | _ => none

end Value

end ProjectLayout.Json
