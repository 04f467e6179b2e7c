import Mathlib.Data.List.Forall2
import ProjectLayout.Proofs.Json.Members

/-!
# Values up to the order of keys

* `Alike` — that two values are the same, the order of keys in their objects aside.
* `alike_object_iff` — objects are alike if alike values stand under the same keys.
* `length_eq_of_alike` — arrays that are alike have as many items.
-/

namespace ProjectLayout.Json

/-- Whether two values are the same, apart from the order of keys at any depth. -/
inductive Alike : Value → Value → Prop where
  | refl (v : Value) : Alike v v
  | array {items others : List Value} (h : List.Forall₂ Alike items others) :
      Alike (.array items) (.array others)
  | object {members others : Members Value}
      (hkeys : (Members.keys members).Perm (Members.keys others))
      (h : ∀ key v w, members.get? key = some v → others.get? key = some w → Alike v w) :
      Alike (.object members) (.object others)

theorem relAlike_refl (found : Option Value) : Option.Rel Alike found found := by
  cases found with
  | none => exact .none
  | some v => exact .some (.refl v)

variable {members others : Members Value}

/-- Members with distinct keys are alike if alike values stand under the same keys. -/
theorem alike_object_iff (hmembers : (Members.keys members).Nodup)
    (hothers : (Members.keys others).Nodup) :
    Alike (.object members) (.object others) ↔
      ∀ key, Option.Rel Alike (members.get? key) (others.get? key) := by
  constructor
  · intro h key
    cases h with
    | refl => exact relAlike_refl _
    | object hkeys h =>
      have hnone : members.get? key = none ↔ others.get? key = none := by
        rw [Members.get?_eq_none_iff, Members.get?_eq_none_iff, hkeys.mem_iff]
      cases hv : members.get? key with
      | none =>
        rw [hnone.mp hv]
        exact .none
      | some v =>
        cases hw : others.get? key with
        | none => exact absurd (hnone.mpr hw) (by simp [hv])
        | some w => exact .some (h key v w hv hw)
  · intro h
    have hnone (key : String) : members.get? key = none ↔ others.get? key = none := by
      have hkey := h key
      generalize members.get? key = found, others.get? key = other at hkey ⊢
      cases hkey <;> simp
    refine .object ((List.perm_ext_iff_of_nodup hmembers hothers).mpr fun key => ?_) ?_
    · rw [← not_iff_not, ← Members.get?_eq_none_iff, ← Members.get?_eq_none_iff, hnone]
    · intro key v w hv hw
      have hkey := h key
      rw [hv, hw] at hkey
      cases hkey with
      | some hvw => exact hvw

theorem length_eq_of_alike {items more : List Value}
    (h : Alike (.array items) (.array more)) : items.length = more.length := by
  cases h with
  | refl => rfl
  | array h => exact h.length_eq

end ProjectLayout.Json
