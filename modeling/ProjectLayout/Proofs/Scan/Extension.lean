import ProjectLayout.Proofs.Naming.Stem
import ProjectLayout.Scan.Entry

/-!
# Two extensions of a name

A name is split at its last dot twice.  The part that a convention is about leaves out an extension
that has something in it, whatever stands before it; a scanned file has an extension that has
something other than dots before it, even if nothing is in it.

* `IsLastDot` — what stands before and behind the last dot of a name.
* `splitExtension_of_isLastDot`, `extensionOf_of_isLastDot` — what each of the two takes off.
* `extensions_agree_iff` — on which names they take off the same.
-/

namespace ProjectLayout.Scan

open Naming

/-- Whether `front` stands before the last dot of a name and `back` behind it. -/
def IsLastDot (name front back : List Char) : Prop := name = front ++ '.' :: back ∧ '.' ∉ back

variable {name front back : List Char}

theorem exists_isLastDot (h : '.' ∈ name) : ∃ front back, IsLastDot name front back := by
  cases hcut : Text.cutAtLast '.' name with
  | none => exact absurd h (Text.cutAtLast_eq_none.mp hcut)
  | some cut => exact ⟨cut.1, cut.2, Text.cutAtLast_eq_some hcut⟩

theorem IsLastDot.cutAtLast (h : IsLastDot name front back) :
    Text.cutAtLast '.' name = some (front, back) := by
  rw [h.1, Text.cutAtLast_append front h.2]

/-- A name has one last dot. -/
theorem IsLastDot.unique {front' back' : List Char} (h : IsLastDot name front back)
    (h' : IsLastDot name front' back') : front = front' ∧ back = back' := by
  have hsame := h.cutAtLast.symm.trans h'.cutAtLast
  exact Prod.mk.inj (Option.some.inj hsame)

/-! ## Each of the two -/

theorem splitExtension_of_dot_not_mem (h : '.' ∉ name) : (splitExtension name).2 = [] := by
  rw [splitExtension, Text.cutAtLast_eq_none.mpr h]

/-- What a convention is about leaves out an extension with something in it. -/
theorem splitExtension_of_isLastDot (hslash : '/' ∉ name) (h : IsLastDot name front back) :
    (splitExtension name).2 = if back = [] then [] else '.' :: back := by
  have hback : back.contains '/' = false := by
    rw [h.1] at hslash
    simpa using fun hmem => hslash (by simp [hmem])
  rw [splitExtension, h.cutAtLast]
  simp only [hback, Bool.or_false, List.isEmpty_iff]
  split <;> rfl

theorem extensionOf_of_dot_not_mem (h : '.' ∉ name) : extensionOf name = [] := by
  rw [extensionOf, Text.cutAtLast_eq_none.mpr h]

/-- A scanned file has an extension with something other than dots before it. -/
theorem extensionOf_of_isLastDot (h : IsLastDot name front back) :
    extensionOf name = if front.all (· == '.') then [] else '.' :: back := by
  rw [extensionOf, h.cutAtLast]

/-- An extension is empty or the name from its last dot on. -/
theorem extensionOf_eq_nil_or (name : List Char) :
    extensionOf name = [] ∨ ∃ front back, IsLastDot name front back ∧
      extensionOf name = '.' :: back := by
  by_cases hdot : '.' ∈ name
  · obtain ⟨front, back, hlast⟩ := exists_isLastDot hdot
    rw [extensionOf_of_isLastDot hlast]
    split
    · exact .inl rfl
    · exact .inr ⟨front, back, hlast, rfl⟩
  · exact .inl (extensionOf_of_dot_not_mem hdot)

/-! ## Both together -/

theorem ite_nil_eq_ite_nil {p q : Prop} [Decidable p] [Decidable q] (c : Char) (s : List Char) :
    ((if p then [] else c :: s) = if q then [] else c :: s) ↔ (¬p ↔ ¬q) := by
  by_cases hp : p <;> by_cases hq : q <;> simp [hp, hq]

/-- Each of the two leaves out what is behind the last dot on a condition of its own, so that they
are the same if both conditions hold or neither does. -/
theorem extensions_agree_of_isLastDot (hslash : '/' ∉ name) (h : IsLastDot name front back) :
    (splitExtension name).2 = extensionOf name ↔ (back ≠ [] ↔ ∃ c ∈ front, c ≠ '.') := by
  have hfront : (∃ c ∈ front, c ≠ '.') ↔ ¬front.all (· == '.') = true := by
    simp only [List.all_eq_true, beq_iff_eq, Classical.not_forall, exists_prop]
  rw [splitExtension_of_isLastDot hslash h, extensionOf_of_isLastDot h, ite_nil_eq_ite_nil, hfront]

/-- The two extensions of a name, and that they are the same on a name without a dot and on one with
something behind its last dot just if something other than dots is before it. -/
theorem extensions_agree_iff (hslash : '/' ∉ name) :
    (splitExtension name).1 ++ (splitExtension name).2 = name ∧
      ((splitExtension name).2 = [] ∨
        ∃ rest, (splitExtension name).2 = '.' :: rest ∧ rest ≠ [] ∧ '.' ∉ rest) ∧
      (extensionOf name = [] ∨
        ∃ front back, IsLastDot name front back ∧ extensionOf name = '.' :: back) ∧
      ((splitExtension name).2 = extensionOf name ↔
        '.' ∉ name ∨ ∃ front back, IsLastDot name front back ∧
          (back ≠ [] ↔ ∃ c ∈ front, c ≠ '.')) := by
  refine ⟨splitExtension_append name, ?_, extensionOf_eq_nil_or name, ?_⟩
  · rcases isExtension_or_nil name with hnil | ⟨rest, hcons, hne, hdot, -⟩
    · exact .inl hnil
    · exact .inr ⟨rest, hcons, hne, hdot⟩
  · by_cases hdot : '.' ∈ name
    · obtain ⟨front, back, hlast⟩ := exists_isLastDot hdot
      rw [extensions_agree_of_isLastDot hslash hlast]
      constructor
      · exact fun hagree => .inr ⟨front, back, hlast, hagree⟩
      · rintro (hno | ⟨front', back', hlast', hagree⟩)
        · exact absurd hdot hno
        · obtain ⟨rfl, rfl⟩ := hlast.unique hlast'
          exact hagree
    · rw [splitExtension_of_dot_not_mem hdot, extensionOf_of_dot_not_mem hdot]
      exact iff_of_true rfl (.inl hdot)

/-- A dot-file has an extension for a convention and none for the check of extensions, and a file
with something before its dot has the same for both. -/
theorem extensions_agree_sample :
    (splitExtension ".gitignore".toList).2 ≠ extensionOf ".gitignore".toList ∧
      (splitExtension "Button.test.tsx".toList).2 = extensionOf "Button.test.tsx".toList := by
  constructor
  · rw [ne_eq, (extensions_agree_iff (by decide : '/' ∉ ".gitignore".toList)).2.2.2]
    rintro (hno | ⟨front, back, hlast, hagree⟩)
    · exact absurd hno (by decide)
    · obtain ⟨rfl, rfl⟩ := hlast.unique (⟨rfl, by decide⟩ :
        IsLastDot ".gitignore".toList [] "gitignore".toList)
      exact absurd (hagree.mp (by decide)) (by simp)
  · have hagree : "tsx".toList ≠ [] ↔ ∃ c ∈ "Button.test".toList, c ≠ '.' :=
      iff_of_true (by decide) ⟨'B', by decide, by decide⟩
    exact (extensions_agree_iff (by decide : '/' ∉ "Button.test.tsx".toList)).2.2.2.mpr
      (.inr ⟨_, _, ⟨by decide, by decide⟩, hagree⟩)

end ProjectLayout.Scan
