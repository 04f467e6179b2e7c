import ProjectLayout.Naming.Convention
import ProjectLayout.Proofs.Text.Pieces

/-!
# What is taken off a name

A name loses its last extension and then one tag before it is judged.  Here both steps are said
without saying how an extension or a tag is looked for.

* `IsExtension` — a dot with what can follow the last dot of a name.
* `IsStem`, `IsUntagged` — a name without its extension, a stem without its tag.
* `judges_iff` — `judgedPart` is what these two steps leave, and nothing else is.
-/

namespace ProjectLayout.Naming

open Text

/-! ## Extensions -/

/-- Whether a text is a dot with something behind it that holds neither a dot nor a `/`. -/
def IsExtension (ext : List Char) : Prop :=
  ∃ rest, ext = '.' :: rest ∧ rest ≠ [] ∧ '.' ∉ rest ∧ '/' ∉ rest

/-- Whether `stem` is the name without its last extension; a name may have none. -/
def IsStem (name stem : List Char) : Prop :=
  (∃ ext, IsExtension ext ∧ name = stem ++ ext) ∨
    ((∀ ext, IsExtension ext → ¬ext <:+ name) ∧ stem = name)

theorem splitExtension_append_of_isExtension (stem : List Char) {ext : List Char}
    (h : IsExtension ext) : splitExtension (stem ++ ext) = (stem, ext) := by
  obtain ⟨rest, rfl, hne, hdot, hslash⟩ := h
  have hend : (rest.isEmpty || rest.contains '/') = false := by
    simp [hne, hslash]
  rw [splitExtension, cutAtLast_append stem hdot]
  simp only [hend, Bool.false_eq_true, if_false]

theorem isExtension_or_nil (name : List Char) :
    (splitExtension name).2 = [] ∨ IsExtension (splitExtension name).2 := by
  unfold splitExtension
  split
  · next front back hcut =>
    split
    · exact .inl rfl
    · next hend =>
      simp only [Bool.or_eq_true, List.isEmpty_iff, List.contains_eq_mem, decide_eq_true_eq,
        not_or] at hend
      exact .inr ⟨back, rfl, hend.1, (cutAtLast_eq_some hcut).2, hend.2⟩
  · exact .inl rfl

/-- A name with no extension at its end is its own stem. -/
theorem splitExtension_eq_self {name : List Char} (h : ∀ ext, IsExtension ext → ¬ext <:+ name) :
    splitExtension name = (name, []) := by
  have happend := splitExtension_append name
  have hnil : (splitExtension name).2 = [] := by
    rcases isExtension_or_nil name with hnil | hext
    · exact hnil
    · exact absurd ⟨_, happend⟩ (h _ hext)
  rw [hnil, List.append_nil] at happend
  exact Prod.ext happend hnil

theorem isStem_iff {name stem : List Char} : IsStem name stem ↔ (splitExtension name).1 = stem := by
  constructor
  · rintro (⟨ext, hext, rfl⟩ | ⟨hnone, rfl⟩)
    · rw [splitExtension_append_of_isExtension stem hext]
    · rw [splitExtension_eq_self hnone]
  · rintro rfl
    have happend := splitExtension_append name
    rcases isExtension_or_nil name with hnil | hext
    · right
      rw [hnil, List.append_nil] at happend
      refine ⟨?_, happend⟩
      rintro ext hext ⟨front, rfl⟩
      -- such a name would have been split
      rw [splitExtension_append_of_isExtension front hext] at hnil
      obtain ⟨rest, hcons, -⟩ := hext
      rw [hcons] at hnil
      exact absurd hnil (by simp)
    · exact .inl ⟨_, hext, happend.symm⟩

/-- A name is read in one way as a stem with an extension. -/
theorem append_extension_inj {s t ext ext' : List Char} (hext : IsExtension ext)
    (hext' : IsExtension ext') (h : s ++ ext = t ++ ext') : s = t ∧ ext = ext' := by
  have hs := splitExtension_append_of_isExtension s hext
  have ht := splitExtension_append_of_isExtension t hext'
  rw [h, ht] at hs
  exact ⟨(Prod.mk.inj hs).1.symm, (Prod.mk.inj hs).2.symm⟩

/-! ## Tags -/

/-- Whether `part` is the stem without its tag; a stem may have none. -/
def IsUntagged (stem part : List Char) : Prop :=
  (∃ tag ∈ tags, stem = part ++ tag) ∨ ((∀ tag ∈ tags, ¬tag <:+ stem) ∧ part = stem)

theorem isExtension_of_mem_tags {tag : List Char} (h : tag ∈ tags) : IsExtension tag := by
  have hall : ∀ tag ∈ tags, tag.head? = some '.' ∧ tag.tail ≠ [] ∧ '.' ∉ tag.tail ∧
      '/' ∉ tag.tail := by decide
  obtain ⟨hhead, hne, hdot, hslash⟩ := hall tag h
  obtain ⟨rest, rfl⟩ := List.head?_eq_some_iff.mp hhead
  exact ⟨rest, rfl, hne, hdot, hslash⟩

/-- No other tag is found at the end of a stem that has a tag. -/
theorem stripTag_append (part : List Char) {tag : List Char} (h : tag ∈ tags) :
    stripTag (part ++ tag) = part := by
  have hfound : tags.findSome? (fun other => dropSuffix? other (part ++ tag)) = some part := by
    have hsome : (tags.findSome? fun other => dropSuffix? other (part ++ tag)).isSome := by
      rw [List.findSome?_isSome_iff]
      exact ⟨tag, h, by rw [dropSuffix?_append]; rfl⟩
    obtain ⟨front, hfront⟩ := Option.isSome_iff_exists.mp hsome
    obtain ⟨other, hother, hdrop⟩ := List.exists_of_findSome?_eq_some hfront
    have hsame := append_extension_inj (isExtension_of_mem_tags h) (isExtension_of_mem_tags hother)
      (eq_append_of_dropSuffix? hdrop)
    rw [hfront, hsame.1]
  rw [stripTag, hfound]
  rfl

theorem stripTag_eq_self {stem : List Char} (h : ∀ tag ∈ tags, ¬tag <:+ stem) :
    stripTag stem = stem := by
  have hnone : tags.findSome? (fun tag => dropSuffix? tag stem) = none := by
    rw [List.findSome?_eq_none_iff]
    intro tag htag
    have hnot := h tag htag
    rw [dropSuffix?, if_neg]
    rwa [List.isSuffixOf_iff_suffix]
  rw [stripTag, hnone]
  rfl

theorem isUntagged_iff {stem part : List Char} : IsUntagged stem part ↔ stripTag stem = part := by
  constructor
  · rintro (⟨tag, htag, rfl⟩ | ⟨hnone, rfl⟩)
    · exact stripTag_append part htag
    · exact stripTag_eq_self hnone
  · rintro rfl
    by_cases h : ∃ tag ∈ tags, tag <:+ stem
    · obtain ⟨tag, htag, part, rfl⟩ := h
      exact .inl ⟨tag, htag, by rw [stripTag_append part htag]⟩
    · have hnone : ∀ tag ∈ tags, ¬tag <:+ stem := fun tag htag hs => h ⟨tag, htag, hs⟩
      exact .inr ⟨hnone, stripTag_eq_self hnone⟩

/-! ## Both steps -/

/-- Whether `part` is the name without its last extension and then without one tag. -/
def Judges (name part : List Char) : Prop := ∃ stem, IsStem name stem ∧ IsUntagged stem part

/-- The two steps leave one part of a name, the one that is judged. -/
theorem judges_iff {name part : List Char} : Judges name part ↔ part = judgedPart name := by
  constructor
  · rintro ⟨stem, hstem, hpart⟩
    rw [judgedPart, isStem_iff.mp hstem, isUntagged_iff.mp hpart]
  · rintro rfl
    exact ⟨_, isStem_iff.mpr rfl, isUntagged_iff.mpr rfl⟩

end ProjectLayout.Naming
