import ProjectLayout.Proofs.Naming.Respelling

/-!
# One suggestion after another

A stem that was respelled is cut into words again, not always into the same ones: `XAxis` is one
word, and `xAxis` has two.  Conventions that part words alike agree on a stem all the same, and on
what one of them has made of it.

* `SameFamily` — the conventions with capitals, and those with separators.
* `Convention.respell_respell` — the second of two conventions of one family decides.
* `suggestion_suggestion` — the same for whole names; a suggestion is its own suggestion.
-/

namespace ProjectLayout.Naming

open Text

namespace Convention

variable {c d : Convention} {stem : List Char}

/-! ## Capitals -/

/-- The capital that a name is given is in front of it already, or was taken away last. -/
theorem capitalize_respell (hc : c ∈ [pascal, camel]) (h : IsAscii stem) :
    capitalize (c.respell stem) = pascal.respell stem := by
  have hascii : IsAscii (pascal.respell stem) := (keeps_respell rfl h).isAscii
  have hpascal : (pascal.respell stem).modifyHead Char.toUpper = pascal.respell stem := by
    rw [respell]
    cases hwords : words stem with
    | nil => rfl
    | cons word others =>
      have hword : word ∈ words stem := hwords ▸ List.mem_cons_self
      obtain ⟨d, more, rfl⟩ := List.exists_cons_of_ne_nil (ne_nil_of_mem_words hword)
      rw [List.flatMap_cons, capitalize_cons more (isAscii_of_mem_words h hword d (by simp))]
      simp
  simp only [List.mem_cons, List.not_mem_nil, or_false] at hc
  rcases hc with rfl | rfl
  · rw [capitalize_eq_modifyHead hascii, hpascal]
  · have hcamel : camel.respell stem = (pascal.respell stem).modifyHead Char.toLower :=
      decapitalize_eq_modifyHead hascii
    rw [capitalize_eq_modifyHead (keeps_respell rfl h).isAscii, hcamel, List.modifyHead_modifyHead]
    refine Eq.trans ?_ hpascal
    congr 1
    funext d
    exact Char.toUpper_toLower_eq_toUpper d

/-- Of two conventions that set capitals, the second decides. -/
theorem respell_respell_of_capitals (hc : c ∈ [pascal, camel]) (hd : d ∈ [pascal, camel])
    (h : IsAscii stem) : d.respell (c.respell stem) = d.respell stem := by
  have hpascal : pascal.respell (c.respell stem) = pascal.respell stem := by
    rw [respell_pascal_eq_capitalize (isSeparator_of_mem_respell hc h), capitalize_respell hc h]
  simp only [List.mem_cons, List.not_mem_nil, or_false] at hd
  rcases hd with rfl | rfl
  · exact hpascal
  · exact congrArg decapitalize hpascal

/-! ## Separators -/

/-- Of two conventions that join words in one case, the second decides. -/
theorem Joins.respell_respell {sep sep' : Char} {image image' : Char → Char}
    (hc : c.Joins sep image) (hd : d.Joins sep' image') (h : IsAscii stem) :
    d.respell (c.respell stem) = d.respell stem := by
  have hcomp : image' ∘ image = image' := by
    funext e
    rcases hc.image_eq with rfl | rfl <;> rcases hd.image_eq with rfl | rfl
    · exact Char.toLower_toLower_eq_toLower e
    · exact Char.toUpper_toLower_eq_toUpper e
    · exact Char.toLower_toUpper_eq_toLower e
    · exact Char.toUpper_toUpper_eq_toUpper e
  rw [hd.respell _ (hc.keeps_respell h).isAscii, hc.words_respell h, List.map_map,
    hd.respell stem h, List.map_comp_map, hcomp]

end Convention

/-! ## Families -/

/-- Whether two conventions part words alike: by capitals, or by separators. -/
def SameFamily (c d : Convention) : Prop :=
  (c ∈ [.pascal, .camel] ∧ d ∈ [.pascal, .camel]) ∨
    (c ∈ [.kebab, .snake, .upper] ∧ d ∈ [.kebab, .snake, .upper])

instance (c d : Convention) : Decidable (SameFamily c d) := inferInstanceAs (Decidable (_ ∨ _))

namespace Convention

variable {c d : Convention} {stem : List Char}

theorem respell_respell (hfamily : SameFamily c d) (h : IsAscii stem) :
    d.respell (c.respell stem) = d.respell stem := by
  rcases hfamily with ⟨hc, hd⟩ | ⟨hc, hd⟩
  · exact respell_respell_of_capitals hc hd h
  · obtain ⟨sep, image, hc⟩ := exists_joins hc
    obtain ⟨sep', image', hd⟩ := exists_joins hd
    exact hc.respell_respell hd h

theorem sameFamily_self (hknown : c.isKnown = true) : SameFamily c c := by
  cases c with
  | unknown _ => exact absurd hknown (by simp [isKnown])
  | _ => decide

end Convention

/-! ## Suggestions -/

theorem suggestion_suggestion_eq (c d : Convention) {name : String}
    (h : IsAscii (splitExtension name.toList).1)
    (hrespell : d.respell (c.respell (splitExtension name.toList).1) =
      d.respell (splitExtension name.toList).1) :
    d.suggestion (c.suggestion name) = d.suggestion name := by
  rw [Convention.suggestion, splitExtension_suggestion c h]
  simp only [hrespell]
  rfl

/-- Of two suggestions of one family, one after the other, the second decides; a suggestion is its
own suggestion. -/
theorem suggestion_suggestion (name : String) (h : IsAscii (splitExtension name.toList).1) :
    (∀ c d, SameFamily c d → d.suggestion (c.suggestion name) = d.suggestion name) ∧
      ∀ c : Convention, c.suggestion (c.suggestion name) = c.suggestion name := by
  have hfamily (c d : Convention) (hcd : SameFamily c d) :
      d.suggestion (c.suggestion name) = d.suggestion name :=
    suggestion_suggestion_eq c d h (Convention.respell_respell hcd h)
  refine ⟨hfamily, fun c => ?_⟩
  cases hknown : c.isKnown with
  | true => exact hfamily c c (Convention.sameFamily_self hknown)
  | false =>
    obtain ⟨spelling, rfl⟩ := Convention.exists_unknown hknown
    rw [Convention.suggestion_unknown, Convention.suggestion_unknown]

/-- The small letter in front makes a word of its own of it for `camel`, which `pascal` joins
again. -/
theorem suggestion_suggestion_xAxis :
    Convention.camel.suggestion "XAxis-labels.test.ts" = "xAxisLabels.test.ts" ∧
      Convention.pascal.suggestion "xAxisLabels.test.ts" = "XAxisLabels.test.ts" ∧
      Convention.upper.suggestion "XAxis-labels.test.ts" = "XAXIS_LABELS.TEST.ts" ∧
      Convention.kebab.suggestion "XAXIS_LABELS.TEST.ts" = "xaxis-labels.test.ts" ∧
      Convention.kebab.suggestion "xaxis-labels.test.ts" = "xaxis-labels.test.ts" := by
  have hascii : IsAscii (splitExtension "XAxis-labels.test.ts".toList).1 := by decide
  obtain ⟨hfamily, hself⟩ := suggestion_suggestion "XAxis-labels.test.ts" hascii
  have hcamel : Convention.camel.suggestion "XAxis-labels.test.ts" = "xAxisLabels.test.ts" := by
    decide
  have hupper : Convention.upper.suggestion "XAxis-labels.test.ts" = "XAXIS_LABELS.TEST.ts" := by
    decide
  have hkebab : Convention.kebab.suggestion "XAxis-labels.test.ts" = "xaxis-labels.test.ts" := by
    decide
  have hpascal := hfamily .camel .pascal (by decide)
  have hagain := hfamily .upper .kebab (by decide)
  have hsame := hself .kebab
  rw [hcamel] at hpascal
  rw [hupper, hkebab] at hagain
  rw [hkebab] at hsame
  exact ⟨hcamel, hpascal.trans (by decide), hupper, hagain, hsame⟩

end ProjectLayout.Naming
