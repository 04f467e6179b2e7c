import ProjectLayout.Proofs.Naming.Respelling

/-!
# Names that are their own suggestion

A suggestion is for a name that breaks its convention.  A name that follows it is left alone, but a
tag is judged by no convention and yet respelled: small letters leave it as it is, capitals do not.

* `Convention.respell_of_accepts` — a stem of the form of a convention is respelled as it is.
* `Convention.respell_append_tag` — so is one with a tag, unless in capitals.
* `suggestion_eq_self_iff` — which names that follow a convention are their own suggestion.
-/

namespace ProjectLayout.Naming

open Text

variable {shape : Shape} {part : List Char}

/-! ## Pieces of an accepted text -/

namespace Shape

theorem joinWith_pieces {sep : Char} (hsep : shape.separator? = some sep) (s : List Char) :
    joinWith sep (shape.pieces s) = s := by
  rw [pieces_of_some hsep, joinWith_splitOn]

/-- An accepted text ends in a character of a run. -/
theorem rest_of_getLast? (h : shape.accepts part = true) {last : Char}
    (hlast : part.getLast? = some last) : shape.rest last = true := by
  have hruns := (accepts_iff.mp h).2
  cases hsep : shape.separator? with
  | none =>
    rw [pieces_of_none hsep] at hruns
    exact (hruns part (List.mem_singleton_self part)).2 last (List.mem_of_getLast? hlast)
  | some sep =>
    rw [← joinWith_pieces hsep part, getLast?_joinWith sep fun piece hp => (hruns piece hp).1]
      at hlast
    obtain ⟨piece, hpiece, hmem⟩ := List.mem_flatten.mp (List.mem_of_getLast? hlast)
    exact (hruns piece hpiece).2 last hmem

end Shape

namespace Convention

variable {c : Convention}

/-! ## Without a tag -/

/-- Names begin with letters and have letters and digits between separators. -/
structure Classes (shape : Shape) : Prop where
  first : ∀ d, shape.first d = true → d.isAlpha = true
  rest : ∀ d, shape.rest d = true → d.isAlphanum = true
  separator : ∀ sep ∈ shape.separator?, isSeparator sep = true

theorem classes_of_shape? (h : shape ∈ c.shape?) : Classes shape := by
  cases c with
  | unknown _ => exact absurd h (by simp [shape?])
  | _ =>
    obtain rfl := Option.some.inj h
    refine ⟨fun d hd => ?_, fun d hd => ?_, ?_⟩
    · simp_all [Char.isAlpha]
    · simp only [Char.isAlphanum, Char.isAlpha] at hd ⊢
      grind
    · intro sep hsep
      cases hsep <;> decide

/-- An accepted text can be spelled by every convention, and ends in no separator. -/
theorem spellable_of_accepts (h : shape ∈ c.shape?) (haccepts : shape.accepts part = true) :
    Spellable part ∧ part.getLast?.any isSeparator = false := by
  obtain ⟨hfirst, hrest, hsep⟩ := classes_of_shape? h
  obtain ⟨⟨d, hhead, hd⟩, -⟩ := Shape.accepts_iff.mp haccepts
  refine ⟨⟨fun e he => ?_, d, ?_, hfirst d hd⟩, ?_⟩
  · rcases Shape.separator_or_rest_of_mem haccepts he with hmem | hmem
    · exact .inr (hsep e hmem)
    · exact .inl (hrest e hmem)
  · obtain ⟨more, rfl⟩ := List.head?_eq_some_iff.mp hhead
    rw [List.find?_cons_of_pos]
    simp [isSeparator_of_isAlphanum (isAlphanum_of_isAlpha (hfirst d hd))]
  · cases hlast : part.getLast? with
    | none => rfl
    | some last =>
      exact isSeparator_of_isAlphanum (hrest last (Shape.rest_of_getLast? haccepts hlast))

/-- Without separators, an accepted text has the first letter that it is given. -/
theorem respell_pascal_of_accepts (h : shape ∈ c.shape?) (hsep : shape.separator? = none)
    (haccepts : shape.accepts part = true) : pascal.respell part = capitalize part := by
  refine respell_pascal_eq_capitalize fun d hd => ?_
  rcases Shape.separator_or_rest_of_mem haccepts hd with hmem | hrest
  · exact absurd (hsep.symm.trans hmem) (by simp)
  · exact isSeparator_of_isAlphanum ((classes_of_shape? h).rest d hrest)

/-- An accepted text has its runs for words, in the case that they are given. -/
theorem Joins.respell_of_accepts {sep : Char} {image : Char → Char} (hjoins : c.Joins sep image)
    (h : shape ∈ c.shape?) (hsep : shape.separator? = some sep)
    (himage : ∀ d, shape.rest d = true → image d = d) (haccepts : shape.accepts part = true) :
    c.respell part = part := by
  have halnum := (classes_of_shape? h).rest
  have hruns := (Shape.accepts_iff.mp haccepts).2
  have hsame : ∀ piece ∈ shape.pieces part, piece.map image = piece := fun piece hpiece =>
    (List.map_congr_left fun d hd => himage d ((hruns piece hpiece).2 d hd)).trans (List.map_id _)
  have hwords : words part = shape.pieces part := by
    conv_lhs => rw [← Shape.joinWith_pieces hsep part]
    refine words_joinWith hjoins.isSeparator fun piece hpiece => ?_
    obtain ⟨hne, hrun⟩ := hruns piece hpiece
    have hword := hjoins.words_map_image hne fun d hd =>
      isSeparator_of_isAlphanum (halnum d (hrun d hd))
    rwa [hsame piece hpiece] at hword
  have hascii : IsAscii part := by
    intro d hd
    rcases Shape.separator_or_rest_of_mem haccepts hd with hmem | hrest
    · rw [← Option.some.inj (hsep.symm.trans hmem)]
      exact hjoins.isAscii
    · exact toNat_lt_of_isAlphanum (halnum d hrest)
  rw [hjoins.respell part hascii, hwords, (List.map_congr_left hsame).trans (List.map_id _),
    Shape.joinWith_pieces hsep]

/-- A stem of the form of a convention is respelled as it is. -/
theorem respell_of_accepts (h : shape ∈ c.shape?) (haccepts : shape.accepts part = true) :
    c.respell part = part := by
  obtain ⟨⟨d, hhead, hd⟩, -⟩ := Shape.accepts_iff.mp haccepts
  obtain ⟨more, rfl⟩ := List.head?_eq_some_iff.mp hhead
  cases c with
  | pascal =>
    obtain rfl := Option.some.inj h
    rw [respell_pascal_of_accepts h rfl haccepts, capitalize_of_isUpper more hd]
  | camel =>
    obtain rfl := Option.some.inj h
    have halnum : d.isAlphanum = true := isAlphanum_of_isAlpha ((classes_of_shape? h).first d hd)
    have hcamel : camel.respell (d :: more) = decapitalize (pascal.respell (d :: more)) := rfl
    rw [hcamel, respell_pascal_of_accepts h rfl haccepts,
      capitalize_cons more (toNat_lt_of_isAlphanum halnum),
      decapitalize_cons more (toNat_lt_of_isAlphanum (isAlphanum_toUpper halnum)),
      Char.toLower_toUpper_eq_toLower, toLower_of_isLower hd]
  | kebab =>
    obtain rfl := Option.some.inj h
    exact joins_kebab.respell_of_accepts h rfl (fun _ => toLower_of_isLower_or_isDigit) haccepts
  | snake =>
    obtain rfl := Option.some.inj h
    exact joins_snake.respell_of_accepts h rfl (fun _ => toLower_of_isLower_or_isDigit) haccepts
  | upper =>
    obtain rfl := Option.some.inj h
    exact joins_upper.respell_of_accepts h rfl (fun _ => toUpper_of_isUpper_or_isDigit) haccepts
  | unknown _ => exact absurd h (by simp [shape?])

/-! ## With a tag -/

/-- A tag is in small letters and has no separators, so it stays as it is behind a stem, unless
capitals are asked for throughout. -/
theorem respell_append_tag (h : shape ∈ c.shape?) (hc : c ≠ upper)
    (haccepts : shape.accepts part = true) {tag : List Char} (htag : tag ∈ tags) :
    c.respell (part ++ tag) = part ++ tag := by
  obtain ⟨hspellable, hlast⟩ := spellable_of_accepts h haccepts
  have hself := respell_of_accepts h haccepts
  have hjoin (sep : Char) : joinWith sep ((words (part ++ tag)).map lowercase) =
      joinWith sep ((words part).map lowercase) ++ tag := by
    rw [joinWith_lowercase_append_tag hspellable htag, if_neg (by simp [hlast])]
  cases c with
  | pascal => rw [respell_pascal_append_tag hspellable htag, hself]
  | camel => rw [respell_camel_append_tag hspellable htag, hself]
  | kebab => exact (hjoin '-').trans (congrArg (· ++ tag) hself)
  | snake => exact (hjoin '_').trans (congrArg (· ++ tag) hself)
  | upper => exact absurd rfl hc
  | unknown _ => exact absurd h (by simp [shape?])

/-- In capitals a tag is none any more. -/
theorem respell_upper_append_tag_ne (h : shape ∈ c.shape?) (haccepts : shape.accepts part = true)
    {tag : List Char} (htag : tag ∈ tags) : upper.respell (part ++ tag) ≠ part ++ tag := by
  intro hself
  have hstrip := (stripTag_respell_upper (spellable_of_accepts h haccepts).1 htag).1
  rw [hself, stripTag_append part htag] at hstrip
  obtain ⟨rest, rfl, -⟩ := isExtension_of_mem_tags htag
  exact absurd hstrip (by simp)

end Convention

/-! ## Suggestions -/

/-- A suggestion is the name exactly if the stem is respelled as it is. -/
theorem suggestion_eq_self_iff_respell {c : Convention} {name : String} :
    c.suggestion name = name ↔
      c.respell (splitExtension name.toList).1 = (splitExtension name.toList).1 := by
  rw [Convention.suggestion, ← String.toList_inj, String.toList_ofList]
  conv_lhs => rhs; rw [← splitExtension_append name.toList]
  exact List.append_left_inj _

/-- A name that follows a convention is its own suggestion, unless the convention has capitals
throughout and the stem has a tag. -/
theorem suggestion_eq_self_iff {c : Convention} {name : String} (h : c.accepts name = true) :
    c.suggestion name = name ↔
      (c = .upper → ∀ tag ∈ tags, ¬tag <:+ (splitExtension name.toList).1) := by
  rw [suggestion_eq_self_iff_respell]
  cases hshape : c.shape? with
  | none =>
    cases c with
    | unknown spelling => exact iff_of_true rfl nofun
    | _ => exact absurd hshape (by simp [Convention.shape?])
  | some shape =>
    rw [Convention.accepts, hshape] at h
    have haccepts : shape.accepts (stripTag (splitExtension name.toList).1) = true := h
    rcases isUntagged_iff.mpr (Eq.refl (stripTag (splitExtension name.toList).1)) with
      ⟨tag, htag, hstem⟩ | ⟨hnone, hstem⟩
    · rw [hstem]
      by_cases hc : c = .upper
      · subst hc
        have hne := Convention.respell_upper_append_tag_ne hshape haccepts htag
        exact iff_of_false hne fun hnone => hnone rfl tag htag (List.suffix_append _ tag)
      · exact iff_of_true (Convention.respell_append_tag hshape hc haccepts htag)
          fun hupper => absurd hupper hc
    · rw [hstem] at haccepts
      exact iff_of_true (Convention.respell_of_accepts hshape haccepts) fun _ => hnone

/-- Constants and their tests: capitals are suggested for the tag. -/
theorem suggestion_eq_self_constants :
    Convention.upper.accepts "API_KEYS.ts" = true ∧
      Convention.upper.suggestion "API_KEYS.ts" = "API_KEYS.ts" ∧
      Convention.upper.accepts "API_KEYS.test.ts" = true ∧
      Convention.upper.suggestion "API_KEYS.test.ts" ≠ "API_KEYS.test.ts" ∧
      Convention.camel.suggestion "useXAxis2.test.ts" = "useXAxis2.test.ts" ∧
      Convention.kebab.suggestion "x-axis-2.stories.tsx" = "x-axis-2.stories.tsx" := by
  have hplain : Convention.upper.accepts "API_KEYS.ts" = true := by decide
  have htagged : Convention.upper.accepts "API_KEYS.test.ts" = true := by decide
  have hcamel : Convention.camel.accepts "useXAxis2.test.ts" = true := by decide
  have hkebab : Convention.kebab.accepts "x-axis-2.stories.tsx" = true := by decide
  refine ⟨hplain, (suggestion_eq_self_iff hplain).mpr fun _ => by decide, htagged, ?_,
    (suggestion_eq_self_iff hcamel).mpr nofun, (suggestion_eq_self_iff hkebab).mpr nofun⟩
  intro hself
  exact (suggestion_eq_self_iff htagged).mp hself rfl ".test".toList (by decide) (by decide)

end ProjectLayout.Naming
