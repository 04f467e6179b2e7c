import ProjectLayout.Proofs.Naming.Grammar
import ProjectLayout.Proofs.Naming.Words
import ProjectLayout.Proofs.Text.Ascii

/-!
# When a suggestion follows its convention

A suggestion keeps a tag in the stem, where the words and cases of the convention reach it, but a
name is judged without its tag.

* `Spellable` — the texts that every convention can spell.
* `Convention.accepts_respell` — such a text, respelled, has the form of the convention.
* `Convention.respell_append_tag` — what becomes of a tag behind it.
* `accepts_suggestion_iff` — for which conventions a suggestion follows the convention.
-/

namespace ProjectLayout.Naming

open Text

/-! ## Names that are put together again -/

theorem dot_not_mem_of_mem_tags_suffix {tag stem : List Char} (htag : tag ∈ tags)
    (h : tag <:+ stem) : '.' ∈ stem := by
  obtain ⟨rest, rfl, -⟩ := isExtension_of_mem_tags htag
  exact h.subset List.mem_cons_self

theorem stripTag_of_dot_not_mem {stem : List Char} (h : '.' ∉ stem) : stripTag stem = stem :=
  stripTag_eq_self fun _ htag hsuffix => h (dot_not_mem_of_mem_tags_suffix htag hsuffix)

/-- A stem before an extension is found again; without an extension it must have no dot. -/
theorem judgedPart_append {stem ext : List Char} (h : IsExtension ext ∨ ext = [] ∧ '.' ∉ stem) :
    judgedPart (stem ++ ext) = stripTag stem := by
  rw [judgedPart]
  rcases h with hext | ⟨rfl, hdot⟩
  · rw [splitExtension_append_of_isExtension stem hext]
  · rw [List.append_nil, splitExtension_eq_self]
    rintro ext ⟨rest, rfl, -⟩ hsuffix
    exact hdot (hsuffix.subset List.mem_cons_self)

/-- A stem that ends in a tag has an extension behind it. -/
theorem isExtension_of_tag {name front tag : List Char} (htag : tag ∈ tags)
    (hstem : (splitExtension name).1 = front ++ tag) : IsExtension (splitExtension name).2 := by
  rcases isExtension_or_nil name with hnil | hext
  · have happend := splitExtension_append name
    rw [hnil, List.append_nil, hstem] at happend
    -- The tag would have been taken for the extension.
    have htaken := splitExtension_append_of_isExtension front (isExtension_of_mem_tags htag)
    rw [← happend, htaken] at hnil
    obtain ⟨rest, hcons, -⟩ := isExtension_of_mem_tags htag
    exact absurd (hcons.symm.trans hnil) (by simp)
  · exact hext

/-! ## Spellable texts -/

/-- Whether a text has nothing but letters, digits and separators, and a letter is the first of
them that is no separator. -/
structure Spellable (front : List Char) : Prop where
  plain : ∀ c ∈ front, c.isAlphanum = true ∨ isSeparator c = true
  letter : ∃ c, front.find? (!isSeparator ·) = some c ∧ c.isAlpha = true

variable {front : List Char}

theorem Spellable.of_all {c : Char}
    (hall : (front.all fun d => d.isAlphanum || isSeparator d) = true)
    (hfirst : front.find? (!isSeparator ·) = some c) (hc : c.isAlpha = true) : Spellable front where
  plain d hd := Bool.or_eq_true_iff.mp (List.all_eq_true.mp hall d hd)
  letter := ⟨c, hfirst, hc⟩

theorem Spellable.isAlphanum_of_mem_words (h : Spellable front) {word : List Char}
    (hword : word ∈ words front) : ∀ c ∈ word, c.isAlphanum = true := by
  intro c hc
  obtain ⟨hmem, hsep⟩ := mem_of_mem_words hword hc
  rcases h.plain c hmem with halnum | hsep'
  · exact halnum
  · exact absurd (hsep.symm.trans hsep') (by simp)

/-- There is a first word, and it begins with a letter. -/
theorem Spellable.exists_words (h : Spellable front) :
    ∃ c more others, words front = (c :: more) :: others ∧ c.isAlpha = true := by
  obtain ⟨c, hfind, hletter⟩ := h.letter
  obtain ⟨more, others, hwords⟩ := exists_words_eq_cons hfind
  exact ⟨c, more, others, hwords, hletter⟩

/-! ## Respelling -/

theorem capitalize_cons {c : Char} (rest : List Char) (hc : c.toNat < 0x80) :
    capitalize (c :: rest) = c.toUpper :: rest := by
  rw [capitalize, upperChar, if_pos hc]
  rfl

theorem decapitalize_cons {c : Char} (rest : List Char) (hc : c.toNat < 0x80) :
    decapitalize (c :: rest) = c.toLower :: rest := by
  rw [decapitalize, lowerChar, if_pos hc]
  rfl

namespace Convention

/-- The words with a capital each are letters and digits, of which the first is a capital. -/
theorem respell_pascal (h : Spellable front) :
    ∃ c rest, pascal.respell front = c :: rest ∧ c.isUpper = true ∧
      ∀ d ∈ c :: rest, d.isAlphanum = true := by
  obtain ⟨c, more, others, hwords, hletter⟩ := h.exists_words
  have hfirst : capitalize (c :: more) = c.toUpper :: more :=
    capitalize_cons more (toNat_lt_of_isAlphanum (isAlphanum_of_isAlpha hletter))
  refine ⟨c.toUpper, more ++ others.flatMap capitalize, ?_, isUpper_toUpper hletter, ?_⟩
  · rw [respell, hwords, List.flatMap_cons, hfirst]
    rfl
  · intro d hd
    have hmem : d ∈ (words front).flatMap capitalize := by
      rw [hwords, List.flatMap_cons, hfirst]
      exact hd
    obtain ⟨word, hword, hd⟩ := List.mem_flatMap.mp hmem
    have halnum := h.isAlphanum_of_mem_words hword
    cases word with
    | nil => exact absurd hd (by simp [capitalize])
    | cons e rest =>
      obtain ⟨he, hrest⟩ := List.forall_mem_cons.mp halnum
      rw [capitalize_cons rest (toNat_lt_of_isAlphanum he)] at hd
      rcases List.mem_cons.mp hd with rfl | hd
      · exact isAlphanum_toUpper he
      · exact hrest d hd

/-- Words in one case with a separator between them are accepted, if the case turns letters into
first characters and letters and digits into further ones. -/
theorem accepts_joinWith_words (h : Spellable front) {shape : Shape} {sep : Char}
    (hsep : shape.separator? = some sep) (hnot : shape.rest sep = false)
    {recase : List Char → List Char} {image : Char → Char}
    (hrecase : ∀ word : List Char, IsAscii word → recase word = word.map image)
    (hfirst : ∀ c : Char, c.isAlpha = true → shape.first (image c) = true)
    (hrest : ∀ c : Char, c.isAlphanum = true → shape.rest (image c) = true) :
    shape.accepts (joinWith sep ((words front).map recase)) = true := by
  have hruns : ∀ piece ∈ (words front).map recase, shape.IsRun piece := by
    intro piece hpiece
    obtain ⟨word, hword, rfl⟩ := List.mem_map.mp hpiece
    have halnum := h.isAlphanum_of_mem_words hword
    rw [hrecase word (isAscii_of_isAlphanum halnum)]
    refine ⟨by simpa using ne_nil_of_mem_words hword, ?_⟩
    intro d hd
    obtain ⟨c, hc, rfl⟩ := List.mem_map.mp hd
    exact hrest c (halnum c hc)
  obtain ⟨c, more, others, hwords, hletter⟩ := h.exists_words
  have halnum : ∀ d ∈ c :: more, d.isAlphanum = true :=
    h.isAlphanum_of_mem_words (by rw [hwords]; exact List.mem_cons_self)
  rw [hwords, List.map_cons, hrecase _ (isAscii_of_isAlphanum halnum), List.map_cons] at hruns ⊢
  exact Shape.accepts_joinWith hsep hnot (hfirst c hletter) hruns

/-- What every convention can spell has its form once it is respelled. -/
theorem accepts_respell (h : Spellable front) {c : Convention} {shape : Shape}
    (hshape : shape ∈ c.shape?) : shape.accepts (c.respell front) = true := by
  obtain ⟨first, rest, hpascal, hupper, halnum⟩ := respell_pascal h
  cases c with
  | pascal =>
    obtain rfl := Option.some.inj hshape
    rw [hpascal]
    exact Shape.accepts_of_run rfl hupper halnum
  | camel =>
    obtain rfl := Option.some.inj hshape
    obtain ⟨hfirst, hrest⟩ := List.forall_mem_cons.mp halnum
    have hletter : first.isAlpha = true := by rw [Char.isAlpha, hupper, Bool.true_or]
    have hcamel : camel.respell front = first.toLower :: rest := by
      rw [← decapitalize_cons rest (toNat_lt_of_isAlphanum hfirst), ← hpascal]
      rfl
    rw [hcamel]
    exact Shape.accepts_of_run rfl (isLower_toLower hletter)
      (List.forall_mem_cons.mpr ⟨isAlphanum_toLower hfirst, hrest⟩)
  | kebab =>
    obtain rfl := Option.some.inj hshape
    exact accepts_joinWith_words h rfl (by decide) (fun _ => lowercase_of_ascii)
      (fun _ => isLower_toLower) fun _ => isLower_or_isDigit_toLower
  | snake =>
    obtain rfl := Option.some.inj hshape
    exact accepts_joinWith_words h rfl (by decide) (fun _ => lowercase_of_ascii)
      (fun _ => isLower_toLower) fun _ => isLower_or_isDigit_toLower
  | upper =>
    obtain rfl := Option.some.inj hshape
    exact accepts_joinWith_words h rfl (by decide) (fun _ => uppercase_of_ascii)
      (fun _ => isUpper_toUpper) fun _ => isUpper_or_isDigit_toUpper
  | unknown _ => exact absurd hshape (by simp [shape?])

/-- No form has a dot in it. -/
theorem dot_not_mem_of_accepts {c : Convention} {shape : Shape} (hshape : shape ∈ c.shape?)
    {s : List Char} (h : shape.accepts s = true) : '.' ∉ s := by
  have hdot : shape.separator? ≠ some '.' ∧ shape.rest '.' = false := by
    cases c with
    | unknown _ => exact absurd hshape (by simp [shape?])
    | _ =>
      obtain rfl := Option.some.inj hshape
      exact ⟨by decide, by decide⟩
  intro hmem
  rcases Shape.separator_or_rest_of_mem h hmem with hsep | hrest
  · exact hdot.1 hsep
  · exact absurd (hrest.symm.trans hdot.2) (by simp)

/-! ## Tags -/

theorem words_of_mem_tags : ∀ tag ∈ tags, words tag = [tag] := by decide

theorem isAscii_of_mem_tags : ∀ tag ∈ tags, ∀ c ∈ tag, c.toNat < 0x80 := by
  have hall : ∀ tag ∈ tags, tag.all (·.toNat < 0x80) = true := by decide
  intro tag htag c hc
  exact of_decide_eq_true (List.all_eq_true.mp (hall tag htag) c hc)

theorem lowercase_of_mem_tags : ∀ tag ∈ tags, lowercase tag = tag := by decide

theorem capitalize_of_mem_tags : ∀ tag ∈ tags, capitalize tag = tag := by decide

/-- A tag behind a separator is a word of its own; otherwise it is added to the last word. -/
theorem words_append_tag (h : Spellable front) {tag : List Char} (htag : tag ∈ tags) :
    (front.getLast?.any isSeparator = true ∧ words (front ++ tag) = words front ++ [tag]) ∨
      (front.getLast?.any isSeparator = false ∧ ∃ others word,
        words front = others ++ [word] ∧ words (front ++ tag) = others ++ [word ++ tag]) := by
  have hword := words_of_mem_tags tag htag
  obtain ⟨rest, rfl, -⟩ := isExtension_of_mem_tags htag
  cases hlast : front.getLast? with
  | none =>
    obtain ⟨c, more, others, hwords, -⟩ := h.exists_words
    rw [List.getLast?_eq_none_iff.mp hlast] at hwords
    exact absurd hwords (by simp [words])
  | some last =>
    cases hsep : isSeparator last with
    | true =>
      refine .inl ⟨hsep, ?_⟩
      rw [words_append_of_separator _ hlast hsep, hword]
    | false =>
      refine .inr ⟨hsep, words_append_of_run hlast hsep ?_ hword⟩
      rw [endsBetween, show isSeparator '.' = false from by decide,
        show '.'.isUpper = false from by decide, Bool.and_false, Bool.or_false]

theorem joinWith_append_last (sep : Char) (others : List (List Char)) (word back : List Char) :
    joinWith sep (others ++ [word ++ back]) = joinWith sep (others ++ [word]) ++ back := by
  cases others with
  | nil => rfl
  | cons first others =>
    rw [joinWith_append sep (by simp) (by simp), joinWith_append sep (by simp) (by simp)]
    simp [joinWith]

/-- A tag stays behind words that begin with capitals. -/
theorem respell_pascal_append_tag (h : Spellable front) {tag : List Char} (htag : tag ∈ tags) :
    pascal.respell (front ++ tag) = pascal.respell front ++ tag := by
  rw [respell, respell]
  rcases words_append_tag h htag with ⟨-, hwords⟩ | ⟨-, others, word, hfront, hwords⟩
  · rw [hwords, List.flatMap_append, List.flatMap_singleton, capitalize_of_mem_tags tag htag]
  · have hne : word ≠ [] := ne_nil_of_mem_words (s := front) (by rw [hfront]; simp)
    obtain ⟨c, more, rfl⟩ := List.exists_cons_of_ne_nil hne
    rw [hwords, hfront, List.flatMap_append, List.flatMap_append, List.flatMap_singleton,
      List.flatMap_singleton, List.append_assoc]
    simp [capitalize]

theorem respell_camel_append_tag (h : Spellable front) {tag : List Char} (htag : tag ∈ tags) :
    camel.respell (front ++ tag) = camel.respell front ++ tag := by
  obtain ⟨c, rest, hpascal, -⟩ := respell_pascal h
  have htagged := respell_pascal_append_tag h htag
  rw [hpascal] at htagged
  have hcamel (stem : List Char) : camel.respell stem = decapitalize (pascal.respell stem) := rfl
  rw [hcamel, hcamel, htagged, hpascal]
  simp [decapitalize]

/-- A tag stays behind words in lower case, but behind a separator it is a word of its own. -/
theorem joinWith_lowercase_append_tag (h : Spellable front) {tag : List Char} (htag : tag ∈ tags)
    (sep : Char) :
    joinWith sep ((words (front ++ tag)).map lowercase) =
      joinWith sep ((words front).map lowercase) ++
        (if front.getLast?.any isSeparator = true then sep :: tag else tag) := by
  have hlower := lowercase_of_mem_tags tag htag
  rcases words_append_tag h htag with ⟨hsep, hwords⟩ | ⟨hsep, others, word, hfront, hwords⟩
  · obtain ⟨c, more, others, hcons, -⟩ := h.exists_words
    have hne : (words front).map lowercase ≠ [] := by
      rw [hcons]
      simp
    rw [hwords, List.map_append, List.map_singleton, hlower, joinWith_append sep hne (by simp),
      if_pos hsep]
    rfl
  · have halnum := h.isAlphanum_of_mem_words (show word ∈ words front by rw [hfront]; simp)
    have hascii : IsAscii word := isAscii_of_isAlphanum halnum
    have hall : IsAscii (word ++ tag) := by
      intro c hc
      rcases List.mem_append.mp hc with hc | hc
      · exact hascii c hc
      · exact isAscii_of_mem_tags tag htag c hc
    have happend : lowercase (word ++ tag) = lowercase word ++ tag := by
      rw [lowercase_of_ascii hall, List.map_append, ← lowercase_of_ascii hascii,
        ← lowercase_of_ascii (isAscii_of_mem_tags tag htag), hlower]
    rw [hwords, hfront, List.map_append, List.map_append, List.map_singleton, List.map_singleton,
      happend, joinWith_append_last, if_neg (by simp [hsep])]

/-- Without its tag, a stem in lower case has its form unless a separator is left at the end. -/
theorem accepts_stripTag_lowercase (h : Spellable front) {tag : List Char} (htag : tag ∈ tags)
    {shape : Shape} {sep : Char} (hsep : shape.separator? = some sep)
    (haccepts : shape.accepts (joinWith sep ((words front).map lowercase)) = true) :
    shape.accepts (stripTag (joinWith sep ((words (front ++ tag)).map lowercase))) = true ↔
      front.getLast?.any isSeparator = false := by
  rw [joinWith_lowercase_append_tag h htag]
  cases hlast : front.getLast?.any isSeparator with
  | true =>
    rw [if_pos rfl, List.append_cons, stripTag_append _ htag]
    simp only [Bool.true_eq_false, iff_false]
    intro hdangling
    have hruns := (Shape.accepts_iff.mp hdangling).2
    rw [Shape.pieces_of_some hsep, splitOn_append] at hruns
    exact (hruns [] (by simp [splitOn])).1 rfl
  | false =>
    rw [if_neg (by simp), stripTag_append _ htag]
    simp only [haccepts]

/-- A tag in upper case is none. -/
theorem stripTag_respell_upper (h : Spellable front) {tag : List Char} (htag : tag ∈ tags) :
    stripTag (upper.respell (front ++ tag)) = upper.respell (front ++ tag) ∧
      '.' ∈ upper.respell (front ++ tag) := by
  have hends : ∃ back, upper.respell (front ++ tag) = back ++ uppercase tag := by
    rw [respell]
    rcases words_append_tag h htag with ⟨-, hwords⟩ | ⟨-, others, word, -, hwords⟩
    · refine ⟨joinWith '_' ((words front).map uppercase ++ [[]]), ?_⟩
      rw [← joinWith_append_last, hwords]
      simp
    · refine ⟨joinWith '_' (others.map uppercase ++ [uppercase word]), ?_⟩
      rw [← joinWith_append_last, hwords]
      simp [uppercase]
  obtain ⟨back, hback⟩ := hends
  have hdot : ∀ tag ∈ tags, '.' ∈ uppercase tag := by decide
  have hno : ∀ tag ∈ tags, ∀ other ∈ tags, other.getLast? ≠ (uppercase tag).getLast? := by decide
  have hne : ∀ tag ∈ tags, uppercase tag ≠ [] := by decide
  rw [hback]
  refine ⟨stripTag_eq_self ?_, List.mem_append_right _ (hdot tag htag)⟩
  rintro other hother ⟨rest, hrest⟩
  have hlast := congrArg List.getLast? hrest
  obtain ⟨tail, hcons, -⟩ := isExtension_of_mem_tags hother
  rw [List.getLast?_append_of_ne_nil _ (by rw [hcons]; simp),
    List.getLast?_append_of_ne_nil _ (hne tag htag)] at hlast
  exact hno tag htag other hother hlast

end Convention

/-! ## Suggestions -/

/-- A suggestion is judged by what the convention makes of the stem, without a tag at its end. -/
theorem accepts_suggestion_eq {c : Convention} {shape : Shape} (hshape : shape ∈ c.shape?)
    {name : String} {stem ext : List Char} (hname : splitExtension name.toList = (stem, ext))
    (hext : IsExtension ext ∨ ext = [] ∧ '.' ∉ c.respell stem) :
    c.accepts (c.suggestion name) = shape.accepts (stripTag (c.respell stem)) := by
  have hshape : c.shape? = some shape := hshape
  rw [Convention.accepts, hshape, Convention.suggestion, hname]
  simp only [String.toList_ofList]
  rw [judgedPart_append hext]

/-- The suggestion for a name that every convention can spell follows the convention.  If the name
has a tag, capitals throughout never do, and small letters throughout exactly if no separator
stands before the tag. -/
theorem accepts_suggestion_iff (name : String) {front tag : List Char} (h : Spellable front)
    (hstem : (splitExtension name.toList).1 = front ++ tag) :
    (tag = [] → ∀ c : Convention, c.accepts (c.suggestion name) = true) ∧
      (tag ∈ tags →
        Convention.pascal.accepts (Convention.pascal.suggestion name) = true ∧
        Convention.camel.accepts (Convention.camel.suggestion name) = true ∧
        (Convention.kebab.accepts (Convention.kebab.suggestion name) = true ↔
          front.getLast?.any isSeparator = false) ∧
        (Convention.snake.accepts (Convention.snake.suggestion name) = true ↔
          front.getLast?.any isSeparator = false) ∧
        Convention.upper.accepts (Convention.upper.suggestion name) = false) := by
  have hname : splitExtension name.toList = (front ++ tag, (splitExtension name.toList).2) :=
    Prod.ext hstem rfl
  constructor
  · rintro rfl c
    rw [List.append_nil] at hname
    cases hshape : c.shape? with
    | none => rw [Convention.accepts, hshape]
    | some shape =>
      have haccepts := Convention.accepts_respell h hshape
      have hdot := Convention.dot_not_mem_of_accepts hshape haccepts
      have hext := (isExtension_or_nil name.toList).symm.imp_right fun hnil => And.intro hnil hdot
      rw [accepts_suggestion_eq hshape hname hext, stripTag_of_dot_not_mem hdot, haccepts]
  · intro htag
    have hext := isExtension_of_tag htag hstem
    refine ⟨?_, ?_, ?_, ?_, ?_⟩
    · rw [accepts_suggestion_eq rfl hname (.inl hext), Convention.respell_pascal_append_tag h htag,
        stripTag_append _ htag]
      exact Convention.accepts_respell h rfl
    · rw [accepts_suggestion_eq rfl hname (.inl hext), Convention.respell_camel_append_tag h htag,
        stripTag_append _ htag]
      exact Convention.accepts_respell h rfl
    · rw [accepts_suggestion_eq rfl hname (.inl hext)]
      exact Convention.accepts_stripTag_lowercase h htag rfl
        (Convention.accepts_respell (c := .kebab) h rfl)
    · rw [accepts_suggestion_eq rfl hname (.inl hext)]
      exact Convention.accepts_stripTag_lowercase h htag rfl
        (Convention.accepts_respell (c := .snake) h rfl)
    · rw [accepts_suggestion_eq rfl hname (.inl hext),
        (Convention.stripTag_respell_upper h htag).1, Bool.eq_false_iff]
      intro haccepts
      exact Convention.dot_not_mem_of_accepts (c := .upper) rfl haccepts
        (Convention.stripTag_respell_upper h htag).2

/-- A hook with a trailing blank: the suggestion in lower case is only right without the tag. -/
theorem accepts_suggestion_use_auth :
    (∀ c : Convention, c.accepts (c.suggestion "use Auth .ts") = true) ∧
      Convention.camel.accepts (Convention.camel.suggestion "use Auth .test.ts") = true ∧
      Convention.kebab.accepts (Convention.kebab.suggestion "use Auth .test.ts") = false ∧
      Convention.snake.accepts (Convention.snake.suggestion "use Auth.test.ts") = true ∧
      Convention.upper.accepts (Convention.upper.suggestion "use Auth.test.ts") = false := by
  have hletter : 'u'.isAlpha = true := by decide
  have hblank : Spellable "use Auth ".toList := .of_all (by decide) (by decide) hletter
  have hplain : Spellable "use Auth".toList := .of_all (by decide) (by decide) hletter
  have huntagged : (splitExtension "use Auth .ts".toList).1 = "use Auth ".toList ++ [] := by
    decide
  have hbehind : (splitExtension "use Auth .test.ts".toList).1 =
      "use Auth ".toList ++ ".test".toList := by decide
  have hinside : (splitExtension "use Auth.test.ts".toList).1 =
      "use Auth".toList ++ ".test".toList := by decide
  have hall := (accepts_suggestion_iff "use Auth .ts" hblank huntagged).1 rfl
  obtain ⟨-, hcamel, hkebab, -⟩ :=
    (accepts_suggestion_iff "use Auth .test.ts" hblank hbehind).2 (by decide)
  obtain ⟨-, -, -, hsnake, hupper⟩ :=
    (accepts_suggestion_iff "use Auth.test.ts" hplain hinside).2 (by decide)
  exact ⟨hall, hcamel, Bool.eq_false_iff.mpr fun h => absurd (hkebab.mp h) (by decide),
    hsnake.mpr (by decide), hupper⟩

end ProjectLayout.Naming
