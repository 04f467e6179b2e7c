import ProjectLayout.Proofs.Naming.Suggestion

/-!
# What respelling keeps

A convention decides on the separators and on the case of letters.  Nothing else of a stem is
changed, and no separator is left at its end, so the extension is found again behind the new stem.

* `bare` — what separators and case leave of a text.
* `Convention.Joins` — the conventions that write all words in one case, described in one way.
* `Convention.keeps_respell` — what every known convention keeps of a stem.
* `splitExtension_suggestion` — a suggestion is a respelled stem with the old extension.
* `suggestion_keeps_letters` — a suggestion has the characters of the name in their order.
-/

namespace ProjectLayout.Naming

open Text

variable {s t : List Char}

/-! ## Separators and case -/

theorem isSeparator_of_isAlphanum {c : Char} (h : c.isAlphanum = true) : isSeparator c = false := by
  have hall : ∀ n < 0x80, (Char.ofNat n).isAlphanum = true →
      isSeparator (Char.ofNat n) = false := by decide
  have hc := hall c.toNat (toNat_lt_of_isAlphanum h)
  rw [Char.ofNat_toNat] at hc
  exact hc h

theorem isSeparator_toLower (c : Char) : isSeparator c.toLower = isSeparator c := by
  cases halpha : c.isAlpha with
  | true =>
    have halnum := isAlphanum_of_isAlpha halpha
    rw [isSeparator_of_isAlphanum halnum, isSeparator_of_isAlphanum (isAlphanum_toLower halnum)]
  | false => rw [toLower_of_not_isAlpha halpha]

/-- Letters in another case put no separator into a text. -/
theorem forall_isSeparator_of_sameLetters (h : SameLetters s t)
    (hs : ∀ c ∈ s, isSeparator c = false) : ∀ c ∈ t, isSeparator c = false := by
  intro c hc
  have hmem : c.toLower ∈ s.map Char.toLower := h ▸ List.mem_map_of_mem hc
  obtain ⟨d, hd, hlower⟩ := List.mem_map.mp hmem
  rw [← isSeparator_toLower, ← hlower, isSeparator_toLower, hs d hd]

theorem capitalize_eq_modifyHead (h : IsAscii s) : capitalize s = s.modifyHead Char.toUpper := by
  cases s with
  | nil => rfl
  | cons c rest => exact capitalize_cons rest (h c List.mem_cons_self)

theorem decapitalize_eq_modifyHead (h : IsAscii s) :
    decapitalize s = s.modifyHead Char.toLower := by
  cases s with
  | nil => rfl
  | cons c rest => exact decapitalize_cons rest (h c List.mem_cons_self)

theorem sameLetters_capitalize (h : IsAscii s) : SameLetters s (capitalize s) := by
  rw [capitalize_eq_modifyHead h]
  cases s with
  | nil => rfl
  | cons c rest => simp [SameLetters]

theorem sameLetters_decapitalize (h : IsAscii s) : SameLetters s (decapitalize s) := by
  rw [decapitalize_eq_modifyHead h]
  cases s with
  | nil => rfl
  | cons c rest => simp [SameLetters]

theorem capitalize_of_isUpper {c : Char} (rest : List Char) (h : c.isUpper = true) :
    capitalize (c :: rest) = c :: rest := by
  have halpha : c.isAlpha = true := by rw [Char.isAlpha, h, Bool.true_or]
  rw [capitalize_cons rest (toNat_lt_of_isAlphanum (isAlphanum_of_isAlpha halpha)),
    toUpper_of_isUpper h]

theorem isAscii_of_mem_words (h : IsAscii s) {word : List Char} (hword : word ∈ words s) :
    IsAscii word := fun c hc => h c (mem_of_mem_words hword hc).1

/-! ## Letters without separators and case -/

/-- The characters of a text that are no separators, each letter in lower case. -/
def bare (s : List Char) : List Char := (s.map Char.toLower).filter (!isSeparator ·)

theorem bare_append (s t : List Char) : bare (s ++ t) = bare s ++ bare t := by
  simp [bare]

theorem bare_flatMap (f : List Char → List Char) (pieces : List (List Char)) :
    bare (pieces.flatMap f) = pieces.flatMap fun piece => bare (f piece) := by
  induction pieces with
  | nil => rfl
  | cons piece pieces ih => rw [List.flatMap_cons, List.flatMap_cons, bare_append, ih]

theorem bare_eq_of_sameLetters (h : SameLetters s t) : bare t = bare s := by
  rw [bare, bare, h]

theorem lowercase_filter_eq_bare (h : IsAscii s) :
    lowercase (s.filter (!isSeparator ·)) = bare s := by
  rw [lowercase_of_ascii fun c hc => h c (List.mem_of_mem_filter hc), bare, List.filter_map]
  simp only [Function.comp_def, isSeparator_toLower]

/-- The words of a stem hold all that is left of it. -/
theorem bare_flatten_words (s : List Char) : bare (words s).flatten = bare s := by
  rw [flatten_words, bare, bare, List.filter_map, List.filter_map, List.filter_filter]
  simp only [Function.comp_def, isSeparator_toLower, Bool.and_self]

theorem flatMap_bare_words (s : List Char) : (words s).flatMap bare = bare s := by
  rw [← bare_flatten_words, ← List.flatMap_id, bare_flatMap]
  rfl

theorem bare_joinWith {sep : Char} (hsep : isSeparator sep = true) (pieces : List (List Char)) :
    bare (joinWith sep pieces) = pieces.flatMap bare := by
  have hbare : bare [sep] = [] := by
    simp [bare, isSeparator_toLower, hsep]
  induction pieces with
  | nil => rfl
  | cons piece pieces ih =>
    cases pieces with
    | nil => simp [joinWith]
    | cons next more =>
      rw [joinWith_cons sep piece (by simp), List.append_cons, bare_append, bare_append, hbare,
        List.append_nil, ih]
      rfl

/-- Something is left of a text that does not end in a separator. -/
theorem bare_ne_nil {last : Char} (hlast : s.getLast? = some last)
    (hsep : isSeparator last = false) : bare s ≠ [] := by
  have hmem : last.toLower ∈ bare s := by
    rw [bare, List.mem_filter, isSeparator_toLower, hsep]
    exact ⟨List.mem_map_of_mem (List.mem_of_getLast? hlast), rfl⟩
  exact List.ne_nil_of_mem hmem

/-- A character that has no case and is no separator is in what is left exactly if it was there. -/
theorem mem_bare {d : Char} (halpha : d.isAlpha = false) (hsep : isSeparator d = false) :
    d ∈ bare s ↔ d ∈ s := by
  simp only [bare, List.mem_filter, List.mem_map, toLower_eq_iff halpha, exists_eq_right, hsep,
    Bool.not_false, and_true]

/-- Where a text has a character that has no case and is no separator, a text of which the same is
left has it too, between the same letters. -/
theorem exists_of_bare_eq_append {front back : List Char} {d : Char} (halpha : d.isAlpha = false)
    (h : bare s = front ++ d :: back) :
    ∃ first rest, s = first ++ d :: rest ∧ bare rest = back := by
  obtain ⟨lowerFront, lowerBack, hs, -, hback⟩ := List.filter_eq_append_iff.mp h
  obtain ⟨skipped, more, rfl, -, -, hmore⟩ := List.filter_eq_cons_iff.mp hback
  rw [← List.append_assoc] at hs
  obtain ⟨first, rest, rfl, -, hrest⟩ := List.map_eq_append_iff.mp hs
  obtain ⟨c, rest, rfl, hc, rfl⟩ := List.map_eq_cons_iff.mp hrest
  rw [toLower_eq_iff halpha] at hc
  exact ⟨first, rest, by rw [hc], hmore⟩

/-! ## The extension -/

/-- An extension at the end of a text that ends in no separator is matched by one in every text of
which the same is left. -/
theorem exists_isExtension_of_bare_eq (h : bare s = bare t)
    (hlast : ∀ c ∈ t.getLast?, isSeparator c = false) {ext : List Char} (hext : IsExtension ext)
    (hsuffix : ext <:+ t) : ∃ other, IsExtension other ∧ other <:+ s := by
  obtain ⟨rest, rfl, hne, hdot, hslash⟩ := hext
  obtain ⟨front, rfl⟩ := hsuffix
  have hsplit : bare s = bare front ++ '.' :: bare rest := by
    rw [h, bare_append]
    rfl
  obtain ⟨first, back, rfl, hback⟩ := exists_of_bare_eq_append (by decide) hsplit
  have hmem {d : Char} (halpha : d.isAlpha = false) (hsep : isSeparator d = false) :
      d ∈ back ↔ d ∈ rest := by
    rw [← mem_bare halpha hsep, hback, mem_bare halpha hsep]
  refine ⟨'.' :: back, ⟨back, rfl, ?_, ?_, ?_⟩, List.suffix_append first _⟩
  · -- what `rest` ends in is left of it, so `back` cannot be empty
    cases hrest : rest.getLast? with
    | none => exact absurd (List.getLast?_eq_none_iff.mp hrest) hne
    | some last =>
      have hsep := hlast last (by simp [List.getLast?_cons, hrest])
      rintro rfl
      exact bare_ne_nil hrest hsep hback.symm
  · rwa [hmem (by decide) (by decide)]
  · rwa [hmem (by decide) (by decide)]

/-! ## What a convention keeps -/

/-- Whether `new` differs from `stem` in separators and case only and does not end in a
separator. -/
structure Keeps (stem new : List Char) : Prop where
  isAscii : IsAscii new
  bare : bare new = bare stem
  getLast? : ∀ c ∈ new.getLast?, isSeparator c = false

namespace Convention

variable {c d : Convention} {stem : List Char}

/-- Words with capitals have the letters of the stem and no separators. -/
theorem sameLetters_respell (hc : c ∈ [pascal, camel]) (h : IsAscii stem) :
    SameLetters (stem.filter (!isSeparator ·)) (c.respell stem) := by
  have hpascal : SameLetters (stem.filter (!isSeparator ·)) (pascal.respell stem) := by
    rw [← flatten_words]
    exact sameLetters_flatMap fun word hword =>
      sameLetters_capitalize (isAscii_of_mem_words h hword)
  simp only [List.mem_cons, List.not_mem_nil, or_false] at hc
  rcases hc with rfl | rfl
  · exact hpascal
  · have hascii : IsAscii (stem.filter (!isSeparator ·)) :=
      fun c hc => h c (List.mem_of_mem_filter hc)
    exact hpascal.trans (sameLetters_decapitalize (hpascal.isAscii hascii))

theorem isSeparator_of_mem_respell (hc : c ∈ [pascal, camel]) (h : IsAscii stem) :
    ∀ d ∈ c.respell stem, isSeparator d = false :=
  forall_isSeparator_of_sameLetters (sameLetters_respell hc h) fun d hd => by
    simpa using (List.mem_filter.mp hd).2

/-- Whether a convention writes all words in one case with `sep` between neighbours. -/
structure Joins (c : Convention) (sep : Char) (image : Char → Char) : Prop where
  isSeparator : isSeparator sep = true
  isAscii : sep.toNat < 0x80
  image_eq : image = Char.toLower ∨ image = Char.toUpper
  respell : ∀ stem, IsAscii stem →
    c.respell stem = joinWith sep ((words stem).map (List.map image))

theorem map_lowercase_words (h : IsAscii stem) :
    (words stem).map lowercase = (words stem).map (List.map Char.toLower) :=
  List.map_congr_left fun _ hword => lowercase_of_ascii (isAscii_of_mem_words h hword)

theorem joins_kebab : kebab.Joins '-' Char.toLower :=
  ⟨by decide, by decide, .inl rfl, fun stem h => by rw [Convention.respell, map_lowercase_words h]⟩

theorem joins_snake : snake.Joins '_' Char.toLower :=
  ⟨by decide, by decide, .inl rfl, fun stem h => by rw [Convention.respell, map_lowercase_words h]⟩

theorem joins_upper : upper.Joins '_' Char.toUpper := by
  refine ⟨by decide, by decide, .inr rfl, fun stem h => ?_⟩
  rw [Convention.respell]
  congr 1
  exact List.map_congr_left fun word hword => uppercase_of_ascii (isAscii_of_mem_words h hword)

theorem exists_joins (hc : c ∈ [kebab, snake, upper]) : ∃ sep image, c.Joins sep image := by
  simp only [List.mem_cons, List.not_mem_nil, or_false] at hc
  rcases hc with rfl | rfl | rfl
  · exact ⟨_, _, joins_kebab⟩
  · exact ⟨_, _, joins_snake⟩
  · exact ⟨_, _, joins_upper⟩

namespace Joins

variable {sep : Char} {image : Char → Char}

theorem sameLetters (h : c.Joins sep image) (word : List Char) :
    SameLetters word (word.map image) := by
  rw [SameLetters, List.map_map]
  rcases h.image_eq with rfl | rfl
  · exact List.map_congr_left fun d _ => (Char.toLower_toLower_eq_toLower d).symm
  · exact List.map_congr_left fun d _ => (Char.toLower_toUpper_eq_toLower d).symm

/-- A run in one case has no capital behind a small letter, so it is one word. -/
theorem words_map_image (h : c.Joins sep image) {run : List Char} (hne : run ≠ [])
    (hrun : ∀ d ∈ run, Naming.isSeparator d = false) : words (run.map image) = [run.map image] := by
  have hsame := h.sameLetters run
  refine words_eq_singleton (hsame.ne_nil hne) fun d hd e he => ?_
  rw [endsBetween, forall_isSeparator_of_sameLetters hsame hrun e he, Bool.false_or]
  obtain ⟨x, -, rfl⟩ := List.mem_map.mp hd
  obtain ⟨y, -, rfl⟩ := List.mem_map.mp he
  rcases h.image_eq with rfl | rfl
  · rw [Char.isUpper_toLower_eq_false, Bool.and_false]
  · rw [Char.isLower_toUpper_eq_false, Bool.false_and]

/-- The words are found again, in their new case. -/
theorem words_respell (h : c.Joins sep image) (hascii : IsAscii stem) :
    words (c.respell stem) = (words stem).map (List.map image) := by
  rw [h.respell stem hascii]
  refine words_joinWith h.isSeparator fun piece hpiece => ?_
  obtain ⟨word, hword, rfl⟩ := List.mem_map.mp hpiece
  exact h.words_map_image (ne_nil_of_mem_words hword) fun d hd => (mem_of_mem_words hword hd).2

theorem keeps_respell (h : c.Joins sep image) (hascii : IsAscii stem) :
    Keeps stem (c.respell stem) where
  isAscii := by
    rw [h.respell stem hascii]
    intro d hd
    rcases mem_joinWith hd with rfl | ⟨piece, hpiece, hd⟩
    · exact h.isAscii
    · obtain ⟨word, hword, rfl⟩ := List.mem_map.mp hpiece
      exact (h.sameLetters word).isAscii (isAscii_of_mem_words hascii hword) d hd
  bare := by
    rw [h.respell stem hascii, bare_joinWith h.isSeparator, List.flatMap_map]
    simp only [bare_eq_of_sameLetters (h.sameLetters _)]
    exact flatMap_bare_words stem
  getLast? := by
    intro d hd
    rw [h.respell stem hascii, getLast?_joinWith] at hd
    · obtain ⟨piece, hpiece, hd⟩ := List.mem_flatten.mp (List.mem_of_getLast? hd)
      obtain ⟨word, hword, rfl⟩ := List.mem_map.mp hpiece
      exact forall_isSeparator_of_sameLetters (h.sameLetters word)
        (fun e he => (mem_of_mem_words hword he).2) d hd
    · intro piece hpiece
      obtain ⟨word, hword, rfl⟩ := List.mem_map.mp hpiece
      exact (h.sameLetters word).ne_nil (ne_nil_of_mem_words hword)

end Joins

theorem exists_unknown (h : c.isKnown = false) : ∃ spelling, c = unknown spelling := by
  cases c with
  | unknown spelling => exact ⟨spelling, rfl⟩
  | _ => exact absurd h (by simp [isKnown])

/-- A known convention changes separators and case only. -/
theorem keeps_respell (hknown : c.isKnown = true) (h : IsAscii stem) :
    Keeps stem (c.respell stem) := by
  by_cases hc : c ∈ [pascal, camel]
  · have hsame := sameLetters_respell hc h
    refine ⟨hsame.isAscii fun d hd => h d (List.mem_of_mem_filter hd), ?_, fun d hd => ?_⟩
    · rw [bare_eq_of_sameLetters hsame, ← flatten_words, bare_flatten_words]
    · exact isSeparator_of_mem_respell hc h d (List.mem_of_getLast? hd)
  · have hjoins : c ∈ [kebab, snake, upper] := by
      cases c <;> simp_all [isKnown]
    obtain ⟨sep, image, hjoins⟩ := exists_joins hjoins
    exact hjoins.keeps_respell h

/-- A text without separators only gets a capital in front: all its words but the first begin with
one. -/
theorem respell_pascal_eq_capitalize (h : ∀ d ∈ stem, isSeparator d = false) :
    pascal.respell stem = capitalize stem := by
  have hflatten : (words stem).flatten = stem := by
    rw [flatten_words, List.filter_eq_self.mpr fun d hd => by simp [h d hd]]
  have htail : (words stem).tail.map capitalize = (words stem).tail := by
    refine (List.map_congr_left fun word hword => ?_).trans (List.map_id _)
    obtain ⟨d, more, rfl, hd⟩ := exists_capital_of_mem_tail_words h hword
    exact capitalize_of_isUpper more hd
  rw [respell, List.flatMap_def]
  cases hwords : words stem with
  | nil =>
    rw [hwords] at hflatten
    rw [← hflatten]
    rfl
  | cons word others =>
    obtain ⟨d, more, rfl⟩ := List.exists_cons_of_ne_nil
      (ne_nil_of_mem_words (s := stem) (hwords ▸ List.mem_cons_self))
    rw [hwords] at hflatten htail
    rw [← hflatten, List.map_cons, show others.map capitalize = others from htail]
    simp [capitalize]

end Convention

/-! ## Suggestions -/

/-- The extension is found again behind what has been made of the stem. -/
theorem splitExtension_of_keeps {name stem ext new : List Char}
    (hname : splitExtension name = (stem, ext)) (h : Keeps stem new) :
    splitExtension (new ++ ext) = (new, ext) := by
  have hends := isExtension_or_nil name
  have happend := splitExtension_append name
  rw [hname] at hends happend
  rcases hends with rfl | hext
  · rw [List.append_nil] at happend ⊢
    refine splitExtension_eq_self fun ext hext hsuffix => ?_
    obtain ⟨other, hother, front, hfront⟩ :=
      exists_isExtension_of_bare_eq h.bare.symm h.getLast? hext hsuffix
    -- the name would have been split there
    rw [← happend, ← hfront, splitExtension_append_of_isExtension front hother] at hname
    obtain ⟨rest, hcons, -⟩ := hother
    exact absurd (hcons.symm.trans (Prod.mk.inj hname).2) (by simp)
  · exact splitExtension_append_of_isExtension new hext

/-- A suggestion is a respelled stem with the old extension. -/
theorem splitExtension_suggestion (c : Convention) {name : String}
    (h : IsAscii (splitExtension name.toList).1) :
    splitExtension (c.suggestion name).toList =
      (c.respell (splitExtension name.toList).1, (splitExtension name.toList).2) := by
  cases hknown : c.isKnown with
  | true =>
    rw [Convention.suggestion, String.toList_ofList]
    exact splitExtension_of_keeps rfl (Convention.keeps_respell hknown h)
  | false =>
    obtain ⟨spelling, rfl⟩ := Convention.exists_unknown hknown
    rw [Convention.suggestion_unknown, Convention.respell]

/-- A suggestion has the extension of the name, and its stem has the characters of the old one in
their order: only separators come and go, and only the case of letters changes. -/
theorem suggestion_keeps_letters (c : Convention) (name : String)
    (h : IsAscii (splitExtension name.toList).1) :
    (splitExtension (c.suggestion name).toList).2 = (splitExtension name.toList).2 ∧
      lowercase ((splitExtension (c.suggestion name).toList).1.filter (!isSeparator ·)) =
        lowercase ((splitExtension name.toList).1.filter (!isSeparator ·)) := by
  rw [splitExtension_suggestion c h]
  refine ⟨rfl, ?_⟩
  cases hknown : c.isKnown with
  | true =>
    have hkeeps := Convention.keeps_respell hknown h
    rw [lowercase_filter_eq_bare hkeeps.isAscii, lowercase_filter_eq_bare h, hkeeps.bare]
  | false =>
    obtain ⟨spelling, rfl⟩ := Convention.exists_unknown hknown
    rw [Convention.respell]

/-- Without an extension, the whole name is respelled, and its last dot stays the last. -/
theorem suggestion_keeps_letters_draft :
    Convention.snake.suggestion "final--Draft v2." = "final_draft_v2." ∧
      (splitExtension "final_draft_v2.".toList).2 = [] ∧
      lowercase ("final_draft_v2.".toList.filter (!isSeparator ·)) = "finaldraftv2.".toList := by
  have hvalue : Convention.snake.suggestion "final--Draft v2." = "final_draft_v2." := by decide
  have hname : splitExtension "final--Draft v2.".toList = ("final--Draft v2.".toList, []) := by
    decide
  have hstem : (splitExtension "final_draft_v2.".toList).1 = "final_draft_v2.".toList := by decide
  obtain ⟨hext, hletters⟩ := suggestion_keeps_letters .snake "final--Draft v2." (by decide)
  rw [hvalue, hname] at hext hletters
  rw [hstem] at hletters
  exact ⟨hvalue, hext, hletters.trans (by decide)⟩

end ProjectLayout.Naming
