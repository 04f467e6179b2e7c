import Mathlib.Data.List.Chain
import ProjectLayout.Proofs.Naming.Words

/-!
# Where words are cut

The words of a stem stand in it in their order, with separators around them.  They are cut where
separators stand and where a capital follows a small letter, and nowhere else, and no other list of
words has a place in the stem like that.

* `IsWord`, `AreCut` — what can be one word, and when two words in a row are two.
* `IsPlacement` — a stem as words with separators around them.
* `words_append_of_isWord` — a word in front of a place where it ends.
* `exists_isPlacement`, `words_of_isPlacement` — there is a placement of words, and it is of those
  that `words` finds.
* `words_eq_iff_splits` — the words of a stem, without saying how they are found.
-/

namespace ProjectLayout.Naming

/-! ## Words and their places -/

/-- Whether a text can be one word: it is not empty, and nothing in it ends a word. -/
structure IsWord (word : List Char) : Prop where
  ne_nil : word ≠ []
  separator : ∀ c ∈ word, isSeparator c = false
  /-- No small letter has a capital right behind it. -/
  whole : word.IsChain fun c d => ¬(c.isLower = true ∧ d.isUpper = true)

/-- A word and the separators behind it. -/
abbrev Part := List Char × List Char

/-- Whether two words in a row are two: there are separators between them, or there are none and a
capital follows a small letter. -/
def AreCut (first second : Part) : Prop :=
  first.2 ≠ [] ∨
    first.2 = [] ∧ ∃ c ∈ first.1.getLast?, ∃ d ∈ second.1.head?,
      c.isLower = true ∧ d.isUpper = true

/-- Whether a stem consists of the separators `lead` and of words that have to be cut, each with the
separators behind it. -/
structure IsPlacement (stem lead : List Char) (parts : List Part) : Prop where
  text : stem = lead ++ parts.flatMap fun part => part.1 ++ part.2
  lead : ∀ c ∈ lead, isSeparator c = true
  gaps : ∀ part ∈ parts, ∀ c ∈ part.2, isSeparator c = true
  cuts : parts.IsChain AreCut

/-- Whether a list of words is what a stem is to be split into. -/
structure Splits (stem : List Char) (found : List (List Char)) : Prop where
  words : ∀ word ∈ found, IsWord word
  /-- The words together are the stem without its separators. -/
  letters : found.flatten = stem.filter (!isSeparator ·)
  /-- In the stem the words follow each other with separators around them, and between two words in
  a row there are separators or just a small letter and a capital. -/
  placed : ∃ lead parts, found = parts.map Prod.fst ∧ IsPlacement stem lead parts

variable {stem lead word rest back : List Char} {parts : List Part} {c d : Char}

theorem isWord_singleton (hc : isSeparator c = false) : IsWord [c] where
  ne_nil := by simp
  separator e he := List.mem_singleton.mp he ▸ hc
  whole := .singleton c

/-- A word with one more letter in front, and the same letter in front of any word. -/
theorem isWord_cons_cons :
    IsWord (c :: d :: rest) ↔
      IsWord (d :: rest) ∧ isSeparator c = false ∧ ¬(c.isLower = true ∧ d.isUpper = true) := by
  constructor
  · rintro ⟨-, hseparator, hwhole⟩
    obtain ⟨hc, hrest⟩ := List.forall_mem_cons.mp hseparator
    obtain ⟨hcase, hwhole⟩ := List.isChain_cons_cons.mp hwhole
    exact ⟨⟨by simp, hrest, hwhole⟩, hc, hcase⟩
  · rintro ⟨⟨-, hrest, hwhole⟩, hc, hcase⟩
    exact ⟨by simp, List.forall_mem_cons.mpr ⟨hc, hrest⟩,
      List.isChain_cons_cons.mpr ⟨hcase, hwhole⟩⟩

/-- Between two letters a word ends just if the second is a capital and the first is small. -/
theorem endsBetween_iff (hd : isSeparator d = false) :
    endsBetween c d = true ↔ c.isLower = true ∧ d.isUpper = true := by
  rw [endsBetween, hd, Bool.false_or, Bool.and_eq_true]

/-! ## The words of a placement -/

/-- A word is found as it is in front of a place where it ends. -/
theorem words_append_of_isWord (h : IsWord word)
    (hend : ∀ d ∈ back.head?, ∃ c ∈ word.getLast?, endsBetween c d = true) :
    words (word ++ back) = word :: words back := by
  induction word with
  | nil => exact absurd rfl h.ne_nil
  | cons c rest ih =>
    cases rest with
    | nil =>
      have hc : isSeparator c = false := h.separator c List.mem_cons_self
      rw [List.singleton_append]
      cases hback : words back with
      | nil => rw [words_cons_of_eq_nil hc hback]
      | cons next others =>
        cases back with
        | nil => exact absurd hback (by simp [words])
        | cons d more =>
          obtain ⟨last, hlast, hcut⟩ := hend d rfl
          obtain rfl : c = last := by simpa using hlast
          rw [words_cons_cons hc hback, if_pos hcut]
    | cons d rest =>
      obtain ⟨hrest, hc, hcase⟩ := isWord_cons_cons.mp h
      have hstay : ¬endsBetween c d = true := by
        rwa [endsBetween_iff (hrest.separator d List.mem_cons_self)]
      have hwords : words (d :: (rest ++ back)) = (d :: rest) :: words back :=
        ih hrest (by simpa using hend)
      rw [List.cons_append, List.cons_append, words_cons_cons hc hwords, if_neg hstay]

/-- Separators in front of a stem add no word. -/
theorem words_append_of_lead (hlead : ∀ c ∈ lead, isSeparator c = true) (stem : List Char) :
    words (lead ++ stem) = words stem := by
  induction lead with
  | nil => rfl
  | cons c lead ih =>
    obtain ⟨hc, hrest⟩ := List.forall_mem_cons.mp hlead
    rw [List.cons_append, words_cons_separator _ hc, ih hrest]

/-- Where a part of a placement ends, its word ends. -/
theorem exists_endsBetween {part : Part} (hword : part.1 ≠ [])
    (hgap : ∀ c ∈ part.2, isSeparator c = true) (hcuts : (part :: parts).IsChain AreCut)
    (hd : d ∈ (part.2 ++ parts.flatMap fun part => part.1 ++ part.2).head?) :
    ∃ c ∈ part.1.getLast?, endsBetween c d = true := by
  cases hpart : part.2 with
  | cons e gap =>
    obtain rfl : e = d := by simpa [hpart] using hd
    refine ⟨_, List.getLast?_eq_some_getLast hword, ?_⟩
    rw [endsBetween, hgap e (by simp [hpart]), Bool.true_or]
  | nil =>
    cases parts with
    | nil => simp [hpart] at hd
    | cons next more =>
      obtain ⟨-, c, hc, e, he, hlower, hupper⟩ :=
        (List.isChain_cons_cons.mp hcuts).1.resolve_left (by simp [hpart])
      obtain ⟨rest, hnext⟩ := List.head?_eq_some_iff.mp he
      obtain rfl : e = d := by simpa [hpart, hnext] using hd
      exact ⟨c, hc, by rw [endsBetween, hlower, hupper, Bool.and_self, Bool.or_true]⟩

/-- Words that are placed in a stem are the words of the stem. -/
theorem words_of_isPlacement (h : IsPlacement stem lead parts)
    (hwords : ∀ part ∈ parts, IsWord part.1) : words stem = parts.map Prod.fst := by
  rw [h.text, words_append_of_lead h.lead]
  obtain ⟨-, -, hgaps, hcuts⟩ := h
  induction parts with
  | nil => rfl
  | cons part parts ih =>
    obtain ⟨hgap, hgaps⟩ := List.forall_mem_cons.mp hgaps
    obtain ⟨hword, hwords⟩ := List.forall_mem_cons.mp hwords
    rw [List.flatMap_cons, List.append_assoc,
      words_append_of_isWord hword fun d => exists_endsBetween hword.ne_nil hgap hcuts,
      words_append_of_lead hgap, ih hwords hgaps hcuts.tail, List.map_cons]

/-! ## One more character in front -/

/-- A separator in front of a stem stands in front of its words. -/
theorem IsPlacement.cons_separator (h : IsPlacement stem lead parts) (hc : isSeparator c = true) :
    IsPlacement (c :: stem) (c :: lead) parts where
  text := by rw [h.text, List.cons_append]
  lead := List.forall_mem_cons.mpr ⟨hc, h.lead⟩
  gaps := h.gaps
  cuts := h.cuts

/-- A letter that is a word by itself has the separators in front of the stem behind it. -/
theorem IsPlacement.cons_word (h : IsPlacement stem lead parts)
    (hcut : ∀ next ∈ parts.head?, AreCut ([c], lead) next) :
    IsPlacement (c :: stem) [] (([c], lead) :: parts) where
  text := by rw [h.text]; simp
  lead := by simp
  gaps := List.forall_mem_cons.mpr ⟨h.lead, h.gaps⟩
  cuts := List.isChain_cons.mpr ⟨hcut, h.cuts⟩

/-- A letter can be put in front of the first word of a stem. -/
theorem IsPlacement.cons_letter {gap : List Char}
    (h : IsPlacement stem [] ((d :: rest, gap) :: parts)) :
    IsPlacement (c :: stem) [] ((c :: d :: rest, gap) :: parts) where
  text := by rw [h.text]; simp
  lead := by simp
  gaps := List.forall_mem_cons.mpr (List.forall_mem_cons.mp h.gaps)
  cuts := by
    obtain ⟨hnext, hcuts⟩ := List.isChain_cons.mp h.cuts
    exact List.isChain_cons.mpr ⟨fun next hmem => by simpa [AreCut] using hnext next hmem, hcuts⟩

/-- In every stem words have a place. -/
theorem exists_isPlacement (stem : List Char) :
    ∃ lead parts, IsPlacement stem lead parts ∧ ∀ part ∈ parts, IsWord part.1 := by
  induction stem with
  | nil => exact ⟨[], [], ⟨rfl, by simp, by simp, .nil⟩, by simp⟩
  | cons c stem ih =>
    obtain ⟨lead, parts, h, hwords⟩ := ih
    cases hc : isSeparator c with
    | true => exact ⟨c :: lead, parts, h.cons_separator hc, hwords⟩
    | false =>
      have halone : ∀ part ∈ ([c], lead) :: parts, IsWord part.1 :=
        List.forall_mem_cons.mpr ⟨isWord_singleton hc, hwords⟩
      -- what the letter is followed by decides whether it is a word by itself
      cases lead with
      | cons e lead => exact ⟨[], _, h.cons_word fun _ _ => .inl (by simp), halone⟩
      | nil =>
        cases parts with
        | nil => exact ⟨[], _, h.cons_word (by simp), halone⟩
        | cons part parts =>
          obtain ⟨word, gap⟩ := part
          obtain ⟨hword, hothers⟩ := List.forall_mem_cons.mp hwords
          obtain ⟨d, rest, rfl⟩ := List.exists_cons_of_ne_nil hword.ne_nil
          by_cases hcase : c.isLower = true ∧ d.isUpper = true
          · refine ⟨[], _, h.cons_word fun next hnext => .inr ⟨rfl, c, rfl, d, ?_, hcase⟩, halone⟩
            rw [← Option.some.inj hnext]
            rfl
          · exact ⟨[], _, h.cons_letter,
              List.forall_mem_cons.mpr ⟨isWord_cons_cons.mpr ⟨hword, hc, hcase⟩, hothers⟩⟩

/-- The words of a stem are what it is to be split into, and nothing else is. -/
theorem words_eq_iff_splits (stem : List Char) (found : List (List Char)) :
    words stem = found ↔ Splits stem found := by
  constructor
  · rintro rfl
    obtain ⟨lead, parts, h, hwords⟩ := exists_isPlacement stem
    have hfound := words_of_isPlacement h hwords
    refine ⟨?_, flatten_words stem, lead, parts, hfound, h⟩
    rw [hfound]
    exact List.forall_mem_map.mpr hwords
  · rintro ⟨hwords, -, lead, parts, rfl, h⟩
    exact words_of_isPlacement h (List.forall_mem_map.mp hwords)

-- Letters beyond ASCII have no case here, and a digit neither ends a word nor begins one.
example : words "__useÄuß-v2APIKey\u3000x".toList =
    ["useÄuß".toList, "v2APIKey".toList, "x".toList] := by
  decide +kernel

end ProjectLayout.Naming
