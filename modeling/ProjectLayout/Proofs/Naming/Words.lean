import ProjectLayout.Naming.Suggestion

/-!
# Words of a stem

* `mem_of_mem_words` — a word holds characters of the stem, none of them a separator.
* `exists_words_eq_cons` — the first word begins with the first character that is no separator.
* `words_append_of_separator`, `words_append_of_run` — the words of a stem with more behind it,
  behind a separator or in the middle of a word.
* `words_joinWith` — words with separators between them are found again.
* `exists_capital_of_mem_tail_words` — words that no separator parts begin with capitals.
-/

namespace ProjectLayout.Naming

open Text

/-! ## What words are made of -/

theorem mem_of_mem_words {s word : List Char} {c : Char} (hword : word ∈ words s) (hc : c ∈ word) :
    c ∈ s ∧ isSeparator c = false := by
  have hmem : c ∈ (words s).flatten := List.mem_flatten.mpr ⟨word, hword, hc⟩
  rw [flatten_words, List.mem_filter] at hmem
  exact ⟨hmem.1, by simpa using hmem.2⟩

/-- A text without words has nothing but separators. -/
theorem isSeparator_of_words_eq_nil {s : List Char} (h : words s = []) {c : Char} (hc : c ∈ s) :
    isSeparator c = true := by
  have hfilter := flatten_words s
  rw [h, List.flatten_nil] at hfilter
  have hnone := List.filter_eq_nil_iff.mp hfilter.symm c hc
  simpa using hnone

/-- The first word begins where the separators at the front end. -/
theorem exists_words_eq_cons {s : List Char} {c : Char}
    (h : s.find? (!isSeparator ·) = some c) :
    ∃ more others, words s = (c :: more) :: others := by
  have hflatten : (words s).flatten.head? = some c := by
    rw [flatten_words, List.head?_filter, h]
  cases hwords : words s with
  | nil =>
    rw [hwords] at hflatten
    exact absurd hflatten (by simp)
  | cons word others =>
    have hne : word ≠ [] := ne_nil_of_mem_words (s := s) (by rw [hwords]; exact List.mem_cons_self)
    obtain ⟨d, more, rfl⟩ := List.exists_cons_of_ne_nil hne
    rw [hwords] at hflatten
    have hd : d = c := by simpa using hflatten
    exact ⟨more, others, by rw [hd]⟩

/-! ## One more character in front -/

theorem words_cons_separator {c : Char} (rest : List Char) (hc : isSeparator c = true) :
    words (c :: rest) = words rest := by
  rw [words, if_pos hc]

theorem words_cons_of_eq_nil {c : Char} {rest : List Char} (hc : isSeparator c = false)
    (h : words rest = []) : words (c :: rest) = [[c]] := by
  rw [words, hc, h]
  rfl

theorem words_cons_cons {c d : Char} {rest word : List Char} {others : List (List Char)}
    (hc : isSeparator c = false) (h : words (d :: rest) = word :: others) :
    words (c :: d :: rest) =
      if endsBetween c d = true then [c] :: word :: others else (c :: word) :: others := by
  rw [words, hc, h]
  rfl

/-! ## More behind a stem -/

/-- What stands behind a separator has its own words. -/
theorem words_append_of_separator {front : List Char} (back : List Char) {last : Char}
    (hlast : front.getLast? = some last) (hsep : isSeparator last = true) :
    words (front ++ back) = words front ++ words back := by
  induction front with
  | nil => exact absurd hlast (by simp)
  | cons c rest ih =>
    cases rest with
    | nil =>
      obtain rfl : c = last := by simpa using hlast
      rw [List.singleton_append, words_cons_separator back hsep, words_cons_separator [] hsep]
      rfl
    | cons d rest =>
      have happend : words (d :: (rest ++ back)) = words (d :: rest) ++ words back :=
        ih (by simpa using hlast)
      rw [List.cons_append, List.cons_append]
      cases hc : isSeparator c with
      | true => rw [words_cons_separator _ hc, words_cons_separator _ hc, happend]
      | false =>
        cases hwords : words (d :: rest) with
        | cons word others =>
          rw [hwords, List.cons_append] at happend
          rw [words_cons_cons hc hwords, words_cons_cons hc happend]
          by_cases hcut : endsBetween c d = true
          · rw [if_pos hcut, if_pos hcut]
            rfl
          · rw [if_neg hcut, if_neg hcut]
            rfl
        | nil =>
          -- the word of `c` ends at the separators that `rest` consists of
          have hcut : endsBetween c d = true := by
            rw [endsBetween, isSeparator_of_words_eq_nil hwords List.mem_cons_self, Bool.true_or]
          rw [hwords, List.nil_append] at happend
          rw [words_cons_of_eq_nil hc hwords]
          cases hback : words back with
          | nil =>
            rw [words_cons_of_eq_nil hc (happend.trans hback)]
            rfl
          | cons word others =>
            rw [words_cons_cons hc (happend.trans hback), if_pos hcut]
            rfl

/-- What is one word and does not end the one in front of it is added to that. -/
theorem words_append_of_run {front : List Char} {c : Char} {back : List Char} {last : Char}
    (hlast : front.getLast? = some last) (hsep : isSeparator last = false)
    (hend : endsBetween last c = false) (hback : words (c :: back) = [c :: back]) :
    ∃ others word, words front = others ++ [word] ∧
      words (front ++ c :: back) = others ++ [word ++ c :: back] := by
  induction front with
  | nil => exact absurd hlast (by simp)
  | cons d rest ih =>
    cases rest with
    | nil =>
      obtain rfl : d = last := by simpa using hlast
      refine ⟨[], [d], words_cons_of_eq_nil hsep rfl, ?_⟩
      rw [List.singleton_append, words_cons_cons hsep hback, if_neg (by simp [hend])]
      rfl
    | cons e rest =>
      obtain ⟨others, word, hwords, happend⟩ := ih (by simpa using hlast)
      rw [List.cons_append] at happend
      rw [List.cons_append, List.cons_append]
      cases hd : isSeparator d with
      | true =>
        rw [words_cons_separator _ hd, words_cons_separator _ hd]
        exact ⟨others, word, hwords, happend⟩
      | false =>
        cases others with
        | nil =>
          rw [words_cons_cons hd hwords, words_cons_cons hd happend]
          by_cases hcut : endsBetween d e = true
          · rw [if_pos hcut, if_pos hcut]
            exact ⟨[[d]], word, rfl, rfl⟩
          · rw [if_neg hcut, if_neg hcut]
            exact ⟨[], d :: word, rfl, rfl⟩
        | cons first others =>
          rw [words_cons_cons hd hwords, words_cons_cons hd happend]
          by_cases hcut : endsBetween d e = true
          · rw [if_pos hcut, if_pos hcut]
            exact ⟨[d] :: first :: others, word, rfl, rfl⟩
          · rw [if_neg hcut, if_neg hcut]
            exact ⟨(d :: first) :: others, word, rfl, rfl⟩

/-! ## Words put together -/

/-- A separator at the end of a stem adds no word. -/
theorem words_append_singleton {sep : Char} (front : List Char) (hsep : isSeparator sep = true) :
    words (front ++ [sep]) = words front := by
  induction front with
  | nil => exact words_cons_separator [] hsep
  | cons c rest ih =>
    rw [List.cons_append]
    cases hc : isSeparator c with
    | true => rw [words_cons_separator _ hc, words_cons_separator _ hc, ih]
    | false =>
      cases hwords : words rest with
      | nil => rw [words_cons_of_eq_nil hc (ih.trans hwords), words_cons_of_eq_nil hc hwords]
      | cons word others =>
        cases rest with
        | nil => exact absurd hwords (by simp [words])
        | cons d rest =>
          rw [words_cons_cons hc hwords]
          exact words_cons_cons hc (ih.trans hwords)

theorem words_append_cons {sep : Char} (front back : List Char) (hsep : isSeparator sep = true) :
    words (front ++ sep :: back) = words front ++ words back := by
  have happend : words (front ++ [sep] ++ back) = words (front ++ [sep]) ++ words back :=
    words_append_of_separator back (by simp) hsep
  rwa [words_append_singleton front hsep, List.append_assoc] at happend

/-- A text in which no character could end a word in front of another one is one word. -/
theorem words_eq_singleton {s : List Char} (hne : s ≠ [])
    (h : ∀ c ∈ s, ∀ d ∈ s, endsBetween c d = false) : words s = [s] := by
  induction s with
  | nil => exact absurd rfl hne
  | cons c rest ih =>
    have hc : isSeparator c = false := (Bool.or_eq_false_iff.mp (h c (by simp) c (by simp))).1
    cases rest with
    | nil => exact words_cons_of_eq_nil hc rfl
    | cons d rest =>
      have hrest := ih (by simp) fun e he f hf =>
        h e (List.mem_cons_of_mem c he) f (List.mem_cons_of_mem c hf)
      rw [words_cons_cons hc hrest, h c (by simp) d (by simp)]
      rfl

/-- Words with a separator between neighbours are the words of the whole. -/
theorem words_joinWith {sep : Char} (hsep : isSeparator sep = true) {pieces : List (List Char)}
    (h : ∀ piece ∈ pieces, words piece = [piece]) : words (joinWith sep pieces) = pieces := by
  induction pieces with
  | nil => rfl
  | cons piece pieces ih =>
    obtain ⟨hpiece, hpieces⟩ := List.forall_mem_cons.mp h
    cases pieces with
    | nil => exact hpiece
    | cons next more =>
      rw [joinWith_cons sep piece (by simp), words_append_cons _ _ hsep, hpiece, ih hpieces]
      rfl

/-- Without separators, a word ends only in front of a capital. -/
theorem exists_capital_of_mem_tail_words {s : List Char} (h : ∀ c ∈ s, isSeparator c = false)
    {word : List Char} (hword : word ∈ (words s).tail) :
    ∃ c rest, word = c :: rest ∧ c.isUpper = true := by
  induction s with
  | nil => exact absurd hword (by simp [words])
  | cons c rest ih =>
    obtain ⟨hc, hrest⟩ := List.forall_mem_cons.mp h
    cases rest with
    | nil =>
      rw [words_cons_of_eq_nil hc rfl] at hword
      exact absurd hword (by simp)
    | cons d more =>
      have hd : isSeparator d = false := hrest d List.mem_cons_self
      obtain ⟨back, others, hwords⟩ := exists_words_eq_cons (s := d :: more) (c := d) (by simp [hd])
      rw [hwords, List.tail_cons] at ih
      rw [words_cons_cons hc hwords] at hword
      split at hword
      · next hcut =>
        rcases List.mem_cons.mp hword with rfl | hothers
        · rw [endsBetween, hd, Bool.false_or, Bool.and_eq_true] at hcut
          exact ⟨d, back, rfl, hcut.2⟩
        · exact ih hrest hothers
      · exact ih hrest hword

end ProjectLayout.Naming
