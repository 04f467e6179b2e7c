import ProjectLayout.Text.Segment

/-!
# Pieces between separators

* `splitOn_append`, `splitOn_joinWith` — splitting takes apart what joining has put together.
* `splitOn_append_eq` — splitting a text that goes on behind its last piece.
* `trimBoth_eq_self` — a text without the character at its ends is left alone.
-/

namespace ProjectLayout.Text

/-! ## Splitting -/

theorem splitOn_of_not_mem {sep : Char} {s : List Char} (h : sep ∉ s) : splitOn sep s = [s] := by
  induction s with
  | nil => rfl
  | cons c rest ih =>
    simp only [List.mem_cons, not_or] at h
    rw [splitOn, if_neg (Ne.symm h.1), ih h.2]

theorem sep_not_mem_of_mem_splitOn {sep : Char} {s piece : List Char} (h : piece ∈ splitOn sep s) :
    sep ∉ piece := by
  induction s generalizing piece with
  | nil =>
    rw [List.mem_singleton.mp h]
    exact List.not_mem_nil
  | cons c rest ih =>
    rw [splitOn] at h
    split at h
    · rcases List.mem_cons.mp h with rfl | hrest
      · exact List.not_mem_nil
      · exact ih hrest
    · next hc =>
      cases hs : splitOn sep rest with
      | nil => exact absurd hs (splitOn_ne_nil sep rest)
      | cons first pieces =>
        rw [hs] at h ih
        rcases List.mem_cons.mp h with rfl | hmore
        · exact List.not_mem_cons_of_ne_of_not_mem (Ne.symm hc) (ih List.mem_cons_self)
        · exact ih (List.mem_cons_of_mem _ hmore)

/-- Of the pieces of a text there are no more that are not empty than it has characters. -/
theorem length_filter_splitOn_le (sep : Char) {p : List Char → Bool} (hp : p [] = false)
    (s : List Char) : ((splitOn sep s).filter p).length ≤ s.length := by
  induction s with
  | nil => simp [splitOn, hp]
  | cons c rest ih =>
    rw [splitOn]
    split
    · rw [List.filter_cons_of_neg (by simp [hp])]
      exact Nat.le_succ_of_le ih
    · cases hs : splitOn sep rest with
      | nil => exact absurd hs (splitOn_ne_nil sep rest)
      | cons piece pieces =>
        rw [hs, List.filter_cons] at ih
        rw [List.filter_cons]
        split <;> split at ih <;> simp only [List.length_cons] at ih ⊢ <;> omega

theorem splitOn_append (sep : Char) (s t : List Char) :
    splitOn sep (s ++ sep :: t) = splitOn sep s ++ splitOn sep t := by
  induction s with
  | nil => simp [splitOn]
  | cons c rest ih =>
    rw [List.cons_append, splitOn, splitOn, ih]
    by_cases h : c = sep
    · simp [h]
    · rw [if_neg h, if_neg h]
      cases hs : splitOn sep rest with
      | nil => exact absurd hs (splitOn_ne_nil sep rest)
      | cons piece pieces => rfl

/-- The last piece of a text goes on in what is put behind the text. -/
theorem splitOn_append_eq (sep : Char) (s t : List Char) :
    ∃ front last first back, splitOn sep s = front ++ [last] ∧ splitOn sep t = first :: back ∧
      splitOn sep (s ++ t) = front ++ (last ++ first) :: back := by
  obtain ⟨first, back, ht⟩ := List.exists_cons_of_ne_nil (splitOn_ne_nil sep t)
  induction s with
  | nil => exact ⟨[], [], first, back, rfl, ht, ht⟩
  | cons c rest ih =>
    obtain ⟨front, last, first', back', hs, ht', hst⟩ := ih
    rw [List.cons_append, splitOn, splitOn, hs, hst]
    split
    · exact ⟨[] :: front, last, first', back', rfl, ht', rfl⟩
    · cases front with
      | nil => exact ⟨[], c :: last, first', back', rfl, ht', rfl⟩
      | cons piece more => exact ⟨(c :: piece) :: more, last, first', back', rfl, ht', rfl⟩

theorem splitOn_joinWith {sep : Char} {pieces : List (List Char)} (hne : pieces ≠ [])
    (h : ∀ piece ∈ pieces, sep ∉ piece) : splitOn sep (joinWith sep pieces) = pieces := by
  induction pieces with
  | nil => exact absurd rfl hne
  | cons piece pieces ih =>
    have hp := splitOn_of_not_mem (h piece List.mem_cons_self)
    cases pieces with
    | nil => exact hp
    | cons next more =>
      have hrest := ih (by simp) fun p hp => h p (List.mem_cons_of_mem _ hp)
      rw [joinWith_cons sep piece (by simp), splitOn_append, hp, hrest]
      rfl

theorem joinWith_append (sep : Char) {pieces more : List (List Char)} (h : pieces ≠ [])
    (hm : more ≠ []) :
    joinWith sep (pieces ++ more) = joinWith sep pieces ++ sep :: joinWith sep more := by
  induction pieces with
  | nil => exact absurd rfl h
  | cons piece pieces ih =>
    cases pieces with
    | nil => exact joinWith_cons sep piece hm
    | cons next rest =>
      rw [List.cons_append, joinWith_cons sep piece (by simp), joinWith_cons sep piece (by simp),
        ih (by simp)]
      simp

theorem mem_joinWith {sep c : Char} {pieces : List (List Char)} (h : c ∈ joinWith sep pieces) :
    c = sep ∨ ∃ piece ∈ pieces, c ∈ piece := by
  induction pieces with
  | nil => simp [joinWith] at h
  | cons piece pieces ih =>
    cases pieces with
    | nil => exact .inr ⟨piece, by simp, h⟩
    | cons next more =>
      rw [joinWith_cons sep piece (by simp), List.mem_append, List.mem_cons] at h
      rcases h with h | h | h
      · exact .inr ⟨piece, by simp, h⟩
      · exact .inl h
      · rcases ih h with h | ⟨p, hp, h⟩
        · exact .inl h
        · exact .inr ⟨p, List.mem_cons_of_mem _ hp, h⟩

theorem mem_joinWith_of_mem {sep c : Char} {piece : List Char} {pieces : List (List Char)}
    (hpiece : piece ∈ pieces) (hc : c ∈ piece) : c ∈ joinWith sep pieces := by
  induction pieces with
  | nil => exact absurd hpiece List.not_mem_nil
  | cons first pieces ih =>
    by_cases hnil : pieces = []
    · rw [hnil, List.mem_singleton] at hpiece
      rw [hnil, joinWith, ← hpiece]
      exact hc
    · rw [joinWith_cons sep first hnil, List.mem_append, List.mem_cons]
      rcases List.mem_cons.mp hpiece with rfl | hmore
      · exact .inl hc
      · exact .inr (.inr (ih hmore))

theorem mem_of_mem_splitOn {sep c : Char} {s piece : List Char} (hpiece : piece ∈ splitOn sep s)
    (hc : c ∈ piece) : c ∈ s :=
  joinWith_splitOn sep s ▸ mem_joinWith_of_mem hpiece hc

/-- Joined pieces end as the last of them. -/
theorem getLast?_joinWith (sep : Char) {pieces : List (List Char)}
    (h : ∀ piece ∈ pieces, piece ≠ []) :
    (joinWith sep pieces).getLast? = pieces.flatten.getLast? := by
  induction pieces with
  | nil => rfl
  | cons piece pieces ih =>
    obtain ⟨-, hpieces⟩ := List.forall_mem_cons.mp h
    cases pieces with
    | nil => rw [List.flatten_singleton, joinWith]
    | cons next more =>
      have hsome : (next :: more).flatten.getLast?.isSome = true := by
        rw [List.getLast?_isSome, List.flatten_cons]
        exact List.append_ne_nil_of_left_ne_nil (hpieces next List.mem_cons_self) _
      have hflatten : (piece :: next :: more).flatten = piece ++ (next :: more).flatten :=
        List.flatten_cons
      rw [joinWith_cons sep piece (by simp), List.append_cons, List.getLast?_append, ih hpieces,
        Option.or_of_isSome hsome, hflatten, List.getLast?_append, Option.or_of_isSome hsome]

theorem cutAtLast_append {c : Char} (front : List Char) {back : List Char} (h : c ∉ back) :
    cutAtLast c (front ++ c :: back) = some (front, back) := by
  induction front with
  | nil =>
    rw [List.nil_append, cutAtLast, cutAtLast_eq_none.mpr h]
    simp
  | cons x front ih => rw [List.cons_append, cutAtLast, ih]

/-! ## Ends of a text -/

/-- A text without empty pieces has no separator at its ends. -/
theorem ends_ne_of_nil_not_mem {sep : Char} {s : List Char} (h : [] ∉ splitOn sep s) :
    s.head? ≠ some sep ∧ s.getLast? ≠ some sep := by
  constructor
  · intro hh
    obtain ⟨rest, rfl⟩ := List.head?_eq_some_iff.mp hh
    exact h (by simp [splitOn])
  · intro hh
    obtain ⟨front, rfl⟩ := List.getLast?_eq_some_iff.mp hh
    exact h (by simp [splitOn_append, splitOn])

/-- The last piece of a text is empty only if the text ends in a separator or is empty itself. -/
theorem last_piece_ne_nil {sep : Char} {s last : List Char} {front : List (List Char)}
    (hsplit : splitOn sep s = front ++ [last]) (hne : s ≠ []) (hend : s.getLast? ≠ some sep) :
    last ≠ [] := by
  rintro rfl
  have hjoin := joinWith_splitOn sep s
  rw [hsplit] at hjoin
  by_cases hfront : front = []
  · subst hfront
    exact hne hjoin.symm
  · rw [joinWith_append sep hfront (by simp)] at hjoin
    exact hend (by rw [← hjoin]; simp [joinWith])

theorem dropWhile_eq_self {c : Char} {s : List Char} (h : s.head? ≠ some c) :
    s.dropWhile (· = c) = s := by
  cases s with
  | nil => rfl
  | cons x rest =>
    have hx : x ≠ c := fun e => h (by rw [e]; rfl)
    simp [hx]

theorem trimBoth_eq_self {c : Char} {s : List Char} (hfirst : s.head? ≠ some c)
    (hlast : s.getLast? ≠ some c) : trimBoth c s = s := by
  unfold trimBoth
  rw [dropWhile_eq_self hfirst, dropWhile_eq_self (by rwa [List.head?_reverse]),
    List.reverse_reverse]

theorem mem_of_mem_trimBoth {c d : Char} {s : List Char} (h : d ∈ trimBoth c s) : d ∈ s := by
  unfold trimBoth at h
  have hinner := (List.dropWhile_sublist _).mem (List.mem_reverse.mp h)
  exact (List.dropWhile_sublist _).mem (List.mem_reverse.mp hinner)

theorem getLast?_trimBoth_ne (c : Char) (s : List Char) : (trimBoth c s).getLast? ≠ some c := by
  unfold trimBoth
  rw [List.getLast?_reverse]
  intro h
  have hnot := List.head?_dropWhile_not (fun x => decide (x = c)) (s.dropWhile (· = c)).reverse
  rw [h] at hnot
  simp at hnot

/-- Trimming stops at a text without the character at its ends. -/
theorem isPrefix_trimBoth_append {c : Char} {s : List Char} (hne : s ≠ [])
    (hfirst : s.head? ≠ some c) (hlast : s.getLast? ≠ some c) (t : List Char) :
    s <+: trimBoth c (s ++ t) := by
  have hhead : (s ++ t).head? ≠ some c := by
    rwa [List.head?_append, Option.or_of_isSome (by simpa using hne)]
  have hrev : s.reverse.dropWhile (· = c) = s.reverse :=
    dropWhile_eq_self (by rwa [List.head?_reverse])
  unfold trimBoth
  rw [dropWhile_eq_self hhead, List.reverse_append, List.dropWhile_append, hrev]
  split
  · simp
  · rw [List.reverse_append, List.reverse_reverse]
    exact List.prefix_append s _

end ProjectLayout.Text
