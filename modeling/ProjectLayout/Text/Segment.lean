/-!
# Characters around a separator

* `splitOn` and `joinWith` — the pieces of a text between separators, and back.
* `cutAtLast` — a text before and after the last occurrence of a character.
* `dropSuffix?` — a text without a given ending.

`joinWith_splitOn`, `cutAtLast_eq_some` and `dropSuffix?_append` say that nothing is lost.
-/

namespace ProjectLayout.Text

/-! ## Pieces -/

/-- The pieces of a text between the occurrences of `sep`; there is always at least one. -/
def splitOn (sep : Char) : List Char → List (List Char)
  | [] => [[]]
  | c :: rest =>
    if c = sep then [] :: splitOn sep rest
    else
      match splitOn sep rest with
      | [] => [[c]]
      | piece :: pieces => (c :: piece) :: pieces

/-- The pieces in order with `sep` between neighbours. -/
def joinWith (sep : Char) : List (List Char) → List Char
  | [] => []
  | [piece] => piece
  | piece :: next :: more => piece ++ sep :: joinWith sep (next :: more)

theorem splitOn_ne_nil (sep : Char) (s : List Char) : splitOn sep s ≠ [] := by
  cases s with
  | nil => simp [splitOn]
  | cons c rest =>
    unfold splitOn
    split
    · simp
    · split <;> simp

theorem joinWith_cons (sep : Char) (piece : List Char) {pieces : List (List Char)}
    (h : pieces ≠ []) : joinWith sep (piece :: pieces) = piece ++ sep :: joinWith sep pieces := by
  cases pieces with
  | nil => exact absurd rfl h
  | cons next more => rfl

theorem joinWith_splitOn (sep : Char) (s : List Char) : joinWith sep (splitOn sep s) = s := by
  induction s with
  | nil => rfl
  | cons c rest ih =>
    unfold splitOn
    split
    · next h => rw [joinWith_cons sep [] (splitOn_ne_nil sep rest), ih, h]; rfl
    · split
      · next h => exact absurd h (splitOn_ne_nil sep rest)
      · next piece pieces h =>
        rw [h] at ih
        rw [← ih]
        cases pieces <;> rfl

/-! ## The last occurrence -/

/-- The text before and after the last occurrence of `c`. -/
def cutAtLast (c : Char) : List Char → Option (List Char × List Char)
  | [] => none
  | x :: rest =>
    match cutAtLast c rest with
    | some (front, back) => some (x :: front, back)
    | none => if x = c then some ([], rest) else none

theorem cutAtLast_eq_none {c : Char} {s : List Char} : cutAtLast c s = none ↔ c ∉ s := by
  induction s with
  | nil => simp [cutAtLast]
  | cons x rest ih =>
    unfold cutAtLast
    split
    · next h => simp [h] at ih; simp [ih]
    · next h =>
      by_cases hx : x = c
      · simp [hx]
      · simp [hx, ih.mp h, Ne.symm hx]

theorem cutAtLast_eq_some {c : Char} {s front back : List Char}
    (h : cutAtLast c s = some (front, back)) : s = front ++ c :: back ∧ c ∉ back := by
  induction s generalizing front with
  | nil => simp [cutAtLast] at h
  | cons x rest ih =>
    unfold cutAtLast at h
    split at h
    · next hr =>
      simp only [Option.some.injEq, Prod.mk.injEq] at h
      obtain ⟨rfl, rfl⟩ := h
      exact ⟨by rw [(ih hr).1]; rfl, (ih hr).2⟩
    · next hr =>
      split at h
      · next hx =>
        simp only [Option.some.injEq, Prod.mk.injEq] at h
        obtain ⟨rfl, rfl⟩ := h
        exact ⟨by rw [hx]; rfl, cutAtLast_eq_none.mp hr⟩
      · simp at h

/-! ## Endings -/

/-- The text without the ending `suffix`, if it has that ending. -/
def dropSuffix? (suffix s : List Char) : Option (List Char) :=
  if suffix.isSuffixOf s then some (s.take (s.length - suffix.length)) else none

theorem dropSuffix?_append (s suffix : List Char) : dropSuffix? suffix (s ++ suffix) = some s := by
  simp [dropSuffix?, List.isSuffixOf_iff_suffix]

theorem eq_append_of_dropSuffix? {suffix s front : List Char}
    (h : dropSuffix? suffix s = some front) : s = front ++ suffix := by
  unfold dropSuffix? at h
  split at h
  · next hs =>
    obtain ⟨t, rfl⟩ := List.isSuffixOf_iff_suffix.mp hs
    simp only [Option.some.injEq] at h
    simp [← h]
  · simp at h

/-- The text without the characters `c` at either end. -/
def trimBoth (c : Char) (s : List Char) : List Char :=
  ((s.dropWhile (· = c)).reverse.dropWhile (· = c)).reverse

end ProjectLayout.Text
