import Mathlib
import ProjectLayout.Text.Case

/-!
# Letters and digits of ASCII

The classes of the core library hold ASCII characters only.  A letter has its other case, and every
other character stays as it is.

* `isAscii_of_isAlphanum` — a text of letters and digits is ASCII.
* `toUpper_of_not_isAlpha`, `toLower_of_not_isAlpha` — no letter, no other case.
* `isUpper_or_isDigit_toUpper`, `isLower_or_isDigit_toLower` — a letter or digit in one case.
* `SameLetters` — texts that differ in the case of letters only.
-/

namespace ProjectLayout.Text

instance (s : List Char) : Decidable (IsAscii s) :=
  decidable_of_iff (s.all fun c => c.toNat < 0x80) (by simp [IsAscii])

variable {c : Char}

theorem toNat_lt_of_isAlphanum (h : c.isAlphanum = true) : c.toNat < 0x80 := by
  have hval : c.toNat = c.val.toNat := rfl
  simp only [Char.isAlphanum, Char.isAlpha, Char.isUpper, Char.isLower, Char.isDigit,
    Bool.or_eq_true, Bool.and_eq_true, decide_eq_true_eq, UInt32.le_iff_toNat_le, ge_iff_le,
    Char.reduceVal, UInt32.reduceToNat] at h
  omega

theorem isAscii_of_isAlphanum {s : List Char} (h : ∀ c ∈ s, c.isAlphanum = true) : IsAscii s :=
  fun c hc => toNat_lt_of_isAlphanum (h c hc)

theorem isAlphanum_of_isAlpha (h : c.isAlpha = true) : c.isAlphanum = true := by
  rw [Char.isAlphanum, h, Bool.true_or]

/-! ## The other case -/

theorem isUpper_toUpper (h : c.isAlpha = true) : c.toUpper.isUpper = true := by
  rw [Char.isUpper_toUpper_eq_isAlpha, h]

theorem isLower_toLower (h : c.isAlpha = true) : c.toLower.isLower = true := by
  rw [Char.isLower_toLower_eq_isAlpha, h]

theorem toUpper_of_not_isAlpha (h : c.isAlpha = false) : c.toUpper = c :=
  Char.toUpper_eq_of_not_isLower (by simp [(Bool.or_eq_false_iff.mp h).2])

theorem toLower_of_not_isAlpha (h : c.isAlpha = false) : c.toLower = c :=
  Char.toLower_eq_of_not_isUpper (by simp [(Bool.or_eq_false_iff.mp h).1])

theorem isUpper_or_isDigit_toUpper (h : c.isAlphanum = true) :
    (c.toUpper.isUpper || c.toUpper.isDigit) = true := by
  cases halpha : c.isAlpha with
  | true => rw [isUpper_toUpper halpha, Bool.true_or]
  | false =>
    rw [Char.isAlphanum, halpha, Bool.false_or] at h
    rw [toUpper_of_not_isAlpha halpha, h, Bool.or_true]

theorem isLower_or_isDigit_toLower (h : c.isAlphanum = true) :
    (c.toLower.isLower || c.toLower.isDigit) = true := by
  cases halpha : c.isAlpha with
  | true => rw [isLower_toLower halpha, Bool.true_or]
  | false =>
    rw [Char.isAlphanum, halpha, Bool.false_or] at h
    rw [toLower_of_not_isAlpha halpha, h, Bool.or_true]

theorem isAlphanum_toUpper (h : c.isAlphanum = true) : c.toUpper.isAlphanum = true := by
  cases halpha : c.isAlpha with
  | true => rw [Char.isAlphanum, Char.isAlpha_toUpper_eq_isAlpha, halpha, Bool.true_or]
  | false => rw [toUpper_of_not_isAlpha halpha, h]

theorem isAlphanum_toLower (h : c.isAlphanum = true) : c.toLower.isAlphanum = true := by
  cases halpha : c.isAlpha with
  | true => rw [Char.isAlphanum, Char.isAlpha_toLower_eq_isAlpha, halpha, Bool.true_or]
  | false => rw [toLower_of_not_isAlpha halpha, h]

theorem toUpper_of_isUpper (h : c.isUpper = true) : c.toUpper = c :=
  Char.toUpper_eq_of_not_isLower (Char.not_isLower_of_isUpper h)

theorem toLower_of_isLower (h : c.isLower = true) : c.toLower = c :=
  Char.toLower_eq_of_not_isUpper (Char.not_isUpper_of_isLower h)

theorem isAlpha_of_isDigit (h : c.isDigit = true) : c.isAlpha = false := by
  simp only [Char.isAlpha, Char.isUpper, Char.isLower, Char.isDigit, Bool.and_eq_true,
    decide_eq_true_eq, UInt32.le_iff_toNat_le, ge_iff_le, Bool.or_eq_false_iff,
    Bool.and_eq_false_iff, decide_eq_false_iff_not, Char.reduceVal, UInt32.reduceToNat] at h ⊢
  omega

theorem toUpper_of_isUpper_or_isDigit (h : (c.isUpper || c.isDigit) = true) : c.toUpper = c := by
  rcases Bool.or_eq_true_iff.mp h with hupper | hdigit
  · exact toUpper_of_isUpper hupper
  · exact toUpper_of_not_isAlpha (isAlpha_of_isDigit hdigit)

theorem toLower_of_isLower_or_isDigit (h : (c.isLower || c.isDigit) = true) : c.toLower = c := by
  rcases Bool.or_eq_true_iff.mp h with hlower | hdigit
  · exact toLower_of_isLower hlower
  · exact toLower_of_not_isAlpha (isAlpha_of_isDigit hdigit)

/-- Only a character without a case is in lower case what such a character is. -/
theorem toLower_eq_iff {d : Char} (hd : d.isAlpha = false) : c.toLower = d ↔ c = d := by
  constructor
  · rintro rfl
    rw [Char.isAlpha_toLower_eq_isAlpha] at hd
    exact (toLower_of_not_isAlpha hd).symm
  · rintro rfl
    exact toLower_of_not_isAlpha hd

theorem toNat_toLower_lt_iff : c.toLower.toNat < 0x80 ↔ c.toNat < 0x80 := by
  cases halpha : c.isAlpha with
  | true =>
    have hlower : c.toLower.isAlphanum = true := isAlphanum_toLower (isAlphanum_of_isAlpha halpha)
    exact iff_of_true (toNat_lt_of_isAlphanum hlower)
      (toNat_lt_of_isAlphanum (isAlphanum_of_isAlpha halpha))
  | false => rw [toLower_of_not_isAlpha halpha]

/-! ## Texts in another case -/

/-- Whether two texts differ in nothing but the case of letters. -/
def SameLetters (s t : List Char) : Prop := s.map Char.toLower = t.map Char.toLower

variable {s t : List Char}

theorem isAscii_map_toLower_iff : IsAscii (s.map Char.toLower) ↔ IsAscii s := by
  simp only [IsAscii, List.forall_mem_map, toNat_toLower_lt_iff]

theorem SameLetters.isAscii (h : SameLetters s t) (hs : IsAscii s) : IsAscii t := by
  rwa [← isAscii_map_toLower_iff, ← h, isAscii_map_toLower_iff]

theorem SameLetters.ne_nil (h : SameLetters s t) (hs : s ≠ []) : t ≠ [] := by
  rintro rfl
  exact hs (List.map_eq_nil_iff.mp h)

theorem SameLetters.trans {u : List Char} (h : SameLetters s t) (h' : SameLetters t u) :
    SameLetters s u := Eq.trans h h'

theorem sameLetters_flatMap {pieces : List (List Char)} {f : List Char → List Char}
    (h : ∀ piece ∈ pieces, SameLetters piece (f piece)) :
    SameLetters pieces.flatten (pieces.flatMap f) := by
  rw [SameLetters, List.map_flatten, List.map_flatMap, List.flatMap_def]
  exact congrArg List.flatten (List.map_congr_left h)

end ProjectLayout.Text
