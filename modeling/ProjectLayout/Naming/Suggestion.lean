import ProjectLayout.Naming.Convention
import ProjectLayout.Text.Case

/-!
# Suggested names

A name is respelled by cutting its stem into words and writing the words as a convention has
them; the extension stays.

* `words` — the words of a stem (`split_words`).
* `Convention.respell` — a stem under a convention (`join_words`).
* `Convention.suggestion` — a whole name (`expected_name`).

A suggestion need not follow the convention: `2fa.ts` begins with a digit under all of them.
-/

namespace ProjectLayout.Naming

open Text

/-! ## Words -/

/-- Whether a character stands between words. -/
def isSeparator (c : Char) : Bool := c == '-' || c == '_' || isBlank c

/-- Whether a word ends between two neighbours. -/
def endsBetween (c d : Char) : Bool := isSeparator d || (c.isLower && d.isUpper)

/-- The words of a stem: runs between separators, cut again where a capital follows a small
letter. -/
def words : List Char → List (List Char)
  | [] => []
  | c :: rest =>
    if isSeparator c then words rest
    else
      match words rest with
      | [] => [[c]]
      | word :: more =>
        if rest.head?.any (endsBetween c) then [c] :: word :: more else (c :: word) :: more

theorem ne_nil_of_mem_words {s word : List Char} (h : word ∈ words s) : word ≠ [] := by
  induction s with
  | nil => simp [words] at h
  | cons c rest ih =>
    unfold words at h
    split at h
    · exact ih h
    · split at h
      · simp_all
      · split at h <;> simp_all <;> grind

/-- Words make up the stem without its separators. -/
theorem flatten_words (s : List Char) : (words s).flatten = s.filter (!isSeparator ·) := by
  induction s with
  | nil => rfl
  | cons c rest ih =>
    unfold words
    split
    · next h => simp [h, ih]
    · next h =>
      split
      · next hw => rw [hw] at ih; simp [h, ← ih]
      · next hw => rw [hw] at ih; split <;> simp [h, ← ih]

/-! ## Spelling -/

/-- A word with its first character in upper case. -/
def capitalize : List Char → List Char
  | [] => []
  | c :: rest => upperChar c ++ rest

/-- A word with its first character in lower case. -/
def decapitalize : List Char → List Char
  | [] => []
  | c :: rest => lowerChar c ++ rest

namespace Convention

/-- A stem as the convention writes it. -/
def respell (c : Convention) (stem : List Char) : List Char :=
  match c with
  | pascal => (words stem).flatMap capitalize
  | camel => decapitalize ((words stem).flatMap capitalize)
  | kebab => joinWith '-' ((words stem).map lowercase)
  | snake => joinWith '_' ((words stem).map lowercase)
  | upper => joinWith '_' ((words stem).map uppercase)
  | unknown _ => stem

/-- The name with its stem as the convention writes it. -/
def suggestion (c : Convention) (name : String) : String :=
  let (stem, extension) := splitExtension name.toList
  String.ofList (c.respell stem ++ extension)

theorem suggestion_unknown (s name : String) : (unknown s).suggestion name = name := by
  simp [suggestion, respell, splitExtension_append]

end Convention

end ProjectLayout.Naming
