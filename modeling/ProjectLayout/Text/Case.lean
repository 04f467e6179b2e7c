import ProjectLayout.Text.CharClass
import ProjectLayout.Text.CaseTable

/-!
# Lower and upper case

Full case mapping: a character may become several (`ß` in upper case is `SS`), and a capital
sigma in lower case is `ς` at the end of a word and `σ` elsewhere.

* `lowerChar`, `upperChar` — one character on its own.
* `lowercase`, `uppercase` — a text (`to_lowercase`, `to_uppercase`).
* `lowercase_of_ascii`, `uppercase_of_ascii` — on ASCII these are the maps of the core library.
-/

namespace ProjectLayout.Text

/-! ## One character -/

/-- The character's image under the listed expansions, else under the runs, else itself. -/
def mapCase (expansions : List (Nat × List Nat)) (runs : List CaseRun) (c : Char) : List Char :=
  match expansions.lookup c.toNat with
  | some codes => codes.map Char.ofNat
  | none =>
    match runs.find? (·.contains c.toNat) with
    | some run => [Char.ofNat ((c.toNat : Int) + run.shift).toNat]
    | none => [c]

/-- The lower case of a character on its own. -/
def lowerChar (c : Char) : List Char :=
  if c.toNat < 0x80 then [c.toLower] else mapCase lowerExpansions lowerRuns c

/-- The upper case of a character on its own. -/
def upperChar (c : Char) : List Char :=
  if c.toNat < 0x80 then [c.toUpper] else mapCase upperExpansions upperRuns c

/-! ## Texts -/

/-- Whether a cased character comes first once case-ignorable ones are skipped. -/
def startsCased (s : List Char) : Bool :=
  match s.dropWhile isCaseIgnorable with
  | c :: _ => isCased c
  | [] => false

/-- Lower case of a text whose preceding characters, nearest first, are `before`. -/
def lowercaseAfter : List Char → List Char → List Char
  | _, [] => []
  | before, c :: rest =>
    let image :=
      if c = 'Σ' then
        if startsCased before && !startsCased rest then ['ς'] else ['σ']
      else lowerChar c
    image ++ lowercaseAfter (c :: before) rest

/-- The lower case of a text. -/
def lowercase (s : List Char) : List Char := lowercaseAfter [] s

/-- The upper case of a text. -/
def uppercase (s : List Char) : List Char := s.flatMap upperChar

/-! ## ASCII -/

/-- A text of ASCII characters only. -/
def IsAscii (s : List Char) : Prop := ∀ c ∈ s, c.toNat < 0x80

theorem lowercaseAfter_of_ascii {s : List Char} (before : List Char) (h : IsAscii s) :
    lowercaseAfter before s = s.map Char.toLower := by
  induction s generalizing before with
  | nil => rfl
  | cons c rest ih =>
    have hc : c.toNat < 0x80 := h c (by simp)
    have hs : c ≠ 'Σ' := by rintro rfl; exact absurd hc (by decide)
    rw [lowercaseAfter, ih (c :: before) fun d hd => h d (by simp [hd])]
    simp [hs, lowerChar, hc]

theorem lowercase_of_ascii {s : List Char} (h : IsAscii s) : lowercase s = s.map Char.toLower :=
  lowercaseAfter_of_ascii [] h

theorem uppercase_of_ascii {s : List Char} (h : IsAscii s) : uppercase s = s.map Char.toUpper := by
  induction s with
  | nil => rfl
  | cons c rest ih =>
    have hc : c.toNat < 0x80 := h c (by simp)
    have hrest := ih fun d hd => h d (by simp [hd])
    simp only [uppercase] at hrest
    simp [uppercase, upperChar, hc, hrest]

end ProjectLayout.Text
