import Mathlib.Data.List.Nodup
import ProjectLayout.Json.Parser
import ProjectLayout.Json.Printer

/-!
# Reading back strings and whole numbers

* `readString_flatMap_escapeChar` — a string is read back from its escaped form, whatever follows
  the closing quote.
* `readDigits_append` — digits are read as far as they go.
* `readNumber_toDigits` — a whole number is read back if no digit, point or exponent follows.
-/

namespace ProjectLayout.Json

/-! ## Strings -/

/-- What is read once a character is there. -/
def withChar (c : Char) (read : Except Failure (List Char × List Char)) :
    Except Failure (List Char × List Char) :=
  read.map fun p => (c :: p.1, p.2)

theorem readString_quote (rest : List Char) : readString ('"' :: rest) = .ok ([], rest) := by
  rw [readString]
  rfl

theorem readString_plain {c : Char} (hquote : c ≠ '"') (hslash : c ≠ '\\') (hc : 0x20 ≤ c.toNat)
    (rest : List Char) : readString (c :: rest) = withChar c (readString rest) := by
  rw [readString, if_neg hquote, if_neg hslash, if_neg (Nat.not_lt.mpr hc)]
  cases readString rest with
  | error e => rfl
  | ok p => rfl

theorem readString_escaped {c : Char} {rest after : List Char} {h : after.length < rest.length}
    (hescape : readEscape rest = .ok (c, ⟨after, h⟩)) :
    readString ('\\' :: rest) = withChar c (readString after) := by
  rw [readString, if_neg (by decide), if_pos rfl, hescape]
  dsimp only
  cases readString after with
  | error e => rfl
  | ok p => rfl

theorem hexNumber?_of_lt :
    ∀ n < 0x20, hexNumber? '0' '0' (hexDigit (n / 16)) (hexDigit (n % 16)) = some n := by
  decide

theorem readEscape_control {c : Char} (hc : c.toNat < 0x20) (rest : List Char) :
    ∃ h, readEscape
      ('u' :: '0' :: '0' :: hexDigit (c.toNat / 16) :: hexDigit (c.toNat % 16) :: rest) =
        .ok (c, ⟨rest, h⟩) := by
  have htrailing : isTrailingSurrogate c.toNat = false := by
    simp [isTrailingSurrogate]
    omega
  have hleading : isLeadingSurrogate c.toNat = false := by
    simp [isLeadingSurrogate]
    omega
  refine ⟨by simp; omega, ?_⟩
  simp only [readEscape, readHex, hexNumber?_of_lt c.toNat hc, htrailing, hleading,
    Char.ofNat_toNat, Bool.false_eq_true, if_false]

theorem readString_escapeChar (c : Char) (rest : List Char) :
    readString (escapeChar c ++ rest) = withChar c (readString rest) := by
  unfold escapeChar
  -- A letter stands for each of the first seven.
  iterate 7
    split
    · subst_vars
      exact readString_escaped rfl
  split
  · next hc =>
    obtain ⟨_, h⟩ := readEscape_control hc rest
    exact readString_escaped h
  · next hquote hslash _ _ _ _ _ hc =>
    exact readString_plain hquote hslash (Nat.not_lt.mp hc) rest

theorem readString_flatMap_escapeChar (s rest : List Char) :
    readString (s.flatMap escapeChar ++ '"' :: rest) = .ok (s, rest) := by
  induction s with
  | nil => exact readString_quote rest
  | cons c s ih =>
    rw [List.flatMap_cons, List.append_assoc, readString_escapeChar, ih]
    rfl

/-- A string with its quotes, up to the opening one. -/
theorem stringText_append (s : String) (rest : List Char) :
    stringText s ++ rest = '"' :: (s.toList.flatMap escapeChar ++ '"' :: rest) := by
  simp [stringText]

/-! ## Digits -/

/-- Whether a digit does not come first. -/
def NoDigitFirst (rest : List Char) : Prop := rest.head?.any Char.isDigit = false

theorem readDigits_of_noDigitFirst {rest : List Char} (h : NoDigitFirst rest)
    (limit value count : Nat) : readDigits limit value count rest = (value, count, rest) := by
  cases rest with
  | nil => rfl
  | cons c more =>
    have hc : c.isDigit = false := h
    rw [readDigits, hc]
    rfl

theorem le_ofDigitChars (digits : List Char) (value : Nat) :
    value ≤ Nat.ofDigitChars 10 digits value := by
  rw [Nat.ofDigitChars_eq_ofDigitChars_zero]
  have hpos : 1 ≤ 10 ^ digits.length := Nat.one_le_pow _ _ (by decide)
  have := Nat.mul_le_mul_right value hpos
  omega

/-- Digits are read up to the first other character, as long as the number stays in its limit. -/
theorem readDigits_append {digits rest : List Char} (hdigits : ∀ c ∈ digits, c.isDigit = true)
    (hrest : NoDigitFirst rest) {limit value : Nat}
    (hlimit : Nat.ofDigitChars 10 digits value ≤ limit) (count : Nat) :
    readDigits limit value count (digits ++ rest) =
      (Nat.ofDigitChars 10 digits value, count + digits.length, rest) := by
  induction digits generalizing value count with
  | nil => exact readDigits_of_noDigitFirst hrest limit value count
  | cons c digits ih =>
    rw [Nat.ofDigitChars_cons] at hlimit ⊢
    have hstep : 10 * value + (c.toNat - '0'.toNat) = value * 10 + (c.toNat - '0'.toNat) := by
      rw [Nat.mul_comm]
    rw [hstep] at hlimit ⊢
    have hnext : ¬ limit < value * 10 + (c.toNat - '0'.toNat) :=
      Nat.not_lt.mpr (Nat.le_trans (le_ofDigitChars digits _) hlimit)
    rw [List.cons_append, readDigits, if_pos (hdigits c List.mem_cons_self), if_neg hnext,
      ih (fun d hd => hdigits d (List.mem_cons_of_mem c hd)) hlimit]
    simp only [List.length_cons, Nat.add_assoc, Nat.add_comm 1]

/-! ## Whole numbers -/

/-- Whether nothing comes first that would continue a number. -/
structure EndsNumber (rest : List Char) : Prop where
  digit : NoDigitFirst rest
  point : rest.head? ≠ some '.'
  lower : rest.head? ≠ some 'e'
  upper : rest.head? ≠ some 'E'

theorem head?_toDigits {n : Nat} (h : 0 < n) : (Nat.toDigits 10 n).head? ≠ some '0' := by
  induction n using Nat.strongRecOn with
  | ind n ih =>
    by_cases hn : n < 10
    · rw [Nat.toDigits_of_lt_base hn]
      simpa using Nat.pos_iff_ne_zero.mp h
    · have hge : 10 ≤ n := Nat.not_lt.mp hn
      rw [Nat.toDigits_of_base_le (by decide) hge,
        List.head?_append_of_ne_nil _ Nat.toDigits_ne_nil]
      exact ih (n / 10) (by omega) (by omega)

/-- A number in digits begins with a digit. -/
theorem exists_toDigits_eq_cons (n : Nat) :
    ∃ c digits, Nat.toDigits 10 n = c :: digits ∧ c.isDigit = true := by
  obtain ⟨c, digits, htext⟩ := List.exists_cons_of_ne_nil (Nat.toDigits_ne_nil (n := n) (b := 10))
  have hc : c ∈ Nat.toDigits 10 n := htext ▸ List.mem_cons_self
  exact ⟨c, digits, htext, Nat.isDigit_of_mem_toDigits (by decide) (by decide) hc⟩

/-- What reading a whole number gives. -/
def wholeNumber (negative : Bool) (whole : Nat) : Value :=
  .integer (if negative then -whole else whole)

theorem readNumberEnd_of_endsNumber {rest : List Char} (hrest : EndsNumber rest) {negative : Bool}
    {whole : Nat} (hwhole : negative = true → whole ≠ 0 ∧ whole ≤ twoPow 63) :
    readNumberEnd negative whole rest = .ok (wholeNumber negative whole, rest) := by
  unfold readNumberEnd
  split
  · exact absurd rfl hrest.point
  · exact absurd rfl hrest.lower
  · exact absurd rfl hrest.upper
  · cases negative with
    | false => rfl
    | true =>
      obtain ⟨hzero, hle⟩ := hwhole rfl
      have hrange : ¬ (whole = 0 ∨ twoPow 63 < whole) := by omega
      rw [if_neg (by simp), if_neg hrange]
      rfl

theorem readNumber_toDigits {rest : List Char} (hrest : EndsNumber rest) {negative : Bool}
    {whole : Nat} (hlimit : whole ≤ maxSignificand)
    (hwhole : negative = true → whole ≠ 0 ∧ whole ≤ twoPow 63) :
    readNumber negative (Nat.toDigits 10 whole ++ rest) =
      .ok (wholeNumber negative whole, rest) := by
  have hread := readNumberEnd_of_endsNumber hrest hwhole
  by_cases hzero : whole = 0
  · subst hzero
    have hdigit : rest.head?.any Char.isDigit = false := hrest.digit
    simpa [readNumber, hdigit] using hread
  have hdigits : ∀ c ∈ Nat.toDigits 10 whole, c.isDigit = true :=
    fun c hc => Nat.isDigit_of_mem_toDigits (by decide) (by decide) hc
  have hvalue : Nat.ofDigitChars 10 (Nat.toDigits 10 whole) 0 = whole :=
    Nat.ofDigitChars_toDigits (by decide) (by decide)
  have hnumber := readDigits_append hdigits hrest.digit (hvalue.symm ▸ hlimit) 0
  have hfirst := head?_toDigits (Nat.pos_of_ne_zero hzero)
  obtain ⟨c, digits, htext, hdigit⟩ := exists_toDigits_eq_cons whole
  rw [htext] at hfirst
  have hc : c ≠ '0' := by simpa using hfirst
  have hstop : rest.head?.any Char.isDigit = false := hrest.digit
  rw [hvalue, htext, List.cons_append] at hnumber
  rw [htext, List.cons_append, readNumber, if_neg hc, if_pos hdigit, hnumber]
  dsimp only
  rw [hstop, if_neg (by decide), hread]

end ProjectLayout.Json
