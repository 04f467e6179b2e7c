import Mathlib
import ProjectLayout.Proofs.Naming.Stem

/-!
# Conventions as regular languages

* `Convention.language` — the names of a convention, written as a regular expression.
* `Shape.mem_language_iff` — cutting a name at the separators accepts that language.
* `Shape.left?_eq_iff` — so does reading it from the front, each run as far as it goes.
* `accepts_iff_mem_language` — which names follow a convention.
-/

namespace ProjectLayout.Naming

open Text
open scoped Computability

/-! ## Languages -/

/-- The texts of one character with a property. -/
def oneOf (p : Char → Bool) : Language Char := {s | ∃ c, p c = true ∧ s = [c]}

/-- The texts of one character between two others. -/
def between (first last : Char) : Language Char := {s | ∃ c, (first ≤ c ∧ c ≤ last) ∧ s = [c]}

/-- The names of a convention; an unknown one has all names. -/
def Convention.language : Convention → Language Char
  | pascal => between 'A' 'Z' * (between 'A' 'Z' + between 'a' 'z' + between '0' '9')∗
  | camel => between 'a' 'z' * (between 'A' 'Z' + between 'a' 'z' + between '0' '9')∗
  | kebab =>
    between 'a' 'z' * (between 'a' 'z' + between '0' '9')∗ *
      ({['-']} * ((between 'a' 'z' + between '0' '9') * (between 'a' 'z' + between '0' '9')∗))∗
  | snake =>
    between 'a' 'z' * (between 'a' 'z' + between '0' '9')∗ *
      ({['_']} * ((between 'a' 'z' + between '0' '9') * (between 'a' 'z' + between '0' '9')∗))∗
  | upper =>
    between 'A' 'Z' * (between 'A' 'Z' + between '0' '9')∗ *
      ({['_']} * ((between 'A' 'Z' + between '0' '9') * (between 'A' 'Z' + between '0' '9')∗))∗
  | unknown _ => ⊤

theorem mem_oneOf {p : Char → Bool} {s : List Char} : s ∈ oneOf p ↔ ∃ c, p c = true ∧ s = [c] :=
  Iff.rfl

theorem mem_between {first last : Char} {s : List Char} :
    s ∈ between first last ↔ ∃ c, (first ≤ c ∧ c ≤ last) ∧ s = [c] := Iff.rfl

/-- Any number of characters with a property. -/
theorem mem_kstar_oneOf {p : Char → Bool} {s : List Char} :
    s ∈ (oneOf p)∗ ↔ ∀ c ∈ s, p c = true := by
  rw [Language.mem_kstar]
  constructor
  · rintro ⟨parts, rfl, hparts⟩ c hc
    obtain ⟨part, hpart, hc⟩ := List.mem_flatten.mp hc
    obtain ⟨d, hd, rfl⟩ := mem_oneOf.mp (hparts part hpart)
    rw [List.mem_singleton.mp hc]
    exact hd
  · intro h
    refine ⟨s.map fun c => [c], ?_, ?_⟩
    · induction s with
      | nil => rfl
      | cons c rest ih =>
        have hrest := ih fun d hd => h d (List.mem_cons_of_mem _ hd)
        rw [List.map_cons, List.flatten_cons, ← hrest]
        rfl
    · intro part hpart
      obtain ⟨c, hc, rfl⟩ := List.mem_map.mp hpart
      exact ⟨c, h c hc, rfl⟩

/-- A character with the first property, then any number with the second. -/
theorem mem_oneOf_mul_kstar {p q : Char → Bool} {s : List Char} :
    s ∈ oneOf p * (oneOf q)∗ ↔ ∃ c rest, s = c :: rest ∧ p c = true ∧ ∀ d ∈ rest, q d = true := by
  rw [Language.mem_mul]
  constructor
  · rintro ⟨front, hfront, rest, hrest, rfl⟩
    obtain ⟨c, hc, rfl⟩ := mem_oneOf.mp hfront
    exact ⟨c, rest, rfl, hc, mem_kstar_oneOf.mp hrest⟩
  · rintro ⟨c, rest, rfl, hc, hrest⟩
    exact ⟨[c], ⟨c, hc, rfl⟩, rest, mem_kstar_oneOf.mpr hrest, rfl⟩

namespace Shape

/-! ## The language of a shape -/

/-- A separator with a run behind it. -/
def pieceLanguage (shape : Shape) (sep : Char) : Language Char :=
  {[sep]} * (oneOf shape.rest * (oneOf shape.rest)∗)

/-- A run that begins with a `first` character, then any number of further pieces. -/
def language (shape : Shape) : Language Char :=
  match shape.separator? with
  | some sep => oneOf shape.first * (oneOf shape.rest)∗ * (shape.pieceLanguage sep)∗
  | none => oneOf shape.first * (oneOf shape.rest)∗

/-- Whether the separator of a shape is in none of its runs, and `first` characters can be. -/
structure Sound (shape : Shape) : Prop where
  rest_of_first : ∀ c, shape.first c = true → shape.rest c = true
  separator : ∀ sep ∈ shape.separator?, shape.rest sep = false

variable {shape : Shape} {sep : Char}

theorem mem_pieceLanguage {s : List Char} :
    s ∈ shape.pieceLanguage sep ↔
      ∃ c rest, s = sep :: c :: rest ∧ shape.rest c = true ∧ ∀ d ∈ rest, shape.rest d = true := by
  rw [pieceLanguage, Language.mem_mul]
  constructor
  · rintro ⟨front, hfront, run, hrun, rfl⟩
    obtain ⟨c, rest, rfl, hc, hrest⟩ := mem_oneOf_mul_kstar.mp hrun
    have hsep : front = [sep] := hfront
    exact ⟨c, rest, by rw [hsep]; rfl, hc, hrest⟩
  · rintro ⟨c, rest, rfl, hc, hrest⟩
    exact ⟨[sep], rfl, c :: rest, mem_oneOf_mul_kstar.mpr ⟨c, rest, rfl, hc, hrest⟩, rfl⟩

/-! ## Cutting at the separators -/

theorem pieces_of_none (h : shape.separator? = none) (s : List Char) : shape.pieces s = [s] := by
  rw [pieces, h]

theorem pieces_of_some (h : shape.separator? = some sep) (s : List Char) :
    shape.pieces s = splitOn sep s := by
  rw [pieces, h]

/-- Whether a piece between separators is a run of at least one character. -/
def IsRun (shape : Shape) (piece : List Char) : Prop :=
  piece ≠ [] ∧ ∀ c ∈ piece, shape.rest c = true

theorem accepts_iff {s : List Char} :
    shape.accepts s = true ↔
      (∃ c ∈ s.head?, shape.first c = true) ∧ ∀ piece ∈ shape.pieces s, shape.IsRun piece := by
  simp [accepts, IsRun, Option.any_eq_true]

/-- An accepted name has nothing but separators and characters of runs. -/
theorem separator_or_rest_of_mem {s : List Char} (h : shape.accepts s = true) {c : Char}
    (hc : c ∈ s) : shape.separator? = some c ∨ shape.rest c = true := by
  have hruns := (accepts_iff.mp h).2
  cases hsep : shape.separator? with
  | none =>
    rw [pieces_of_none hsep] at hruns
    exact .inr ((hruns s (List.mem_singleton_self s)).2 c hc)
  | some sep =>
    rw [pieces_of_some hsep] at hruns
    rw [← joinWith_splitOn sep s] at hc
    rcases mem_joinWith hc with rfl | ⟨piece, hpiece, hc⟩
    · exact .inl rfl
    · exact .inr ((hruns piece hpiece).2 c hc)

/-- One run is accepted where there is no separator if the first character is right. -/
theorem accepts_of_run (hsep : shape.separator? = none) {c : Char} {rest : List Char}
    (hc : shape.first c = true) (hrun : ∀ d ∈ c :: rest, shape.rest d = true) :
    shape.accepts (c :: rest) = true := by
  rw [accepts_iff, pieces_of_none hsep]
  refine ⟨⟨c, rfl, hc⟩, fun piece hpiece => ?_⟩
  rw [List.mem_singleton.mp hpiece]
  exact ⟨by simp, hrun⟩

/-- Runs with the separator between them are accepted if the first character is right. -/
theorem accepts_joinWith (hsep : shape.separator? = some sep) (hnot : shape.rest sep = false)
    {c : Char} {more : List Char} {others : List (List Char)} (hc : shape.first c = true)
    (hruns : ∀ piece ∈ (c :: more) :: others, shape.IsRun piece) :
    shape.accepts (joinWith sep ((c :: more) :: others)) = true := by
  have hfree : ∀ piece ∈ (c :: more) :: others, sep ∉ piece := by
    intro piece hpiece hmem
    have hrest := (hruns piece hpiece).2 sep hmem
    exact absurd (hrest.symm.trans hnot) (by simp)
  rw [accepts_iff, pieces_of_some hsep, splitOn_joinWith (by simp) hfree]
  refine ⟨⟨c, ?_, hc⟩, hruns⟩
  cases others <;> rfl

/-- Further pieces with their separators in front, as one text. -/
theorem mem_kstar_pieceLanguage {s : List Char} :
    s ∈ (shape.pieceLanguage sep)∗ ↔
      ∃ pieces : List (List Char), s = (pieces.map (sep :: ·)).flatten ∧
        ∀ piece ∈ pieces, shape.IsRun piece := by
  rw [Language.mem_kstar]
  constructor
  · rintro ⟨parts, rfl, hparts⟩
    refine ⟨parts.map List.tail, ?_, ?_⟩
    · rw [List.map_map]
      congr 1
      refine (List.map_id parts).symm.trans (List.map_congr_left fun part hpart => ?_)
      obtain ⟨c, rest, rfl, -⟩ := mem_pieceLanguage.mp (hparts part hpart)
      rfl
    · intro piece hpiece
      obtain ⟨part, hpart, rfl⟩ := List.mem_map.mp hpiece
      obtain ⟨c, rest, rfl, hc, hrest⟩ := mem_pieceLanguage.mp (hparts part hpart)
      exact ⟨by simp, List.forall_mem_cons.mpr ⟨hc, hrest⟩⟩
  · rintro ⟨pieces, rfl, hpieces⟩
    refine ⟨pieces.map (sep :: ·), rfl, ?_⟩
    intro part hpart
    obtain ⟨piece, hpiece, rfl⟩ := List.mem_map.mp hpart
    obtain ⟨hne, hrun⟩ := hpieces piece hpiece
    obtain ⟨c, rest, rfl⟩ := List.exists_cons_of_ne_nil hne
    exact mem_pieceLanguage.mpr ⟨c, rest, rfl, (List.forall_mem_cons.mp hrun).1,
      (List.forall_mem_cons.mp hrun).2⟩

theorem joinWith_eq_append_flatten (sep : Char) (piece : List Char) (pieces : List (List Char)) :
    joinWith sep (piece :: pieces) = piece ++ (pieces.map (sep :: ·)).flatten := by
  induction pieces generalizing piece with
  | nil => simp [joinWith]
  | cons next more ih =>
    rw [joinWith_cons sep piece (by simp), ih next]
    simp

/-- The pieces of a name are runs exactly if the name is a word of the language. -/
theorem mem_language_iff (h : shape.Sound) {s : List Char} :
    s ∈ shape.language ↔ shape.accepts s = true := by
  rw [language]
  cases hsep : shape.separator? with
  | none =>
    simp only [mem_oneOf_mul_kstar]
    constructor
    · rintro ⟨c, rest, rfl, hc, hrest⟩
      exact accepts_of_run hsep hc (List.forall_mem_cons.mpr ⟨h.rest_of_first c hc, hrest⟩)
    · intro hs
      obtain ⟨⟨c, hhead, hc⟩, hruns⟩ := accepts_iff.mp hs
      rw [pieces_of_none hsep] at hruns
      obtain ⟨rest, rfl⟩ := List.head?_eq_some_iff.mp hhead
      have hrun := (hruns _ (List.mem_singleton_self _)).2
      exact ⟨c, rest, rfl, hc, (List.forall_mem_cons.mp hrun).2⟩
  | some sep =>
    simp only
    rw [Language.mem_mul]
    constructor
    · rintro ⟨front, hfront, back, hback, rfl⟩
      obtain ⟨c, rest, rfl, hc, hrest⟩ := mem_oneOf_mul_kstar.mp hfront
      obtain ⟨pieces, rfl, hpieces⟩ := mem_kstar_pieceLanguage.mp hback
      have hfirst : shape.IsRun (c :: rest) :=
        ⟨by simp, List.forall_mem_cons.mpr ⟨h.rest_of_first c hc, hrest⟩⟩
      rw [← joinWith_eq_append_flatten]
      exact accepts_joinWith hsep (h.separator sep hsep) hc
        (List.forall_mem_cons.mpr ⟨hfirst, hpieces⟩)
    · intro hs
      obtain ⟨⟨c, hhead, hc⟩, hruns⟩ := accepts_iff.mp hs
      rw [pieces_of_some hsep] at hruns
      obtain ⟨piece, pieces, hsplit⟩ := List.exists_cons_of_ne_nil (splitOn_ne_nil sep s)
      rw [hsplit] at hruns
      obtain ⟨hfirst, hpieces⟩ := List.forall_mem_cons.mp hruns
      have hs : s = piece ++ (pieces.map (sep :: ·)).flatten := by
        rw [← joinWith_eq_append_flatten, ← hsplit, joinWith_splitOn]
      obtain ⟨d, rest, rfl⟩ := List.exists_cons_of_ne_nil hfirst.1
      rw [hs] at hhead
      have hd : d = c := Option.some.inj hhead
      have hfront : d :: rest ∈ oneOf shape.first * (oneOf shape.rest)∗ :=
        mem_oneOf_mul_kstar.mpr ⟨d, rest, rfl, hd ▸ hc, (List.forall_mem_cons.mp hfirst.2).2⟩
      exact ⟨_, hfront, _, mem_kstar_pieceLanguage.mpr ⟨pieces, rfl, hpieces⟩, hs.symm⟩

/-! ## Reading from the front -/

/-- What is left after as many further pieces as there are; a separator with no run behind it is
given back. -/
def skipPieces (shape : Shape) (sep : Char) (s : List Char) : List Char :=
  match s with
  | [] => []
  | c :: rest =>
    if c = sep ∧ rest.head?.any shape.rest = true then
      skipPieces shape sep (rest.dropWhile shape.rest)
    else c :: rest
termination_by s.length
decreasing_by
  have := (List.dropWhile_sublist (p := shape.rest) (l := rest)).length_le
  simp only [List.length_cons]
  omega

/-- What is left of a name after it was read from the front, each run as far as it goes; nothing
is read of a name with a wrong first character. -/
def left? (shape : Shape) : List Char → Option (List Char)
  | [] => none
  | c :: rest =>
    if shape.first c then
      some (match shape.separator? with
        | some sep => shape.skipPieces sep (rest.dropWhile shape.rest)
        | none => rest.dropWhile shape.rest)
    else none

/-- A run ends where a text begins that has no further character for it. -/
theorem dropWhile_append_of_run {run back : List Char} (hrun : ∀ c ∈ run, shape.rest c = true)
    (hback : back.head?.any shape.rest = false) : (run ++ back).dropWhile shape.rest = back := by
  induction run with
  | nil =>
    cases back with
    | nil => rfl
    | cons c back =>
      have hc : shape.rest c = false := by simpa using hback
      simp [hc]
  | cons c run ih =>
    obtain ⟨hc, hrun⟩ := List.forall_mem_cons.mp hrun
    rw [List.cons_append, List.dropWhile_cons, if_pos hc]
    exact ih hrun

/-- Further pieces that are not empty begin with the separator and a run. -/
theorem cons_mem_kstar_pieceLanguage {c : Char} {rest : List Char} :
    c :: rest ∈ (shape.pieceLanguage sep)∗ ↔
      c = sep ∧ ∃ run back, rest = run ++ back ∧ shape.IsRun run ∧
        back ∈ (shape.pieceLanguage sep)∗ := by
  constructor
  · intro h
    obtain ⟨pieces, hflat, hpieces⟩ := mem_kstar_pieceLanguage.mp h
    cases pieces with
    | nil => exact absurd hflat (by simp)
    | cons run pieces =>
      obtain ⟨hrun, hmore⟩ := List.forall_mem_cons.mp hpieces
      obtain ⟨hc, hrest⟩ := List.cons.inj hflat
      exact ⟨hc, run, _, hrest, hrun, mem_kstar_pieceLanguage.mpr ⟨pieces, rfl, hmore⟩⟩
  · rintro ⟨rfl, run, back, rfl, hrun, hback⟩
    obtain ⟨pieces, rfl, hpieces⟩ := mem_kstar_pieceLanguage.mp hback
    exact mem_kstar_pieceLanguage.mpr
      ⟨run :: pieces, rfl, List.forall_mem_cons.mpr ⟨hrun, hpieces⟩⟩

/-- Further pieces do not begin with a character of a run. -/
theorem head?_any_of_mem_kstar (hsep : shape.rest sep = false) {s : List Char}
    (h : s ∈ (shape.pieceLanguage sep)∗) : s.head?.any shape.rest = false := by
  cases s with
  | nil => rfl
  | cons c rest =>
    obtain ⟨rfl, -⟩ := cons_mem_kstar_pieceLanguage.mp h
    exact hsep

/-- Reading further pieces to the end never has to give back a part of a run. -/
theorem skipPieces_eq_nil_iff (hsep : shape.rest sep = false) {s : List Char} :
    shape.skipPieces sep s = [] ↔ s ∈ (shape.pieceLanguage sep)∗ := by
  induction s using skipPieces.induct shape sep with
  | case1 =>
    rw [skipPieces]
    exact ⟨fun _ => Language.nil_mem_kstar _, fun _ => rfl⟩
  | case2 c rest hread ih =>
    rw [skipPieces, if_pos hread, ih, cons_mem_kstar_pieceLanguage]
    constructor
    · intro hback
      refine ⟨hread.1, rest.takeWhile shape.rest, rest.dropWhile shape.rest,
        List.takeWhile_append_dropWhile.symm, ⟨?_, ?_⟩, hback⟩
      · cases rest with
        | nil => exact absurd hread.2 (by simp)
        | cons d more =>
          have hd : shape.rest d = true := hread.2
          simp [hd]
      · exact fun d hd => List.all_eq_true.mp List.all_takeWhile d hd
    · rintro ⟨-, run, back, rfl, hrun, hback⟩
      rw [dropWhile_append_of_run hrun.2 (head?_any_of_mem_kstar hsep hback)]
      exact hback
  | case3 c rest hstop =>
    rw [skipPieces, if_neg hstop, cons_mem_kstar_pieceLanguage]
    constructor
    · exact fun h => absurd h (by simp)
    · rintro ⟨hc, run, back, rfl, hrun, -⟩
      obtain ⟨d, more, rfl⟩ := List.exists_cons_of_ne_nil hrun.1
      have hd : shape.rest d = true := hrun.2 d List.mem_cons_self
      exact absurd ⟨hc, hd⟩ hstop

/-- Nothing is left of a name exactly if it is a word of the language. -/
theorem left?_eq_iff (h : shape.Sound) {s : List Char} :
    shape.left? s = some [] ↔ s ∈ shape.language := by
  cases s with
  | nil =>
    have hnone : [] ∉ shape.language := by
      intro hmem
      obtain ⟨⟨c, hc, -⟩, -⟩ := accepts_iff.mp ((mem_language_iff h).mp hmem)
      exact absurd hc (by simp)
    simp [left?, hnone]
  | cons c rest =>
    rw [left?, language]
    cases hsep : shape.separator? with
    | none =>
      simp only [mem_oneOf_mul_kstar, Option.ite_none_right_eq_some, Option.some.injEq,
        List.dropWhile_eq_nil_iff]
      constructor
      · rintro ⟨hc, hrest⟩
        exact ⟨c, rest, rfl, hc, hrest⟩
      · rintro ⟨d, run, hcons, hd, hrun⟩
        obtain ⟨rfl, rfl⟩ := List.cons.inj hcons
        exact ⟨hd, hrun⟩
    | some sep =>
      have hnot := h.separator sep hsep
      simp only [Option.ite_none_right_eq_some, Option.some.injEq, skipPieces_eq_nil_iff hnot]
      rw [Language.mem_mul]
      constructor
      · rintro ⟨hc, hback⟩
        refine ⟨c :: rest.takeWhile shape.rest, ?_, _, hback, ?_⟩
        · exact mem_oneOf_mul_kstar.mpr ⟨c, _, rfl, hc, fun d hd =>
            List.all_eq_true.mp List.all_takeWhile d hd⟩
        · rw [List.cons_append, List.takeWhile_append_dropWhile]
      · rintro ⟨front, hfront, back, hback, hcons⟩
        obtain ⟨d, run, rfl, hd, hrun⟩ := mem_oneOf_mul_kstar.mp hfront
        rw [List.cons_append] at hcons
        obtain ⟨rfl, rfl⟩ := List.cons.inj hcons
        rw [dropWhile_append_of_run hrun (head?_any_of_mem_kstar hnot hback)]
        exact ⟨hd, hback⟩

end Shape

/-! ## The five conventions -/

theorem oneOf_eq_between {p : Char → Bool} {first last : Char}
    (h : ∀ c, p c = true ↔ first ≤ c ∧ c ≤ last) : oneOf p = between first last := by
  ext s
  rw [mem_oneOf, mem_between]
  exact exists_congr fun c => and_congr_left fun _ => h c

theorem oneOf_or (p q : Char → Bool) : oneOf (fun c => p c || q c) = oneOf p + oneOf q := by
  ext s
  simp only [Language.mem_add, mem_oneOf, Bool.or_eq_true, or_and_right, exists_or]

theorem oneOf_isUpper : oneOf Char.isUpper = between 'A' 'Z' := by
  refine oneOf_eq_between fun c => ?_
  simp [Char.isUpper, Char.le_def]

theorem oneOf_isLower : oneOf Char.isLower = between 'a' 'z' := by
  refine oneOf_eq_between fun c => ?_
  simp [Char.isLower, Char.le_def]

theorem oneOf_isDigit : oneOf Char.isDigit = between '0' '9' := by
  refine oneOf_eq_between fun c => ?_
  simp [Char.isDigit, Char.le_def]

theorem oneOf_isAlphanum :
    oneOf Char.isAlphanum = between 'A' 'Z' + between 'a' 'z' + between '0' '9' := by
  rw [← oneOf_isUpper, ← oneOf_isLower, ← oneOf_isDigit, ← oneOf_or, ← oneOf_or]
  rfl

namespace Convention

/-- The regular expression of a convention is made of the classes of its shape. -/
theorem language_of_shape? {c : Convention} {shape : Shape} (h : shape ∈ c.shape?) :
    shape.Sound ∧ c.language = shape.language := by
  cases c with
  | pascal =>
    obtain rfl := Option.some.inj h
    refine ⟨⟨fun c (hc : c.isUpper = true) => ?_, by simp⟩, ?_⟩
    · simp [Char.isAlphanum, Char.isAlpha, hc]
    · simp only [language, Shape.language, oneOf_isUpper, oneOf_isAlphanum]
  | camel =>
    obtain rfl := Option.some.inj h
    refine ⟨⟨fun c (hc : c.isLower = true) => ?_, by simp⟩, ?_⟩
    · simp [Char.isAlphanum, Char.isAlpha, hc]
    · simp only [language, Shape.language, oneOf_isLower, oneOf_isAlphanum]
  | kebab =>
    obtain rfl := Option.some.inj h
    refine ⟨⟨fun c (hc : c.isLower = true) => by simp [hc], by simp⟩, ?_⟩
    simp only [language, Shape.language, Shape.pieceLanguage, oneOf_or, oneOf_isLower,
      oneOf_isDigit]
  | snake =>
    obtain rfl := Option.some.inj h
    refine ⟨⟨fun c (hc : c.isLower = true) => by simp [hc], by simp⟩, ?_⟩
    simp only [language, Shape.language, Shape.pieceLanguage, oneOf_or, oneOf_isLower,
      oneOf_isDigit]
  | upper =>
    obtain rfl := Option.some.inj h
    refine ⟨⟨fun c (hc : c.isUpper = true) => by simp [hc], by simp⟩, ?_⟩
    simp only [language, Shape.language, Shape.pieceLanguage, oneOf_or, oneOf_isUpper,
      oneOf_isDigit]
  | unknown _ => exact absurd h (by simp [shape?])

/-- A convention without a shape has all names. -/
theorem mem_language_of_shape?_eq_none {c : Convention} (h : c.shape? = none) (s : List Char) :
    s ∈ c.language := by
  cases c with
  | unknown _ => exact Set.mem_univ s
  | pascal => exact absurd h (by simp [shape?])
  | camel => exact absurd h (by simp [shape?])
  | kebab => exact absurd h (by simp [shape?])
  | snake => exact absurd h (by simp [shape?])
  | upper => exact absurd h (by simp [shape?])

end Convention

/-- A name follows a convention exactly if what its last extension and one tag leave of it is a
word of the convention's language; reading that part from the front decides the same. -/
theorem accepts_iff_mem_language (c : Convention) (name : String) :
    ∃ part, (∀ other, Judges name.toList other ↔ other = part) ∧
      (c.accepts name = true ↔ part ∈ c.language) ∧
      ∀ shape ∈ c.shape?, (shape.left? part = some [] ↔ part ∈ c.language) := by
  refine ⟨judgedPart name.toList, fun other => judges_iff, ?_, ?_⟩
  · rw [Convention.accepts]
    cases hshape : c.shape? with
    | none =>
      have hall := Convention.mem_language_of_shape?_eq_none hshape (judgedPart name.toList)
      exact ⟨fun _ => hall, fun _ => rfl⟩
    | some shape =>
      obtain ⟨hsound, hlanguage⟩ := Convention.language_of_shape? hshape
      rw [hlanguage, Shape.mem_language_iff hsound]
  · intro shape hshape
    obtain ⟨hsound, hlanguage⟩ := Convention.language_of_shape? hshape
    rw [hlanguage, Shape.left?_eq_iff hsound]

end ProjectLayout.Naming
