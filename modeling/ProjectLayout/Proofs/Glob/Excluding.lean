import ProjectLayout.Glob.PatternSet
import ProjectLayout.Proofs.Glob.Literal

/-!
# What a set of patterns excludes

A set stands for the patterns that compile and for the directories whose subtrees they name.  It is
built from all of these or, if one of them nests too deep, from none.

* `globsOf`, `Buildable` — what a set is built from, and whether it can be.
* `PatternSet.excludes_ofTexts_iff` — what a set excludes.
* `PatternSet.excludes_ofTexts_append` — with more patterns it excludes more, unless one of them
  keeps it from being built.
* `isTooDeep_bracedText`, `not_buildable_of_bracedText_mem` — a letter in too many braces can be
  matched neither by itself nor in a set.
-/

namespace ProjectLayout.Glob

open Text

/-- What the set of some texts is built from. -/
def globsOf (texts : List String) : List Pattern :=
  (texts.filterMap Pattern.compile?).flatMap fun p => p :: (subtreeOf? p.text).toList

/-- Whether the set of some texts can be built: nothing in it nests too deep.  That all of it
together may become too large is left out, as it is in `effectiveGlobs`. -/
def Buildable (texts : List String) : Prop := ∀ p ∈ globsOf texts, p.depth ≤ maxNesting

instance (texts : List String) : Decidable (Buildable texts) :=
  inferInstanceAs (Decidable (∀ _ ∈ _, _))

theorem globsOf_append (texts more : List String) :
    globsOf (texts ++ more) = globsOf texts ++ globsOf more := by
  rw [globsOf, List.filterMap_append, List.flatMap_append]
  rfl

theorem buildable_append {texts more : List String} :
    Buildable (texts ++ more) ↔ Buildable texts ∧ Buildable more := by
  rw [Buildable, globsOf_append]
  exact List.forall_mem_append

-- Neither a subtree nor a broken pattern keeps a set from being built.
example : Buildable ["dist/**", "*.log", "["] := by decide +kernel

namespace PatternSet

theorem globs_ofTexts (texts : List String) :
    (ofTexts texts).globs = if Buildable texts then globsOf texts else [] := by
  by_cases h : Buildable texts
  · rw [if_pos h]
    exact if_pos (List.all_eq_true.mpr fun p hp => decide_eq_true (h p hp))
  · rw [if_neg h]
    refine if_neg fun hall => h fun p hp => ?_
    exact of_decide_eq_true (List.all_eq_true.mp hall p hp)

/-- A set excludes what one of its globs matches, if it can be built, and nothing otherwise. -/
theorem excludes_ofTexts_iff {texts : List String} {path : String} :
    (ofTexts texts).excludes path = true ↔
      Buildable texts ∧ ∃ p ∈ globsOf texts, p.matchesInSet (stripRoot path.toList) = true := by
  rw [excludes, globs_ofTexts]
  by_cases h : Buildable texts <;> simp [h]

theorem excludes_eq_false_of_not_buildable {texts : List String} (h : ¬Buildable texts)
    (path : String) : (ofTexts texts).excludes path = false :=
  Bool.eq_false_iff.mpr fun he => h (excludes_ofTexts_iff.mp he).1

/-- What is excluded stays excluded when patterns are added that do not keep the set from being
built. -/
theorem excludes_ofTexts_append {texts more : List String} (h : Buildable texts → Buildable more)
    {path : String} (hpath : (ofTexts texts).excludes path = true) :
    (ofTexts (texts ++ more)).excludes path = true := by
  obtain ⟨hbuildable, p, hp, hmatch⟩ := excludes_ofTexts_iff.mp hpath
  refine excludes_ofTexts_iff.mpr ⟨buildable_append.mpr ⟨hbuildable, h hbuildable⟩, p, ?_, hmatch⟩
  rw [globsOf_append]
  exact List.mem_append_left _ hp

end PatternSet

/-! ## Patterns in braces -/

/-- The token of a letter in so many pairs of braces. -/
def braced : Nat → Token
  | 0 => .literal 'a'
  | n + 1 => .alternatives [[braced n]]

/-- The text of a letter in so many pairs of braces. -/
def bracedText (n : Nat) : String :=
  String.ofList (List.replicate n '\x7b' ++ 'a' :: List.replicate n '\x7d')

theorem parts_braced (n : Nat) : (braced n).parts = [n] := by
  induction n with
  | zero => rfl
  | succ n ih =>
    simp [braced, Token.parts, branchDepths, partsOf, ih, sequenceDepth]

theorem isEffective_braced (n : Nat) : (braced n).isEffective = true := by
  cases n <;> rfl

/-- Braces are read as one more token of the branch that they stand in. -/
theorem readPattern_braced (n fuel : Nat) (st : State) (rest : List Char) :
    ∃ previous, readPattern (fuel + (2 * n + 1)) st
        (List.replicate n '\x7b' ++ 'a' :: (List.replicate n '\x7d' ++ rest)) =
      readPattern fuel ⟨braced n :: st.branch, st.groups, previous⟩ rest := by
  induction n generalizing fuel st rest with
  | zero =>
    refine ⟨some 'a', ?_⟩
    exact readPattern_cons fuel st 'a' rest
  | succ n ih =>
    have hclose : List.replicate (n + 1) '\x7d' ++ rest =
        List.replicate n '\x7d' ++ '\x7d' :: rest := by
      rw [List.replicate_succ', List.append_assoc, List.singleton_append]
    obtain ⟨previous, hinner⟩ :=
      ih (fuel + 1) ⟨[], ([], st.branch) :: st.groups, some '\x7b'⟩ ('\x7d' :: rest)
    refine ⟨some '\x7d', ?_⟩
    rw [hclose, List.replicate_succ, List.cons_append,
      show fuel + (2 * (n + 1) + 1) = fuel + 1 + (2 * n + 1) + 1 by omega, readPattern_cons]
    refine hinner.trans ?_
    rw [readPattern_cons]
    simp [readPiece, State.closeGroup, isEffective_braced, Except.map, Except.bind, braced]

theorem compile?_bracedText (n : Nat) :
    Pattern.compile? (bracedText n) = some ⟨bracedText n, [braced n]⟩ := by
  refine compile?_eq_some_iff.mpr ⟨_, ?_, rfl⟩
  have hlength : (bracedText n).length = 0 + (2 * n + 1) := by
    rw [bracedText, String.length_ofList, List.length_append, List.length_cons,
      List.length_replicate, List.length_replicate]
    omega
  obtain ⟨previous, hread⟩ := readPattern_braced n 0 ⟨[], [], none⟩ []
  rw [List.append_nil] at hread
  rw [parse, hlength, bracedText, String.toList_ofList, hread]
  rfl

theorem depth_braced (text : String) (n : Nat) :
    (⟨text, [braced n]⟩ : Pattern).depth = n + 1 := by
  simp [Pattern.depth, partsOf, parts_braced, deepest]

/-- A letter in as many pairs of braces as a pattern may be deep nests too deep. -/
theorem isTooDeep_bracedText {n : Nat} (hn : maxNesting ≤ n) : isTooDeep (bracedText n) = true := by
  rw [isTooDeep, compile?_bracedText, Option.any_some, depth_braced]
  exact decide_eq_true (Nat.lt_succ_of_le hn)

/-- So it keeps a set from being built. -/
theorem not_buildable_of_bracedText_mem {n : Nat} {texts : List String} (h : bracedText n ∈ texts)
    (hn : maxNesting ≤ n) : ¬Buildable texts := by
  intro hbuildable
  have hmem : (⟨bracedText n, [braced n]⟩ : Pattern) ∈ globsOf texts :=
    List.mem_flatMap.mpr ⟨_, List.mem_filterMap.mpr ⟨_, h, compile?_bracedText n⟩,
      List.mem_cons_self⟩
  have hdepth := hbuildable _ hmem
  rw [depth_braced] at hdepth
  omega

end ProjectLayout.Glob
