import ProjectLayout.Proofs.Glob.Excluding

/-!
# A set as the disjunction of its patterns

A set is matched at once, and each of its patterns could be matched alone.  Both give the same, with
two exceptions: a pattern that nests too deep takes all others with it, and a set looks some
patterns up by the file name, which a path that ends in `..` does not have.

* `StandsFor` — the patterns that a text of a set stands for: itself, and the directory in front of
  its `/**`.
* `matchesInSet_iff` — a pattern of a set beside the same pattern alone.
* `PatternSet.excludes_congr` — only which texts compile counts.
* `PatternSet.excludes_iff_matched_alone` — what a set excludes and what its patterns match alone.
-/

namespace ProjectLayout.Glob

open Text

/-! ## The patterns that a text stands for -/

/-- Whether a text of a set stands for a pattern. -/
inductive StandsFor (text : String) : Pattern → Prop where
  | itself {p : Pattern} (h : Pattern.compile? text = some p) : StandsFor text p
  | directory {p d : Pattern} {dir : String} (h : Pattern.compile? text = some p)
      (htext : text = dir ++ "/**") (hne : dir ≠ "") (hdir : Pattern.compile? dir = some d) :
      StandsFor text d

theorem StandsFor.isSome {text : String} {p : Pattern} (h : StandsFor text p) :
    (Pattern.compile? text).isSome = true := by
  cases h with
  | itself h => rw [h]; rfl
  | directory h => rw [h]; rfl

theorem subtreeOf?_eq_some_iff {text : String} {d : Pattern} :
    subtreeOf? text = some d ↔
      ∃ dir, text = dir ++ "/**" ∧ dir ≠ "" ∧ Pattern.compile? dir = some d := by
  constructor
  · intro h
    unfold subtreeOf? at h
    split at h
    · next c dir hdrop =>
      refine ⟨String.ofList (c :: dir), ?_, by simp, h⟩
      rw [← String.toList_inj, eq_append_of_dropSuffix? hdrop, String.toList_append,
        String.toList_ofList]
      rfl
    · cases h
  · rintro ⟨dir, rfl, hne, hdir⟩
    have hdrop : dropSuffix? ['/', '*', '*'] (dir ++ "/**").toList = some dir.toList := by
      rw [String.toList_append]
      exact dropSuffix?_append dir.toList ['/', '*', '*']
    obtain ⟨c, rest, hlist⟩ : ∃ c rest, dir.toList = c :: rest :=
      List.exists_cons_of_ne_nil (by simpa using hne)
    rw [hlist] at hdrop
    unfold subtreeOf?
    rw [hdrop]
    show Pattern.compile? (String.ofList (c :: rest)) = some d
    rw [← hlist, String.ofList_toList, hdir]

/-- What a set is built from is what its texts stand for. -/
theorem mem_globsOf_iff {texts : List String} {p : Pattern} :
    p ∈ globsOf texts ↔ ∃ text ∈ texts, StandsFor text p := by
  simp only [globsOf, List.mem_flatMap, List.mem_filterMap, List.mem_cons, Option.mem_toList]
  constructor
  · rintro ⟨q, ⟨text, htext, hq⟩, rfl | hp⟩
    · exact ⟨text, htext, .itself hq⟩
    · rw [Pattern.text_of_compile? hq] at hp
      obtain ⟨dir, heq, hne, hdir⟩ := subtreeOf?_eq_some_iff.mp hp
      exact ⟨text, htext, .directory hq heq hne hdir⟩
  · rintro ⟨text, htext, hstands⟩
    cases hstands with
    | itself h => exact ⟨p, ⟨text, htext, h⟩, .inl rfl⟩
    | @directory q d dir h heq hne hdir =>
      refine ⟨q, ⟨text, htext, h⟩, .inr ?_⟩
      rw [Pattern.text_of_compile? h]
      exact subtreeOf?_eq_some_iff.mpr ⟨dir, heq, hne, hdir⟩

/-! ## Alone and in a set -/

/-- A leading `/` does not change the last segment. -/
theorem endsInParent_stripRoot (s : List Char) : endsInParent (stripRoot s) = endsInParent s := by
  unfold stripRoot
  split
  · next rest =>
    have hsplit : splitOn '/' ('/' :: rest) = [] :: splitOn '/' rest := by
      rw [splitOn, if_pos rfl]
    unfold endsInParent
    rw [hsplit, List.getLast?_cons_of_ne_nil (splitOn_ne_nil '/' rest)]
  · rfl

/-- A pattern of a set matches what it matches alone, unless it has to be looked up by the file name
of a path that has none. -/
theorem matchesInSet_iff {p : Pattern} {path : String} :
    p.matchesInSet (stripRoot path.toList) = true ↔
      p.matches path = true ∧
        (endsInParent path.toList = false ∨ isKeyedByFileName p.tokens = false) := by
  unfold Pattern.matchesInSet Pattern.matches
  rw [endsInParent_stripRoot]
  cases isKeyedByFileName p.tokens <;> cases endsInParent path.toList <;> simp

namespace PatternSet

variable {texts more : List String}

/-- Two sets whose texts that compile are the same exclude the same. -/
theorem excludes_congr
    (h : ∀ text, (Pattern.compile? text).isSome = true → (text ∈ texts ↔ text ∈ more))
    (path : String) : (ofTexts texts).excludes path = (ofTexts more).excludes path := by
  have hglobs (p : Pattern) : p ∈ globsOf texts ↔ p ∈ globsOf more := by
    rw [mem_globsOf_iff, mem_globsOf_iff]
    constructor
    · rintro ⟨text, htext, hp⟩
      exact ⟨text, (h text hp.isSome).mp htext, hp⟩
    · rintro ⟨text, htext, hp⟩
      exact ⟨text, (h text hp.isSome).mpr htext, hp⟩
  rw [Bool.eq_iff_iff, excludes_ofTexts_iff, excludes_ofTexts_iff]
  simp only [Buildable, hglobs]

/-- The texts of a set are those given that compile, in order.  What a set excludes, one of its
texts matches alone, or the directory in front of its `/**` does.  The converse holds as well for
a set that can be built, but for what would have to be looked up by the file name of a path that
ends in `..`; a set that cannot be built excludes nothing.  The order of the texts does not matter,
nor does a text that is there already or that does not compile. -/
theorem excludes_iff_matched_alone (texts : List String) :
    (ofTexts texts).texts = texts.filter (fun text => (Pattern.compile? text).isSome) ∧
    (∀ path, (ofTexts texts).excludes path = true →
      ∃ text ∈ texts, ∃ p, StandsFor text p ∧ p.matches path = true) ∧
    (Buildable texts → ∀ path, ∀ text ∈ texts, ∀ p, StandsFor text p → p.matches path = true →
      endsInParent path.toList = false ∨ isKeyedByFileName p.tokens = false →
        (ofTexts texts).excludes path = true) ∧
    (¬Buildable texts → ∀ path, (ofTexts texts).excludes path = false) ∧
    (∀ more, texts.Perm more →
      ∀ path, (ofTexts more).excludes path = (ofTexts texts).excludes path) ∧
    ∀ front back text, texts = front ++ back → text ∈ texts ∨ Pattern.compile? text = none →
      ∀ path, (ofTexts (front ++ text :: back)).excludes path = (ofTexts texts).excludes path := by
  refine ⟨texts_ofTexts texts, fun path hpath => ?_,
    fun hbuildable path text htext p hp hmatch hname => ?_, excludes_eq_false_of_not_buildable,
    fun more hperm path => ?_, fun front back text hsplit htext path => ?_⟩
  · obtain ⟨-, p, hp, hmatch⟩ := excludes_ofTexts_iff.mp hpath
    obtain ⟨text, htext, hstands⟩ := mem_globsOf_iff.mp hp
    exact ⟨text, htext, p, hstands, (matchesInSet_iff.mp hmatch).1⟩
  · exact excludes_ofTexts_iff.mpr ⟨hbuildable, p, mem_globsOf_iff.mpr ⟨text, htext, hp⟩,
      matchesInSet_iff.mpr ⟨hmatch, hname⟩⟩
  · exact excludes_congr (fun text _ => hperm.mem_iff.symm) path
  · refine excludes_congr (fun other hother => ?_) path
    have hsame : other = text → other ∈ texts := by
      rintro rfl
      exact htext.resolve_right fun hnone => by simp [hnone] at hother
    rw [List.mem_append, List.mem_cons, or_left_comm, ← List.mem_append, ← hsplit]
    exact or_iff_right_of_imp hsame

theorem excludes_iff_matched_alone_sample :
    Buildable ["[", "dist/**", "*.log"] ∧ StandsFor "dist/**" ⟨"dist", "dist".toList.map .literal⟩ ∧
      (ofTexts ["[", "dist/**", "*.log"]).excludes "/dist" = true ∧
      (ofTexts ["*.log", "dist/**", "\x7b", "*.log"]).excludes "/dist" = true := by
  have hbuildable : Buildable ["[", "dist/**", "*.log"] := by decide +kernel
  have hstands : StandsFor "dist/**" ⟨"dist", "dist".toList.map .literal⟩ :=
    @StandsFor.directory _ ⟨"dist/**", "dist".toList.map .literal ++ [.trailingDirs]⟩ _ "dist"
      rfl rfl (by decide) rfl
  obtain ⟨-, -, hmatched, -, -, -⟩ := excludes_iff_matched_alone ["[", "dist/**", "*.log"]
  obtain ⟨-, -, hmatched', -, -, -⟩ :=
    excludes_iff_matched_alone ["*.log", "dist/**", "\x7b", "*.log"]
  refine ⟨hbuildable, hstands, ?_, ?_⟩
  · exact hmatched hbuildable "/dist" _ (by decide) _ hstands (by decide +kernel) (.inl (by decide))
  · exact hmatched' (by decide +kernel) "/dist" _ (by decide) _ hstands (by decide +kernel)
      (.inl (by decide))

/-- A set may not exclude what one of its patterns matches alone: not next to a pattern that nests
too deep, and not what a pattern for a file name matches at the end of a path in `..`. -/
theorem set_misses_what_patterns_match :
    ((∃ p, StandsFor "a" p ∧ p.matches "a" = true) ∧
      (ofTexts ["a", bracedText maxNesting]).excludes "a" = false) ∧
    (∃ p, StandsFor "**/.." p ∧ p.matches ".." = true) ∧
      (ofTexts ["**/.."]).excludes ".." = false := by
  refine ⟨⟨⟨⟨"a", [.literal 'a']⟩, .itself rfl, by decide +kernel⟩, ?_⟩,
    ⟨⟨"**/..", [.leadingDirs, .literal '.', .literal '.']⟩, .itself rfl,
      by decide +kernel⟩, by decide +kernel⟩
  have hdeep : ¬Buildable ["a", bracedText maxNesting] :=
    not_buildable_of_bracedText_mem (by simp) (Nat.le_refl _)
  exact excludes_eq_false_of_not_buildable hdeep "a"

end PatternSet

end ProjectLayout.Glob
