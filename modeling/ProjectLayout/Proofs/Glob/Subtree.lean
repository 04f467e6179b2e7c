import ProjectLayout.Proofs.Glob.Ending
import ProjectLayout.Proofs.Glob.Excluding

/-!
# Patterns for subtrees

A pattern that ends in `/**` stands for all that is below the directories in front of that ending,
and in a set for these directories too.  So a set of such patterns excludes with a path all that is
below it.

* `IsSubtree.matchesTokens_append` — a subtree has in it what is below a path in it.
* `exists_matchesInSet_append` — the same for a subtree together with the directory that it is
  named for.
* `PatternSet.excludes_append` — what is below an excluded path is excluded.
-/

namespace ProjectLayout.Glob

open Text

/-! ## Matching -/

/-- What is below a path in a subtree is in the subtree. -/
theorem IsSubtree.matchesTokens_append {tokens : List Token} (h : IsSubtree tokens)
    {w : List UInt8} (hw : matchesTokens tokens w = true) (more : List UInt8) :
    matchesTokens tokens (w ++ more) = true := by
  rcases h with rfl | ⟨front, rfl⟩
  · rfl
  rcases matchesTokens_iff.mp hw with hlone | hspans
  · exact matchesTokens_iff.mpr (.inl hlone)
  obtain ⟨u, _, rfl, hu, hv⟩ := spans_append.mp hspans
  obtain ⟨v, rfl⟩ := spans_trailingDirs.mp hv
  refine matchesTokens_iff.mpr (.inr (spans_append.mpr ⟨u, slash :: (v ++ more), ?_, hu, ?_⟩))
  · simp
  · exact spans_trailingDirs.mpr ⟨v ++ more, rfl⟩

/-- A subtree is not told by a file name. -/
theorem IsSubtree.isKeyedByFileName {tokens : List Token} (h : IsSubtree tokens) :
    isKeyedByFileName tokens = false := by
  have hend (front : List Token) : endsInExtension (front ++ [.trailingDirs]) = false := by
    simp [endsInExtension, Token.isLiteral]
  rcases h with rfl | ⟨front, rfl⟩
  · rfl
  unfold Glob.isKeyedByFileName
  split
  · next rest heq =>
    cases front with
    | nil => simp at heq
    | cons t front =>
      obtain ⟨-, rfl⟩ := List.cons.inj heq
      simp [hend, Token.isLiteral]
  · simp [hend]

theorem IsSubtree.matchesInSet {p : Pattern} (h : IsSubtree p.tokens) (path : List Char) :
    p.matchesInSet path = matchesTokens p.tokens (utf8Bytes path) := by
  rw [Pattern.matchesInSet, h.isKeyedByFileName]
  rfl

/-! ## Sets -/

/-- A pattern that ends in `/**` is a subtree, and what stands in front of that ending either has
the same tokens or those in front of the subtree. -/
theorem isSubtree_of_compile? {text : String} {dir : List Char} {p : Pattern}
    (hp : Pattern.compile? text = some p) (htext : text.toList = dir ++ subtreeEnding) :
    IsSubtree p.tokens ∧ ∀ d, Pattern.compile? (String.ofList dir) = some d →
      p.tokens = d.tokens ∨ p.tokens = d.tokens ++ [.trailingDirs] := by
  obtain ⟨tokens, hparse, rfl⟩ := compile?_eq_some_iff.mp hp
  have hlength : text.length = dir.length + 3 := by
    rw [← String.length_toList, htext]
    exact List.length_append
  rw [parse, htext] at hparse
  have hstart : State.LeadsFirst ⟨[], [], none⟩ := ⟨trivial, by simp⟩
  obtain ⟨hsubtree, hfront⟩ := readPattern_append_ending hstart (Nat.le_of_eq hlength.symm) hparse
  refine ⟨hsubtree, fun d hd => ?_⟩
  obtain ⟨front, hread, rfl⟩ := compile?_eq_some_iff.mp hd
  rw [parse, String.length_ofList, String.toList_ofList] at hread
  exact hfront _ front (Nat.le_refl _) hread

theorem exists_dir_of_subtreeOf? {text : String} {d : Pattern} (h : subtreeOf? text = some d) :
    ∃ dir, text.toList = dir ++ subtreeEnding ∧ Pattern.compile? (String.ofList dir) = some d := by
  unfold subtreeOf? at h
  split at h
  · next c dir hdrop => exact ⟨c :: dir, eq_append_of_dropSuffix? hdrop, h⟩
  · cases h

/-- Below a path that a subtree matches, or the directory that it is named for, the subtree or that
directory matches everything. -/
theorem exists_matchesInSet_append {text : String} {p d : Pattern}
    (hp : Pattern.compile? text = some p) (hend : subtreeEnding <:+ text.toList)
    (hd : d = p ∨ subtreeOf? text = some d) {path : List Char} (hpath : d.matchesInSet path = true)
    (more : List Char) :
    p.matchesInSet (path ++ '/' :: more) = true ∨ d.matchesInSet (path ++ '/' :: more) = true := by
  have hbelow {e : Pattern} (he : IsSubtree e.tokens) (hmatch : e.matchesInSet path = true) :
      e.matchesInSet (path ++ '/' :: more) = true := by
    rw [he.matchesInSet] at hmatch ⊢
    rw [utf8Bytes_append]
    exact he.matchesTokens_append hmatch _
  obtain ⟨dir, htext⟩ := hend
  have hsubtree := (isSubtree_of_compile? hp htext.symm).1
  rcases hd with rfl | hd
  · exact .inl (hbelow hsubtree hpath)
  obtain ⟨dir, htext, hdir⟩ := exists_dir_of_subtreeOf? hd
  rcases (isSubtree_of_compile? hp htext).2 d hdir with heq | heq
  · exact .inr (hbelow (heq ▸ hsubtree) hpath)
  have hmatch : matchesTokens d.tokens (utf8Bytes path) = true := by
    rw [Pattern.matchesInSet, Bool.and_eq_true] at hpath
    exact hpath.2
  rcases matchesTokens_iff.mp hmatch with hlone | hspans
  · exact .inr (hbelow (.inl hlone) hpath)
  -- what is below the directory begins with a `/`, as the tokens behind those of the directory ask
  refine .inl ?_
  rw [hsubtree.matchesInSet, heq, utf8Bytes_append]
  exact matchesTokens_iff.mpr (.inr (spans_append.mpr
    ⟨_, _, rfl, hspans, spans_trailingDirs.mpr ⟨utf8Bytes more, rfl⟩⟩))

theorem stripRoot_append {s : List Char} (hne : s ≠ []) (h : s.head? ≠ some '/')
    (more : List Char) : stripRoot (s ++ more) = s ++ more :=
  stripRoot_of_head?_ne (by rwa [List.head?_append, Option.or_of_isSome (by simpa using hne)])

namespace PatternSet

/-- A set of patterns that end in `/**` excludes with a path all that is below it. -/
theorem excludes_append {texts : List String}
    (hends : ∀ text ∈ texts, (Pattern.compile? text).isSome → subtreeEnding <:+ text.toList)
    {path : String} (hne : path.toList ≠ []) (hroot : path.toList.head? ≠ some '/')
    (hpath : (ofTexts texts).excludes path = true) (more : String) :
    (ofTexts texts).excludes (path ++ "/" ++ more) = true := by
  obtain ⟨hbuildable, d, hd, hmatch⟩ := excludes_ofTexts_iff.mp hpath
  obtain ⟨p, hp, hdp⟩ := List.mem_flatMap.mp hd
  obtain ⟨text, htext, hcompile⟩ := List.mem_filterMap.mp hp
  rw [Pattern.text_of_compile? hcompile, List.mem_cons, Option.mem_toList] at hdp
  have hbelow : stripRoot (path ++ "/" ++ more).toList = path.toList ++ '/' :: more.toList := by
    rw [String.toList_append, String.toList_append, List.append_assoc]
    exact stripRoot_append hne hroot _
  rw [stripRoot_of_head?_ne hroot] at hmatch
  refine excludes_ofTexts_iff.mpr ⟨hbuildable, ?_⟩
  rw [hbelow]
  have hends := hends text htext (by rw [hcompile]; rfl)
  rcases exists_matchesInSet_append hcompile hends hdp hmatch more.toList with h | h
  · exact ⟨p, List.mem_flatMap.mpr ⟨p, hp, List.mem_cons_self⟩, h⟩
  · exact ⟨d, hd, h⟩

end PatternSet

end ProjectLayout.Glob
