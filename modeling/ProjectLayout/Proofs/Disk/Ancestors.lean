import Mathlib.Data.List.DropRight
import ProjectLayout.Disk.Change
import ProjectLayout.Proofs.Disk.Tree

/-!
# The directories above a path

The directories above an absolute path are read off its text: it is cut behind one of its steps,
with a further step to come, or in front of all of them.

* `IsCut`, `IsAbove` — where a path can be cut, and what lies above it.
* `parent?_eq_some` — the parent is the longest cut.
* `isAbove_iff_parent?` — above a path are its parent and what lies above that.
* `mem_ancestors_iff`, `pairwise_ancestors` — which paths are listed, and in which order.
* `baseName?_joinPath` — the last segment of a joined path.
-/

namespace ProjectLayout.Disk

open Text

/-! ## Cuts -/

/-- Whether segments are none at all or end in one that leads somewhere. -/
def EndsInStep (segments : List String) : Prop := ∀ last ∈ segments.getLast?, isIdle last = false

/-- Whether segments can be cut behind `front`: what is left ends in a step, and a step follows. -/
def IsCut (front segments : List String) : Prop :=
  EndsInStep front ∧ ∃ back, segments = front ++ back ∧ ∃ step ∈ back, isIdle step = false

/-- The segments up to the last that leads somewhere. -/
def upToStep (segments : List String) : List String := segments.rdropWhile isIdle

section Cuts

variable {front segments : List String} {last : String}

theorem upToStep_append_idle (h : isIdle last = true) :
    upToStep (segments ++ [last]) = upToStep segments :=
  List.rdropWhile_concat_pos _ _ _ h

theorem upToStep_append_step (h : isIdle last = false) :
    upToStep (segments ++ [last]) = segments ++ [last] :=
  List.rdropWhile_concat_neg _ _ _ (by simp [h])

theorem upToStep_isPrefix (segments : List String) : upToStep segments <+: segments :=
  List.rdropWhile_prefix _ _

theorem endsInStep_append_singleton : EndsInStep (segments ++ [last]) ↔ isIdle last = false := by
  simp [EndsInStep]

theorem endsInStep_upToStep (segments : List String) : EndsInStep (upToStep segments) := by
  intro last hlast
  obtain ⟨hne, rfl⟩ := List.mem_getLast?_eq_getLast hlast
  exact Bool.eq_false_iff.mpr (List.rdropWhile_last_not _ _ hne)

/-- Segments that lead somewhere have a last one that does. -/
theorem exists_step_of_upToStep_ne_nil (h : upToStep segments ≠ []) :
    ∃ init step, upToStep segments = init ++ [step] ∧ isIdle step = false := by
  obtain ⟨init, step, heq⟩ := (List.eq_nil_or_concat' (upToStep segments)).resolve_left h
  exact ⟨init, step, heq, endsInStep_append_singleton.mp (heq ▸ endsInStep_upToStep segments)⟩

theorem not_isCut_nil : ¬IsCut front [] := by
  rintro ⟨-, back, hback, step, hstep, -⟩
  rw [(List.append_eq_nil_iff.mp hback.symm).2] at hstep
  cases hstep

theorem isCut_append_idle (h : isIdle last = true) :
    IsCut front (segments ++ [last]) ↔ IsCut front segments := by
  constructor
  · rintro ⟨hfront, back, hback, step, hstep, hleads⟩
    rcases List.eq_nil_or_concat' back with rfl | ⟨more, other, rfl⟩
    · cases hstep
    · rw [← List.append_assoc] at hback
      obtain ⟨rfl, hlast⟩ := List.append_inj' hback rfl
      obtain rfl := List.singleton_inj.mp hlast
      refine ⟨hfront, more, rfl, step, ?_, hleads⟩
      rcases List.mem_append.mp hstep with hmem | hmem
      · exact hmem
      · rw [List.mem_singleton.mp hmem, h] at hleads
        cases hleads
  · rintro ⟨hfront, back, rfl, step, hstep, hleads⟩
    exact ⟨hfront, back ++ [last], List.append_assoc .., step, List.mem_append_left _ hstep, hleads⟩

theorem isCut_append_step (h : isIdle last = false) :
    IsCut front (segments ++ [last]) ↔ EndsInStep front ∧ front <+: segments := by
  constructor
  · rintro ⟨hfront, back, hback, step, hstep, -⟩
    refine ⟨hfront, ?_⟩
    rcases List.eq_nil_or_concat' back with rfl | ⟨more, other, rfl⟩
    · cases hstep
    · rw [← List.append_assoc] at hback
      exact ⟨more, (List.append_inj' hback rfl).1.symm⟩
  · rintro ⟨hfront, back, rfl⟩
    exact ⟨hfront, back ++ [last], List.append_assoc .., last, by simp, h⟩

/-- Idle segments at the end make no cut. -/
theorem isCut_upToStep : IsCut front (upToStep segments) ↔ IsCut front segments := by
  induction segments using List.reverseRecOn with
  | nil => rfl
  | append_singleton segments last ih =>
    cases h : isIdle last with
    | true => rw [upToStep_append_idle h, isCut_append_idle h, ih]
    | false => rw [upToStep_append_step h]

/-- The longest beginning that ends in a step is the one up to the last step. -/
theorem endsInStep_and_isPrefix_iff :
    EndsInStep front ∧ front <+: segments ↔ front = upToStep segments ∨ IsCut front segments := by
  induction segments using List.reverseRecOn with
  | nil =>
    rw [List.prefix_nil, or_iff_left not_isCut_nil]
    refine and_iff_right_of_imp ?_
    rintro rfl
    exact nofun
  | append_singleton segments last ih =>
    rw [List.prefix_concat_iff]
    cases h : isIdle last with
    | true =>
      rw [upToStep_append_idle h, isCut_append_idle h, ← ih]
      refine and_congr_right fun hfront => or_iff_right ?_
      rintro rfl
      rw [endsInStep_append_singleton, h] at hfront
      cases hfront
    | false =>
      rw [upToStep_append_step h, isCut_append_step h, and_or_left]
      refine or_congr_left (and_iff_right_of_imp ?_)
      rintro rfl
      exact endsInStep_append_singleton.mpr h

/-- The cuts in front of the last step: the longest, and the cuts of that. -/
theorem isCut_append_step_iff (h : isIdle last = false) :
    IsCut front (segments ++ [last]) ↔
      front = upToStep segments ∨ IsCut front (upToStep segments) := by
  rw [isCut_append_step h, endsInStep_and_isPrefix_iff, isCut_upToStep]

theorem IsCut.isPrefix (h : IsCut front segments) : front <+: segments := by
  obtain ⟨-, back, hback, -⟩ := h
  exact ⟨back, hback.symm⟩

/-- A cut has fewer steps. -/
theorem IsCut.length_filter_lt (h : IsCut front segments) :
    (front.filter (!isIdle ·)).length < (segments.filter (!isIdle ·)).length := by
  obtain ⟨-, back, rfl, step, hstep, hleads⟩ := h
  have hpos : 0 < (back.filter (!isIdle ·)).length :=
    List.length_pos_of_mem (List.mem_filter.mpr ⟨hstep, by simp [hleads]⟩)
  rw [List.filter_append, List.length_append]
  omega

end Cuts

/-! ## Segments of absolute paths -/

/-- What holds of the segments of an absolute path and of any beginning of them. -/
structure Rooted (segments : List String) : Prop where
  slash : ∀ segment ∈ segments, '/' ∉ segment.toList
  head : ∀ first ∈ segments.head?, first = ""

theorem rooted_pathSegments {path : String} (h : isAbsolute path = true) :
    Rooted (pathSegments path) where
  slash := by
    intro segment hsegment
    obtain ⟨piece, hpiece, rfl⟩ := List.mem_map.mp hsegment
    rw [String.toList_ofList]
    exact sep_not_mem_of_mem_splitOn hpiece
  head := by
    intro first hfirst
    obtain ⟨rest, hpath⟩ := List.head?_eq_some_iff.mp (beq_iff_eq.mp h)
    rw [pathSegments, hpath, splitOn, if_pos rfl] at hfirst
    exact (Option.some.inj hfirst).symm

theorem Rooted.of_isPrefix {front segments : List String} (h : Rooted segments)
    (hfront : front <+: segments) : Rooted front where
  slash segment hsegment := h.slash segment (hfront.mem hsegment)
  head first hfirst := by
    obtain ⟨back, rfl⟩ := hfront
    exact h.head first (List.mem_head?_append_of_mem_head? hfirst)

/-- Rooted segments are not a step alone. -/
theorem Rooted.init_ne_nil {init : List String} {step : String} (h : Rooted (init ++ [step]))
    (hstep : isIdle step = false) : init ≠ [] := by
  rintro rfl
  rw [h.head step rfl] at hstep
  cases hstep

theorem reverse_pathOf_append_singleton {segments : List String} (h : segments ≠ [])
    (last : String) :
    (pathOf (segments ++ [last])).toList.reverse =
      last.toList.reverse ++ '/' :: (pathOf segments).toList.reverse := by
  rw [pathOf_append h (by simp), pathOf_singleton]
  simp

/-! ## The end of a path -/

theorem forall_reverse_ne_slash {segment : String} (h : '/' ∉ segment.toList) :
    ∀ c ∈ segment.toList.reverse, decide (c ≠ '/') = true := by
  intro c hc
  refine decide_eq_true ?_
  rintro rfl
  exact h (List.mem_reverse.mp hc)

/-- Nothing is trimmed behind a step. -/
theorem trimEnd_append_of_step {segment : String} (hslash : '/' ∉ segment.toList)
    (hstep : isIdle segment = false) (rest : List Char) :
    trimEnd (segment.toList.reverse ++ rest) = segment.toList.reverse ++ rest := by
  have hslash' : '/' ∉ segment.toList.reverse := by simpa using hslash
  have hne : segment.toList.reverse ≠ [] ∧ segment.toList.reverse ≠ ['.'] := by
    constructor
    · intro heq
      have hempty : segment = "" := by simpa using heq
      rw [hempty] at hstep
      cases hstep
    · intro heq
      have hdot : segment = "." := String.toList_inj.mp (by simpa using congrArg List.reverse heq)
      rw [hdot] at hstep
      cases hstep
  cases hchars : segment.toList.reverse with
  | nil => exact absurd hchars hne.1
  | cons c more =>
    rw [hchars, List.mem_cons, not_or] at hslash'
    rw [List.cons_append, trimEnd.eq_def]
    split
    · next heq => exact absurd (List.cons.inj heq).1.symm hslash'.1
    · next heq =>
      obtain ⟨rfl, hmore⟩ := List.cons.inj heq
      cases more with
      | nil => exact absurd hchars hne.2
      | cons d more => exact absurd (by simp [(List.cons.inj hmore).1]) hslash'.2
    · rfl

/-- Trimming the end of a path leaves the path up to its last step. -/
theorem trimEnd_reverse_pathOf {segments : List String} (h : Rooted segments) :
    trimEnd (pathOf segments).toList.reverse = (pathOf (upToStep segments)).toList.reverse := by
  induction segments using List.reverseRecOn with
  | nil => rfl
  | append_singleton segments last ih =>
    rcases List.eq_nil_or_concat' segments with rfl | ⟨init, other, rfl⟩
    · obtain rfl : last = "" := h.head last rfl
      decide
    · have hne : init ++ [other] ≠ [] := by simp
      have hinit := ih (h.of_isPrefix (List.prefix_append _ _))
      rw [reverse_pathOf_append_singleton hne]
      cases hlast : isIdle last with
      | false =>
        rw [upToStep_append_step hlast, reverse_pathOf_append_singleton hne]
        exact trimEnd_append_of_step (h.slash last (by simp)) hlast _
      | true =>
        rw [upToStep_append_idle hlast, ← hinit]
        rcases Bool.or_eq_true_iff.mp hlast with hempty | hdot
        · rw [beq_iff_eq.mp hempty]
          rfl
        · rw [beq_iff_eq.mp hdot]
          rfl

/-- The last segment of a joined path is the name that was joined. -/
theorem baseName?_joinPath (base : String) {name : String} (h : IsEntryName name) :
    baseName? (joinPath base name) = some name := by
  have hjoin : ∃ rest, (joinPath base name).toList.reverse = name.toList.reverse ++ rest ∧
      rest.takeWhile (· ≠ '/') = [] := by
    unfold joinPath
    split
    · exact ⟨[], (List.append_nil _).symm, rfl⟩
    split
    · next hslash =>
      obtain ⟨front, hfront⟩ := List.getLast?_eq_some_iff.mp (beq_iff_eq.mp hslash)
      exact ⟨'/' :: front.reverse, by simp [hfront], by simp⟩
    · exact ⟨'/' :: base.toList.reverse, by simp, by simp⟩
  obtain ⟨rest, hreverse, hrest⟩ := hjoin
  have hne (other : String) (hother : isName other = false) : name.toList ≠ other.toList := by
    intro heq
    rw [← String.toList_inj.mp heq, h.1] at hother
    cases hother
  have hnamed : ¬(name.toList = [] ∨ name.toList = ['.'] ∨ name.toList = ['.', '.']) := by
    rw [not_or, not_or]
    exact ⟨hne "" rfl, hne "." rfl, hne ".." rfl⟩
  rw [baseName?, hreverse, trimEnd_append_of_step h.2 h.not_isIdle,
    List.takeWhile_append_of_pos (forall_reverse_ne_slash h.2), hrest, List.append_nil,
    List.reverse_reverse, if_neg hnamed, String.ofList_toList]

/-! ## The path up to a cut -/

/-- The path up to a cut; in front of all segments it is the root. -/
def pathUpTo (front : List String) : String := if front = [] then "/" else pathOf front

section PathUpTo

variable {front : List String}

theorem pathSegments_pathUpTo (hne : front ≠ []) (h : Rooted front) :
    pathSegments (pathUpTo front) = front := by
  rw [pathUpTo, if_neg hne, pathSegments_pathOf_of_slash_not_mem hne h.slash]

/-- A path that ends in a step is not empty. -/
theorem pathOf_ne_empty_of_endsInStep (hne : front ≠ []) (h : Rooted front)
    (hend : EndsInStep front) : pathOf front ≠ "" := by
  intro hempty
  have hsegments := pathSegments_pathOf_of_slash_not_mem hne h.slash
  rw [hempty] at hsegments
  exact absurd (hend "" (by rw [← hsegments]; rfl)) (by decide)

theorem isAbsolute_pathUpTo (h : Rooted front) (hend : EndsInStep front) :
    isAbsolute (pathUpTo front) = true := by
  cases front with
  | nil => rfl
  | cons first more =>
    obtain rfl : first = "" := h.head first rfl
    cases more with
    | nil => exact absurd (hend "" rfl) (by decide)
    | cons next more =>
      rw [pathUpTo, if_neg (by simp), ← List.singleton_append, pathOf_append (by simp) (by simp),
        pathOf_singleton]
      simp [isAbsolute]

theorem stepsOf_pathUpTo (h : Rooted front) :
    stepsOf (pathUpTo front) = front.filter (!isIdle ·) := by
  by_cases hne : front = []
  · rw [hne]
    decide
  · rw [stepsOf, pathSegments_pathUpTo hne h]

end PathUpTo

/-! ## The parent of a path -/

section Parent

variable {path : String} (h : isAbsolute path = true)

include h

theorem trimEnd_reverse :
    trimEnd path.toList.reverse = (pathOf (upToStep (pathSegments path))).toList.reverse := by
  rw [← trimEnd_reverse_pathOf (rooted_pathSegments h), pathOf_pathSegments]

theorem parent?_eq_none (hup : upToStep (pathSegments path) = []) : parent? path = none := by
  rw [parent?, trimEnd_reverse h, hup]
  rfl

/-- The parent of a path that has steps is the path up to the step before the last. -/
theorem parent?_eq_some {init : List String} {step : String}
    (hup : upToStep (pathSegments path) = init ++ [step]) :
    parent? path = some (pathUpTo (upToStep init)) := by
  have hrooted : Rooted (init ++ [step]) :=
    hup ▸ (rooted_pathSegments h).of_isPrefix (upToStep_isPrefix _)
  have hstep : isIdle step = false :=
    endsInStep_append_singleton.mp (hup ▸ endsInStep_upToStep (pathSegments path))
  have hinit : Rooted init := hrooted.of_isPrefix (List.prefix_append _ _)
  have hdrop : (pathOf (init ++ [step])).toList.reverse.dropWhile (· ≠ '/') =
      '/' :: (pathOf init).toList.reverse := by
    rw [reverse_pathOf_append_singleton (hrooted.init_ne_nil hstep),
      List.dropWhile_append_of_pos (forall_reverse_ne_slash (hrooted.slash step (by simp)))]
    rfl
  have hne : (pathOf (init ++ [step])).toList.reverse ≠ [] := by
    intro hnil
    rw [hnil] at hdrop
    cases hdrop
  rw [parent?, trimEnd_reverse h, hup]
  split
  · next hnil => exact absurd hnil hne
  · rw [hdrop, trimEnd, trimEnd_reverse_pathOf hinit]
    by_cases hroot : upToStep init = []
    · rw [hroot, if_pos h]
      rfl
    · have hup := pathOf_ne_empty_of_endsInStep hroot (hinit.of_isPrefix (upToStep_isPrefix _))
        (endsInStep_upToStep init)
      split
      · next hnil => exact absurd (by simpa using hnil) hup
      · rw [pathUpTo, if_neg hroot, List.reverse_reverse, String.ofList_toList]

end Parent

/-! ## What lies above a path -/

/-- Whether a directory lies above a path, as the path is written. -/
def IsAbove (above path : String) : Prop :=
  ∃ front, IsCut front (pathSegments path) ∧ above = pathUpTo front

section Above

variable {path above : String}

protected theorem IsAbove.isAbsolute (habove : IsAbove above path) (h : isAbsolute path = true) :
    isAbsolute above = true := by
  obtain ⟨front, hcut, rfl⟩ := habove
  exact isAbsolute_pathUpTo ((rooted_pathSegments h).of_isPrefix hcut.isPrefix) hcut.1

/-- What lies above a path has fewer steps. -/
theorem IsAbove.length_stepsOf_lt (habove : IsAbove above path) (h : isAbsolute path = true) :
    (stepsOf above).length < (stepsOf path).length := by
  obtain ⟨front, hcut, rfl⟩ := habove
  rw [stepsOf_pathUpTo ((rooted_pathSegments h).of_isPrefix hcut.isPrefix)]
  exact hcut.length_filter_lt

theorem isAbove_pathUpTo {front : List String} (h : Rooted front) :
    IsAbove above (pathUpTo front) ↔ ∃ cut, IsCut cut front ∧ above = pathUpTo cut := by
  by_cases hne : front = []
  · have hslash : pathSegments "/" = [] ++ [""] ++ [""] := by decide
    have hidle : isIdle "" = true := by decide
    rw [IsAbove, hne, pathUpTo, if_pos rfl, hslash]
    simp only [isCut_append_idle hidle]
  · rw [IsAbove, pathSegments_pathUpTo hne h]

/-- Above a path are its parent and what lies above its parent. -/
theorem isAbove_iff_parent? (h : isAbsolute path = true) :
    IsAbove above path ↔
      ∃ parent, parent? path = some parent ∧ (above = parent ∨ IsAbove above parent) := by
  by_cases hup : upToStep (pathSegments path) = []
  · have hcut (front : List String) : ¬IsCut front (pathSegments path) := by
      rw [← isCut_upToStep, hup]
      exact not_isCut_nil
    simp [parent?_eq_none h hup, IsAbove, hcut]
  · obtain ⟨init, step, hinit, hstep⟩ := exists_step_of_upToStep_ne_nil hup
    have hrooted : Rooted (upToStep init) :=
      (rooted_pathSegments h).of_isPrefix <| (upToStep_isPrefix init).trans <|
        (List.prefix_append init [step]).trans <| hinit ▸ upToStep_isPrefix _
    have hcut (front : List String) : IsCut front (pathSegments path) ↔
        front = upToStep init ∨ IsCut front (upToStep init) := by
      rw [← isCut_upToStep, hinit, isCut_append_step_iff hstep]
    rw [parent?_eq_some h hinit, IsAbove]
    simp only [hcut, Option.some.injEq, exists_eq_left', isAbove_pathUpTo hrooted, or_and_right,
      exists_or, exists_eq_left]

theorem isAbove_of_parent? {parent : String} (h : isAbsolute path = true)
    (hparent : parent? path = some parent) : IsAbove parent path :=
  (isAbove_iff_parent? h).mpr ⟨parent, hparent, .inl rfl⟩

end Above

/-! ## The paths above a path, nearest first -/

theorem length_stepsOf_le (path : String) : (stepsOf path).length ≤ path.length := by
  rw [stepsOf, pathSegments, List.filter_map, List.length_map, ← String.length_toList]
  exact length_filter_splitOn_le '/' rfl path.toList

section Ancestors

variable {fuel : Nat} {path : String}

-- Each step up costs one of the steps of the path, so these bound the fuel.
theorem mem_ancestorsUpTo_iff (h : isAbsolute path = true)
    (hfuel : (stepsOf path).length ≤ fuel) {above : String} :
    above ∈ ancestorsUpTo fuel path ↔ above = path ∨ IsAbove above path := by
  induction fuel generalizing path with
  | zero =>
    rw [ancestorsUpTo, List.mem_singleton]
    refine (or_iff_left fun habove => ?_).symm
    have hlt := habove.length_stepsOf_lt h
    omega
  | succ fuel ih =>
    rw [ancestorsUpTo, List.mem_cons]
    refine or_congr_right ?_
    rw [isAbove_iff_parent? h]
    cases hparent : parent? path with
    | none => simp
    | some parent =>
      have habove := isAbove_of_parent? h hparent
      have hlt := habove.length_stepsOf_lt h
      simp only [Option.some.injEq, exists_eq_left']
      exact ih (habove.isAbsolute h) (by omega)

/-- The ancestors of an absolute path are the path itself and what lies above it. -/
theorem mem_ancestors_iff (h : isAbsolute path = true) {above : String} :
    above ∈ ancestors path ↔ above = path ∨ IsAbove above path :=
  mem_ancestorsUpTo_iff h (length_stepsOf_le path)

example : ancestors "/a//b/./c/" = ["/a//b/./c/", "/a//b", "/a", "/"] := by decide

theorem pairwise_ancestorsUpTo (h : isAbsolute path = true)
    (hfuel : (stepsOf path).length ≤ fuel) :
    (ancestorsUpTo fuel path).Pairwise fun near far => IsAbove far near := by
  induction fuel generalizing path with
  | zero => exact List.pairwise_singleton _ _
  | succ fuel ih =>
    rw [ancestorsUpTo, List.pairwise_cons]
    cases hparent : parent? path with
    | none => exact ⟨nofun, List.Pairwise.nil⟩
    | some parent =>
      have habove := isAbove_of_parent? h hparent
      have hlt := habove.length_stepsOf_lt h
      have hfuel' : (stepsOf parent).length ≤ fuel := by omega
      refine ⟨fun far hfar => ?_, ih (habove.isAbsolute h) hfuel'⟩
      exact (isAbove_iff_parent? h).mpr
        ⟨parent, hparent, (mem_ancestorsUpTo_iff (habove.isAbsolute h) hfuel').mp hfar⟩

/-- The ancestors of an absolute path stand in the order in which they lie above one another. -/
theorem pairwise_ancestors (h : isAbsolute path = true) :
    (ancestors path).Pairwise fun near far => IsAbove far near :=
  pairwise_ancestorsUpTo h (length_stepsOf_le path)

/-- In front of a directory in the list is what it lies above. -/
theorem mem_front_iff (h : isAbsolute path = true) {front back : List String} {dir near : String}
    (hsplit : ancestors path = front ++ dir :: back) (hnear : near ∈ ancestors path) :
    near ∈ front ↔ IsAbove dir near := by
  have hpairs := pairwise_ancestors h
  have habsolute : isAbsolute near = true :=
    ((mem_ancestors_iff h).mp hnear).elim (fun heq => heq ▸ h) fun habove => habove.isAbsolute h
  rw [hsplit] at hpairs hnear
  obtain ⟨-, hbehind, hcross⟩ := List.pairwise_append.mp hpairs
  constructor
  · exact fun hfront => hcross near hfront dir List.mem_cons_self
  · -- What lies above has fewer steps, so `near` is neither the directory itself nor behind it.
    intro habove
    have hlt := habove.length_stepsOf_lt habsolute
    rcases List.mem_append.mp hnear with hfront | hrest
    · exact hfront
    rcases List.mem_cons.mp hrest with rfl | hback
    · exact absurd hlt (Nat.lt_irrefl _)
    · have hlt' := ((List.pairwise_cons.mp hbehind).1 near hback).length_stepsOf_lt
        (habove.isAbsolute habsolute)
      exact absurd hlt (Nat.lt_asymm hlt')

end Ancestors

end ProjectLayout.Disk
