import ProjectLayout.Proofs.Glob.Literal

/-!
# Reading patterns that end in `/**`

The ending may meet what stands in front of it: a backslash takes its `/`, a `**` takes the `/` and
is one with the `**` behind it, and a class or a group that is still open takes it whole.  In each
case that gives a pattern the tokens end in a subtree.

* `IsSubtree` — what the tokens of such a pattern are.
* `ReadsBeside` — how one piece of a pattern is read with the ending and without it.
* `readPattern_append_ending` — the tokens with the ending, and those of the text in front of it.
-/

namespace ProjectLayout.Glob

/-- The ending of a pattern that stands for a subtree. -/
def subtreeEnding : List Char := ['/', '*', '*']

/-- Whether tokens end in a subtree. -/
def IsSubtree (tokens : List Token) : Prop :=
  tokens = [.leadingDirs] ∨ ∃ front, tokens = front ++ [.trailingDirs]

/-! ## Where `**` can lead -/

/-- Whether, of tokens with the newest first, only the oldest is a `**` at the start. -/
def LeadsFirst : List Token → Prop
  | [] => True
  | t :: older => (t = .leadingDirs → older = []) ∧ LeadsFirst older

theorem leadsFirst_cons {t : Token} {older : List Token} (ht : t ≠ .leadingDirs) :
    LeadsFirst (t :: older) ↔ LeadsFirst older :=
  and_iff_right fun h => absurd h ht

/-- Whether a `**` at the start is the oldest token of each branch that is still open. -/
structure State.LeadsFirst (st : State) : Prop where
  branch : Glob.LeadsFirst st.branch
  groups : ∀ g ∈ st.groups, Glob.LeadsFirst g.2

theorem State.LeadsFirst.push {st : State} (h : st.LeadsFirst) {t : Token}
    (ht : t ≠ .leadingDirs) : (st.push t).LeadsFirst :=
  ⟨(leadsFirst_cons ht).mpr h.branch, h.groups⟩

theorem leadsFirst_absorb {st : State} (h : st.LeadsFirst) (isLast : Bool) :
    (st.absorb isLast).LeadsFirst := by
  have hbranch := h.branch
  have hnew : (if isLast then Token.trailingDirs else .middleDirs) ≠ .leadingDirs := by
    cases isLast <;> simp
  unfold State.absorb
  split
  · next older heq =>
    rw [heq] at hbranch
    exact ⟨hbranch, h.groups⟩
  · next older heq =>
    rw [heq] at hbranch
    exact ⟨hbranch, h.groups⟩
  · next t older _ _ heq =>
    rw [heq] at hbranch
    exact ⟨(leadsFirst_cons hnew).mpr hbranch.2, h.groups⟩
  · exact ⟨(leadsFirst_cons hnew).mpr trivial, h.groups⟩

theorem leadsFirst_readStars {st : State} (h : st.LeadsFirst) (before : Option Char)
    (s : List Char) : (readStars st before s).1.LeadsFirst := by
  have hdirs (hempty : st.branch.isEmpty = true) (previous : Option Char) :
      (({ st with previous } : State).push .leadingDirs).LeadsFirst :=
    ⟨⟨fun _ => List.isEmpty_iff.mp hempty, h.branch⟩, h.groups⟩
  have hstars : ((st.push .star).push .star).LeadsFirst := (h.push (by simp)).push (by simp)
  fun_cases readStars st before s with
  | case1 hempty => exact hdirs hempty _
  | case2 hempty => exact hdirs hempty _
  | case3 => exact hstars
  | case4 => exact hstars
  | case5 => exact leadsFirst_absorb h true
  | case6 =>
    have hst : ({ st with previous := some '/' } : State).LeadsFirst := ⟨h.branch, h.groups⟩
    exact leadsFirst_absorb hst false
  | case7 => exact leadsFirst_absorb h true
  | case8 => exact hstars
  | case9 => exact h.push (by simp)

theorem leadsFirst_closeGroup {st st' : State} (hst : st.LeadsFirst)
    (h : st.closeGroup = .ok st') : st'.LeadsFirst := by
  unfold State.closeGroup at h
  split at h
  · cases h
  · next finished before outer hgroups =>
    obtain ⟨hbefore, houter⟩ := List.forall_mem_cons.mp (hgroups ▸ hst.groups)
    rw [← Except.ok.inj h]
    exact ⟨(leadsFirst_cons (by simp)).mpr hbefore, houter⟩

theorem leadsFirst_comma {st : State} (hst : st.LeadsFirst) : st.comma.LeadsFirst := by
  unfold State.comma
  split
  · exact hst.push (by simp)
  · next finished before outer hgroups =>
    obtain ⟨hbefore, houter⟩ := List.forall_mem_cons.mp (hgroups ▸ hst.groups)
    exact ⟨trivial, List.forall_mem_cons.mpr ⟨hbefore, houter⟩⟩

theorem leadsFirst_readPiece {st st' : State} {c : Char} {rest left : List Char}
    (hst : st.LeadsFirst) (h : readPiece st c rest = .ok (st', left)) : st'.LeadsFirst := by
  have hafter (previous : Option Char) : ({ st with previous } : State).LeadsFirst :=
    ⟨hst.branch, hst.groups⟩
  revert h
  fun_cases readPiece st c rest with
  | case1 =>
    intro h
    obtain ⟨rfl, rfl⟩ := Prod.mk.inj (Except.ok.inj h)
    exact (hafter _).push (by simp)
  | case2 =>
    intro h
    have hstars := leadsFirst_readStars (hafter (some c)) st.previous rest
    rwa [Except.ok.inj h] at hstars
  | case3 =>
    intro h
    obtain ⟨⟨t, others⟩, hread, hnew⟩ := map_eq_ok h
    obtain ⟨rfl, rfl⟩ := Prod.mk.inj hnew
    exact (hafter _).push (by rintro rfl; cases (weight_readClass hread).1)
  | case4 =>
    intro h
    obtain ⟨rfl, rfl⟩ := Prod.mk.inj (Except.ok.inj h)
    exact ⟨trivial, List.forall_mem_cons.mpr ⟨hst.branch, hst.groups⟩⟩
  | case5 =>
    intro h
    obtain ⟨closed, hclosed, hnew⟩ := map_eq_ok h
    obtain ⟨rfl, rfl⟩ := Prod.mk.inj hnew
    exact leadsFirst_closeGroup (hafter _) hclosed
  | case6 =>
    intro h
    obtain ⟨rfl, rfl⟩ := Prod.mk.inj (Except.ok.inj h)
    exact leadsFirst_comma (hafter _)
  | case7 =>
    intro h
    cases h
  | case8 =>
    intro h
    obtain ⟨rfl, rfl⟩ := Prod.mk.inj (Except.ok.inj h)
    exact (hafter _).push (by simp)
  | case9 =>
    intro h
    obtain ⟨rfl, rfl⟩ := Prod.mk.inj (Except.ok.inj h)
    exact (hafter _).push (by simp)

/-! ## Reading in front of the ending -/

theorem suffix_of_readClassBody {st : ClassState} {s left : List Char}
    {ranges : List (Char × Char)} (h : readClassBody st s = .ok (ranges, left)) :
    ']' :: left <:+ s := by
  fun_induction readClassBody st s with
  | case1 => cases h
  | case2 _ rest =>
    obtain ⟨-, rfl⟩ := Prod.mk.inj (Except.ok.inj h)
    exact List.suffix_rfl
  | case3 => cases h
  | case4 _ _ _ _ _ ih => exact (ih h).trans (List.suffix_cons _ _)
  | case5 _ _ _ ih => exact (ih h).trans (List.suffix_cons _ _)
  | case6 => cases h
  | case7 _ _ _ _ _ _ _ _ ih => exact (ih h).trans (List.suffix_cons _ _)
  | case8 _ _ _ _ _ _ ih => exact (ih h).trans (List.suffix_cons _ _)

/-- A class that is closed in front of the ending is read without it. -/
theorem readClassBody_append {ending : List Char} (hending : ']' ∉ ending) {st : ClassState}
    {s left : List Char} {ranges : List (Char × Char)}
    (h : readClassBody st (s ++ ending) = .ok (ranges, left)) :
    ∃ more, left = more ++ ending ∧ readClassBody st s = .ok (ranges, more) := by
  fun_induction readClassBody st s with
  | case1 =>
    exact absurd ((suffix_of_readClassBody h).subset List.mem_cons_self) hending
  | case2 st rest =>
    obtain ⟨rfl, rfl⟩ := Prod.mk.inj (Except.ok.inj h)
    exact ⟨rest, rfl, rfl⟩
  | case3 st rest hawait e he =>
    simp only [List.cons_append, readClassBody, hawait, he, if_true] at h
    cases h
  | case4 st rest hawait st' he ih =>
    simp only [List.cons_append, readClassBody, hawait, he, if_true] at h
    exact ih h
  | case5 st rest hawait ih =>
    simp only [List.cons_append, readClassBody, hawait] at h
    exact ih h
  | case6 st c rest h1 h2 hawait e he =>
    simp only [List.cons_append, readClassBody, hawait, he, if_true] at h
    cases h
  | case7 st c rest h1 h2 hawait st' he ih =>
    simp only [List.cons_append, readClassBody, hawait, he, if_true] at h
    exact ih h
  | case8 st c rest h1 h2 hawait ih =>
    simp only [List.cons_append, readClassBody, if_neg hawait] at h
    exact ih h

/-- The sign that may stand in front of a class: whether it is there, and what follows. -/
def classSign (s : List Char) : Bool × List Char :=
  match s with
  | '!' :: rest => (true, rest)
  | '^' :: rest => (true, rest)
  | _ => (false, s)

/-- A class behind its sign. -/
def readClassItems (negated : Bool) : List Char → Except Fault (Token × List Char)
  | [] => .error .unclosedClass
  | c :: rest => (readClassBody ⟨[(c, c)], false⟩ rest).map fun p => (.charClass negated p.1, p.2)

theorem readClass_eq (s : List Char) :
    readClass s = readClassItems (classSign s).1 (classSign s).2 := by
  fun_cases readClass s with
  | case1 negated hitems =>
    have hsign : classSign s = (negated, []) := hitems
    rw [hsign]
    rfl
  | case2 negated c rest e hread hitems =>
    have hsign : classSign s = (negated, c :: rest) := hitems
    rw [hsign, readClassItems, hread]
    rfl
  | case3 negated c rest ranges left hread hitems =>
    have hsign : classSign s = (negated, c :: rest) := hitems
    rw [hsign, readClassItems, hread]
    rfl

theorem classSign_append (s : List Char) :
    classSign (s ++ subtreeEnding) = ((classSign s).1, (classSign s).2 ++ subtreeEnding) := by
  match s with
  | [] => rfl
  | c :: rest =>
    by_cases hbang : c = '!'
    · subst hbang
      rfl
    by_cases hcaret : c = '^'
    · subst hcaret
      rfl
    have hplain (more : List Char) : classSign (c :: more) = (false, c :: more) := by
      unfold classSign
      split
      · next heq => exact absurd (List.cons.inj heq).1 hbang
      · next heq => exact absurd (List.cons.inj heq).1 hcaret
      · rfl
    rw [List.cons_append, hplain, hplain]
    rfl

theorem suffix_of_readClass {s left : List Char} {t : Token} (h : readClass s = .ok (t, left)) :
    left <:+ s := by
  have hsign : (classSign s).2 <:+ s := by
    fun_cases classSign s with
    | case1 rest => exact List.suffix_cons _ _
    | case2 rest => exact List.suffix_cons _ _
    | case3 => exact List.suffix_rfl
  rw [readClass_eq] at h
  refine List.IsSuffix.trans ?_ hsign
  cases hitems : (classSign s).2 with
  | nil =>
    rw [hitems] at h
    cases h
  | cons c rest =>
    rw [hitems] at h
    obtain ⟨⟨ranges, found⟩, hread, hnew⟩ := map_eq_ok h
    obtain ⟨-, rfl⟩ := Prod.mk.inj hnew
    have hrest : found <:+ rest := (List.suffix_cons _ _).trans (suffix_of_readClassBody hread)
    exact hrest.trans (List.suffix_cons _ _)

/-- A class that is closed in front of the ending is read without it. -/
theorem readClass_append {s left : List Char} {t : Token}
    (h : readClass (s ++ subtreeEnding) = .ok (t, left)) :
    ∃ more, left = more ++ subtreeEnding ∧ readClass s = .ok (t, more) := by
  rw [readClass_eq, classSign_append] at h
  rw [readClass_eq]
  cases hitems : (classSign s).2 with
  | nil =>
    simp only [hitems, List.nil_append, subtreeEnding, readClassItems] at h
    obtain ⟨⟨ranges, found⟩, hread, -⟩ := map_eq_ok h
    have hbracket := (suffix_of_readClassBody hread).subset List.mem_cons_self
    exact absurd hbracket (by decide)
  | cons c rest =>
    simp only [hitems, List.cons_append] at h
    obtain ⟨⟨ranges, found⟩, hread, hnew⟩ := map_eq_ok h
    obtain ⟨rfl, rfl⟩ := Prod.mk.inj hnew
    obtain ⟨more, hmore, hrest⟩ := readClassBody_append (by decide) hread
    exact ⟨more, hmore, by rw [readClassItems, hrest]; rfl⟩

theorem suffix_of_readStars (st : State) (before : Option Char) (s : List Char) :
    (readStars st before s).2 <:+ s := by
  have hone (rest : List Char) : rest <:+ '*' :: rest := List.suffix_cons _ _
  have htwo (rest : List Char) : rest <:+ '*' :: '/' :: rest :=
    (List.suffix_cons _ _).trans (hone _)
  fun_cases readStars st before s with
  | case1 => exact hone []
  | case2 => exact htwo _
  | case3 => exact hone _
  | case4 => exact hone _
  | case5 => exact hone []
  | case6 => exact htwo _
  | case7 => exact hone _
  | case8 => exact hone _
  | case9 => exact List.suffix_rfl

theorem suffix_of_readPiece {st st' : State} {c : Char} {rest left : List Char}
    (h : readPiece st c rest = .ok (st', left)) : left <:+ rest := by
  revert h
  fun_cases readPiece st c rest with
  | case2 =>
    intro h
    have hstars := suffix_of_readStars { st with previous := some c } st.previous rest
    rwa [Except.ok.inj h] at hstars
  | case3 =>
    intro h
    obtain ⟨⟨t, others⟩, hread, hnew⟩ := map_eq_ok h
    obtain ⟨-, rfl⟩ := Prod.mk.inj hnew
    exact suffix_of_readClass hread
  | case5 =>
    intro h
    obtain ⟨closed, -, hnew⟩ := map_eq_ok h
    obtain ⟨-, rfl⟩ := Prod.mk.inj hnew
    exact List.suffix_rfl
  | case7 =>
    intro h
    cases h
  | case8 =>
    intro h
    obtain ⟨-, rfl⟩ := Prod.mk.inj (Except.ok.inj h)
    exact List.suffix_cons _ _
  | _ =>
    intro h
    obtain ⟨-, rfl⟩ := Prod.mk.inj (Except.ok.inj h)
    exact List.suffix_rfl

/-! ## The stars of the ending -/

/-- What `**` absorbs depends on the tokens alone. -/
theorem State.branch_absorb_congr {st other : State} (h : st.branch = other.branch)
    (isLast : Bool) : (st.absorb isLast).branch = (other.absorb isLast).branch := by
  unfold State.absorb
  rw [h]
  split <;> rfl

/-- A `**` that has been read in between, and then the one at the end, are one at the end. -/
theorem State.branch_absorb_absorb (st : State) :
    ((st.absorb false).absorb true).branch = (st.absorb true).branch := by
  cases hbranch : st.branch with
  | nil => simp [State.absorb, hbranch]
  | cons t older => cases t <;> simp [State.absorb, hbranch]

/-- Tokens that end in the `**` at the end of a pattern. -/
theorem isSubtree_absorb {st : State} (hst : st.LeadsFirst) :
    IsSubtree (st.absorb true).branch.reverse := by
  have hbranch := hst.branch
  unfold State.absorb
  split
  · next older heq =>
    rw [heq] at hbranch
    simp [hbranch.1 rfl, IsSubtree]
  · exact .inr ⟨_, List.reverse_cons⟩
  · exact .inr ⟨_, List.reverse_cons⟩
  · exact .inr ⟨_, List.reverse_cons⟩

theorem readPattern_nil (fuel : Nat) (st : State) : readPattern fuel st [] =
    if st.groups.isEmpty then .ok st.branch.reverse else .error .unclosedAlternatives := by
  cases fuel <;> rfl

theorem eq_of_readPattern_nil {fuel : Nat} {st : State} {tokens : List Token}
    (h : readPattern fuel st [] = .ok tokens) : tokens = st.branch.reverse := by
  rw [readPattern_nil] at h
  split at h
  · exact (Except.ok.inj h).symm
  · cases h

theorem readPiece_star (st : State) (rest : List Char) :
    readPiece st '*' rest = .ok (readStars { st with previous := some '*' } st.previous rest) := rfl

/-- The `**` at the end of a pattern, behind a `/`. -/
theorem eq_of_readPattern_stars {fuel : Nat} {st : State} {tokens : List Token}
    (hprevious : st.previous = some '/') (hne : st.branch ≠ []) (hfuel : 0 < fuel)
    (h : readPattern fuel st ['*', '*'] = .ok tokens) :
    tokens = (st.absorb true).branch.reverse := by
  have hempty : st.branch.isEmpty = false := by simpa using hne
  have hread : readStars { st with previous := some '*' } (some '/') ['*'] =
      (({ st with previous := some '*' } : State).absorb true, []) := by
    unfold readStars
    simp [hempty]
  obtain ⟨fuel, rfl⟩ := Nat.exists_eq_add_of_lt hfuel
  rw [Nat.zero_add, readPattern_cons, readPiece_star, hprevious, hread] at h
  rw [eq_of_readPattern_nil h]
  exact congrArg _ (@State.branch_absorb_congr { st with previous := some '*' } st rfl true)

/-! ## Reading with the ending and without it -/

/-- How a piece is read that begins in front of the ending: `without` is what it is without the
ending. -/
inductive ReadsBeside (without : Except Fault (State × List Char)) (st : State) :
    List Char → Prop where
  /-- The same piece, and the ending is left. -/
  | apart {more : List Char} (h : without = .ok (st, more)) :
      ReadsBeside without st (more ++ subtreeEnding)
  /-- The `/` of the ending is escaped. -/
  | escape {e : Fault} (hprevious : st.previous = some '/') (hne : st.branch ≠ [])
      (h : without = .error e) : ReadsBeside without st ['*', '*']
  /-- The `/` of the ending belongs to a `**` in front of it, which is the last one without it. -/
  | stars {other : State} (hprevious : st.previous = some '/') (hne : st.branch ≠ [])
      (hbranch : other.branch = (st.absorb true).branch) (h : without = .ok (other, [])) :
      ReadsBeside without st ['*', '*']

theorem absorb_branch_ne_nil (st : State) (isLast : Bool) : (st.absorb isLast).branch ≠ [] := by
  unfold State.absorb
  split <;> simp

theorem previous_absorb (st : State) (isLast : Bool) :
    (st.absorb isLast).previous = st.previous := by
  unfold State.absorb
  split <;> rfl

/-- Two stars with a character behind them: what they are read as depends on that character
alone. -/
theorem exists_readStars_eq (st : State) (before : Option Char) (d : Char) :
    ∃ piece front, ∀ more, readStars st before ('*' :: d :: more) = (piece, front ++ more) := by
  unfold readStars
  dsimp only
  by_cases hempty : st.branch.isEmpty = true
  · simp only [if_pos hempty]
    by_cases hslash : d = '/'
    · subst hslash
      exact ⟨_, [], fun more => rfl⟩
    · refine ⟨(st.push .star).push .star, [d], fun more => ?_⟩
      split
      · next heq => cases heq
      · next heq => exact absurd (List.cons.inj heq).1 hslash
      · rfl
  simp only [if_neg hempty]
  split
  · exact ⟨_, [d], fun more => rfl⟩
  by_cases hslash : d = '/'
  · subst hslash
    exact ⟨_, [], fun more => rfl⟩
  by_cases hclose : (d = ',' ∨ d = '\x7d') ∧ ¬st.groups.isEmpty
  · refine ⟨st.absorb true, [d], fun more => ?_⟩
    split
    · next heq => cases heq
    · next heq => exact absurd (List.cons.inj heq).1 hslash
    · next heq =>
      obtain ⟨rfl, rfl⟩ := List.cons.inj heq
      rw [if_pos hclose]
      rfl
  · refine ⟨(st.push .star).push .star, [d], fun more => ?_⟩
    split
    · next heq => cases heq
    · next heq => exact absurd (List.cons.inj heq).1 hslash
    · next heq =>
      obtain ⟨rfl, rfl⟩ := List.cons.inj heq
      rw [if_neg hclose]
      rfl

theorem readStars_of_head?_ne {s : List Char} (h : s.head? ≠ some '*') (st : State)
    (before : Option Char) : readStars st before s = (st.push .star, s) := by
  unfold readStars
  split
  · exact absurd rfl h
  · rfl

/-- Two stars at the end of what stands in front of the ending. -/
theorem readStars_star_append (st : State) (before : Option Char) :
    ReadsBeside (.ok (readStars st before ['*']))
      (readStars st before ('*' :: subtreeEnding)).1
      (readStars st before ('*' :: subtreeEnding)).2 := by
  unfold readStars subtreeEnding
  by_cases hempty : st.branch.isEmpty = true
  · have hbranch : st.branch = [] := List.isEmpty_iff.mp hempty
    simp only [if_pos hempty]
    refine .stars rfl (by simp [State.push]) ?_ rfl
    simp [State.push, State.absorb, hbranch]
  simp only [if_neg hempty]
  split
  · exact .apart rfl
  · refine .stars (previous_absorb _ _) (absorb_branch_ne_nil _ _) ?_ rfl
    rw [State.branch_absorb_absorb]
    exact @State.branch_absorb_congr st { st with previous := some '/' } rfl true

theorem readStars_append (st : State) (before : Option Char) (s : List Char) :
    ReadsBeside (.ok (readStars st before s)) (readStars st before (s ++ subtreeEnding)).1
      (readStars st before (s ++ subtreeEnding)).2 := by
  match s with
  | [] => exact .apart rfl
  | c :: rest =>
    by_cases hc : c = '*'
    · subst hc
      cases rest with
      | nil => exact readStars_star_append st before
      | cons d rest =>
        obtain ⟨piece, front, hread⟩ := exists_readStars_eq st before d
        rw [List.cons_append, List.cons_append, hread, hread, ← List.append_assoc]
        exact .apart rfl
    · have hhead (more : List Char) : (c :: more).head? ≠ some '*' := by simpa using hc
      rw [List.cons_append, readStars_of_head?_ne (hhead _), readStars_of_head?_ne (hhead _)]
      exact .apart rfl

theorem readPiece_class (st : State) (rest : List Char) : readPiece st '[' rest =
    (readClass rest).map fun p => (({ st with previous := some ']' } : State).push p.1, p.2) := rfl

/-- A character other than `*`, `[` and a backslash is a piece by itself. -/
theorem exists_readPiece_eq {c : Char} (hstar : c ≠ '*') (hclass : c ≠ '[') (hescape : c ≠ '\\')
    (st : State) : ∃ found : Except Fault State, ∀ rest,
      readPiece st c rest = found.map fun st' => (st', rest) := by
  simp only [readPiece, if_neg hstar, if_neg hclass, if_neg hescape]
  by_cases hquestion : c = '?'
  · simp only [if_pos hquestion]
    exact ⟨.ok _, fun _ => rfl⟩
  by_cases hopen : c = '\x7b'
  · simp only [if_neg hquestion, if_pos hopen]
    exact ⟨.ok _, fun _ => rfl⟩
  by_cases hclose : c = '\x7d'
  · simp only [if_neg hquestion, if_neg hopen, if_pos hclose]
    exact ⟨_, fun _ => rfl⟩
  by_cases hcomma : c = ','
  · simp only [if_neg hquestion, if_neg hopen, if_neg hclose, if_pos hcomma]
    exact ⟨.ok _, fun _ => rfl⟩
  · simp only [if_neg hquestion, if_neg hopen, if_neg hclose, if_neg hcomma]
    exact ⟨.ok _, fun _ => rfl⟩

theorem readPiece_append {st st' : State} {c : Char} {rest left : List Char}
    (h : readPiece st c (rest ++ subtreeEnding) = .ok (st', left)) :
    ReadsBeside (readPiece st c rest) st' left := by
  by_cases hstar : c = '*'
  · subst hstar
    have hread := readStars_append { st with previous := some '*' } st.previous rest
    rw [readPiece_star] at h ⊢
    rwa [Except.ok.inj h] at hread
  by_cases hclass : c = '['
  · subst hclass
    rw [readPiece_class] at h ⊢
    obtain ⟨⟨t, others⟩, hread, hnew⟩ := map_eq_ok h
    obtain ⟨rfl, rfl⟩ := Prod.mk.inj hnew
    obtain ⟨more, rfl, hmore⟩ := readClass_append hread
    rw [hmore]
    exact .apart rfl
  by_cases hescape : c = '\\'
  · subst hescape
    cases rest with
    | nil =>
      obtain ⟨rfl, rfl⟩ := Prod.mk.inj (Except.ok.inj h)
      exact .escape rfl (by simp [State.push]) rfl
    | cons d rest =>
      obtain ⟨rfl, rfl⟩ := Prod.mk.inj (Except.ok.inj h)
      exact .apart rfl
  obtain ⟨found, hread⟩ := exists_readPiece_eq hstar hclass hescape st
  rw [hread] at h ⊢
  obtain ⟨state, rfl, hnew⟩ := map_eq_ok h
  obtain ⟨rfl, rfl⟩ := Prod.mk.inj hnew
  exact .apart rfl

theorem piece_of_readPattern_cons {fuel : Nat} {st : State} {c : Char} {rest : List Char}
    {tokens : List Token} (hfuel : 0 < fuel) (h : readPattern fuel st (c :: rest) = .ok tokens) :
    ∃ st' left, readPiece st c rest = .ok (st', left) ∧
      readPattern (fuel - 1) st' left = .ok tokens := by
  obtain ⟨fuel, rfl⟩ := Nat.exists_eq_add_of_lt hfuel
  rw [Nat.zero_add, readPattern_cons] at h
  obtain ⟨⟨st', left⟩, hpiece, hrest⟩ := bind_eq_ok h
  exact ⟨st', left, hpiece, by rwa [Nat.zero_add, Nat.add_sub_cancel]⟩

/-- Reading a pattern that ends in `/**`: the tokens end in a subtree, and in front of it they are
those of the text in front of the ending, where that is a pattern. -/
theorem readPattern_append_ending {fuel : Nat} {st : State} {s : List Char} {tokens : List Token}
    (hst : st.LeadsFirst) (hfuel : s.length + 3 ≤ fuel)
    (h : readPattern fuel st (s ++ subtreeEnding) = .ok tokens) :
    IsSubtree tokens ∧ ∀ fuel' front, s.length ≤ fuel' → readPattern fuel' st s = .ok front →
      tokens = front ∨ tokens = front ++ [.trailingDirs] := by
  induction fuel generalizing st s with
  | zero => omega
  | succ fuel ih =>
    cases s with
    | nil =>
      have hstars := @eq_of_readPattern_stars fuel
        (({ st with previous := some '/' } : State).push (.literal '/')) tokens rfl
        (by simp [State.push]) (by omega) h
      have htokens : tokens = st.branch.reverse ++ [.trailingDirs] := by
        rw [hstars]
        exact List.reverse_cons
      refine ⟨.inr ⟨_, htokens⟩, fun fuel' front _ hread => .inr ?_⟩
      rw [htokens, eq_of_readPattern_nil hread]
    | cons c rest =>
      rw [List.length_cons] at hfuel ⊢
      obtain ⟨st', left, hpiece, hrest⟩ := piece_of_readPattern_cons (Nat.succ_pos fuel) h
      rw [Nat.succ_sub_one] at hrest
      have hst' := leadsFirst_readPiece hst hpiece
      cases readPiece_append hpiece with
      | @apart more hwithout =>
        have hlength := (suffix_of_readPiece hwithout).length_le
        obtain ⟨hsubtree, hfront⟩ := ih hst' (by omega) hrest
        refine ⟨hsubtree, fun fuel' front hfuel' hread => ?_⟩
        obtain ⟨st₁, left₁, hpiece₁, hread₁⟩ := piece_of_readPattern_cons (by omega) hread
        obtain ⟨rfl, rfl⟩ := Prod.mk.inj (Except.ok.inj (hwithout.symm.trans hpiece₁))
        exact hfront _ front (by omega) hread₁
      | escape hprevious hne hwithout =>
        rw [eq_of_readPattern_stars hprevious hne (by omega) hrest]
        refine ⟨isSubtree_absorb hst', fun fuel' front hfuel' hread => ?_⟩
        obtain ⟨_, _, hpiece₁, -⟩ := piece_of_readPattern_cons (by omega) hread
        cases hwithout.symm.trans hpiece₁
      | stars hprevious hne hbranch hwithout =>
        rw [eq_of_readPattern_stars hprevious hne (by omega) hrest]
        refine ⟨isSubtree_absorb hst', fun fuel' front hfuel' hread => .inl ?_⟩
        obtain ⟨st₁, left₁, hpiece₁, hread₁⟩ := piece_of_readPattern_cons (by omega) hread
        obtain ⟨rfl, rfl⟩ := Prod.mk.inj (Except.ok.inj (hwithout.symm.trans hpiece₁))
        rw [eq_of_readPattern_nil hread₁, hbranch]

end ProjectLayout.Glob
