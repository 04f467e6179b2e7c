import ProjectLayout.Proofs.Glob.Bytes
import ProjectLayout.Proofs.Glob.Language
import ProjectLayout.Proofs.Outcome

/-!
# Weights of tokens

Tokens match no more bytes than they weigh, unless there is a place where the match can be
stretched.  A pattern weighs no more than its text, and less if it has a character in it that spans
nothing.

* `weight` — how many bytes tokens match where nothing stretches; `stretches_of_spans`.
* `spansNothing` — the characters that make tokens lighter than their text.
* `weight_readPattern_le` — the weight of what has been read of a text.
-/

namespace ProjectLayout.Glob

/-! ## Weights -/

mutual

/-- How many bytes a token matches, if it is not stretched. -/
def Token.weight : Token → Nat
  | .literal c => c.utf8Size
  | .anyByte => 1
  | .charClass _ _ => 1
  | .alternatives branches => weightAny branches
  | _ => 0

/-- How many bytes tokens match, if none is stretched. -/
def weight : List Token → Nat
  | [] => 0
  | t :: more => t.weight + weight more

/-- The weight of all branches together. -/
def weightAny : List (List Token) → Nat
  | [] => 0
  | branch :: more => weight branch + weightAny more

end

theorem weight_append (tokens more : List Token) :
    weight (tokens ++ more) = weight tokens + weight more := by
  induction tokens with
  | nil => simp [weight]
  | cons t tokens ih => simp only [List.cons_append, weight, ih, Nat.add_assoc]

theorem weight_reverse (tokens : List Token) : weight tokens.reverse = weight tokens := by
  induction tokens with
  | nil => rfl
  | cons t tokens ih =>
    rw [List.reverse_cons, weight_append, ih, weight, weight, weight]
    omega

theorem weightAny_append (branches more : List (List Token)) :
    weightAny (branches ++ more) = weightAny branches + weightAny more := by
  induction branches with
  | nil => simp [weightAny]
  | cons branch branches ih => simp only [List.cons_append, weightAny, ih, Nat.add_assoc]

theorem weightAny_reverse (branches : List (List Token)) :
    weightAny branches.reverse = weightAny branches := by
  induction branches with
  | nil => rfl
  | cons branch branches ih =>
    rw [List.reverse_cons, weightAny_append, ih, weightAny, weightAny, weightAny]
    omega

theorem weightAny_filter_le (p : List Token → Bool) (branches : List (List Token)) :
    weightAny (branches.filter p) ≤ weightAny branches := by
  induction branches with
  | nil => exact Nat.le_refl _
  | cons branch branches ih =>
    rw [List.filter_cons]
    split <;> simp only [weightAny] <;> omega

/-! ## Stretching -/

/-- Whether bytes of a set can be cut in two, and all that has no `/` in it fits in between. -/
def Stretches (set : List UInt8 → Prop) (w : List UInt8) : Prop :=
  ∃ u v, w = u ++ v ∧ ∀ x, slash ∉ x → set (u ++ x ++ v)

theorem Stretches.imp {first second : List UInt8 → Prop} {w : List UInt8} (h : Stretches first w)
    (himp : ∀ w, first w → second w) : Stretches second w := by
  obtain ⟨u, v, hw, hall⟩ := h
  exact ⟨u, v, hw, fun x hx => himp _ (hall x hx)⟩

mutual

/-- What a token spans without a `/` is no longer than its weight or can be stretched. -/
theorem Token.stretches_of_spans : ∀ {t : Token} {w : List UInt8}, t.Spans w → slash ∉ w →
    Stretches t.Spans w ∨ w.length ≤ t.weight
  | .literal c, w, h, _ => by
    simp only [Token.Spans] at h
    exact .inr (Nat.le_of_eq (by rw [h, String.length_utf8EncodeChar, Token.weight]))
  | .anyByte, w, h, _ => by
    simp only [Token.Spans] at h
    obtain ⟨b, rfl, -⟩ := h
    exact .inr (Nat.le_refl _)
  | .charClass _ _, w, h, _ => by
    simp only [Token.Spans] at h
    obtain ⟨b, rfl, -⟩ := h
    exact .inr (Nat.le_refl _)
  | .star, w, _, hs => by
    refine .inl ⟨[], w, rfl, fun x hx => ?_⟩
    simp [Token.Spans, hx, hs]
  | .leadingDirs, w, h, hs => by
    simp only [Token.Spans] at h
    rcases h with rfl | ⟨v, rfl⟩
    · exact .inr (Nat.le_refl _)
    · exact absurd (by simp) hs
  | .trailingDirs, w, h, hs => by
    simp only [Token.Spans] at h
    obtain ⟨v, rfl⟩ := h
    exact absurd (by simp) hs
  | .middleDirs, w, h, hs => by
    simp only [Token.Spans] at h
    rcases h with rfl | ⟨v, rfl⟩
    · exact absurd (by simp) hs
    · exact absurd (by simp) hs
  | .alternatives [], w, h, _ => by
    simp only [Token.Spans] at h
    exact .inr (by rw [h]; exact Nat.zero_le _)
  | .alternatives (branch :: more), w, h, hs => by
    simp only [Token.Spans] at h
    rw [Token.weight]
    refine (stretches_of_spansAny h hs).imp_left fun hw => hw.imp fun w hw => ?_
    simpa only [Token.Spans] using hw

theorem stretches_of_spans : ∀ {tokens : List Token} {w : List UInt8}, Spans tokens w → slash ∉ w →
    Stretches (Spans tokens) w ∨ w.length ≤ weight tokens
  | [], w, h, _ => .inr (by rw [h]; exact Nat.le_refl _)
  | t :: more, w, h, hs => by
    obtain ⟨u, v, rfl, hu, hv⟩ := h
    simp only [List.mem_append, not_or] at hs
    rcases Token.stretches_of_spans hu hs.1 with ⟨a, b, rfl, hall⟩ | hlen
    · refine .inl ⟨a, b ++ v, by simp, fun x hx => ?_⟩
      exact ⟨a ++ x ++ b, v, by simp, hall x hx, hv⟩
    rcases stretches_of_spans hv hs.2 with ⟨a, b, rfl, hall⟩ | hlen'
    · refine .inl ⟨u ++ a, b, by simp, fun x hx => ?_⟩
      exact ⟨u, a ++ x ++ b, by simp, hu, hall x hx⟩
    · rw [weight, List.length_append]
      exact .inr (Nat.add_le_add hlen hlen')

theorem stretches_of_spansAny : ∀ {branches : List (List Token)} {w : List UInt8},
    SpansAny branches w → slash ∉ w →
    Stretches (SpansAny branches) w ∨ w.length ≤ weightAny branches
  | [], w, h, _ => False.elim h
  | branch :: more, w, .inl h, hs => by
    rw [weightAny]
    rcases stretches_of_spans h hs with hw | hlen
    · exact .inl (hw.imp fun _ => .inl)
    · exact .inr (by omega)
  | branch :: more, w, .inr h, hs => by
    rw [weightAny]
    rcases stretches_of_spansAny h hs with hw | hlen
    · exact .inl (hw.imp fun _ => .inr)
    · exact .inr (by omega)

end

/-! ## Weights of what is read -/

/-- Whether a character is special in a pattern and spans nothing itself. -/
def spansNothing (c : Char) : Bool :=
  c == '*' || c == '[' || c == '\x7b' || c == '\x7d' || c == '\\'

/-- The weight of the open groups and of what is before them. -/
def weightGroups : List (List (List Token) × List Token) → Nat
  | [] => 0
  | (finished, before) :: outer => weightAny finished + weight before + weightGroups outer

/-- The weight of all tokens that have been read. -/
def State.weight (st : State) : Nat := Glob.weight st.branch + weightGroups st.groups

theorem length_utf8Bytes_cons (c : Char) (s : List Char) :
    (utf8Bytes (c :: s)).length = c.utf8Size + (utf8Bytes s).length := by
  rw [utf8Bytes_cons, List.length_append, String.length_utf8EncodeChar]

theorem State.weight_push (st : State) (t : Token) :
    (st.push t).weight = st.weight + t.weight := by
  simp only [State.weight, State.push, Glob.weight]
  omega

theorem State.weight_absorb_le (st : State) (isLast : Bool) :
    (st.absorb isLast).weight ≤ st.weight := by
  unfold State.absorb
  split
  all_goals
    next hbranch =>
    cases isLast <;> simp only [State.weight, Glob.weight, Token.weight, hbranch, if_true,
      Bool.false_eq_true, if_false] <;> omega

theorem length_utf8Bytes_lt_cons (c : Char) (s : List Char) :
    (utf8Bytes s).length < (utf8Bytes (c :: s)).length := by
  rw [length_utf8Bytes_cons]
  exact Nat.lt_add_of_pos_left c.utf8Size_pos

/-- Stars weigh nothing. -/
theorem weight_readStars_le (st : State) (before : Option Char) (s : List Char) :
    (readStars st before s).1.weight ≤ st.weight ∧
      (utf8Bytes (readStars st before s).2).length ≤ (utf8Bytes s).length := by
  have hdirs : (st.push .leadingDirs).weight ≤ st.weight := by
    rw [State.weight_push]
    exact Nat.le_refl _
  have hstars : ((st.push .star).push .star).weight ≤ st.weight := by
    rw [State.weight_push, State.weight_push]
    exact Nat.le_refl _
  have hone (s : List Char) : (utf8Bytes s).length ≤ (utf8Bytes ('*' :: s)).length :=
    Nat.le_of_lt (length_utf8Bytes_lt_cons _ s)
  have htwo (s : List Char) : (utf8Bytes s).length ≤ (utf8Bytes ('*' :: '/' :: s)).length :=
    Nat.le_trans (Nat.le_of_lt (length_utf8Bytes_lt_cons _ s)) (hone _)
  fun_cases readStars st before s with
  | case1 => exact ⟨hdirs, hone []⟩
  | case2 => exact ⟨hdirs, htwo _⟩
  | case3 => exact ⟨hstars, hone _⟩
  | case4 => exact ⟨hstars, hone _⟩
  | case5 => exact ⟨st.weight_absorb_le true, hone []⟩
  | case6 => exact ⟨State.weight_absorb_le { st with previous := some '/' } false, htwo _⟩
  | case7 => exact ⟨st.weight_absorb_le true, hone _⟩
  | case8 => exact ⟨hstars, hone _⟩
  | case9 =>
    rw [State.weight_push]
    exact ⟨Nat.le_refl _, Nat.le_refl _⟩

/-- A class takes at least its `]` from the text. -/
theorem length_readClassBody_lt {st : ClassState} {s left : List Char}
    {ranges : List (Char × Char)} (h : readClassBody st s = .ok (ranges, left)) :
    (utf8Bytes left).length < (utf8Bytes s).length := by
  fun_induction readClassBody st s with
  | case1 => simp at h
  | case2 _ rest =>
    simp only [Except.ok.injEq, Prod.mk.injEq] at h
    rw [← h.2]
    exact length_utf8Bytes_lt_cons ']' rest
  | case3 => simp at h
  | case4 _ _ _ _ _ ih => exact Nat.lt_trans (ih h) (length_utf8Bytes_lt_cons _ _)
  | case5 _ _ _ ih => exact Nat.lt_trans (ih h) (length_utf8Bytes_lt_cons _ _)
  | case6 => simp at h
  | case7 _ _ _ _ _ _ _ _ ih => exact Nat.lt_trans (ih h) (length_utf8Bytes_lt_cons _ _)
  | case8 _ _ _ _ _ _ ih => exact Nat.lt_trans (ih h) (length_utf8Bytes_lt_cons _ _)

/-- A class weighs one byte, and its text is longer than that. -/
theorem weight_readClass {s left : List Char} {t : Token} (h : readClass s = .ok (t, left)) :
    t.weight = 1 ∧ (utf8Bytes left).length + 1 < (utf8Bytes s).length := by
  fun_cases readClass s with
  | case1 negated hs =>
    simp only [readClass, hs] at h
    simp at h
  | case2 negated c rest e hread hs =>
    simp only [readClass, hs, hread] at h
    simp at h
  | case3 negated c rest ranges found hread hs =>
    simp only [readClass, hs, hread, Except.ok.injEq, Prod.mk.injEq] at h
    obtain ⟨rfl, rfl⟩ := h
    have hlt := length_readClassBody_lt hread
    have hcons := length_utf8Bytes_lt_cons c rest
    have hle : (utf8Bytes (c :: rest)).length ≤ (utf8Bytes s).length := by
      split at hs <;> obtain ⟨rfl, rfl⟩ := Prod.mk.inj hs
      · exact Nat.le_of_lt (length_utf8Bytes_lt_cons _ _)
      · exact Nat.le_of_lt (length_utf8Bytes_lt_cons _ _)
      · exact Nat.le_refl _
    exact ⟨rfl, by omega⟩

theorem State.weight_closeGroup_le {st st' : State} (h : st.closeGroup = .ok st') :
    st'.weight ≤ st.weight := by
  unfold closeGroup at h
  split at h
  · simp at h
  · next finished before outer hgroups =>
    rw [← Except.ok.inj h]
    have hle := weightAny_filter_le (·.any Token.isEffective)
      (st.branch.reverse :: finished).reverse
    rw [weightAny_reverse, weightAny, weight_reverse] at hle
    simp only [State.weight, hgroups, Glob.weight, Token.weight, weightGroups]
    omega

theorem State.weight_comma_le (st : State) : st.comma.weight ≤ st.weight + 1 := by
  unfold comma
  split
  · rw [State.weight_push]
    exact Nat.le_refl _
  · next finished before outer hgroups =>
    simp only [State.weight, hgroups, Glob.weight, weightAny, weightGroups, weight_reverse]
    omega

/-! ## One piece at a time -/

/-- The state and the text left after one piece of a pattern that begins with the character `c`. -/
def readPiece (st : State) (c : Char) (rest : List Char) : Except Fault (State × List Char) :=
  if c = '?' then .ok (({ st with previous := some c } : State).push .anyByte, rest)
  else if c = '*' then .ok (readStars { st with previous := some c } st.previous rest)
  else if c = '[' then
    (readClass rest).map fun p => (({ st with previous := some ']' } : State).push p.1, p.2)
  else if c = '\x7b' then
    .ok ({ st with branch := [], groups := ([], st.branch) :: st.groups, previous := some c }, rest)
  else if c = '\x7d' then
    (({ st with previous := some c } : State).closeGroup).map fun st' => (st', rest)
  else if c = ',' then .ok (({ st with previous := some c } : State).comma, rest)
  else if c = '\\' then
    match rest with
    | [] => .error .danglingEscape
    | d :: left => .ok (({ st with previous := some d } : State).push (.literal d), left)
  else .ok (({ st with previous := some c } : State).push (.literal c), rest)

/-- A pattern is read piece by piece. -/
theorem readPattern_cons (fuel : Nat) (st : State) (c : Char) (rest : List Char) :
    readPattern (fuel + 1) st (c :: rest) =
      (readPiece st c rest).bind fun p => readPattern fuel p.1 p.2 := by
  have hite (p : Prop) [Decidable p] (a b : Except Fault (State × List Char)) :
      (if p then a else b).bind (fun q => readPattern fuel q.1 q.2) =
        if p then a.bind fun q => readPattern fuel q.1 q.2
        else b.bind fun q => readPattern fuel q.1 q.2 :=
    apply_ite (fun x : Except Fault (State × List Char) => x.bind _) p a b
  simp only [readPattern, readPiece, hite]
  cases readClass rest <;> cases State.closeGroup { st with previous := some c } <;>
    cases rest <;> rfl

/-- What has been read weighs no more than the text that it was read from, and less if that text
begins with a character that spans nothing. -/
theorem weight_readPiece_le {st st' : State} {c : Char} {rest left : List Char}
    (h : readPiece st c rest = .ok (st', left)) :
    st'.weight + (utf8Bytes left).length < st.weight + (utf8Bytes (c :: rest)).length ∨
      spansNothing c = false ∧ left = rest ∧
        st'.weight + (utf8Bytes left).length ≤ st.weight + (utf8Bytes (c :: rest)).length := by
  have hbytes := length_utf8Bytes_cons c rest
  have hpos := c.utf8Size_pos
  have hst (previous : Option Char) : State.weight { st with previous } = st.weight := rfl
  revert h
  fun_cases readPiece st c rest with
  | case1 _ hquestion =>
    intro h
    obtain ⟨rfl, rfl⟩ := Prod.mk.inj (Except.ok.inj h)
    refine .inr ⟨by rw [hquestion]; decide, rfl, ?_⟩
    rw [State.weight_push, hst, Token.weight]
    omega
  | case2 =>
    intro h
    have hle := weight_readStars_le { st with previous := some c } st.previous rest
    simp only [Except.ok.inj h, hst] at hle
    exact .inl (by omega)
  | case3 =>
    intro h
    obtain ⟨⟨t, others⟩, hread, hnew⟩ := map_eq_ok h
    simp only [Prod.mk.injEq] at hnew
    obtain ⟨rfl, rfl⟩ := hnew
    obtain ⟨ht, hlt⟩ := weight_readClass hread
    refine .inl ?_
    rw [State.weight_push, hst, ht]
    omega
  | case4 =>
    intro h
    obtain ⟨rfl, rfl⟩ := Prod.mk.inj (Except.ok.inj h)
    refine .inl ?_
    simp only [State.weight, Glob.weight, weightAny, weightGroups]
    omega
  | case5 =>
    intro h
    obtain ⟨closed, hclosed, hnew⟩ := map_eq_ok h
    obtain ⟨rfl, rfl⟩ := Prod.mk.inj hnew
    have hle := State.weight_closeGroup_le hclosed
    rw [hst] at hle
    exact .inl (by omega)
  | case6 _ _ _ _ _ _ hcomma =>
    intro h
    obtain ⟨rfl, rfl⟩ := Prod.mk.inj (Except.ok.inj h)
    have hle := State.weight_comma_le { st with previous := some c }
    rw [hst] at hle
    exact .inr ⟨by rw [hcomma]; decide, rfl, by omega⟩
  | case7 =>
    intro h
    simp at h
  | case8 =>
    intro h
    obtain ⟨rfl, rfl⟩ := Prod.mk.inj (Except.ok.inj h)
    refine .inl ?_
    rw [State.weight_push, hst, Token.weight, hbytes, length_utf8Bytes_cons]
    omega
  | case9 _ _ hstar hclass hopen hclose _ hescape =>
    intro h
    obtain ⟨rfl, rfl⟩ := Prod.mk.inj (Except.ok.inj h)
    refine .inr ⟨by simp [spansNothing, hstar, hclass, hopen, hclose, hescape], rfl, ?_⟩
    rw [State.weight_push, hst, Token.weight]
    omega

theorem weight_le_of_done {st : State} {tokens : List Token}
    (h : (if st.groups.isEmpty then .ok st.branch.reverse else .error .unclosedAlternatives :
      Except Fault (List Token)) = .ok tokens) : weight tokens ≤ st.weight := by
  split at h
  · rw [← Except.ok.inj h, weight_reverse, State.weight]
    exact Nat.le_add_right _ _
  · simp at h

theorem weight_readPattern_le {fuel : Nat} {st : State} {s : List Char} {tokens : List Token}
    (h : readPattern fuel st s = .ok tokens) :
    weight tokens ≤ st.weight + (utf8Bytes s).length ∧
      (s.any spansNothing = true → weight tokens < st.weight + (utf8Bytes s).length) := by
  induction fuel generalizing st s with
  | zero =>
    have hle := weight_le_of_done h
    cases s with
    | nil => exact ⟨hle, fun hs => by simp at hs⟩
    | cons c rest =>
      have hlonger := length_utf8Bytes_lt_cons c rest
      exact ⟨by omega, fun _ => by omega⟩
  | succ fuel ih =>
    cases s with
    | nil => exact ⟨weight_le_of_done h, fun hs => by simp at hs⟩
    | cons c rest =>
      rw [readPattern_cons] at h
      obtain ⟨⟨st', left⟩, hpiece, hrest⟩ := bind_eq_ok h
      replace hrest : readPattern fuel st' left = .ok tokens := hrest
      rcases weight_readPiece_le hpiece with hlt | ⟨hc, rfl, hle⟩
      · have hleft := (ih hrest).1
        exact ⟨by omega, fun _ => by omega⟩
      · obtain ⟨hleft, hstrict⟩ := ih hrest
        refine ⟨by omega, fun hs => ?_⟩
        rw [List.any_cons, hc, Bool.false_or] at hs
        have hless := hstrict hs
        omega

end ProjectLayout.Glob
