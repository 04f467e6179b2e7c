import ProjectLayout.Proofs.Disk.Tree
import ProjectLayout.Proofs.Glob.Weight

/-!
# Patterns that match one name

A text without special characters is a pattern for itself.  Every other pattern does not compile,
does not match its own text, or matches another name besides.

* `isSpecial` — the characters that mean something to a glob.
* `matches_iff_eq_of_not_special` — a text without them matches no name but itself.
* `exists_other_match` — a text with one of them that matches itself matches another name too.
-/

namespace ProjectLayout.Glob

open Disk (IsEntryName isEntryName_of_mem)

/-! ## Literal names -/

/-- Whether a character means something to a glob. -/
def isSpecial (c : Char) : Bool := c == '?' || spansNothing c

/-- The token of a character that spans something itself. -/
def tokenOf (c : Char) : Token := if c = '?' then .anyByte else .literal c

theorem State.comma_of_groups_eq_nil (st : State) (h : st.groups = []) :
    st.comma = st.push (.literal ',') := by
  unfold comma
  rw [h]

/-- Outside of groups a character that spans something is a token by itself. -/
theorem readPiece_eq_push {st : State} {c : Char} {rest : List Char} (hst : st.groups = [])
    (hc : spansNothing c = false) :
    readPiece st c rest =
      .ok (({ st with previous := some c } : State).push (tokenOf c), rest) := by
  simp only [spansNothing, Bool.or_eq_false_iff, beq_eq_false_iff_ne] at hc
  obtain ⟨⟨⟨⟨hstar, hclass⟩, hopen⟩, hclose⟩, hescape⟩ := hc
  simp only [readPiece, if_neg hstar, if_neg hclass, if_neg hopen, if_neg hclose, if_neg hescape]
  by_cases hquestion : c = '?'
  · rw [if_pos hquestion, tokenOf, if_pos hquestion]
  rw [if_neg hquestion, tokenOf, if_neg hquestion]
  by_cases hcomma : c = ','
  · rw [if_pos hcomma, State.comma_of_groups_eq_nil { st with previous := some c } hst, hcomma]
  · rw [if_neg hcomma]

theorem readPattern_eq_map {fuel : Nat} {st : State} {s : List Char} (hfuel : s.length ≤ fuel)
    (hst : st.groups = []) (hs : s.any spansNothing = false) :
    readPattern fuel st s = .ok (st.branch.reverse ++ s.map tokenOf) := by
  induction fuel generalizing st s with
  | zero =>
    rw [List.length_eq_zero_iff.mp (Nat.le_zero.mp hfuel)]
    simp [readPattern, hst]
  | succ fuel ih =>
    cases s with
    | nil => simp [readPattern, hst]
    | cons c rest =>
      rw [List.any_cons, Bool.or_eq_false_iff] at hs
      have hgroups : (({ st with previous := some c } : State).push (tokenOf c)).groups = [] := hst
      rw [readPattern_cons, readPiece_eq_push hst hs.1, Except.bind,
        ih (Nat.le_of_succ_le_succ hfuel) hgroups hs.2]
      simp [State.push]

theorem parse_eq_map {p : String} (h : p.toList.any spansNothing = false) :
    parse p = .ok (p.toList.map tokenOf) :=
  readPattern_eq_map (Nat.le_of_eq String.length_toList) rfl h

/-- Characters other than `?` span their own bytes and nothing else. -/
theorem spans_map_tokenOf {s : List Char} (h : '?' ∉ s) {w : List UInt8} :
    Spans (s.map tokenOf) w ↔ w = utf8Bytes s := by
  induction s generalizing w with
  | nil => rfl
  | cons c s ih =>
    simp only [List.mem_cons, not_or] at h
    rw [List.map_cons, Spans, tokenOf, if_neg (Ne.symm h.1), utf8Bytes_cons]
    constructor
    · rintro ⟨u, v, rfl, hu, hv⟩
      rw [Token.Spans] at hu
      rw [hu, (ih h.2).mp hv]
    · rintro rfl
      exact ⟨_, _, rfl, by rw [Token.Spans], (ih h.2).mpr rfl⟩

/-- A text with a letter for each `?`. -/
def fillMarks (s : List Char) : List Char := s.map fun c => if c = '?' then 'a' else c

theorem spans_fillMarks (s : List Char) : Spans (s.map tokenOf) (utf8Bytes (fillMarks s)) := by
  induction s with
  | nil => rfl
  | cons c s ih =>
    rw [fillMarks, List.map_cons, List.map_cons, utf8Bytes_cons]
    refine ⟨_, _, rfl, ?_, ih⟩
    by_cases hc : c = '?'
    · rw [tokenOf, if_pos hc, if_pos hc, Token.Spans]
      exact ⟨0x61, by decide, by decide⟩
    · rw [tokenOf, if_neg hc, if_neg hc, Token.Spans]

theorem mem_fillMarks {s : List Char} (h : '?' ∈ s) : 'a' ∈ fillMarks s :=
  List.mem_map.mpr ⟨'?', h, rfl⟩

theorem eq_of_mem_fillMarks {s : List Char} {c : Char} (h : c ∈ fillMarks s) :
    c = 'a' ∨ c ∈ s ∧ c ≠ '?' := by
  obtain ⟨d, hd, hc⟩ := List.mem_map.mp h
  split at hc
  · exact .inl hc.symm
  · next hne => exact .inr ⟨hc ▸ hd, hc ▸ hne⟩

/-! ## Longer names -/

/-- A cut through the bytes of a text goes through one of its characters. -/
theorem exists_cut_char {s : List Char} {u v : List UInt8} (hne : s ≠ [])
    (h : utf8Bytes s = u ++ v) :
    ∃ front c back a b, s = front ++ c :: back ∧ String.utf8EncodeChar c = a ++ b ∧
      u = utf8Bytes front ++ a ∧ v = b ++ utf8Bytes back := by
  induction s generalizing u with
  | nil => exact absurd rfl hne
  | cons c s ih =>
    rw [utf8Bytes_cons] at h
    rcases List.append_eq_append_iff.mp h with ⟨more, hu, hs⟩ | ⟨b, hc, hv⟩
    · by_cases hnil : s = []
      · rw [hnil] at hs
        obtain ⟨hmore, hv⟩ := List.append_eq_nil_iff.mp hs.symm
        rw [hmore, List.append_nil] at hu
        exact ⟨[], c, s, u, [], rfl, by simp [hu], rfl, by rw [hv, hnil]; rfl⟩
      · obtain ⟨front, d, back, a, b, rfl, hd, rfl, hv⟩ := ih hnil hs
        refine ⟨c :: front, d, back, a, b, rfl, hd, ?_, hv⟩
        rw [hu, utf8Bytes_cons, List.append_assoc]
    · exact ⟨[], c, s, u, b, rfl, hc, rfl, hv⟩

/-- If the bytes of a name can be stretched, then also by one of its characters. -/
theorem exists_longer_of_stretches {set : List UInt8 → Prop} {s : List Char} (hne : s ≠ [])
    (hslash : '/' ∉ s) (h : Stretches set (utf8Bytes s)) :
    ∃ t, set (utf8Bytes t) ∧ t.length = s.length + 1 ∧ ∀ c, c ∈ t ↔ c ∈ s := by
  obtain ⟨u, v, huv, hall⟩ := h
  obtain ⟨front, c, back, a, b, rfl, hc, rfl, rfl⟩ := exists_cut_char hne huv
  -- doubling the character puts the rest of its bytes and then its first bytes into the cut
  have hdouble : utf8Bytes (front ++ c :: c :: back) =
      utf8Bytes front ++ a ++ (b ++ a) ++ (b ++ utf8Bytes back) := by
    simp [utf8Bytes_append, utf8Bytes_cons, hc]
  have hx : slash ∉ b ++ a := by
    have hcs : slash ∉ String.utf8EncodeChar c := by
      rw [slash_mem_utf8EncodeChar]
      rintro rfl
      exact hslash (by simp)
    rw [hc] at hcs
    simpa [or_comm] using hcs
  refine ⟨front ++ c :: c :: back, hdouble ▸ hall _ hx, by simp; omega, fun d => by simp⟩

/-! ## One name -/

theorem compile?_eq_some_iff {text : String} {p : Pattern} :
    Pattern.compile? text = some p ↔ ∃ tokens, parse text = .ok tokens ∧ p = ⟨text, tokens⟩ := by
  unfold Pattern.compile? Pattern.compile
  cases parse text with
  | error e => simp [Except.map, Except.toOption]
  | ok tokens => simp [Except.map, Except.toOption, eq_comm]

theorem stripRoot_eq_self {s : List Char} (h : '/' ∉ s) : stripRoot s = s := by
  cases s with
  | nil => rfl
  | cons c rest =>
    unfold stripRoot
    split
    · next heq => exact absurd (by rw [heq]; simp) h
    · rfl

theorem stripRoot_of_head?_ne {s : List Char} (h : s.head? ≠ some '/') : stripRoot s = s := by
  unfold stripRoot
  split
  · exact absurd rfl h
  · rfl

/-- A text without special characters compiles, and its pattern matches no name but itself. -/
theorem matches_iff_eq_of_not_special {text : String} (h : text.toList.any isSpecial = false) :
    ∃ p, Pattern.compile? text = some p ∧
      ∀ name : String, '/' ∉ name.toList → (p.matches name = true ↔ name = text) := by
  have hplain : text.toList.any spansNothing = false ∧ '?' ∉ text.toList := by
    simp only [List.any_eq_false, isSpecial, Bool.or_eq_true, beq_iff_eq, not_or] at h
    exact ⟨List.any_eq_false.mpr fun c hc => (h c hc).2, fun hm => (h _ hm).1 rfl⟩
  refine ⟨_, compile?_eq_some_iff.mpr ⟨_, parse_eq_map hplain.1, rfl⟩, fun name hname => ?_⟩
  have hlone : text.toList.map tokenOf ≠ [.leadingDirs] := by
    intro heq
    obtain ⟨c, -, hc⟩ := List.mem_map.mp (heq ▸ List.mem_singleton_self Token.leadingDirs)
    unfold tokenOf at hc
    split at hc <;> simp at hc
  rw [Pattern.matches, matchesTokens_iff, or_iff_right hlone, spans_map_tokenOf hplain.2,
    stripRoot_eq_self hname]
  exact ⟨fun heq => String.toList_inj.mp (utf8Bytes_injective heq), fun heq => by rw [heq]⟩

theorem isEntryName_of_isSpecial {name : String} (hslash : '/' ∉ name.toList)
    (h : name.toList.any isSpecial = true) : IsEntryName name := by
  obtain ⟨c, hc, hspecial⟩ := List.any_eq_true.mp h
  refine isEntryName_of_mem hslash hc ?_
  rintro rfl
  exact absurd hspecial (by decide)

/-- Where a pattern matches its own text and some of that text spans nothing, the match can be
stretched. -/
theorem stretches_of_matchesTokens {text : String} {tokens : List Token}
    (hparse : parse text = .ok tokens) (hslash : '/' ∉ text.toList)
    (h : text.toList.any spansNothing = true)
    (hself : matchesTokens tokens (utf8Bytes text.toList) = true) :
    Stretches (matchesTokens tokens · = true) (utf8Bytes text.toList) := by
  rcases matchesTokens_iff.mp hself with hlone | hspans
  · exact ⟨[], _, rfl, fun x _ => matchesTokens_iff.mpr (.inl hlone)⟩
  have hfree : slash ∉ utf8Bytes text.toList := fun hm => hslash (slash_mem_utf8Bytes.mp hm)
  rcases stretches_of_spans hspans hfree with hs | hlen
  · exact hs.imp fun w hw => matchesTokens_iff.mpr (.inr hw)
  · have hlt := (weight_readPattern_le hparse).2 h
    have hzero : State.weight ⟨[], [], none⟩ = 0 := rfl
    omega

theorem matches_ofList (text : String) {tokens : List Token} {s : List Char} (h : '/' ∉ s) :
    Pattern.matches ⟨text, tokens⟩ (String.ofList s) = matchesTokens tokens (utf8Bytes s) := by
  rw [Pattern.matches, String.toList_ofList, stripRoot_eq_self h]

/-- A pattern with a special character in it that matches its own text matches another name
too. -/
theorem exists_other_match {text : String} {p : Pattern} (hp : Pattern.compile? text = some p)
    (hslash : '/' ∉ text.toList) (h : text.toList.any isSpecial = true)
    (hself : p.matches text = true) :
    ∃ name, IsEntryName name ∧ name ≠ text ∧ p.matches name = true := by
  obtain ⟨tokens, hparse, rfl⟩ := compile?_eq_some_iff.mp hp
  obtain ⟨c, hc, hspecial⟩ := List.any_eq_true.mp h
  by_cases hmore : text.toList.any spansNothing = true
  · have hself' : matchesTokens tokens (utf8Bytes text.toList) = true := by
      rwa [← matches_ofList text hslash, String.ofList_toList]
    have hstretch := stretches_of_matchesTokens hparse hslash hmore hself'
    obtain ⟨t, ht, hlen, hmem⟩ := exists_longer_of_stretches (List.ne_nil_of_mem hc) hslash hstretch
    have hts : '/' ∉ t := fun hm => hslash ((hmem _).mp hm)
    refine ⟨String.ofList t, isEntryName_of_isSpecial (by simpa using hts) ?_, ?_, ?_⟩
    · exact List.any_eq_true.mpr ⟨c, by simpa using (hmem c).mpr hc, hspecial⟩
    · rintro rfl
      rw [String.toList_ofList] at hlen
      omega
    · rw [matches_ofList text hts]
      exact ht
  · -- only `?` is special here, and a letter may stand for it
    have hplain : text.toList.any spansNothing = false := Bool.eq_false_iff.mpr hmore
    have hq : '?' ∈ text.toList := by
      rw [isSpecial, Bool.eq_false_iff.mpr (List.any_eq_false.mp hplain c hc), Bool.or_false,
        beq_iff_eq] at hspecial
      exact hspecial ▸ hc
    have hts : '/' ∉ fillMarks text.toList := fun hm =>
      (eq_of_mem_fillMarks hm).elim (by decide) fun hs => hslash hs.1
    refine ⟨String.ofList (fillMarks text.toList), ?_, ?_, ?_⟩
    · exact isEntryName_of_mem (by simpa using hts) (by simpa using mem_fillMarks hq) (by decide)
    · intro heq
      rw [← heq, String.toList_ofList] at hq
      exact (eq_of_mem_fillMarks hq).elim (by decide) fun hs => hs.2 rfl
    · rw [matches_ofList text hts, ← Except.ok.inj ((parse_eq_map hplain).symm.trans hparse)]
      exact matchesTokens_iff.mpr (.inr (spans_fillMarks _))

end ProjectLayout.Glob
