import ProjectLayout.Glob.Pattern

/-!
# What a glob matches

A token stands for a set of byte strings, and a list of tokens for what they stand for one after
another.  Following positions through a path finds exactly these.

* `Token.Spans`, `Spans`, `SpansAny` — the byte strings of a token, of tokens, of branches.
* `Consumes` — that a step from ends to ends goes over the byte strings of a set.
* `consumes_consume` — following positions goes over what the tokens span.
* `matchesTokens_iff` — a path matches if the tokens span all of it.
-/

namespace ProjectLayout.Glob

/-! ## Byte strings of tokens -/

mutual

/-- Whether a token stands for some bytes. -/
def Token.Spans : Token → List UInt8 → Prop
  | .literal c, w => w = String.utf8EncodeChar c
  | .anyByte, w => ∃ b, w = [b] ∧ b ≠ slash
  | .star, w => slash ∉ w
  | .leadingDirs, w => w = [] ∨ ∃ v, w = v ++ [slash]
  | .trailingDirs, w => ∃ v, w = slash :: v
  | .middleDirs, w => w = [slash] ∨ ∃ v, w = slash :: (v ++ [slash])
  | .charClass negated ranges, w => ∃ b, w = [b] ∧ classMatches negated ranges b = true
  | .alternatives [], w => w = []
  | .alternatives branches, w => SpansAny branches w

/-- Whether tokens stand for some bytes one after another. -/
def Spans : List Token → List UInt8 → Prop
  | [], w => w = []
  | t :: more, w => ∃ u v, w = u ++ v ∧ t.Spans u ∧ Spans more v

/-- Whether one of some branches stands for some bytes. -/
def SpansAny : List (List Token) → List UInt8 → Prop
  | [], _ => False
  | branch :: more, w => Spans branch w ∨ SpansAny more w

end

theorem spans_append {front back : List Token} {w : List UInt8} :
    Spans (front ++ back) w ↔ ∃ u v, w = u ++ v ∧ Spans front u ∧ Spans back v := by
  induction front generalizing w with
  | nil =>
    constructor
    · intro hw
      exact ⟨[], w, rfl, rfl, hw⟩
    · rintro ⟨_, v, rfl, rfl, hv⟩
      exact hv
  | cons t front ih =>
    simp only [List.cons_append, Spans, ih]
    constructor
    · rintro ⟨a, _, rfl, ha, b, c, rfl, hb, hc⟩
      exact ⟨a ++ b, c, by simp, ⟨a, b, rfl, ha, hb⟩, hc⟩
    · rintro ⟨_, c, rfl, ⟨a, b, rfl, ha, hb⟩, hc⟩
      exact ⟨a, b ++ c, by simp, ha, b, c, rfl, hb, hc⟩

theorem spans_trailingDirs {w : List UInt8} : Spans [.trailingDirs] w ↔ ∃ v, w = slash :: v := by
  simp [Spans, Token.Spans]

/-! ## From ends to ends -/

/-- Whether the bytes of a path from a position on begin with `w`. -/
def At (path : Array UInt8) (i : Nat) (w : List UInt8) : Prop := w <+: path.toList.drop i

theorem at_nil (path : Array UInt8) (i : Nat) : At path i [] := List.nil_prefix

theorem at_cons {path : Array UInt8} {i : Nat} {b : UInt8} {w : List UInt8} :
    At path i (b :: w) ↔ path[i]? = some b ∧ At path (i + 1) w := by
  unfold At
  rw [← Array.getElem?_toList, ← List.head?_drop, ← List.drop_drop]
  cases path.toList.drop i with
  | nil => simp
  | cons c rest => simp [List.cons_prefix_cons, eq_comm]

theorem at_append {path : Array UInt8} {i : Nat} {u v : List UInt8} :
    At path i (u ++ v) ↔ At path i u ∧ At path (i + u.length) v := by
  induction u generalizing i with
  | nil => simp [at_nil]
  | cons b u ih =>
    rw [List.cons_append, at_cons, at_cons, ih, List.length_cons, and_assoc, Nat.add_right_comm,
      Nat.add_assoc]

/-- Whether a step leads from each end over exactly the byte strings of a set. -/
def Consumes (path : Array UInt8) (f : Ends → Ends) (set : List UInt8 → Prop) : Prop :=
  ∀ ends j, j ∈ f ends ↔ ∃ i ∈ ends, ∃ w, set w ∧ At path i w ∧ j = i + w.length

variable {path : Array UInt8}

theorem consumes_id : Consumes path id (· = []) := by
  intro ends j
  constructor
  · intro hj
    exact ⟨j, hj, [], rfl, at_nil path j, rfl⟩
  · rintro ⟨i, hi, w, rfl, -, rfl⟩
    exact hi

/-- Two steps go over what the first goes over and, behind it, what the second goes over. -/
theorem Consumes.comp {f g : Ends → Ends} {first second : List UInt8 → Prop}
    (hf : Consumes path f first) (hg : Consumes path g second) :
    Consumes path (fun ends => g (f ends)) fun w => ∃ u v, w = u ++ v ∧ first u ∧ second v := by
  intro ends j
  rw [hg]
  constructor
  · rintro ⟨k, hk, v, hv, hat, rfl⟩
    obtain ⟨i, hi, u, hu, hatu, rfl⟩ := (hf ends k).mp hk
    exact ⟨i, hi, u ++ v, ⟨u, v, rfl, hu, hv⟩, at_append.mpr ⟨hatu, hat⟩, by simp; omega⟩
  · rintro ⟨i, hi, w, ⟨u, v, rfl, hu, hv⟩, hat, rfl⟩
    obtain ⟨hatu, hatv⟩ := at_append.mp hat
    exact ⟨i + u.length, (hf ends _).mpr ⟨i, hi, u, hu, hatu, rfl⟩, v, hv, hatv, by simp; omega⟩

theorem Consumes.merge {f g : Ends → Ends} {first second : List UInt8 → Prop}
    (hf : Consumes path f first) (hg : Consumes path g second) :
    Consumes path (fun ends => mergeEnds (f ends) (g ends)) fun w => first w ∨ second w := by
  intro ends j
  rw [mem_mergeEnds, hf, hg]
  constructor
  · rintro (⟨i, hi, w, hw, h⟩ | ⟨i, hi, w, hw, h⟩)
    · exact ⟨i, hi, w, .inl hw, h⟩
    · exact ⟨i, hi, w, .inr hw, h⟩
  · rintro ⟨i, hi, w, hw | hw, h⟩
    · exact .inl ⟨i, hi, w, hw, h⟩
    · exact .inr ⟨i, hi, w, hw, h⟩

theorem Consumes.congr {f : Ends → Ends} {first second : List UInt8 → Prop}
    (hf : Consumes path f first) (h : ∀ w, first w ↔ second w) : Consumes path f second := by
  intro ends j
  rw [hf]
  simp only [h]

theorem consumes_step (p : UInt8 → Bool) :
    Consumes path (step path p) fun w => ∃ b, w = [b] ∧ p b = true := by
  intro ends j
  rw [mem_step]
  constructor
  · rintro ⟨i, hi, hp, rfl⟩
    cases hb : path[i]? with
    | none => simp [hb] at hp
    | some b =>
      rw [hb] at hp
      exact ⟨i, hi, [b], ⟨b, rfl, hp⟩, at_cons.mpr ⟨hb, at_nil _ _⟩, rfl⟩
  · rintro ⟨i, hi, w, ⟨b, rfl, hpb⟩, hat, rfl⟩
    exact ⟨i, hi, by rw [(at_cons.mp hat).1]; exact hpb, rfl⟩

theorem leads_iff_exists_at {p : UInt8 → Bool} {i j : Nat} :
    Leads path p i j ↔ ∃ w, (∀ b ∈ w, p b = true) ∧ At path i w ∧ j = i + w.length := by
  constructor
  · rintro ⟨hle, hall⟩
    obtain ⟨n, rfl⟩ := Nat.exists_eq_add_of_le hle
    clear hle
    induction n generalizing i with
    | zero => exact ⟨[], by simp, at_nil path i, rfl⟩
    | succ n ih =>
      have hfirst := hall i (Nat.le_refl i) (by omega)
      obtain ⟨w, hw, hat, hlen⟩ := ih (i := i + 1) fun k hk hj => hall k (by omega) (by omega)
      cases hb : path[i]? with
      | none => simp [hb] at hfirst
      | some b =>
        rw [hb] at hfirst
        refine ⟨b :: w, ?_, at_cons.mpr ⟨hb, hat⟩, by simp; omega⟩
        exact List.forall_mem_cons.mpr ⟨hfirst, hw⟩
  · rintro ⟨w, hw, hat, rfl⟩
    induction w generalizing i with
    | nil => exact Leads.refl path p i
    | cons b w ih =>
      obtain ⟨hb, hat⟩ := at_cons.mp hat
      obtain ⟨hpb, hw⟩ := List.forall_mem_cons.mp hw
      refine leads_iff.mpr (.inr ⟨by rw [hb]; exact hpb, ?_⟩)
      have hrest := ih hw hat
      rwa [Nat.add_right_comm, Nat.add_assoc] at hrest

theorem consumes_spread (p : UInt8 → Bool) :
    Consumes path (spread path p) fun w => ∀ b ∈ w, p b = true := by
  intro ends j
  rw [mem_spread]
  simp only [leads_iff_exists_at]

/-! ## Tokens -/

theorem consumes_slash : Consumes path (step path (· == slash)) (· = [slash]) :=
  (consumes_step _).congr fun w => by
    constructor
    · rintro ⟨b, rfl, hb⟩
      rw [eq_of_beq hb]
    · rintro rfl
      exact ⟨slash, rfl, beq_self_eq_true slash⟩

theorem consumes_throughSlash :
    Consumes path (throughSlash path) fun w => ∃ v, w = v ++ [slash] :=
  ((consumes_spread _).comp consumes_slash).congr fun w => by
    constructor
    · rintro ⟨u, v, rfl, -, rfl⟩
      exact ⟨u, rfl⟩
    · rintro ⟨v, rfl⟩
      exact ⟨v, [slash], rfl, fun _ _ => rfl, rfl⟩

/-- Bytes that stand for themselves. -/
theorem consumes_bytes (bytes : List UInt8) :
    Consumes path (fun ends => bytes.foldl (fun ends b => step path (· == b) ends) ends)
      (· = bytes) := by
  induction bytes with
  | nil => exact consumes_id
  | cons b bytes ih =>
    refine ((consumes_step (· == b)).comp ih).congr fun w => ?_
    constructor
    · rintro ⟨u, v, rfl, ⟨c, rfl, hc⟩, rfl⟩
      rw [eq_of_beq hc]
      rfl
    · rintro rfl
      exact ⟨[b], bytes, rfl, ⟨b, rfl, beq_self_eq_true b⟩, rfl⟩

mutual

/-- Following the ends of a token goes over what it spans. -/
theorem Token.consumes : ∀ t : Token, Consumes path (t.consume path) t.Spans
  | .literal c => by
    simp only [Token.Spans]
    exact consumes_bytes (String.utf8EncodeChar c)
  | .anyByte => (consumes_step _).congr fun w => by simp [Token.Spans]
  | .star => (consumes_spread _).congr fun w => by
      simp only [Token.Spans, bne_iff_ne]
      exact ⟨fun h hs => h slash hs rfl, fun h b hb he => h (he ▸ hb)⟩
  | .leadingDirs => by
    simp only [Token.Spans]
    exact consumes_id.merge consumes_throughSlash
  | .trailingDirs => (consumes_slash.comp (consumes_spread _)).congr fun w => by
      simp [Token.Spans]
  | .middleDirs =>
    (consumes_slash.merge (consumes_slash.comp consumes_throughSlash)).congr fun w => by
      simp only [Token.Spans]
      refine or_congr_right ⟨?_, ?_⟩
      · rintro ⟨u, v, rfl, rfl, more, rfl⟩
        exact ⟨more, rfl⟩
      · rintro ⟨more, rfl⟩
        exact ⟨[slash], more ++ [slash], rfl, rfl, more, rfl⟩
  | .charClass negated ranges => by
    simp only [Token.Spans]
    exact consumes_step _
  | .alternatives [] => by
    simp only [Token.Spans]
    exact consumes_id
  | .alternatives (branch :: more) => by
    simp only [Token.Spans]
    exact consumes_consumeAny (branch :: more)

theorem consumes_consume : ∀ tokens : List Token, Consumes path (consume path tokens) (Spans tokens)
  | [] => consumes_id
  | t :: more => (t.consumes).comp (consumes_consume more)

theorem consumes_consumeAny :
    ∀ branches : List (List Token), Consumes path (consumeAny path branches) (SpansAny branches)
  | [] => fun ends j => by simp [consumeAny, SpansAny]
  | branch :: more => (consumes_consume branch).merge (consumes_consumeAny more)

end

/-! ## Whole paths -/

/-- A path matches if the tokens span all of it; a lone `**` matches everything. -/
theorem matchesTokens_iff {tokens : List Token} {w : List UInt8} :
    matchesTokens tokens w = true ↔ tokens = [.leadingDirs] ∨ Spans tokens w := by
  have hspans : (consume w.toArray tokens [0]).contains w.length = true ↔ Spans tokens w := by
    rw [List.contains_iff_mem, consumes_consume]
    constructor
    · rintro ⟨i, hi, v, hv, hat, hlen⟩
      rw [List.mem_singleton.mp hi] at hat hlen
      have heq : v = w := hat.eq_of_length (by simpa using hlen.symm)
      exact heq ▸ hv
    · intro h
      exact ⟨0, List.mem_singleton.mpr rfl, w, h, List.prefix_refl w, (Nat.zero_add _).symm⟩
  unfold matchesTokens
  split
  · simp
  · next hlone => rw [hspans, or_iff_right hlone]

end ProjectLayout.Glob
