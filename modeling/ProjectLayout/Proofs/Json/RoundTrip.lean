import ProjectLayout.Proofs.Json.Members
import ProjectLayout.Proofs.Json.Scalar

/-!
# Reading back an indented document

* `Readable` — values that lose nothing when they are written: no doubles, whole numbers that stay
  exact, distinct keys, and not too deep.
* `readValue_prettyChars` — such a value is read back, whatever harmless text follows.
* `parse_pretty` — an indented document with a line break after it is read back as it was.
-/

namespace ProjectLayout.Json

/-- A value that nests at most `depth` lists and objects and is exact when read back. -/
inductive Readable : Nat → Value → Prop where
  | null {depth : Nat} : Readable depth .null
  | bool {depth : Nat} (b : Bool) : Readable depth (.bool b)
  | string {depth : Nat} (s : String) : Readable depth (.string s)
  | integer {depth : Nat} {n : Int} (hpos : n ≤ maxSignificand) (hneg : -(twoPow 63 : Int) ≤ n) :
      Readable depth (.integer n)
  | array {depth : Nat} {items : List Value} (h : ∀ v ∈ items, Readable depth v) :
      Readable (depth + 1) (.array items)
  | object {depth : Nat} {members : Members Value} (hn : (Members.keys members).Nodup)
      (h : ∀ m ∈ members, Readable depth m.2) : Readable (depth + 1) (.object members)

/-! ## Blanks -/

theorem skipBlanks_cons {c : Char} (h : isJsonBlank c = false) (rest : List Char) :
    skipBlanks (c :: rest) = c :: rest := by
  rw [skipBlanks, List.dropWhile_cons, if_neg (by simp [h])]

theorem skipBlanks_append {blanks : List Char} (h : ∀ c ∈ blanks, isJsonBlank c = true)
    (rest : List Char) : skipBlanks (blanks ++ rest) = skipBlanks rest :=
  List.dropWhile_append_of_pos h

theorem skipBlanks_newline (level : Nat) (rest : List Char) :
    skipBlanks (newline level ++ rest) = skipBlanks rest := by
  refine skipBlanks_append (fun c hc => ?_) rest
  rcases List.mem_cons.mp hc with rfl | hc
  · rfl
  · rw [List.eq_of_mem_replicate hc]
    rfl

/-- Whether a text is over or goes on where a value has ended: with a comma or on a new line. -/
def AfterValue (rest : List Char) : Prop := ∀ c, rest.head? = some c → c = ',' ∨ c = '\n'

theorem afterValue_newline (level : Nat) (rest : List Char) :
    AfterValue (newline level ++ rest) := by
  intro c hc
  exact .inr (Option.some.inj hc).symm

theorem afterValue_comma (rest : List Char) : AfterValue (',' :: rest) := by
  intro c hc
  exact .inl (Option.some.inj hc).symm

theorem AfterValue.endsNumber {rest : List Char} (h : AfterValue rest) : EndsNumber rest := by
  cases rest with
  | nil => exact ⟨rfl, nofun, nofun, nofun⟩
  | cons c more => rcases h c rfl with rfl | rfl <;> exact ⟨rfl, by simp, by simp, by simp⟩

/-! ## The first character -/

/-- Whether a character can begin a value, for a reader that has just opened a list or object. -/
def BeginsValue (c : Char) : Prop := isJsonBlank c = false ∧ c ≠ ']' ∧ c ≠ '\x7d'

instance (c : Char) : Decidable (BeginsValue c) := inferInstanceAs (Decidable (_ ∧ _))

/-- Whether a text begins a value. -/
def Begins (text : List Char) : Prop := ∃ c more, text = c :: more ∧ BeginsValue c

theorem Begins.append {text : List Char} (h : Begins text) (rest : List Char) :
    Begins (text ++ rest) := by
  obtain ⟨c, more, rfl, hc⟩ := h
  exact ⟨c, more ++ rest, rfl, hc⟩

theorem Begins.skipBlanks {text : List Char} (h : Begins text) : skipBlanks text = text := by
  obtain ⟨c, more, rfl, hc⟩ := h
  exact skipBlanks_cons hc.1 more

theorem isDigit_ne {c d : Char} (h : c.isDigit = true) (hd : d.isDigit = false) : c ≠ d := by
  rintro rfl
  rw [h] at hd
  cases hd

theorem beginsValue_of_isDigit {c : Char} (h : c.isDigit = true) : BeginsValue c := by
  refine ⟨?_, isDigit_ne h rfl, isDigit_ne h rfl⟩
  have hblank (d : Char) (hd : d.isDigit = false) : decide (c = d) = false :=
    decide_eq_false (isDigit_ne h hd)
  rw [isJsonBlank, hblank _ rfl, hblank _ rfl, hblank _ rfl, hblank _ rfl]
  rfl

theorem begins_integerText (n : Int) : Begins (integerText n) := by
  unfold integerText
  by_cases hn : n < 0
  · exact ⟨'-', Nat.toDigits 10 n.natAbs, by simp [hn], by decide⟩
  · obtain ⟨c, digits, htext, hc⟩ := exists_toDigits_eq_cons n.natAbs
    rw [if_neg hn, List.nil_append]
    exact ⟨c, digits, htext, beginsValue_of_isDigit hc⟩

theorem begins_prettyChars {depth : Nat} {v : Value} (h : Readable depth v) (level : Nat) :
    Begins (prettyChars level v) := by
  cases h with
  | null => exact ⟨'n', _, rfl, by decide⟩
  | bool b => cases b <;> exact ⟨_, _, rfl, by decide⟩
  | string s => exact ⟨'"', _, rfl, by decide⟩
  | integer hpos hneg => exact begins_integerText _
  | @array depth items h =>
    cases items <;> exact ⟨'[', _, rfl, by decide⟩
  | @object depth members hn h =>
    cases members <;> exact ⟨'\x7b', _, rfl, by decide⟩

/-! ## Reading a value back -/

/-- That a value is read back from its text, with blanks before it. -/
def ReadsBack (item : Reader Value) (level : Nat) (v : Value) : Prop :=
  ∀ s rest, AfterValue rest → skipBlanks s = prettyChars level v ++ rest → item s = .ok (v, rest)

theorem prettyItems_cons {more : List Value} (h : more ≠ []) (level : Nat) (v : Value) :
    prettyItems level (v :: more) =
      newline level ++ prettyChars level v ++ ',' :: prettyItems level more := by
  cases more with
  | nil => exact absurd rfl h
  | cons next more => rfl

theorem prettyMembers_cons {more : Members Value} (h : more ≠ []) (level : Nat) (key : String)
    (v : Value) :
    prettyMembers level ((key, v) :: more) =
      newline level ++ stringText key ++ ':' :: ' ' :: prettyChars level v ++
        ',' :: prettyMembers level more := by
  cases more with
  | nil => exact absurd rfl h
  | cons next more => rfl

section

variable {item : Reader Value} {s after left rest : List Char} {v : Value}

theorem readItems_last (hitem : item s = .ok (v, after)) (hafter : skipBlanks after = ']' :: left)
    (fuel : Nat) : readItems item (fuel + 1) s = .ok ([v], left) := by
  rw [readItems, hitem]
  dsimp only
  rw [hafter]
  rfl

theorem readItems_next (hitem : item s = .ok (v, after)) (hafter : skipBlanks after = ',' :: rest)
    (hrest : Begins (skipBlanks rest)) {items : List Value} {fuel : Nat}
    (hmore : readItems item fuel (skipBlanks rest) = .ok (items, left)) :
    readItems item (fuel + 1) s = .ok (v :: items, left) := by
  obtain ⟨c, text, htext, -, hc, -⟩ := hrest
  rw [htext] at hmore
  rw [readItems, hitem]
  dsimp only
  split
  · next h => cases hafter.symm.trans h
  · next h => cases hafter.symm.trans h
  · next rest' h =>
    obtain rfl := (List.cons.inj (hafter.symm.trans h)).2
    split
    · next h => cases htext.symm.trans h
    · next h => exact absurd (List.cons.inj (htext.symm.trans h)).1 hc
    · rw [htext, hmore]
  · next hother => exact absurd hafter (hother rest)

theorem readMembers_last {key : String} {middle : List Char}
    (hkey : s = stringText key ++ middle) (hvalue : readMemberValue item middle = .ok (v, after))
    (hafter : skipBlanks after = '\x7d' :: left) (fuel : Nat) :
    readMembers item (fuel + 1) s = .ok ([(key, v)], left) := by
  rw [hkey, stringText_append, readMembers, readString_flatMap_escapeChar]
  dsimp only
  rw [hvalue]
  dsimp only
  rw [hafter, String.ofList_toList]
  rfl

theorem readMembers_next {key : String} {middle : List Char}
    (hkey : s = stringText key ++ middle) (hvalue : readMemberValue item middle = .ok (v, after))
    (hafter : skipBlanks after = ',' :: rest) (hrest : Begins (skipBlanks rest))
    {members : Members Value} {fuel : Nat}
    (hmore : readMembers item fuel (skipBlanks rest) = .ok (members, left)) :
    readMembers item (fuel + 1) s = .ok ((key, v) :: members, left) := by
  obtain ⟨c, text, htext, -, -, hc⟩ := hrest
  rw [htext] at hmore
  rw [hkey, stringText_append, readMembers, readString_flatMap_escapeChar]
  dsimp only
  rw [hvalue]
  dsimp only
  split
  · next h => cases hafter.symm.trans h
  · next h => cases hafter.symm.trans h
  · next rest' h =>
    obtain rfl := (List.cons.inj (hafter.symm.trans h)).2
    split
    · next h => cases htext.symm.trans h
    · next h => exact absurd (List.cons.inj (htext.symm.trans h)).1 hc
    · rw [htext, hmore, String.ofList_toList]
  · next hother => exact absurd hafter (hother rest)

theorem readMemberValue_colon (s : List Char) : readMemberValue item (':' :: s) = item s := by
  rw [readMemberValue, skipBlanks_cons rfl]
  rfl

end

/-! ## Lists and objects -/

section

variable {item : Reader Value} {level : Nat}

theorem begins_prettyItems {items : List Value} (hne : items ≠ [])
    (hbegins : ∀ v ∈ items, Begins (prettyChars level v)) (rest : List Char) :
    Begins (skipBlanks (prettyItems level items ++ rest)) := by
  obtain ⟨v, more, rfl⟩ := List.exists_cons_of_ne_nil hne
  obtain ⟨after, htext⟩ : ∃ after,
      prettyItems level (v :: more) = newline level ++ (prettyChars level v ++ after) := by
    by_cases hmore : more = []
    · exact ⟨[], by rw [hmore, prettyItems, List.append_nil]⟩
    · exact ⟨',' :: prettyItems level more, by rw [prettyItems_cons hmore, List.append_assoc]⟩
  have hv := hbegins v List.mem_cons_self
  rw [htext, List.append_assoc, List.append_assoc, skipBlanks_newline, (hv.append _).skipBlanks]
  exact hv.append _

theorem begins_stringText (s : String) : Begins (stringText s) := ⟨'"', _, rfl, by decide⟩

theorem begins_prettyMembers {members : Members Value} (hne : members ≠ []) (rest : List Char) :
    Begins (skipBlanks (prettyMembers level members ++ rest)) := by
  obtain ⟨⟨key, v⟩, more, rfl⟩ := List.exists_cons_of_ne_nil hne
  obtain ⟨after, htext⟩ : ∃ after,
      prettyMembers level ((key, v) :: more) = newline level ++ (stringText key ++ after) := by
    by_cases hmore : more = []
    · exact ⟨_, by rw [hmore, prettyMembers, List.append_assoc]⟩
    · exact ⟨_, by rw [prettyMembers_cons hmore, List.append_assoc, List.append_assoc]⟩
  have hkey := begins_stringText key
  rw [htext, List.append_assoc, List.append_assoc, skipBlanks_newline, (hkey.append _).skipBlanks]
  exact hkey.append _

/-- Items are read back from the text between the brackets of their list. -/
theorem readItems_prettyItems {items : List Value} (hne : items ≠ [])
    (hbegins : ∀ v ∈ items, Begins (prettyChars level v))
    (hback : ∀ v ∈ items, ReadsBack item level v) {fuel : Nat} (hfuel : items.length ≤ fuel)
    (outer : Nat) (left : List Char) :
    readItems item fuel (skipBlanks (prettyItems level items ++ (newline outer ++ ']' :: left))) =
      .ok (items, left) := by
  induction items generalizing fuel with
  | nil => exact absurd rfl hne
  | cons v more ih =>
    obtain ⟨fuel, rfl⟩ : ∃ n, fuel = n + 1 := ⟨fuel - 1, by simp at hfuel; omega⟩
    have hv := List.forall_mem_cons.mp hback
    have hb := List.forall_mem_cons.mp hbegins
    by_cases hmore : more = []
    · subst hmore
      rw [prettyItems, List.append_assoc, skipBlanks_newline, (hb.1.append _).skipBlanks]
      have hread := hv.1 _ _ (afterValue_newline outer (']' :: left)) (hb.1.append _).skipBlanks
      refine readItems_last hread ?_ fuel
      rw [skipBlanks_newline, skipBlanks_cons rfl]
    · rw [prettyItems_cons hmore, List.append_assoc, List.append_assoc, skipBlanks_newline,
        (hb.1.append _).skipBlanks]
      exact readItems_next (hv.1 _ _ (afterValue_comma _) (hb.1.append _).skipBlanks)
        (skipBlanks_cons rfl _) (begins_prettyItems hmore hb.2 _)
        (ih hmore hb.2 hv.2 (Nat.le_of_succ_le_succ hfuel))

theorem readMemberValue_pretty {v : Value} (hv : ReadsBack item level v)
    (hbegins : Begins (prettyChars level v)) {rest : List Char} (hrest : AfterValue rest) :
    readMemberValue item (':' :: ' ' :: (prettyChars level v ++ rest)) = .ok (v, rest) := by
  rw [readMemberValue_colon]
  refine hv _ _ hrest ?_
  have hblank : skipBlanks (' ' :: (prettyChars level v ++ rest)) =
      skipBlanks (prettyChars level v ++ rest) := rfl
  rw [hblank, (hbegins.append _).skipBlanks]

/-- Members are read back from the text between the braces of their object. -/
theorem readMembers_prettyMembers {members : Members Value} (hne : members ≠ [])
    (hbegins : ∀ m ∈ members, Begins (prettyChars level m.2))
    (hback : ∀ m ∈ members, ReadsBack item level m.2) {fuel : Nat}
    (hfuel : members.length ≤ fuel) (outer : Nat) (left : List Char) :
    readMembers item fuel
        (skipBlanks (prettyMembers level members ++ (newline outer ++ '\x7d' :: left))) =
      .ok (members, left) := by
  induction members generalizing fuel with
  | nil => exact absurd rfl hne
  | cons m more ih =>
    obtain ⟨key, v⟩ := m
    obtain ⟨fuel, rfl⟩ : ∃ n, fuel = n + 1 := ⟨fuel - 1, by simp at hfuel; omega⟩
    have hv := List.forall_mem_cons.mp hback
    have hb := List.forall_mem_cons.mp hbegins
    have hkey := begins_stringText key
    by_cases hmore : more = []
    · subst hmore
      rw [prettyMembers, List.append_assoc, List.append_assoc, skipBlanks_newline,
        (hkey.append _).skipBlanks]
      refine readMembers_last rfl
        (readMemberValue_pretty hv.1 hb.1 (afterValue_newline outer _)) ?_ fuel
      rw [skipBlanks_newline, skipBlanks_cons rfl]
    · rw [prettyMembers_cons hmore, List.append_assoc, List.append_assoc, List.append_assoc,
        skipBlanks_newline, (hkey.append _).skipBlanks]
      exact readMembers_next rfl (readMemberValue_pretty hv.1 hb.1 (afterValue_comma _))
        (skipBlanks_cons rfl _) (begins_prettyMembers hmore _)
        (ih hmore hb.2 hv.2 (Nat.le_of_succ_le_succ hfuel))

end

/-! ## Lengths -/

/-- Each item adds its own text, behind a line break. -/
theorem length_le_of_step {α : Type} {text : List α → List Char} {size : α → Nat}
    (hstep : ∀ a more, 1 + size a + (text more).length ≤ (text (a :: more)).length)
    (items : List α) :
    items.length ≤ (text items).length ∧ ∀ a ∈ items, size a ≤ (text items).length := by
  induction items with
  | nil => exact ⟨Nat.zero_le _, nofun⟩
  | cons a more ih =>
    have hlength := hstep a more
    refine ⟨?_, fun b hb => ?_⟩
    · rw [List.length_cons]
      omega
    · rcases List.mem_cons.mp hb with rfl | hb
      · omega
      · have := ih.2 b hb
        omega

theorem length_newline_pos (level : Nat) : 1 ≤ (newline level).length := by
  simp [newline]

theorem length_le_prettyItems (level : Nat) (items : List Value) :
    items.length ≤ (prettyItems level items).length ∧
      ∀ v ∈ items, (prettyChars level v).length ≤ (prettyItems level items).length := by
  refine length_le_of_step (fun v more => ?_) items
  have hnewline := length_newline_pos level
  by_cases hmore : more = []
  · subst hmore
    simp only [prettyItems, List.length_append, List.length_nil]
    omega
  · rw [prettyItems_cons hmore]
    simp only [List.length_append, List.length_cons]
    omega

theorem length_le_prettyMembers (level : Nat) (members : Members Value) :
    members.length ≤ (prettyMembers level members).length ∧
      ∀ m ∈ members, (prettyChars level m.2).length ≤ (prettyMembers level members).length := by
  refine length_le_of_step (fun m more => ?_) members
  have hnewline := length_newline_pos level
  by_cases hmore : more = []
  · subst hmore
    simp only [prettyMembers, List.length_append, List.length_cons, List.length_nil]
    omega
  · rw [prettyMembers_cons hmore]
    simp only [List.length_append, List.length_cons]
    omega

/-! ## Values -/

theorem readValue_of_isDigit {fuel depth : Nat} {s rest : List Char} {c : Char}
    (hs : skipBlanks s = c :: rest) (hc : c.isDigit = true) :
    readValue fuel depth s = readNumber false (c :: rest) := by
  have hne (d : Char) (hd : d.isDigit = false) (more : List Char) : skipBlanks s ≠ d :: more := by
    rw [hs]
    exact fun h => isDigit_ne hc hd (List.cons.inj h).1
  rw [readValue]
  split
  · next h => cases hs.symm.trans h
  · next h => exact absurd h (hne 'n' rfl _)
  · next h => exact absurd h (hne 't' rfl _)
  · next h => exact absurd h (hne 'f' rfl _)
  · next h => exact absurd h (hne '-' rfl _)
  · next h => exact absurd h (hne '"' rfl _)
  · next h => exact absurd h (hne '[' rfl _)
  · next h => exact absurd h (hne '\x7b' rfl _)
  · next h =>
    obtain ⟨rfl, rfl⟩ := List.cons.inj (hs.symm.trans h)
    rw [if_pos hc]

theorem readValue_integerText {n : Int} (hpos : n ≤ maxSignificand)
    (hneg : -(twoPow 63 : Int) ≤ n) {rest : List Char} (hrest : EndsNumber rest) (fuel depth : Nat)
    {s : List Char} (hs : skipBlanks s = integerText n ++ rest) :
    readValue fuel depth s = .ok (.integer n, rest) := by
  have hlimit : twoPow 63 ≤ maxSignificand := by decide
  unfold integerText at hs
  by_cases hn : n < 0
  · have hread : readNumber true (Nat.toDigits 10 n.natAbs ++ rest) =
        .ok (wholeNumber true n.natAbs, rest) :=
      readNumber_toDigits hrest (by omega) fun _ => by omega
    have hvalue : wholeNumber true n.natAbs = .integer n := by
      rw [wholeNumber, if_pos rfl, Int.ofNat_natAbs_of_nonpos (Int.le_of_lt hn), Int.neg_neg]
    rw [readValue, hs, if_pos hn, ← hvalue, ← hread]
    rfl
  · have hread : readNumber false (Nat.toDigits 10 n.natAbs ++ rest) =
        .ok (wholeNumber false n.natAbs, rest) :=
      readNumber_toDigits hrest (by omega) nofun
    have hvalue : wholeNumber false n.natAbs = .integer n := by
      rw [wholeNumber, if_neg Bool.false_ne_true, Int.natAbs_of_nonneg (Int.not_lt.mp hn)]
    rw [if_neg hn, List.nil_append] at hs
    obtain ⟨c, digits, htext, hc⟩ := exists_toDigits_eq_cons n.natAbs
    rw [htext] at hs hread
    rw [← hvalue, ← hread]
    exact readValue_of_isDigit hs hc

theorem readValue_list {fuel depth : Nat} {s rest left : List Char} {items : List Value}
    (hs : skipBlanks s = '[' :: rest) (hrest : Begins (skipBlanks rest))
    (hitems : readItems (readValue fuel depth) fuel (skipBlanks rest) = .ok (items, left)) :
    readValue fuel (depth + 1) s = .ok (.array items, left) := by
  obtain ⟨c, text, htext, -, hc, -⟩ := hrest
  rw [readValue]
  simp only [hs]
  split
  · next h => cases htext.symm.trans h
  · next h => exact absurd (List.cons.inj (htext.symm.trans h)).1 hc
  · rw [hitems]
    rfl

theorem readValue_object {fuel depth : Nat} {s rest left : List Char} {pairs : Members Value}
    (hs : skipBlanks s = '\x7b' :: rest) (hrest : Begins (skipBlanks rest))
    (hpairs : readMembers (readValue fuel depth) fuel (skipBlanks rest) = .ok (pairs, left)) :
    readValue fuel (depth + 1) s = .ok (.object (Members.ofSequence pairs), left) := by
  obtain ⟨c, text, htext, -, -, hc⟩ := hrest
  rw [readValue]
  simp only [hs]
  split
  · next h => cases htext.symm.trans h
  · next h => exact absurd (List.cons.inj (htext.symm.trans h)).1 hc
  · rw [hpairs]
    rfl

/-- A value is read back, with blanks before it and harmless text after it. -/
theorem readsBack_readValue {depth : Nat} {v : Value} (h : Readable depth v) {fuel level : Nat}
    (hfuel : (prettyChars level v).length ≤ fuel) : ReadsBack (readValue fuel depth) level v := by
  induction h generalizing level with
  | null =>
    intro s rest hrest hs
    rw [readValue, hs]
    rfl
  | bool b =>
    intro s rest hrest hs
    rw [readValue, hs]
    cases b <;> rfl
  | string text =>
    intro s rest hrest hs
    rw [readValue, hs, prettyChars, stringText_append]
    change (readString _).map _ = _
    rw [readString_flatMap_escapeChar, Except.map]
    dsimp only
    rw [String.ofList_toList]
  | integer hpos hneg =>
    intro s rest hrest hs
    exact readValue_integerText hpos hneg hrest.endsNumber fuel _ hs
  | @array depth items h ih =>
    intro s rest hrest hs
    cases items with
    | nil =>
      rw [readValue, hs]
      rfl
    | cons v more =>
      rw [prettyChars] at hfuel hs
      simp only [List.cons_append, List.append_assoc, List.nil_append] at hs
      have hlength := length_le_prettyItems (level + 1) (v :: more)
      have htotal : (prettyItems (level + 1) (v :: more)).length ≤ fuel := by
        simp only [List.length_cons, List.length_append] at hfuel
        omega
      have hne : v :: more ≠ [] := List.cons_ne_nil v more
      have hbegins (w : Value) (hw : w ∈ v :: more) := begins_prettyChars (h w hw) (level + 1)
      have hback (w : Value) (hw : w ∈ v :: more) :=
        ih w hw (Nat.le_trans (hlength.2 w hw) htotal)
      have hread :=
        readItems_prettyItems hne hbegins hback (Nat.le_trans hlength.1 htotal) level rest
      exact readValue_list hs (begins_prettyItems hne hbegins _) hread
  | @object depth members hn h ih =>
    intro s rest hrest hs
    cases members with
    | nil =>
      rw [readValue, hs]
      rfl
    | cons m more =>
      rw [prettyChars] at hfuel hs
      simp only [List.cons_append, List.append_assoc, List.nil_append] at hs
      have hlength := length_le_prettyMembers (level + 1) (m :: more)
      have htotal : (prettyMembers (level + 1) (m :: more)).length ≤ fuel := by
        simp only [List.length_cons, List.length_append] at hfuel
        omega
      have hne : m :: more ≠ [] := List.cons_ne_nil m more
      have hbegins (w : String × Value) (hw : w ∈ m :: more) :=
        begins_prettyChars (h w hw) (level + 1)
      have hback (w : String × Value) (hw : w ∈ m :: more) :=
        ih w hw (Nat.le_trans (hlength.2 w hw) htotal)
      have hread :=
        readMembers_prettyMembers hne hbegins hback (Nat.le_trans hlength.1 htotal) level rest
      rw [readValue_object hs (begins_prettyMembers hne _) hread, Members.ofSequence_eq_self hn]

/-! ## Documents -/

/-- An indented document is read back, with blanks after it that begin with a line break if there
are any. -/
theorem parse_pretty_append {v : Value} (h : Readable maxDepth v) {tail : String}
    (htail : AfterValue tail.toList) (hblank : skipBlanks tail.toList = []) :
    Value.parse (v.pretty ++ tail) = .ok v := by
  have htext : (v.pretty ++ tail).toList = prettyChars 0 v ++ tail.toList := by
    simp [Value.pretty]
  have hback : ReadsBack (readValue (prettyChars 0 v ++ tail.toList).length maxDepth) 0 v :=
    readsBack_readValue h (by simp)
  have hread := hback _ tail.toList htail ((begins_prettyChars h 0).append _).skipBlanks
  rw [Value.parse, htext, readDocument, hread]
  dsimp only
  rw [hblank]

/-- An indented document is read back, with a line break after it. -/
theorem parse_pretty {v : Value} (h : Readable maxDepth v) :
    Value.parse (v.pretty ++ "\n") = .ok v :=
  parse_pretty_append h (afterValue_newline 0 []) rfl

/-- An indented document is read back with nothing after it. -/
theorem parse_pretty_alone {v : Value} (h : Readable maxDepth v) :
    Value.parse v.pretty = .ok v := by
  have hparse := @parse_pretty_append v h "" nofun rfl
  rwa [String.append_empty] at hparse

end ProjectLayout.Json
