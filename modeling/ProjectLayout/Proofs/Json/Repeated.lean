import ProjectLayout.Proofs.Json.Distinct

/-!
# Documents with repeated keys

A text may hold an object with one key several times.  What is read is the document as it is
written, where each object keeps the first place and the last value of a key.

* `readWritten`, `Value.parseWritten` — a document with all members of its objects.
* `Value.collapse` — a document in which each key counts once.
* `parse_eq_collapse` — what is read, from what is written.
* `Members.keys_ofSequence`, `Members.get?_ofSequence` — which places and values are kept.
-/

namespace ProjectLayout.Json

/-! ## What is written -/

/-- A result with its value changed. -/
def onValue {α β : Type} (f : α → β) (x : Except Failure (α × List Char)) :
    Except Failure (β × List Char) :=
  x.map fun r => (f r.1, r.2)

/-- A list after its opening bracket. -/
def readList (item : Reader Value) (fuel : Nat) (s : List Char) :
    Except Failure (Value × List Char) :=
  match skipBlanks s with
  | [] => failAt .endInList []
  | ']' :: left => .ok (.array [], left)
  | first => onValue .array (readItems item fuel first)

/-- An object after its opening brace, made from its members. -/
def readObject (item : Reader Value) (make : Members Value → Members Value) (fuel : Nat)
    (s : List Char) : Except Failure (Value × List Char) :=
  match skipBlanks s with
  | [] => failAt .endInObject []
  | '\x7d' :: left => .ok (.object [], left)
  | first => onValue (fun pairs => .object (make pairs)) (readMembers item fuel first)

/-- A value as it is written, with all members of its objects. -/
def readWritten (fuel depth : Nat) (s : List Char) : Except Failure (Value × List Char) :=
  match skipBlanks s, depth with
  | '[' :: rest, inner + 1 => readList (readWritten fuel inner) fuel rest
  | '\x7b' :: rest, inner + 1 => readObject (readWritten fuel inner) id fuel rest
  | _, _ => readValue fuel depth s

/-- What is read, if nothing but blanks is left. -/
def nothingLeft : Except Failure (Value × List Char) → Except Failure Value
  | .error f => .error f
  | .ok (v, left) =>
    match skipBlanks left with
    | [] => .ok v
    | extra => failAt .trailingCharacters extra

/-- A document as it is written. -/
def Value.parseWritten (text : String) : Except SyntaxError Value :=
  (nothingLeft (readWritten text.toList.length maxDepth text.toList)).mapError
    (Failure.toSyntaxError text.toList)

/-! ## What is kept of it -/

mutual

/-- A value in which each key of an object counts once. -/
def Value.collapse : Value → Value
  | .array items => .array (collapseItems items)
  | .object members => .object (Members.ofSequence (collapseMembers members))
  | .null => .null
  | .bool b => .bool b
  | .integer n => .integer n
  | .float x => .float x
  | .string s => .string s

def collapseItems : List Value → List Value
  | [] => []
  | v :: more => v.collapse :: collapseItems more

def collapseMembers : List (String × Value) → List (String × Value)
  | [] => []
  | (key, v) :: more => (key, v.collapse) :: collapseMembers more

end

theorem collapse_array (items : List Value) :
    (Value.array items).collapse = .array (items.map Value.collapse) := by
  have hitems : collapseItems items = items.map Value.collapse := by
    induction items with
    | nil => rfl
    | cons v more ih => rw [collapseItems, ih, List.map_cons]
  rw [Value.collapse, hitems]

theorem collapse_object (members : Members Value) :
    (Value.object members).collapse =
      .object (Members.ofSequence (members.map fun m => (m.1, m.2.collapse))) := by
  have hmembers : collapseMembers members = members.map fun m => (m.1, m.2.collapse) := by
    induction members with
    | nil => rfl
    | cons m more ih => rw [collapseMembers, ih, List.map_cons]
  rw [Value.collapse, hmembers]

theorem Value.IsNumber.collapse {v : Value} (h : v.IsNumber) : v.collapse = v := by
  cases v with
  | integer n => rfl
  | float x => rfl
  | _ => exact h.elim

section

variable {item raw : Reader Value} {f : Value → Value}

/-- Items are read with a change if each of them is. -/
theorem readItems_onValue (h : ∀ s, item s = onValue f (raw s)) (fuel : Nat) (s : List Char) :
    readItems item fuel s = onValue (List.map f) (readItems raw fuel s) := by
  induction fuel generalizing s with
  | zero => rfl
  | succ fuel ih =>
    rw [readItems, readItems, h]
    cases raw s with
    | error e => rfl
    | ok r =>
      simp only [onValue, Except.map]
      split
      · rfl
      · rfl
      · split
        · rfl
        · rfl
        · rw [ih]
          cases readItems raw fuel _ with
          | error e => rfl
          | ok r => rfl
      · rfl

theorem readMemberValue_onValue (h : ∀ s, item s = onValue f (raw s)) (s : List Char) :
    readMemberValue item s = onValue f (readMemberValue raw s) := by
  unfold readMemberValue
  split
  · rfl
  · exact h _
  · rfl

theorem readMembers_onValue (h : ∀ s, item s = onValue f (raw s)) (fuel : Nat) (s : List Char) :
    readMembers item fuel s =
      onValue (List.map fun m => (m.1, f m.2)) (readMembers raw fuel s) := by
  induction fuel generalizing s with
  | zero => rfl
  | succ fuel ih =>
    rw [readMembers.eq_def, readMembers.eq_def]
    dsimp only
    split
    · split
      · rfl
      rw [readMemberValue_onValue h]
      cases readMemberValue raw _ with
      | error e => rfl
      | ok r =>
        simp only [onValue, Except.map]
        split
        · rfl
        · rfl
        · split
          · rfl
          · rfl
          · rw [ih]
            cases readMembers raw fuel _ with
            | error e => rfl
            | ok r => rfl
        · rfl
    · rfl

theorem onValue_onValue {α β γ : Type} (f : α → β) (g : β → γ)
    (x : Except Failure (α × List Char)) :
    onValue g (onValue f x) = onValue (fun a => g (f a)) x := by
  cases x <;> rfl

theorem readList_onValue (h : ∀ s, item s = onValue Value.collapse (raw s)) (fuel : Nat)
    (s : List Char) : readList item fuel s = onValue Value.collapse (readList raw fuel s) := by
  unfold readList
  split
  · rfl
  · rfl
  · rw [readItems_onValue h, onValue_onValue, onValue_onValue]
    simp only [collapse_array]

theorem readObject_onValue (h : ∀ s, item s = onValue Value.collapse (raw s)) (fuel : Nat)
    (s : List Char) :
    readObject item Members.ofSequence fuel s =
      onValue Value.collapse (readObject raw id fuel s) := by
  unfold readObject
  split
  · rfl
  · rfl
  · rw [readMembers_onValue h, onValue_onValue, onValue_onValue]
    simp only [collapse_object, id]

end

theorem readValue_eq_readList {fuel inner : Nat} {s rest : List Char}
    (h : skipBlanks s = '[' :: rest) :
    readValue fuel (inner + 1) s = readList (readValue fuel inner) fuel rest := by
  rw [readValue, h]
  rfl

theorem readValue_eq_readObject {fuel inner : Nat} {s rest : List Char}
    (h : skipBlanks s = '\x7b' :: rest) :
    readValue fuel (inner + 1) s =
      readObject (readValue fuel inner) Members.ofSequence fuel rest := by
  rw [readValue, h]
  rfl

theorem readNumber_eq_collapse (negative : Bool) (s : List Char) :
    readNumber negative s = onValue Value.collapse (readNumber negative s) := by
  cases h : readNumber negative s with
  | error e => rfl
  | ok r =>
    show Except.ok (r.1, r.2) = Except.ok (r.1.collapse, r.2)
    rw [(reads_readNumber h).collapse]

/-- What is no list and no object that may be entered is kept as it is. -/
theorem readValue_eq_collapse {fuel depth : Nat} {s : List Char}
    (hlist : ∀ rest inner, skipBlanks s = '[' :: rest → depth ≠ inner + 1)
    (hobject : ∀ rest inner, skipBlanks s = '\x7b' :: rest → depth ≠ inner + 1) :
    readValue fuel depth s = onValue Value.collapse (readValue fuel depth s) := by
  unfold readValue
  split
  · rfl
  · cases readWord "ull".toList _ <;> rfl
  · cases readWord "rue".toList _ <;> rfl
  · cases readWord "alse".toList _ <;> rfl
  · exact readNumber_eq_collapse true _
  · cases readString _ <;> rfl
  · next rest h =>
    cases depth with
    | zero => rfl
    | succ inner => exact absurd rfl (hlist rest inner h)
  · next rest h =>
    cases depth with
    | zero => rfl
    | succ inner => exact absurd rfl (hobject rest inner h)
  · split
    · exact readNumber_eq_collapse false _
    · rfl

/-- A value is read as it is written, except that each key of an object counts once. -/
theorem readValue_eq_onValue (fuel depth : Nat) (s : List Char) :
    readValue fuel depth s = onValue Value.collapse (readWritten fuel depth s) := by
  induction depth using Nat.strongRecOn generalizing s with
  | ind depth ih =>
    rw [readWritten.eq_def]
    split
    · next rest inner h =>
      rw [readValue_eq_readList h, readList_onValue (ih inner (Nat.lt_succ_self inner))]
    · next rest inner h =>
      rw [readValue_eq_readObject h, readObject_onValue (ih inner (Nat.lt_succ_self inner))]
    · next hlist hobject => exact readValue_eq_collapse hlist hobject

theorem nothingLeft_onValue (f : Value → Value) (x : Except Failure (Value × List Char)) :
    nothingLeft (onValue f x) = (nothingLeft x).map f := by
  cases x with
  | error e => rfl
  | ok r =>
    simp only [onValue, Except.map, nothingLeft]
    split <;> rfl

theorem parse_eq_nothingLeft (text : String) :
    Value.parse text =
      (nothingLeft (readValue text.toList.length maxDepth text.toList)).mapError
        (Failure.toSyntaxError text.toList) := by
  have hdocument : readDocument text.toList =
      nothingLeft (readValue text.toList.length maxDepth text.toList) := by
    unfold readDocument nothingLeft
    cases readValue text.toList.length maxDepth text.toList <;> rfl
  rw [Value.parse, hdocument]
  cases nothingLeft (readValue text.toList.length maxDepth text.toList) <;> rfl

/-- A document is read as it is written, except that each key of an object counts once. -/
theorem parse_eq_collapse (text : String) :
    Value.parse text = (Value.parseWritten text).map Value.collapse := by
  rw [parse_eq_nothingLeft, readValue_eq_onValue, nothingLeft_onValue, Value.parseWritten]
  cases nothingLeft (readWritten text.toList.length maxDepth text.toList) <;> rfl

/-- Of a repeated key the first place is kept. -/
theorem keys_collapsed (pairs : Members Value) :
    Members.keys (Members.ofSequence (pairs.map fun m => (m.1, m.2.collapse))) =
      (Members.keys pairs).eraseDups := by
  rw [Members.keys_ofSequence, Members.keys, List.map_map]
  rfl

/-- Of a repeated key the last value is kept. -/
theorem get?_collapsed (pairs : Members Value) (key : String) :
    Members.get? key (Members.ofSequence (pairs.map fun m => (m.1, m.2.collapse))) =
      (Members.get? key pairs.reverse).map Value.collapse := by
  rw [Members.get?_ofSequence, ← List.map_reverse, Members.get?_map]

end ProjectLayout.Json
