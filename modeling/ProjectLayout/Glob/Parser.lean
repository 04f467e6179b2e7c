import ProjectLayout.Glob.Token

/-!
# Reading globs

A pattern is read from left to right.  `*` and `**` depend on the character before them and on
the token read last, so the reader keeps the branch it is in, the branches that are still open
and the last character.

* `readClass` — a character class after its `[`.
* `readStars` — one or two stars.
* `parse` — a whole pattern (`build_glob`).
-/

namespace ProjectLayout.Glob

/-! ## Character classes -/

/-- What has been read of a class: its ranges, newest first, and whether a `-` waits for the end
of the newest range. -/
structure ClassState where
  ranges : List (Char × Char)
  awaitingEnd : Bool

/-- The newest range ended at `c`. -/
def ClassState.endRange (st : ClassState) (c : Char) : Except Fault ClassState :=
  match st.ranges with
  | (first, _) :: older =>
    if c < first then .error (.invalidRange first c) else .ok ⟨(first, c) :: older, false⟩
  | [] => .ok ⟨[(c, c)], false⟩

/-- The ranges of a class after its first character, in order, and what follows the class. -/
def readClassBody (st : ClassState) : List Char → Except Fault (List (Char × Char) × List Char)
  | [] => .error .unclosedClass
  | ']' :: rest =>
    .ok ((if st.awaitingEnd then ('-', '-') :: st.ranges else st.ranges).reverse, rest)
  | '-' :: rest =>
    if st.awaitingEnd then
      match st.endRange '-' with
      | .error e => .error e
      | .ok st => readClassBody st rest
    else readClassBody { st with awaitingEnd := true } rest
  | c :: rest =>
    if st.awaitingEnd then
      match st.endRange c with
      | .error e => .error e
      | .ok st => readClassBody st rest
    else readClassBody { st with ranges := (c, c) :: st.ranges } rest

/-- A class after `[`.  Its first character, behind `!` or `^`, may be `]` or `-`. -/
def readClass (s : List Char) : Except Fault (Token × List Char) :=
  let (negated, s) := match s with
    | '!' :: rest => (true, rest)
    | '^' :: rest => (true, rest)
    | _ => (false, s)
  match s with
  | [] => .error .unclosedClass
  | c :: rest =>
    match readClassBody ⟨[(c, c)], false⟩ rest with
    | .error e => .error e
    | .ok (ranges, left) => .ok (.charClass negated ranges, left)

/-! ## Stars -/

/-- What has been read of a pattern. -/
structure State where
  /-- The tokens of the current branch, newest first. -/
  branch : List Token
  /-- For each open group, innermost first: its finished branches, newest first, and the tokens
  before the group, newest first. -/
  groups : List (List (List Token) × List Token)
  /-- The last character read. -/
  previous : Option Char

/-- One more token in the current branch. -/
def State.push (st : State) (t : Token) : State := { st with branch := t :: st.branch }

/-- The state after `**` between separators: the token before, which is a separator or a `**`
already read, is absorbed. -/
def State.absorb (st : State) (isLast : Bool) : State :=
  match st.branch with
  | .leadingDirs :: older => { st with branch := .leadingDirs :: older }
  | .trailingDirs :: older => { st with branch := .trailingDirs :: older }
  | _ :: older => { st with branch := (if isLast then .trailingDirs else .middleDirs) :: older }
  | [] => { st with branch := [if isLast then .trailingDirs else .middleDirs] }

/-- One or two stars, the first of them read; `before` is the character in front of it. -/
def readStars (st : State) (before : Option Char) (s : List Char) : State × List Char :=
  let ordinary := (st.push .star).push .star
  match s with
  | '*' :: rest =>
    if st.branch.isEmpty then
      match rest with
      | [] => (st.push .leadingDirs, [])
      | '/' :: after => (({ st with previous := some '/' }).push .leadingDirs, after)
      | _ => (ordinary, rest)
    else if before ≠ some '/' ∧
        (st.groups.isEmpty ∨ (before ≠ some ',' ∧ before ≠ some '\x7b')) then
      (ordinary, rest)
    else
      match rest with
      | [] => (st.absorb true, [])
      | '/' :: after => (({ st with previous := some '/' }).absorb false, after)
      | c :: _ =>
        if (c = ',' ∨ c = '\x7d') ∧ ¬ st.groups.isEmpty then (st.absorb true, rest)
        else (ordinary, rest)
  | _ => (st.push .star, s)

/-! ## Patterns -/

/-- The innermost group closed.  A branch without an effective token is no branch. -/
def State.closeGroup (st : State) : Except Fault State :=
  match st.groups with
  | [] => .error .unopenedAlternatives
  | (finished, before) :: outer =>
    let branches := (st.branch.reverse :: finished).reverse.filter (·.any Token.isEffective)
    .ok { st with branch := .alternatives branches :: before, groups := outer }

/-- A `,`: the next branch of the innermost group, or itself outside of groups. -/
def State.comma (st : State) : State :=
  match st.groups with
  | [] => st.push (.literal ',')
  | (finished, before) :: outer =>
    { st with branch := [], groups := (st.branch.reverse :: finished, before) :: outer }

/-- The tokens of a pattern; `fuel` bounds the number of characters. -/
def readPattern : Nat → State → List Char → Except Fault (List Token)
  | 0, st, _ => if st.groups.isEmpty then .ok st.branch.reverse else .error .unclosedAlternatives
  | _, st, [] => if st.groups.isEmpty then .ok st.branch.reverse else .error .unclosedAlternatives
  | fuel + 1, st, c :: rest =>
    let before := st.previous
    let st := { st with previous := some c }
    if c = '?' then readPattern fuel (st.push .anyByte) rest
    else if c = '*' then
      let (st, left) := readStars st before rest
      readPattern fuel st left
    else if c = '[' then
      match readClass rest with
      | .error e => .error e
      | .ok (t, left) => readPattern fuel ({ st with previous := some ']' }.push t) left
    else if c = '\x7b' then
      readPattern fuel { st with branch := [], groups := ([], st.branch) :: st.groups } rest
    else if c = '\x7d' then
      match st.closeGroup with
      | .error e => .error e
      | .ok st => readPattern fuel st rest
    else if c = ',' then readPattern fuel st.comma rest
    else if c = '\\' then
      match rest with
      | [] => .error .danglingEscape
      | d :: left => readPattern fuel ({ st with previous := some d }.push (.literal d)) left
    else readPattern fuel (st.push (.literal c)) rest

/-- The tokens of a pattern, or the first fault in it. -/
def parse (pattern : String) : Except Fault (List Token) :=
  readPattern pattern.length ⟨[], [], none⟩ pattern.toList

end ProjectLayout.Glob
