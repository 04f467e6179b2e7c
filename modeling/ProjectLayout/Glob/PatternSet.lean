import ProjectLayout.Glob.Nesting
import ProjectLayout.Text.Segment

/-!
# Sets of ignore patterns

A set excludes paths together with their subtrees: a pattern that ends in `/**` also stands for
the directory in front of that ending.  With one pattern that nests too deep it excludes nothing.

* `PatternSet.ofTexts` — the patterns that compile, in order (`PatternSet::new`).
* `effectiveGlobs` — what is matched for them, which is nothing if the set cannot be built.
* `PatternSet.excludes` — whether a path is excluded (`is_match`).
* `Pattern.matchesInSet` — one pattern of a set; unlike `Pattern.matches` it may look the path up
  by its file name, and `..` is no file name.
-/

namespace ProjectLayout.Glob

open Text

/-! ## Patterns decided by the file name -/

/-- Whether a token stands for one character. -/
def Token.isLiteral : Token → Bool
  | .literal _ => true
  | _ => false

def Token.isSeparator : Token → Bool
  | .literal '/' => true
  | _ => false

def Token.isDot : Token → Bool
  | .literal '.' => true
  | _ => false

/-- Whether the tokens end in literals that name an extension: a dot and no `/` after it. -/
def endsInExtension (tokens : List Token) : Bool :=
  let literals := tokens.reverse.takeWhile Token.isLiteral
  let back := literals.takeWhile (!·.isDot)
  back.length < literals.length && !back.any Token.isSeparator

/-- Whether the tokens fix the whole file name, or its extension, and leave something else of the
path open. -/
def isKeyedByFileName (tokens : List Token) : Bool :=
  match tokens with
  | .leadingDirs :: rest =>
    if rest.all Token.isLiteral then !rest.isEmpty && !rest.any Token.isSeparator
    else endsInExtension rest
  | _ => !tokens.all Token.isLiteral && endsInExtension tokens

/-- Whether the last segment of a path is `..`. -/
def endsInParent (path : List Char) : Bool :=
  (splitOn '/' path).getLast? == some ['.', '.']

/-- Whether a pattern of a set matches a path. -/
def Pattern.matchesInSet (p : Pattern) (path : List Char) : Bool :=
  !(isKeyedByFileName p.tokens && endsInParent path) && matchesTokens p.tokens (utf8Bytes path)

/-! ## Sets -/

/-- The directory whose subtree a pattern stands for. -/
def subtreeOf? (text : String) : Option Pattern :=
  match dropSuffix? ['/', '*', '*'] text.toList with
  | some (c :: dir) => Pattern.compile? (String.ofList (c :: dir))
  | _ => none

/-- The patterns together with the directories whose subtrees they stand for; nothing at all as
soon as one of these nests too deep (`GlobSetBuilder::build`).  A set is not built either if what it
is compiled to gets larger than some megabytes; patterns of such a length are not considered. -/
def effectiveGlobs (patterns : List Pattern) : List Pattern :=
  let globs := patterns.flatMap fun p => p :: (subtreeOf? p.text).toList
  if globs.all (·.depth ≤ maxNesting) then globs else []

/-- The compiled patterns of a set in order, and what is matched for them. -/
structure PatternSet where
  patterns : List Pattern
  globs : List Pattern := effectiveGlobs patterns
  globs_eq : globs = effectiveGlobs patterns := by rfl
  deriving Repr

namespace PatternSet

/-- The set that excludes nothing. -/
def empty : PatternSet := { patterns := [] }

/-- The texts that compile; others are left out. -/
def ofTexts (texts : List String) : PatternSet :=
  { patterns := texts.filterMap Pattern.compile? }

/-- The texts of the patterns in order. -/
def texts (set : PatternSet) : List String := set.patterns.map Pattern.text

def size (set : PatternSet) : Nat := set.patterns.length

def isEmpty (set : PatternSet) : Bool := set.patterns.isEmpty

/-- Whether a pattern, or the directory whose subtree it stands for, matches the path; one
leading `/` of the path is ignored. -/
def excludes (set : PatternSet) (path : String) : Bool :=
  let path := stripRoot path.toList
  set.globs.any (·.matchesInSet path)

end PatternSet

theorem Pattern.text_of_compile? {text : String} {p : Pattern}
    (h : Pattern.compile? text = some p) : p.text = text := by
  unfold Pattern.compile? Pattern.compile at h
  cases hp : parse text with
  | error e => simp [hp, Except.map, Except.toOption] at h
  | ok tokens =>
    simp only [hp, Except.map, Except.toOption, Option.some.injEq] at h
    rw [← h]

/-- The texts of a set are those given that compile, in their order. -/
theorem PatternSet.texts_ofTexts (texts : List String) :
    (PatternSet.ofTexts texts).texts = texts.filter fun t => (Pattern.compile? t).isSome := by
  induction texts with
  | nil => rfl
  | cons t rest ih =>
    simp only [PatternSet.texts, PatternSet.ofTexts] at ih ⊢
    cases h : Pattern.compile? t with
    | none => simp [h, ih]
    | some p => simp [h, ih, Pattern.text_of_compile? h]

end ProjectLayout.Glob
