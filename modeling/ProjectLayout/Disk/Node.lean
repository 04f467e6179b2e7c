import ProjectLayout.Disk.Name

/-!
# Directory trees

* `Node` — files, symbolic links and directories, whose entries have names.
* `Rights` — what the program may do with a directory.
* `Node.at?` — the node at the end of a list of names, without looking through links.
* `Node.insertAt`, `Node.eraseAt` — a tree with one node put in or taken out.

`at?_insertAt` says that what was put in is found again.
-/

namespace ProjectLayout.Disk

/-- What the program may do with a directory. -/
structure Rights where
  /-- Read which entries it has. -/
  list : Bool := true
  /-- Go on to an entry by its name. -/
  search : Bool := true
  /-- Make entries. -/
  change : Bool := true
  deriving DecidableEq, Repr

/-- What a name in a directory can stand for. -/
inductive Node where
  | file (contents : ByteArray)
  /-- A symbolic link to the path `target`. -/
  | link (target : String)
  | dir (entries : List (Name × Node)) (rights : Rights := {})

instance : Inhabited Node := ⟨.dir []⟩

namespace Node

def emptyFile : Node := .file ByteArray.empty

/-- The file with a text, written as UTF-8. -/
def ofText (text : String) : Node := .file text.toUTF8

def isDir : Node → Bool
  | .dir .. => true
  | _ => false

def isFile : Node → Bool
  | .file _ => true
  | _ => false

/-- The entries of a directory; other nodes have none. -/
def entries : Node → List (Name × Node)
  | .dir entries _ => entries
  | _ => []

/-- What may be done with a directory; of other nodes nothing is denied. -/
def rights : Node → Rights
  | .dir _ rights => rights
  | _ => {}

@[simp] theorem rights_dir (entries : List (Name × Node)) (rights : Rights) :
    (Node.dir entries rights).rights = rights := rfl

/-- The node under a list of names. -/
def at? (node : Node) : List Name → Option Node
  | [] => some node
  | name :: names =>
    match node.entries.lookup name with
    | some child => child.at? names
    | none => none

/-! ## Changing a tree -/

/-- The entries with `node` under `name`: in place if the name is there, else at the end. -/
def setEntry (name : Name) (node : Node) : List (Name × Node) → List (Name × Node)
  | [] => [(name, node)]
  | e :: rest => if e.1 = name then (name, node) :: rest else e :: setEntry name node rest

/-- The tree with `node` under a list of names; directories on the way are made. -/
def insertAt (node : Node) : List Name → Node → Node
  | [], _ => node
  | name :: names, tree =>
    let below := (tree.entries.lookup name).getD (.dir [])
    .dir (setEntry name (node.insertAt names below) tree.entries) tree.rights

/-- The tree without what is under a list of names. -/
def eraseAt : List Name → Node → Node
  | [], tree => tree
  | name :: names, tree =>
    match names, tree.entries.lookup name with
    | [], _ => .dir (tree.entries.filter (·.1 ≠ name)) tree.rights
    | _ :: _, some below => .dir (setEntry name (eraseAt names below) tree.entries) tree.rights
    | _ :: _, none => tree

theorem lookup_setEntry (name : Name) (node : Node) (entries : List (Name × Node))
    (k : Name) :
    (setEntry name node entries).lookup k = if k = name then some node else entries.lookup k := by
  induction entries with
  | nil => by_cases h : k = name <;> simp [setEntry, List.lookup_cons, h, beq_eq_false_iff_ne.mpr]
  | cons e rest ih =>
    unfold setEntry
    grind

theorem at?_insertAt (node : Node) (names : List Name) (tree : Node) :
    (node.insertAt names tree).at? names = some node := by
  induction names generalizing tree with
  | nil => rfl
  | cons name names ih => simp [insertAt, at?, entries, lookup_setEntry, ih]

end Node

end ProjectLayout.Disk
