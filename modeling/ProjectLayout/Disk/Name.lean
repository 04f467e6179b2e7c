import ProjectLayout.Glob.Pattern

/-!
# Names of entries

The name of an entry is a text, or bytes that are no text.  Where a name has to be a text, whatever
is no UTF-8 in it is replaced by U+FFFD, the longest possible piece at a time (`to_string_lossy`).

* `Name` — a name, with its `Name.bytes` and its `Name.size`.
* `lossyChars` — bytes as characters.
* `Name.lossy` — a name as a text.
-/

namespace ProjectLayout.Disk

/-- The name of an entry in a directory. -/
inductive Name where
  | text (name : String)
  /-- Bytes that are not those of a text. -/
  | raw (bytes : ByteArray) (h : String.fromUTF8? bytes = none)

instance : Coe String Name := ⟨.text⟩

/-! ## Bytes as characters -/

/-- Whether a byte can go on a character. -/
def isContinuation (b : UInt8) : Bool := 0x80 ≤ b && b ≤ 0xbf

/-- Whether `b` can follow `a` at the beginning of a character of three or four bytes. -/
def canFollow (a b : UInt8) : Bool :=
  if a = 0xe0 then 0xa0 ≤ b && b ≤ 0xbf
  else if a = 0xed then 0x80 ≤ b && b ≤ 0x9f
  else if a = 0xf0 then 0x90 ≤ b && b ≤ 0xbf
  else if a = 0xf4 then 0x80 ≤ b && b ≤ 0x8f
  else 0xe1 ≤ a && a ≤ 0xf3 && isContinuation b

/-- How many bytes at the front belong to a character that is broken off. -/
def brokenSize : List UInt8 → Nat
  | a :: b :: c :: _ =>
    if canFollow a b then (if 0xf0 ≤ a && isContinuation c then 3 else 2) else 1
  | a :: b :: _ => if canFollow a b then 2 else 1
  | _ => 1

/-- The character that bytes begin with. -/
def firstChar? (bytes : List UInt8) : Option Char := bytes.toByteArray.utf8DecodeChar? 0

/-- The characters of some bytes, with U+FFFD for what is no character; each of at most `left`
steps uses up a byte at least. -/
def lossyChars : Nat → List UInt8 → List Char
  | 0, _ => []
  | _, [] => []
  | left + 1, b :: more =>
    match firstChar? (b :: more) with
    | some c => c :: lossyChars left ((b :: more).drop c.utf8Size)
    | none => '\uFFFD' :: lossyChars left ((b :: more).drop (brokenSize (b :: more)))

/-! ## Names -/

namespace Name

instance : DecidableEq Name
  | text a, text b => decidable_of_iff (a = b) (by rw [text.injEq])
  | raw a _, raw b _ => decidable_of_iff (a.data = b.data) (by rw [raw.injEq, ByteArray.ext_iff])
  | text _, raw .. => isFalse nofun
  | raw .., text _ => isFalse nofun

/-- The bytes of a name. -/
def bytes : Name → List UInt8
  | text name => Glob.utf8Bytes name.toList
  | raw bytes _ => bytes.data.toList

/-- The number of bytes in a name. -/
def size : Name → Nat
  | text name => name.utf8ByteSize
  | raw bytes _ => bytes.size

/-- The number of bytes in some names together. -/
def totalSize : List Name → Nat
  | [] => 0
  | name :: more => name.size + totalSize more

/-- A name as a text. -/
def lossy : Name → String
  | text name => name
  | raw bytes _ => String.ofList (lossyChars bytes.size bytes.data.toList)

@[simp] theorem lossy_text (name : String) : (text name).lossy = name := rfl

@[simp] theorem size_text (name : String) : (text name).size = name.utf8ByteSize := rfl

@[simp] theorem totalSize_nil : totalSize [] = 0 := rfl

@[simp] theorem totalSize_cons (name : Name) (more : List Name) :
    totalSize (name :: more) = name.size + totalSize more := rfl

/-- Whether a name is a text. -/
def isText : Name → Bool
  | text _ => true
  | raw .. => false

end Name

end ProjectLayout.Disk
