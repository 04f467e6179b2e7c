import ProjectLayout.Disk.Name
import ProjectLayout.Proofs.Glob.Bytes

/-!
# Names as texts

A name that is no text has U+FFFD in it when it is made a text, and no other character that its
bytes do not stand for.

* `firstChar?_eq_some` — bytes begin with the bytes of their first character.
* `mem_lossyChars` — where the characters come from.
* `replacement_mem_lossy_raw` — what is no text is not made one without a loss.
* `Name.bytes_injective` — different names have different bytes.
-/

namespace ProjectLayout.Disk

open Glob (utf8Bytes utf8Bytes_cons)

/-! ## Characters -/

theorem firstChar?_eq_some {bytes : List UInt8} {c : Char} (h : firstChar? bytes = some c) :
    bytes = String.utf8EncodeChar c ++ bytes.drop c.utf8Size := by
  have hbytes := congrArg (·.data.toList) (ByteArray.eq_of_utf8DecodeChar?_eq_some h)
  have hlength : bytes.length ≤ c.utf8Size + (bytes.length - c.utf8Size) := by omega
  simpa [List.data_toByteArray, List.take_of_length_le] using hbytes

/-- A character stands for bytes that are there, if it does not stand for something broken. -/
theorem mem_lossyChars {left : Nat} {bytes : List UInt8} {c : Char}
    (hc : c ∈ lossyChars left bytes) :
    c = '\uFFFD' ∨ ∀ b ∈ String.utf8EncodeChar c, b ∈ bytes := by
  fun_induction lossyChars left bytes with
  | case1 => simp at hc
  | case2 => simp at hc
  | case3 left b more first hfirst ih =>
    have hbytes := firstChar?_eq_some hfirst
    rcases List.mem_cons.mp hc with rfl | hc
    · refine .inr fun x hx => ?_
      rw [hbytes]
      exact List.mem_append_left _ hx
    · exact (ih hc).imp_right fun h x hx => List.mem_of_mem_drop (h x hx)
  | case4 left b more hfirst ih =>
    rcases List.mem_cons.mp hc with rfl | hc
    · exact .inl rfl
    · exact (ih hc).imp_right fun h x hx => List.mem_of_mem_drop (h x hx)

theorem drop_length_le {left n : Nat} {b : UInt8} {more : List UInt8} (hn : 0 < n)
    (h : (b :: more).length ≤ left + 1) : ((b :: more).drop n).length ≤ left := by
  rw [List.length_drop]
  omega

/-- Where nothing is broken, the characters stand for all the bytes. -/
theorem utf8Bytes_lossyChars {left : Nat} {bytes : List UInt8} (hleft : bytes.length ≤ left)
    (h : '\uFFFD' ∉ lossyChars left bytes) : utf8Bytes (lossyChars left bytes) = bytes := by
  fun_induction lossyChars left bytes with
  | case1 bytes =>
    rw [List.length_eq_zero_iff.mp (Nat.le_zero.mp hleft)]
    rfl
  | case2 => rfl
  | case3 left b more first hfirst ih =>
    rw [utf8Bytes_cons, ih (drop_length_le first.utf8Size_pos hleft)
      fun hm => h (List.mem_cons_of_mem _ hm)]
    exact (firstChar?_eq_some hfirst).symm
  | case4 left b more hfirst ih => exact absurd List.mem_cons_self h

/-! ## Names -/

theorem utf8Bytes_toList (name : String) :
    utf8Bytes name.toList = name.toByteArray.data.toList := by
  rw [← String.utf8Encode_toList, List.utf8Encode, List.data_toByteArray]
  rfl

theorem fromUTF8?_toByteArray (text : String) :
    String.fromUTF8? text.toByteArray = some text := by
  simp only [String.fromUTF8?, dif_pos text.isValidUTF8]
  rfl

/-- Bytes that are no text are not those of a text. -/
theorem ne_of_fromUTF8?_eq_none {bytes : ByteArray} (h : String.fromUTF8? bytes = none)
    (s : List Char) : utf8Bytes s ≠ bytes.data.toList := by
  intro hs
  have hbytes : (String.ofList s).toByteArray = bytes := by
    apply ByteArray.ext
    apply Array.toList_inj.mp
    rw [← utf8Bytes_toList, String.toList_ofList, hs]
  rw [← hbytes, fromUTF8?_toByteArray] at h
  cases h

namespace Name

/-- What is no text is made one with a replacement. -/
theorem replacement_mem_lossy_raw {bytes : ByteArray} (h : String.fromUTF8? bytes = none) :
    '\uFFFD' ∈ (raw bytes h).lossy.toList := by
  rw [lossy, String.toList_ofList]
  refine Decidable.byContradiction fun hno => ?_
  exact ne_of_fromUTF8?_eq_none h _ (utf8Bytes_lossyChars (Nat.le_of_eq (by simp)) hno)

/-- A character of a name as a text that is not put in for something else. -/
theorem mem_bytes_of_mem_lossy {name : Name} {c : Char} (hc : c ∈ name.lossy.toList)
    (hne : c ≠ '\uFFFD') : ∀ b ∈ String.utf8EncodeChar c, b ∈ name.bytes := by
  cases name with
  | text name => exact fun b hb => List.mem_flatMap.mpr ⟨c, hc, hb⟩
  | raw bytes h =>
    rw [lossy, String.toList_ofList] at hc
    exact (mem_lossyChars hc).resolve_left hne

theorem bytes_injective {a b : Name} (h : a.bytes = b.bytes) : a = b := by
  cases a with
  | text a =>
    cases b with
    | text b => rw [String.toList_inj.mp (Glob.utf8Bytes_injective h)]
    | raw bytes hraw => exact absurd h (ne_of_fromUTF8?_eq_none hraw _)
  | raw bytes hraw =>
    cases b with
    | text b => exact absurd h.symm (ne_of_fromUTF8?_eq_none hraw _)
    | raw bytes' hraw' =>
      obtain rfl : bytes = bytes' := ByteArray.ext (Array.toList_inj.mp h)
      rfl

theorem totalSize_append (above names : List Name) :
    totalSize (above ++ names) = totalSize above + totalSize names := by
  induction above with
  | nil => simp
  | cons name more ih => simp [ih, Nat.add_assoc]

theorem totalSize_replicate (count : Nat) (name : Name) :
    totalSize (List.replicate count name) = count * name.size := by
  induction count with
  | zero => simp
  | succ count ih => rw [List.replicate_succ, totalSize_cons, ih, Nat.succ_mul, Nat.add_comm]

theorem isText_iff {name : Name} : name.isText = true ↔ ∃ s : String, name = .text s := by
  cases name <;> simp [isText]

end Name

end ProjectLayout.Disk
