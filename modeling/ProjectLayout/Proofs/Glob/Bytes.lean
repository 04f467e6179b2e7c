import ProjectLayout.Glob.Pattern

/-!
# Texts as bytes

* `utf8Bytes_injective` — different texts have different bytes.
* `utf8EncodeChar_append_inj` — the bytes of a text begin with those of its first character.
* `eq_nil_of_utf8EncodeChar_append` — the bytes of a character do not begin inside another's.
* `slash_mem_utf8Bytes` — the byte of `/` stands for nothing but `/`.
* `ByteLt` — the order of texts by their bytes.
-/

namespace ProjectLayout.Glob

theorem utf8Bytes_append (s t : List Char) : utf8Bytes (s ++ t) = utf8Bytes s ++ utf8Bytes t :=
  List.flatMap_append

theorem utf8Bytes_cons (c : Char) (s : List Char) :
    utf8Bytes (c :: s) = String.utf8EncodeChar c ++ utf8Bytes s := rfl

theorem utf8Bytes_injective {s t : List Char} (h : utf8Bytes s = utf8Bytes t) : s = t := by
  have hb : s.utf8Encode = t.utf8Encode := congrArg List.toByteArray h
  rw [← String.toByteArray_ofList, ← String.toByteArray_ofList, String.toByteArray_inj] at hb
  exact String.ofList_injective hb

/-! ## Characters -/

theorem utf8EncodeChar_append_inj {c d : Char} {u v : List UInt8}
    (h : String.utf8EncodeChar c ++ u = String.utf8EncodeChar d ++ v) : c = d ∧ u = v := by
  have hdecode (c : Char) (u : List UInt8) :
      ByteArray.utf8DecodeChar? (String.utf8EncodeChar c ++ u).toByteArray 0 = some c := by
    rw [List.toByteArray_append, ByteArray.utf8DecodeChar?_utf8EncodeChar_append]
  have hc : c = d := by
    refine Option.some.inj ?_
    rw [← hdecode c u, h, hdecode]
  subst hc
  exact ⟨rfl, List.append_cancel_left h⟩

/-- The bytes of a character do not begin inside those of another. -/
theorem eq_nil_of_utf8EncodeChar_append {c d : Char} {a b u v : List UInt8}
    (hd : String.utf8EncodeChar d = a ++ b) (hb : b ≠ [])
    (h : b ++ u = String.utf8EncodeChar c ++ v) : a = [] := by
  obtain ⟨x, b, rfl⟩ := List.exists_cons_of_ne_nil hb
  obtain ⟨y, more, hc⟩ := List.exists_cons_of_ne_nil (@String.utf8EncodeChar_ne_nil c)
  rw [hc] at h
  obtain rfl : x = y := (List.cons.inj h).1
  -- the first byte of one character is a byte of the other only where that begins
  have hfirst : x.IsUTF8FirstByte := by
    have hzero := @UInt8.isUTF8FirstByte_getElem_zero_utf8EncodeChar c
    simpa [hc] using hzero
  have hlt : a.length < (String.utf8EncodeChar d).length := by simp [hd]
  have hat : (String.utf8EncodeChar d)[a.length] = x := by simp [hd]
  have hzero := UInt8.isUTF8FirstByte_getElem_utf8EncodeChar.mp (hat ▸ hfirst)
  exact List.length_eq_zero_iff.mp hzero

/-! ## Separators -/

theorem slash_mem_utf8EncodeChar {c : Char} : slash ∈ String.utf8EncodeChar c ↔ c = '/' := by
  have hval : c = '/' ↔ c.val.toNat = 0x2f := by
    rw [← Char.toNat_inj]
    rfl
  have hbyte (n : Nat) : slash = UInt8.ofNat n ↔ n % 256 = 0x2f := by
    rw [← UInt8.toNat_inj, UInt8.toNat_ofNat']
    exact eq_comm
  rw [hval]
  fun_cases String.utf8EncodeChar c
  all_goals
    simp only [List.mem_cons, List.not_mem_nil, or_false, hbyte]
    omega

theorem slash_mem_utf8Bytes {s : List Char} : slash ∈ utf8Bytes s ↔ '/' ∈ s := by
  simp only [utf8Bytes, List.mem_flatMap, slash_mem_utf8EncodeChar]
  exact ⟨fun ⟨c, hc, e⟩ => e ▸ hc, fun h => ⟨_, h, rfl⟩⟩

/-! ## Order -/

/-- Whether the bytes of a text come before those of another. -/
def ByteLt (s t : String) : Prop := List.Lex (· < ·) (utf8Bytes s.toList) (utf8Bytes t.toList)

theorem ByteLt.irrefl (s : String) : ¬ ByteLt s s :=
  List.lex_irrefl (fun b => UInt8.lt_irrefl b) _

end ProjectLayout.Glob
