import Mathlib.Data.List.Basic

/-!
# The bytes of texts

The UTF-8 bytes of a text are those of its characters in their order, and reading
them gives the text back.
-/

namespace PluginSurface.Utf8

/-! ## Arrays of bytes -/

theorem toList_loop (bytes : ByteArray) (index : Nat) (taken : List UInt8) :
    ByteArray.toList.loop bytes index taken =
      taken.reverse ++ bytes.data.toList.drop index := by
  have sizes : bytes.size = bytes.data.toList.length := by
    simp only [ByteArray.size, Array.length_toList]
  -- The induction is on the number of bytes that are left.
  induction left : bytes.size - index generalizing index taken with
  | zero =>
      have past : ¬ index < bytes.size := by omega
      have nothing : bytes.data.toList.drop index = [] :=
        List.drop_eq_nil_of_le (by omega)
      rw [ByteArray.toList.loop, if_neg past, nothing, List.append_nil]
  | succ left inductionHypothesis =>
      have inside : index < bytes.size := by omega
      have bound : index < bytes.data.toList.length := sizes ▸ inside
      have byte : bytes.get! index = bytes.data.toList[index] := by
        simp only [ByteArray.get!, Array.getElem_toList]
        exact getElem!_pos bytes.data index _
      rw [ByteArray.toList.loop, if_pos inside,
        inductionHypothesis (index + 1) _ (by omega),
        List.drop_eq_getElem_cons bound, byte]
      simp only [List.reverse_cons, List.append_assoc, List.singleton_append]

theorem toList_eq (bytes : ByteArray) : bytes.toList = bytes.data.toList := by
  rw [ByteArray.toList, toList_loop, List.reverse_nil, List.nil_append,
    List.drop_zero]

/-! ## Bytes of characters -/

/-- The bytes of characters in their order. -/
def encode (chars : List Char) : List UInt8 :=
  chars.flatMap String.utf8EncodeChar

@[simp]
theorem encode_nil : encode [] = [] := rfl

@[simp]
theorem encode_cons (char : Char) (rest : List Char) :
    encode (char :: rest) = String.utf8EncodeChar char ++ encode rest := rfl

@[simp]
theorem encode_append (left right : List Char) :
    encode (left ++ right) = encode left ++ encode right :=
  List.flatMap_append

theorem utf8EncodeChar_of_small {char : Char} (small : char.toNat < 128) :
    String.utf8EncodeChar char = [UInt8.ofNat char.toNat] :=
  (String.utf8EncodeChar.eq_1 char).trans (if_pos (Nat.le_of_lt_succ small))

/-- All bytes of a character beyond the first 128 have their high bit set. -/
theorem high_of_mem_utf8EncodeChar {char : Char} (large : 128 ≤ char.toNat)
    {byte : UInt8} (member : byte ∈ String.utf8EncodeChar char) :
    128 ≤ byte.toNat := by
  have beyond : ¬ char.val.toNat ≤ 127 := Nat.not_le_of_lt large
  rw [String.utf8EncodeChar.eq_1, if_neg beyond] at member
  split at member
  · simp only [List.mem_cons, List.not_mem_nil, or_false] at member
    rcases member with rfl | rfl <;> simp only [UInt8.toNat_ofNat'] <;> omega
  · split at member
    · simp only [List.mem_cons, List.not_mem_nil, or_false] at member
      rcases member with rfl | rfl | rfl <;>
        simp only [UInt8.toNat_ofNat'] <;> omega
    · simp only [List.mem_cons, List.not_mem_nil, or_false] at member
      rcases member with rfl | rfl | rfl | rfl <;>
        simp only [UInt8.toNat_ofNat'] <;> omega

/-! ## Bytes of texts -/

theorem toUTF8_toList (text : String) :
    text.toUTF8.toList = encode text.toList := by
  have written : text.toUTF8 = text.toList.utf8Encode := by
    rw [← String.toByteArray_ofList, String.ofList_toList]
    rfl
  rw [toList_eq, written, List.utf8Encode, List.toList_data_toByteArray]
  rfl

theorem fromUTF8?_toUTF8 (text : String) :
    String.fromUTF8? ⟨text.toUTF8.toList.toArray⟩ = some text := by
  have same : (⟨text.toUTF8.toList.toArray⟩ : ByteArray) = text.toUTF8 := by
    rw [toList_eq, Array.toArray_toList]
  have valid : text.toUTF8.IsValidUTF8 := text.isValidUTF8
  rw [same, String.fromUTF8?, dif_pos valid]
  rfl

end PluginSurface.Utf8
