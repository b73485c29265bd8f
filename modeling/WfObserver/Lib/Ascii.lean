import Mathlib

/-!
# ASCII text

Bytes below 128 are the UTF-8 encoding of the characters with their codes.
-/

namespace Ascii

def text (bytes : List UInt8) : String := String.ofList (bytes.map fun b => Char.ofNat b.toNat)

theorem utf8EncodeChar_ofNat {b : UInt8} (h : b.toNat < 128) :
    String.utf8EncodeChar (Char.ofNat b.toNat) = [b] := by
  have hvalue : (Char.ofNat b.toNat).val.toNat = b.toNat := by
    have hvalid : b.toNat.isValidChar := .inl (by omega)
    simp [Char.ofNat, hvalid, Char.ofNatAux]
  rw [String.utf8EncodeChar, hvalue, if_pos (by omega), UInt8.ofNat_toNat]

theorem flatMap_utf8EncodeChar {bytes : List UInt8} (h : ∀ b ∈ bytes, b.toNat < 128) :
    (bytes.map fun b => Char.ofNat b.toNat).flatMap String.utf8EncodeChar = bytes := by
  induction bytes with
  | nil => rfl
  | cons b bytes ih =>
    rw [List.map_cons, List.flatMap_cons, utf8EncodeChar_ofNat (h b (List.mem_cons_self ..)),
      ih fun c hc => h c (List.mem_cons_of_mem b hc)]
    rfl

theorem toByteArray_text {bytes : List UInt8} (h : ∀ b ∈ bytes, b.toNat < 128) :
    (text bytes).toByteArray = ⟨bytes.toArray⟩ := by
  rw [text, String.toByteArray_ofList, List.utf8Encode, flatMap_utf8EncodeChar h]
  exact ByteArray.ext (by simp)

/-- Decoding ASCII bytes gives their text. -/
theorem fromUTF8_eq {bytes : List UInt8} (h : ∀ b ∈ bytes, b.toNat < 128) :
    String.fromUTF8? ⟨bytes.toArray⟩ = some (text bytes) := by
  rw [← toByteArray_text h, String.fromUTF8?, dif_pos (text bytes).isValidUTF8]
  rfl

end Ascii
