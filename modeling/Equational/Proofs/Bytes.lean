import Equational.Span
import Mathlib.Data.List.Basic

/-!
# Bytes of a text

Lengths in bytes, and the bytes themselves.  The byte of a line end occurs in no other character, so
that line ends can be counted in the bytes of a text up to any place, between characters or not.
-/

namespace Equational

/-! ## Lengths -/

theorem utf8ByteSize_ofList (text : List Char) :
    (String.ofList text).utf8ByteSize = byteLength text := by
  induction text with
  | nil => rfl
  | cons c rest ih => simp [String.ofList_cons, ih]

theorem utf8ByteSize_eq (text : String) : text.utf8ByteSize = byteLength text.toList := by
  rw [← utf8ByteSize_ofList, String.ofList_toList]

theorem byteLength_pos {text : List Char} (h : text ≠ []) : 0 < byteLength text := by
  cases text with
  | nil => exact absurd rfl h
  | cons c rest =>
    have hsize := c.utf8Size_pos
    rw [byteLength_cons]
    omega

/-! ## Bytes -/

def utf8Bytes (text : List Char) : List UInt8 := text.flatMap String.utf8EncodeChar

@[simp] theorem utf8Bytes_nil : utf8Bytes [] = [] := rfl

@[simp] theorem utf8Bytes_cons (c : Char) (rest : List Char) :
    utf8Bytes (c :: rest) = String.utf8EncodeChar c ++ utf8Bytes rest := rfl

@[simp] theorem utf8Bytes_append (first second : List Char) :
    utf8Bytes (first ++ second) = utf8Bytes first ++ utf8Bytes second := by
  simp [utf8Bytes]

@[simp] theorem length_utf8Bytes (text : List Char) :
    (utf8Bytes text).length = byteLength text := by
  induction text with
  | nil => rfl
  | cons c rest ih => simp [ih, String.length_utf8EncodeChar]

theorem utf8Bytes_toList (source : String) :
    utf8Bytes source.toList = source.toUTF8.data.toList := by
  change _ = source.toByteArray.data.toList
  rw [← String.utf8Encode_toList, List.utf8Encode, List.toList_data_toByteArray]
  rfl

/-! ## Line ends -/

def lineEndByte : UInt8 := 10

theorem utf8EncodeChar_lineEnd : String.utf8EncodeChar '\n' = [lineEndByte] := rfl

private theorem lineEndByte_not_mem_char {c : Char} (h : c ≠ '\n') :
    lineEndByte ∉ String.utf8EncodeChar c := by
  have hcode : c.val.toNat ≠ 10 := by
    intro hcode
    exact h (Char.ext (UInt32.toNat_inj.mp hcode))
  have hother {n : Nat} (hne : n ≠ 10) (hlt : n < 256) : lineEndByte ≠ UInt8.ofNat n := by
    intro hbyte
    have hnat := congrArg UInt8.toNat hbyte
    simp [lineEndByte] at hnat
    omega
  unfold String.utf8EncodeChar
  dsimp only
  -- A single byte is the code point, and all of several bytes are above the line end.
  split_ifs <;> simp only [List.mem_cons, List.not_mem_nil, or_false, not_or]
  · apply hother <;> omega
  · constructor <;> apply hother <;> omega
  · refine ⟨?_, ?_, ?_⟩ <;> apply hother <;> omega
  · refine ⟨?_, ?_, ?_, ?_⟩ <;> apply hother <;> omega

theorem lineEndByte_not_mem {text : List Char} (h : '\n' ∉ text) :
    lineEndByte ∉ utf8Bytes text := by
  intro hmem
  obtain ⟨c, hc, hbyte⟩ := List.mem_flatMap.mp hmem
  apply lineEndByte_not_mem_char _ hbyte
  rintro rfl
  exact h hc

end Equational
