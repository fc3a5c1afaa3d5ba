import Mathlib.Data.List.Basic

/-!
# Byte strings as text

A byte string is read as text one character at a time; a byte that begins no character is read
as the replacement character.  Written out again it is the same byte string exactly when it was
text to begin with.

- `decodeLossy_encode`: reading undoes writing
- `coerce_eq_self_iff`: the byte strings that reading and writing leave alone
-/

namespace Utf8

/-- The bytes of a text. -/
def encode (cs : List Char) : List UInt8 := cs.flatMap String.utf8EncodeChar

def replacement : Char := Char.ofNat 0xFFFD

/-- The text of bytes, with replacements where they are not text. -/
def decodeLossy : List UInt8 → List Char
  | [] => []
  | b :: bs =>
    match (b :: bs).toByteArray.utf8DecodeChar? 0 with
    | some c => c :: decodeLossy ((b :: bs).drop c.utf8Size)
    | none => replacement :: decodeLossy bs
termination_by bs => bs.length
decreasing_by
  · have hpos := c.utf8Size_pos
    simp only [List.length_drop, List.length_cons]
    omega
  · simp

/-- The bytes are those of a text. -/
def Valid (bs : List UInt8) : Prop := ∃ cs, bs = encode cs

/-- What is left of bytes that are read and written. -/
def coerce (bs : List UInt8) : List UInt8 := encode (decodeLossy bs)

theorem encode_cons (c : Char) (cs : List Char) :
    encode (c :: cs) = String.utf8EncodeChar c ++ encode cs := List.flatMap_cons

theorem decodeChar_encode_cons (c : Char) (cs : List Char) :
    (encode (c :: cs)).toByteArray.utf8DecodeChar? 0 = some c :=
  List.utf8DecodeChar?_utf8Encode_cons

@[simp] theorem coerce_nil : coerce [] = [] := by
  rw [coerce, decodeLossy]
  rfl

/-- Reading undoes writing. -/
theorem decodeLossy_encode (cs : List Char) : decodeLossy (encode cs) = cs := by
  induction cs with
  | nil => rw [encode, List.flatMap_nil, decodeLossy]
  | cons c cs ih =>
    have hlength : (String.utf8EncodeChar c).length = c.utf8Size := String.length_utf8EncodeChar c
    have hchar := decodeChar_encode_cons c cs
    have hdrop : (encode (c :: cs)).drop c.utf8Size = encode cs := by
      rw [encode_cons, ← hlength, List.drop_left]
    cases hbytes : encode (c :: cs) with
    | nil =>
      have hpos := c.utf8Size_pos
      rw [encode_cons] at hbytes
      rw [(List.append_eq_nil_iff.mp hbytes).1] at hlength
      simp at hlength
      omega
    | cons b bs =>
      rw [hbytes] at hchar hdrop
      rw [decodeLossy, hchar]
      simp only [hdrop, ih]

/-- Text is left alone, and nothing else. -/
theorem coerce_eq_self_iff (bs : List UInt8) : coerce bs = bs ↔ Valid bs := by
  constructor
  · intro h
    exact ⟨decodeLossy bs, h.symm⟩
  · rintro ⟨cs, rfl⟩
    rw [coerce, decodeLossy_encode]

instance (bs : List UInt8) : Decidable (Valid bs) := decidable_of_iff _ (coerce_eq_self_iff bs)

end Utf8
