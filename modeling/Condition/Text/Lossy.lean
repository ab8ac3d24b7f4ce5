/-! Bytes read as a text whatever they are. Where they are no UTF-8 a
replacement character stands for as many of them as could begin a character. -/

namespace Condition

abbrev ByteRange := UInt8 × UInt8

/-- The bytes that may stand behind the first byte of a character. -/
def continuations : ByteRange := (0x80, 0xBF)

/-- What each byte behind the first one of a character may be. The second one may be less where
fewer bytes would do, and where the code point would be none of a character. -/
def tailRanges (lead : UInt8) : List ByteRange :=
  if lead < 0xC2 then []
  else if lead < 0xE0 then [continuations]
  else if lead = 0xE0 then [(0xA0, 0xBF), continuations]
  else if lead = 0xED then [(0x80, 0x9F), continuations]
  else if lead < 0xF0 then [continuations, continuations]
  else if lead = 0xF0 then [(0x90, 0xBF), continuations, continuations]
  else if lead < 0xF4 then [continuations, continuations, continuations]
  else if lead = 0xF4 then [(0x80, 0x8F), continuations, continuations]
  else []

/-- How many bytes are in their ranges, up to the first that is not. -/
def fitting : List ByteRange → List UInt8 → Nat
  | (low, high) :: ranges, byte :: bytes =>
    if low ≤ byte ∧ byte ≤ high then fitting ranges bytes + 1 else 0
  | _, _ => 0

/-- The character that some bytes begin with. Four bytes are enough to tell. -/
def firstChar? (bytes : List UInt8) : Option Char := (bytes.take 4).toByteArray.utf8DecodeChar? 0

def decodeLossy : List UInt8 → List Char
  | [] => []
  | lead :: rest =>
    match firstChar? (lead :: rest) with
    | some char => char :: decodeLossy (rest.drop (char.utf8Size - 1))
    | none => '\uFFFD' :: decodeLossy (rest.drop (fitting (tailRanges lead) rest))
termination_by bytes => bytes.length
decreasing_by all_goals simp only [List.length_drop, List.length_cons]; omega

theorem firstChar?_append (char : Char) (bytes : List UInt8) :
    firstChar? (String.utf8EncodeChar char ++ bytes) = some char := by
  have short : (String.utf8EncodeChar char).length ≤ 4 :=
    String.length_utf8EncodeChar char ▸ char.utf8Size_le_four
  rw [firstChar?, List.take_append, List.take_of_length_le short, List.toByteArray_append,
    ByteArray.utf8DecodeChar?_utf8EncodeChar_append]

theorem decodeLossy_append (char : Char) (bytes : List UInt8) :
    decodeLossy (String.utf8EncodeChar char ++ bytes) = char :: decodeLossy bytes := by
  have first := firstChar?_append char bytes
  have size := String.length_utf8EncodeChar char
  cases encoded : String.utf8EncodeChar char with
  | nil =>
    rw [encoded] at size
    exact absurd size (Nat.ne_of_lt char.utf8Size_pos)
  | cons lead tail =>
    rw [encoded] at first size
    have behind : (tail ++ bytes).drop (char.utf8Size - 1) = bytes := by
      rw [← size, List.length_cons, Nat.add_sub_cancel, List.drop_left]
    rw [List.cons_append] at first ⊢
    rw [decodeLossy, first]
    simp only [behind]

/-- Nothing of a text is lost. -/
theorem decodeLossy_encode (text : List Char) :
    decodeLossy (text.flatMap String.utf8EncodeChar) = text := by
  induction text with
  | nil => simp [decodeLossy]
  | cons char rest ih => rw [List.flatMap_cons, decodeLossy_append, ih]

end Condition
