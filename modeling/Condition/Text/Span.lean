/-! Positions in a text are counted in UTF-8 bytes. A span names a stretch of
bytes, and its slice is the text found there. -/

namespace Condition

/-- The length of a text in UTF-8 bytes. -/
def byteSize : List Char → Nat
  | [] => 0
  | char :: rest => char.utf8Size + byteSize rest

@[simp] theorem byteSize_nil : byteSize [] = 0 := rfl

@[simp] theorem byteSize_cons (char : Char) (rest : List Char) :
    byteSize (char :: rest) = char.utf8Size + byteSize rest := rfl

@[simp] theorem byteSize_append (front back : List Char) :
    byteSize (front ++ back) = byteSize front + byteSize back := by
  induction front with
  | nil => simp
  | cons char rest ih => simp [ih, Nat.add_assoc]

@[simp] theorem utf8Size_space : (' ' : Char).utf8Size = 1 := by decide

/-- How many characters end at or before a byte offset. -/
def charOffset : Nat → List Char → Nat
  | _, [] => 0
  | offset, char :: rest =>
    if char.utf8Size ≤ offset then charOffset (offset - char.utf8Size) rest + 1 else 0

@[simp] theorem charOffset_zero (text : List Char) : charOffset 0 text = 0 := by
  cases text with
  | nil => rfl
  | cons char rest =>
    have positive := char.utf8Size_pos
    simp only [charOffset]
    rw [if_neg (by omega)]

/-- A byte offset behind whole characters counts exactly those characters. -/
theorem charOffset_append (front back : List Char) (offset : Nat) :
    charOffset (byteSize front + offset) (front ++ back) =
      front.length + charOffset offset back := by
  induction front with
  | nil => simp
  | cons char rest ih =>
    have shift : char.utf8Size + byteSize rest + offset - char.utf8Size =
        byteSize rest + offset := by omega
    simp only [List.cons_append, byteSize_cons, charOffset, shift, ih, List.length_cons]
    rw [if_pos (by omega)]
    omega

/-- A byte offset falls between two characters of a text, or at one of its ends. -/
def IsBoundary (text : List Char) (offset : Nat) : Prop :=
  ∃ front back, text = front ++ back ∧ byteSize front = offset

theorem byteSize_take_charOffset {text : List Char} {offset : Nat}
    (boundary : IsBoundary text offset) :
    byteSize (text.take (charOffset offset text)) = offset := by
  obtain ⟨front, back, rfl, rfl⟩ := boundary
  have counted := charOffset_append front back 0
  simp only [Nat.add_zero, charOffset_zero] at counted
  simp [counted]

theorem charOffset_lt_length {text : List Char} {offset : Nat}
    (boundary : IsBoundary text offset) (inside : offset < byteSize text) :
    charOffset offset text < text.length := by
  refine Nat.lt_of_not_le fun beyond => ?_
  have whole := byteSize_take_charOffset boundary
  rw [List.take_of_length_le beyond] at whole
  omega

/-- A stretch of a text: the byte where it starts and its length in bytes. -/
structure Span where
  start : Nat
  size : Nat
deriving DecidableEq, Repr

namespace Span

/-- The first byte behind the span. -/
def stop (span : Span) : Nat := span.start + span.size

/-- The same stretch in a text with `offset` more bytes in front. -/
def shift (offset : Nat) (span : Span) : Span := { span with start := offset + span.start }

def slice (span : Span) (text : List Char) : List Char :=
  let first := charOffset span.start text
  (text.drop first).take (charOffset span.stop text - first)

theorem slice_append (front middle back : List Char) :
    slice ⟨byteSize front, byteSize middle⟩ (front ++ middle ++ back) = middle := by
  have first := charOffset_append front (middle ++ back) 0
  have last := charOffset_append (front ++ middle) back 0
  simp only [Nat.add_zero, charOffset_zero, byteSize_append, List.length_append,
    List.append_assoc] at first last
  simp [slice, stop, first, last]

end Span

end Condition
