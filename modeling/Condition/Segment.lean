import Condition.Text.Span

/-! A text falls apart into segments: single parentheses, and maximal runs of
spaces, of digits and of all other characters. No other character separates,
tabs and line breaks included. -/

namespace Condition

inductive CharKind where
  | space
  | openParen
  | closeParen
  | digit
  | letter
deriving DecidableEq, Repr

namespace CharKind

def of (char : Char) : CharKind :=
  if char = ' ' then space
  else if char = '(' then openParen
  else if char = ')' then closeParen
  else if char.isDigit then digit
  else letter

/-- Whether characters of the kind stand alone. -/
def isParen : CharKind → Bool
  | openParen | closeParen => true
  | _ => false

/-- Whether two neighboring characters belong to one segment. -/
def joins (left right : Char) : Bool := of left == of right && !(of left).isParen

end CharKind

/-- A stretch of a text together with where it stands. -/
structure Segment where
  span : Span
  chars : List Char
deriving DecidableEq, Repr

namespace Segment

/-- Places pieces one behind the other, from a byte offset on. -/
def locate : Nat → List (List Char) → List Segment
  | _, [] => []
  | start, piece :: rest =>
    let span : Span := ⟨start, byteSize piece⟩
    ⟨span, piece⟩ :: locate span.stop rest

/-- The segments of a text in order. -/
def split (text : List Char) : List Segment := locate 0 (text.splitBy CharKind.joins)

@[simp] theorem locate_chars (start : Nat) (pieces : List (List Char)) :
    (locate start pieces).map chars = pieces := by
  induction pieces generalizing start with
  | nil => rfl
  | cons piece rest ih => simp [locate, ih]

theorem locate_append (start : Nat) (front back : List (List Char)) :
    locate start (front ++ back) =
      locate start front ++ locate (start + byteSize front.flatten) back := by
  induction front generalizing start with
  | nil => simp [locate]
  | cons piece rest ih => simp [locate, Span.stop, ih, Nat.add_assoc]

end Segment

end Condition
