/-! Signed decimal integers of 64 bits. A text is read from left to right, and
the first character that is no digit, or the first digit that leaves the range,
decides why it is refused. -/

namespace Condition

inductive IntegerFault where
  | empty
  | invalidDigit
  | aboveRange
  | belowRange
deriving DecidableEq, Repr

def IntegerFault.message : IntegerFault → String
  | empty => "cannot parse integer from empty string"
  | invalidDigit => "invalid digit found in string"
  | aboveRange => "number too large to fit in target type"
  | belowRange => "number too small to fit in target type"

namespace Integer

/-- The largest integer. The smallest one has a magnitude that is one more. -/
def maximum : Nat := 9223372036854775807

/-- Appends one digit to a magnitude, up to a limit. -/
def appendDigit (limit : Nat) (beyond : IntegerFault) (magnitude : Nat) (char : Char) :
    Except IntegerFault Nat :=
  if char.isDigit then
    let next := 10 * magnitude + (char.toNat - '0'.toNat)
    if next ≤ limit then .ok next else .error beyond
  else .error .invalidDigit

/-- The value of one or more digits, up to a limit. -/
def readMagnitude (limit : Nat) (beyond : IntegerFault) (digits : List Char) :
    Except IntegerFault Nat :=
  if digits.isEmpty then .error .invalidDigit
  else digits.foldlM (appendDigit limit beyond) 0

/-- The integer that a text denotes: digits, with at most one sign in front. -/
def read : List Char → Except IntegerFault Int
  | [] => .error .empty
  | '+' :: digits => (readMagnitude maximum .aboveRange digits).map Int.ofNat
  | '-' :: digits => (readMagnitude (maximum + 1) .belowRange digits).map fun n => -Int.ofNat n
  | digits => (readMagnitude maximum .aboveRange digits).map Int.ofNat

end Integer

end Condition
