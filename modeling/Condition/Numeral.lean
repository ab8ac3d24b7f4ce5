import Condition.Decimal
import Condition.Integer

namespace Condition

inductive Sign where
  | absent
  | plus
  | minus
deriving DecidableEq, Repr

namespace Sign

def chars : Sign → List Char
  | absent => []
  | plus => ['+']
  | minus => ['-']

def ofText : List Char → Sign
  | '+' :: _ => plus
  | '-' :: _ => minus
  | _ => absent

/-- What stands behind the sign of a text. -/
def behind (text : List Char) : List Char := text.drop (ofText text).chars.length

def number : Sign → Nat → Int
  | minus, magnitude => -magnitude
  | _, magnitude => magnitude

def beyond : Sign → IntegerFault
  | minus => .belowRange
  | _ => .aboveRange

end Sign

/-- A numeral: digits with at most one sign in front. -/
inductive Denotes : List Char → Int → Prop where
  | numeral (sign : Sign) (some : digits ≠ []) (valid : ∀ char ∈ digits, char.isDigit = true) :
      Denotes (sign.chars ++ digits) (sign.number (Decimal.value digits))

namespace Integer

/-- The numbers that 64 bits hold. -/
def InRange (number : Int) : Prop := -0x8000000000000000 ≤ number ∧ number ≤ 0x7FFFFFFFFFFFFFFF

instance (number : Int) : Decidable (InRange number) :=
  inferInstanceAs (Decidable (-0x8000000000000000 ≤ number ∧ number ≤ 0x7FFFFFFFFFFFFFFF))

/-- The word of 64 bits that holds a number. -/
def word? (number : Int) : Option Int64 :=
  if InRange number then some (.ofInt number) else none

/-- Appends one digit to what the digits before it come to. The product has to fit into a word
before the digit is added, and then the sum. -/
def accumulate (sign : Sign) (sofar : Int64) (char : Char) : Except IntegerFault Int64 :=
  if char.isDigit then
    let product := word? (10 * sofar.toInt)
    let digit := sign.number (char.toNat - '0'.toNat)
    match product.bind fun tens => word? (tens.toInt + digit) with
    | some sum => .ok sum
    | none => .error sign.beyond
  else .error .invalidDigit

/-- The word that a text denotes, digit by digit. -/
def readWord (text : List Char) : Except IntegerFault Int64 :=
  if text = [] then .error .empty
  else if Sign.behind text = [] then .error .invalidDigit
  else (Sign.behind text).foldlM (accumulate (Sign.ofText text)) 0

end Integer

end Condition
