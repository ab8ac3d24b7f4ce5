import Condition.Operator

namespace Condition

namespace Decimal

def value (digits : List Char) : Nat := Nat.ofDigitChars 10 digits 0

/-- The digits behind the zeros at the front. -/
def significant (digits : List Char) : List Char := digits.dropWhile (· == '0')

/-- The order of two numerals. Fewer significant digits come first, and among equally many the
first ones decide that differ. -/
def order (first second : List Char) : Ordering :=
  (compare (significant first).length (significant second).length).then
    (List.compareLex compare (significant first) (significant second))

end Decimal

/-- Whether things that are so ordered stand in the relation. -/
def Comparison.admits : Comparison → Ordering → Bool
  | lt, found => found.isLT
  | le, found => found.isLE
  | gt, found => found.isGT
  | ge, found => found.isGE
  | eq, found => found.isEq

end Condition
