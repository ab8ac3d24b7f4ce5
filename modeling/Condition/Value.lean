import Condition.Integer
import Condition.Operator

/-! Values on the way to a result. They keep the text they stand for: a literal
is the digit one or zero, while an outcome is a truth value only and cannot be
compared. -/

namespace Condition

inductive Value where
  /-- Digits as written. They become a number when an operator asks for one. -/
  | digits (text : List Char)
  /-- A truth value that stands in the expression. -/
  | literal (flag : Bool)
  /-- What an operator has found. -/
  | outcome (flag : Bool)
deriving DecidableEq, Repr

/-- Why a value does not fit where an operator or the result needs it. -/
inductive OperandFault where
  | invalidInteger (text : List Char) (cause : IntegerFault)
  | outcomeAsInteger (flag : Bool)
  | digitsAsBoolean (text : List Char)
deriving DecidableEq, Repr

namespace Value

def display : Value → String
  | digits text => String.ofList text
  | literal true => "1"
  | literal false => "0"
  | outcome flag => toString flag

def toInt : Value → Except OperandFault Int
  | digits text => (Integer.read text).mapError (.invalidInteger text)
  | literal flag => .ok (if flag then 1 else 0)
  | outcome flag => .error (.outcomeAsInteger flag)

/-- Among digits only the texts `1` and `0` are truth values. -/
def toBool : Value → Except OperandFault Bool
  | digits ['1'] => .ok true
  | digits ['0'] => .ok false
  | digits text => .error (.digitsAsBoolean text)
  | literal flag => .ok flag
  | outcome flag => .ok flag

theorem toBool_digits {digits : List Char} (one : digits ≠ ['1']) (zero : digits ≠ ['0']) :
    Value.toBool (.digits digits) = .error (.digitsAsBoolean digits) := by
  unfold Value.toBool
  split <;> simp_all

theorem eq_of_toBool_digits {digits : List Char} (truth : Value.toBool (.digits digits) = .ok flag) :
    digits = if flag then ['1'] else ['0'] := by
  by_cases one : digits = ['1']
  · subst one
    cases truth
    rfl
  by_cases zero : digits = ['0']
  · subst zero
    cases truth
    rfl
  rw [toBool_digits one zero] at truth
  cases truth

/-- Digits are the only values that may have no truth value. -/
theorem toBool_cases (value : Value) :
    (∃ flag, value.toBool = .ok flag) ∨
      ∃ digits, value = .digits digits ∧ digits ≠ ['1'] ∧ digits ≠ ['0'] := by
  cases value with
  | literal flag => exact .inl ⟨flag, rfl⟩
  | outcome flag => exact .inl ⟨flag, rfl⟩
  | digits text =>
    by_cases one : text = ['1']
    · subst one
      exact .inl ⟨true, rfl⟩
    by_cases zero : text = ['0']
    · subst zero
      exact .inl ⟨false, rfl⟩
    exact .inr ⟨text, rfl, one, zero⟩

end Value

namespace OperandFault

def value : OperandFault → Value
  | invalidInteger text _ => .digits text
  | outcomeAsInteger flag => .outcome flag
  | digitsAsBoolean text => .digits text

def message (fault : OperandFault) : String :=
  let shown := fault.value.display
  match fault with
  | invalidInteger _ _ => s!"'{shown}' is not a valid integer"
  | outcomeAsInteger _ => s!"'{shown}' is not an integer"
  | digitsAsBoolean _ => s!"'{shown}' is not a boolean"

end OperandFault

/-- What an operator makes of two values. Both are converted before they are combined, the left
one first. -/
def Operator.apply : Operator → Value → Value → Except OperandFault Bool
  | comparison relation, left, right => do
    let first ← left.toInt
    let second ← right.toInt
    return relation.holds first second
  | connective junction, left, right => do
    let first ← left.toBool
    let second ← right.toBool
    return junction.combine first second

end Condition
