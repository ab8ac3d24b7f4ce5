import Condition.Text.Span
import Condition.Value

namespace Condition

/-- A defect in how operators, values and parentheses follow each other. -/
inductive StructureFault where
  | unmatchedClose
  | missingValue
  | unclosedGroup
deriving DecidableEq, Repr

def StructureFault.message : StructureFault → String
  | unmatchedClose => "no open parenthesis matches the closing parenthesis"
  | missingValue => "value stack is empty"
  | unclosedGroup => "parenthesis is never closed"

inductive Fault where
  | unknownWord (span : Span)
  | incomplete (cause : StructureFault) (span : Span)
  | invalidOperand (cause : OperandFault) (span : Span)
  | notBoolean (cause : OperandFault)
  /-- Values are left besides the result. -/
  | trailingValues (remaining : Nat)
deriving DecidableEq, Repr

namespace Fault

/-- Where the fault lies, unless it concerns the expression as a whole. -/
def span? : Fault → Option Span
  | unknownWord span | incomplete _ span | invalidOperand _ span => some span
  | notBoolean _ | trailingValues _ => none

/-- Whether the fault is that no other parenthesis belongs to one. -/
def isParenthesis : Fault → Bool
  | incomplete .unmatchedClose _ | incomplete .unclosedGroup _ => true
  | _ => false

/-- What stands next to the place of the fault. -/
def label : Fault → String
  | unknownWord _ => "unknown operator"
  | incomplete cause _ => cause.message
  | invalidOperand cause _ | notBoolean cause => cause.message
  | trailingValues _ => "unconsumed value"

end Fault

/-- An expression that cannot be evaluated, and the reason. -/
structure Failure where
  expression : List Char
  fault : Fault
deriving DecidableEq, Repr

namespace Failure

/-- The text at the place of the fault. -/
def culprit (failure : Failure) : List Char :=
  match failure.fault.span? with
  | some span => span.slice failure.expression
  | none => []

def message (failure : Failure) : String :=
  let expression := String.ofList failure.expression
  let culprit := String.ofList failure.culprit
  match failure.fault with
  | .unknownWord _ => s!"Unknown operator '{culprit}' in boolean expression '{expression}'"
  | .incomplete _ _ =>
    s!"Unable to parse boolean expression '{expression}'. Maybe expression is incomplete!"
  | .invalidOperand _ _ => s!"Invalid operand for '{culprit}' in boolean expression '{expression}'"
  | .notBoolean _ => s!"Boolean expression '{expression}' does not evaluate to a boolean"
  | .trailingValues remaining =>
    s!"Unable to parse boolean expression '{expression}': {remaining} value(s) left unconsumed"

end Failure

end Condition
