import Condition.Fault
import Condition.Scan

/-! Reading tokens with two stacks: operators and open groups that wait, and
values. A closing parenthesis applies the operators that wait inside its group,
the latest first. Operators have no precedence. -/

namespace Condition

/-- What waits for its operands, or for its closing parenthesis. -/
inductive Waiting where
  | group (span : Span)
  | operator (operator : Operator) (span : Span)
deriving DecidableEq, Repr

/-- What an operator has made of two values. -/
structure Application where
  left : Value
  operator : Operator
  right : Value
  outcome : Bool
deriving DecidableEq, Repr

/-- The values at hand and the applications that led to them, the latest first. -/
structure Operands where
  values : List Value := []
  applications : List Application := []
deriving DecidableEq, Repr

/-- A fault that ends the reading, and the applications before it. -/
structure Halt where
  fault : Fault
  applications : List Application
deriving DecidableEq, Repr

namespace Operands

def push (operands : Operands) (value : Value) : Operands :=
  { operands with values := value :: operands.values }

def halt (operands : Operands) (fault : Fault) : Except Halt α :=
  .error ⟨fault, operands.applications⟩

/-- Replaces the two latest values by the outcome of an operator that stands at `span`. The latest
value is its right operand. -/
def apply (operands : Operands) (operator : Operator) (span : Span) : Except Halt Operands :=
  match operands.values with
  | right :: left :: values =>
    match operator.apply left right with
    | .ok outcome => .ok ⟨.outcome outcome :: values,
        ⟨left, operator, right, outcome⟩ :: operands.applications⟩
    | .error cause => operands.halt (.invalidOperand cause span)
  | _ => operands.halt (.incomplete .missingValue span)

end Operands

/-- What waits, the latest first, and the values at hand. -/
structure Machine where
  waiting : List Waiting := []
  operands : Operands := {}
deriving DecidableEq, Repr

namespace Machine

/-- Applies what waits back to the latest open group, and closes that group. -/
def close (closing : Span) : List Waiting → Operands → Except Halt Machine
  | [], operands => operands.halt (.incomplete .unmatchedClose closing)
  | .group _ :: rest, operands => .ok ⟨rest, operands⟩
  | .operator operator span :: rest, operands => do
    let applied ← operands.apply operator span
    close closing rest applied

def settle : List Waiting → Operands → Except Halt Operands
  | [], operands => .ok operands
  | .group span :: _, operands => operands.halt (.incomplete .unclosedGroup span)
  | .operator operator span :: rest, operands => do
    let applied ← operands.apply operator span
    settle rest applied

def step (machine : Machine) (lexeme : Lexeme) : Except Halt Machine :=
  match lexeme.token with
  | .openParen => .ok { machine with waiting := .group lexeme.span :: machine.waiting }
  | .closeParen => close lexeme.span machine.waiting machine.operands
  | .operator operator =>
    .ok { machine with waiting := .operator operator lexeme.span :: machine.waiting }
  | .boolean flag => .ok { machine with operands := machine.operands.push (.literal flag) }
  | .integer digits => .ok { machine with operands := machine.operands.push (.digits digits) }

def feed (machine : Machine) (lexemes : List Lexeme) : Except Halt Machine :=
  lexemes.foldlM step machine

theorem feed_cons (machine : Machine) (lexeme : Lexeme) (rest : List Lexeme) :
    machine.feed (lexeme :: rest) = (machine.step lexeme).bind fun next => next.feed rest := by
  simp only [feed, List.foldlM_cons]
  rfl

theorem feed_append (machine : Machine) (front back : List Lexeme) :
    machine.feed (front ++ back) = (machine.feed front).bind fun next => next.feed back :=
  List.foldlM_append

theorem feed_concat {machine last : Machine} (fed : machine.feed front = .ok last)
    (lexeme : Lexeme) : machine.feed (front ++ [lexeme]) = last.step lexeme := by
  rw [feed_append, fed]
  exact bind_pure (last.step lexeme)

end Machine

end Condition
