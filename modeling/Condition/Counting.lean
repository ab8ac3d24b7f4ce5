import Condition.Evaluation

/-! A machine that knows how many values are at hand, and not what they are. It
finds out whether tokens follow each other as they should. -/

namespace Condition

/-- The value that a token stands for, if it stands for one. -/
def Token.value? : Token → Option Value
  | boolean flag => some (.literal flag)
  | integer digits => some (.digits digits)
  | _ => none

def Token.operator? : Token → Option Operator
  | operator spelled => some spelled
  | _ => none

/-- What waits once a token is read, if the token makes anything wait. -/
def Lexeme.waiting? (lexeme : Lexeme) : Option Waiting :=
  match lexeme.token with
  | .openParen => some (.group lexeme.span)
  | .operator spelled => some (.operator spelled lexeme.span)
  | _ => none

/-- Every token but a closing parenthesis only adds to what is at hand. -/
theorem Machine.step_of_inner (inner : lexeme.token ≠ .closeParen) (machine : Machine) :
    machine.step lexeme = .ok ⟨lexeme.waiting?.toList ++ machine.waiting,
      ⟨lexeme.token.value?.toList ++ machine.operands.values, machine.operands.applications⟩⟩ := by
  obtain ⟨span, token⟩ := lexeme
  cases token with
  | closeParen => exact absurd rfl inner
  | openParen => rfl
  | operator spelled => rfl
  | boolean flag => rfl
  | integer digits => rfl

namespace Scan

def values (scan : Scan) : List Value := scan.tokens.filterMap Token.value?

def operators (scan : Scan) : List Operator := scan.tokens.filterMap Token.operator?

end Scan

/-- Whether a fault lies in how tokens follow each other, and not in what values are. -/
def Fault.isStructural : Fault → Bool
  | unknownWord _ | incomplete _ _ | trailingValues _ => true
  | invalidOperand _ _ | notBoolean _ => false

/-- The number of values at hand, and the places of the operators applied, the latest first. -/
structure Tally where
  size : Nat := 0
  applied : List Span := []
deriving DecidableEq, Repr

namespace Tally

/-- A fault that ends the counting, and the operators applied before it. -/
structure Halt where
  fault : Fault
  applied : List Span
deriving DecidableEq, Repr

def push (tally : Tally) : Tally := { tally with size := tally.size + 1 }

def halt (tally : Tally) (fault : Fault) : Except Halt α := .error ⟨fault, tally.applied⟩

/-- Takes two values and gives one back. -/
def apply (tally : Tally) (span : Span) : Except Halt Tally :=
  if tally.size < 2 then tally.halt (.incomplete .missingValue span)
  else .ok ⟨tally.size - 2 + 1, span :: tally.applied⟩

end Tally

/-- What waits, the latest first, and how many values are at hand. -/
structure Counter where
  waiting : List Waiting := []
  tally : Tally := {}
deriving DecidableEq, Repr

namespace Counter

def close (closing : Span) : List Waiting → Tally → Except Tally.Halt Counter
  | [], tally => tally.halt (.incomplete .unmatchedClose closing)
  | .group _ :: rest, tally => .ok ⟨rest, tally⟩
  | .operator _ span :: rest, tally => (tally.apply span).bind (close closing rest)

def settle : List Waiting → Tally → Except Tally.Halt Tally
  | [], tally => .ok tally
  | .group span :: _, tally => tally.halt (.incomplete .unclosedGroup span)
  | .operator _ span :: rest, tally => (tally.apply span).bind (settle rest)

def step (counter : Counter) (lexeme : Lexeme) : Except Tally.Halt Counter :=
  match lexeme.token with
  | .openParen => .ok { counter with waiting := .group lexeme.span :: counter.waiting }
  | .closeParen => close lexeme.span counter.waiting counter.tally
  | .operator operator =>
    .ok { counter with waiting := .operator operator lexeme.span :: counter.waiting }
  | .boolean _ | .integer _ => .ok { counter with tally := counter.tally.push }

theorem step_of_inner (inner : lexeme.token ≠ .closeParen) (counter : Counter) :
    counter.step lexeme = .ok ⟨lexeme.waiting?.toList ++ counter.waiting,
      ⟨counter.tally.size + lexeme.token.value?.toList.length, counter.tally.applied⟩⟩ := by
  obtain ⟨span, token⟩ := lexeme
  cases token with
  | closeParen => exact absurd rfl inner
  | openParen => rfl
  | operator spelled => rfl
  | boolean flag => rfl
  | integer digits => rfl

def feed (counter : Counter) (lexemes : List Lexeme) : Except Tally.Halt Counter :=
  lexemes.foldlM step counter

end Counter

/-- What counting says about a text: the operators that it applies, and the fault that it finds. -/
structure Counting where
  applied : List Span
  fault? : Option Fault

namespace Counting

/-- The number of values of a whole scan, once everything that waits is applied. -/
def tally (scan : Scan) : Except Tally.Halt Tally := do
  let counter ← Counter.feed {} scan.lexemes
  match scan.unknown with
  | some span => counter.tally.halt (.unknownWord span)
  | none => Counter.settle counter.waiting counter.tally

/-- One value is the result. More of them are a fault only where that is asked for. -/
def conclude (strictness : Strictness) (textSize : Nat) : Nat → Option Fault
  | 0 => some (.incomplete .missingValue ⟨textSize, 0⟩)
  | rest + 1 => if strictness = .strict ∧ rest ≠ 0 then some (.trailingValues rest) else none

def ofText (strictness : Strictness) (text : List Char) : Counting :=
  match tally (Scan.ofText text) with
  | .ok tally => ⟨tally.applied.reverse, conclude strictness (byteSize text) tally.size⟩
  | .error halt => ⟨halt.applied.reverse, some halt.fault⟩

end Counting

end Condition
