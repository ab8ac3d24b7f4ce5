import Condition.Infix

/-! The conventional reading of a chain. Comparisons bind tighter than connectives,
and connectives group from the right. Evaluation knows no such rule. -/

namespace Condition

/-- An expression in which every operator has operands of its own. -/
inductive Formula where
  | value (known : Value)
  | apply (left : Formula) (operator : Operator) (right : Formula)
deriving DecidableEq, Repr

namespace Formula

/-- The value of a formula, if no operator in it refuses its operands. -/
def value? : Formula → Option Value
  | value known => some known
  | apply left operator right => do
    let first ← left.value?
    let second ← right.value?
    let outcome ← (operator.apply first second).toOption
    return .outcome outcome

/-- A formula as the right operand of a comparison, if one waits for it. -/
def compared : Option (Formula × Comparison) → Formula → Formula
  | none, formula => formula
  | some (left, relation), formula => .apply left (.comparison relation) formula

end Formula

mutual

def Operand.conventional : Operand → Formula
  | .integer digits => .value (.digits digits)
  | .boolean flag => .value (.literal flag)
  | .group chain => chain.conventional none

/-- The conventional reading of a chain, behind a comparison that waits for its right operand if
there is one. A comparison takes the next operand only, and a connective takes all that follows. -/
def Chain.conventional (waiting : Option (Formula × Comparison)) : Chain → Formula
  | .single operand => .compared waiting operand.conventional
  | .join left (.comparison relation) rest =>
    rest.conventional (some (.compared waiting left.conventional, relation))
  | .join left (.connective junction) rest =>
    .apply (.compared waiting left.conventional) (.connective junction) (rest.conventional none)

end

/-- The operators that stand directly in a chain, from left to right. -/
def Chain.operators : Chain → List Operator
  | .single _ => []
  | .join _ operator rest => operator :: rest.operators

mutual

/-- The chains in the groups of an operand, and in the groups of those. -/
def Operand.groups : Operand → List Chain
  | .integer _ | .boolean _ => []
  | .group chain => chain :: chain.groups

def Chain.groups : Chain → List Chain
  | .single operand => operand.groups
  | .join left _ rest => left.groups ++ rest.groups

end

/-- A chain with one comparison at most, and with no operator behind it. -/
structure Chain.ComparesLast (chain : Chain) : Prop where
  once : chain.operators.countP Operator.isComparison ≤ 1
  last : ∀ operator ∈ chain.operators.dropLast, operator.isComparison = false

end Condition
