import Condition.Token
import Condition.Value

/-! Well-formed expressions: operands with operators between them. A chain
groups from the right whatever its operators are, so `a op b op c` stands for
`a op (b op c)`. -/

namespace Condition

mutual

inductive Operand where
  | integer (digits : List Char)
  | boolean (flag : Bool)
  | group (chain : Chain)

inductive Chain where
  | single (operand : Operand)
  | join (left : Operand) (operator : Operator) (rest : Chain)

end

mutual

def Operand.tokens : Operand → List Token
  | .integer digits => [.integer digits]
  | .boolean flag => [.boolean flag]
  | .group chain => .openParen :: chain.tokens ++ [.closeParen]

def Chain.tokens : Chain → List Token
  | .single operand => operand.tokens
  | .join left operator rest => left.tokens ++ .operator operator :: rest.tokens

end

/-- An operator that refuses its operands: its place among the tokens, and the reason. -/
structure Refusal where
  index : Nat
  cause : OperandFault
deriving DecidableEq, Repr

mutual

/-- The value of an operand that begins at some token. -/
def Operand.value (start : Nat) : Operand → Except Refusal Value
  | .integer digits => .ok (.digits digits)
  | .boolean flag => .ok (.literal flag)
  | .group chain => chain.value (start + 1)

/-- The value of a chain that begins at some token. Groups have their values from left to right,
and then the operators of the chain are applied from right to left. -/
def Chain.value (start : Nat) : Chain → Except Refusal Value
  | .single operand => operand.value start
  | .join left operator rest => do
    let index := start + left.tokens.length
    let first ← left.value start
    let second ← rest.value (index + 1)
    let outcome ← (operator.apply first second).mapError (Refusal.mk index)
    return .outcome outcome

end

mutual

/-- The value of an operand, if no operator in it refuses its operands. -/
def Operand.value? : Operand → Option Value
  | .integer digits => some (.digits digits)
  | .boolean flag => some (.literal flag)
  | .group chain => chain.value?

/-- The value of a chain, whatever the order is in which its parts have their values. -/
def Chain.value? : Chain → Option Value
  | .single operand => operand.value?
  | .join left operator rest => do
    let first ← left.value?
    let second ← rest.value?
    let outcome ← (operator.apply first second).toOption
    return .outcome outcome

end

/-- An operator of a chain between its operands, and its place among the tokens. -/
structure Site where
  index : Nat
  left : Operand
  operator : Operator
  right : Chain

/-- Why an operator refuses its operands, if both have values and it does. -/
def Site.refusal? (site : Site) : Option Refusal :=
  match site.left.value?, site.right.value? with
  | some first, some second =>
    match site.operator.apply first second with
    | .ok _ => none
    | .error cause => some ⟨site.index, cause⟩
  | _, _ => none

/-- The operators that stand directly in a chain, from right to left. -/
def Chain.direct (start : Nat) : Chain → List Site
  | .single _ => []
  | .join left operator rest =>
    let index := start + left.tokens.length
    rest.direct (index + 1) ++ [⟨index, left, operator, rest⟩]

mutual

/-- The operators inside an operand in the order in which they are applied. -/
def Operand.sites (start : Nat) : Operand → List Site
  | .integer _ | .boolean _ => []
  | .group chain => chain.inside (start + 1) ++ chain.direct (start + 1)

/-- The operators inside the groups of a chain, the groups from left to right. -/
def Chain.inside (start : Nat) : Chain → List Site
  | .single operand => operand.sites start
  | .join left _ rest => left.sites start ++ rest.inside (start + left.tokens.length + 1)

end

/-- All operators in order: first those in groups, as the groups close, then the chain's own. -/
def Chain.sites (start : Nat) (chain : Chain) : List Site :=
  chain.inside start ++ chain.direct start

/-- The first operator in order that refuses its operands. -/
def Chain.refusal? (chain : Chain) : Option Refusal :=
  (chain.sites 0).findSome? Site.refusal?

mutual

/-- The digits of an integer that stands alone, in parentheses or not. -/
def Operand.lone? : Operand → Option (List Char)
  | .integer digits => some digits
  | .boolean _ => none
  | .group chain => chain.lone?

def Chain.lone? : Chain → Option (List Char)
  | .single operand => operand.lone?
  | .join _ _ _ => none

end

end Condition
