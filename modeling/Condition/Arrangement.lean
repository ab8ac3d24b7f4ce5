import Condition.Alike
import Mathlib.Logic.Relation

/-! Texts with the same tokens in another order. Values may stand anywhere among the
operators and opening parentheses around them, up to the next closing parenthesis. -/

namespace Condition

def Token.waits : Token → Bool
  | openParen | operator _ => true
  | closeParen | boolean _ | integer _ => false

/-- A value moves past a neighbor that waits, to either side. -/
inductive Token.Moves : List Token → List Token → Prop where
  | later (stands : value.value?.isSome = true) (waits : other.waits = true) :
      Moves (front ++ value :: other :: back) (front ++ other :: value :: back)
  | earlier (stands : value.value?.isSome = true) (waits : other.waits = true) :
      Moves (front ++ other :: value :: back) (front ++ value :: other :: back)

/-- The tokens that stand for values, or all others. -/
def Lexeme.sort (valued : Bool) (row : List Lexeme) : List Lexeme :=
  row.filter fun lexeme => lexeme.token.value?.isSome == valued

/-- Texts with the same tokens, among which any values have moved any number of times. -/
structure Rearranged (first second : List Char) : Prop where
  tokens : Relation.ReflTransGen Token.Moves (Scan.ofText first).tokens (Scan.ofText second).tokens
  ending : EndAlike first second

/-- Spans of one token in two texts that order their tokens in other ways. A value is known by its
number among the values, and every other token by its number among those. -/
inductive MovedPlace (first second : List Char) : Span → Span → Prop where
  | token (valued : Bool) (number : Nat)
      (left : (Lexeme.sort valued (Scan.ofText first).lexemes)[number]? = some lexeme)
      (right : (Lexeme.sort valued (Scan.ofText second).lexemes)[number]? = some other)
      (same : lexeme.token = other.token) :
      MovedPlace first second lexeme.span other.span
  | unknownWord (left : (Scan.ofText first).unknown = some span)
      (right : (Scan.ofText second).unknown = some other) : MovedPlace first second span other
  | ending : MovedPlace first second ⟨byteSize first, 0⟩ ⟨byteSize second, 0⟩

end Condition
