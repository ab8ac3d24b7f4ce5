import Condition.Operator
import Condition.Segment

namespace Condition

inductive Token where
  | openParen
  | closeParen
  | operator (operator : Operator)
  | boolean (flag : Bool)
  /-- Digits as written. -/
  | integer (digits : List Char)
deriving DecidableEq, Repr

namespace Token

/-- The words for the truth values. -/
def literals : List (String × Bool) := [("true", true), ("false", false)]

def literal? (word : List Char) : Option Bool :=
  (literals.find? fun entry => entry.1.toList == word).map Prod.snd

def ofWord? (word : List Char) : Option Token :=
  match literal? word with
  | some flag => some (boolean flag)
  | none => (Operator.ofSpelling? word).map operator

def display : Token → String
  | openParen => "("
  | closeParen => ")"
  | operator spelled => spelled.display
  | boolean flag => toString flag
  | integer digits => String.ofList digits

end Token

/-- What a segment contributes to the tokens of its text. -/
inductive Reading where
  | gap
  | token (token : Token)
  | unknownWord
deriving DecidableEq, Repr

/-- The first character of a segment tells its kind. -/
def Segment.reading (segment : Segment) : Reading :=
  match segment.chars with
  | [] => .gap
  | char :: _ =>
    match CharKind.of char with
    | .space => .gap
    | .openParen => .token .openParen
    | .closeParen => .token .closeParen
    | .digit => .token (.integer segment.chars)
    | .letter =>
      match Token.ofWord? segment.chars with
      | some token => .token token
      | none => .unknownWord

end Condition
