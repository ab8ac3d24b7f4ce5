import Condition.Counting
import Condition.Grammar

namespace Condition

/-- A token without the value that it stands for. -/
def Token.outline (token : Token) : Option Token :=
  if token.value?.isSome then none else some token

/-- The digit that stands for a truth value. -/
def Token.digit (flag : Bool) : Token := .integer [if flag then '1' else '0']

/-- One and the same token, or a truth value and its digit. -/
inductive Token.Interchangeable : Token → Token → Prop where
  | same (token : Token) : Interchangeable token token
  | digit (flag : Bool) : Interchangeable (.boolean flag) (.digit flag)
  | word (flag : Bool) : Interchangeable (.digit flag) (.boolean flag)

/-- Texts whose scans end alike: both at their end, or both with the same unknown word. -/
def EndAlike (first second : List Char) : Prop :=
  (Scan.ofText first).unknown.map (Span.slice · first) =
    (Scan.ofText second).unknown.map (Span.slice · second)

instance (first second : List Char) : Decidable (EndAlike first second) :=
  inferInstanceAs (Decidable (_ = _))

/-- Texts with the same tokens, whatever they are spelled like and wherever they stand. -/
structure SameTokens (first second : List Char) : Prop where
  tokens : (Scan.ofText first).tokens = (Scan.ofText second).tokens
  ending : EndAlike first second

/-- Texts with the same tokens but for the values of those that stand for one. -/
structure SameOutline (first second : List Char) : Prop where
  tokens : (Scan.ofText first).tokens.map Token.outline =
    (Scan.ofText second).tokens.map Token.outline
  ending : EndAlike first second

/-- Spans that have the same place in two texts: that of the token, or of the unknown word, with
some number, or the end. -/
inductive SamePlace (first second : List Char) : Span → Span → Prop where
  | token (number : Nat) (left : (Scan.ofText first).spans[number]? = some span)
      (right : (Scan.ofText second).spans[number]? = some other) :
      SamePlace first second span other
  | ending : SamePlace first second ⟨byteSize first, 0⟩ ⟨byteSize second, 0⟩

/-- Spans that have the same place in two texts and cut out the same word. -/
def SameWord (first second : List Char) (span other : Span) : Prop :=
  SamePlace first second span other ∧ span.slice first = other.slice second

/-- Faults that differ in nothing but where they lie. -/
inductive Fault.Alike (place word : Span → Span → Prop) : Fault → Fault → Prop where
  | unknownWord (same : word span other) : Alike place word (.unknownWord span) (.unknownWord other)
  | incomplete (same : place span other) :
      Alike place word (.incomplete cause span) (.incomplete cause other)
  | invalidOperand (same : place span other) :
      Alike place word (.invalidOperand cause span) (.invalidOperand cause other)
  | notBoolean : Alike place word (.notBoolean cause) (.notBoolean cause)
  | trailingValues : Alike place word (.trailingValues remaining) (.trailingValues remaining)

/-- The same truth value of two texts, or the same fault in the same place of both. -/
inductive SameResult (first second : List Char) : Except Failure Bool → Except Failure Bool → Prop where
  | truth : SameResult first second (.ok flag) (.ok flag)
  | failure (alike : Fault.Alike (SamePlace first second) (SameWord first second) fault other) :
      SameResult first second (.error ⟨first, fault⟩) (.error ⟨second, other⟩)

/-- The same truth value of two texts, or the same fault of both in places that go together. -/
inductive Agree (place : Span → Span → Prop) (first second : List Char) :
    Except Failure Bool → Except Failure Bool → Prop where
  | truth : Agree place first second (.ok flag) (.ok flag)
  | failure (alike : Fault.Alike place
        (fun span other => place span other ∧ span.slice first = other.slice second) fault other) :
      Agree place first second (.error ⟨first, fault⟩) (.error ⟨second, other⟩)

/-- The fault of a result, if it lies in how tokens follow each other. -/
def structural? : Except Failure Bool → Option Fault
  | .error failure => if failure.fault.isStructural then some failure.fault else none
  | .ok _ => none

/-- Whether a result is that an operator refuses its operands. -/
def Refuses (result : Except Failure Bool) : Prop :=
  ∃ text cause span, result = .error ⟨text, .invalidOperand cause span⟩

/-- Results that say the same about how tokens follow each other, unless an operator refuses. -/
def SameStructure (first second : List Char) (result result' : Except Failure Bool) : Prop :=
  Refuses result ∨ Refuses result' ∨
    Option.Rel (Fault.Alike (SamePlace first second) (SameWord first second))
      (structural? result) (structural? result')

end Condition
