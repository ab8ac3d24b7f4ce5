import Condition.Fault
import Condition.Scan

namespace Condition

/-- Characters that stand in a text at a span. -/
def Occurs (text : List Char) (span : Span) (chars : List Char) : Prop :=
  ∃ before behind, text = before ++ chars ++ behind ∧ span = ⟨byteSize before, byteSize chars⟩

/-- Characters of one class that have no neighbor of that class. -/
def MaximalRun (member : Char → Bool) (text : List Char) (span : Span) (run : List Char) : Prop :=
  ∃ before behind, text = before ++ run ++ behind ∧ span = ⟨byteSize before, byteSize run⟩ ∧
    run ≠ [] ∧ (∀ char ∈ run, member char = true) ∧
    (∀ char ∈ before.getLast?, member char = false) ∧ ∀ char ∈ behind.head?, member char = false

/-- Whether a character can be part of a word. -/
def isWordChar (char : Char) : Bool :=
  !char.isDigit && char != ' ' && char != '(' && char != ')'

/-- A stretch of a text that is a token. -/
inductive Stands (text : List Char) : Span → Token → Prop where
  | openParen (place : Occurs text span ['(']) : Stands text span .openParen
  | closeParen (place : Occurs text span [')']) : Stands text span .closeParen
  | integer (run : MaximalRun Char.isDigit text span digits) : Stands text span (.integer digits)
  | boolean (run : MaximalRun isWordChar text span word)
      (listed : (String.ofList word, flag) ∈ Token.literals) : Stands text span (.boolean flag)
  | operator (run : MaximalRun isWordChar text span word)
      (listed : (String.ofList word, spelled) ∈ Operator.spellings) :
      Stands text span (.operator spelled)

/-- A word that neither table lists. -/
structure UnknownWord (text : List Char) (span : Span) (word : List Char) : Prop where
  run : MaximalRun isWordChar text span word
  noLiteral : ∀ flag, (String.ofList word, flag) ∉ Token.literals
  noOperator : ∀ operator, (String.ofList word, operator) ∉ Operator.spellings

namespace Scan

/-- The spans of the tokens in order, and of the unknown word behind them. -/
def spans (scan : Scan) : List Span := scan.lexemes.map Lexeme.span ++ scan.unknown.toList

/-- A scan that finds the tokens before the first unknown word and loses only spaces. -/
structure Exact (text : List Char) (scan : Scan) : Prop where
  tokens : ∀ span token, ⟨span, token⟩ ∈ scan.lexemes ↔
    Stands text span token ∧ ∀ other word, UnknownWord text other word → span.start < other.start
  fails : scan.unknown.isSome = true ↔ ∃ span word, UnknownWord text span word
  unknown : ∀ span, scan.unknown = some span ↔
    ∃ word, UnknownWord text span word ∧ Failure.culprit ⟨text, .unknownWord span⟩ = word ∧
      ∀ other word, UnknownWord text other word → span.start ≤ other.start
  placed : ∀ span ∈ scan.spans, 0 < span.size ∧ IsBoundary text span.start ∧
    IsBoundary text span.stop ∧ span.stop ≤ byteSize text
  ordered : scan.spans.Pairwise fun left right => left.start < right.start ∧ left.stop ≤ right.start
  lossless : ∀ offset < byteSize text,
    (scan.unknown = none ∨ ∃ span ∈ scan.spans, offset < span.stop) →
      (∃ span ∈ scan.spans, span.start ≤ offset ∧ offset < span.stop) ∨ Occurs text ⟨offset, 1⟩ [' ']

end Scan

end Condition
