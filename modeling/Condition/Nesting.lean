import Condition.Scan

namespace Condition

/-- The depth behind a token. It may fall below zero. -/
def Token.nest (depth : Int) : Token → Int
  | openParen => depth + 1
  | closeParen => depth - 1
  | _ => depth

/-- Opening parentheses less closing ones, and zero if there are fewer. A text with an unknown
word has no depth. -/
def depth? (text : List Char) : Option Nat :=
  let scan := Scan.ofText text
  match scan.unknown with
  | some _ => none
  | none => some (scan.tokens.foldl Token.nest 0).toNat

/-- Whether a text is ready to be evaluated. One with an unknown word is, since more lines would
not help it. -/
def isComplete (text : List Char) : Bool :=
  match depth? text with
  | some depth => depth == 0
  | none => true

/-- What is evaluated for the lines of an editor: its line feeds become spaces, since nothing else
separates. -/
def joinLines (buffer : List Char) : List Char :=
  buffer.map fun char => if char = '\n' then ' ' else char

end Condition
