import Condition.Scan

/-! Texts for tokens. Words and integers run together with their like, so there
a space has to stand between them. Elsewhere spaces are free. -/

namespace Condition

namespace Token

/-- The kind of the characters that spell a token. -/
def kind : Token → CharKind
  | openParen => .openParen
  | closeParen => .closeParen
  | integer _ => .digit
  | boolean _ | operator _ => .letter

/-- A word that stands for a token wherever it is a segment of its own. -/
def SpelledBy : Token → List Char → Prop
  | openParen, word => word = ['(']
  | closeParen, word => word = [')']
  | operator spelled, word => Operator.ofSpelling? word = some spelled
  | boolean flag, word => literal? word = some flag
  | integer digits, word => word = digits ∧ digits ≠ [] ∧ ∀ char ∈ digits, char.isDigit = true

/-- Whether a token can be written at all. An integer needs digits. -/
def Printable : Token → Prop
  | integer digits => digits ≠ [] ∧ ∀ char ∈ digits, char.isDigit = true
  | _ => True

/-- The canonical text of some tokens: single spaces join their canonical spellings. -/
def join (tokens : List Token) : List Char :=
  [' '].intercalate (tokens.map fun token => token.display.toList)

end Token

def canonicalText (text : List Char) : List Char := Token.join (Scan.ofText text).tokens

/-- A token as written: the number of spaces in front, and its spelling. -/
structure Written where
  gap : Nat
  word : List Char
  token : Token
deriving DecidableEq, Repr

namespace Written

/-- Whether two neighbors keep apart. -/
def Apart (left right : Written) : Prop :=
  left.token.kind = right.token.kind → left.token.kind.isParen = false → 0 < right.gap

/-- Tokens that can be read back from their text. -/
structure Readable (row : List Written) : Prop where
  spelled : ∀ written ∈ row, written.token.SpelledBy written.word
  apart : ∀ front left right back, row = front ++ left :: right :: back → Apart left right

def chars (written : Written) : List Char := List.replicate written.gap ' ' ++ written.word

/-- The text of some tokens, with spaces at its end. -/
def text (row : List Written) (trailing : Nat) : List Char :=
  row.flatMap chars ++ List.replicate trailing ' '

/-- The tokens of a row where they stand in its text, behind some bytes. -/
def place : Nat → List Written → List Lexeme
  | _, [] => []
  | start, written :: rest =>
    let span : Span := ⟨start + written.gap, byteSize written.word⟩
    ⟨span, written.token⟩ :: place span.stop rest

def canonical (token : Token) : Written := ⟨1, token.display.toList, token⟩

def canonicalRow : List Token → List Written
  | [] => []
  | token :: rest => { canonical token with gap := 0 } :: rest.map canonical

end Written

end Condition
