/-! Lines of a text. A line keeps the characters that end it, and a carriage
return with a line feed behind it ends one line only. -/

namespace Condition

/-- Line feed, vertical tab, form feed, carriage return, next line, and the line and paragraph
separators. -/
def lineBreaks : List Char :=
  ['\n', '\x0B', '\x0C', '\r', '\u0085', '\u2028', '\u2029']

/-- Whether two neighboring characters stand on one line. -/
def sameLine (left right : Char) : Bool :=
  !lineBreaks.contains left || (left == '\r' && right == '\n')

/-- The lines of a text, each with its line break. -/
def splitLines (text : List Char) : List (List Char) := text.splitBy sameLine

/-- What ends a line: a line break, or a carriage return together with its line feed. -/
def IsLineEnd (chars : List Char) : Prop :=
  chars = ['\r', '\n'] ∨ ∃ char ∈ lineBreaks, chars = [char]

/-- The lines that a text consists of, said without a direction of reading. -/
structure LinesOf (text : List Char) (lines : List (List Char)) : Prop where
  whole : lines.flatten = text
  /-- A line has no line end but the one that it may have at its own end. -/
  each : ∀ line ∈ lines, line ≠ [] ∧ ∃ shown ending, line = shown ++ ending ∧
    (∀ char ∈ shown, char ∉ lineBreaks) ∧ (ending = [] ∨ IsLineEnd ending)
  /-- Where another line follows a line is ended, and not between a carriage return and its line
  feed. -/
  between : ∀ front line next back, lines = front ++ line :: next :: back →
    ∃ last ∈ line.getLast?, ∃ first ∈ next.head?, last ∈ lineBreaks ∧ ¬ (last = '\r' ∧ first = '\n')

/-- A line within a text: how many lines and characters come before it, and what it holds. -/
structure Line where
  index : Nat
  offset : Nat
  chars : List Char
deriving DecidableEq, Repr

/-- The line of the character at an offset. Behind the last character it is an empty line. -/
def lineAt : List (List Char) → Nat → Line
  | [], _ => ⟨0, 0, []⟩
  | chars :: rest, offset =>
    if offset < chars.length then ⟨0, 0, chars⟩
    else
      let line := lineAt rest (offset - chars.length)
      ⟨line.index + 1, chars.length + line.offset, line.chars⟩

end Condition
