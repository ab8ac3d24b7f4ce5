import Condition.Token

namespace Condition

/-- A token and where it stands. -/
structure Lexeme where
  span : Span
  token : Token
deriving DecidableEq, Repr

/-- The tokens read, and the unknown word that ended the reading early. -/
structure Scan where
  lexemes : List Lexeme
  unknown : Option Span
deriving DecidableEq, Repr

namespace Scan

def ofSegments : List Segment → Scan
  | [] => ⟨[], none⟩
  | segment :: rest =>
    match segment.reading with
    | .gap => ofSegments rest
    | .token token =>
      let later := ofSegments rest
      { later with lexemes := ⟨segment.span, token⟩ :: later.lexemes }
    | .unknownWord => ⟨[], some segment.span⟩

def ofText (text : List Char) : Scan := ofSegments (Segment.split text)

def tokens (scan : Scan) : List Token := scan.lexemes.map Lexeme.token

end Scan

end Condition
