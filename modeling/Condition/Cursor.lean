import Condition.Scan

/-! A text that is read one token at a time. A cursor stands between the bytes
that are read and the text that is not. An unknown word moves it to the end. -/

namespace Condition

/-- The tokens of a scan one after the other, and behind them the unknown word. -/
def Scan.items (scan : Scan) : List (Except Span Lexeme) :=
  scan.lexemes.map .ok ++ scan.unknown.toList.map .error

/-- How many bytes are read, and the text behind them. -/
structure Cursor where
  offset : Nat
  unread : List Char
deriving DecidableEq, Repr

namespace Cursor

def ofText (text : List Char) : Cursor := ⟨0, text⟩

/-- Moves behind the spaces at the cursor. -/
def skipSpaces (cursor : Cursor) : Cursor :=
  ⟨cursor.offset + byteSize (cursor.unread.takeWhile (· == ' ')),
    cursor.unread.dropWhile (· == ' ')⟩

def finish (cursor : Cursor) : Cursor := ⟨cursor.offset + byteSize cursor.unread, []⟩

/-- The next token or the place of an unknown word, and where the reading goes on. -/
def next (cursor : Cursor) : Option (Except Span Lexeme) × Cursor :=
  let start := cursor.skipSpaces
  match start.unread with
  | [] => (none, start)
  | char :: rest =>
    let run := char :: rest.takeWhile (CharKind.joins char)
    let span : Span := ⟨start.offset, byteSize run⟩
    let behind : Cursor := ⟨span.stop, rest.dropWhile (CharKind.joins char)⟩
    match CharKind.of char with
    | .openParen => (some (.ok ⟨span, .openParen⟩), behind)
    | .closeParen => (some (.ok ⟨span, .closeParen⟩), behind)
    | .digit => (some (.ok ⟨span, .integer run⟩), behind)
    | _ =>
      match Token.ofWord? run with
      | some token => (some (.ok ⟨span, token⟩), behind)
      | none => (some (.error span), start.finish)

/-- What a call of `next` finds when some calls were made before it. -/
def call (cursor : Cursor) : Nat → Option (Except Span Lexeme)
  | 0 => cursor.next.1
  | earlier + 1 => cursor.next.2.call earlier

end Cursor

end Condition
