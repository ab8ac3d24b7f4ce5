import Condition.Cursor

/-! Colors for a line that is being typed. All of the line is shown: spaces and
parentheses stay white, and so does what follows an unknown word. The pieces of a
line can be found from its segments, or cut out at the places of its tokens. -/

namespace Condition

inductive Color where
  | white
  | cyan
  | yellow
  | magenta
  | red
deriving DecidableEq, Repr

/-- A stretch of a line in one color. -/
structure Piece where
  color : Color
  chars : List Char
deriving DecidableEq, Repr

def Token.color : Token → Color
  | openParen | closeParen => .white
  | boolean _ | integer _ => .cyan
  | operator (.comparison _) => .yellow
  | operator (.connective _) => .magenta

namespace Piece

/-- The rest of a line as one piece, unless nothing is left. -/
def rest (segments : List Segment) : List Piece :=
  if segments.isEmpty then [] else [⟨.white, segments.flatMap Segment.chars⟩]

def ofSegments : List Segment → List Piece
  | [] => []
  | segment :: later =>
    match segment.reading with
    | .gap => ⟨.white, segment.chars⟩ :: ofSegments later
    | .token token => ⟨token.color, segment.chars⟩ :: ofSegments later
    | .unknownWord => ⟨.red, segment.chars⟩ :: rest later

theorem flatMap_chars_ofSegments (segments : List Segment) :
    (ofSegments segments).flatMap chars = segments.flatMap Segment.chars := by
  induction segments with
  | nil => rfl
  | cons segment later ih =>
    simp only [ofSegments]
    split
    · simp [ih]
    · simp [ih]
    · cases later <;> simp [rest]

end Piece

def highlight (line : List Char) : List Piece := Piece.ofSegments (Segment.split line)

/-- A color for what stands at a span. -/
structure Shade where
  color : Color
  span : Span
deriving DecidableEq, Repr

namespace Shade

def ofItem : Except Span Lexeme → Shade
  | .ok lexeme => ⟨lexeme.token.color, lexeme.span⟩
  | .error span => ⟨.red, span⟩

/-- What lies between two offsets is white, unless nothing does. -/
def between (start stop : Nat) : List Shade :=
  if start < stop then [⟨.white, ⟨start, stop - start⟩⟩] else []

/-- The shades of a line of some size behind an offset: those of its items, and of all that no item
covers. -/
def ofItems (size : Nat) : Nat → List (Except Span Lexeme) → List Shade
  | reached, [] => between reached size
  | reached, item :: rest =>
    let shade := ofItem item
    between reached shade.span.start ++ shade :: ofItems size shade.span.stop rest

def ofText (line : List Char) : List Shade := ofItems (byteSize line) 0 (Scan.ofText line).items

def piece (line : List Char) (shade : Shade) : Piece := ⟨shade.color, shade.span.slice line⟩

end Shade

end Condition
