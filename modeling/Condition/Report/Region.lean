import Condition.Fault
import Condition.Text.Line

namespace Condition

/-- A stretch of characters with the lines on which it begins and ends. -/
structure Region where
  start : Nat
  stop : Nat
  first : Line
  last : Line
deriving DecidableEq, Repr

/-- The place of the fault. Where it has none, or an empty one, it is the whole expression. -/
def Failure.range (failure : Failure) : Span :=
  let whole : Span := ⟨0, byteSize failure.expression⟩
  match failure.fault.span? with
  | some span => if span.size = 0 then whole else span
  | none => whole

theorem Failure.range_of_pos {failure : Failure} {span : Span}
    (place : failure.fault.span? = some span) (filled : 0 < span.size) :
    failure.range = span := by
  simp only [Failure.range, place, Nat.pos_iff_ne_zero.mp filled, if_false]

theorem Failure.range_of_empty {failure : Failure}
    (empty : ∀ span ∈ failure.fault.span?, span.size = 0) :
    failure.range = ⟨0, byteSize failure.expression⟩ := by
  cases place : failure.fault.span? with
  | none => simp only [Failure.range, place]
  | some span => simp only [Failure.range, place, empty span place, if_true]

namespace Region

def ofSpan (span : Span) (text : List Char) : Region :=
  let start := charOffset span.start text
  let stop := charOffset span.stop text
  let lines := splitLines text
  ⟨start, stop, lineAt lines start, lineAt lines (stop - 1)⟩

/-- The place as people count it: lines and columns from one. -/
def position (region : Region) : Nat × Nat :=
  (region.first.index + 1, region.start - region.first.offset + 1)

end Region

/-- The byte where a line and a column begin, both counted from one. -/
def byteAt? (lines : List (List Char)) : Nat → Nat → Option Nat
  | line + 1, column + 1 =>
    match lines[line]? with
    | some chars =>
      if column < chars.length then
        some (byteSize ((lines.take line).flatten ++ chars.take column))
      else none
    | none => none
  | _, _ => none

/-- The byte at a place as a report prints it: a line and a column with a colon between them. -/
def byteAtPlace? (lines : List (List Char)) (place : List Char) : Option Nat := do
  let line ← (String.ofList (place.takeWhile (· != ':'))).toNat?
  let column ← (String.ofList ((place.dropWhile (· != ':')).drop 1)).toNat?
  byteAt? lines line column

end Condition
