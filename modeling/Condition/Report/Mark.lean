import Condition.Report.Fragment
import Condition.Text.Width

/-! The mark under a line. One row underlines the columns at fault with a tee in
the middle, and the next row leads from the tee to a label. -/

namespace Condition

/-- The columns at fault, up to `stop`, and the one where the label hangs. -/
structure Mark where
  start : Nat
  stop : Nat
  anchor : Nat
deriving DecidableEq, Repr

def strokes (width : Nat) : Row := List.replicate width (.inked .mark "─")

/-- A sign of one cell, drawn out with strokes to a width. -/
def stretch (sign : String) (width : Nat) : Row :=
  (Fragment.inked .mark sign :: strokes width).take width

/-- The cells of the first `count` columns of a line. Behind its end a column is one cell. -/
def columnWidths (line : List Char) (count : Nat) : List Nat :=
  (line.mapIdx cellWidth ++ List.replicate count 1).take count

namespace Mark

/-- The underline at one column. -/
def rule (mark : Mark) (column width : Nat) : Row :=
  if column = mark.anchor then stretch "┬" width
  else if mark.start ≤ column ∧ column < mark.stop then strokes width
  else [.space width]

/-- The way to the label at one column. -/
def lead (mark : Mark) (column width : Nat) : Row :=
  if column = mark.anchor then stretch "╰" width
  else if mark.anchor < column then strokes width
  else [.space width]

/-- How wide each column is that the mark spans. It ends two columns behind the fault. -/
def widths (mark : Mark) (line : List Char) : List Nat := columnWidths line (mark.stop + 2)

def ruleRow (mark : Mark) (line : List Char) : Row :=
  ((mark.widths line).mapIdx mark.rule).flatten

def leadRow (mark : Mark) (line : List Char) : Row :=
  ((mark.widths line).mapIdx mark.lead).flatten

end Mark

end Condition
