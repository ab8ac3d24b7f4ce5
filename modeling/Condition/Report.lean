import Condition.Report.Mark
import Condition.Report.Region
import Condition.Text.Lossy
import Condition.Text.Pad

namespace Condition.Report

/-- What to try when operators take operands that do not fit. -/
def advice : String := "operators have no precedence; group sub-expressions with parentheses"

/-- Whether grouping in another way may mend a fault. -/
def advises : Fault → Bool
  | .invalidOperand _ _ | .trailingValues _ => true
  | _ => false

def numberWidth (region : Region) : Nat := (toString (region.last.index + 1)).length

def numbered (width : Nat) (line : Line) : Row :=
  let number := padLeft width (toString (line.index + 1))
  [.bare " ", .inked .margin s!"{number} │", .bare " "]

/-- The margin of a row between lines. -/
def unnumbered (width : Nat) (bar : String) : Row :=
  let indent := spaces width
  [.bare " ", .inked .faintMargin s!"{indent} {bar}", .bare " "]

/-- A character as shown. A blank becomes as many spaces as it is wide. -/
def glyph (ink : Ink) (column : Nat) (char : Char) : Row :=
  if isBlank char then List.replicate (cellWidth column char) (.inked ink " ")
  else [⟨some ink, [char]⟩]

/-- A line as shown, without the blanks at its end. -/
def body (region : Region) (line : Line) : Row :=
  ((trimEnd line.chars).mapIdx fun column char =>
    let offset := line.offset + column
    let ink := if region.start ≤ offset ∧ offset < region.stop then Ink.mark else .body
    glyph ink column char).flatten

/-- A fault within one line is underlined. -/
def singleLine (region : Region) (label : String) : List Row :=
  let width := numberWidth region
  let line := region.first
  let shown := trimEnd line.chars
  let mark : Mark := ⟨region.start - line.offset, region.stop - line.offset,
    (region.start + region.stop) / 2 - line.offset⟩
  [numbered width line ++ body region line,
    unnumbered width "│" ++ mark.ruleRow shown,
    unnumbered width "│" ++ mark.leadRow shown ++ [.bare " ", .bare label]]

def arrow (sign : String) : Row := [sign, "─", "▶", " "].map (.inked .mark)

/-- A fault over several lines is shown by arrows at its first and its last line. The label hangs
below, behind the end of the last line. -/
def multiLine (region : Region) (label : String) : List Row :=
  let width := numberWidth region
  let shown := trimEnd region.last.chars
  let reach := 3 :: columnWidths shown (region.last.chars.length + 2)
  let between : List Row :=
    if region.last.index - region.first.index > 1 then
      [unnumbered width "┆" ++ [.inked .mark "┆", .space 3]]
    else []
  [numbered width region.first ++ arrow "╭" ++ body region region.first] ++ between ++
    [numbered width region.last ++ arrow "├" ++ body region region.last,
      unnumbered width "│" ++ [.inked .mark "│"] ++ reach.map Fragment.space,
      unnumbered width "│" ++ [.inked .mark "╰"] ++ reach.flatMap strokes ++
        [.bare " ", .bare label]]

/-- The head of a drawing: the message and where the fault is. -/
def head (region : Region) (message : String) : List Row :=
  let indent := Fragment.space (numberWidth region + 2)
  let (line, column) := region.position
  [[.inked .mark "Error:", .bare " ", .bare message],
    [indent, .inked .margin "╭", .inked .margin "─", .inked .margin "[",
      .bare s!" <expression>:{line}:{column} ", .inked .margin "]"],
    [indent, .inked .margin "│"]]

/-- The foot of a drawing, below any advice. -/
def foot (region : Region) (advised : Bool) : List Row :=
  let width := numberWidth region
  let margin := unnumbered width "│"
  let rule := String.ofList (List.replicate (width + 2) '─')
  let help : List Row :=
    if advised then [margin, margin ++ [.inked .help "Help", .bare ": ", .bare advice]] else []
  help ++ [[.inked .margin s!"{rule}╯"]]

/-- The rows of a report on an expression that has something to show. -/
def rows (failure : Failure) : List Row :=
  let region := Region.ofSpan failure.range failure.expression
  let label := failure.fault.label
  let marked :=
    if region.first.index = region.last.index then singleLine region label
    else multiLine region label
  head region failure.message ++ marked ++ foot region (advises failure.fault)

/-- The report on a blank expression is its message and label without any ink. -/
def blankRows (failure : Failure) : List Row :=
  [[.bare "Error: ", .bare failure.message], [.bare "  ", .bare failure.fault.label]]

end Report

/-- The report on a failure as written. -/
def Failure.report (palette : Palette) (failure : Failure) : List Char :=
  renderRows palette
    (if IsBlank failure.expression then Report.blankRows failure else Report.rows failure)

/-- Writes the report on a failure behind what was written before. -/
def Failure.writeReport (palette : Palette) (failure : Failure) (written : List UInt8) :
    List UInt8 :=
  written ++ (failure.report palette).flatMap String.utf8EncodeChar

/-- The report on a failure as a text, read from what is written. -/
def Failure.reportText (palette : Palette) (failure : Failure) : List Char :=
  decodeLossy (failure.writeReport palette [])

theorem Failure.reportText_eq (palette : Palette) (failure : Failure) :
    failure.reportText palette = failure.report palette := by
  rw [reportText, writeReport, List.nil_append, decodeLossy_encode]

end Condition
