import Condition.Proofs.LineParts
import Condition.Proofs.MarkCells
import Condition.Proofs.Pointing
import Condition.Report

namespace Condition

/-- The cells of each character of a line. One that is trimmed off the end takes one cell. -/
def lineWidths (line : List Char) : List Nat :=
  line.mapIdx fun column char => if column < (trimEnd line).length then cellWidth column char else 1

section

variable {line : List Char} {count stop : Nat}

@[simp] theorem length_lineWidths (line : List Char) : (lineWidths line).length = line.length :=
  List.length_mapIdx

theorem lineWidths_eq (line : List Char) : lineWidths line =
    (trimEnd line).mapIdx cellWidth ++ List.replicate (line.length - (trimEnd line).length) 1 := by
  obtain ⟨blanks, split⟩ := exists_trimEnd_append line
  have whole : line = trimEnd line ++ blanks := split.symm
  have rest : line.length - (trimEnd line).length = blanks.length := by
    rw [← congrArg List.length split, List.length_append]
    exact Nat.add_sub_cancel_left _ _
  rw [rest, lineWidths]
  -- What is shown depends on the line itself, so it gets a name before the line is cut.
  generalize trimEnd line = shown at whole
  rw [whole, List.mapIdx_append]
  congr 1
  · exact List.mapIdx_eq_mapIdx_iff.mpr fun column inside => if_pos inside
  · exact List.mapIdx_eq_replicate_iff.mpr fun column inside => if_neg (by omega)

theorem take_columnWidths (inside : stop ≤ line.length) (enough : stop ≤ count) :
    (columnWidths (trimEnd line) count).take stop = (lineWidths line).take stop := by
  rw [lineWidths_eq, columnWidths, List.take_take, List.take_append, List.take_append,
    List.take_replicate, List.take_replicate, Nat.min_eq_left enough, List.length_mapIdx]
  congr 2
  omega

theorem exists_columnWidths (inside : stop ≤ line.length) (more : Nat) :
    ∃ behind, columnWidths (trimEnd line) (stop + more) = (lineWidths line).take stop ++ behind :=
  ⟨_, by rw [← take_columnWidths inside (Nat.le_add_right stop more), List.take_append_drop]⟩

end

def glyphText (column : Nat) (char : Char) : List Char :=
  if isBlank char then List.replicate (cellWidth column char) ' ' else [char]

def lineShown (line : List Char) : List Char := (line.mapIdx glyphText).flatten

theorem text_glyph (ink : Ink) (column : Nat) (char : Char) :
    (Report.glyph ink column char).text = glyphText column char := by
  rw [Report.glyph, glyphText]
  split
  · rw [Row.text, List.flatMap_replicate]
    simp [Fragment.inked]
  · rfl

theorem text_body (region : Region) (line : Line) :
    (Report.body region line).text = lineShown (trimEnd line.chars) := by
  rw [Row.text, Report.body, lineShown, List.flatMap_def, List.map_flatten, List.flatten_flatten]
  simp only [List.mapIdx_eq_zipIdx_map, List.map_map]
  exact congrArg List.flatten (List.map_congr_left fun entry _ => text_glyph _ _ _)

theorem width_glyphText (column : Nat) (char : Char) :
    ((glyphText column char).map glyphWidth).sum = cellWidth column char := by
  have space : glyphWidth ' ' = 1 := by decide +kernel
  rw [glyphText]
  split
  case isTrue => simp [space]
  case isFalse visible =>
    have tab : char ≠ '\t' := by
      rintro rfl
      exact visible (by decide)
    simp [cellWidth, tab, visible]

/-- What is shown of a line takes the cells of its characters. -/
theorem width_lineShown (line : List Char) :
    ((lineShown line).map glyphWidth).sum = (line.mapIdx cellWidth).sum := by
  rw [lineShown, List.map_flatten, List.sum_flatten]
  simp only [List.mapIdx_eq_zipIdx_map, List.map_map, Function.comp_def, width_glyphText]

theorem lineShown_take (line : List Char) (count : Nat) :
    lineShown (line.take count) <+: lineShown line := by
  have whole := congrArg lineShown (List.take_append_drop count line)
  rw [lineShown, List.mapIdx_append, List.flatten_append] at whole
  exact ⟨_, whole⟩

theorem width_lineShown_take {line : List Char} {count : Nat}
    (within : count ≤ (trimEnd line).length) :
    ((lineShown ((trimEnd line).take count)).map glyphWidth).sum =
      ((lineWidths line).take count).sum := by
  have split := congrArg (List.mapIdx cellWidth) (List.take_append_drop count (trimEnd line))
  have size : (((trimEnd line).take count).mapIdx cellWidth).length = count := by
    rw [List.length_mapIdx, List.length_take, Nat.min_eq_left within]
  rw [List.mapIdx_append] at split
  rw [width_lineShown, lineWidths_eq, ← split, List.append_assoc,
    List.take_append_of_le_length size.ge, List.take_of_length_le size.le]

namespace LinePart

/-- The number of the line, as people count, between the edge of a report and the line. -/
def numbered (part : LinePart) : List Char :=
  ' ' :: (toString (part.above.length + 1)).toList ++ [' ', '│', ' ']

/-- The margin below the number, as wide as the one that holds it. -/
def margin (part : LinePart) : List Char :=
  ' ' :: List.replicate (toString (part.above.length + 1)).length ' ' ++ [' ', '│', ' ']

end LinePart

/-- How a part of a line is marked below that line. -/
structure Underlined (failure : Failure) (part : LinePart) (underline lead : List Char) : Prop where
  /-- The underline and the way to the label stand below the line, behind margins of one width. -/
  report :
    let region := Region.ofSpan failure.range failure.expression
    failure.report .plain = renderRows .plain (Report.head region failure.message) ++
      ((part.numbered ++ lineShown (trimEnd part.line) ++ ['\n']) ++
        (part.margin ++ underline ++ ['\n']) ++
        (part.margin ++ lead ++ ' ' :: failure.fault.label.toList ++ ['\n'])) ++
      renderRows .plain (Report.foot region (Report.advises failure.fault))
  /-- The characters of the line stand above the cells that are counted for them. -/
  aligned : ∀ count ≤ (trimEnd part.line).length,
    lineShown (part.line.take count) <+: lineShown (trimEnd part.line) ∧
      ((lineShown (part.line.take count)).map glyphWidth).sum =
        ((lineWidths part.line).take count).sum
  drawn : ∃ drawn more,
    underline = List.replicate ((lineWidths part.line).take part.before.length).sum ' ' ++ drawn ++
      List.replicate more ' ' ∧
    drawn.length = (((lineWidths part.line).drop part.before.length).take part.chars.length).sum ∧
    ∀ char ∈ drawn, char = '─' ∨ char = '┬'
  inside : part.before.length ≤ part.anchor ∧ part.anchor < part.before.length + part.chars.length
  /-- There is one tee, or none where the character at the anchor has no cell. -/
  tee : ∀ place : Nat, underline[place]? = some '┬' ↔
    0 < (lineWidths part.line).getD part.anchor 0 ∧
      place = ((lineWidths part.line).take part.anchor).sum
  /-- The only corner is right below the tee. -/
  corner : ∀ place : Nat, lead[place]? = some '╰' ↔ underline[place]? = some '┬'

namespace LinePart

variable {text : List Char} {range : Span} {part : LinePart}

/-- The mark of a part in columns of its line. -/
def mark (part : LinePart) : Mark :=
  ⟨part.before.length, part.before.length + part.chars.length, part.anchor⟩

theorem stop_mark_le (part : LinePart) : part.mark.stop ≤ part.line.length := by
  simp [mark, line, ← Nat.add_assoc]

/-- The columns before a part, those of its characters and two more. -/
theorem widths_mark (part : LinePart) : ∃ more, part.mark.widths (trimEnd part.line) =
    (lineWidths part.line).take part.before.length ++
      ((lineWidths part.line).drop part.before.length).take part.chars.length ++ more := by
  obtain ⟨more, widths⟩ := exists_columnWidths part.stop_mark_le 2
  rw [mark, List.take_add] at widths
  exact ⟨more, widths⟩

theorem exists_take_stop (filled : part.chars ≠ []) :
    ∃ rest, (lineWidths part.line).take part.mark.stop =
      (lineWidths part.line).take part.anchor ++
        (lineWidths part.line).getD part.anchor 0 :: rest := by
  have inside : part.anchor < part.mark.stop := (anchor_inside filled).2
  have stop := part.stop_mark_le
  rw [← length_lineWidths] at stop
  generalize lineWidths part.line = widths at stop
  have bound : part.anchor < (widths.take part.mark.stop).length := by
    rw [List.length_take]
    omega
  refine ⟨(widths.take part.mark.stop).drop (part.anchor + 1), ?_⟩
  conv_lhs => rw [← List.take_append_drop part.anchor (widths.take part.mark.stop)]
  rw [List.take_take, Nat.min_eq_left inside.le, List.drop_eq_getElem_cons bound, List.getElem_take,
    List.getD_eq_getElem _ _ (by omega)]

theorem length_take_anchor (filled : part.chars ≠ []) :
    ((lineWidths part.line).take part.anchor).length = part.anchor := by
  have inside : part.anchor < part.mark.stop := (anchor_inside filled).2
  exact List.length_take_of_le (inside.le.trans (length_lineWidths part.line ▸ part.stop_mark_le))

theorem widths_mark_anchor (filled : part.chars ≠ []) :
    ∃ rest, part.mark.widths (trimEnd part.line) = (lineWidths part.line).take part.anchor ++
      (lineWidths part.line).getD part.anchor 0 :: rest := by
  obtain ⟨more, widths⟩ := exists_columnWidths part.stop_mark_le 2
  obtain ⟨rest, split⟩ := exists_take_stop filled
  rw [Mark.widths, widths, split]
  exact ⟨rest ++ more, List.append_assoc _ _ _⟩

end LinePart

section

variable {failure : Failure} {part : LinePart}

theorem text_unnumbered (part : LinePart) :
    (Report.unnumbered (toString (part.above.length + 1)).length "│").text = part.margin := by
  simp [Row.text, Report.unnumbered, Fragment.bare, Fragment.inked, spaces, toString,
    LinePart.margin]

/-- A number that fills its column is not padded. -/
theorem text_numbered (part : LinePart) (offset : Nat) (chars : List Char) :
    (Report.numbered (toString (part.above.length + 1)).length
      ⟨part.above.length, offset, chars⟩).text = part.numbered := by
  simp [Row.text, Report.numbered, Fragment.bare, Fragment.inked, padLeft, spaces, toString,
    LinePart.numbered]

theorem renderRows_singleLine (part : LinePart) (label : String) :
    renderRows .plain (Report.singleLine ⟨part.start, part.stop,
        ⟨part.above.length, part.offset, part.line⟩,
        ⟨part.above.length, part.offset, part.line⟩⟩ label) =
      (part.numbered ++ lineShown (trimEnd part.line) ++ ['\n']) ++
      (part.margin ++ (part.mark.ruleRow (trimEnd part.line)).text ++ ['\n']) ++
      (part.margin ++ (part.mark.leadRow (trimEnd part.line)).text ++ ' ' :: label.toList ++
        ['\n']) := by
  have start : part.start - part.offset = part.before.length := Nat.add_sub_cancel_left _ _
  have stop : part.stop - part.offset = part.before.length + part.chars.length := by
    simp only [LinePart.stop, LinePart.start]
    omega
  have labelled : Row.text [.bare " ", .bare label] = ' ' :: label.toList := by
    simp [Row.text, Fragment.bare]
  simp only [Report.singleLine, Report.numberWidth, start, stop, renderRows_plain_cons,
    Row.text_append, text_numbered, text_unnumbered, text_body, labelled]
  simp [renderRows, LinePart.mark, LinePart.anchor]

theorem LinePart.underlined (part : LinePart) (filled : part.chars ≠ [])
    (covers : part.Covers failure.expression failure.range)
    (visible : ¬ IsBlank failure.expression) :
    Underlined failure part (part.mark.ruleRow (trimEnd part.line)).text
      (part.mark.leadRow (trimEnd part.line)).text where
  report := by
    have drawing := renderRows_singleLine part failure.fault.label
    rw [Failure.report, if_neg visible, Report.rows, covers.region filled]
    simp only [if_pos, renderRows_append, drawing]
  aligned count within := by
    have same : part.line.take count = (trimEnd part.line).take count := by
      obtain ⟨blanks, split⟩ := exists_trimEnd_append part.line
      conv_lhs => rw [← split]
      exact List.take_append_of_le_length within
    rw [same]
    exact ⟨lineShown_take _ count, width_lineShown_take within⟩
  drawn := by
    obtain ⟨more, widths⟩ := part.widths_mark
    have length : part.before.length + part.chars.length ≤ (lineWidths part.line).length :=
      length_lineWidths part.line ▸ part.stop_mark_le
    obtain ⟨drawn, row, cells, signs⟩ := Mark.text_ruleRow (anchor_inside filled) widths
      (by rw [List.length_take]; simp only [mark]; omega)
      (by rw [List.length_take, List.length_take, List.length_drop]; simp only [mark]; omega)
    exact ⟨drawn, more.sum, row, cells, signs⟩
  inside := anchor_inside filled
  tee place := by
    obtain ⟨rest, widths⟩ := widths_mark_anchor filled
    exact Mark.getElem?_ruleRow widths (length_take_anchor filled) place
  corner place := by
    obtain ⟨rest, widths⟩ := widths_mark_anchor filled
    rw [Mark.getElem?_leadRow widths (length_take_anchor filled),
      Mark.getElem?_ruleRow widths (length_take_anchor filled)]

end

variable {text : List Char} {failure : Failure} {part : LinePart}

/-- Whatever goes wrong on one line of an expression, the underline marks the characters at fault
and no others. -/
theorem evaluate_underlined (visible : ¬ IsBlank text)
    (failed : evaluate strictness text = .error failure) (covers : part.Covers text failure.range) :
    ∃ underline lead, Underlined failure part underline lead := by
  have filled : part.chars ≠ [] := by
    intro empty
    have some := (evaluate_range failed visible).1
    rw [covers.size, empty] at some
    exact Nat.lt_irrefl 0 some
  rw [← evaluate_expression failed] at visible covers
  exact ⟨_, _, part.underlined filled covers visible⟩

/-- The word in `(1 日\tx` ends with a line feed that is trimmed, and has a wide character and a
tab in it. -/
theorem evaluate_underlined_wide :
    let text := "(1 日\tx\n".toList
    let failure : Failure := ⟨text, .unknownWord ⟨3, 6⟩⟩
    let part : LinePart := ⟨[], "(1 ".toList, "日\tx\n".toList, []⟩
    ¬ IsBlank text ∧ evaluate .strict text = .error failure ∧ part.Covers text failure.range ∧
      ∃ underline lead, Underlined failure part underline lead := by
  intro text failure part
  have visible : ¬ IsBlank text := by decide
  have failed : evaluate .strict text = .error failure := by decide
  have covers : part.Covers text failure.range :=
    ⟨⟨[], linesOf_iff.mpr (by decide)⟩, by decide, by decide⟩
  exact ⟨visible, failed, covers, evaluate_underlined visible failed covers⟩

end Condition
