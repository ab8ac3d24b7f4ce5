import Condition.Grammar
import Condition.Proofs.LineTable

namespace Condition

/-- A part of one line: the lines above, and the line cut before the part and behind it. -/
structure LinePart where
  above : List (List Char)
  before : List Char
  chars : List Char
  behind : List Char

namespace LinePart

def line (part : LinePart) : List Char := part.before ++ part.chars ++ part.behind

/-- How many characters come before the line. -/
def offset (part : LinePart) : Nat := part.above.flatten.length

def start (part : LinePart) : Nat := part.offset + part.before.length

def stop (part : LinePart) : Nat := part.start + part.chars.length

/-- The column in the middle. The middle is that of the whole expression's characters. -/
def anchor (part : LinePart) : Nat := (part.start + part.stop) / 2 - part.offset

/-- The part is the range of a text that lies on this line. -/
structure Covers (part : LinePart) (text : List Char) (range : Span) : Prop where
  lines : ∃ below, LinesOf text (part.above ++ part.line :: below)
  start : range.start = byteSize (part.above.flatten ++ part.before)
  size : range.size = byteSize part.chars

end LinePart

section

variable {text chars : List Char} {range : Span} {part : LinePart}

theorem Region.ofSpan_append (front middle back : List Char) :
    ofSpan ⟨byteSize front, byteSize middle⟩ (front ++ middle ++ back) =
      ⟨front.length, front.length + middle.length,
        lineAt (splitLines (front ++ middle ++ back)) front.length,
        lineAt (splitLines (front ++ middle ++ back)) (front.length + middle.length - 1)⟩ := by
  have start := charOffset_append front (middle ++ back) 0
  have stop := charOffset_append (front ++ middle) back 0
  simp only [Nat.add_zero, charOffset_zero, byteSize_append, List.length_append,
    ← List.append_assoc] at start stop
  simp only [ofSpan, Span.stop, start, stop]

theorem lineAt_append {line : List Char} {column : Nat} (above : List (List Char))
    (inside : column < line.length) (below : List (List Char)) :
    lineAt (above ++ line :: below) (above.flatten.length + column) =
      ⟨above.length, above.flatten.length, line⟩ := by
  induction above with
  | nil => simp [lineAt, inside]
  | cons chars rest ih =>
    have shift : chars.length + rest.flatten.length + column - chars.length =
        rest.flatten.length + column := by omega
    rw [List.cons_append, lineAt, List.flatten_cons, List.length_append, if_neg (by omega), shift,
      ih]
    rfl

theorem exists_line (lines : List (List Char)) (offset : Nat)
    (inside : offset < lines.flatten.length) :
    ∃ above line below column, lines = above ++ line :: below ∧ column < line.length ∧
      offset = above.flatten.length + column := by
  induction lines generalizing offset with
  | nil => simp at inside
  | cons chars rest ih =>
    by_cases here : offset < chars.length
    · exact ⟨[], chars, rest, offset, rfl, here, (Nat.zero_add offset).symm⟩
    · rw [List.flatten_cons, List.length_append] at inside
      obtain ⟨above, line, below, column, split, within, place⟩ :=
        ih (offset - chars.length) (by omega)
      refine ⟨chars :: above, line, below, column, by rw [split, List.cons_append], within, ?_⟩
      rw [List.flatten_cons, List.length_append]
      omega

/-- Where a line is cut at two columns, a stretch of the text that begins and ends there stands
between them. -/
theorem cut_line {above below before behind line : List Char} {first stop : Nat}
    (whole : above ++ (line ++ below) = before ++ (chars ++ behind))
    (start : before.length = above.length + first)
    (ends : before.length + chars.length = above.length + stop) (inside : stop ≤ line.length) :
    before = above ++ line.take first ∧ line.take stop = line.take first ++ chars := by
  have upto (count : Nat) (within : count ≤ line.length) :
      (before ++ (chars ++ behind)).take (above.length + count) = above ++ line.take count := by
    rw [← whole, List.take_length_add_append, List.take_append_of_le_length within]
  have front : before = above ++ line.take first := by
    rw [← upto first (by omega), ← start, List.take_left]
  have both := upto stop inside
  rw [← ends, ← List.length_append, ← List.append_assoc, List.take_left, front,
    List.append_assoc] at both
  exact ⟨front, (List.append_cancel_left both).symm⟩

namespace LinePart

/-- A range on a line begins and ends on that line. -/
theorem Covers.region (covers : part.Covers text range) (filled : part.chars ≠ []) :
    Region.ofSpan range text = ⟨part.start, part.stop,
      ⟨part.above.length, part.offset, part.line⟩,
      ⟨part.above.length, part.offset, part.line⟩⟩ := by
  obtain ⟨first, size⟩ := range
  obtain ⟨⟨below, lines⟩, rfl, rfl⟩ := covers
  have some : 0 < part.chars.length := List.length_pos_iff.mpr filled
  have whole : part.above.flatten ++ part.before ++ part.chars ++ (part.behind ++ below.flatten) =
      text := by
    simpa [line] using lines.whole
  have found (column : Nat) (inside : column < part.before.length + part.chars.length) :
      lineAt (splitLines text) (part.offset + column) =
        ⟨part.above.length, part.offset, part.line⟩ := by
    rw [← linesOf_iff.mp lines]
    exact lineAt_append part.above (by simp only [line, List.length_append]; omega) below
  have start : (part.above.flatten ++ part.before).length = part.start := List.length_append
  have back : part.stop - 1 = part.offset + (part.before.length + part.chars.length - 1) := by
    simp only [LinePart.stop, LinePart.start]
    omega
  rw [← whole, Region.ofSpan_append, whole, start, ← LinePart.stop, back, found _ (by omega),
    LinePart.start, found _ (by omega)]

theorem anchor_inside (filled : part.chars ≠ []) :
    part.before.length ≤ part.anchor ∧ part.anchor < part.before.length + part.chars.length := by
  have some : 0 < part.chars.length := List.length_pos_iff.mpr filled
  simp only [anchor, start, stop]
  omega

end LinePart

theorem exists_covers (stands : Occurs text range chars) (filled : 0 < range.size)
    (same : (Region.ofSpan range text).first.index = (Region.ofSpan range text).last.index) :
    ∃ part : LinePart, part.Covers text range := by
  obtain ⟨before, behind, rfl, rfl⟩ := stands
  have some : 0 < chars.length := List.length_pos_iff.mpr fun empty => by simp [empty] at filled
  have lines := linesOf_splitLines (before ++ chars ++ behind)
  have size := congrArg List.length lines.whole
  simp only [List.length_append] at size
  obtain ⟨above, line, below, first, cut, inside, place⟩ :=
    exists_line (splitLines (before ++ chars ++ behind)) before.length (by omega)
  obtain ⟨above', line', below', last, cut', inside', place'⟩ :=
    exists_line (splitLines (before ++ chars ++ behind)) (before.length + chars.length - 1)
      (by omega)
  have index : above.length = above'.length := by
    have begins := lineAt_append above inside below
    have ends := lineAt_append above' inside' below'
    rw [← cut, ← place] at begins
    rw [← cut', ← place'] at ends
    rwa [Region.ofSpan_append, begins, ends] at same
  -- With equally many lines above, both cuts are one and the stretch lies between two columns.
  obtain ⟨rfl, rest⟩ := List.append_inj (cut.symm.trans cut') index
  obtain ⟨rfl, rfl⟩ := List.cons.inj rest
  have whole : above.flatten ++ (line ++ below.flatten) = before ++ (chars ++ behind) := by
    rw [← List.append_assoc before, ← lines.whole, cut]
    simp
  obtain ⟨front, middle⟩ := cut_line whole place (by omega) (Nat.succ_le_of_lt inside')
  refine ⟨⟨above, line.take first, chars, line.drop (last + 1)⟩, ⟨below, ?_⟩, ?_, rfl⟩
  · have joined : LinePart.line ⟨above, line.take first, chars, line.drop (last + 1)⟩ = line := by
      rw [LinePart.line, ← middle, List.take_append_drop]
    rw [joined, ← cut]
    exact lines
  · rw [← front]

/-- A part of a line is drawn as one line, and nothing else is. -/
theorem exists_covers_iff (stands : Occurs text range chars) (filled : 0 < range.size) :
    (∃ part : LinePart, part.Covers text range) ↔
      (Region.ofSpan range text).first.index = (Region.ofSpan range text).last.index := by
  refine ⟨?_, exists_covers stands filled⟩
  rintro ⟨part, covers⟩
  have nonempty : part.chars ≠ [] := by
    intro empty
    rw [covers.size, empty] at filled
    exact Nat.lt_irrefl 0 filled
  rw [covers.region nonempty]

end

end Condition
