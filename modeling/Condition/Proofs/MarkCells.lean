import Condition.Report.Mark
import Mathlib.Algebra.Ring.Nat

/-! The cells of a mark. Both of its rows are drawn column by column and each column
takes its own width, so what stands in a column is as far from the margin in both. -/

namespace Condition

/-- The characters of a row, whatever their ink. -/
def Row.text (row : Row) : List Char := row.flatMap Fragment.chars

/-- A row that is drawn column by column. -/
def Row.drawn (draw : Nat → Nat → Row) (widths : List Nat) : Row := (widths.mapIdx draw).flatten

/-- Each column is drawn in as many cells as it is wide. -/
def Fits (draw : Nat → Nat → Row) : Prop :=
  ∀ column width, (draw column width).text.length = width

theorem renderRows_append (palette : Palette) (front back : List Row) :
    renderRows palette (front ++ back) = renderRows palette front ++ renderRows palette back :=
  List.flatMap_append

theorem renderRows_plain_cons (row : Row) (rest : List Row) :
    renderRows .plain (row :: rest) = row.text ++ ['\n'] ++ renderRows .plain rest := rfl

section

variable {draw : Nat → Nat → Row} {front back widths : List Nat} {char sign : Char}

@[simp] theorem Row.text_append (front back : Row) :
    (front ++ back).text = front.text ++ back.text :=
  List.flatMap_append

theorem Row.drawn_cons (draw : Nat → Nat → Row) (width : Nat) (rest : List Nat) :
    drawn draw (width :: rest) = draw 0 width ++ drawn (fun column => draw (column + 1)) rest := by
  rw [drawn, List.mapIdx_cons, List.flatten_cons]
  rfl

theorem Row.drawn_append (draw : Nat → Nat → Row) (front back : List Nat) :
    drawn draw (front ++ back) =
      drawn draw front ++ drawn (fun column => draw (column + front.length)) back := by
  rw [drawn, List.mapIdx_append, List.flatten_append]
  rfl

theorem Row.mem_text_drawn : char ∈ (drawn draw widths).text ↔
    ∃ column, ∃ inside : column < widths.length, char ∈ (draw column widths[column]).text := by
  simp only [text, drawn, List.mem_flatMap, List.mem_flatten, List.mem_mapIdx]
  constructor
  · rintro ⟨fragment, ⟨row, ⟨column, inside, rfl⟩, part⟩, member⟩
    exact ⟨column, inside, fragment, part, member⟩
  · rintro ⟨column, inside, fragment, part, member⟩
    exact ⟨fragment, ⟨_, ⟨column, inside, rfl⟩, part⟩, member⟩

theorem Row.length_text_drawn (fits : Fits draw) (widths : List Nat) :
    (drawn draw widths).text.length = widths.sum := by
  induction widths generalizing draw with
  | nil => rfl
  | cons width rest ih =>
    have later := ih fun column => fits (column + 1)
    rw [drawn_cons, text_append, List.length_append, fits, later, List.sum_cons]

theorem Row.text_drawn_blank (fits : Fits draw)
    (blank : ∀ column width, column < widths.length →
      ∀ char ∈ (draw column width).text, char = ' ') :
    (drawn draw widths).text = List.replicate widths.sum ' ' := by
  refine List.eq_replicate_iff.mpr ⟨length_text_drawn fits widths, fun char member => ?_⟩
  obtain ⟨column, inside, here⟩ := mem_text_drawn.mp member
  exact blank column _ inside char here

theorem getElem?_eq_some_iff_of_notMem {front back : List Char} (ahead : sign ∉ front)
    (behind : sign ∉ back) {place : Nat} :
    (front ++ sign :: back)[place]? = some sign ↔ place = front.length := by
  constructor
  · intro found
    rcases Nat.lt_trichotomy place front.length with before | same | after
    · rw [List.getElem?_append_left before] at found
      exact absurd (List.mem_of_getElem? found) ahead
    · exact same
    · obtain ⟨more, rfl⟩ := Nat.exists_eq_add_of_lt after
      rw [Nat.add_assoc, List.getElem?_append_right (Nat.le_add_right _ _), Nat.add_sub_cancel_left,
        List.getElem?_cons_succ] at found
      exact absurd (List.mem_of_getElem? found) behind
  · rintro rfl
    rw [List.getElem?_append_right (Nat.le_refl _), Nat.sub_self, List.getElem?_cons_zero]

end

@[simp] theorem text_strokes (width : Nat) : (strokes width).text = List.replicate width '─' := by
  rw [Row.text, strokes, List.flatMap_replicate]
  simp [Fragment.inked]

@[simp] theorem stretch_zero (sign : String) : stretch sign 0 = [] := rfl

@[simp] theorem stretch_succ (sign : String) (width : Nat) :
    stretch sign (width + 1) = .inked .mark sign :: strokes width := by
  rw [stretch, List.take_succ_cons, strokes, List.take_replicate, Nat.min_eq_left (Nat.le_succ _)]
  rfl

theorem text_stretch_succ (char : Char) {sign : String} (single : sign.toList = [char])
    (width : Nat) : (stretch sign (width + 1)).text = char :: List.replicate width '─' := by
  have strokes := text_strokes width
  rw [Row.text] at strokes
  rw [stretch_succ, Row.text, List.flatMap_cons, strokes]
  simp [Fragment.inked, single]

theorem length_text_stretch (char : Char) {sign : String} (single : sign.toList = [char])
    (width : Nat) : (stretch sign width).text.length = width := by
  cases width with
  | zero => rfl
  | succ width => rw [text_stretch_succ char single, List.length_cons, List.length_replicate]

theorem text_space (width : Nat) : Row.text [.space width] = List.replicate width ' ' :=
  List.append_nil _

/-- A row of strokes and blanks with a sign of one character in one of its columns. -/
structure Signed (draw : Nat → Nat → Row) (sign : String) (char : Char) (anchor : Nat) : Prop where
  single : sign.toList = [char]
  own : ∀ width, draw anchor width = stretch sign width
  others : ∀ column width, column ≠ anchor →
    draw column width = strokes width ∨ draw column width = [.space width]

namespace Signed

variable {draw : Nat → Nat → Row} {sign : String} {char : Char} {anchor : Nat}

theorem fits (signed : Signed draw sign char anchor) : Fits draw := by
  intro column width
  by_cases own : column = anchor
  · rw [own, signed.own, length_text_stretch char signed.single]
  · rcases signed.others column width own with strokes | space
    · rw [strokes, text_strokes, List.length_replicate]
    · rw [space, text_space, List.length_replicate]

theorem notMem_of_ne (signed : Signed draw sign char anchor) (stroke : char ≠ '─')
    (blank : char ≠ ' ') (other : column ≠ anchor) (width : Nat) :
    char ∉ (draw column width).text := by
  intro member
  rcases signed.others column width other with strokes | space
  · rw [strokes, text_strokes] at member
    exact stroke (List.eq_of_mem_replicate member)
  · rw [space, text_space] at member
    exact blank (List.eq_of_mem_replicate member)

/-- The sign stands behind all cells of the columns before its own. A column without cells does not
show it. -/
theorem getElem?_eq_some_iff (signed : Signed draw sign char front.length) (stroke : char ≠ '─')
    (blank : char ≠ ' ') (width : Nat) (back : List Nat) (place : Nat) :
    (Row.drawn draw (front ++ width :: back)).text[place]? = some char ↔
      0 < width ∧ place = front.sum := by
  let rest := Row.drawn (fun column => draw (column + 1 + front.length)) back
  have ahead : char ∉ (Row.drawn draw front).text := fun member => by
    obtain ⟨column, inside, here⟩ := Row.mem_text_drawn.mp member
    exact signed.notMem_of_ne stroke blank (Nat.ne_of_lt inside) _ here
  have behind : char ∉ rest.text := fun member => by
    obtain ⟨column, inside, here⟩ := Row.mem_text_drawn.mp member
    exact signed.notMem_of_ne stroke blank (by omega) _ here
  have whole : (Row.drawn draw (front ++ width :: back)).text =
      (Row.drawn draw front).text ++ ((stretch sign width).text ++ rest.text) := by
    rw [Row.drawn_append, Row.text_append, Row.drawn_cons, Row.text_append, Nat.zero_add,
      signed.own]
  rw [whole]
  cases width with
  | zero =>
    rw [stretch_zero]
    refine iff_of_false (fun found => ?_) fun wide => Nat.lt_irrefl 0 wide.1
    rcases List.mem_append.mp (List.mem_of_getElem? found) with member | member
    · exact ahead member
    · exact behind member
  | succ width =>
    have clear : char ∉ List.replicate width '─' ++ rest.text := by simp [stroke, behind]
    rw [text_stretch_succ char signed.single, List.cons_append,
      getElem?_eq_some_iff_of_notMem ahead clear, Row.length_text_drawn signed.fits]
    exact (and_iff_right (Nat.succ_pos width)).symm

end Signed

namespace Mark

variable {mark : Mark} {line : List Char} {left under right front back : List Nat}

theorem signed_rule (mark : Mark) : Signed mark.rule "┬" '┬' mark.anchor where
  single := rfl
  own width := if_pos rfl
  others column width other := by
    rw [rule, if_neg other]
    split
    · exact .inl rfl
    · exact .inr rfl

theorem signed_lead (mark : Mark) : Signed mark.lead "╰" '╰' mark.anchor where
  single := rfl
  own width := if_pos rfl
  others column width other := by
    rw [lead, if_neg other]
    split
    · exact .inl rfl
    · exact .inr rfl

theorem text_rule_outside (inside : mark.start ≤ mark.anchor ∧ mark.anchor < mark.stop)
    (outside : column < mark.start ∨ mark.stop ≤ column) (width : Nat) :
    (mark.rule column width).text = List.replicate width ' ' := by
  rw [rule, if_neg (by omega), if_neg (by omega), text_space]

theorem drawn_rule_within (within : mark.start ≤ column ∧ column < mark.stop) (width : Nat) :
    ∀ char ∈ (mark.rule column width).text, char = '─' ∨ char = '┬' := by
  intro char member
  rw [rule] at member
  split at member
  · cases width with
    | zero => exact absurd member List.not_mem_nil
    | succ width =>
      rw [text_stretch_succ '┬' rfl] at member
      rcases List.mem_cons.mp member with tee | stroke
      · exact .inr tee
      · exact .inl (List.eq_of_mem_replicate stroke)
  · rw [text_strokes] at member
    exact .inl (List.eq_of_mem_replicate member)

/-- An underline begins below the start of the fault and is as wide as the fault. -/
theorem text_ruleRow (inside : mark.start ≤ mark.anchor ∧ mark.anchor < mark.stop)
    (widths : mark.widths line = left ++ under ++ right) (start : left.length = mark.start)
    (stop : left.length + under.length = mark.stop) :
    ∃ drawn, (mark.ruleRow line).text =
        List.replicate left.sum ' ' ++ drawn ++ List.replicate right.sum ' ' ∧
      drawn.length = under.sum ∧ ∀ char ∈ drawn, char = '─' ∨ char = '┬' := by
  have fits := mark.signed_rule.fits
  have ahead : (Row.drawn mark.rule left).text = List.replicate left.sum ' ' := by
    refine Row.text_drawn_blank fits fun column width bound char member => ?_
    rw [text_rule_outside inside (by omega)] at member
    exact List.eq_of_mem_replicate member
  have behind : (Row.drawn (fun column => mark.rule (column + (left ++ under).length)) right).text =
      List.replicate right.sum ' ' := by
    refine Row.text_drawn_blank (fun column => fits _) fun column width bound char member => ?_
    rw [List.length_append, text_rule_outside inside (by omega)] at member
    exact List.eq_of_mem_replicate member
  refine ⟨(Row.drawn (fun column => mark.rule (column + left.length)) under).text, ?_,
    Row.length_text_drawn (fun column => fits _) under, fun char member => ?_⟩
  · have whole : mark.ruleRow line = Row.drawn mark.rule (left ++ under ++ right) :=
      congrArg (Row.drawn mark.rule) widths
    rw [whole, Row.drawn_append, Row.drawn_append, Row.text_append, Row.text_append, ahead, behind]
  · obtain ⟨column, bound, here⟩ := Row.mem_text_drawn.mp member
    exact drawn_rule_within (by omega) _ char here

/-- The tee of an underline stands in the first cell of its column, if that has a cell. -/
theorem getElem?_ruleRow (widths : mark.widths line = front ++ width :: back)
    (anchor : front.length = mark.anchor) (place : Nat) :
    (mark.ruleRow line).text[place]? = some '┬' ↔ 0 < width ∧ place = front.sum := by
  have whole : mark.ruleRow line = Row.drawn mark.rule (front ++ width :: back) :=
    congrArg (Row.drawn mark.rule) widths
  have signed := mark.signed_rule
  rw [← anchor] at signed
  rw [whole, signed.getElem?_eq_some_iff (by decide) (by decide)]

/-- The corner below stands in the first cell of the same column. -/
theorem getElem?_leadRow (widths : mark.widths line = front ++ width :: back)
    (anchor : front.length = mark.anchor) (place : Nat) :
    (mark.leadRow line).text[place]? = some '╰' ↔ 0 < width ∧ place = front.sum := by
  have whole : mark.leadRow line = Row.drawn mark.lead (front ++ width :: back) :=
    congrArg (Row.drawn mark.lead) widths
  have signed := mark.signed_lead
  rw [← anchor] at signed
  rw [whole, signed.getElem?_eq_some_iff (by decide) (by decide)]

end Mark

end Condition
