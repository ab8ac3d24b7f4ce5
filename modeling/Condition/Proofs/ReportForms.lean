import Condition.Proofs.LineTable
import Condition.Proofs.Pointing
import Condition.Proofs.StackOrder
import Condition.Report
import Condition.Text.ColorSequence

namespace Condition

def Unescaped (row : Row) : Prop := ∀ fragment ∈ row, '\x1B' ∉ fragment.chars

theorem Ink.parameters (ink : Ink) :
    ∀ char ∈ ink.code.toList, isColorParameter char = true := by
  rw [← List.all_eq_true]
  cases ink <;> decide

/-- In front of anything a colored fragment is reduced to its characters. -/
theorem Fragment.withoutColors_render {fragment : Fragment} (plain : '\x1B' ∉ fragment.chars)
    (back : List Char) :
    withoutColors (fragment.render .colored ++ back) =
      fragment.render .plain ++ withoutColors back := by
  obtain ⟨ink, chars⟩ := fragment
  cases ink with
  | none => exact withoutColors_append plain back
  | some ink =>
    have drop : withoutColors (['\x1B', '[', '0', 'm'] ++ back) = withoutColors back :=
      withoutColors_sequence ['0'] (List.all_eq_true.mp rfl) back
    have select := withoutColors_sequence ink.code.toList ink.parameters
      (chars ++ (['\x1B', '[', '0', 'm'] ++ back))
    simp only [render, List.cons_append, List.append_assoc, List.nil_append] at select drop ⊢
    rw [select, withoutColors_append plain, drop]

theorem withoutColors_row {row : Row} (plain : Unescaped row) (back : List Char) :
    withoutColors (row.flatMap (·.render .colored) ++ back) =
      row.flatMap (·.render .plain) ++ withoutColors back := by
  induction row with
  | nil => rfl
  | cons fragment rest ih =>
    obtain ⟨first, later⟩ := List.forall_mem_cons.mp plain
    rw [List.flatMap_cons, List.append_assoc, Fragment.withoutColors_render first, ih later,
      List.flatMap_cons, List.append_assoc]

/-- Only inks tell the colored form of rows from the plain one. -/
theorem withoutColors_renderRows {rows : List Row} (plain : ∀ row ∈ rows, Unescaped row) :
    withoutColors (renderRows .colored rows) = renderRows .plain rows := by
  induction rows with
  | nil => simp [renderRows, withoutColors]
  | cons row rest ih =>
    obtain ⟨first, later⟩ := List.forall_mem_cons.mp plain
    have feed : '\x1B' ∉ ['\n'] := by decide
    have next := withoutColors_append feed (renderRows .colored rest)
    simp only [renderRows, List.flatMap_cons, List.append_assoc] at next ih ⊢
    rw [withoutColors_row first, next, ih later]

section

variable {front back row : Row} {fragment : Fragment}

@[simp] theorem unescaped_nil : Unescaped [] := nofun

@[simp] theorem unescaped_cons :
    Unescaped (fragment :: row) ↔ '\x1B' ∉ fragment.chars ∧ Unescaped row :=
  List.forall_mem_cons

@[simp] theorem unescaped_append : Unescaped (front ++ back) ↔ Unescaped front ∧ Unescaped back :=
  List.forall_mem_append

@[simp] theorem Fragment.bare_chars (text : String) : (bare text).chars = text.toList := rfl

@[simp] theorem Fragment.inked_chars (ink : Ink) (text : String) :
    (inked ink text).chars = text.toList := rfl

@[simp] theorem Fragment.space_chars (width : Nat) :
    (space width).chars = List.replicate width ' ' := rfl

theorem unescaped_replicate (plain : '\x1B' ∉ fragment.chars) (count : Nat) :
    Unescaped (List.replicate count fragment) := by
  intro copy member
  rwa [List.eq_of_mem_replicate member]

/-- What is drawn column by column has no escape character if no column has one. -/
theorem unescaped_flatten_mapIdx {draw : Nat → α → Row} {columns : List α}
    (plain : ∀ column (inside : column < columns.length), Unescaped (draw column columns[column])) :
    Unescaped (columns.mapIdx draw).flatten := by
  intro fragment member
  obtain ⟨row, drawn, inside⟩ := List.mem_flatten.mp member
  obtain ⟨column, bound, rfl⟩ := List.mem_mapIdx.mp drawn
  exact plain column bound fragment inside

end

@[simp] theorem escape_notMem_toDigits (number : Nat) : '\x1B' ∉ Nat.toDigits 10 number := by
  intro member
  have digit := Nat.isDigit_of_mem_toDigits (by decide) (by decide) member
  exact absurd digit (by decide)

@[simp] theorem escape_notMem_spaces (width : Nat) : '\x1B' ∉ (spaces width).toList := by
  simp [spaces]

theorem unescaped_strokes (width : Nat) : Unescaped (strokes width) :=
  unescaped_replicate (by decide) width

theorem unescaped_stretch {sign : String} (plain : '\x1B' ∉ sign.toList) (width : Nat) :
    Unescaped (stretch sign width) := by
  intro fragment member
  have whole : Unescaped (.inked .mark sign :: strokes width) :=
    unescaped_cons.mpr ⟨plain, unescaped_strokes width⟩
  exact whole fragment (List.mem_of_mem_take member)

namespace Mark

theorem unescaped_ruleRow (mark : Mark) (line : List Char) : Unescaped (mark.ruleRow line) := by
  refine unescaped_flatten_mapIdx fun column inside => ?_
  rw [rule]
  split_ifs
  · exact unescaped_stretch (by decide) _
  · exact unescaped_strokes _
  · simp

theorem unescaped_leadRow (mark : Mark) (line : List Char) : Unescaped (mark.leadRow line) := by
  refine unescaped_flatten_mapIdx fun column inside => ?_
  rw [lead]
  split_ifs
  · exact unescaped_stretch (by decide) _
  · exact unescaped_strokes _
  · simp

end Mark

namespace Report

variable {region : Region} {line : Line} {label : String}

theorem unescaped_numbered (width : Nat) (line : Line) : Unescaped (numbered width line) := by
  simp [numbered, padLeft, toString]

theorem unescaped_unnumbered {bar : String} (plain : '\x1B' ∉ bar.toList) (width : Nat) :
    Unescaped (unnumbered width bar) := by
  simp [unnumbered, toString, plain]

theorem unescaped_arrow {sign : String} (plain : '\x1B' ∉ sign.toList) :
    Unescaped (arrow sign) := by
  simp [arrow, plain]

theorem unescaped_body (region : Region) (plain : '\x1B' ∉ line.chars) :
    Unescaped (body region line) := by
  have shown : '\x1B' ∉ trimEnd line.chars := by
    obtain ⟨blanks, split⟩ := exists_trimEnd_append line.chars
    exact fun member => plain (split ▸ List.mem_append_left blanks member)
  refine unescaped_flatten_mapIdx fun column inside => ?_
  have other : '\x1B' ∉ [(trimEnd line.chars)[column]] := fun member =>
    shown (List.mem_singleton.mp member ▸ List.getElem_mem inside)
  rw [glyph]
  split
  · exact unescaped_replicate (by simp) _
  · exact unescaped_cons.mpr ⟨other, unescaped_nil⟩

theorem unescaped_singleLine (plain : '\x1B' ∉ region.first.chars)
    (said : '\x1B' ∉ label.toList) : ∀ row ∈ singleLine region label, Unescaped row := by
  simp [singleLine, unescaped_numbered, unescaped_body region plain, unescaped_unnumbered,
    Mark.unescaped_ruleRow, Mark.unescaped_leadRow, said]

theorem unescaped_multiLine (first : '\x1B' ∉ region.first.chars)
    (last : '\x1B' ∉ region.last.chars) (said : '\x1B' ∉ label.toList) :
    ∀ row ∈ multiLine region label, Unescaped row := by
  have reach (widths : List Nat) : Unescaped (widths.map Fragment.space) := by
    intro fragment member
    obtain ⟨width, -, rfl⟩ := List.mem_map.mp member
    simp
  have drawn (widths : List Nat) : Unescaped (widths.flatMap strokes) := by
    intro fragment member
    obtain ⟨width, -, inside⟩ := List.mem_flatMap.mp member
    exact unescaped_strokes width fragment inside
  have skip : Unescaped (unnumbered (numberWidth region) "┆" ++ [.inked .mark "┆", .space 3]) := by
    simp [unescaped_unnumbered]
  simp only [multiLine, List.forall_mem_append]
  refine ⟨⟨?_, ?_⟩, ?_⟩
  · simp [unescaped_numbered, unescaped_arrow, unescaped_body region first]
  · split
    · exact List.forall_mem_singleton.mpr skip
    · exact nofun
  · simp [unescaped_numbered, unescaped_arrow, unescaped_body region last, unescaped_unnumbered,
      unescaped_strokes, reach, drawn, said]

theorem unescaped_head (said : '\x1B' ∉ message.toList) :
    ∀ row ∈ head region message, Unescaped row := by
  simp [head, said, toString]

theorem unescaped_foot (advised : Bool) : ∀ row ∈ foot region advised, Unescaped row := by
  cases advised <;> simp [foot, advice, unescaped_unnumbered, toString]

end Report

theorem mem_of_mem_lineAt {lines : List (List Char)} {offset : Nat}
    (member : char ∈ (lineAt lines offset).chars) : char ∈ lines.flatten := by
  induction lines generalizing offset with
  | nil => exact absurd member List.not_mem_nil
  | cons chars rest ih =>
    rw [List.flatten_cons, List.mem_append]
    rw [lineAt] at member
    split at member
    · exact .inl member
    · exact .inr (ih member)

namespace Failure

variable {failure : Failure}

theorem mem_of_mem_culprit (member : char ∈ failure.culprit) : char ∈ failure.expression := by
  rw [culprit] at member
  split at member
  · exact List.mem_of_mem_drop (List.mem_of_mem_take member)
  · exact absurd member List.not_mem_nil

theorem escape_notMem_message (plain : '\x1B' ∉ failure.expression) :
    '\x1B' ∉ failure.message.toList := by
  have culprit : '\x1B' ∉ failure.culprit := mt mem_of_mem_culprit plain
  obtain ⟨expression, fault⟩ := failure
  cases fault <;> simp_all [message, toString]

end Failure

theorem StructureFault.escape_notMem_message (cause : StructureFault) :
    '\x1B' ∉ cause.message.toList := by
  cases cause <;> decide

theorem OperandFault.escape_notMem_message {cause : OperandFault}
    (plain : ∀ digits, cause.value = .digits digits → '\x1B' ∉ digits) :
    '\x1B' ∉ cause.message.toList := by
  have shown : '\x1B' ∉ cause.value.display.toList := by
    cases stands : cause.value with
    | digits text => simpa [Value.display] using plain text stands
    | literal flag => cases flag <;> decide
    | outcome flag => cases flag <;> decide
  cases cause <;> simp_all [message, toString]

/-- Of the expression a label shows a value that does not fit, and nothing else. -/
theorem Fault.escape_notMem_label {fault : Fault}
    (plain : ∀ cause, fault.operand? = some cause →
      ∀ digits, cause.value = .digits digits → '\x1B' ∉ digits) :
    '\x1B' ∉ fault.label.toList := by
  cases fault with
  | unknownWord span => simp [label]
  | incomplete cause span => exact cause.escape_notMem_message
  | invalidOperand cause span => exact OperandFault.escape_notMem_message (plain cause rfl)
  | notBoolean cause => exact OperandFault.escape_notMem_message (plain cause rfl)
  | trailingValues remaining => simp [label]

variable {text : List Char} {failure : Failure}

theorem unescaped_report (failed : evaluate strictness text = .error failure)
    (plain : '\x1B' ∉ text) : ∃ rows, (∀ row ∈ rows, Unescaped row) ∧
      ∀ palette, failure.report palette = renderRows palette rows := by
  have expression : failure.expression = text := evaluate_expression failed
  have message : '\x1B' ∉ failure.message.toList :=
    Failure.escape_notMem_message (expression ▸ plain)
  have label : '\x1B' ∉ failure.fault.label.toList := by
    refine Fault.escape_notMem_label fun cause operand digits same => ?_
    obtain ⟨span, member⟩ := (evaluate_operand failed operand).2 digits same
    obtain ⟨before, behind, split, -⟩ := (occurs_integer member).1
    exact fun escape => plain (by simp [split, escape])
  have line (offset : Nat) : '\x1B' ∉ (lineAt (splitLines failure.expression) offset).chars :=
    fun escape => plain <| by
      rw [← (linesOf_splitLines text).whole, ← expression]
      exact mem_of_mem_lineAt escape
  refine ⟨_, ?_, fun palette => rfl⟩
  split
  · simp [Report.blankRows, message, label]
  · rw [Report.rows]
    simp only [List.forall_mem_append]
    refine ⟨⟨Report.unescaped_head message, ?_⟩, Report.unescaped_foot _⟩
    split
    · exact Report.unescaped_singleLine (line _) label
    · exact Report.unescaped_multiLine (line _) (line _) label

/-- What the two forms of a report have to do with each other, and with the bytes written. -/
structure SaysTheSame (failure : Failure) : Prop where
  /-- Nothing but color sequences tells the colored form from the plain one. -/
  colors : withoutColors (failure.reportText .colored) = failure.reportText .plain
  /-- What is written behind other bytes is the colored form. -/
  written : ∀ before, failure.writeReport .colored before =
    before ++ (failure.reportText .colored).flatMap String.utf8EncodeChar

/-- Whatever goes wrong, the colored report on it says what the plain one says. -/
theorem evaluate_saysTheSame (plain : '\x1B' ∉ text)
    (failed : evaluate strictness text = .error failure) : SaysTheSame failure where
  colors := by
    obtain ⟨rows, unescaped, rendered⟩ := unescaped_report failed plain
    rw [Failure.reportText_eq, Failure.reportText_eq, rendered, rendered]
    exact withoutColors_renderRows unescaped
  written before := by
    rw [Failure.reportText_eq, Failure.writeReport]

/-- The word in `31 é[;m\n[m 0` looks like color sequences, and both forms show it. -/
theorem evaluate_saysTheSame_lines :
    let text := "31 é[;m\n[m 0".toList
    '\x1B' ∉ text ∧ evaluate .strict text = .error ⟨text, .unknownWord ⟨3, 8⟩⟩ ∧
      SaysTheSame ⟨text, .unknownWord ⟨3, 8⟩⟩ := by
  intro text
  have plain : '\x1B' ∉ text := by decide
  have failed : evaluate .strict text = .error ⟨text, .unknownWord ⟨3, 8⟩⟩ := by decide
  exact ⟨plain, failed, evaluate_saysTheSame plain failed⟩

end Condition
