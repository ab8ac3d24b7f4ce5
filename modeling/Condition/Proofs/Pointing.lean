import Condition.Proofs.FaultPlace
import Condition.Proofs.LineTable
import Condition.Report

namespace Condition

/-- A report that prints a place below its message. -/
def Failure.PrintsPlace (failure : Failure) (place : List Char) : Prop :=
  ∃ indent rows, ∀ palette, failure.report palette = renderRows palette
    ([.inked .mark "Error:", .bare " ", .bare failure.message] ::
      [.space indent, .inked .margin "╭", .inked .margin "─", .inked .margin "[",
        ⟨none, " <expression>:".toList ++ place ++ " ".toList⟩, .inked .margin "]"] :: rows)

/-- A fault that concerns the expression as a whole or lies at its end. -/
def Fault.IsGeneral (size : Nat) (fault : Fault) : Prop :=
  (∃ cause, fault = .notBoolean cause) ∨ (∃ count, fault = .trailingValues count) ∨
    fault = .incomplete .missingValue ⟨size, 0⟩

/-- A failure whose report points at the right part of the expression. -/
structure Pointed (text : List Char) (failure : Failure) : Prop where
  expression : failure.expression = text
  general : (∀ span ∈ failure.fault.span?, span.size = 0) ↔ failure.fault.IsGeneral (byteSize text)
  /-- A part of the expression is shown that has characters and cuts none of them. -/
  placed : ¬ IsBlank text → 0 < failure.range.size ∧ failure.range.stop ≤ byteSize text ∧
    IsBoundary text failure.range.start ∧ IsBoundary text failure.range.stop
  own : ∀ span ∈ failure.fault.span?, 0 < span.size → failure.range = span
  whole : (∀ span ∈ failure.fault.span?, span.size = 0) → failure.range = ⟨0, byteSize text⟩
  lines : ∃! lines, LinesOf text lines
  printed : ¬ IsBlank text → ∃ place, failure.PrintsPlace place ∧
    ∀ lines, LinesOf text lines → byteAtPlace? lines place = some failure.range.start
  /-- A blank expression is not shown at all. -/
  blank : IsBlank text →
    ((∃ span, failure.fault = .unknownWord span) ∨
      failure.fault = .incomplete .missingValue ⟨byteSize text, 0⟩) ∧
    ∀ palette, failure.report palette =
      s!"Error: {failure.message}\n  {failure.fault.label}\n".toList

variable {text : List Char} {span : Span} {failure : Failure}

theorem Stands.not_isBlank (stands : Stands text span token) : ¬ IsBlank text := by
  have visible {chars : List Char} (place : Occurs text span chars) (shown : ¬ IsBlank chars) :
      ¬ IsBlank text := by
    obtain ⟨before, behind, rfl, -⟩ := place
    exact fun blank => shown fun char member => blank char (by simp [member])
  cases stands with
  | openParen place => exact visible place (by decide)
  | closeParen place => exact visible place (by decide)
  | integer run =>
    refine visible run.occurs fun blank => ?_
    obtain ⟨_, _, _, _, nonempty, digits, _⟩ := run
    obtain ⟨char, member⟩ := List.exists_mem_of_ne_nil _ nonempty
    have shown := isBlank_eq_false_of_isDigit (digits char member)
    simp [blank char member] at shown
  | boolean run listed =>
    have words : ∀ entry ∈ Token.literals, ¬ IsBlank entry.1.toList := by decide
    exact visible run.occurs (by simpa using words _ listed)
  | operator run listed =>
    have words : ∀ entry ∈ Operator.spellings, ¬ IsBlank entry.1.toList := by decide
    exact visible run.occurs (by simpa using words _ listed)

theorem evaluate_of_isBlank (blank : IsBlank text)
    (failed : evaluate strictness text = .error failure) :
    (∃ span, failure.fault = .unknownWord span) ∨
      failure.fault = .incomplete .missingValue ⟨byteSize text, 0⟩ := by
  have silent : (Scan.ofText text).lexemes = [] := by
    refine List.eq_nil_iff_forall_not_mem.mpr fun ⟨span, token⟩ member => ?_
    exact (Scan.mem_lexemes_ofText_iff.mp member).1.not_isBlank blank
  cases unknown : (Scan.ofText text).unknown with
  | some span =>
    have halted : Evaluation.operands (Scan.ofText text) = .error ⟨.unknownWord span, []⟩ := by
      simp only [Evaluation.operands, silent, unknown]
      rfl
    rw [evaluate_of_halt halted] at failed
    cases failed
    exact .inl ⟨span, rfl⟩
  | none =>
    have settled : Evaluation.operands (Scan.ofText text) = .ok {} := by
      simp only [Evaluation.operands, silent, unknown]
      rfl
    rw [evaluate_of_operands settled] at failed
    cases failed
    exact .inr rfl

theorem byteSize_pos_of_not_isBlank (visible : ¬ IsBlank text) : 0 < byteSize text := by
  cases text with
  | nil => exact absurd (fun _ member => absurd member List.not_mem_nil) visible
  | cons char rest => exact Nat.add_pos_left char.utf8Size_pos _

theorem evaluate_expression (failed : evaluate strictness text = .error failure) :
    failure.expression = text := by
  rcases evaluate_error_cases failed with ⟨_, _, rfl⟩ | ⟨_, _, _, _, rfl⟩ <;> rfl

/-- A fault lies at a token or an unknown word, or concerns the text as a whole. -/
theorem evaluate_fault_cases (failed : evaluate strictness text = .error failure) :
    (∃ span chars, failure.fault.span? = some span ∧ Occurs text span chars ∧ 0 < span.size) ∨
      failure.fault.IsGeneral (byteSize text) := by
  rcases evaluate_error_cases failed with ⟨halt, halted, rfl⟩ | ⟨operands, fault, -, concluded, rfl⟩
  · exact .inl (Evaluation.occurs_of_halt halted)
  · right
    rcases Evaluation.fault_of_conclude concluded with missing | nowhere
    · exact .inr (.inr missing)
    · exact (Fault.span?_eq_none_iff.mp nowhere).imp_right .inl

namespace Fault.IsGeneral

theorem size_eq_zero (general : IsGeneral size fault) :
    ∀ span ∈ fault.span?, span.size = 0 := by
  rcases general with ⟨_, rfl⟩ | ⟨_, rfl⟩ | rfl <;> simp [span?]

end Fault.IsGeneral

namespace Failure

theorem printsPlace (visible : ¬ IsBlank failure.expression)
    (found : (Region.ofSpan failure.range failure.expression).position = (line, column)) :
    failure.PrintsPlace s!"{line}:{column}".toList := by
  let region := Region.ofSpan failure.range failure.expression
  refine ⟨Report.numberWidth region + 2, (Report.rows failure).drop 2, fun palette => ?_⟩
  rw [report, if_neg visible]
  congr 1
  simp only [Report.rows, Report.head, found]
  simp [Fragment.bare, toString, region]

theorem report_of_isBlank (blank : IsBlank failure.expression) (palette : Palette) :
    failure.report palette = s!"Error: {failure.message}\n  {failure.fault.label}\n".toList := by
  rw [report, if_pos blank]
  cases palette <;>
    simp [renderRows, Report.blankRows, Fragment.render, Fragment.bare, toString]

end Failure

/-- The range of a failure lies within its text, has characters and cuts none. -/
theorem evaluate_range (failed : evaluate strictness text = .error failure)
    (visible : ¬ IsBlank text) :
    0 < failure.range.size ∧ failure.range.stop ≤ byteSize text ∧
      IsBoundary text failure.range.start ∧ IsBoundary text failure.range.stop := by
  rcases evaluate_fault_cases failed with ⟨span, chars, place, stands, filled⟩ | general
  · rw [Failure.range_of_pos place filled]
    obtain ⟨start, stop, bound⟩ := stands.boundaries
    exact ⟨filled, bound, start, stop⟩
  · rw [Failure.range_of_empty general.size_eq_zero, evaluate_expression failed]
    have whole : IsBoundary text (byteSize text) := ⟨text, [], by simp, rfl⟩
    exact ⟨byteSize_pos_of_not_isBlank visible, by simp [Span.stop], ⟨[], text, rfl, rfl⟩,
      by simpa [Span.stop] using whole⟩

/-- Whatever goes wrong in an expression, a report can point at it. -/
theorem evaluate_pointed (failed : evaluate strictness text = .error failure) :
    Pointed text failure where
  expression := evaluate_expression failed
  general := by
    refine ⟨fun empty => ?_, Fault.IsGeneral.size_eq_zero⟩
    rcases evaluate_fault_cases failed with ⟨span, _, place, _, filled⟩ | general
    · exact absurd (empty span place) (Nat.pos_iff_ne_zero.mp filled)
    · exact general
  placed := evaluate_range failed
  own _ := Failure.range_of_pos
  whole empty := by rw [Failure.range_of_empty empty, evaluate_expression failed]
  lines := ⟨splitLines text, linesOf_splitLines text, fun _ => linesOf_iff.mp⟩
  printed visible := by
    obtain ⟨filled, bound, start, -⟩ := evaluate_range failed visible
    have inside : failure.range.start < byteSize text := by
      simp only [Span.stop] at bound
      omega
    refine ⟨_, Failure.printsPlace (by rwa [evaluate_expression failed]) rfl, fun lines found => ?_⟩
    rw [byteAtPlace?_eq, linesOf_iff.mp found, evaluate_expression failed]
    exact Region.byteAt?_position start inside
  blank hidden :=
    ⟨evaluate_of_isBlank hidden failed,
      fun palette => Failure.report_of_isBlank (by rwa [evaluate_expression failed]) palette⟩

/-- The word in `1 é\r\nè 2` reaches over a line end, and is pointed at where it starts. -/
theorem evaluate_pointed_lines :
    let text := "1 é\r\nè 2".toList
    evaluate .strict text = .error ⟨text, .unknownWord ⟨2, 6⟩⟩ ∧
      Pointed text ⟨text, .unknownWord ⟨2, 6⟩⟩ := by
  intro text
  have failed : evaluate .strict text = .error ⟨text, .unknownWord ⟨2, 6⟩⟩ := by decide
  exact ⟨failed, evaluate_pointed failed⟩

end Condition
