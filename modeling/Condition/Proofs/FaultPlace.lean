import Condition.Proofs.Reachability
import Condition.Proofs.ScanExact

namespace Condition

/-- The token that something waits for the sake of. -/
def Waiting.lexeme : Waiting → Lexeme
  | .group span => ⟨span, .openParen⟩
  | .operator known span => ⟨span, .operator known⟩

/-- All that waits and all that is not read are tokens of the scan. -/
structure Traced (scan : Scan) (unread : List Lexeme) (machine : Machine) : Prop where
  stack : ∀ entry ∈ machine.waiting, entry.lexeme ∈ scan.lexemes
  ahead : ∀ lexeme ∈ unread, lexeme ∈ scan.lexemes

namespace Traced

theorem tail (traced : Traced scan (lexeme :: unread) machine)
    (waiting : machine.waiting = next.waiting) : Traced scan unread next :=
  ⟨by simpa only [← waiting] using traced.stack,
    fun other member => traced.ahead other (List.mem_cons_of_mem _ member)⟩

theorem push (traced : Traced scan (lexeme :: unread) machine) (same : entry.lexeme = lexeme) :
    Traced scan unread { machine with waiting := entry :: machine.waiting } := by
  refine ⟨?_, fun other member => traced.ahead other (List.mem_cons_of_mem _ member)⟩
  intro other member
  rcases List.mem_cons.mp member with rfl | older
  · rw [same]
    exact traced.ahead lexeme List.mem_cons_self
  · exact traced.stack other older

theorem step (traced : Traced scan (lexeme :: unread) machine) (inner : lexeme.token ≠ .closeParen)
    (stepped : machine.step lexeme = .ok next) : Traced scan unread next := by
  obtain ⟨span, token⟩ := lexeme
  cases token with
  | openParen =>
    cases stepped
    exact traced.push (show (Waiting.group span).lexeme = _ from rfl)
  | closeParen => exact absurd rfl inner
  | operator known =>
    cases stepped
    exact traced.push (show (Waiting.operator known span).lexeme = _ from rfl)
  | boolean flag =>
    cases stepped
    exact traced.tail rfl
  | integer digits =>
    cases stepped
    exact traced.tail rfl

end Traced

theorem Reached.traced (reached : Reached scan unread machine) : Traced scan unread machine := by
  induction reached with
  | start => exact ⟨by simp, fun _ member => member⟩
  | read _ inner stepped ih => exact ih.step inner stepped
  | close _ _ ih =>
    exact ⟨fun entry member => ih.stack entry (List.mem_cons_of_mem _ member),
      fun lexeme member => ih.ahead lexeme (List.mem_cons_of_mem _ member)⟩
  | apply _ _ _ ih =>
    exact ⟨fun entry member => ih.stack entry (List.mem_cons_of_mem _ member), ih.ahead⟩

theorem Stops.span_mem (stops : Stops scan unread machine fault)
    (reached : Reached scan unread machine) : ∃ span ∈ scan.spans, fault.span? = some span := by
  have traced := reached.traced
  have placed (lexeme : Lexeme) (member : lexeme ∈ scan.lexemes) : lexeme.span ∈ scan.spans :=
    List.mem_append_left _ (List.mem_map.mpr ⟨lexeme, member, rfl⟩)
  cases stops with
  | unmatched closing => exact ⟨_, placed _ (traced.ahead _ List.mem_cons_self), rfl⟩
  | unknown word => exact ⟨_, List.mem_append_right _ (by rw [word]; exact .head _), rfl⟩
  | unclosed ended => exact ⟨_, placed _ (traced.stack _ List.mem_cons_self), rfl⟩
  | refused due failed =>
    refine ⟨_, placed _ (traced.stack _ List.mem_cons_self), ?_⟩
    rcases Operands.apply_eq_error_iff.mp failed with ⟨_, rfl⟩ | ⟨_, _, _, _, _, _, rfl⟩ <;> rfl

theorem Evaluation.occurs_of_halt {text : List Char}
    (halted : operands (Scan.ofText text) = .error halt) :
    ∃ span chars, halt.fault.span? = some span ∧ Occurs text span chars ∧ 0 < span.size := by
  have ends := operands_ends (Scan.ofText text)
  rw [halted] at ends
  obtain ⟨_, _, reached, stops, -⟩ := ends
  obtain ⟨span, member, place⟩ := stops.span_mem reached
  obtain ⟨segment, inside, rfl⟩ := Scan.exists_segment_of_mem_spans member
  exact ⟨_, _, place, Segment.occurs_of_mem_split inside, Segment.size_pos_of_mem_split inside⟩

/-- What the text at the place of a fault has to be. -/
def Shown (text culprit : List Char) : Fault → Prop
  | .unknownWord _ =>
    culprit ≠ [] ∧ (∀ char ∈ culprit, isWordChar char = true) ∧
      (∀ flag, (String.ofList culprit, flag) ∉ Token.literals) ∧
      ∀ operator, (String.ofList culprit, operator) ∉ Operator.spellings
  | .invalidOperand cause span =>
    ∃ unread waiting left right values applications operator,
      Reached (Scan.ofText text) unread
        ⟨.operator operator span :: waiting, ⟨right :: left :: values, applications⟩⟩ ∧
      (Scan.ofText text).Due unread ∧ Operator.ofSpelling? culprit = some operator ∧
      operator.apply left right = .error cause
  | .incomplete .unmatchedClose _ => culprit = [')']
  | .incomplete .unclosedGroup _ => culprit = ['(']
  | .incomplete .missingValue span =>
    (∃ operator, (String.ofList culprit, operator) ∈ Operator.spellings) ∨ span = ⟨byteSize text, 0⟩
  | .notBoolean _ | .trailingValues _ => True

/-- A failure that blames the right expression, and in it the right place. -/
structure Truthful (text : List Char) (failure : Failure) : Prop where
  expression : failure.expression = text
  placed : ∀ span, failure.fault.span? = some span →
    Occurs text span failure.culprit ∧ span.start ≤ span.stop ∧ span.stop ≤ byteSize text ∧
      IsBoundary text span.start ∧ IsBoundary text span.stop
  unplaced : failure.fault.span? = none ↔
    (∃ cause, failure.fault = .notBoolean cause) ∨ ∃ count, failure.fault = .trailingValues count
  shown : Shown text failure.culprit failure.fault

variable {text : List Char} {span : Span}

theorem occurs_open (member : ⟨span, .openParen⟩ ∈ (Scan.ofText text).lexemes) :
    Occurs text span ['('] := by
  cases (Scan.mem_lexemes_ofText_iff.mp member).1 with
  | openParen place => exact place

theorem occurs_close (member : ⟨span, .closeParen⟩ ∈ (Scan.ofText text).lexemes) :
    Occurs text span [')'] := by
  cases (Scan.mem_lexemes_ofText_iff.mp member).1 with
  | closeParen place => exact place

theorem occurs_operator (member : ⟨span, .operator known⟩ ∈ (Scan.ofText text).lexemes) :
    ∃ word, Occurs text span word ∧ (String.ofList word, known) ∈ Operator.spellings := by
  cases (Scan.mem_lexemes_ofText_iff.mp member).1 with
  | operator run listed => exact ⟨_, run.occurs, listed⟩

/-- Where an evaluation stops, the fault lies at the token or the word that stops it. -/
theorem Stops.shown (stops : Stops (Scan.ofText text) unread machine fault)
    (reached : Reached (Scan.ofText text) unread machine) :
    ∃ span culprit, fault.span? = some span ∧ Occurs text span culprit ∧ Shown text culprit fault := by
  have traced := reached.traced
  cases stops with
  | @unmatched lexeme _ _ closing =>
    have member := traced.ahead lexeme List.mem_cons_self
    obtain ⟨place, token⟩ := lexeme
    subst closing
    exact ⟨_, _, rfl, occurs_close member, rfl⟩
  | @refused _ known place waiting operands halt due failed =>
    have member := traced.stack _ List.mem_cons_self
    obtain ⟨word, stands, listed⟩ := occurs_operator member
    rcases Operands.apply_eq_error_iff.mp failed with
      ⟨_, rfl⟩ | ⟨right, left, rest, cause, values, refusal, rfl⟩
    · exact ⟨_, _, rfl, stands, .inl ⟨known, listed⟩⟩
    · obtain ⟨_, applications⟩ := operands
      subst values
      exact ⟨_, _, rfl, stands, unread, waiting, left, right, rest, applications, known, reached, due,
        Operator.ofSpelling?_eq_some_iff.mpr listed, refusal⟩
  | unknown word =>
    obtain ⟨chars, unlisted, _⟩ := Scan.unknown_ofText_iff.mp word
    obtain ⟨_, _, _, _, nonempty, members, _⟩ := unlisted.run
    exact ⟨_, _, rfl, unlisted.occurs, nonempty, members, unlisted.noLiteral, unlisted.noOperator⟩
  | unclosed ended =>
    have member := traced.stack _ List.mem_cons_self
    exact ⟨_, _, rfl, occurs_open member, rfl⟩

theorem Fault.span?_eq_none_iff {fault : Fault} :
    fault.span? = none ↔
      (∃ cause, fault = .notBoolean cause) ∨ ∃ count, fault = .trailingValues count := by
  cases fault <;> simp [Fault.span?]

theorem Failure.culprit_of_occurs {fault : Fault} (place : fault.span? = some span)
    (stands : Occurs text span chars) : Failure.culprit ⟨text, fault⟩ = chars := by
  simp only [Failure.culprit, place, stands.slice_eq]

theorem Truthful.of_shown (place : fault.span? = some span) (stands : Occurs text span culprit)
    (shown : Shown text culprit fault) : Truthful text ⟨text, fault⟩ where
  expression := rfl
  placed other found := by
    obtain rfl := Option.some.inj (place.symm.trans found)
    obtain ⟨start, stop, bound⟩ := stands.boundaries
    refine ⟨?_, Nat.le_add_right _ _, bound, start, stop⟩
    rwa [Failure.culprit_of_occurs place stands]
  unplaced := Fault.span?_eq_none_iff
  shown := by rwa [Failure.culprit_of_occurs place stands]

theorem Truthful.of_unplaced (nowhere : fault.span? = none) : Truthful text ⟨text, fault⟩ where
  expression := rfl
  placed span found := by
    rw [nowhere] at found
    cases found
  unplaced := Fault.span?_eq_none_iff
  shown := by
    rcases Fault.span?_eq_none_iff.mp nowhere with ⟨_, rfl⟩ | ⟨_, rfl⟩ <;> trivial

private theorem truthful_of_conclude
    (failed : Evaluation.conclude strictness (byteSize text) values = .error fault) :
    Truthful text ⟨text, fault⟩ := by
  rcases Evaluation.fault_of_conclude failed with rfl | nowhere
  · have atEnd : Occurs text ⟨byteSize text, 0⟩ [] := ⟨text, [], by simp, rfl⟩
    exact .of_shown rfl atEnd (.inr rfl)
  · exact .of_unplaced nowhere

/-- Whatever goes wrong in an expression is reported for that expression and in its place. -/
theorem evaluate_truthful {failure : Failure} (failed : evaluate strictness text = .error failure) :
    Truthful text failure := by
  unfold evaluate Evaluation.ofText at failed
  have ends := Evaluation.operands_ends (Scan.ofText text)
  cases result : Evaluation.operands (Scan.ofText text) with
  | error halt =>
    rw [result] at ends
    obtain ⟨unread, machine, reached, stops, _⟩ := ends
    obtain ⟨span, culprit, place, stands, shown⟩ := stops.shown reached
    simp only [result, Except.mapError, Except.error.injEq] at failed
    subst failed
    exact .of_shown place stands shown
  | ok operands =>
    simp only [result] at failed
    cases concluded : Evaluation.conclude strictness (byteSize text) operands.values with
    | ok flag => simp [concluded, Except.mapError] at failed
    | error fault =>
      simp only [concluded, Except.mapError, Except.error.injEq] at failed
      subst failed
      exact truthful_of_conclude concluded

/-- In `(1 lt 2) < 3` the fault lies at the operator that is applied last. -/
theorem evaluate_truthful_outcome :
    let failure : Failure :=
      ⟨"(1 lt 2) < 3".toList, .invalidOperand (.outcomeAsInteger true) ⟨9, 1⟩⟩
    evaluate .strict "(1 lt 2) < 3".toList = .error failure ∧
      Truthful "(1 lt 2) < 3".toList failure := by
  intro failure
  have failed : evaluate .strict "(1 lt 2) < 3".toList = .error failure := by decide
  exact ⟨failed, evaluate_truthful failed⟩

end Condition
