import Condition.Proofs.Depth
import Condition.Proofs.Levels
import Condition.Proofs.Strictness

namespace Condition

/-- A fault that is found where operators are applied or groups are closed. -/
inductive Fault.Stuck : Fault → Prop where
  | incomplete (cause : StructureFault) (span : Span) : Stuck (.incomplete cause span)
  | invalidOperand (cause : OperandFault) (span : Span) : Stuck (.invalidOperand cause span)

/-- A fault found at a token, when no token behind it is read. It lies at that token or at an
earlier one. -/
inductive FoundAt (scan : Scan) (lexeme : Lexeme) (fault : Fault) : Prop where
  | token (split : scan.lexemes = front ++ lexeme :: unread)
      (fed : Machine.feed {} front = .ok machine)
      (failed : machine.step lexeme = .error ⟨fault, applications⟩)
      (site : culprit ∈ front ++ [lexeme]) (place : fault.span? = some culprit.span) :
      FoundAt scan lexeme fault

variable {scan : Scan} {text : List Char} {halt : Halt} {strictness : Strictness}

/-- Only an unknown word stops an evaluation for another reason than its operators and groups. -/
theorem Stops.stuck (stops : Stops scan unread machine fault) :
    fault.Stuck ∨ ∃ span, scan.unknown = some span ∧ fault = .unknownWord span := by
  cases stops with
  | unmatched closing => exact .inl (.incomplete _ _)
  | refused due failed =>
    rcases Operands.apply_eq_error_iff.mp failed with ⟨_, rfl⟩ | ⟨_, _, _, _, _, _, rfl⟩
    · exact .inl (.incomplete _ _)
    · exact .inl (.invalidOperand _ _)
  | unknown word => exact .inr ⟨_, word, rfl⟩
  | unclosed ended => exact .inl (.incomplete _ _)

theorem Evaluation.operands_of_feed (failed : Machine.feed {} front = .error halt)
    (first : front <+: scan.lexemes) : operands scan = .error halt := by
  obtain ⟨unread, split⟩ := first
  simp only [operands, ← split, Machine.feed_append, failed]
  rfl

theorem Evaluation.operands_of_unknown (fed : Machine.feed {} scan.lexemes = .ok machine)
    (word : scan.unknown = some span) :
    operands scan = machine.operands.halt (.unknownWord span) := by
  simp only [operands, fed, word]
  rfl

theorem Evaluation.stuck_of_halt (complete : scan.unknown = none)
    (halted : operands scan = .error halt) :
    halt.fault.Stuck ∧ ∃ culprit ∈ scan.lexemes, halt.fault.span? = some culprit.span := by
  have ends := operands_ends scan
  rw [halted] at ends
  obtain ⟨_, _, reached, stops, -⟩ := ends
  constructor
  · rcases stops.stuck with stuck | ⟨span, word, -⟩
    · exact stuck
    · rw [complete] at word
      cases word
  · obtain ⟨span, member, place⟩ := stops.span_mem reached
    rw [Scan.spans, complete, Option.toList_none, List.append_nil] at member
    obtain ⟨culprit, stands, rfl⟩ := List.mem_map.mp member
    exact ⟨culprit, stands, place⟩

/-- A fault that stops the reading is found at some token, and what comes behind that token makes
no difference. -/
theorem Evaluation.foundAt_of_feed (failed : Machine.feed {} scan.lexemes = .error halt) :
    halt.fault.Stuck ∧ ∃ lexeme ∈ scan.lexemes, FoundAt scan lexeme halt.fault := by
  obtain ⟨front, lexeme, unread, machine, split, fed, stopped⟩ := Machine.feed_eq_error failed
  have halted : operands ⟨front ++ [lexeme], none⟩ = .error halt := by
    simp only [operands, Machine.feed_concat fed, stopped]
    rfl
  obtain ⟨stuck, culprit, stands, place⟩ := stuck_of_halt rfl halted
  refine ⟨stuck, lexeme, ?_, .token split fed stopped stands place⟩
  rw [split]
  exact List.mem_append_right _ List.mem_cons_self

/-- A group is found open only when all of a text is read, and no parenthesis closes too much. -/
theorem Evaluation.unclosed_of_halt (halted : operands scan = .error halt)
    (fault : halt.fault = .incomplete .unclosedGroup span) : scan.unknown = none ∧
      Bracket.Opened scan.tokens ∧
        scan.tokens.count .closeParen < scan.tokens.count .openParen := by
  have ends := operands_ends scan
  rw [halted] at ends
  obtain ⟨_, _, reached, stops, -⟩ := ends
  obtain ⟨read, split, conserved⟩ := reached.conserved
  rw [fault] at stops
  generalize same : Fault.incomplete .unclosedGroup span = found at stops
  cases stops with
  | unmatched closing => cases same
  | unknown word => cases same
  | refused due failed =>
    rcases Operands.apply_eq_error_iff.mp failed with ⟨_, rfl⟩ | ⟨_, _, _, _, _, _, rfl⟩ <;>
      cases same
  | unclosed ended =>
    have groups := conserved.depth
    rw [List.append_nil] at split
    rw [Scan.tokens, split]
    exact ⟨ended, conserved.opened, by omega⟩

/-- The depth of a text and its evaluation tell the same about its groups. -/
structure AgreesOnGroups (text : List Char) : Prop where
  /-- A group that is open at the end is among those that the depth counts. -/
  unclosed : ∀ strictness span,
    evaluate strictness text = .error ⟨text, .incomplete .unclosedGroup span⟩ →
      ∃ groups, depth? text = some (groups + 1) ∧
        (Bracket.unclosed (Scan.ofText text).tokens).card = groups + 1 ∧ isComplete text = false
  /-- A text that is too deep has no value, and not for want of a truth value. -/
  deep : ∀ groups, depth? text = some (groups + 1) → ∀ strictness,
    ∃ fault, evaluate strictness text = .error ⟨text, fault⟩ ∧ fault.Stuck
  settled : ∀ strictness, (Valued text (evaluate strictness text) ∨
    ∃ remaining, evaluate strictness text = .error ⟨text, .trailingValues remaining⟩) →
      depth? text = some 0
  unknown : depth? text = none ↔ (Scan.ofText text).unknown.isSome = true
  /-- An unknown word is the fault, unless a token in front of it is one. -/
  word : ∀ span, (Scan.ofText text).unknown = some span → ∀ strictness,
    evaluate strictness text = .error ⟨text, .unknownWord span⟩ ∨
      ∃ fault, evaluate strictness text = .error ⟨text, fault⟩ ∧ fault.Stuck ∧
        ∃ lexeme, FoundAt (Scan.ofText text) lexeme fault ∧ lexeme.span.stop ≤ span.start

theorem evaluate_unclosedGroup
    (failed : evaluate strictness text = .error ⟨text, .incomplete .unclosedGroup span⟩) :
    ∃ groups, depth? text = some (groups + 1) ∧
      (Bracket.unclosed (Scan.ofText text).tokens).card = groups + 1 ∧ isComplete text = false := by
  rcases evaluate_error_cases failed with ⟨halt, halted, same⟩ | ⟨_, fault, _, concluded, same⟩
  · have found : halt.fault = .incomplete .unclosedGroup span := (Failure.mk.inj same).2.symm
    obtain ⟨complete, opened, fewer⟩ := Evaluation.unclosed_of_halt halted found
    have left := Bracket.card_unclosed (Scan.ofText text).tokens
    rw [opened.unopened_eq_empty, Finset.card_empty] at left
    obtain ⟨groups, count⟩ := Nat.exists_eq_add_of_lt fewer
    refine ⟨groups, ?_, by omega, isComplete_eq_false_iff.mpr ⟨complete, fewer⟩⟩
    rw [depth?_of_complete complete]
    congr 1
    omega
  · obtain rfl := (Failure.mk.inj same).2
    rcases Evaluation.fault_of_conclude concluded with other | nowhere
    · cases other
    · cases nowhere

theorem depth?_of_operands (settled : Evaluation.operands (Scan.ofText text) = .ok operands) :
    depth? text = some 0 := by
  obtain ⟨complete, conserved⟩ := Evaluation.conserved_of_ok settled
  rw [depth?_of_complete complete, conserved.balanced.2, Nat.sub_self]

theorem evaluate_of_depth? (deep : depth? text = some (groups + 1)) (strictness : Strictness) :
    ∃ fault, evaluate strictness text = .error ⟨text, fault⟩ ∧ fault.Stuck := by
  cases settled : Evaluation.operands (Scan.ofText text) with
  | ok operands => cases (depth?_of_operands settled).symm.trans deep
  | error halt =>
    cases word : (Scan.ofText text).unknown with
    | none =>
      exact ⟨halt.fault, evaluate_of_halt settled, (Evaluation.stuck_of_halt word settled).1⟩
    | some span => cases (depth?_of_unknown word).symm.trans deep

theorem depth?_of_valued (result : Valued text (evaluate strictness text) ∨
    ∃ remaining, evaluate strictness text = .error ⟨text, .trailingValues remaining⟩) :
    depth? text = some 0 := by
  obtain ⟨operands, settled⟩ := exists_of_valued result
  exact depth?_of_operands settled

theorem evaluate_of_unknown (word : (Scan.ofText text).unknown = some span)
    (strictness : Strictness) :
    evaluate strictness text = .error ⟨text, .unknownWord span⟩ ∨
      ∃ fault, evaluate strictness text = .error ⟨text, fault⟩ ∧ fault.Stuck ∧
        ∃ lexeme, FoundAt (Scan.ofText text) lexeme fault ∧ lexeme.span.stop ≤ span.start := by
  cases fed : Machine.feed {} (Scan.ofText text).lexemes with
  | ok machine => exact .inl (evaluate_of_halt (Evaluation.operands_of_unknown fed word))
  | error halt =>
    have halted := Evaluation.operands_of_feed fed List.prefix_rfl
    obtain ⟨stuck, lexeme, stands, found⟩ := Evaluation.foundAt_of_feed fed
    have across := (List.pairwise_append.mp (Scan.spans_ofText_ordered text)).2.2
    have before := across lexeme.span (List.mem_map_of_mem stands) span
      (Option.mem_toList.mpr word)
    exact .inr ⟨halt.fault, evaluate_of_halt halted, stuck, lexeme, found, before.2⟩

/-- An editor that waits for groups to be closed and an evaluation agree on which are open. -/
theorem agreesOnGroups (text : List Char) : AgreesOnGroups text where
  unclosed _ _ := evaluate_unclosedGroup
  deep _ := evaluate_of_depth?
  settled _ := depth?_of_valued
  unknown := depth?_eq_none_iff
  word _ := evaluate_of_unknown

/-- In `((1 lt 2)` one of the two groups is left open. -/
theorem agreesOnGroups_unclosed :
    let text : List Char := ['(', '(', '1', ' ', 'l', 't', ' ', '2', ')']
    evaluate .strict text = .error ⟨text, .incomplete .unclosedGroup ⟨0, 1⟩⟩ ∧
      ∃ groups, depth? text = some (groups + 1) ∧
        (Bracket.unclosed (Scan.ofText text).tokens).card = groups + 1 ∧ isComplete text = false :=
  ⟨by decide, (agreesOnGroups _).unclosed .strict ⟨0, 1⟩ (by decide)⟩

end Condition
