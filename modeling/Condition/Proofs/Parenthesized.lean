import Condition.Proofs.FaultPlace
import Condition.Proofs.ScanJoin
import Condition.Proofs.Simulation

namespace Condition

def Fault.move (place : Span → Span) : Fault → Fault
  | .unknownWord span => .unknownWord (place span)
  | .incomplete cause span => .incomplete cause (place span)
  | .invalidOperand cause span => .invalidOperand cause (place span)
  | .notBoolean cause => .notBoolean cause
  | .trailingValues remaining => .trailingValues remaining

def Halt.move (place : Span → Span) (halt : Halt) : Halt :=
  ⟨halt.fault.move place, halt.applications⟩

/-- A result that fails for no parenthesis. -/
def Paired (result : Except Halt α) : Prop :=
  ∀ halt, result = .error halt → halt.fault.isParenthesis = false

namespace Machine

/-- The same machine with more that waits below. -/
def deepen (below : List Waiting) (machine : Machine) : Machine :=
  ⟨machine.waiting ++ below, machine.operands⟩

variable {waiting : List Waiting} {operands : Operands} {machine : Machine}

theorem close_deepen (below : List Waiting) (paired : Paired (close closing waiting operands)) :
    close closing (waiting ++ below) operands =
      (close closing waiting operands).map (deepen below) := by
  induction waiting generalizing operands with
  | nil => cases paired _ rfl
  | cons latest rest ih =>
    cases latest with
    | group span => rfl
    | operator operator span =>
      simp only [List.cons_append, close] at paired ⊢
      cases applied : operands.apply operator span with
      | error halt => rfl
      | ok next =>
        rw [applied] at paired
        exact ih paired

theorem step_deepen (below : List Waiting) (paired : Paired (machine.step lexeme)) :
    (machine.deepen below).step lexeme = (machine.step lexeme).map (deepen below) := by
  by_cases closing : lexeme.token = .closeParen
  · simp only [step, closing] at paired ⊢
    exact close_deepen below paired
  · rw [step_of_inner closing, step_of_inner closing]
    simp only [deepen, List.append_assoc, Except.map]

theorem feed_deepen (below : List Waiting) (paired : Paired (machine.feed lexemes)) :
    (machine.deepen below).feed lexemes = (machine.feed lexemes).map (deepen below) := by
  induction lexemes generalizing machine with
  | nil => rfl
  | cons lexeme rest ih =>
    rw [feed_cons] at paired
    rw [feed_cons, feed_cons]
    cases stepped : machine.step lexeme with
    | error halt =>
      rw [stepped] at paired
      rw [step_deepen below (by rwa [stepped]), stepped]
      rfl
    | ok next =>
      have stays : Paired (machine.step lexeme) := by
        intro halt failed
        cases stepped.symm.trans failed
      rw [stepped] at paired
      rw [step_deepen below stays, stepped]
      exact ih paired

/-- A parenthesis that closes the only open group does what the end of a text does. -/
theorem close_eq_settle (closing opening : Span) (paired : Paired (settle waiting operands)) :
    close closing (waiting ++ [.group opening]) operands =
      (settle waiting operands).map (Machine.mk []) := by
  induction waiting generalizing operands with
  | nil => rfl
  | cons latest rest ih =>
    cases latest with
    | group span => cases paired _ rfl
    | operator operator span =>
      simp only [List.cons_append, close, settle] at paired ⊢
      cases applied : operands.apply operator span with
      | error halt => rfl
      | ok next =>
        rw [applied] at paired
        exact ih paired

end Machine

namespace Scan

/-- A scan between two parentheses. The closing one is not read behind an unknown word. -/
def between (opening closing : Span) (scan : Scan) : Scan :=
  append ⟨[⟨opening, .openParen⟩], none⟩ (scan.append ⟨[⟨closing, .closeParen⟩], none⟩)

end Scan

namespace Evaluation

theorem operands_between (opening closing : Span) (paired : Paired (operands scan)) :
    operands (scan.between opening closing) = operands scan := by
  obtain ⟨lexemes, unknown⟩ := scan
  have opens : Machine.step {} ⟨opening, .openParen⟩ =
      .ok (({} : Machine).deepen [.group opening]) := rfl
  have stays : Paired (Machine.feed {} lexemes) := by
    intro halt failed
    exact paired halt (by rw [operands, failed]; rfl)
  have reads : Machine.feed {} (⟨opening, .openParen⟩ :: lexemes) =
      (Machine.feed {} lexemes).map (Machine.deepen [.group opening]) := by
    rw [Machine.feed_cons, opens]
    exact Machine.feed_deepen [.group opening] stays
  cases unknown with
  | some word =>
    simp only [Scan.between, Scan.append, operands, List.singleton_append, reads]
    cases Machine.feed {} lexemes <;> rfl
  | none =>
    simp only [Scan.between, Scan.append, operands, List.singleton_append]
    rw [← List.cons_append, Machine.feed_append, reads]
    cases fed : Machine.feed {} lexemes with
    | error halt => rfl
    | ok last =>
      have settles : Paired (Machine.settle last.waiting last.operands) := by
        intro halt failed
        exact paired halt (by rw [operands, fed]; exact failed)
      have closes : (last.deepen [.group opening]).step ⟨closing, .closeParen⟩ =
          (Machine.settle last.waiting last.operands).map (Machine.mk []) :=
        Machine.close_eq_settle closing opening settles
      simp only [Except.map, Except.bind]
      rw [Machine.feed_cons, closes]
      change _ = Machine.settle last.waiting last.operands
      cases Machine.settle last.waiting last.operands <;> rfl

/-- A scan in another place leaves the same values, or its fault is in another place too. -/
theorem operands_shift (offset : Nat) (scan : Scan) :
    operands (scan.shift offset) = (operands scan).mapError (Halt.move (Span.shift offset)) := by
  let moved (span other : Span) : Prop := other = span.shift offset
  have scans : (Correspondence.same moved moved).Scans scan (scan.shift offset) := by
    constructor
    · refine List.forall₂_map_right_iff.mpr (List.forall₂_same.mpr fun lexeme _ => ⟨rfl, ?_⟩)
      exact .refl (fun _ => rfl) lexeme.token
    · rw [Scan.shift]
      cases scan.unknown with
      | none => exact .none
      | some span => exact .some rfl
  have results := scans.operands
  generalize operands scan = result, operands (scan.shift offset) = result' at results
  cases results with
  | ok alike =>
    obtain rfl := Correspondence.eq_of_stacks alike
    rfl
  | fault alike made =>
    obtain rfl := made
    cases alike with
    | unknownWord same => obtain rfl := same; rfl
    | incomplete same => obtain rfl := same; rfl
    | invalidOperand same => obtain rfl := same; rfl
    | notBoolean => rfl
    | trailingValues => rfl
  | parted parts place left right made =>
    obtain ⟨cause, refused, refused'⟩ := parts
    obtain rfl := place
    obtain rfl := made
    rw [left cause refused, right cause refused']
    rfl

end Evaluation

def parenthesized (text : List Char) : List Char := '(' :: (text ++ [')'])

theorem Scan.ofText_parenthesized (text : List Char) :
    ofText (parenthesized text) =
      ((ofText text).shift 1).between ⟨0, 1⟩ ⟨1 + byteSize text, 1⟩ := by
  have opening : Token.SpelledBy .openParen ['('] := rfl
  have closing : Token.SpelledBy .closeParen [')'] := rfl
  have opens := behind_append_paren 0 [] (text ++ [')']) rfl opening
  have closes := behind_append_paren 1 text [] rfl closing
  rw [behind_nil, append_empty] at closes
  calc ofText (parenthesized text)
      = append ⟨[⟨⟨0, 1⟩, .openParen⟩], none⟩ (behind 1 (text ++ [')'])) := opens
    _ = ((ofText text).shift 1).between ⟨0, 1⟩ ⟨1 + byteSize text, 1⟩ := by
      rw [closes, behind_eq_shift 1 text]
      rfl

/-- The place in a parenthesized text of what a span of the text covers. A span that covers nothing
lies at the end. -/
def Span.parenthesized (span : Span) : Span := span.shift (if span.size = 0 then 2 else 1)

/-- The failure of a parenthesized text that fails as the text does. -/
def Failure.parenthesized (failure : Failure) : Failure :=
  ⟨Condition.parenthesized failure.expression, failure.fault.move Span.parenthesized⟩

namespace Fault

variable {fault : Fault}

theorem span?_move (place : Span → Span) (fault : Fault) :
    (fault.move place).span? = fault.span?.map place := by
  cases fault <;> rfl

theorem move_congr (same : ∀ span, fault.span? = some span → place span = place' span) :
    fault.move place = fault.move place' := by
  cases fault with
  | unknownWord span => rw [move, move, same span rfl]
  | incomplete cause span => rw [move, move, same span rfl]
  | invalidOperand cause span => rw [move, move, same span rfl]
  | notBoolean cause => rfl
  | trailingValues remaining => rfl

theorem isParenthesis_move (place : Span → Span) (fault : Fault) :
    (fault.move place).isParenthesis = fault.isParenthesis := by
  cases fault with
  | incomplete cause span => cases cause <;> rfl
  | _ => rfl

end Fault

variable {text : List Char}

theorem Occurs.parenthesized (stands : Occurs text span chars) :
    Occurs (parenthesized text) (span.shift 1) chars := by
  have whole : Occurs (Condition.parenthesized text) ⟨1, byteSize text⟩ text :=
    ⟨['('], [')'], rfl, rfl⟩
  exact whole.within stands

theorem byteSize_parenthesized (text : List Char) :
    byteSize (parenthesized text) = 2 + byteSize text := by
  have single : byteSize [')'] = 1 := rfl
  have opening : ('(' : Char).utf8Size = 1 := rfl
  rw [parenthesized, byteSize_cons, byteSize_append, single, opening]
  omega

theorem Evaluation.operands_parenthesized (paired : Paired (operands (Scan.ofText text))) :
    operands (Scan.ofText (parenthesized text)) =
      (operands (Scan.ofText text)).mapError (Halt.move (Span.shift 1)) := by
  have moved : Paired (operands ((Scan.ofText text).shift 1)) := by
    intro halt failed
    rw [operands_shift] at failed
    cases result : operands (Scan.ofText text) with
    | ok last =>
      rw [result] at failed
      cases failed
    | error halt =>
      rw [result] at failed
      cases failed
      exact (Fault.isParenthesis_move _ _).trans (paired halt result)
  rw [Scan.ofText_parenthesized, operands_between _ _ moved, operands_shift]

/-- What the values at the end come to does not depend on parentheses around the text, nor does
what is shown of a fault. -/
theorem Evaluation.conclude_parenthesized (strictness : Strictness) (text : List Char)
    (values : List Value) :
    (conclude strictness (byteSize (parenthesized text)) values).mapError
        (Failure.mk (parenthesized text)) =
      ((conclude strictness (byteSize text) values).mapError (Failure.mk text)).mapError
        Failure.parenthesized := by
  cases values with
  | nil =>
    rw [byteSize_parenthesized]
    rfl
  | cons value rest =>
    simp only [conclude]
    split
    · rfl
    · cases value.toBool <;> rfl

theorem Failure.culprit_of_unplaced {fault : Fault} (nowhere : fault.span? = none) :
    Failure.culprit ⟨text, fault⟩ = [] := by
  rw [culprit, nowhere]

theorem Failure.culprit_of_halt {fault : Fault} (place : fault.span? = some span)
    (stands : Occurs text span chars) (covers : 0 < span.size) :
    (Failure.parenthesized ⟨text, fault⟩).culprit = Failure.culprit ⟨text, fault⟩ := by
  have within : span.parenthesized = span.shift 1 := by
    rw [Span.parenthesized, if_neg (Nat.ne_of_gt covers)]
  have moved : (fault.move Span.parenthesized).span? = some (span.shift 1) := by
    rw [Fault.span?_move, place, Option.map_some, within]
  rw [Failure.culprit_of_occurs place stands]
  exact Failure.culprit_of_occurs moved stands.parenthesized

theorem Failure.culprit_of_conclude {fault : Fault}
    (failed : Evaluation.conclude strictness (byteSize text) values = .error fault) :
    (Failure.parenthesized ⟨text, fault⟩).culprit = Failure.culprit ⟨text, fault⟩ := by
  rcases Evaluation.fault_of_conclude failed with rfl | nowhere
  · have atEnd : Occurs text ⟨byteSize text, 0⟩ [] := ⟨text, [], by simp, rfl⟩
    have behind : Occurs (Condition.parenthesized text) ⟨2 + byteSize text, 0⟩ [] :=
      ⟨Condition.parenthesized text, [], by simp, by rw [byteSize_parenthesized]; rfl⟩
    rw [Failure.culprit_of_occurs rfl atEnd]
    exact Failure.culprit_of_occurs rfl behind
  · rw [Failure.culprit_of_unplaced nowhere]
    exact Failure.culprit_of_unplaced (by rw [Fault.span?_move, nowhere]; rfl)

/-- Parentheses around a text change nothing but the places of faults, unless a parenthesis of the
text itself is at fault. -/
theorem evaluate_parenthesized
    (paired : ∀ failure, evaluate strictness text = .error failure →
      failure.fault.isParenthesis = false) :
    evaluate strictness (parenthesized text) =
        (evaluate strictness text).mapError Failure.parenthesized ∧
      ∀ failure, evaluate strictness text = .error failure →
        failure.parenthesized.culprit = failure.culprit := by
  cases settled : Evaluation.operands (Scan.ofText text) with
  | error halt =>
    obtain ⟨span, chars, place, stands, covers⟩ := Evaluation.occurs_of_halt settled
    have fits : Paired (Evaluation.operands (Scan.ofText text)) := by
      intro other failed
      cases settled.symm.trans failed
      exact paired _ (evaluate_of_halt settled)
    have moved := Evaluation.operands_parenthesized fits
    rw [settled] at moved
    have within : halt.fault.move (Span.shift 1) = halt.fault.move Span.parenthesized := by
      refine Fault.move_congr fun other same => ?_
      obtain rfl := Option.some.inj (place.symm.trans same)
      rw [Span.parenthesized, if_neg (Nat.ne_of_gt covers)]
    rw [evaluate_of_halt settled, evaluate_of_halt moved]
    refine ⟨congrArg (fun fault => Except.error (Failure.mk (parenthesized text) fault)) within, ?_⟩
    rintro _ ⟨⟩
    exact Failure.culprit_of_halt place stands covers
  | ok operands =>
    have fits : Paired (Evaluation.operands (Scan.ofText text)) := by
      intro halt failed
      cases settled.symm.trans failed
    have moved := Evaluation.operands_parenthesized fits
    rw [settled] at moved
    rw [evaluate_of_operands settled, evaluate_of_operands moved]
    refine ⟨Evaluation.conclude_parenthesized strictness text operands.values, ?_⟩
    intro failure failed
    cases concluded : Evaluation.conclude strictness (byteSize text) operands.values with
    | ok flag =>
      rw [concluded] at failed
      cases failed
    | error fault =>
      rw [concluded] at failed
      cases failed
      exact Failure.culprit_of_conclude concluded

/-- In `(5 or true` the operator refuses its operands before the open group is found, and so it does
in `((5 or true)`. -/
theorem evaluate_parenthesized_unclosed :
    let text := "(5 or true".toList
    let failure : Failure := ⟨text, .invalidOperand (.digitsAsBoolean ['5']) ⟨3, 2⟩⟩
    (∀ failure, evaluate .strict text = .error failure → failure.fault.isParenthesis = false) ∧
      evaluate .strict text = .error failure ∧
      evaluate .strict (parenthesized text) = .error failure.parenthesized ∧
      failure.parenthesized = ⟨"((5 or true)".toList,
        .invalidOperand (.digitsAsBoolean ['5']) ⟨4, 2⟩⟩ ∧
      failure.parenthesized.culprit = failure.culprit := by
  intro text failure
  have failed : evaluate .strict text = .error failure := by decide
  have paired : ∀ failure, evaluate .strict text = .error failure →
      failure.fault.isParenthesis = false := by
    rintro other same
    cases failed.symm.trans same
    rfl
  obtain ⟨same, culprits⟩ := evaluate_parenthesized paired
  exact ⟨paired, failed, by rw [same, failed]; rfl, rfl, culprits failure failed⟩

end Condition
