import Condition.Evaluation
import Condition.Proofs.Reduction

/-! The states of an evaluation, between two tokens or between two applications,
and the faults that end it. Every evaluation that fails while it reads or applies
stops in such a state. -/

namespace Condition

namespace Operands

variable {operands next : Operands} {operator : Operator} {span : Span} {halt : Halt}

theorem apply_eq_ok_iff :
    operands.apply operator span = .ok next ↔
      ∃ right left rest outcome, operands.values = right :: left :: rest ∧
        operator.apply left right = .ok outcome ∧
        next = ⟨.outcome outcome :: rest, ⟨left, operator, right, outcome⟩ :: operands.applications⟩ := by
  obtain ⟨values, applications⟩ := operands
  rcases values with _ | ⟨right, _ | ⟨left, rest⟩⟩
  · simp [apply, Operands.halt]
  · simp [apply, Operands.halt]
  · constructor
    · intro applied
      cases result : operator.apply left right with
      | error cause => simp [apply, Operands.halt, result] at applied
      | ok outcome =>
        exact ⟨right, left, rest, outcome, rfl, result, by simpa [apply, result, eq_comm] using applied⟩
    · intro given
      obtain ⟨_, _, _, outcome, same, result, rfl⟩ := given
      cases same
      simp [apply, result]

theorem apply_eq_error_iff :
    operands.apply operator span = .error halt ↔
      (operands.values.length < 2 ∧
        halt = ⟨.incomplete .missingValue span, operands.applications⟩) ∨
      ∃ right left rest cause, operands.values = right :: left :: rest ∧
        operator.apply left right = .error cause ∧
        halt = ⟨.invalidOperand cause span, operands.applications⟩ := by
  obtain ⟨values, applications⟩ := operands
  rcases values with _ | ⟨right, _ | ⟨left, rest⟩⟩
  · simp [apply, Operands.halt, eq_comm]
  · simp [apply, Operands.halt, eq_comm]
  · constructor
    · intro failed
      cases result : operator.apply left right with
      | ok outcome => simp [apply, result] at failed
      | error cause =>
        exact .inr ⟨right, left, rest, cause, rfl, result,
          by simpa [apply, Operands.halt, result, eq_comm] using failed⟩
    · intro given
      rcases given with ⟨short, _⟩ | ⟨_, _, _, cause, same, result, rfl⟩
      · simp only [List.length_cons] at short
        omega
      · cases same
        simp [apply, Operands.halt, result]

theorem applications_of_apply_error (failed : operands.apply operator span = .error halt) :
    halt.applications = operands.applications := by
  rcases apply_eq_error_iff.mp failed with ⟨_, rfl⟩ | ⟨_, _, _, _, _, _, rfl⟩ <;> rfl

end Operands

/-- Whether the latest waiting operator is due, in front of what is not read. -/
def Scan.Due (scan : Scan) : List Lexeme → Prop
  | [] => scan.unknown = none
  | lexeme :: _ => lexeme.token = .closeParen

/-- A state that the evaluation of a scan comes to: what is not read, and the machine. -/
inductive Reached (scan : Scan) : List Lexeme → Machine → Prop where
  | start : Reached scan scan.lexemes {}
  | read (before : Reached scan (lexeme :: unread) machine) (inner : lexeme.token ≠ .closeParen)
      (stepped : machine.step lexeme = .ok next) : Reached scan unread next
  | close (before : Reached scan (lexeme :: unread) ⟨.group span :: waiting, operands⟩)
      (closing : lexeme.token = .closeParen) : Reached scan unread ⟨waiting, operands⟩
  | apply (before : Reached scan unread ⟨.operator operator span :: waiting, operands⟩)
      (due : scan.Due unread) (applied : operands.apply operator span = .ok next) :
      Reached scan unread ⟨waiting, next⟩

/-- A fault that ends the evaluation of a scan in some state. -/
inductive Stops (scan : Scan) : List Lexeme → Machine → Fault → Prop where
  | unmatched (closing : lexeme.token = .closeParen) :
      Stops scan (lexeme :: unread) ⟨[], operands⟩ (.incomplete .unmatchedClose lexeme.span)
  | refused (due : scan.Due unread) (failed : operands.apply operator span = .error halt) :
      Stops scan unread ⟨.operator operator span :: waiting, operands⟩ halt.fault
  | unknown (word : scan.unknown = some span) : Stops scan [] machine (.unknownWord span)
  | unclosed (ended : scan.unknown = none) :
      Stops scan [] ⟨.group span :: waiting, operands⟩ (.incomplete .unclosedGroup span)

/-- The result of an evaluation and the state in which it is found. -/
def Ends (scan : Scan) : Except Halt Operands → Prop
  | .ok operands => scan.unknown = none ∧ Reached scan [] ⟨[], operands⟩
  | .error halt => ∃ unread machine, Reached scan unread machine ∧
      Stops scan unread machine halt.fault ∧ halt.applications = machine.operands.applications

namespace Evaluation

/-- The values of an evaluation that goes on from some state. -/
def resume (scan : Scan) (unread : List Lexeme) (machine : Machine) : Except Halt Operands := do
  let last ← machine.feed unread
  match scan.unknown with
  | some span => last.operands.halt (.unknownWord span)
  | none => Machine.settle last.waiting last.operands

theorem operands_eq_resume (scan : Scan) : operands scan = resume scan scan.lexemes {} := rfl

theorem resume_nil (complete : scan.unknown = none) (machine : Machine) :
    resume scan [] machine = Machine.settle machine.waiting machine.operands := by
  simp only [resume, complete]
  rfl

theorem resume_cons (scan : Scan) (lexeme : Lexeme) (unread : List Lexeme) (machine : Machine) :
    resume scan (lexeme :: unread) machine = (machine.step lexeme).bind (resume scan unread) := by
  simp only [resume, Machine.feed, List.foldlM_cons]
  cases machine.step lexeme <;> rfl

end Evaluation

namespace Reached

/-- Applying what is due leads to another state or to a fault. -/
private theorem reduce_cases (due : scan.Due unread) (waiting : List Waiting) (operands : Operands)
    (reached : Reached scan unread ⟨waiting, operands⟩) :
    match Machine.reduce waiting operands with
    | .ok next => Reached scan unread next
    | .error halt => Ends scan (.error halt) := by
  induction waiting generalizing operands with
  | nil => exact reached
  | cons latest rest ih =>
    cases latest with
    | group span => exact reached
    | operator operator span =>
      simp only [Machine.reduce]
      cases result : operands.apply operator span with
      | ok next => exact ih next (reached.apply due result)
      | error halt =>
        exact ⟨_, _, reached, .refused due result, Operands.applications_of_apply_error result⟩

private theorem ends_of_settle (complete : scan.unknown = none) (machine : Machine)
    (reached : Reached scan [] machine) :
    Ends scan (Machine.settle machine.waiting machine.operands) := by
  have due : scan.Due [] := complete
  have cases := reduce_cases due machine.waiting machine.operands reached
  rw [← Machine.reduce_bind_settle]
  cases result : Machine.reduce machine.waiting machine.operands with
  | error halt =>
    rw [result] at cases
    exact cases
  | ok next =>
    rw [result] at cases
    obtain ⟨left, values⟩ := next
    rcases Machine.waiting_of_reduce result with rfl | ⟨span, rest, rfl⟩
    · exact ⟨complete, cases⟩
    · exact ⟨_, _, cases, .unclosed complete, rfl⟩

private theorem close_cases (closing : lexeme.token = .closeParen)
    (reached : Reached scan (lexeme :: unread) machine) :
    match Machine.close lexeme.span machine.waiting machine.operands with
    | .ok next => Reached scan unread next
    | .error halt => Ends scan (.error halt) := by
  have due : scan.Due (lexeme :: unread) := closing
  have cases := reduce_cases due machine.waiting machine.operands reached
  rw [← Machine.reduce_bind_close]
  cases result : Machine.reduce machine.waiting machine.operands with
  | error halt =>
    rw [result] at cases
    exact cases
  | ok next =>
    rw [result] at cases
    obtain ⟨left, values⟩ := next
    rcases Machine.waiting_of_reduce result with rfl | ⟨span, rest, rfl⟩
    · exact ⟨_, _, cases, .unmatched closing, rfl⟩
    · exact cases.close closing

private theorem step_cases (reached : Reached scan (lexeme :: unread) machine) :
    match machine.step lexeme with
    | .ok next => Reached scan unread next
    | .error halt => Ends scan (.error halt) := by
  by_cases closing : lexeme.token = .closeParen
  · have cases := close_cases closing reached
    simpa only [Machine.step, closing] using cases
  · cases stepped : machine.step lexeme with
    | ok next => exact reached.read closing stepped
    | error halt =>
      unfold Machine.step at stepped
      cases token : lexeme.token <;> simp [token] at stepped closing

theorem of_step (reached : Reached scan (lexeme :: unread) machine)
    (stepped : machine.step lexeme = .ok next) : Reached scan unread next := by
  have cases := step_cases reached
  rwa [stepped] at cases

theorem feed (reached : Reached scan (front ++ unread) machine)
    (fed : machine.feed front = .ok next) : Reached scan unread next := by
  induction front generalizing machine with
  | nil =>
    cases fed
    exact reached
  | cons lexeme rest ih =>
    rw [Machine.feed_cons] at fed
    cases stepped : machine.step lexeme with
    | error halt =>
      rw [stepped] at fed
      cases fed
    | ok later =>
      rw [stepped] at fed
      exact ih (reached.of_step stepped) fed

theorem of_feed_take {machine : Machine} (count : Nat)
    (fed : Machine.feed {} (scan.lexemes.take count) = .ok machine) :
    Reached scan (scan.lexemes.drop count) machine := by
  have whole : Reached scan (scan.lexemes.take count ++ scan.lexemes.drop count) {} := by
    rw [List.take_append_drop]
    exact .start
  exact whole.feed fed

theorem ends_of_resume (unread : List Lexeme) (machine : Machine)
    (reached : Reached scan unread machine) : Ends scan (Evaluation.resume scan unread machine) := by
  induction unread generalizing machine with
  | nil =>
    cases word : scan.unknown with
    | none =>
      rw [Evaluation.resume_nil word]
      exact ends_of_settle word machine reached
    | some span =>
      simp only [Evaluation.resume, word]
      exact ⟨_, _, reached, .unknown word, rfl⟩
  | cons lexeme rest ih =>
    have stepped := step_cases reached
    rw [Evaluation.resume_cons]
    cases result : machine.step lexeme with
    | ok next => exact ih next (by simpa only [result] using stepped)
    | error halt =>
      rw [result] at stepped
      exact stepped

end Reached

/-- An evaluation ends in a state that it comes to. -/
theorem Evaluation.operands_ends (scan : Scan) : Ends scan (operands scan) := by
  rw [operands_eq_resume]
  exact Reached.ends_of_resume _ _ .start

end Condition
