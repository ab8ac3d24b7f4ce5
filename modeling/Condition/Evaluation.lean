import Condition.Except
import Condition.Machine

namespace Condition

/-- Whether values that are left besides the result are an error. -/
inductive Strictness where
  | strict
  | lenient
deriving DecidableEq, Repr

/-- Unless asked otherwise an expression is to leave one value. -/
def Strictness.standard : Strictness := strict

/-- An evaluation: its applications in order, and what came of it. -/
structure Evaluation where
  applications : List Application
  result : Except Fault Bool

namespace Evaluation

/-- The values of a whole scan, once everything that waits is applied. A fault among the tokens
before an unknown word comes first. -/
def operands (scan : Scan) : Except Halt Operands := do
  let machine ← Machine.feed {} scan.lexemes
  match scan.unknown with
  | some span => machine.operands.halt (.unknownWord span)
  | none => Machine.settle machine.waiting machine.operands

/-- The latest value is the result. A result that is missing is missing at the end of the text. -/
def conclude (strictness : Strictness) (textSize : Nat) : List Value → Except Fault Bool
  | [] => .error (.incomplete .missingValue ⟨textSize, 0⟩)
  | value :: rest =>
    if strictness = .strict ∧ rest ≠ [] then .error (.trailingValues rest.length)
    else value.toBool.mapError .notBoolean

def ofText (strictness : Strictness) (text : List Char) : Evaluation :=
  match operands (Scan.ofText text) with
  | .ok operands =>
    ⟨operands.applications.reverse, conclude strictness (byteSize text) operands.values⟩
  | .error halt => ⟨halt.applications.reverse, .error halt.fault⟩

end Evaluation

def evaluate (strictness : Strictness) (expression : List Char) : Except Failure Bool :=
  (Evaluation.ofText strictness expression).result.mapError (Failure.mk expression)

section

variable {text : List Char} {strictness : Strictness}

theorem evaluate_of_operands {operands : Operands}
    (settled : Evaluation.operands (Scan.ofText text) = .ok operands) :
    evaluate strictness text =
      (Evaluation.conclude strictness (byteSize text) operands.values).mapError (Failure.mk text) := by
  simp only [evaluate, Evaluation.ofText, settled]

theorem evaluate_of_value {value : Value}
    (left : Evaluation.operands (Scan.ofText text) = .ok ⟨[value], applications⟩) :
    evaluate strictness text =
      (value.toBool.mapError Fault.notBoolean).mapError (Failure.mk text) := by
  simp [evaluate_of_operands left, Evaluation.conclude]

theorem evaluate_of_halt (halted : Evaluation.operands (Scan.ofText text) = .error halt) :
    evaluate strictness text = .error ⟨text, halt.fault⟩ := by
  simp only [evaluate, Evaluation.ofText, halted]
  rfl

/-- An evaluation fails on the way to its values or at the end. -/
theorem evaluate_error_cases {failure : Failure}
    (failed : evaluate strictness text = .error failure) :
    (∃ halt, Evaluation.operands (Scan.ofText text) = .error halt ∧
      failure = ⟨text, halt.fault⟩) ∨
    ∃ operands fault, Evaluation.operands (Scan.ofText text) = .ok operands ∧
      Evaluation.conclude strictness (byteSize text) operands.values = .error fault ∧
      failure = ⟨text, fault⟩ := by
  cases settled : Evaluation.operands (Scan.ofText text) with
  | error halt =>
    rw [evaluate_of_halt settled] at failed
    cases failed
    exact .inl ⟨halt, rfl, rfl⟩
  | ok operands =>
    rw [evaluate_of_operands settled] at failed
    cases concluded : Evaluation.conclude strictness (byteSize text) operands.values with
    | ok flag =>
      rw [concluded] at failed
      cases failed
    | error fault =>
      rw [concluded] at failed
      cases failed
      exact .inr ⟨operands, fault, rfl, concluded, rfl⟩

theorem Evaluation.fault_of_conclude {size : Nat}
    (failed : conclude strictness size values = .error fault) :
    fault = .incomplete .missingValue ⟨size, 0⟩ ∨ fault.span? = none := by
  cases values with
  | nil =>
    cases failed
    exact .inl rfl
  | cons value rest =>
    simp only [conclude] at failed
    split at failed
    · cases failed
      exact .inr rfl
    · cases truth : value.toBool with
      | ok flag =>
        rw [truth] at failed
        cases failed
      | error cause =>
        rw [truth] at failed
        cases failed
        exact .inr rfl

end

/-- What is shown of an application: texts with their names. -/
def Application.fields (application : Application) : List (String × String) :=
  [("left", application.left.display), ("op", application.operator.display),
    ("right", application.right.display), ("outcome", toString application.outcome)]

/-- What an observer is told of an evaluation. -/
inductive Event where
  | applied (application : Application)
  | concluded (expression : List Char) (result : Bool)
deriving DecidableEq, Repr

namespace Event

inductive Level where
  | debug
  | trace
deriving DecidableEq, Repr

def level : Event → Level
  | applied _ => .trace
  | concluded _ _ => .debug

def message : Event → String
  | applied _ => "reduced"
  | concluded expression result =>
    let shown := String.ofList expression
    s!"Boolean expression {shown} evaluates to {result}"

/-- What an event shows besides its message. -/
def fields : Event → List (String × String)
  | applied application => application.fields
  | concluded _ _ => []

/-- Every application in order, and the result if there is one. -/
def ofText (strictness : Strictness) (text : List Char) : List Event :=
  let evaluation := Evaluation.ofText strictness text
  let last :=
    match evaluation.result with
    | .ok result => [concluded text result]
    | .error _ => []
  evaluation.applications.map applied ++ last

end Event

end Condition
