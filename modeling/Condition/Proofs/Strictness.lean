import Condition.Proofs.Conservation

namespace Condition

theorem Stops.span?_isSome (stops : Stops scan unread machine fault) :
    fault.span?.isSome = true := by
  cases stops with
  | unmatched closing => rfl
  | unknown word => rfl
  | unclosed ended => rfl
  | refused due failed =>
    rcases Operands.apply_eq_error_iff.mp failed with ⟨_, rfl⟩ | ⟨_, _, _, _, _, _, rfl⟩
    · rfl
    · rfl

/-- What a value is as a result. -/
def Value.result (text : List Char) (value : Value) : Except Failure Bool :=
  (value.toBool.mapError Fault.notBoolean).mapError (Failure.mk text)

/-- A result that a value was found for, whether or not it has a truth value. -/
def Valued (text : List Char) (result : Except Failure Bool) : Prop :=
  (∃ flag, result = .ok flag) ∨ ∃ cause, result = .error ⟨text, .notBoolean cause⟩

theorem Value.valued_result (text : List Char) (value : Value) : Valued text (value.result text) := by
  cases truth : value.toBool with
  | ok flag => exact .inl ⟨flag, by rw [result, truth]; rfl⟩
  | error cause => exact .inr ⟨cause, by rw [result, truth]; rfl⟩

theorem Value.result_eq_notBoolean {value : Value} :
    value.result text = .error ⟨text, .notBoolean cause⟩ ↔ value.toBool = .error cause := by
  cases truth : value.toBool <;> simp [result, truth, Except.mapError]

/-- What strict and lenient evaluation come to. They differ if more values are left than one. -/
inductive Concluded (text : List Char) : Except Failure Bool → Except Failure Bool → Prop where
  | failed (placed : fault.span?.isSome = true) :
      Concluded text (.error ⟨text, fault⟩) (.error ⟨text, fault⟩)
  | single (value : Value) (complete : (Scan.ofText text).unknown = none)
      (conserved : Conserved (Scan.ofText text).tokens ⟨[], ⟨[value], made⟩⟩) :
      Concluded text (value.result text) (value.result text)
  | trailing (value : Value) (left : rest ≠ [])
      (conserved : Conserved (Scan.ofText text).tokens ⟨[], ⟨value :: rest, made⟩⟩) :
      Concluded text (.error ⟨text, .trailingValues rest.length⟩) (value.result text)

theorem evaluate_concluded (text : List Char) :
    Concluded text (evaluate .strict text) (evaluate .lenient text) := by
  cases settled : Evaluation.operands (Scan.ofText text) with
  | error halt =>
    have ends := Evaluation.operands_ends (Scan.ofText text)
    rw [settled] at ends
    obtain ⟨_, _, _, stops, _⟩ := ends
    rw [evaluate_of_halt settled, evaluate_of_halt settled]
    exact .failed stops.span?_isSome
  | ok operands =>
    obtain ⟨complete, conserved⟩ := Evaluation.conserved_of_ok settled
    rw [evaluate_of_operands settled, evaluate_of_operands settled]
    obtain ⟨values, made⟩ := operands
    rcases values with _ | ⟨value, _ | ⟨second, rest⟩⟩
    · exact .failed rfl
    · exact .single value complete conserved
    · exact .trailing value (List.cons_ne_nil second rest) conserved

theorem exists_of_evaluate (found : evaluate strictness text = .ok flag) :
    ∃ operands, Evaluation.operands (Scan.ofText text) = .ok operands ∧
      (Scan.ofText text).unknown = none ∧
      Evaluation.conclude strictness (byteSize text) operands.values = .ok flag := by
  cases settled : Evaluation.operands (Scan.ofText text) with
  | error halt =>
    rw [evaluate_of_halt settled] at found
    cases found
  | ok operands =>
    rw [evaluate_of_operands settled, mapError_eq_ok_iff] at found
    exact ⟨operands, rfl, (Evaluation.conserved_of_ok settled).1, found⟩

/-- Strict evaluation finds a truth value only in a value that is left alone. -/
theorem exists_value_of_evaluate (found : evaluate .standard text = .ok flag) :
    ∃ value made, Evaluation.operands (Scan.ofText text) = .ok ⟨[value], made⟩ ∧
      (Scan.ofText text).unknown = none ∧ value.toBool = .ok flag := by
  obtain ⟨⟨values, made⟩, settled, complete, concluded⟩ := exists_of_evaluate found
  rcases values with _ | ⟨value, _ | ⟨second, rest⟩⟩
  · cases concluded
  · exact ⟨value, made, settled, complete, mapError_eq_ok_iff.mp concluded⟩
  · cases concluded

/-- A result without a place is found once all operators are applied. -/
theorem exists_of_valued (found : Valued text (evaluate strictness text) ∨
    ∃ remaining, evaluate strictness text = .error ⟨text, .trailingValues remaining⟩) :
    ∃ operands, Evaluation.operands (Scan.ofText text) = .ok operands := by
  cases settled : Evaluation.operands (Scan.ofText text) with
  | ok operands => exact ⟨operands, rfl⟩
  | error halt =>
    have ends := Evaluation.operands_ends (Scan.ofText text)
    rw [settled] at ends
    obtain ⟨_, _, _, stops, -⟩ := ends
    have placed := stops.span?_isSome
    rw [evaluate_of_halt settled] at found
    rcases found with (⟨_, same⟩ | ⟨_, same⟩) | ⟨_, same⟩
    · cases same
    · rw [(Failure.mk.inj (Except.error.inj same)).2] at placed
      cases placed
    · rw [(Failure.mk.inj (Except.error.inj same)).2] at placed
      cases placed

theorem Conserved.eq_digits (conserved : Conserved seen ⟨[], ⟨[value], made⟩⟩)
    (untrue : value.toBool = .error cause) :
    seen.filterMap Token.operator? = [] ∧ ∃ digits, seen.filterMap Token.value? = [.digits digits] ∧
      digits ≠ ['1'] ∧ digits ≠ ['0'] := by
  rcases value.toBool_cases with ⟨flag, truth⟩ | ⟨digits, rfl, one, zero⟩
  · rw [truth] at untrue
    cases untrue
  · have unapplied : made = [] := by
      by_contra applied
      obtain ⟨flag, member⟩ := conserved.outcome applied
      simp at member
    subst unapplied
    have operators := conserved.operators.symm
    have values := conserved.untouched rfl
    refine ⟨by simpa using operators, digits, ?_, one, zero⟩
    simpa [eq_comm] using congrArg List.reverse values

namespace Concluded

variable {text : List Char} {strict lenient : Except Failure Bool}

theorem valued (concluded : Concluded text strict lenient) (found : Valued text strict) :
    Bracket.Balanced (Scan.ofText text).tokens ∧
      (Scan.ofText text).values.length = (Scan.ofText text).operators.length + 1 := by
  cases concluded with
  | failed placed =>
    rcases found with ⟨_, same⟩ | ⟨_, same⟩
    · cases same
    · cases same
      cases placed
  | single value complete conserved =>
    have sizes := conserved.length_values
    exact ⟨conserved.balanced, by simpa [Scan.values, Scan.operators, Nat.add_comm] using sizes.symm⟩
  | trailing value left conserved =>
    rcases found with ⟨_, same⟩ | ⟨_, same⟩ <;> cases same

theorem surplus (concluded : Concluded text strict lenient)
    (failed : strict = .error ⟨text, .trailingValues remaining⟩) :
    Bracket.Balanced (Scan.ofText text).tokens ∧ 1 ≤ remaining ∧
      (Scan.ofText text).values.length = (Scan.ofText text).operators.length + 1 + remaining ∧
      Valued text lenient := by
  cases concluded with
  | failed placed =>
    cases failed
    cases placed
  | single value complete conserved =>
    rcases value.valued_result text with ⟨_, found⟩ | ⟨_, found⟩
    · rw [found] at failed
      cases failed
    · rw [found] at failed
      cases failed
  | @trailing rest _ value left conserved =>
    cases failed
    have sizes := conserved.length_values
    have some : 1 ≤ rest.length := List.length_pos_of_ne_nil left
    refine ⟨conserved.balanced, some, ?_, value.valued_result text⟩
    rw [List.length_cons] at sizes
    rw [Scan.values, Scan.operators]
    omega

theorem eq_of_not_trailing (concluded : Concluded text strict lenient)
    (other : ∀ remaining, strict ≠ .error ⟨text, .trailingValues remaining⟩) : lenient = strict := by
  cases concluded with
  | failed _ => rfl
  | single _ _ _ => rfl
  | trailing _ _ _ => exact absurd rfl (other _)

theorem lone_digits (concluded : Concluded text strict lenient)
    (failed : strict = .error ⟨text, .notBoolean cause⟩) :
    (Scan.ofText text).unknown = none ∧ Bracket.Balanced (Scan.ofText text).tokens ∧
      (Scan.ofText text).operators = [] ∧
      ∃ digits, (Scan.ofText text).values = [.digits digits] ∧ digits ≠ ['1'] ∧ digits ≠ ['0'] := by
  cases concluded with
  | failed placed =>
    cases failed
    cases placed
  | single value complete conserved =>
    exact ⟨complete, conserved.balanced, conserved.eq_digits (Value.result_eq_notBoolean.mp failed)⟩
  | trailing _ _ _ => cases failed

end Concluded

theorem evaluate_of_lone_digits (complete : (Scan.ofText text).unknown = none)
    (balanced : Bracket.Balanced (Scan.ofText text).tokens)
    (without : (Scan.ofText text).operators = [])
    (alone : (Scan.ofText text).values = [.digits digits]) (one : digits ≠ ['1'])
    (zero : digits ≠ ['0']) :
    evaluate strictness text = .error ⟨text, .notBoolean (.digitsAsBoolean digits)⟩ := by
  have left := Evaluation.operands_of_no_operator complete balanced without
  rw [alone] at left
  rw [evaluate_of_value left, Value.toBool_digits one zero]
  rfl

/-- How the numbers of values and operators in a text go with its results. -/
structure Numbered (text : List Char) : Prop where
  /-- A value is found only if each operator has its two. -/
  valued : Valued text (evaluate .strict text) →
    Bracket.Balanced (Scan.ofText text).tokens ∧
      (Scan.ofText text).values.length = (Scan.ofText text).operators.length + 1
  /-- What is left over is what the operators do not need. -/
  surplus : ∀ remaining, evaluate .strict text = .error ⟨text, .trailingValues remaining⟩ →
    Bracket.Balanced (Scan.ofText text).tokens ∧ 1 ≤ remaining ∧
      (Scan.ofText text).values.length = (Scan.ofText text).operators.length + 1 + remaining ∧
      Valued text (evaluate .lenient text)
  /-- Nothing but values left over makes a difference to a lenient evaluation. -/
  lenient : (∀ remaining, evaluate .strict text ≠ .error ⟨text, .trailingValues remaining⟩) →
    evaluate .lenient text = evaluate .strict text
  /-- A value without truth value stands alone. -/
  notBoolean : (∃ cause, evaluate .strict text = .error ⟨text, .notBoolean cause⟩) ↔
    (Scan.ofText text).unknown = none ∧ Bracket.Balanced (Scan.ofText text).tokens ∧
      (Scan.ofText text).operators = [] ∧
      ∃ digits, (Scan.ofText text).values = [.digits digits] ∧ digits ≠ ['1'] ∧ digits ≠ ['0']

theorem evaluate_numbered (text : List Char) : Numbered text where
  valued := (evaluate_concluded text).valued
  surplus _ := (evaluate_concluded text).surplus
  lenient := (evaluate_concluded text).eq_of_not_trailing
  notBoolean := by
    constructor
    · rintro ⟨cause, failed⟩
      exact (evaluate_concluded text).lone_digits failed
    · rintro ⟨complete, balanced, without, digits, alone, one, zero⟩
      exact ⟨_, evaluate_of_lone_digits complete balanced without alone one zero⟩

/-- In `()1 2` nothing is applied, and one value is left besides the result. -/
theorem evaluate_numbered_surplus :
    let text : List Char := ['(', ')', '1', ' ', '2']
    evaluate .strict text = .error ⟨text, .trailingValues 1⟩ ∧
      Bracket.Balanced (Scan.ofText text).tokens ∧ 1 ≤ 1 ∧
      (Scan.ofText text).values.length = (Scan.ofText text).operators.length + 1 + 1 ∧
      Valued text (evaluate .lenient text) :=
  ⟨by decide, (evaluate_numbered _).surplus 1 (by decide)⟩

end Condition
