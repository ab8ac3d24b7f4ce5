import Condition.Proofs.CountingRun

namespace Condition

variable {first second : List Char}

theorem SameStructure.of_alike
    (alike : Fault.Alike (SamePlace first second) (SameWord first second) fault other) :
    SameStructure first second (.error ⟨first, fault⟩) (.error ⟨second, other⟩) := by
  cases alike with
  | unknownWord same => exact .inr (.inr (.some (.unknownWord same)))
  | incomplete same => exact .inr (.inr (.some (.incomplete same)))
  | invalidOperand same => exact .inl ⟨_, _, _, rfl⟩
  | notBoolean => exact .inr (.inr .none)
  | trailingValues => exact .inr (.inr (.some .trailingValues))

theorem structural?_conclude (strictness : Strictness) (text : List Char) (values : List Value) :
    structural? ((Evaluation.conclude strictness (byteSize text) values).mapError (Failure.mk text)) =
      Counting.conclude strictness (byteSize text) values.length := by
  rcases Evaluation.conclude_cases strictness (byteSize text) values with
    ⟨fault, counted, structural, concluded⟩ | ⟨counted, value, concluded⟩
  · rw [concluded, counted]
    exact if_pos structural
  · rw [concluded, counted]
    cases value.toBool <;> rfl

theorem SameStructure.of_conclude (strictness : Strictness) {values others : List Value}
    (sizes : values.length = others.length) :
    SameStructure first second
      ((Evaluation.conclude strictness (byteSize first) values).mapError (Failure.mk first))
      ((Evaluation.conclude strictness (byteSize second) others).mapError (Failure.mk second)) := by
  refine .inr (.inr ?_)
  rw [structural?_conclude, structural?_conclude, sizes]
  cases others.length with
  | zero => exact .some (.incomplete .ending)
  | succ rest =>
    simp only [Counting.conclude]
    split
    · exact .some .trailingValues
    · exact .none

namespace SameOutline

/-- Every value may stand for every other one, up to an operator that refuses on either side. -/
def correspondence (first second : List Char) : Correspondence where
  place := SamePlace first second
  word := SameWord first second
  value _ _ := True
  parts applied other := (∃ cause, applied = .error cause) ∨ ∃ cause, other = .error cause
  carries := by
    intro operator left left' right right' _ _
    cases operator.apply left right with
    | error cause => exact .inr (.inl ⟨cause, rfl⟩)
    | ok outcome =>
      cases operator.apply left' right' with
      | error cause => exact .inr (.inr ⟨cause, rfl⟩)
      | ok outcome' => exact .inl ⟨outcome, outcome', rfl, rfl, trivial⟩
  log _ _ := True
  start := trivial
  logged := by
    intros
    trivial

theorem tokens_of_outline (same : Token.outline token = Token.outline other) :
    (correspondence first second).Tokens token other := by
  unfold Token.outline at same
  cases left : token.value? with
  | none =>
    cases right : other.value? with
    | none =>
      simp only [left, right, Option.isSome_none, Bool.false_eq_true, if_false,
        Option.some.injEq] at same
      rw [← same]
      exact .same left
    | some value => simp [left, right] at same
  | some value =>
    cases right : other.value? with
    | none => simp [left, right] at same
    | some value' => exact .value left right trivial

theorem scans (same : SameOutline first second) :
    (correspondence first second).Scans (Scan.ofText first) (Scan.ofText second) := by
  refine Correspondence.scans_ofText rfl rfl ?_ same.ending
  have outlines := same.tokens
  rw [← List.forall₂_eq_eq_eq, List.forall₂_map_left_iff, List.forall₂_map_right_iff] at outlines
  exact outlines.imp fun _ _ => tokens_of_outline

theorem sameStructure (same : SameOutline first second) (strictness : Strictness) :
    SameStructure first second (evaluate strictness first) (evaluate strictness second) := by
  have results := same.scans.operands
  unfold evaluate Evaluation.ofText
  generalize Evaluation.operands (Scan.ofText first) = left,
    Evaluation.operands (Scan.ofText second) = right at results
  cases results with
  | ok alike => exact .of_conclude strictness alike.values.length_eq
  | fault alike _ => exact .of_alike alike
  | parted parts _ refused refused' _ =>
    rcases parts with ⟨cause, applied⟩ | ⟨cause, applied⟩
    · rw [refused cause applied]
      exact .inl ⟨first, cause, _, rfl⟩
    · rw [refused' cause applied]
      exact .inr (.inl ⟨second, cause, _, rfl⟩)

end SameOutline

/-- What is wrong with how tokens follow each other is found by counting values, and so it is the
same whatever the values are, unless an operator refuses that counting applies before. -/
theorem evaluate_foretold (strictness : Strictness) (text : List Char) :
    Foretells text (Counting.ofText strictness text) (evaluate strictness text) ∧
      ∀ other, SameOutline text other →
        SameStructure text other (evaluate strictness text) (evaluate strictness other) :=
  ⟨Counting.foretells strictness text, fun _ same => same.sameStructure strictness⟩

/-- In `(5 and true) or` the first operator refuses, before the second one misses a value. With
`1` in the place of `5` it does not. -/
theorem evaluate_foretold_refusal :
    let text := "(5 and true) or".toList
    let other := "(1 and true) or".toList
    let counting := Counting.ofText .strict text
    SameOutline text other ∧ counting.applied = [⟨3, 3⟩] ∧
      counting.fault? = some (.incomplete .missingValue ⟨13, 2⟩) ∧
      Foretells text counting (evaluate .strict text) ∧
      evaluate .strict text = .error ⟨text, .invalidOperand (.digitsAsBoolean ['5']) ⟨3, 3⟩⟩ ∧
      evaluate .strict other = .error ⟨other, .incomplete .missingValue ⟨13, 2⟩⟩ ∧
      SameStructure text other (evaluate .strict text) (evaluate .strict other) := by
  intro text other counting
  have outline : SameOutline text other := ⟨by decide, by decide⟩
  obtain ⟨foretold, same⟩ := evaluate_foretold .strict text
  exact ⟨outline, by decide, by decide, foretold, by decide, by decide, same other outline⟩

end Condition
