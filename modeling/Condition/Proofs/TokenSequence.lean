import Condition.Proofs.Simulation

namespace Condition

variable {first second : List Char}

theorem Scan.getElem?_spans {scan : Scan} {number : Nat} (stands : scan.lexemes[number]? = some lexeme) :
    scan.spans[number]? = some lexeme.span := by
  obtain ⟨inside, -⟩ := List.getElem?_eq_some_iff.mp stands
  have bound : number < (scan.lexemes.map Lexeme.span).length := by simpa using inside
  rw [Scan.spans, List.getElem?_append_left bound, List.getElem?_map, stands]
  rfl

/-- The unknown word of a scan has the number behind those of all tokens. -/
theorem Scan.getElem?_spans_length {scan : Scan} (word : scan.unknown = some span) :
    scan.spans[scan.lexemes.length]? = some span := by
  rw [Scan.spans, List.getElem?_append_right (by simp), word]
  simp

theorem EndAlike.rel (ending : EndAlike first second)
    (words : ∀ span other, (Scan.ofText first).unknown = some span →
      (Scan.ofText second).unknown = some other → span.slice first = other.slice second →
        word span other) :
    Option.Rel word (Scan.ofText first).unknown (Scan.ofText second).unknown := by
  rw [EndAlike] at ending
  cases left : (Scan.ofText first).unknown with
  | none =>
    rw [left, Option.map_none, eq_comm, Option.map_eq_none_iff] at ending
    rw [ending]
    exact .none
  | some span =>
    rw [left, Option.map_some, eq_comm, Option.map_eq_some_iff] at ending
    obtain ⟨other, right, same⟩ := ending
    rw [right]
    exact .some (words span other left right same.symm)

theorem Correspondence.scans_ofText {like : Correspondence}
    (places : like.place = SamePlace first second) (words : like.word = SameWord first second)
    (tokens : List.Forall₂ like.Tokens (Scan.ofText first).tokens (Scan.ofText second).tokens)
    (ending : EndAlike first second) :
    like.Scans (Scan.ofText first) (Scan.ofText second) := by
  have sizes : (Scan.ofText first).lexemes.length = (Scan.ofText second).lexemes.length := by
    simpa [Scan.tokens] using tokens.length_eq
  constructor
  · rw [Scan.tokens, Scan.tokens, List.forall₂_map_left_iff, List.forall₂_map_right_iff,
      List.forall₂_iff_get] at tokens
    refine List.forall₂_iff_get.mpr ⟨sizes, fun number left right => ⟨?_, tokens.2 number left right⟩⟩
    rw [places]
    exact .token number (Scan.getElem?_spans (List.getElem?_eq_getElem left))
      (Scan.getElem?_spans (List.getElem?_eq_getElem right))
  · rw [words]
    refine ending.rel fun span other left right same => ⟨.token _ (Scan.getElem?_spans_length left) ?_, same⟩
    rw [sizes]
    exact Scan.getElem?_spans_length right

theorem sameResult_iff :
    SameResult first second result result' ↔ Agree (SamePlace first second) first second result result' := by
  constructor
  · intro same
    cases same with
    | truth => exact .truth
    | failure alike => exact .failure alike
  · intro agree
    cases agree with
    | truth => exact .truth
    | failure alike => exact .failure alike

/-- What values come to in two texts that are as true in one of them as in the other. -/
theorem Agree.of_conclude (ending : place ⟨byteSize first, 0⟩ ⟨byteSize second, 0⟩)
    (strictness : Strictness)
    (alike : List.Forall₂ (fun value other => value.toBool = other.toBool) values others) :
    Agree place first second
      ((Evaluation.conclude strictness (byteSize first) values).mapError (Failure.mk first))
      ((Evaluation.conclude strictness (byteSize second) others).mapError (Failure.mk second)) := by
  cases alike with
  | nil => exact .failure (.incomplete ending)
  | @cons value other rest rest' truth later =>
    have lefts : rest ≠ [] ↔ rest' ≠ [] := by
      rw [← List.length_pos_iff, ← List.length_pos_iff, later.length_eq]
    simp only [Evaluation.conclude, lefts, later.length_eq, truth]
    split
    · exact .failure .trailingValues
    · cases other.toBool with
      | ok flag => exact .truth
      | error cause => exact .failure .notBoolean

theorem SameResult.of_conclude (strictness : Strictness) (values : List Value) :
    SameResult first second
      ((Evaluation.conclude strictness (byteSize first) values).mapError (Failure.mk first))
      ((Evaluation.conclude strictness (byteSize second) values).mapError (Failure.mk second)) :=
  sameResult_iff.mpr (.of_conclude .ending strictness (List.forall₂_same.mpr fun _ _ => rfl))

/-- Evaluations agree that come to corresponding ends, where operators refuse for the same reason. -/
theorem Correspondence.Results.agree {like : Correspondence}
    (results : like.Results like.Stacks (Evaluation.operands (Scan.ofText first))
      (Evaluation.operands (Scan.ofText second)))
    (words : like.word = fun span other => like.place span other ∧ span.slice first = other.slice second)
    (ending : like.place ⟨byteSize first, 0⟩ ⟨byteSize second, 0⟩)
    (truth : ∀ value other, like.value value other → value.toBool = other.toBool)
    (refusal : ∀ applied applied', like.parts applied applied' →
      ∃ cause, applied = .error cause ∧ applied' = .error cause) (strictness : Strictness) :
    Agree like.place first second (evaluate strictness first) (evaluate strictness second) ∧
      ∃ made made', like.log made made' ∧
        (Evaluation.ofText strictness first).applications = made.reverse ∧
        (Evaluation.ofText strictness second).applications = made'.reverse := by
  unfold evaluate Evaluation.ofText
  generalize Evaluation.operands (Scan.ofText first) = left,
    Evaluation.operands (Scan.ofText second) = right at results
  cases results with
  | ok alike =>
    exact ⟨.of_conclude ending strictness (alike.values.imp truth), _, _, alike.applications, rfl, rfl⟩
  | fault alike made =>
    rw [words] at alike
    exact ⟨.failure alike, _, _, made, rfl, rfl⟩
  | parted parts place refused refused' made =>
    obtain ⟨cause, applied, applied'⟩ := refusal _ _ parts
    rw [refused cause applied, refused' cause applied']
    exact ⟨.failure (.invalidOperand place), _, _, made, rfl, rfl⟩

theorem SameTokens.scans (same : SameTokens first second) :
    (Correspondence.same (SamePlace first second) (SameWord first second)).Scans
      (Scan.ofText first) (Scan.ofText second) := by
  refine Correspondence.scans_ofText rfl rfl ?_ same.ending
  rw [same.tokens]
  exact List.forall₂_same.mpr fun token _ => .refl (fun _ => rfl) token

/-- Only the tokens count: neither how they are spaced, nor how operators are spelled, nor where
anything stands. -/
theorem evaluate_sameTokens (same : SameTokens first second) (strictness : Strictness) :
    SameResult first second (evaluate strictness first) (evaluate strictness second) ∧
      (Evaluation.ofText strictness first).applications =
        (Evaluation.ofText strictness second).applications := by
  have results := same.scans.operands
  unfold evaluate Evaluation.ofText
  generalize Evaluation.operands (Scan.ofText first) = left,
    Evaluation.operands (Scan.ofText second) = right at results
  cases results with
  | @ok operands others alike =>
    obtain rfl := Correspondence.eq_of_stacks alike
    exact ⟨.of_conclude strictness operands.values, rfl⟩
  | fault alike made => exact ⟨.failure alike, congrArg List.reverse made⟩
  | parted parts place refused refused' made =>
    obtain ⟨cause, applied, applied'⟩ := parts
    rw [refused cause applied, refused' cause applied']
    exact ⟨.failure (.invalidOperand place), congrArg List.reverse made⟩

/-- In `(1 lt 2)< 3` and in `( 1<2 )lt  3` the same operator refuses the same outcome. -/
theorem evaluate_sameTokens_alias :
    let first := "(1 lt 2)< 3".toList
    let second := "( 1<2 )lt  3".toList
    SameTokens first second ∧
      evaluate .strict first = .error ⟨first, .invalidOperand (.outcomeAsInteger true) ⟨8, 1⟩⟩ ∧
      evaluate .strict second = .error ⟨second, .invalidOperand (.outcomeAsInteger true) ⟨7, 2⟩⟩ ∧
      SameResult first second (evaluate .strict first) (evaluate .strict second) := by
  intro first second
  have same : SameTokens first second := ⟨by decide, by decide⟩
  exact ⟨same, by decide, by decide, (evaluate_sameTokens same .strict).1⟩

end Condition
