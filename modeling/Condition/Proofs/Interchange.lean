import Condition.Proofs.RoundTrip
import Condition.Proofs.TokenSequence

namespace Condition

/-- Values that no operator tells apart, and that look the same. -/
structure Value.Alike (value other : Value) : Prop where
  toInt : value.toInt = other.toInt
  toBool : value.toBool = other.toBool
  display : value.display = other.display

namespace Value.Alike

variable {value other : Value}

theorem refl (value : Value) : value.Alike value := ⟨rfl, rfl, rfl⟩

theorem symm (alike : value.Alike other) : other.Alike value :=
  ⟨alike.toInt.symm, alike.toBool.symm, alike.display.symm⟩

theorem literal (flag : Bool) :
    (Value.literal flag).Alike (.digits [if flag then '1' else '0']) := by
  cases flag with
  | true => exact ⟨rfl, rfl, rfl⟩
  | false => exact ⟨rfl, rfl, rfl⟩

end Value.Alike

theorem Operator.apply_congr (operator : Operator) (first : left.Alike left')
    (second : right.Alike right') : operator.apply left right = operator.apply left' right' := by
  cases operator with
  | comparison relation => simp only [apply, first.toInt, second.toInt]
  | connective junction => simp only [apply, first.toBool, second.toBool]

theorem Application.fields_congr {left left' right right' : Value} (operator : Operator)
    (outcome : Bool) (first : left.Alike left') (second : right.Alike right') :
    fields ⟨left, operator, right, outcome⟩ = fields ⟨left', operator, right', outcome⟩ := by
  simp only [fields, first.display, second.display]

/-- Values correspond that are alike, so operators find the same outcome or refuse alike, and
applications look the same. -/
def Correspondence.alike (place word : Span → Span → Prop) : Correspondence where
  place := place
  word := word
  value := Value.Alike
  parts applied other := ∃ cause, applied = .error cause ∧ other = .error cause
  carries := by
    intro operator left left' right right' first second
    rw [operator.apply_congr first second]
    cases operator.apply left' right' with
    | ok outcome => exact .inl ⟨outcome, outcome, rfl, rfl, .refl _⟩
    | error cause => exact .inr ⟨cause, rfl, rfl⟩
  log made other := made.map Application.fields = other.map Application.fields
  start := rfl
  logged := by
    intro operator left left' right right' outcome outcome' made made' first second found same
    obtain rfl : outcome = outcome' := Except.ok.inj found.toBool
    rw [List.map_cons, List.map_cons, same, Application.fields_congr operator outcome first second]

variable {token other : Token} {place word : Span → Span → Prop}

theorem Correspondence.tokens_of_interchangeable (alike : token.Interchangeable other) :
    (Correspondence.alike place word).Tokens token other := by
  cases alike with
  | same => exact .refl Value.Alike.refl token
  | digit flag => exact .value rfl rfl (Value.Alike.literal flag)
  | word flag => exact .value rfl rfl (Value.Alike.literal flag).symm

theorem Token.Interchangeable.printable (alike : token.Interchangeable other)
    (printable : token.Printable) : other.Printable := by
  cases alike with
  | same => exact printable
  | word => trivial
  | digit flag =>
    refine ⟨List.cons_ne_nil _ _, fun char member => ?_⟩
    rw [List.mem_singleton.mp member]
    cases flag <;> rfl

variable {tokens others : List Token} {first second : List Char}

theorem Token.printable_of_interchangeable
    (alike : List.Forall₂ Token.Interchangeable tokens others)
    (printable : ∀ token ∈ tokens, token.Printable) : ∀ other ∈ others, other.Printable := by
  induction alike with
  | nil => exact printable
  | cons own _ ih =>
    obtain ⟨first, later⟩ := List.forall_mem_cons.mp printable
    exact List.forall_mem_cons.mpr ⟨own.printable first, ih later⟩

/-- Texts whose tokens are interchangeable evaluate alike, and their applications look the same. -/
theorem Scan.Spells.agree (alike : List.Forall₂ Token.Interchangeable tokens others)
    (left : (Scan.ofText first).Spells tokens) (right : (Scan.ofText second).Spells others)
    (strictness : Strictness) :
    SameResult first second (evaluate strictness first) (evaluate strictness second) ∧
      (Evaluation.ofText strictness first).applications.map Application.fields =
        (Evaluation.ofText strictness second).applications.map Application.fields := by
  let like := Correspondence.alike (SamePlace first second) (SameWord first second)
  have scans : like.Scans (Scan.ofText first) (Scan.ofText second) := by
    refine Correspondence.scans_ofText rfl rfl ?_ ?_
    · rw [left.tokens, right.tokens]
      exact alike.imp fun _ _ => Correspondence.tokens_of_interchangeable
    · rw [EndAlike, left.complete, right.complete]
      rfl
  obtain ⟨agree, made, made', same, applied, applied'⟩ := scans.operands.agree rfl .ending
    (fun _ _ => Value.Alike.toBool) (fun _ _ => id) strictness
  refine ⟨sameResult_iff.mpr agree, ?_⟩
  rw [applied, applied', List.map_reverse, List.map_reverse]
  exact congrArg List.reverse same

/-- Any truth values in a text can be written as digits, and such digits as truth values. No result
tells the texts apart, and no record of an evaluation. -/
theorem evaluate_interchangeable (printable : ∀ token ∈ tokens, token.Printable)
    (alike : List.Forall₂ Token.Interchangeable tokens others) :
    (Scan.ofText (Token.join tokens)).Spells tokens ∧
      (Scan.ofText (Token.join others)).Spells others ∧
      ∀ first second, (Scan.ofText first).Spells tokens → (Scan.ofText second).Spells others →
        ∀ strictness,
          SameResult first second (evaluate strictness first) (evaluate strictness second) ∧
            (Evaluation.ofText strictness first).applications.map Application.fields =
              (Evaluation.ofText strictness second).applications.map Application.fields := by
  have printable' := Token.printable_of_interchangeable alike printable
  exact ⟨Scan.spells_join printable, Scan.spells_join printable',
    fun first second left right strictness => Scan.Spells.agree alike left right strictness⟩

/-- In `( true lt 2 ) = 0` and in `(1 <2) = false` the same operator refuses the same outcome, once
`1` is found to be less than `2` in both. -/
theorem evaluate_interchangeable_outcome :
    let behind (flag : Token) : List Token :=
      [.operator (.comparison .lt), .integer ['2'], .closeParen, .operator (.comparison .eq), flag]
    let tokens : List Token := .openParen :: .boolean true :: behind (.digit false)
    let others : List Token := .openParen :: .digit true :: behind (.boolean false)
    let first := "( true lt 2 ) = 0".toList
    let second := "(1 <2) = false".toList
    (∀ token ∈ tokens, token.Printable) ∧ List.Forall₂ Token.Interchangeable tokens others ∧
      first = Token.join tokens ∧ (Scan.ofText second).Spells others ∧
      evaluate .strict first = .error ⟨first, .invalidOperand (.outcomeAsInteger true) ⟨14, 1⟩⟩ ∧
      (Evaluation.ofText .strict second).applications.map Application.fields =
        [[("left", "1"), ("op", "lt"), ("right", "2"), ("outcome", "true")]] ∧
      SameResult first second (evaluate .strict first) (evaluate .strict second) ∧
      (Evaluation.ofText .strict first).applications.map Application.fields =
        (Evaluation.ofText .strict second).applications.map Application.fields := by
  intro behind tokens others first second
  have printable : ∀ token ∈ tokens, token.Printable := by decide
  have alike : List.Forall₂ Token.Interchangeable tokens others :=
    .cons (.same _) (.cons (.digit true) (.cons (.same _) (.cons (.same _) (.cons (.same _)
      (.cons (.same _) (.cons (.word false) .nil))))))
  have joined : first = Token.join tokens := by decide
  have spelled : (Scan.ofText second).Spells others := ⟨by decide, by decide⟩
  obtain ⟨own, -, agree⟩ := evaluate_interchangeable printable alike
  rw [← joined] at own
  exact ⟨printable, alike, joined, spelled, by decide, by decide,
    agree first second own spelled .strict⟩

end Condition
