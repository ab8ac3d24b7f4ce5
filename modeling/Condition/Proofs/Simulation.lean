import Condition.Alike
import Condition.Proofs.Reachability
import Mathlib.Data.List.Forall2

/-! Two evaluations side by side. Stacks that correspond go on to do so while
tokens that correspond are read, up to an operator that does not find outcomes
on both sides. There the two evaluations part. -/

namespace Condition

/-- Operators find outcomes that correspond in operands that do, or they find what parts. -/
def Carries (value : Value → Value → Prop)
    (parts : Except OperandFault Bool → Except OperandFault Bool → Prop) : Prop :=
  ∀ operator left left' right right', value left left' → value right right' →
    (∃ outcome outcome', Operator.apply operator left right = .ok outcome ∧
      operator.apply left' right' = .ok outcome' ∧ value (.outcome outcome) (.outcome outcome')) ∨
    parts (operator.apply left right) (operator.apply left' right')

/-- What corresponds in two evaluations, and what an operator finds on both sides where they part.
Applications that correspond are added to lists of them that do. -/
structure Correspondence where
  place : Span → Span → Prop
  word : Span → Span → Prop
  value : Value → Value → Prop
  parts : Except OperandFault Bool → Except OperandFault Bool → Prop
  carries : Carries value parts
  log : List Application → List Application → Prop
  start : log [] []
  logged : ∀ {operator left left' right right' outcome outcome' applications applications'},
    value left left' → value right right' → value (.outcome outcome) (.outcome outcome') →
      log applications applications' →
        log (⟨left, operator, right, outcome⟩ :: applications)
          (⟨left', operator, right', outcome'⟩ :: applications')

theorem Machine.step_of_value {lexeme : Lexeme} (stands : lexeme.token.value? = some value)
    (machine : Machine) :
    machine.step lexeme = .ok { machine with operands := machine.operands.push value } := by
  obtain ⟨span, token⟩ := lexeme
  cases token with
  | openParen => cases stands
  | closeParen => cases stands
  | operator known => cases stands
  | boolean flag =>
    cases stands
    rfl
  | integer digits =>
    cases stands
    rfl

namespace Correspondence

variable {like : Correspondence}

/-- Tokens that are one token, or that stand for values that correspond. -/
inductive Tokens (like : Correspondence) : Token → Token → Prop where
  | same (plain : token.value? = none) : Tokens like token token
  | value (left : token.value? = some first) (right : other.value? = some second)
      (alike : like.value first second) : Tokens like token other

theorem Tokens.refl (alike : ∀ value, like.value value value) (token : Token) :
    like.Tokens token token := by
  cases stands : token.value? with
  | none => exact .same stands
  | some value => exact .value stands stands (alike value)

structure Reads (like : Correspondence) (lexeme other : Lexeme) : Prop where
  place : like.place lexeme.span other.span
  token : like.Tokens lexeme.token other.token

structure Scans (like : Correspondence) (scan other : Scan) : Prop where
  lexemes : List.Forall₂ like.Reads scan.lexemes other.lexemes
  unknown : Option.Rel like.word scan.unknown other.unknown

inductive Entries (like : Correspondence) : Waiting → Waiting → Prop where
  | group (place : like.place span other) : Entries like (.group span) (.group other)
  | operator (place : like.place span other) :
      Entries like (.operator operator span) (.operator operator other)

structure Stacks (like : Correspondence) (operands others : Operands) : Prop where
  values : List.Forall₂ like.value operands.values others.values
  applications : like.log operands.applications others.applications

structure States (like : Correspondence) (machine other : Machine) : Prop where
  waiting : List.Forall₂ like.Entries machine.waiting other.waiting
  operands : like.Stacks machine.operands other.operands

/-- What two evaluations come to. Where they part, a side fails whose operator refuses. -/
inductive Results (like : Correspondence) (state : α → β → Prop) :
    Except Halt α → Except Halt β → Prop where
  | ok (alike : state reached reached') : Results like state (.ok reached) (.ok reached')
  | fault (alike : Fault.Alike like.place like.word fault other)
      (made : like.log applications applications') :
      Results like state (.error ⟨fault, applications⟩) (.error ⟨other, applications'⟩)
  | parted (parts : like.parts applied applied') (place : like.place span other)
      (left : ∀ cause, applied = .error cause →
        result = .error ⟨.invalidOperand cause span, applications⟩)
      (right : ∀ cause, applied' = .error cause →
        result' = .error ⟨.invalidOperand cause other, applications'⟩)
      (made : like.log applications applications') : Results like state result result'

theorem Results.bind {before : α → β → Prop} {after : γ → δ → Prop}
    {first : Except Halt α} {second : Except Halt β} {following : α → Except Halt γ}
    {following' : β → Except Halt δ} (results : like.Results before first second)
    (next : ∀ reached reached', before reached reached' →
      like.Results after (following reached) (following' reached')) :
    like.Results after (first.bind following) (second.bind following') := by
  cases results with
  | ok alike => exact next _ _ alike
  | fault alike made => exact .fault alike made
  | parted parts place left right made =>
    refine .parted parts place (fun cause refused => ?_) (fun cause refused => ?_) made
    · rw [left cause refused]
      rfl
    · rw [right cause refused]
      rfl

/-- Where only a refusal on the left parts, what the left comes to has its like on the right. -/
theorem Results.ok_of_ok {state : α → β → Prop}
    (results : like.Results state (.ok reached) result')
    (refuses : ∀ applied applied', like.parts applied applied' → ∃ cause, applied = .error cause) :
    ∃ reached', result' = .ok reached' ∧ state reached reached' := by
  generalize same : Except.ok reached = result at results
  cases results with
  | ok alike =>
    cases same
    exact ⟨_, rfl, alike⟩
  | fault _ _ => cases same
  | parted parts _ left _ _ =>
    obtain ⟨cause, applied⟩ := refuses _ _ parts
    rw [left cause applied] at same
    cases same

theorem Stacks.push (stack : like.Stacks operands others) (alike : like.value first second) :
    like.Stacks (operands.push first) (others.push second) :=
  ⟨.cons alike stack.values, stack.applications⟩

theorem Stacks.apply (stack : like.Stacks operands others) (operator : Operator)
    (place : like.place span other) :
    like.Results like.Stacks (operands.apply operator span) (others.apply operator other) := by
  obtain ⟨values, applications⟩ := operands
  obtain ⟨values', applications'⟩ := others
  obtain ⟨alike, made⟩ := stack
  cases alike with
  | nil => exact .fault (.incomplete place) made
  | @cons right right' _ _ second below =>
    cases below with
    | nil => exact .fault (.incomplete place) made
    | @cons left left' rest rest' first below =>
      rcases like.carries operator left left' right right' first second with
        ⟨outcome, outcome', applied, applied', found⟩ | parts
      · simp only [Operands.apply, applied, applied']
        exact .ok ⟨.cons found below, like.logged first second found made⟩
      · refine .parted parts place (fun cause refused => ?_) (fun cause refused => ?_) made
        · simp only [Operands.apply, refused]
          rfl
        · simp only [Operands.apply, refused]
          rfl

theorem Stacks.close (entries : List.Forall₂ like.Entries waiting waiting')
    (stack : like.Stacks operands others) (place : like.place closing closing') :
    like.Results like.States (Machine.close closing waiting operands)
      (Machine.close closing' waiting' others) := by
  induction entries generalizing operands others with
  | nil => exact .fault (.incomplete place) stack.applications
  | cons entry rest ih =>
    cases entry with
    | group _ => exact .ok ⟨rest, stack⟩
    | operator opening => exact (stack.apply _ opening).bind fun _ _ next => ih next

theorem Stacks.settle (entries : List.Forall₂ like.Entries waiting waiting')
    (stack : like.Stacks operands others) :
    like.Results like.Stacks (Machine.settle waiting operands)
      (Machine.settle waiting' others) := by
  induction entries generalizing operands others with
  | nil => exact .ok stack
  | cons entry rest ih =>
    cases entry with
    | group opening => exact .fault (.incomplete opening) stack.applications
    | operator opening => exact (stack.apply _ opening).bind fun _ _ next => ih next

theorem States.step (states : like.States machine other) (reads : like.Reads lexeme lexeme') :
    like.Results like.States (machine.step lexeme) (other.step lexeme') := by
  obtain ⟨span, token⟩ := lexeme
  obtain ⟨span', token'⟩ := lexeme'
  obtain ⟨place, tokens⟩ := reads
  cases tokens with
  | value left right alike =>
    rw [Machine.step_of_value left, Machine.step_of_value right]
    exact .ok ⟨states.waiting, states.operands.push alike⟩
  | same plain =>
    cases token with
    | openParen => exact .ok ⟨.cons (.group place) states.waiting, states.operands⟩
    | closeParen => exact states.operands.close states.waiting place
    | operator known => exact .ok ⟨.cons (.operator place) states.waiting, states.operands⟩
    | boolean flag => cases plain
    | integer digits => cases plain

/-- Evaluations that go on from corresponding states come to corresponding ends. -/
theorem States.resume (states : like.States machine other)
    (reads : List.Forall₂ like.Reads unread unread')
    (unknown : Option.Rel like.word scan.unknown scan'.unknown) :
    like.Results like.Stacks (Evaluation.resume scan unread machine)
      (Evaluation.resume scan' unread' other) := by
  induction reads generalizing machine other with
  | nil =>
    generalize word : scan.unknown = left, word' : scan'.unknown = right at unknown
    cases unknown with
    | none =>
      rw [Evaluation.resume_nil word, Evaluation.resume_nil word']
      exact states.operands.settle states.waiting
    | some alike =>
      simp only [Evaluation.resume, word, word']
      exact .fault (.unknownWord alike) states.operands.applications
  | cons read _ ih =>
    rw [Evaluation.resume_cons, Evaluation.resume_cons]
    exact (states.step read).bind fun _ _ next => ih next

theorem Scans.operands (scans : like.Scans scan other) :
    like.Results like.Stacks (Evaluation.operands scan) (Evaluation.operands other) :=
  States.resume ⟨.nil, .nil, like.start⟩ scans.lexemes scans.unknown

/-- Values correspond that are the same, so operators find the same outcome or refuse alike. -/
def same (place word : Span → Span → Prop) : Correspondence where
  place := place
  word := word
  value := Eq
  parts applied other := ∃ cause, applied = .error cause ∧ other = .error cause
  carries := by
    rintro operator left _ right _ rfl rfl
    cases operator.apply left right with
    | ok outcome => exact .inl ⟨outcome, outcome, rfl, rfl, rfl⟩
    | error cause => exact .inr ⟨cause, rfl, rfl⟩
  log := Eq
  start := rfl
  logged := by
    rintro _ left _ right _ outcome _ applications _ rfl rfl outcomes rfl
    rw [Value.outcome.inj outcomes]

variable {place word : Span → Span → Prop}

theorem eq_of_stacks (stack : (same place word).Stacks operands others) : operands = others := by
  obtain ⟨values, applications⟩ := operands
  obtain ⟨values', applications'⟩ := others
  obtain ⟨alike, made⟩ := stack
  obtain rfl : values = values' := by
    rwa [show (same place word).value = Eq from rfl, List.forall₂_eq_eq_eq] at alike
  obtain rfl : applications = applications' := made
  rfl

end Correspondence

end Condition
