import Condition.Proofs.Frame
import Condition.Proofs.ScanJoin
import Condition.Proofs.Simulation
import Condition.Proofs.Strictness

namespace Condition

/-- A value that another one can take the place of. -/
structure Value.ReplacedBy (value other : Value) : Prop where
  toInt : ∀ number, value.toInt = .ok number → other.toInt = .ok number
  toBool : ∀ flag, value.toBool = .ok flag → other.toBool = .ok flag

namespace Value

variable {value : Value} {flag : Bool}

theorem toInt_of_toBool (truth : value.toBool = .ok flag) (found : value.toInt = .ok number) :
    number = if flag then 1 else 0 := by
  cases value with
  | literal other =>
    cases truth
    cases found
    rfl
  | outcome other => cases found
  | digits text =>
    obtain rfl := eq_of_toBool_digits truth
    cases flag with
    | true =>
      have one : toInt (.digits ['1']) = .ok 1 := rfl
      exact Except.ok.inj (found.symm.trans one)
    | false =>
      have zero : toInt (.digits ['0']) = .ok 0 := rfl
      exact Except.ok.inj (found.symm.trans zero)

theorem ReplacedBy.refl (value : Value) : value.ReplacedBy value := ⟨fun _ => id, fun _ => id⟩

/-- A literal takes the place of every value that is as true, even where a number is asked for. -/
theorem ReplacedBy.literal (truth : value.toBool = .ok flag) : value.ReplacedBy (.literal flag) where
  toInt number found := by rw [toInt_of_toBool truth found]; rfl
  toBool other found := by
    rw [truth] at found
    exact found

end Value

theorem Operator.apply_of_replacedBy (operator : Operator) (first : left.ReplacedBy left')
    (second : right.ReplacedBy right') (applied : operator.apply left right = .ok outcome) :
    operator.apply left' right' = .ok outcome := by
  cases operator with
  | comparison relation =>
    obtain ⟨number, leftInt, later⟩ := ok_of_bind applied
    obtain ⟨other, rightInt, found⟩ := ok_of_bind later
    simp only [apply, first.toInt number leftInt, second.toInt other rightInt]
    exact found
  | connective junction =>
    obtain ⟨flag, leftBool, later⟩ := ok_of_bind applied
    obtain ⟨other, rightBool, found⟩ := ok_of_bind later
    simp only [apply, first.toBool flag leftBool, second.toBool other rightBool]
    exact found

namespace Correspondence

/-- On the right stand values that can take the places of those on the left. -/
def replacement : Correspondence where
  place _ _ := True
  word _ _ := True
  value := Value.ReplacedBy
  parts applied _ := ∃ cause, applied = .error cause
  carries := by
    intro operator left left' right right' first second
    cases applied : operator.apply left right with
    | error cause => exact .inr ⟨cause, rfl⟩
    | ok outcome =>
      exact .inl ⟨outcome, outcome, rfl, operator.apply_of_replacedBy first second applied, .refl _⟩
  log _ _ := True
  start := trivial
  logged := by
    intros
    trivial

variable {like : Correspondence}

theorem reads_of_tokens {lexemes others : List Lexeme} (place : ∀ span other, like.place span other)
    (alike : ∀ value, like.value value value)
    (tokens : lexemes.map Lexeme.token = others.map Lexeme.token) :
    List.Forall₂ like.Reads lexemes others := by
  rw [← List.forall₂_eq_eq_eq, List.forall₂_map_left_iff, List.forall₂_map_right_iff] at tokens
  refine tokens.imp fun lexeme other token => ⟨place _ _, ?_⟩
  rw [token]
  exact .refl alike _

theorem entries_refl (place : ∀ span other, like.place span other) (waiting : List Waiting) :
    List.Forall₂ like.Entries waiting waiting := by
  refine List.forall₂_same.mpr fun entry _ => ?_
  cases entry with
  | group span => exact .group (place span span)
  | operator operator span => exact .operator (place span span)

end Correspondence

def Scan.ofTokens (tokens : List Token) : Scan := ⟨tokens.map (Lexeme.mk ⟨0, 0⟩), none⟩

theorem Scan.spells_ofTokens (tokens : List Token) : (ofTokens tokens).Spells tokens where
  complete := rfl
  tokens := by simp [Scan.tokens, ofTokens, Function.comp_def]

namespace Evaluation

/-- What an evaluation leaves does not depend on where tokens stand. -/
theorem operands_of_tokens {scan other : Scan} (read : scan.Spells tokens) (again : other.Spells tokens)
    (settled : operands scan = .ok last) : operands other = .ok last := by
  let like := Correspondence.same (fun _ _ => True) fun _ _ => True
  have scans : like.Scans scan other := by
    constructor
    · refine Correspondence.reads_of_tokens (fun _ _ => trivial) (fun _ => rfl) ?_
      exact read.tokens.trans again.tokens.symm
    · rw [read.complete, again.complete]
      exact .none
  have results := scans.operands
  rw [settled] at results
  have refuses : ∀ applied applied', like.parts applied applied' → ∃ cause, applied = .error cause :=
    fun _ _ ⟨cause, applied, _⟩ => ⟨cause, applied⟩
  obtain ⟨reached, found, stack⟩ := results.ok_of_ok refuses
  rw [found, Correspondence.eq_of_stacks stack]

theorem operands_append (front back : List Lexeme) (unknown : Option Span) :
    operands ⟨front ++ back, unknown⟩ =
      (Machine.feed {} front).bind (resume ⟨back, unknown⟩ back) := by
  simp only [operands, Machine.feed_append]
  cases Machine.feed {} front <;> rfl

/-- An evaluation that goes on to its end does so with another value in the place of the latest. -/
theorem resume_of_replacedBy (replaced : value.ReplacedBy other)
    (went : resume scan unread ⟨waiting, ⟨value :: values, made⟩⟩ = .ok last)
    (made' : List Application) :
    ∃ last', resume scan unread ⟨waiting, ⟨other :: values, made'⟩⟩ = .ok last' ∧
      List.Forall₂ Value.ReplacedBy last.values last'.values := by
  have states : Correspondence.replacement.States ⟨waiting, ⟨value :: values, made⟩⟩
      ⟨waiting, ⟨other :: values, made'⟩⟩ :=
    ⟨Correspondence.entries_refl (fun _ _ => trivial) waiting,
      ⟨.cons replaced (List.forall₂_same.mpr fun value _ => .refl value), trivial⟩⟩
  have unknown : Option.Rel Correspondence.replacement.word scan.unknown scan.unknown := by
    cases scan.unknown with
    | none => exact .none
    | some span => exact .some trivial
  have reads : List.Forall₂ Correspondence.replacement.Reads unread unread :=
    Correspondence.reads_of_tokens (fun _ _ => trivial) .refl rfl
  have results := states.resume reads unknown
  rw [went] at results
  obtain ⟨last', found, stack⟩ := results.ok_of_ok fun _ _ refused => refused
  exact ⟨last', found, stack.values⟩

/-- A token that stands for a value can take the place of a group. -/
theorem operands_of_group {inside front back : List Lexeme}
    (alone : operands ⟨inside, none⟩ = .ok ⟨[value], made⟩) (opens : opening.token = .openParen)
    (closes : closing.token = .closeParen) (replaced : value.ReplacedBy other)
    (stands : lexeme.token.value? = some other)
    (settled : operands ⟨front ++ opening :: (inside ++ closing :: back), none⟩ = .ok last) :
    ∃ last', operands ⟨front ++ lexeme :: back, none⟩ = .ok last' ∧
      List.Forall₂ Value.ReplacedBy last.values last'.values := by
  have grouping : front ++ opening :: (inside ++ closing :: back) =
      front ++ (opening :: (inside ++ [closing])) ++ back := by simp
  rw [grouping, operands_append, Machine.feed_append] at settled
  obtain ⟨reached, ran, behind⟩ := ok_of_bind settled
  obtain ⟨machine, fed, grouped⟩ := ok_of_bind ran
  rw [Machine.feed_group machine alone opens closes] at grouped
  cases grouped
  obtain ⟨last', found, values⟩ := resume_of_replacedBy replaced behind machine.operands.applications
  refine ⟨last', ?_, values⟩
  rw [operands_append, fed, Except.bind, resume_cons, Machine.step_of_value stands]
  exact found

theorem conclude_of_replacedBy (replaced : List.Forall₂ Value.ReplacedBy values others)
    (concluded : conclude strictness size values = .ok flag) (size' : Nat) :
    conclude strictness size' others = .ok flag := by
  cases replaced with
  | nil => cases concluded
  | @cons value other rest rest' first later =>
    have lefts : rest ≠ [] ↔ rest' ≠ [] := by
      rw [← List.length_pos_iff, ← List.length_pos_iff, later.length_eq]
    simp only [conclude, lefts] at concluded ⊢
    split at concluded
    · cases concluded
    · rename_i alone
      rw [if_neg alone]
      rw [mapError_eq_ok_iff] at concluded ⊢
      exact first.toBool flag concluded

end Evaluation

theorem Token.spelledBy_boolean (flag : Bool) :
    SpelledBy (.boolean flag) (Token.boolean flag).display.toList := by
  cases flag <;> decide

/-- A group can be replaced by the truth value that its inside evaluates to. -/
theorem evaluate_replace_group {before inner behind : List Char}
    (inside : evaluate .standard inner = .ok flag)
    (found : evaluate strictness (before ++ '(' :: (inner ++ ')' :: behind)) = .ok result) :
    evaluate strictness (before ++ ' ' :: ((Token.boolean flag).display.toList ++ ' ' :: behind)) =
      .ok result := by
  obtain ⟨value, made, alone, -, truth⟩ := exists_value_of_evaluate inside
  obtain ⟨last, settled, complete, concluded⟩ := exists_of_evaluate found
  obtain ⟨front, middle, back, first, second, third, whole⟩ :=
    Scan.spells_group_iff.mp ⟨complete, rfl⟩
  have spelled : (Scan.ofText (before ++ ' ' :: ((Token.boolean flag).display.toList ++
      ' ' :: behind))).Spells (front ++ ([.boolean flag] ++ back)) :=
    Scan.spells_space_iff.mpr ⟨_, _, first, Scan.spells_space_iff.mpr
      ⟨_, _, Scan.spells_of_spelledBy (Token.spelledBy_boolean flag), third, rfl⟩, rfl⟩
  have grouped := Evaluation.operands_of_tokens ⟨complete, whole⟩ (Scan.spells_ofTokens _) settled
  have alone := Evaluation.operands_of_tokens second (Scan.spells_ofTokens middle) alone
  have replaced : ∃ last', Evaluation.operands (.ofTokens (front ++ ([.boolean flag] ++ back))) =
      .ok last' ∧ List.Forall₂ Value.ReplacedBy last.values last'.values := by
    simp only [Scan.ofTokens, List.map_append, List.map_cons] at grouped ⊢
    exact Evaluation.operands_of_group alone rfl rfl (.literal truth) rfl grouped
  obtain ⟨last', replaced, values⟩ := replaced
  have settled' := Evaluation.operands_of_tokens (Scan.spells_ofTokens _) spelled replaced
  rw [evaluate_of_operands settled', Evaluation.conclude_of_replacedBy values concluded]
  rfl

/-- In `9 (0 or(1 2 lt)) and true` the inner group can be replaced by `true`, although nothing
takes the `9`. -/
theorem evaluate_replace_group_lenient :
    let before := "9 (0 or".toList
    let inner := "1 2 lt".toList
    let behind := ") and true".toList
    evaluate .standard inner = .ok true ∧
      evaluate .lenient (before ++ '(' :: (inner ++ ')' :: behind)) = .ok true ∧
      evaluate .lenient (before ++ ' ' :: ((Token.boolean true).display.toList ++ ' ' :: behind)) =
        .ok true := by
  intro before inner behind
  have inside : evaluate .standard inner = .ok true := by decide
  have found : evaluate .lenient (before ++ '(' :: (inner ++ ')' :: behind)) = .ok true := by decide
  exact ⟨inside, found, evaluate_replace_group inside found⟩

end Condition
