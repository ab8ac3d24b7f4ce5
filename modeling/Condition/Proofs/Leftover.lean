import Condition.Proofs.Replacement

namespace Condition

/-- How many values strict evaluation finds besides the result. -/
def unconsumed (text : List Char) : Nat :=
  match evaluate .strict text with
  | .error ⟨_, .trailingValues remaining⟩ => remaining
  | _ => 0

variable {text : List Char} {value : Value} {rest : List Value} {made : List Application}

theorem exists_left_of_valued (found : Valued text (evaluate .lenient text)) :
    ∃ value rest made, Evaluation.operands (Scan.ofText text) = .ok ⟨value :: rest, made⟩ := by
  obtain ⟨⟨values, made⟩, settled⟩ := exists_of_valued (.inl found)
  cases values with
  | cons value rest => exact ⟨value, rest, made, settled⟩
  | nil =>
    rw [evaluate_of_operands settled] at found
    rcases found with ⟨_, truth⟩ | ⟨_, untrue⟩
    · cases truth
    · cases untrue

theorem evaluate_lenient_of_left
    (left : Evaluation.operands (Scan.ofText text) = .ok ⟨value :: rest, made⟩) :
    evaluate .lenient text = value.result text := by
  rw [evaluate_of_operands left]
  rfl

theorem evaluate_strict_of_left (some : rest ≠ [])
    (left : Evaluation.operands (Scan.ofText text) = .ok ⟨value :: rest, made⟩) :
    evaluate .strict text = .error ⟨text, .trailingValues rest.length⟩ := by
  rw [evaluate_of_operands left, Evaluation.conclude, if_pos ⟨rfl, some⟩]
  rfl

theorem unconsumed_of_left
    (left : Evaluation.operands (Scan.ofText text) = .ok ⟨value :: rest, made⟩) :
    unconsumed text = rest.length := by
  by_cases alone : rest = []
  · subst alone
    rw [unconsumed, evaluate_of_value left]
    cases value.toBool <;> rfl
  · rw [unconsumed, evaluate_strict_of_left alone left]

/-- Behind a group that is evaluated alone, tokens leave what they leave alone, on top of what the
group leaves. -/
theorem Evaluation.operands_behind_group {inside back : List Lexeme} {below next : Operands}
    (first : operands ⟨inside, none⟩ = .ok below) (second : operands ⟨back, none⟩ = .ok next)
    (opens : opening.token = .openParen) (closes : closing.token = .closeParen) :
    operands ⟨opening :: (inside ++ closing :: back), none⟩ = .ok (below.above next) := by
  obtain ⟨last, fed, settled⟩ := ok_of_bind second
  let base : Machine := ⟨[], below⟩
  have grouped : Machine.feed {} (opening :: (inside ++ [closing])) = .ok base := by
    simpa [Operands.above] using Machine.feed_group {} first opens closes
  have behind : base.feed back = .ok (base.above last) := Machine.feed_above base fed
  have ends : Machine.settle (base.above last).waiting (base.above last).operands =
      .ok (below.above next) := by
    simp only [Machine.above, base, List.append_nil]
    exact Machine.settle_above below settled
  have grouping : opening :: (inside ++ closing :: back) =
      opening :: (inside ++ [closing]) ++ back := by simp
  rw [grouping, operands_append, grouped, Except.bind, resume, behind]
  exact ends

theorem Evaluation.operands_ofText_behind_group {first second : List Char} {below next : Operands}
    (inFirst : operands (Scan.ofText first) = .ok below)
    (inSecond : operands (Scan.ofText second) = .ok next) :
    operands (Scan.ofText ('(' :: (first ++ ')' :: ' ' :: second))) = .ok (below.above next) := by
  have readFirst : (Scan.ofText first).Spells (Scan.ofText first).tokens :=
    ⟨(conserved_of_ok inFirst).1, rfl⟩
  have readSecond : (Scan.ofText second).Spells (Scan.ofText second).tokens :=
    ⟨(conserved_of_ok inSecond).1, rfl⟩
  have spaced : (Scan.ofText ([] ++ ' ' :: second)).Spells ([] ++ (Scan.ofText second).tokens) :=
    Scan.spells_space_iff.mpr ⟨[], _, ⟨rfl, rfl⟩, readSecond, rfl⟩
  have spelled : (Scan.ofText ([] ++ '(' :: (first ++ ')' :: ' ' :: second))).Spells
      ([] ++ .openParen ::
        ((Scan.ofText first).tokens ++ .closeParen :: ([] ++ (Scan.ofText second).tokens))) :=
    Scan.spells_group_iff.mpr ⟨[], _, _, ⟨rfl, rfl⟩, readFirst, spaced, rfl⟩
  refine operands_of_tokens (Scan.spells_ofTokens _) spelled ?_
  have group := operands_of_tokens readFirst (Scan.spells_ofTokens _) inFirst
  have behind := operands_of_tokens readSecond (Scan.spells_ofTokens _) inSecond
  simp only [Scan.ofTokens, List.nil_append, List.map_append, List.map_cons]
  exact operands_behind_group group behind rfl rfl

/-- Values in front of a text do not count for its lenient evaluation if they stand in a group.
Strict evaluation counts them among the values that are left. -/
theorem evaluate_behind_group {first second : List Char}
    (dropped : Valued first (evaluate .lenient first))
    (kept : Valued second (evaluate .lenient second)) :
    let text := '(' :: (first ++ ')' :: ' ' :: second)
    evaluate .lenient text =
        (evaluate .lenient second).mapError (fun failure => ⟨text, failure.fault⟩) ∧
      evaluate .strict text =
        .error ⟨text, .trailingValues (unconsumed first + unconsumed second + 1)⟩ := by
  intro text
  obtain ⟨lower, below, made, inFirst⟩ := exists_left_of_valued dropped
  obtain ⟨value, rest, made', inSecond⟩ := exists_left_of_valued kept
  have left : Evaluation.operands (Scan.ofText text) =
      .ok ⟨value :: (rest ++ lower :: below), made' ++ made⟩ :=
    Evaluation.operands_ofText_behind_group inFirst inSecond
  constructor
  · rw [evaluate_lenient_of_left left, evaluate_lenient_of_left inSecond, Value.result,
      Value.result]
    cases value.toBool <;> rfl
  · have some : rest ++ lower :: below ≠ [] := List.append_ne_nil_of_right_ne_nil _ (by simp)
    have size : (rest ++ lower :: below).length = below.length + rest.length + 1 := by
      rw [List.length_append, List.length_cons]
      omega
    rw [evaluate_strict_of_left some left, unconsumed_of_left inFirst, unconsumed_of_left inSecond,
      size]

/-- The group in `(7 1 2 lt) 8 5` leaves two values below those of `8 5`. -/
theorem evaluate_behind_group_untrue :
    let first := "7 1 2 lt".toList
    let second := "8 5".toList
    let text := '(' :: (first ++ ')' :: ' ' :: second)
    Valued first (evaluate .lenient first) ∧ Valued second (evaluate .lenient second) ∧
      unconsumed first = 1 ∧ unconsumed second = 1 ∧
      evaluate .lenient text = .error ⟨text, .notBoolean (.digitsAsBoolean ['5'])⟩ ∧
      evaluate .strict text = .error ⟨text, .trailingValues 3⟩ := by
  intro first second text
  have dropped : Valued first (evaluate .lenient first) := .inl ⟨true, by decide⟩
  have untrue : evaluate .lenient second =
      .error ⟨second, .notBoolean (.digitsAsBoolean ['5'])⟩ := by decide
  have kept : Valued second (evaluate .lenient second) := .inr ⟨_, untrue⟩
  have inFirst : unconsumed first = 1 := by decide
  have inSecond : unconsumed second = 1 := by decide
  obtain ⟨lenient, strict⟩ := evaluate_behind_group dropped kept
  rw [untrue] at lenient
  rw [inFirst, inSecond] at strict
  exact ⟨dropped, kept, inFirst, inSecond, lenient, strict⟩

/-- Without the group around it, `1 2 lt` takes a value of the text behind it. -/
example :
    evaluate .lenient "1".toList = .ok true ∧ evaluate .lenient "(1 2 lt) 1".toList = .ok true ∧
      evaluate .lenient "1 2 lt 1".toList = .ok false := by decide

end Condition
