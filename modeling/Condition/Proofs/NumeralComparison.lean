import Condition.Evaluation
import Condition.Proofs.DecimalOrder
import Condition.Proofs.PrintedScan

/-! A comparison of two numerals is exact, or it names the first of them that is no integer.
A magnitude never shrinks when a digit follows, so a numeral is refused if and only if
the number that it denotes is out of range. -/

namespace Condition

namespace Integer

variable {digits : List Char} {limit magnitude : Nat} {beyond : IntegerFault}

theorem le_ofDigitChars (digits : List Char) (magnitude : Nat) :
    magnitude ≤ Nat.ofDigitChars 10 digits magnitude := by
  rw [Nat.ofDigitChars_eq_ofDigitChars_zero]
  have positive : 0 < 10 ^ digits.length := Nat.pow_pos (by decide)
  exact Nat.le_add_right_of_le (Nat.le_mul_of_pos_left magnitude positive)

/-- Checking after each digit amounts to checking after the last one. -/
theorem foldlM_appendDigit (valid : ∀ char ∈ digits, char.isDigit = true)
    (within : magnitude ≤ limit) :
    digits.foldlM (appendDigit limit beyond) magnitude =
      let whole := Nat.ofDigitChars 10 digits magnitude
      if whole ≤ limit then .ok whole else .error beyond := by
  induction digits generalizing magnitude with
  | nil => exact (if_pos within).symm
  | cons char rest ih =>
    obtain ⟨digit, valid⟩ := List.forall_mem_cons.mp valid
    rw [List.foldlM_cons, appendDigit, if_pos digit, Nat.ofDigitChars_cons]
    by_cases next : 10 * magnitude + (char.toNat - '0'.toNat) ≤ limit
    · simp only [if_pos next]
      exact ih valid next
    · have above := Nat.lt_of_lt_of_le (Nat.lt_of_not_le next) (le_ofDigitChars rest _)
      simp only [if_neg next, if_neg (Nat.not_le_of_lt above)]
      rfl

theorem read_of_isDigit (digit : char.isDigit = true) (rest : List Char) :
    read (char :: rest) =
      (readMagnitude maximum .aboveRange (char :: rest)).map Int.ofNat := by
  unfold read
  split <;> simp_all

theorem read_digits (printable : (Token.integer digits).Printable) :
    read digits =
      if Decimal.value digits ≤ maximum then .ok (Decimal.value digits : Int)
      else .error .aboveRange := by
  obtain ⟨some, valid⟩ := printable
  cases digits with
  | nil => exact absurd rfl some
  | cons char rest =>
    have digit := valid char List.mem_cons_self
    have zero : 0 ≤ maximum := Nat.zero_le maximum
    rw [read_of_isDigit digit, readMagnitude, if_neg (by simp), foldlM_appendDigit valid zero,
      Decimal.value]
    by_cases within : Nat.ofDigitChars 10 (char :: rest) 0 ≤ maximum
    · simp only [if_pos within]
      rfl
    · simp only [if_neg within]
      rfl

end Integer

variable {first second word : List Char} {relation : Comparison}

theorem Operator.apply_numerals (left : (Token.integer first).Printable)
    (right : (Token.integer second).Printable) :
    (Operator.comparison relation).apply (.digits first) (.digits second) =
      if Decimal.value first ≤ Integer.maximum then
        if Decimal.value second ≤ Integer.maximum then
          .ok (relation.holds (Decimal.value first) (Decimal.value second))
        else .error (.invalidInteger second .aboveRange)
      else .error (.invalidInteger first .aboveRange) := by
  simp only [Operator.apply, Value.toInt, Integer.read_digits left, Integer.read_digits right]
  by_cases firstFits : Decimal.value first ≤ Integer.maximum
  · by_cases secondFits : Decimal.value second ≤ Integer.maximum
    · simp only [if_pos firstFits, if_pos secondFits]
      rfl
    · simp only [if_pos firstFits, if_neg secondFits]
      rfl
  · simp only [if_neg firstFits]
    rfl

/-- An operator between two numerals, and how many spaces stand in front of each of the three. -/
def Written.between (first word second : List Char) (operator : Operator)
    (before left right : Nat) : List Written :=
  [⟨before, first, .integer first⟩, ⟨left, word, .operator operator⟩,
    ⟨right, second, .integer second⟩]

/-- A word needs no space in front of digits, and none behind them. -/
theorem Written.readable_between {operator : Operator}
    (leftDigits : (Token.integer first).Printable) (rightDigits : (Token.integer second).Printable)
    (spelled : (String.ofList word, operator) ∈ Operator.spellings) (before left right : Nat) :
    Readable (between first word second operator before left right) := by
  have known : Operator.ofSpelling? word = some operator :=
    Operator.ofSpelling?_eq_some_iff.mpr spelled
  refine readable_iff.mpr ⟨?_, ?_⟩
  · simp only [between, List.forall_mem_cons]
    exact ⟨⟨rfl, leftDigits⟩, known, ⟨rfl, rightDigits⟩, List.forall_mem_nil _⟩
  · exact .cons_cons nofun (.cons_cons nofun (.singleton _))

theorem evaluate_between {operator : Operator} {before left right : Nat}
    (readable : Written.Readable (Written.between first word second operator before left right))
    (behind : Nat) (strictness : Strictness) :
    let text := Written.text (Written.between first word second operator before left right) behind
    let span : Span := ⟨before + byteSize first + left, byteSize word⟩
    evaluate strictness text =
      (operator.apply (.digits first) (.digits second)).mapError
        fun cause => ⟨text, .invalidOperand cause span⟩ := by
  intro text span
  have operands : Evaluation.operands (Scan.ofText text) =
      Operands.apply ⟨[.digits second, .digits first], []⟩ operator span := by
    have settled := bind_pure (Operands.apply ⟨[.digits second, .digits first], []⟩ operator span)
    rw [readable.ofText behind, ← settled]
    simp only [Written.between, Written.place, Nat.zero_add]
    rfl
  cases applied : operator.apply (.digits first) (.digits second) with
  | ok flag =>
    simp only [Operands.apply, applied] at operands
    exact evaluate_of_value operands
  | error cause =>
    simp only [Operands.apply, applied] at operands
    exact evaluate_of_halt operands

/-- What the result of comparing two numerals says, if the operator stands at `span`. -/
structure ComparesExactly (first : List Char) (relation : Comparison) (second text : List Char)
    (span : Span) (result : Except Failure Bool) : Prop where
  found : Decimal.value first ≤ Integer.maximum → Decimal.value second ≤ Integer.maximum →
    result = .ok (relation.holds (Decimal.value first) (Decimal.value second))
  /-- The digits tell the same as the numbers. -/
  digitwise : Decimal.value first ≤ Integer.maximum → Decimal.value second ≤ Integer.maximum →
    result = .ok (relation.admits (Decimal.order first second))
  /-- It is the left numeral that is refused if both are too large. -/
  left : Integer.maximum < Decimal.value first →
    result = .error ⟨text, .invalidOperand (.invalidInteger first .aboveRange) span⟩
  right : Decimal.value first ≤ Integer.maximum → Integer.maximum < Decimal.value second →
    result = .error ⟨text, .invalidOperand (.invalidInteger second .aboveRange) span⟩

/-- Numerals of any length are compared exactly, however they are spaced. -/
theorem evaluate_comparesExactly (leftDigits : (Token.integer first).Printable)
    (rightDigits : (Token.integer second).Printable)
    (spelled : (String.ofList word, .comparison relation) ∈ Operator.spellings)
    (before left right behind : Nat) (strictness : Strictness) :
    let row := Written.between first word second (.comparison relation) before left right
    let text := Written.text row behind
    let span : Span := ⟨before + byteSize first + left, byteSize word⟩
    Occurs text span word ∧
      ComparesExactly first relation second text span (evaluate strictness text) := by
  intro row text span
  have readable := Written.readable_between leftDigits rightDigits spelled before left right
  have result := evaluate_between readable behind strictness
  rw [Operator.apply_numerals leftDigits rightDigits] at result
  have found (leftFits : Decimal.value first ≤ Integer.maximum)
      (rightFits : Decimal.value second ≤ Integer.maximum) :
      evaluate strictness text =
        .ok (relation.holds (Decimal.value first) (Decimal.value second)) := by
    rw [result, if_pos leftFits, if_pos rightFits]
    rfl
  refine ⟨?_, found, fun leftFits rightFits => ?_, fun above => ?_, fun leftFits above => ?_⟩
  · have occurs := Written.occurs_text [⟨before, first, .integer first⟩]
      ⟨left, word, .operator (.comparison relation)⟩ [⟨right, second, .integer second⟩] behind
    have spaces : byteSize (Written.text [] left) = left := byteSize_replicate_space left
    rw [Written.byteSize_text_cons, spaces] at occurs
    exact occurs
  · rw [found leftFits rightFits, Comparison.holds_natCast,
      Decimal.compare_value leftDigits.2 rightDigits.2]
  · rw [result, if_neg (Nat.not_le_of_lt above)]
    rfl
  · rw [result, if_pos leftFits, if_neg (Nat.not_le_of_lt above)]
    rfl

/-- Zeros in front do not count for the limit, and one more than the limit is refused. -/
theorem evaluate_comparesExactly_limit :
    let limit := "009223372036854775807".toList
    let above := "9223372036854775808".toList
    let inside := " 009223372036854775807>=10 ".toList
    let outside := "9223372036854775808<  9223372036854775808".toList
    (Token.integer limit).Printable ∧ (Token.integer above).Printable ∧
      Decimal.value limit = Integer.maximum ∧ Decimal.value above = Integer.maximum + 1 ∧
      ComparesExactly limit .ge ['1', '0'] inside ⟨22, 2⟩ (evaluate .strict inside) ∧
      evaluate .strict inside = .ok true ∧
      ComparesExactly above .lt above outside ⟨19, 1⟩ (evaluate .lenient outside) ∧
      evaluate .lenient outside =
        .error ⟨outside, .invalidOperand (.invalidInteger above .aboveRange) ⟨19, 1⟩⟩ := by
  intro limit above inside outside
  have limitDigits : (Token.integer limit).Printable := by decide
  have aboveDigits : (Token.integer above).Printable := by decide
  have ten : (Token.integer ['1', '0']).Printable := by decide
  have least : (String.ofList ['>', '='], .comparison .ge) ∈ Operator.spellings := by decide
  have less : (String.ofList ['<'], .comparison .lt) ∈ Operator.spellings := by decide
  have within := (evaluate_comparesExactly limitDigits ten least 1 0 0 1 .strict).2
  have beyond := (evaluate_comparesExactly aboveDigits aboveDigits less 0 0 2 0 .lenient).2
  exact ⟨limitDigits, aboveDigits, by decide, by decide, within,
    within.digitwise (by decide) (by decide), beyond, beyond.left (by decide)⟩

end Condition
