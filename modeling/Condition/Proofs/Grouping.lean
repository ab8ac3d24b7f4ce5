import Condition.Formula
import Condition.Proofs.Frame
import Condition.Proofs.InfixText
import Condition.Proofs.ScanJoin
import Condition.Proofs.Strictness

namespace Condition

namespace Operator

theorem isComparison_eq_false {operator : Operator}
    (applied : operator.apply left (.outcome flag) = .ok outcome) :
    operator.isComparison = false := by
  cases operator with
  | connective junction => rfl
  | comparison relation =>
    obtain ⟨_, -, later⟩ := ok_of_bind applied
    cases later

theorem bind_eq_some_iff {operator : Operator} {left? right? : Option Value} {found : Value} :
    (do
      let first ← left?
      let second ← right?
      let outcome ← (operator.apply first second).toOption
      return Value.outcome outcome) = some found ↔
    ∃ first second outcome, left? = some first ∧ right? = some second ∧
      operator.apply first second = .ok outcome ∧ found = .outcome outcome := by
  constructor
  · intro known
    obtain ⟨first, left, later⟩ := Option.bind_eq_some_iff.mp known
    obtain ⟨second, right, applied⟩ := Option.bind_eq_some_iff.mp later
    cases result : operator.apply first second with
    | error cause =>
      rw [result] at applied
      cases applied
    | ok outcome =>
      rw [result] at applied
      cases applied
      exact ⟨first, second, outcome, left, right, result, rfl⟩
  · rintro ⟨first, second, outcome, rfl, rfl, applied, rfl⟩
    simp only [Option.bind_eq_bind, Option.bind_some, applied]
    rfl

end Operator

namespace Chain

variable {chain : Chain} {left : Operand} {operator : Operator} {rest : Chain} {found : Value}

theorem value?_join_iff : (Chain.join left operator rest).value? = some found ↔
    ∃ first second outcome, left.value? = some first ∧ rest.value? = some second ∧
      operator.apply first second = .ok outcome ∧ found = .outcome outcome :=
  Operator.bind_eq_some_iff

/-- An operator with another one behind it in its chain has an outcome on its right. -/
theorem isComparison_eq_false_of_join
    (known : (Chain.join left operator (.join next later rest)).value? = some found) :
    operator.isComparison = false := by
  obtain ⟨_, _, _, -, right, applied, -⟩ := value?_join_iff.mp known
  obtain ⟨_, _, flag, -, -, -, rfl⟩ := value?_join_iff.mp right
  exact operator.isComparison_eq_false applied

/-- With no comparison in front of its last operator, a chain has one comparison at most. -/
theorem ComparesLast.of_dropLast
    (last : ∀ operator ∈ chain.operators.dropLast, operator.isComparison = false) :
    chain.ComparesLast := by
  refine ⟨?_, last⟩
  cases operators : chain.operators.getLast? with
  | none =>
    rw [List.getLast?_eq_none_iff.mp operators]
    exact Nat.zero_le 1
  | some final =>
    have none : chain.operators.dropLast.countP Operator.isComparison = 0 :=
      List.countP_eq_zero.mpr fun operator member => by simp [last operator member]
    rw [← List.dropLast_append_getLast? final operators, List.countP_append, none, Nat.zero_add]
    exact List.countP_le_length

theorem isComparison_eq_false_of_value? (chain : Chain) {found : Value}
    (known : chain.value? = some found) :
    ∀ operator ∈ chain.operators.dropLast, operator.isComparison = false := by
  match chain with
  | .single _ => exact fun _ member => nomatch member
  | .join _ _ (.single _) => exact fun _ member => nomatch member
  | .join left operator (.join next later rest) =>
    obtain ⟨_, _, _, -, right, -, -⟩ := value?_join_iff.mp known
    intro other member
    rcases List.mem_cons.mp member with rfl | behind
    · exact isComparison_eq_false_of_join known
    · exact isComparison_eq_false_of_value? (.join next later rest) right other behind

end Chain

mutual

theorem Operand.comparesLast_of_value? (operand : Operand) {found : Value}
    (known : operand.value? = some found) : ∀ chain ∈ operand.groups, chain.ComparesLast := by
  cases operand with
  | integer digits => exact fun _ member => nomatch member
  | boolean flag => exact fun _ member => nomatch member
  | group chain => exact chain.comparesLast_of_value? known

/-- If a chain has a value, no comparison stands in front of another operator in it or in its
groups. -/
theorem Chain.comparesLast_of_value? (chain : Chain) {found : Value}
    (known : chain.value? = some found) : ∀ level ∈ chain :: chain.groups, level.ComparesLast := by
  have own : chain.ComparesLast := .of_dropLast (chain.isComparison_eq_false_of_value? known)
  have inner : ∀ level ∈ chain.groups, level.ComparesLast := by
    cases chain with
    | single operand => exact operand.comparesLast_of_value? known
    | join left operator rest =>
      obtain ⟨_, _, _, first, second, -, -⟩ := Chain.value?_join_iff.mp known
      intro level member
      rcases List.mem_append.mp member with early | late
      · exact left.comparesLast_of_value? first level early
      · exact rest.comparesLast_of_value? second level (List.mem_cons_of_mem rest late)
  exact List.forall_mem_cons.mpr ⟨own, inner⟩

end

mutual

theorem Operand.conventional_of_value? (operand : Operand) {found : Value}
    (known : operand.value? = some found) : operand.conventional.value? = some found := by
  cases operand with
  | integer digits => exact known
  | boolean flag => exact known
  | group chain => exact chain.conventional_of_value? known

theorem Chain.conventional_of_value? (chain : Chain) {found : Value}
    (known : chain.value? = some found) : (chain.conventional none).value? = some found := by
  cases chain with
  | single operand => exact operand.conventional_of_value? known
  | join left operator rest =>
    obtain ⟨first, second, outcome, leftKnown, restKnown, applied, rfl⟩ :=
      Chain.value?_join_iff.mp known
    have leftValue := left.conventional_of_value? leftKnown
    cases operator with
    | connective junction =>
      have restValue := rest.conventional_of_value? restKnown
      exact Operator.bind_eq_some_iff.mpr
        ⟨first, second, outcome, leftValue, restValue, applied, rfl⟩
    | comparison relation =>
      -- Behind a comparison comes one operand, so it is all that the comparison takes.
      cases rest with
      | single operand =>
        have rightValue := operand.conventional_of_value? restKnown
        exact Operator.bind_eq_some_iff.mpr
          ⟨first, second, outcome, leftValue, rightValue, applied, rfl⟩
      | join next later others => cases Chain.isComparison_eq_false_of_join known

end

/-- The conventional reading of `1 < 2 and 3` compares first. Evaluation compares last. -/
example :
    let chain : Chain := .join (.integer ['1']) (.comparison .lt)
      (.join (.integer ['2']) (.connective .and) (.single (.integer ['3'])))
    chain.conventional none = .apply
      (.apply (.value (.digits ['1'])) (.comparison .lt) (.value (.digits ['2'])))
      (.connective .and) (.value (.digits ['3'])) := by decide

/-- A text of a chain evaluates to the value of the chain, or one of its operators refuses. -/
theorem Chain.evaluate_cases (chain : Chain) (spells : (Scan.ofText text).Spells chain.tokens)
    (strictness : Strictness) :
    (∃ value, chain.value? = some value ∧ evaluate strictness text = value.result text) ∨
      chain.value? = none ∧
        ∃ cause span, evaluate strictness text = .error ⟨text, .invalidOperand cause span⟩ := by
  obtain ⟨result, yields, operands⟩ := chain.yields_operands spells.complete spells.tokens
  have resolved := chain.resolved 0
  generalize known : chain.value? = value?, chain.value 0 = outcome at yields resolved
  cases resolved with
  | value free =>
    cases yields with
    | value _ _ => exact .inl ⟨_, rfl, evaluate_of_value operands⟩
  | refused first =>
    cases yields with
    | refused stands applications => exact .inr ⟨rfl, _, _, evaluate_of_halt operands⟩

/-- What the result for the text of a chain says about how operators share their operands. -/
structure Chain.Grouped (chain : Chain) (text : List Char) (result : Except Failure Bool) :
    Prop where
  /-- In front of another operator a comparison is refused its operands. -/
  refused : ∀ operator ∈ chain.operators.dropLast, operator.isComparison = true →
    ∃ cause span, result = .error ⟨text, .invalidOperand cause span⟩
  comparesLast : ∀ flag, result = .ok flag → ∀ level ∈ chain :: chain.groups, level.ComparesLast
  /-- What is found is found by the conventional reading too. -/
  conventional : ∀ flag, result = .ok flag →
    ∃ value, (chain.conventional none).value? = some value ∧ value.toBool = .ok flag

/-- Whatever operands a chain has, it is not evaluated to what its conventional reading is not. -/
theorem Chain.evaluate_grouped {chain : Chain} (spells : (Scan.ofText text).Spells chain.tokens)
    (strictness : Strictness) : chain.Grouped text (evaluate strictness text) := by
  rcases chain.evaluate_cases spells strictness with ⟨value, known, found⟩ | ⟨unknown, refused⟩
  · have compares := chain.comparesLast_of_value? known
    refine ⟨fun operator member compared => ?_, fun _ _ => compares, fun flag ended => ?_⟩
    · have first := (compares chain List.mem_cons_self).last operator member
      rw [first] at compared
      cases compared
    · rw [found, Value.result, mapError_eq_ok_iff, mapError_eq_ok_iff] at ended
      exact ⟨value, chain.conventional_of_value? known, ended⟩
  · have noTruth (flag : Bool) (ended : evaluate strictness text = .ok flag) : False := by
      obtain ⟨cause, span, refused⟩ := refused
      rw [refused] at ended
      cases ended
    exact ⟨fun _ _ _ => refused, fun flag ended => (noTruth flag ended).elim,
      fun flag ended => (noTruth flag ended).elim⟩

/-- In `1 <1 and 1` the comparison comes first, and it is left with the outcome of the connective.
In `(0 or 1<2)and 1 = 1` each comparison comes last. -/
theorem Chain.evaluate_grouped_mixed :
    let one : Operand := .integer ['1']
    let mixed : Chain := .join one (.comparison .lt) (.join one (.connective .and) (.single one))
    let inner : Chain := .join (.integer ['0']) (.connective .or)
      (.join one (.comparison .lt) (.single (.integer ['2'])))
    let sorted : Chain := .join (.group inner) (.connective .and)
      (.join one (.comparison .eq) (.single one))
    let first := "1 <1 and 1".toList
    let second := "(0 or 1<2)and 1 = 1".toList
    (Scan.ofText first).Spells mixed.tokens ∧ (Scan.ofText second).Spells sorted.tokens ∧
      evaluate .strict first = .error ⟨first, .invalidOperand (.outcomeAsInteger true) ⟨2, 1⟩⟩ ∧
      evaluate .strict second = .ok true ∧ mixed.Grouped first (evaluate .strict first) ∧
      sorted.Grouped second (evaluate .strict second) := by
  intro one mixed inner sorted first second
  have left : (Scan.ofText first).Spells mixed.tokens := ⟨by decide, by decide⟩
  have right : (Scan.ofText second).Spells sorted.tokens := ⟨by decide, by decide⟩
  exact ⟨left, right, by decide, by decide, Chain.evaluate_grouped left .strict,
    Chain.evaluate_grouped right .strict⟩

end Condition
