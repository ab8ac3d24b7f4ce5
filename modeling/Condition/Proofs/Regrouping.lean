import Condition.Proofs.Grouping

namespace Condition

def Connective.combineAll : Connective → List Bool → Bool
  | .and, flags => flags.all id
  | .or, flags => flags.any id

theorem Connective.combineAll_singleton (junction : Connective) (flag : Bool) :
    junction.combineAll [flag] = flag := by
  cases junction <;> simp [combineAll]

theorem Connective.combineAll_append (junction : Connective) (front back : List Bool) :
    junction.combineAll (front ++ back) =
      junction.combine (junction.combineAll front) (junction.combineAll back) := by
  cases junction with
  | and => exact List.all_append
  | or => exact List.any_append

/-- What an operand of a connective evaluates to. It is a truth value in one of its four
spellings, or a group around an expression that evaluates. -/
inductive Operand.Truth : Operand → Bool → Prop where
  | boolean (flag : Bool) : Truth (.boolean flag) flag
  | one : Truth (.integer ['1']) true
  | zero : Truth (.integer ['0']) false
  | group (spells : (Scan.ofText text).Spells chain.tokens)
      (evaluated : evaluate strictness text = .ok flag) : Truth (.group chain) flag

/-- A chain in which one connective joins some operands, with parentheses around any part. -/
inductive Chain.Joins (junction : Connective) : List Operand → Chain → Prop where
  | operand (operand : Operand) : Joins junction [operand] (.single operand)
  | group (inside : Joins junction operands chain) :
      Joins junction operands (.single (.group chain))
  | join (front : Joins junction first (.single left)) (back : Joins junction second rest) :
      Joins junction (first ++ second) (.join left (.connective junction) rest)

theorem Operator.apply_connective {left right : Value} (junction : Connective)
    (first : left.toBool = .ok flag) (second : right.toBool = .ok other) :
    (connective junction).apply left right = .ok (junction.combine flag other) := by
  simp only [apply, first, second]
  rfl

/-- A text of a chain evaluates as the value of the chain does, and not at all without one. -/
theorem Chain.evaluate_eq_ok_iff {chain : Chain} (spells : (Scan.ofText text).Spells chain.tokens) :
    evaluate strictness text = .ok flag ↔
      ∃ value, chain.value? = some value ∧ value.toBool = .ok flag := by
  rcases chain.evaluate_cases spells strictness with
    ⟨value, known, found⟩ | ⟨unknown, cause, span, refused⟩
  · rw [found, Value.result, mapError_eq_ok_iff, mapError_eq_ok_iff, known]
    simp only [Option.some.injEq, exists_eq_left']
  · rw [refused, unknown]
    simp only [reduceCtorEq, false_and, exists_false]

theorem Operand.Truth.value? {operand : Operand} (truth : operand.Truth flag) :
    ∃ value, operand.value? = some value ∧ value.toBool = .ok flag := by
  cases truth with
  | boolean flag => exact ⟨_, rfl, rfl⟩
  | one => exact ⟨_, rfl, rfl⟩
  | zero => exact ⟨_, rfl, rfl⟩
  | group spells evaluated => exact (Chain.evaluate_eq_ok_iff spells).mp evaluated

namespace Chain

variable {junction : Connective} {operands : List Operand} {chain : Chain} {truth : Operand → Bool}

/-- Each part of a chain has the truth value of its operands taken together. -/
theorem Joins.value? (joins : Joins junction operands chain)
    (known : ∀ operand ∈ operands, operand.Truth (truth operand)) :
    ∃ value, chain.value? = some value ∧
      value.toBool = .ok (junction.combineAll (operands.map truth)) := by
  induction joins with
  | operand operand =>
    rw [List.map_singleton, Connective.combineAll_singleton]
    exact (known operand List.mem_cons_self).value?
  | group inside ih => exact ih known
  | @join first left second rest front back ihFront ihBack =>
    obtain ⟨knownFirst, knownSecond⟩ := List.forall_mem_append.mp known
    obtain ⟨leftValue, hasLeft, leftTruth⟩ := ihFront knownFirst
    obtain ⟨restValue, hasRest, restTruth⟩ := ihBack knownSecond
    have applied := Operator.apply_connective junction leftTruth restTruth
    rw [← Connective.combineAll_append, ← List.map_append] at applied
    exact ⟨_, value?_join_iff.mpr ⟨_, _, _, hasLeft, hasRest, applied, rfl⟩, rfl⟩

/-- Operands that one connective joins evaluate to the same however they are grouped. -/
theorem evaluate_joins (joins : Joins junction operands chain)
    (known : ∀ operand ∈ operands, operand.Truth (truth operand))
    (spells : (Scan.ofText text).Spells chain.tokens) (strictness : Strictness) :
    evaluate strictness text = .ok (junction.combineAll (operands.map truth)) :=
  (evaluate_eq_ok_iff spells).mpr (joins.value? known)

/-- Parentheses around one operand, around two, around an operand that compares, and twice. -/
theorem evaluate_joins_nested :
    let compared : Chain := .join (.integer ['2']) (.comparison .lt) (.single (.integer ['3']))
    let operands : List Operand := [.integer ['0'], .group compared, .boolean false]
    let truth : Operand → Bool
      | .group _ => true
      | _ => false
    let single : Operand := .group (.single (.integer ['0']))
    let inner : Chain := .join single (.connective .or) (.single (.group compared))
    let chain : Chain :=
      .join (.group (.single (.group inner))) (.connective .or) (.single (.boolean false))
    let text := "(((0)or(2 <3))) or false".toList
    Chain.Joins .or operands chain ∧ (∀ operand ∈ operands, operand.Truth (truth operand)) ∧
      (Scan.ofText text).Spells chain.tokens ∧ evaluate .strict text = .ok true := by
  intro compared operands truth single inner chain text
  have joins : Chain.Joins .or operands chain :=
    .join (.group (.group (.join (.group (.operand _)) (.operand _)))) (.operand _)
  have less : (Scan.ofText "2 <3".toList).Spells compared.tokens := ⟨by decide, by decide⟩
  have known : ∀ operand ∈ operands, operand.Truth (truth operand) := by
    have found : evaluate .strict "2 <3".toList = .ok true := by decide
    exact List.forall_mem_cons.mpr ⟨.zero, List.forall_mem_cons.mpr
      ⟨.group less found, List.forall_mem_singleton.mpr (.boolean false)⟩⟩
  have spells : (Scan.ofText text).Spells chain.tokens := ⟨by decide, by decide⟩
  exact ⟨joins, known, spells, evaluate_joins joins known spells .strict⟩

/-- With two connectives it does matter how they are grouped. -/
example :
    evaluate .strict "true or false and false".toList = .ok true ∧
      evaluate .strict "(true or false) and false".toList = .ok false := by decide

end Chain

end Condition
