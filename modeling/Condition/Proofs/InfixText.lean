import Condition.Evaluation
import Condition.Proofs.FaultPlace
import Condition.Proofs.InfixRun
import Condition.Proofs.PrintedScan

namespace Condition

/-- What a tree says about evaluating the text of its row. -/
structure Chain.Answers (chain : Chain) (row : List Written) (text : List Char)
    (result : Except Failure Bool) : Prop where
  succeeds : (∀ site ∈ chain.sites 0, site.refusal? = none) ↔ ∃ value, chain.value? = some value
  truth : ∀ value flag, chain.value? = some value → value.toBool = .ok flag → result = .ok flag
  lone : ∀ digits, chain.lone? = some digits → digits ≠ ['1'] → digits ≠ ['0'] →
    result = .error ⟨text, .notBoolean (.digitsAsBoolean digits)⟩
  /-- The fault lies at the first operator that refuses, and has its spelling. -/
  refused : ∀ refusal, chain.refusal? = some refusal →
    ∃ site ∈ chain.sites 0, site.refusal? = some refusal ∧
      ∃ before piece after, row = before ++ piece :: after ∧ site.index = before.length ∧
        piece.token = .operator site.operator ∧
        let failure : Failure := ⟨text, .invalidOperand refusal.cause
          ⟨byteSize (Written.text before piece.gap), byteSize piece.word⟩⟩
        result = .error failure ∧ failure.culprit = piece.word
  total : (∃ value flag, chain.value? = some value ∧ value.toBool = .ok flag) ∨
    (∃ digits, chain.lone? = some digits ∧ digits ≠ ['1'] ∧ digits ≠ ['0']) ∨
      ∃ refusal, chain.refusal? = some refusal
  faults : ∀ failure, result = .error failure →
    (∃ cause, failure.fault = .notBoolean cause) ∨
      ∃ cause span, failure.fault = .invalidOperand cause span

namespace Chain.Answers

theorem of_value {chain : Chain} {value : Value} (known : chain.value? = some value)
    (free : ∀ site ∈ chain.sites 0, site.refusal? = none)
    (found : result = (value.toBool.mapError Fault.notBoolean).mapError (Failure.mk text)) :
    chain.Answers row text result where
  succeeds := ⟨fun _ => ⟨value, known⟩, fun _ => free⟩
  truth other flag same truth := by
    obtain rfl := Option.some.inj (known.symm.trans same)
    rw [found, truth]
    rfl
  lone digits alone one zero := by
    obtain rfl := Option.some.inj (known.symm.trans (Chain.lone?_eq_some_iff.mp alone))
    rw [found, Value.toBool_digits one zero]
    rfl
  refused refusal first := by
    have none : chain.refusal? = none := List.findSome?_eq_none_iff.mpr free
    rw [none] at first
    cases first
  total := by
    cases value.toBool_cases with
    | inl truth =>
      obtain ⟨flag, truth⟩ := truth
      exact .inl ⟨value, flag, known, truth⟩
    | inr digits =>
      obtain ⟨digits, rfl, one, zero⟩ := digits
      exact .inr (.inl ⟨digits, Chain.lone?_eq_some_iff.mpr known, one, zero⟩)
  faults failure failed := by
    rw [found] at failed
    cases truth : value.toBool with
    | ok flag =>
      rw [truth] at failed
      cases failed
    | error cause =>
      rw [truth] at failed
      cases failed
      exact .inl ⟨cause, rfl⟩

theorem of_refusal {chain : Chain} (unknown : chain.value? = none)
    (first : chain.refusal? = some refusal)
    (found : ∃ site ∈ chain.sites 0, site.refusal? = some refusal ∧
      ∃ before piece after, row = before ++ piece :: after ∧ site.index = before.length ∧
        piece.token = .operator site.operator ∧
        let failure : Failure := ⟨text, .invalidOperand refusal.cause
          ⟨byteSize (Written.text before piece.gap), byteSize piece.word⟩⟩
        result = .error failure ∧ failure.culprit = piece.word) :
    chain.Answers row text result where
  succeeds := by
    constructor
    · intro free
      have none : chain.refusal? = none := List.findSome?_eq_none_iff.mpr free
      rw [none] at first
      cases first
    · intro given
      obtain ⟨value, known⟩ := given
      rw [unknown] at known
      cases known
  truth value flag known := by
    rw [unknown] at known
    cases known
  lone digits alone := by
    rw [Chain.lone?_eq_some_iff, unknown] at alone
    cases alone
  refused other same := by
    obtain rfl := Option.some.inj (first.symm.trans same)
    exact found
  total := .inr (.inr ⟨refusal, first⟩)
  faults failure failed := by
    obtain ⟨_, _, _, _, _, _, _, _, _, refused, _⟩ := found
    cases refused.symm.trans failed
    exact .inr ⟨_, _, rfl⟩

end Chain.Answers

/-- A scan that holds a tree has the value of the tree, and nothing else is left. -/
theorem Chain.yields_operands {scan : Scan} (chain : Chain) (complete : scan.unknown = none)
    (tokens : scan.tokens = chain.tokens) :
    ∃ result, Yields scan.lexemes {} (chain.value 0) result ∧
      Evaluation.operands scan =
        result.bind fun machine => Machine.settle machine.waiting machine.operands := by
  obtain ⟨result, yields, same⟩ := chain.yields tokens (.whole scan.lexemes) {}
  refine ⟨result, yields, ?_⟩
  rw [← Machine.bind_eq_of_collapse
    (fun machine => Machine.reduce_bind_settle machine.waiting machine.operands) same]
  simp only [Evaluation.operands, complete]
  rfl

theorem Site.StandsIn.piece {site : Site} {row : List Written} (stands : site.StandsIn tokens 0)
    (written : row.map Written.token = tokens) :
    ∃ before piece after, row = before ++ piece :: after ∧ site.index = before.length ∧
      piece.token = .operator site.operator := by
  obtain ⟨front, back, rfl, index⟩ := stands
  obtain ⟨before, rest, rfl, frontWritten, restWritten⟩ := List.map_eq_append_iff.mp written
  obtain ⟨piece, after, rfl, token, -⟩ := List.map_eq_cons_iff.mp restWritten
  refine ⟨before, piece, after, rfl, ?_, token⟩
  rw [index, ← frontWritten, List.length_map, Nat.zero_add]

/-- Evaluating the text of a tree finds what the tree says. -/
theorem Chain.evaluate_text (chain : Chain) (row : List Written) (readable : Written.Readable row)
    (written : row.map Written.token = chain.tokens) (trailing : Nat) (strictness : Strictness) :
    chain.Answers row (Written.text row trailing)
      (evaluate strictness (Written.text row trailing)) := by
  have scan : Scan.ofText (Written.text row trailing) = ⟨Written.place 0 row, none⟩ := by
    rw [← Scan.behind_zero]
    exact readable.behind_text 0 trailing
  have tokens : Scan.tokens ⟨Written.place 0 row, none⟩ = chain.tokens :=
    (Written.place_token 0 row).trans written
  obtain ⟨result, yields, operands⟩ := chain.yields_operands rfl tokens
  rw [← scan] at operands
  have resolved := chain.resolved 0
  generalize known : chain.value? = value?, chain.value 0 = outcome at yields resolved
  cases resolved with
  | value free =>
    cases yields with
    | value value applications => exact .of_value known free (evaluate_of_value operands)
  | @refused refusal first =>
    obtain ⟨site, member, refuses⟩ := List.exists_of_findSome?_eq_some first
    obtain ⟨before, piece, after, rfl, index, token⟩ := (chain.standsIn member).piece written
    have placed := Written.getElem?_place 0 before piece after
    rw [← index, ← Site.index_of_refusal refuses, Nat.zero_add] at placed
    cases yields with
    | refused stands applications =>
      obtain rfl := Option.some.inj (stands.symm.trans placed)
      exact .of_refusal known first ⟨site, member, refuses, before, piece, after, rfl, index, token,
        evaluate_of_halt operands,
        Failure.culprit_of_occurs rfl (Written.occurs_text before piece after trailing)⟩

/-- In `(1lt2)  < 3` the second operator refuses the outcome of the first. -/
theorem Chain.evaluate_text_outcome :
    let row : List Written :=
      [⟨0, ['('], .openParen⟩, ⟨0, ['1'], .integer ['1']⟩,
        ⟨0, ['l', 't'], .operator (.comparison .lt)⟩, ⟨0, ['2'], .integer ['2']⟩,
        ⟨0, [')'], .closeParen⟩, ⟨2, ['<'], .operator (.comparison .lt)⟩,
        ⟨1, ['3'], .integer ['3']⟩]
    let inside : Chain := .join (.integer ['1']) (.comparison .lt) (.single (.integer ['2']))
    let chain : Chain := .join (.group inside) (.comparison .lt) (.single (.integer ['3']))
    Written.Readable row ∧ row.map Written.token = chain.tokens ∧
      chain.refusal? = some ⟨5, .outcomeAsInteger true⟩ ∧
      chain.Answers row (Written.text row 0) (evaluate .strict (Written.text row 0)) :=
  ⟨by decide, by decide, by decide, Chain.evaluate_text _ _ (by decide) (by decide) 0 .strict⟩

end Condition
