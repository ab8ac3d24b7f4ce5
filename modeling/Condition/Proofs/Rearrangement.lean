import Condition.Arrangement
import Condition.Proofs.TokenSequence

/-! A value may stand before or behind the operators and opening parentheses next to
it. Values and what waits are kept apart, so a machine does not see the difference. -/

namespace Condition

namespace Machine

theorem step_of_waits {lexeme : Lexeme} (waits : lexeme.token.waits = true) :
    ∃ entry, ∀ machine : Machine,
      machine.step lexeme = .ok { machine with waiting := entry :: machine.waiting } := by
  obtain ⟨span, token⟩ := lexeme
  cases token with
  | openParen => exact ⟨.group span, fun _ => rfl⟩
  | operator known => exact ⟨.operator known span, fun _ => rfl⟩
  | closeParen => cases waits
  | boolean flag => cases waits
  | integer digits => cases waits

/-- A value and a neighbor that waits go on different stacks, so either may come first. -/
theorem feed_swap (machine : Machine) {left right : Lexeme}
    (stands : left.token.value?.isSome = true) (waits : right.token.waits = true)
    (rest : List Lexeme) :
    machine.feed (left :: right :: rest) = machine.feed (right :: left :: rest) := by
  obtain ⟨value, stands⟩ := Option.isSome_iff_exists.mp stands
  obtain ⟨entry, step⟩ := step_of_waits waits
  simp only [feed_cons, step_of_value stands, step, Except.bind]

end Machine

theorem Token.value?_of_waits {token : Token} (waits : token.waits = true) :
    token.value? = none := by
  cases token with
  | openParen => rfl
  | operator known => rfl
  | closeParen => cases waits
  | boolean flag => cases waits
  | integer digits => cases waits

namespace Lexeme

variable {left right : Lexeme} {row other : List Lexeme}

/-- Rows of tokens that do the same to every machine, with the same values in the same order and
the same other tokens in the same order. -/
structure SameWork (row other : List Lexeme) : Prop where
  feed : ∀ machine : Machine, machine.feed row = machine.feed other
  sort : ∀ valued, sort valued row = sort valued other

namespace SameWork

theorem refl (row : List Lexeme) : SameWork row row := ⟨fun _ => rfl, fun _ => rfl⟩

theorem symm (same : SameWork row other) : SameWork other row :=
  ⟨fun machine => (same.feed machine).symm, fun valued => (same.sort valued).symm⟩

theorem trans (first : SameWork row middle) (second : SameWork middle other) : SameWork row other :=
  ⟨fun machine => (first.feed machine).trans (second.feed machine),
    fun valued => (first.sort valued).trans (second.sort valued)⟩

theorem swap (stands : left.token.value?.isSome = true) (waits : right.token.waits = true)
    (front back : List Lexeme) :
    SameWork (front ++ left :: right :: back) (front ++ right :: left :: back) where
  feed machine := by
    rw [Machine.feed_append, Machine.feed_append]
    cases machine.feed front with
    | error halt => rfl
    | ok next => exact next.feed_swap stands waits back
  sort valued := by
    have nothing := Token.value?_of_waits waits
    simp only [Lexeme.sort, List.filter_append, List.filter_cons, stands, nothing]
    cases valued <;> rfl

end SameWork

theorem exists_row_of_moves {row : List Lexeme} (moves : Token.Moves tokens others)
    (read : row.map Lexeme.token = tokens) :
    ∃ row', row'.map Lexeme.token = others ∧ SameWork row row' := by
  cases moves with
  | later stands waits =>
    obtain ⟨front, behind, rfl, rfl, two⟩ := List.map_eq_append_iff.mp read
    obtain ⟨left, behind, rfl, rfl, one⟩ := List.map_eq_cons_iff.mp two
    obtain ⟨right, back, rfl, rfl, rfl⟩ := List.map_eq_cons_iff.mp one
    exact ⟨front ++ right :: left :: back, by simp, .swap stands waits front back⟩
  | earlier stands waits =>
    obtain ⟨front, behind, rfl, rfl, two⟩ := List.map_eq_append_iff.mp read
    obtain ⟨right, behind, rfl, rfl, one⟩ := List.map_eq_cons_iff.mp two
    obtain ⟨left, back, rfl, rfl, rfl⟩ := List.map_eq_cons_iff.mp one
    exact ⟨front ++ left :: right :: back, by simp, (SameWork.swap stands waits front back).symm⟩

theorem exists_row_of_rearranged {row : List Lexeme}
    (moves : Relation.ReflTransGen Token.Moves tokens others)
    (read : row.map Lexeme.token = tokens) :
    ∃ row', row'.map Lexeme.token = others ∧ SameWork row row' := by
  induction moves with
  | refl => exact ⟨row, read, .refl row⟩
  | tail _ move ih =>
    obtain ⟨middle, tokens, first⟩ := ih
    obtain ⟨row', tokens', second⟩ := exists_row_of_moves move tokens
    exact ⟨row', tokens', first.trans second⟩

/-- Tokens with one number in two rows of the same tokens have one number among those of their
sort. -/
theorem exists_getElem?_sort {row other : List Lexeme}
    (same : row.map Lexeme.token = other.map Lexeme.token) {number : Nat}
    (first : row[number]? = some left) (second : other[number]? = some right) (valued : Bool)
    (own : (left.token.value?.isSome == valued) = true) :
    ∃ place : Nat, (sort valued row)[place]? = some left ∧
      (sort valued other)[place]? = some right := by
  induction row generalizing other number with
  | nil => cases first
  | cons lexeme rest ih =>
    obtain ⟨lexeme', rest', rfl, token, tokens⟩ := List.map_eq_cons_iff.mp same.symm
    cases number with
    | zero =>
      cases first
      cases second
      refine ⟨0, ?_, ?_⟩
      · simp only [sort, List.filter_cons, own]
        rfl
      · simp only [sort, List.filter_cons, token, own]
        rfl
    | succ number =>
      obtain ⟨place, found, found'⟩ := ih tokens.symm first second
      simp only [sort] at found found'
      simp only [sort, List.filter_cons, token]
      split
      · exact ⟨place + 1, found, found'⟩
      · exact ⟨place, found, found'⟩

end Lexeme

theorem Evaluation.operands_congr (same : Lexeme.SameWork row other) (unknown : Option Span) :
    operands ⟨row, unknown⟩ = operands ⟨other, unknown⟩ := by
  simp only [operands, same.feed]

variable {first second : List Char}

/-- The evaluation of the first text is one of the tokens of the second text, at the places that
they have in the first. -/
theorem Rearranged.results (rearranged : Rearranged first second) :
    let like := Correspondence.same (MovedPlace first second) fun span other =>
      MovedPlace first second span other ∧ span.slice first = other.slice second
    like.Results like.Stacks (Evaluation.operands (Scan.ofText first))
      (Evaluation.operands (Scan.ofText second)) := by
  intro like
  obtain ⟨row, tokens, same⟩ := Lexeme.exists_row_of_rearranged rearranged.tokens rfl
  have scans : like.Scans ⟨row, (Scan.ofText first).unknown⟩ (Scan.ofText second) := by
    constructor
    · have length : row.length = (Scan.ofText second).lexemes.length := by
        simpa [Scan.tokens] using congrArg List.length tokens
      refine List.forall₂_iff_get.mpr ⟨length, ?_⟩
      intro number left right
      have token : row[number].token = (Scan.ofText second).lexemes[number].token := by
        simpa [Scan.tokens, left, right] using congrArg (fun tokens => tokens[number]?) tokens
      obtain ⟨place, found, found'⟩ := Lexeme.exists_getElem?_sort tokens
        (List.getElem?_eq_getElem left) (List.getElem?_eq_getElem right) _ BEq.rfl
      rw [← same.sort] at found
      refine ⟨.token _ place found found' token, ?_⟩
      simp only [List.get_eq_getElem, token]
      exact .refl (fun _ => rfl) _
    · exact rearranged.ending.rel fun _ _ left right slice => ⟨.unknownWord left right, slice⟩
  have results := scans.operands
  rwa [← Evaluation.operands_congr same] at results

/-- Wherever values stand among the tokens around them, evaluation comes to the same by the same
applications, or fails at the same token. -/
theorem evaluate_rearranged (rearranged : Rearranged first second) (strictness : Strictness) :
    Agree (MovedPlace first second) first second (evaluate strictness first)
        (evaluate strictness second) ∧
      (Evaluation.ofText strictness first).applications =
        (Evaluation.ofText strictness second).applications := by
  obtain ⟨agree, made, made', same, applied, applied'⟩ := rearranged.results.agree rfl .ending
    (fun _ _ same => congrArg Value.toBool same) (fun _ _ => id) strictness
  rw [applied, applied']
  exact ⟨agree, congrArg List.reverse same⟩

/-- In `(1 lt 2) = 1` and in `1 (lt 2) 1 =` the same operator refuses the same outcome. -/
theorem evaluate_rearranged_outcome :
    let first := "(1 lt 2) = 1".toList
    let second := "1 (lt 2) 1 =".toList
    let application : Application :=
      ⟨.digits ['1'], .comparison .lt, .digits ['2'], true⟩
    Rearranged first second ∧
      evaluate .strict first = .error ⟨first, .invalidOperand (.outcomeAsInteger true) ⟨9, 1⟩⟩ ∧
      evaluate .strict second = .error ⟨second, .invalidOperand (.outcomeAsInteger true) ⟨11, 1⟩⟩ ∧
      (Evaluation.ofText .strict second).applications = [application] ∧
      Agree (MovedPlace first second) first second (evaluate .strict first)
        (evaluate .strict second) ∧
      (Evaluation.ofText .strict first).applications =
        (Evaluation.ofText .strict second).applications := by
  intro first second application
  let one : Token := .integer ['1']
  let inside : List Token := [.operator (.comparison .lt), .integer ['2'], .closeParen]
  let equal : Token := .operator (.comparison .eq)
  have read : (Scan.ofText first).tokens = .openParen :: one :: (inside ++ [equal, one]) := by
    decide
  have read' : (Scan.ofText second).tokens = (one :: .openParen :: inside) ++ [one, equal] := by
    decide
  have rearranged : Rearranged first second := by
    refine ⟨?_, by decide⟩
    rw [read, read']
    have outside : Token.Moves ([] ++ .openParen :: one :: (inside ++ [equal, one]))
        ([] ++ one :: .openParen :: (inside ++ [equal, one])) := .earlier rfl rfl
    have last : Token.Moves ((one :: .openParen :: inside) ++ equal :: one :: [])
        ((one :: .openParen :: inside) ++ one :: equal :: []) := .earlier rfl rfl
    exact .head outside (.single last)
  exact ⟨rearranged, by decide, by decide, by decide, evaluate_rearranged rearranged .strict⟩

end Condition
