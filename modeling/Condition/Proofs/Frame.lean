import Condition.Counting
import Condition.Except
import Condition.Proofs.Reachability

/-! What lies below on the stacks is not touched by a machine that gets along with
what is on top. So a group leaves what its inside leaves when it is evaluated alone. -/

namespace Condition

/-- Values on top of others, and applications made after others. -/
def Operands.above (base operands : Operands) : Operands :=
  ⟨operands.values ++ base.values, operands.applications ++ base.applications⟩

def Machine.above (base machine : Machine) : Machine :=
  ⟨machine.waiting ++ base.waiting, base.operands.above machine.operands⟩

theorem Operands.apply_above (base : Operands) {operands next : Operands}
    (applied : operands.apply operator span = .ok next) :
    (base.above operands).apply operator span = .ok (base.above next) := by
  obtain ⟨right, left, rest, outcome, values, result, rfl⟩ := apply_eq_ok_iff.mp applied
  refine apply_eq_ok_iff.mpr ⟨right, left, rest ++ base.values, outcome, ?_, result, rfl⟩
  rw [above, values]
  rfl

namespace Machine

theorem close_above (base : Machine) {waiting : List Waiting} {operands : Operands} {next : Machine}
    (closed : close closing waiting operands = .ok next) :
    close closing (waiting ++ base.waiting) (base.operands.above operands) =
      .ok (base.above next) := by
  induction waiting generalizing operands with
  | nil => cases closed
  | cons latest rest ih =>
    cases latest with
    | group span =>
      cases closed
      rfl
    | operator operator span =>
      obtain ⟨applied, ran, later⟩ := ok_of_bind closed
      rw [List.cons_append, close, Operands.apply_above base.operands ran]
      exact ih later

theorem step_above (base : Machine) {machine next : Machine}
    (stepped : machine.step lexeme = .ok next) :
    (base.above machine).step lexeme = .ok (base.above next) := by
  by_cases closing : lexeme.token = .closeParen
  · simp only [step, closing] at stepped ⊢
    exact close_above base stepped
  · rw [step_of_inner closing] at stepped ⊢
    cases stepped
    simp only [above, Operands.above, List.append_assoc]

theorem feed_above (base : Machine) {machine last : Machine} (fed : machine.feed lexemes = .ok last) :
    (base.above machine).feed lexemes = .ok (base.above last) := by
  induction lexemes generalizing machine with
  | nil =>
    cases fed
    rfl
  | cons lexeme rest ih =>
    obtain ⟨next, stepped, later⟩ := ok_of_bind fed
    rw [feed_cons, step_above base stepped]
    exact ih later

theorem settle_above (base : Operands) {waiting : List Waiting} {operands next : Operands}
    (settled : settle waiting operands = .ok next) :
    settle waiting (base.above operands) = .ok (base.above next) := by
  induction waiting generalizing operands with
  | nil =>
    cases settled
    rfl
  | cons latest rest ih =>
    cases latest with
    | group span => cases settled
    | operator operator span =>
      obtain ⟨applied, ran, later⟩ := ok_of_bind settled
      rw [settle, Operands.apply_above base ran]
      exact ih later

/-- A closing parenthesis applies what waits in its group, as the end of a text does. -/
theorem close_group (base : Machine) {waiting : List Waiting} {operands next : Operands}
    (settled : settle waiting operands = .ok next) :
    close closing (waiting ++ .group opening :: base.waiting) (base.operands.above operands) =
      .ok ⟨base.waiting, base.operands.above next⟩ := by
  induction waiting generalizing operands with
  | nil =>
    cases settled
    rfl
  | cons latest rest ih =>
    cases latest with
    | group span => cases settled
    | operator operator span =>
      obtain ⟨applied, ran, later⟩ := ok_of_bind settled
      rw [List.cons_append, close, Operands.apply_above base.operands ran]
      exact ih later

/-- A group leaves what its inside leaves alone, on top of what was there before. -/
theorem feed_group (machine : Machine) {inside : List Lexeme} {next : Operands}
    (alone : Evaluation.operands ⟨inside, none⟩ = .ok next) (opens : opening.token = .openParen)
    (closes : closing.token = .closeParen) :
    machine.feed (opening :: (inside ++ [closing])) =
      .ok ⟨machine.waiting, machine.operands.above next⟩ := by
  obtain ⟨last, fed, settled⟩ := ok_of_bind alone
  let opened : Machine := ⟨.group opening.span :: machine.waiting, machine.operands⟩
  have first : machine.step opening = .ok opened := by
    simp only [step, opens, opened]
  have framed : opened.feed inside = .ok (opened.above last) := feed_above opened fed
  have final : (opened.above last).step closing = .ok ⟨machine.waiting, machine.operands.above next⟩ := by
    simp only [step, closes]
    exact close_group machine settled
  calc machine.feed (opening :: (inside ++ [closing]))
      = opened.feed (inside ++ [closing]) := by
        rw [feed_cons, first]
        rfl
    _ = (opened.above last).step closing := feed_concat framed closing
    _ = .ok ⟨machine.waiting, machine.operands.above next⟩ := final

end Machine

end Condition
