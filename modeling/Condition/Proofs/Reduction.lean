import Condition.Machine

namespace Condition

namespace Machine

/-- Applies operators that wait, back to the latest open group. -/
def reduce : List Waiting → Operands → Except Halt Machine
  | .operator operator span :: rest, operands =>
    (operands.apply operator span).bind (reduce rest)
  | waiting, operands => .ok ⟨waiting, operands⟩

/-- What applies the operators on top anyway may as well find them applied. -/
theorem reduce_bind (after : List Waiting → Operands → Except Halt α)
    (applies : ∀ operator span rest operands,
      after (.operator operator span :: rest) operands =
        (operands.apply operator span).bind (after rest))
    (waiting : List Waiting) (operands : Operands) :
    ((reduce waiting operands).bind fun next => after next.waiting next.operands) =
      after waiting operands := by
  induction waiting generalizing operands with
  | nil => rfl
  | cons latest rest ih =>
    cases latest with
    | group span => rfl
    | operator operator span =>
      rw [reduce, applies]
      cases operands.apply operator span with
      | error halt => rfl
      | ok next => exact ih next

theorem reduce_bind_close (closing : Span) (waiting : List Waiting) (operands : Operands) :
    ((reduce waiting operands).bind fun next => close closing next.waiting next.operands) =
      close closing waiting operands :=
  reduce_bind (close closing) (fun _ _ _ _ => rfl) waiting operands

theorem reduce_bind_settle (waiting : List Waiting) (operands : Operands) :
    ((reduce waiting operands).bind fun next => settle next.waiting next.operands) =
      settle waiting operands :=
  reduce_bind settle (fun _ _ _ _ => rfl) waiting operands

theorem waiting_of_reduce {waiting : List Waiting} {operands : Operands} {next : Machine}
    (reduced : reduce waiting operands = .ok next) :
    next.waiting = [] ∨ ∃ span rest, next.waiting = .group span :: rest := by
  induction waiting generalizing operands with
  | nil =>
    cases reduced
    exact .inl rfl
  | cons latest rest ih =>
    cases latest with
    | group span =>
      cases reduced
      exact .inr ⟨span, rest, rfl⟩
    | operator operator span =>
      rw [reduce] at reduced
      cases applied : operands.apply operator span with
      | error halt =>
        rw [applied] at reduced
        cases reduced
      | ok later =>
        rw [applied] at reduced
        exact ih reduced

end Machine

end Condition
