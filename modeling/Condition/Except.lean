namespace Condition

theorem mapError_eq_ok_iff {result : Except ε α} {wrap : ε → δ} :
    result.mapError wrap = .ok found ↔ result = .ok found := by
  cases result with
  | ok value => constructor <;> rintro ⟨⟩ <;> rfl
  | error cause => exact iff_of_false nofun nofun

theorem map_eq_error_iff {result : Except ε α} {made : α → β} :
    result.map made = .error cause ↔ result = .error cause := by
  cases result with
  | ok value => exact iff_of_false nofun nofun
  | error other => constructor <;> rintro ⟨⟩ <;> rfl

theorem map_eq_map_cases {left : Except ε α} {right : Except ε β} {made : α → δ} {built : β → δ}
    (same : left.map made = right.map built) :
    (∃ cause, left = .error cause ∧ right = .error cause) ∨
      ∃ found other, left = .ok found ∧ right = .ok other ∧ made found = built other := by
  cases left with
  | error cause => exact .inl ⟨cause, rfl, map_eq_error_iff.mp same.symm⟩
  | ok found =>
    cases right with
    | error cause => cases same
    | ok other => exact .inr ⟨found, other, rfl, rfl, Except.ok.inj same⟩

theorem ok_of_bind {first : Except ε α} {following : α → Except ε β}
    (found : first.bind following = .ok last) :
    ∃ reached, first = .ok reached ∧ following reached = .ok last := by
  cases first with
  | error cause => cases found
  | ok reached => exact ⟨reached, rfl, found⟩

end Condition
