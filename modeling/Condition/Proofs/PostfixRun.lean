import Condition.Postfix
import Condition.Proofs.Matching
import Condition.Proofs.Reachability

/-! Reading with two stacks does the same as running the postfix order on one.
The stack of what waits holds the items that the order keeps back, group by group. -/

namespace Condition

namespace Postfix

/-- A stack of what waits, and the items that the order keeps back for each open group. -/
inductive Stacked : List Waiting → List Item → List (List Item) → Prop where
  | bottom : Stacked [] [] []
  | operator (below : Stacked stack waiting around) :
      Stacked (.operator operator span :: stack) (.operator operator span :: waiting) around
  | group (below : Stacked stack waiting around) :
      Stacked (.group span :: stack) [] (waiting :: around)

/-- How a reading ends behind the items that it runs. Where groups are left open, the items kept
back around the innermost of them are not run. -/
inductive Ending : Nat → List Item → (Operands → Except Halt Operands) → Prop where
  | done : Ending 0 [] .ok
  | unclosed (span : Span) (others : Nat) (kept : List Item) :
      Ending (others + 1) kept fun operands => operands.halt (.incomplete .unclosedGroup span)

/-- A reading that runs some items in order, as far as groups are closed. -/
def Runs (unclosed : Nat) (items : List Item) (reading : Operands → Except Halt Operands) : Prop :=
  ∃ front back ending, items = front ++ back ∧ Ending unclosed back ending ∧
    ∀ operands, reading operands = (run operands front).bind ending

theorem Runs.append (runs : Runs unclosed items reading) (early : List Item) :
    Runs unclosed (early ++ items) fun operands => (run operands early).bind reading := by
  obtain ⟨front, back, ending, rfl, ends, same⟩ := runs
  refine ⟨early ++ front, back, ending, by rw [List.append_assoc], ends, fun operands => ?_⟩
  simp only [run_append]
  cases run operands early with
  | error halt => rfl
  | ok applied => exact same applied

theorem run_cons (operands : Operands) (item : Item) (items : List Item) :
    run operands (item :: items) = (step operands item).bind fun next => run next items := by
  simp only [run, List.foldlM_cons]
  rfl

/-- Applying what waits runs the items that are kept back for the innermost open group. -/
theorem Stacked.reduce (stacked : Stacked stack waiting around) :
    ∃ below, Stacked below [] around ∧ ∀ operands,
      Machine.reduce stack operands =
        (run operands waiting).bind fun applied => .ok ⟨below, applied⟩ := by
  induction stacked with
  | bottom => exact ⟨_, .bottom, fun operands => rfl⟩
  | operator below ih =>
    obtain ⟨rest, kept, reduced⟩ := ih
    refine ⟨rest, kept, fun operands => ?_⟩
    simp only [Machine.reduce, run_cons, step]
    cases operands.apply _ _ with
    | error halt => rfl
    | ok applied => exact reduced applied
  | group below _ => exact ⟨_, .group below, fun operands => rfl⟩

theorem Stacked.close (stacked : Stacked stack waiting (outer :: others)) (closing : Span) :
    ∃ below, Stacked below outer others ∧ ∀ operands,
      Machine.close closing stack operands =
        (run operands waiting).bind fun applied => .ok ⟨below, applied⟩ := by
  obtain ⟨left, kept, reduced⟩ := stacked.reduce
  cases kept with
  | group below =>
    refine ⟨_, below, fun operands => ?_⟩
    rw [← Machine.reduce_bind_close, reduced]
    cases run operands waiting <;> rfl

/-- At the end of the text no group is left open, or the innermost one is a fault. -/
theorem Stacked.settle (stacked : Stacked stack waiting around) :
    Runs around.length (waiting ++ around.flatten) (Machine.settle stack) := by
  obtain ⟨left, kept, reduced⟩ := stacked.reduce
  cases kept with
  | bottom =>
    refine ⟨waiting, [], _, rfl, .done, fun operands => ?_⟩
    rw [← Machine.reduce_bind_settle, reduced]
    cases run operands waiting <;> rfl
  | @group _ outer others span below =>
    refine ⟨waiting, (outer :: others).flatten, _, rfl, .unclosed span others.length _,
      fun operands => ?_⟩
    rw [← Machine.reduce_bind_settle, reduced]
    cases run operands waiting <;> rfl

/-- From every state, what is still to be read runs its postfix order. -/
theorem resume_runs (complete : scan.unknown = none) (lexemes : List Lexeme)
    (stacked : Stacked stack waiting around)
    (nested : Bracket.Nested around.length (lexemes.map Lexeme.token) unclosed) :
    Runs unclosed (order waiting around lexemes) fun operands =>
      Evaluation.resume scan lexemes ⟨stack, operands⟩ := by
  induction lexemes generalizing stack waiting around with
  | nil =>
    simp only [Evaluation.resume_nil complete, nested.unclosed_eq]
    exact stacked.settle
  | cons lexeme rest ih =>
    obtain ⟨span, token⟩ := lexeme
    simp only [Evaluation.resume_cons]
    cases token with
    | openParen => exact ih (.group stacked) (Bracket.Nested.open_iff.mp nested)
    | closeParen =>
      obtain ⟨depth, deeper, nested⟩ := nested.of_close
      cases around with
      | nil => cases deeper
      | cons outer others =>
        obtain ⟨below, kept, closed⟩ := stacked.close span
        obtain rfl : others.length = depth := Nat.succ.inj deeper
        -- The values that the rest is read with depend on the group, but not what is read.
        have closes (operands : Operands) :
            (Machine.step ⟨stack, operands⟩ ⟨span, .closeParen⟩).bind
                (Evaluation.resume scan rest) =
              (run operands waiting).bind fun applied =>
                Evaluation.resume scan rest ⟨below, applied⟩ := by
          simp only [Machine.step, closed]
          cases run operands waiting <;> rfl
        simp only [closes]
        exact (ih kept nested).append waiting
    | operator known => exact ih (.operator stacked) ((Bracket.Nested.inner_iff rfl).mp nested)
    | boolean flag =>
      have inner := (Bracket.Nested.inner_iff rfl).mp nested
      exact (ih stacked inner).append [.value (.literal flag)]
    | integer digits =>
      have inner := (Bracket.Nested.inner_iff rfl).mp nested
      exact (ih stacked inner).append [.value (.digits digits)]

/-- The applications before an end, be it a halt or not. -/
def made : Except Halt Operands → List Application
  | .ok operands => operands.applications
  | .error halt => halt.applications

theorem applications_suffix_run (operands : Operands) (items : List Item) :
    operands.applications <:+ made (run operands items) := by
  induction items generalizing operands with
  | nil => exact List.suffix_refl _
  | cons item rest ih =>
    rw [run_cons]
    cases stepped : step operands item with
    | error halt =>
      cases item with
      | value value => cases stepped
      | operator operator span =>
        have same := Operands.applications_of_apply_error stepped
        simp only [Except.bind, made, same, List.suffix_refl]
    | ok next =>
      refine List.IsSuffix.trans ?_ (ih next)
      cases item with
      | value value =>
        cases stepped
        exact List.suffix_refl _
      | operator operator span =>
        obtain ⟨_, _, _, _, _, _, rfl⟩ := Operands.apply_eq_ok_iff.mp stepped
        exact List.suffix_cons _ _

theorem operands_runs (complete : scan.unknown = none) (opened : Bracket.Opened scan.tokens) :
    ∃ front back ending, ofLexemes scan.lexemes = front ++ back ∧
      Ending (scan.tokens.count .openParen - scan.tokens.count .closeParen) back ending ∧
      Evaluation.operands scan = (run {} front).bind ending := by
  obtain ⟨front, back, ending, split, ends, same⟩ :=
    resume_runs complete scan.lexemes .bottom opened.nested
  rw [Evaluation.operands_eq_resume]
  exact ⟨front, back, ending, split, ends, same {}⟩

theorem operands_of_balanced (complete : scan.unknown = none)
    (balanced : Bracket.Balanced scan.tokens) :
    Evaluation.operands scan = run {} (ofLexemes scan.lexemes) := by
  obtain ⟨front, back, ending, split, ends, same⟩ := operands_runs complete balanced.1
  have closed : scan.tokens.count .openParen - scan.tokens.count .closeParen = 0 := by
    rw [balanced.2, Nat.sub_self]
  rw [closed] at ends
  cases ends with
  | done =>
    rw [same, split, List.append_nil]
    cases run {} front <;> rfl

/-- Where a group is left open, the reading stops at it or fails with its postfix order. -/
theorem operands_of_unclosed (complete : scan.unknown = none) (opened : Bracket.Opened scan.tokens)
    (unclosed : ¬ Bracket.Balanced scan.tokens) :
    ∃ halt, Evaluation.operands scan = .error halt ∧
      (run {} (ofLexemes scan.lexemes) = .error halt ∨
        ∃ span, halt.fault = .incomplete .unclosedGroup span ∧
          halt.applications <:+ made (run {} (ofLexemes scan.lexemes))) := by
  obtain ⟨front, back, ending, split, ends, same⟩ := operands_runs complete opened
  rw [same, split, run_append]
  generalize left : scan.tokens.count .openParen - scan.tokens.count .closeParen = count at ends
  cases ends with
  | done =>
    have bound := opened scan.tokens (List.prefix_refl _)
    exact absurd ⟨opened, by omega⟩ unclosed
  | unclosed span others kept =>
    cases run {} front with
    | error halt => exact ⟨halt, rfl, .inl rfl⟩
    | ok operands =>
      exact ⟨_, rfl, .inr ⟨span, rfl, applications_suffix_run operands back⟩⟩

section

variable (strictness : Strictness) (text : List Char)

theorem applications_ofText : (Evaluation.ofText strictness text).applications =
    (made (Evaluation.operands (Scan.ofText text))).reverse := by
  unfold Evaluation.ofText
  cases Evaluation.operands (Scan.ofText text) <;> rfl

theorem applications_evaluation : (evaluation strictness text).applications =
    (made (run {} (ofLexemes (Scan.ofText text).lexemes))).reverse := by
  unfold evaluation
  cases run {} (ofLexemes (Scan.ofText text).lexemes) <;> rfl

variable {text}

theorem ofText_eq_evaluation (same : Evaluation.operands (Scan.ofText text) =
      run {} (ofLexemes (Scan.ofText text).lexemes)) :
    Evaluation.ofText strictness text = evaluation strictness text := by
  unfold Evaluation.ofText evaluation
  generalize Evaluation.operands (Scan.ofText text) = operands at same
  subst same
  cases run {} (ofLexemes (Scan.ofText text).lexemes) <;> rfl

end

/-- Where no group is closed before it is opened, reading and applying in one pass does what the
postfix order does: the same applications, and the same result or the same fault. Only if groups
are left open may it stop earlier, at such a group. -/
theorem ofText_runs_order (read : (Scan.ofText text).unknown = none)
    (opened : Bracket.Opened (Scan.ofText text).tokens) (strictness : Strictness) :
    (Bracket.Balanced (Scan.ofText text).tokens →
      Evaluation.ofText strictness text = evaluation strictness text ∧
        evaluate strictness text =
          (evaluation strictness text).result.mapError (Failure.mk text)) ∧
    (¬ Bracket.Balanced (Scan.ofText text).tokens →
      ∃ fault, (Evaluation.ofText strictness text).result = .error fault ∧
        (Evaluation.ofText strictness text = evaluation strictness text ∨
          ∃ span, fault = .incomplete .unclosedGroup span ∧
            (Evaluation.ofText strictness text).applications <+:
              (evaluation strictness text).applications)) := by
  constructor
  · intro balanced
    have same := ofText_eq_evaluation strictness (operands_of_balanced read balanced)
    exact ⟨same, by rw [evaluate, same]⟩
  · intro unclosed
    obtain ⟨halt, stopped, cases⟩ := operands_of_unclosed read opened unclosed
    refine ⟨halt.fault, by simp only [Evaluation.ofText, stopped], ?_⟩
    rcases cases with failed | ⟨span, fault, applications⟩
    · exact .inl (ofText_eq_evaluation strictness (stopped.trans failed.symm))
    · refine .inr ⟨span, fault, ?_⟩
      rw [applications_ofText, applications_evaluation, List.reverse_prefix, stopped]
      exact applications

/-- In `1 (lt 2)` a group applies its operator to a value from outside. -/
theorem ofText_runs_order_group :
    Bracket.Balanced (Scan.ofText "1 (lt 2)".toList).tokens ∧
      Evaluation.ofText .strict "1 (lt 2)".toList = evaluation .strict "1 (lt 2)".toList ∧
      evaluate .strict "1 (lt 2)".toList = .ok true := by
  have balanced : Bracket.Balanced (Scan.ofText "1 (lt 2)".toList).tokens := by decide
  have same := (ofText_runs_order (by decide) balanced.1 .strict).1 balanced
  refine ⟨balanced, same.1, ?_⟩
  rw [same.2]
  decide

/-- A group that is left open makes a difference, though no group is closed before it is opened. -/
theorem ofText_stops_unclosed :
    (Scan.ofText "(true".toList).unknown = none ∧
      Bracket.Opened (Scan.ofText "(true".toList).tokens ∧
      (Evaluation.ofText .strict "(true".toList).result =
        .error (.incomplete .unclosedGroup ⟨0, 1⟩) ∧
      (evaluation .strict "(true".toList).result = .ok true := by
  decide

end Postfix

end Condition
