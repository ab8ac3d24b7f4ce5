import Condition.Proofs.Strictness
import Mathlib.Data.List.Perm.Subperm

namespace Condition

/-- An application that the evaluation of a scan makes after some others: its operator is due, and
its operands are the two latest values. -/
def MadeAfter (scan : Scan) (earlier : List Application) (application : Application) : Prop :=
  ∃ unread waiting span values,
    Reached scan unread ⟨.operator application.operator span :: waiting,
      ⟨application.right :: application.left :: values, earlier.reverse⟩⟩ ∧
    scan.Due unread ∧
    application.operator.apply application.left application.right = .ok application.outcome

namespace Reached

theorem madeAfter (reached : Reached scan unread machine)
    (split : machine.operands.applications = later ++ application :: earlier) :
    MadeAfter scan earlier.reverse application := by
  induction reached generalizing later with
  | start => simp at split
  | read _ inner stepped ih =>
    rw [Machine.step_of_inner inner] at stepped
    cases stepped
    exact ih split
  | close _ _ ih => exact ih split
  | @apply unread operator span waiting operands next before due applied ih =>
    obtain ⟨right, left, values, outcome, latest, result, rfl⟩ :=
      Operands.apply_eq_ok_iff.mp applied
    obtain ⟨_, applications⟩ := operands
    subst latest
    rcases List.cons_eq_append_iff.mp split with ⟨rfl, same⟩ | ⟨others, rfl, older⟩
    · cases same
      exact ⟨unread, waiting, span, values, by rwa [List.reverse_reverse], due, result⟩
    · exact ih older

/-- The outcome of the latest application is still at hand: what could take it is applied later. -/
theorem latest_mem (reached : Reached scan unread machine)
    (made : machine.operands.applications = latest :: earlier) :
    .outcome latest.outcome ∈ machine.operands.values := by
  induction reached with
  | start => cases made
  | read _ inner stepped ih =>
    rw [Machine.step_of_inner inner] at stepped
    cases stepped
    exact List.mem_append_right _ (ih made)
  | close _ _ ih => exact ih made
  | apply _ _ applied _ =>
    obtain ⟨_, _, _, outcome, _, _, rfl⟩ := Operands.apply_eq_ok_iff.mp applied
    cases made
    exact List.mem_cons_self

theorem operators_subperm (reached : Reached scan unread machine) :
    (machine.operands.applications.map Application.operator).Subperm scan.operators := by
  obtain ⟨read, split, conserved⟩ := reached.conserved
  have tokens : scan.tokens = read.map Lexeme.token ++ unread.map Lexeme.token := by
    rw [Scan.tokens, split, List.map_append]
  have among : ((read.map Lexeme.token).filterMap Token.operator?).Sublist scan.operators := by
    rw [Scan.operators, tokens, List.filterMap_append]
    exact List.sublist_append_left _ _
  have applied := (List.sublist_append_right (machine.waiting.filterMap Waiting.operator?)
    (machine.operands.applications.map Application.operator)).subperm
  exact (applied.trans conserved.operators.subperm).trans among.subperm

end Reached

theorem Evaluation.applications_of_operands {operands : Operands} (strictness : Strictness)
    (settled : Evaluation.operands (Scan.ofText text) = .ok operands) :
    (ofText strictness text).applications = operands.applications.reverse := by
  simp only [ofText, settled]

theorem Evaluation.applications_of_halt (strictness : Strictness)
    (halted : operands (Scan.ofText text) = .error halt) :
    (ofText strictness text).applications = halt.applications.reverse := by
  simp only [ofText, halted]

theorem Evaluation.exists_reached (strictness : Strictness) (text : List Char) :
    ∃ unread machine, Reached (Scan.ofText text) unread machine ∧
      (ofText strictness text).applications = machine.operands.applications.reverse := by
  have ends := operands_ends (Scan.ofText text)
  cases settled : operands (Scan.ofText text) with
  | ok operands =>
    rw [settled] at ends
    exact ⟨_, _, ends.2, applications_of_operands strictness settled⟩
  | error halt =>
    rw [settled] at ends
    obtain ⟨unread, machine, reached, -, same⟩ := ends
    exact ⟨unread, machine, reached, by rw [applications_of_halt strictness settled, same]⟩

namespace Event

def application? : Event → Option Application
  | applied application => some application
  | concluded _ _ => none

theorem filterMap_applied (applications : List Application) :
    (applications.map applied).filterMap application? = applications := by
  rw [List.filterMap_map]
  exact List.filterMap_some

variable {strictness : Strictness} {text : List Char}

theorem ofText_of_ok (found : evaluate strictness text = .ok flag) :
    ofText strictness text =
      (Evaluation.ofText strictness text).applications.map applied ++ [concluded text flag] := by
  rw [evaluate, mapError_eq_ok_iff] at found
  simp only [ofText, found]

theorem ofText_of_error {failure : Failure} (failed : evaluate strictness text = .error failure) :
    ofText strictness text = (Evaluation.ofText strictness text).applications.map applied := by
  cases result : (Evaluation.ofText strictness text).result with
  | ok flag =>
    rw [evaluate, result] at failed
    cases failed
  | error fault => simp only [ofText, result, List.append_nil]

theorem applications_ofText_events (strictness : Strictness) (text : List Char) :
    (ofText strictness text).filterMap application? =
      (Evaluation.ofText strictness text).applications := by
  cases result : evaluate strictness text with
  | ok flag =>
    rw [ofText_of_ok result, List.filterMap_append, filterMap_applied]
    exact List.append_nil _
  | error failure => rw [ofText_of_error result, filterMap_applied]

end Event

/-- How events account for the evaluation of a text. -/
structure Accounts (strictness : Strictness) (text : List Char) (events : List Event) : Prop where
  /-- Each application tells of an operator that was due, of the values that it took, and of what it
  made of them. -/
  made : ∀ earlier application later, events = earlier ++ .applied application :: later →
    MadeAfter (Scan.ofText text) (earlier.filterMap Event.application?) application
  /-- No operator is applied twice. -/
  once : ((events.filterMap Event.application?).map Application.operator).Subperm
    (Scan.ofText text).operators
  bounded : (events.filterMap Event.application?).length ≤ (Scan.ofText text).operators.length
  /-- At the end of an evaluation all operators are applied. -/
  complete : Valued text (evaluate strictness text) ∨
    (∃ remaining, evaluate strictness text = .error ⟨text, .trailingValues remaining⟩) →
      ((events.filterMap Event.application?).map Application.operator).Perm
        (Scan.ofText text).operators
  /-- The last operator finds the truth value of the text, unless values may be left over. -/
  latest : ∀ flag, strictness = .strict → evaluate strictness text = .ok flag →
    (Scan.ofText text).operators ≠ [] → ∃ application,
      (events.filterMap Event.application?).getLast? = some application ∧
        application.outcome = flag
  /-- The truth value is told at the end and nowhere else. -/
  concluded : ∀ flag, evaluate strictness text = .ok flag →
    events.getLast? = some (.concluded text flag) ∧
      events.filter (fun event => event.level = .debug) = [.concluded text flag]
  unconcluded : ∀ failure, evaluate strictness text = .error failure →
    ∀ event ∈ events, event.level = .trace

section

variable {strictness : Strictness} {text : List Char}

theorem Event.madeAfter_of_ofText
    (split : Event.ofText strictness text = earlier ++ .applied application :: later) :
    MadeAfter (Scan.ofText text) (earlier.filterMap Event.application?) application := by
  obtain ⟨unread, machine, reached, same⟩ := Evaluation.exists_reached strictness text
  have applications := Event.applications_ofText_events strictness text
  have shown : (Event.applied application).application? = some application := rfl
  rw [split, List.filterMap_append, List.filterMap_cons_some shown, same] at applications
  have latest := congrArg List.reverse applications
  rw [List.reverse_reverse, List.reverse_append, List.reverse_cons, List.append_assoc,
    List.singleton_append] at latest
  have found := reached.madeAfter latest.symm
  rwa [List.reverse_reverse] at found

theorem operators_perm_of_valued (found : Valued text (evaluate strictness text) ∨
    ∃ remaining, evaluate strictness text = .error ⟨text, .trailingValues remaining⟩) :
    ((Evaluation.ofText strictness text).applications.map Application.operator).Perm
      (Scan.ofText text).operators := by
  obtain ⟨operands, settled⟩ := exists_of_valued found
  obtain ⟨-, conserved⟩ := Evaluation.conserved_of_ok settled
  rw [Evaluation.applications_of_operands strictness settled, List.map_reverse]
  exact (List.reverse_perm _).trans conserved.operators

/-- The only value that a strict evaluation leaves is the outcome of its last application. -/
theorem exists_latest_of_strict (found : evaluate .strict text = .ok flag)
    (some : (Scan.ofText text).operators ≠ []) :
    ∃ application,
      (Evaluation.ofText .strict text).applications.getLast? = Option.some application ∧
        application.outcome = flag := by
  obtain ⟨value, made, settled, -, truth⟩ := exists_value_of_evaluate found
  have ends := Evaluation.operands_ends (Scan.ofText text)
  rw [settled] at ends
  obtain ⟨-, reached⟩ := ends
  have operators := operators_perm_of_valued (.inl (.inl ⟨flag, found⟩))
  rw [Evaluation.applications_of_operands .strict settled] at operators ⊢
  cases made with
  | nil => exact absurd operators.nil_eq.symm some
  | cons latest earlier =>
    obtain rfl : value = .outcome latest.outcome := by
      have member := reached.latest_mem rfl
      exact (List.mem_singleton.mp member).symm
    exact ⟨latest, by simp, Except.ok.inj truth⟩

end

/-- The events of an evaluation account for it. -/
theorem evaluate_accounted (strictness : Strictness) (text : List Char) :
    Accounts strictness text (Event.ofText strictness text) := by
  have applications := Event.applications_ofText_events strictness text
  have once : ((Evaluation.ofText strictness text).applications.map Application.operator).Subperm
      (Scan.ofText text).operators := by
    obtain ⟨unread, machine, reached, same⟩ := Evaluation.exists_reached strictness text
    rw [same, List.map_reverse]
    exact (List.reverse_perm _).subperm.trans reached.operators_subperm
  have told (applications : List Application) : ∀ event ∈ applications.map Event.applied,
      event.level = .trace := by
    intro event member
    obtain ⟨application, -, rfl⟩ := List.mem_map.mp member
    rfl
  constructor
  · exact fun _ _ _ => Event.madeAfter_of_ofText
  · rwa [applications]
  · rw [applications, ← List.length_map (f := Application.operator)]
    exact once.length_le
  · rw [applications]
    exact operators_perm_of_valued
  · rintro flag rfl found
    rw [applications]
    exact exists_latest_of_strict found
  · intro flag found
    rw [Event.ofText_of_ok found, List.getLast?_append_of_ne_nil _ (by simp), List.filter_append]
    refine ⟨rfl, ?_⟩
    have nothing : ((Evaluation.ofText strictness text).applications.map Event.applied).filter
        (fun event => event.level = .debug) = [] := by
      refine List.filter_eq_nil_iff.mpr fun event member => ?_
      simp [told _ event member]
    rw [nothing]
    rfl
  · intro failure failed
    rw [Event.ofText_of_error failed]
    exact told _

/-- In `true and (1 lt 2)` the last operator to be applied is the first one in the text. -/
theorem evaluate_accounted_nested :
    let text := "true and (1 lt 2)".toList
    evaluate .strict text = .ok true ∧ (Scan.ofText text).operators ≠ [] ∧ ∃ application,
      ((Event.ofText .strict text).filterMap Event.application?).getLast? = some application ∧
        application.outcome = true := by
  intro text
  have found : evaluate .strict text = .ok true := by decide
  have operators : (Scan.ofText text).operators ≠ [] := by decide
  exact ⟨found, operators, (evaluate_accounted .strict text).latest true rfl found operators⟩

end Condition
