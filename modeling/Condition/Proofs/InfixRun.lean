import Condition.Proofs.InfixOrder
import Condition.Proofs.Reduction

/-! Running the tokens of a tree. Those of an operand leave its value on top and
nothing else changed. Those of a chain do so once its operators are applied. -/

namespace Condition

namespace Machine

def wait (machine : Machine) (entry : Waiting) : Machine :=
  ⟨entry :: machine.waiting, machine.operands⟩

/-- The machine with one more value, which some applications have led to. -/
def gain (machine : Machine) (value : Value) (applications : List Application) : Machine :=
  ⟨machine.waiting, ⟨value :: machine.operands.values, applications⟩⟩

def collapse (machine : Machine) : Except Halt Machine :=
  reduce machine.waiting machine.operands

theorem collapse_bind_feed_close (closing : Span) (machine : Machine) :
    (machine.collapse.bind fun next => next.feed [⟨closing, .closeParen⟩]) =
      machine.feed [⟨closing, .closeParen⟩] := by
  have closes (next : Machine) :
      next.feed [⟨closing, .closeParen⟩] = close closing next.waiting next.operands := by
    simp only [feed, List.foldlM_cons, List.foldlM_nil, bind_pure, step]
  simp only [closes]
  exact reduce_bind_close closing machine.waiting machine.operands

/-- What is the same once it is collapsed is the same to all that collapses it first. -/
theorem bind_eq_of_collapse {first second : Except Halt Machine}
    (collapses : ∀ machine : Machine, machine.collapse.bind after = after machine)
    (same : first.bind collapse = second.bind collapse) : first.bind after = second.bind after := by
  have factors (result : Except Halt Machine) :
      (result.bind collapse).bind after = result.bind after := by
    cases result with
    | error halt => rfl
    | ok machine => exact collapses machine
  rw [← factors first, same, factors]

end Machine

/-- What a machine comes to by the tokens of a tree: the value of the tree on top, or a fault at
the operator that refuses its operands. -/
inductive Yields (lexemes : List Lexeme) (machine : Machine) :
    Except Refusal Value → Except Halt Machine → Prop where
  | value (value : Value) (applications : List Application) :
      Yields lexemes machine (.ok value) (.ok (machine.gain value applications))
  | refused (stands : lexemes[refusal.index]? = some lexeme) (applications : List Application) :
      Yields lexemes machine (.error refusal)
        (.error ⟨.invalidOperand refusal.cause lexeme.span, applications⟩)

/-- Tokens that stand in a list from some index on. -/
def StandsAt (lexemes : List Lexeme) (start : Nat) (own : List Lexeme) : Prop :=
  ∃ before after, lexemes = before ++ (own ++ after) ∧ start = before.length

namespace StandsAt

theorem whole (lexemes : List Lexeme) : StandsAt lexemes 0 lexemes :=
  ⟨[], [], by simp, rfl⟩

theorem left (stands : StandsAt lexemes start (front ++ back)) : StandsAt lexemes start front := by
  obtain ⟨before, after, rfl, rfl⟩ := stands
  exact ⟨before, back ++ after, by rw [List.append_assoc], rfl⟩

theorem right (stands : StandsAt lexemes start (front ++ back)) :
    StandsAt lexemes (start + front.length) back := by
  obtain ⟨before, after, rfl, rfl⟩ := stands
  exact ⟨before ++ front, after, by simp only [List.append_assoc], by rw [List.length_append]⟩

theorem tail (stands : StandsAt lexemes start (lexeme :: back)) :
    StandsAt lexemes (start + 1) back :=
  right (show StandsAt lexemes start ([lexeme] ++ back) from stands)

theorem getElem? (stands : StandsAt lexemes start (lexeme :: back)) :
    lexemes[start]? = some lexeme := by
  obtain ⟨before, after, rfl, rfl⟩ := stands
  simp

end StandsAt

/-- The tokens of a join after its operands have their values. -/
private theorem yields_apply {machine : Machine} (first second : Value) (operator : Operator)
    (earlier applications : List Application) (stands : lexemes[index]? = some ⟨span, token⟩) :
    ∃ result, Yields lexemes machine
        ((operator.apply first second).mapError (Refusal.mk index) >>= fun outcome =>
          .ok (.outcome outcome)) result ∧
      (((machine.gain first earlier).wait (.operator operator span)).gain second
        applications).collapse = result.bind Machine.collapse := by
  cases applied : operator.apply first second with
  | ok outcome =>
    refine ⟨_, .value (.outcome outcome) (⟨first, operator, second, outcome⟩ :: applications), ?_⟩
    simp only [Machine.collapse, Machine.reduce, Machine.gain, Machine.wait, Operands.apply, applied]
    rfl
  | error cause =>
    refine ⟨_, .refused stands applications, ?_⟩
    simp only [Machine.collapse, Machine.reduce, Machine.gain, Machine.wait, Operands.apply, applied]
    rfl

private theorem yields_close {machine : Machine} {after : Except Halt Machine}
    (inside : Yields lexemes (machine.wait (.group span)) result after)
    (closing : Span) :
    Yields lexemes machine result
      (after.bind fun next => next.feed [⟨closing, .closeParen⟩]) := by
  cases inside with
  | value value applications => exact .value value applications
  | refused stands applications => exact .refused stands applications

mutual

theorem Operand.yields {own : List Lexeme} (operand : Operand)
    (written : own.map Lexeme.token = operand.tokens) (stands : StandsAt lexemes start own)
    (machine : Machine) : Yields lexemes machine (operand.value start) (machine.feed own) := by
  cases operand with
  | integer digits =>
    obtain ⟨⟨span, _⟩, rfl, rfl⟩ := List.map_eq_singleton_iff.mp written
    exact .value (.digits digits) machine.operands.applications
  | boolean flag =>
    obtain ⟨⟨span, _⟩, rfl, rfl⟩ := List.map_eq_singleton_iff.mp written
    exact .value (.literal flag) machine.operands.applications
  | group chain =>
    obtain ⟨⟨opening, _⟩, tail, rfl, rfl, rest⟩ := List.map_eq_cons_iff.mp written
    obtain ⟨inner, last, rfl, inside, ending⟩ := List.map_eq_append_iff.mp rest
    obtain ⟨⟨closing, _⟩, rfl, rfl⟩ := List.map_eq_singleton_iff.mp ending
    -- Inside, the machine has the group on top, so what waits outside is not reached.
    have opened : machine.feed (⟨opening, .openParen⟩ :: (inner ++ [⟨closing, .closeParen⟩])) =
        ((machine.wait (.group opening)).feed inner).bind
          fun next => next.feed [⟨closing, .closeParen⟩] := by
      rw [Machine.feed_cons, ← Machine.feed_append]
      rfl
    obtain ⟨result, yields, same⟩ := chain.yields inside stands.tail.left
      (machine.wait (.group opening))
    rw [opened, Machine.bind_eq_of_collapse (Machine.collapse_bind_feed_close closing) same]
    exact yields_close yields closing

theorem Chain.yields {own : List Lexeme} (chain : Chain)
    (written : own.map Lexeme.token = chain.tokens) (stands : StandsAt lexemes start own)
    (machine : Machine) :
    ∃ result, Yields lexemes machine (chain.value start) result ∧
      (machine.feed own).bind Machine.collapse = result.bind Machine.collapse := by
  cases chain with
  | single operand => exact ⟨_, operand.yields written stands machine, rfl⟩
  | join left operator rest =>
    obtain ⟨front, back, rfl, leftWritten, backWritten⟩ := List.map_eq_append_iff.mp written
    obtain ⟨⟨span, _⟩, own, rfl, rfl, restWritten⟩ := List.map_eq_cons_iff.mp backWritten
    have length : front.length = left.tokens.length := by
      rw [← leftWritten, List.length_map]
    have first := left.yields leftWritten stands.left machine
    rw [Machine.feed_append]
    simp only [Chain.value, ← length]
    generalize left.value start = firstResult, machine.feed front = fed at first
    cases first with
    | refused standing applications => exact ⟨_, .refused standing applications, rfl⟩
    | value firstValue earlier =>
      obtain ⟨result, second, same⟩ := rest.yields restWritten stands.right.tail
        ((machine.gain firstValue earlier).wait (.operator operator span))
      -- The rest may leave its own operators waiting, above the one in front of it.
      have fed : ((Except.ok (machine.gain firstValue earlier)).bind fun next =>
          next.feed (⟨span, .operator operator⟩ :: own)).bind Machine.collapse =
            result.bind Machine.collapse := by
        rw [← same]
        simp only [Except.bind, Machine.feed_cons]
        rfl
      rw [fed]
      generalize rest.value (start + front.length + 1) = restResult at second
      cases second with
      | refused standing applications => exact ⟨_, .refused standing applications, rfl⟩
      | value secondValue applications =>
        exact yields_apply firstValue secondValue operator earlier applications
          stands.right.getElem?

end

end Condition
