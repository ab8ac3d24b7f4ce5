import Condition.Bracket
import Condition.Counting
import Condition.Proofs.Reachability
import Mathlib.Data.List.Infix

/-! No value and no operator gets lost. An operator takes two values and leaves
one, so the tokens read tell how many values and how many open groups there are. -/

namespace Condition

theorem Bracket.Opened.concat (opened : Opened tokens)
    (deeper : token = .closeParen → tokens.count .closeParen < tokens.count .openParen) :
    Opened (tokens ++ [token]) := by
  intro front prior
  rcases List.prefix_concat_iff.mp prior with rfl | earlier
  · have bound := opened tokens (List.prefix_refl tokens)
    rw [List.count_append, List.count_append]
    by_cases closing : token = .closeParen
    · subst closing
      have strict := deeper rfl
      have single : [Token.closeParen].count .closeParen = 1 := rfl
      omega
    · have none : [token].count .closeParen = 0 := by simpa [List.count_singleton] using closing
      omega
  · exact opened front earlier

def Waiting.operator? : Waiting → Option Operator
  | group _ => none
  | operator known _ => some known

def Waiting.isGroup : Waiting → Bool
  | group _ => true
  | operator _ _ => false

/-- What the tokens read say about a machine. Its values are those read, until an operator is
applied; from then on the latest outcome is among them. -/
structure Conserved (seen : List Token) (machine : Machine) : Prop where
  values : machine.operands.values.length + machine.operands.applications.length =
    (seen.filterMap Token.value?).length
  operators : (machine.waiting.filterMap Waiting.operator? ++
    machine.operands.applications.map Application.operator).Perm (seen.filterMap Token.operator?)
  groups : seen.count .closeParen + machine.waiting.countP Waiting.isGroup = seen.count .openParen
  opened : Bracket.Opened seen
  untouched : machine.operands.applications = [] →
    machine.operands.values = (seen.filterMap Token.value?).reverse
  outcome : machine.operands.applications ≠ [] → ∃ flag, .outcome flag ∈ machine.operands.values

variable {seen : List Token}

namespace Conserved

theorem start : Conserved [] {} where
  values := rfl
  operators := .nil
  groups := rfl
  opened := by
    intro front prior
    rw [List.prefix_nil.mp prior]
    exact Nat.le_refl _
  untouched _ := rfl
  outcome made := absurd rfl made

theorem openGroup (conserved : Conserved seen ⟨waiting, operands⟩) (span : Span) :
    Conserved (seen ++ [.openParen]) ⟨.group span :: waiting, operands⟩ where
  values := by simpa [List.filterMap_cons, Token.value?] using conserved.values
  operators := by
    simpa [List.filterMap_cons, Token.operator?, Waiting.operator?] using conserved.operators
  groups := by
    have groups := conserved.groups
    have opens : (seen ++ [Token.openParen]).count .openParen = seen.count .openParen + 1 := by simp
    have closes : (seen ++ [Token.openParen]).count .closeParen = seen.count .closeParen := by simp
    have waits : (Waiting.group span :: waiting).countP Waiting.isGroup =
        waiting.countP Waiting.isGroup + 1 := List.countP_cons_of_pos rfl
    simp only at groups ⊢
    omega
  opened := conserved.opened.concat (fun same => by cases same)
  untouched made := by simpa [List.filterMap_cons, Token.value?] using conserved.untouched made
  outcome := conserved.outcome

theorem depth (conserved : Conserved seen ⟨.group span :: waiting, operands⟩) :
    seen.count .closeParen + waiting.countP Waiting.isGroup + 1 = seen.count .openParen := by
  have groups := conserved.groups
  rw [List.countP_cons_of_pos rfl] at groups
  exact groups

theorem closeGroup (conserved : Conserved seen ⟨.group span :: waiting, operands⟩) :
    Conserved (seen ++ [.closeParen]) ⟨waiting, operands⟩ where
  values := by simpa [List.filterMap_cons, Token.value?] using conserved.values
  operators := by
    simpa [List.filterMap_cons, Token.operator?, Waiting.operator?] using conserved.operators
  groups := by
    have groups := conserved.depth
    have opens : (seen ++ [Token.closeParen]).count .openParen = seen.count .openParen := by simp
    have closes : (seen ++ [Token.closeParen]).count .closeParen = seen.count .closeParen + 1 := by
      simp
    simp only
    omega
  opened := by
    have groups := conserved.depth
    exact conserved.opened.concat (fun _ => by omega)
  untouched made := by simpa [List.filterMap_cons, Token.value?] using conserved.untouched made
  outcome := conserved.outcome

theorem waitFor (conserved : Conserved seen ⟨waiting, operands⟩) (operator : Operator)
    (span : Span) :
    Conserved (seen ++ [.operator operator]) ⟨.operator operator span :: waiting, operands⟩ where
  values := by simpa [List.filterMap_cons, Token.value?] using conserved.values
  operators := by
    have kept := conserved.operators.cons operator
    have moved := kept.trans (List.perm_append_singleton operator _).symm
    simpa [List.filterMap_cons, Token.operator?, Waiting.operator?] using moved
  groups := by simpa [List.countP_cons, Waiting.isGroup] using conserved.groups
  opened := conserved.opened.concat (fun same => by cases same)
  untouched made := by simpa [List.filterMap_cons, Token.value?] using conserved.untouched made
  outcome := conserved.outcome

theorem push (conserved : Conserved seen machine) (stands : token.value? = some value) :
    Conserved (seen ++ [token]) { machine with operands := machine.operands.push value } := by
  have plain : token.operator? = none ∧ token ≠ .openParen ∧ token ≠ .closeParen := by
    cases token <;> simp_all [Token.value?, Token.operator?]
  obtain ⟨noOperator, noOpen, noClose⟩ := plain
  constructor
  · have sizes := conserved.values
    have more : (seen ++ [token]).filterMap Token.value? = seen.filterMap Token.value? ++ [value] := by
      simp [stands]
    rw [more, List.length_append, Operands.push]
    simp only [List.length_cons, List.length_nil]
    omega
  · simpa [List.filterMap_cons, noOperator, Operands.push] using conserved.operators
  · simpa [List.count_singleton, noOpen, noClose] using conserved.groups
  · exact conserved.opened.concat (fun same => absurd same noClose)
  · intro made
    simpa [stands, Operands.push] using conserved.untouched made
  · intro made
    obtain ⟨flag, member⟩ := conserved.outcome made
    exact ⟨flag, List.mem_cons_of_mem _ member⟩

theorem apply (conserved : Conserved seen ⟨.operator operator span :: waiting, operands⟩)
    (applied : operands.apply operator span = .ok next) : Conserved seen ⟨waiting, next⟩ := by
  obtain ⟨right, left, rest, outcome, values, -, rfl⟩ := Operands.apply_eq_ok_iff.mp applied
  constructor
  · have sizes := conserved.values
    rw [values] at sizes
    simp only [List.length_cons] at sizes ⊢
    omega
  · have kept := conserved.operators
    simp only [List.filterMap_cons, Waiting.operator?] at kept
    exact List.perm_middle.trans kept
  · simpa [List.countP_cons, Waiting.isGroup] using conserved.groups
  · exact conserved.opened
  · intro made
    cases made
  · intro _
    exact ⟨outcome, List.mem_cons_self⟩

end Conserved

theorem Conserved.read (conserved : Conserved seen machine) (inner : lexeme.token ≠ .closeParen)
    (stepped : machine.step lexeme = .ok next) : Conserved (seen ++ [lexeme.token]) next := by
  obtain ⟨span, token⟩ := lexeme
  cases token with
  | openParen =>
    cases stepped
    exact conserved.openGroup span
  | closeParen => exact absurd rfl inner
  | operator known =>
    cases stepped
    exact conserved.waitFor known span
  | boolean flag =>
    cases stepped
    exact conserved.push rfl
  | integer digits =>
    cases stepped
    exact conserved.push rfl

/-- Every state that an evaluation comes to is accounted for by the tokens that it has read. -/
theorem Reached.conserved (reached : Reached scan unread machine) :
    ∃ read, scan.lexemes = read ++ unread ∧ Conserved (read.map Lexeme.token) machine := by
  induction reached with
  | start => exact ⟨[], rfl, .start⟩
  | @read lexeme unread _ _ _ inner stepped ih =>
    obtain ⟨read, split, conserved⟩ := ih
    refine ⟨read ++ [lexeme], by simp [split], ?_⟩
    rw [List.map_append]
    exact conserved.read inner stepped
  | @close lexeme unread _ _ _ _ closing ih =>
    obtain ⟨read, split, conserved⟩ := ih
    refine ⟨read ++ [lexeme], by simp [split], ?_⟩
    rw [List.map_append, List.map_singleton, closing]
    exact conserved.closeGroup
  | apply _ _ applied ih =>
    obtain ⟨read, split, conserved⟩ := ih
    exact ⟨read, split, conserved.apply applied⟩

namespace Conserved

theorem balanced (conserved : Conserved seen ⟨[], operands⟩) : Bracket.Balanced seen :=
  ⟨conserved.opened, conserved.groups⟩

/-- Where nothing waits, all operators are applied, and each has taken one value away. -/
theorem length_values (conserved : Conserved seen ⟨[], operands⟩) :
    operands.values.length + (seen.filterMap Token.operator?).length =
      (seen.filterMap Token.value?).length := by
  have applied := conserved.operators.length_eq
  have values := conserved.values
  simp only [List.filterMap_nil, List.nil_append, List.length_map] at applied values
  omega

end Conserved

theorem Evaluation.conserved_of_ok (settled : operands scan = .ok operands') :
    scan.unknown = none ∧ Conserved scan.tokens ⟨[], operands'⟩ := by
  have ends := operands_ends scan
  rw [settled] at ends
  obtain ⟨complete, reached⟩ := ends
  obtain ⟨read, split, conserved⟩ := reached.conserved
  rw [List.append_nil] at split
  exact ⟨complete, by rwa [Scan.tokens, split]⟩

/-- Where the parentheses belong together, only an operator can fail. -/
theorem Reached.operator_of_stops (complete : scan.unknown = none)
    (balanced : Bracket.Balanced scan.tokens) (reached : Reached scan unread machine)
    (stops : Stops scan unread machine fault) : ∃ operator ∈ scan.operators,
      ∃ span waiting, machine.waiting = .operator operator span :: waiting := by
  obtain ⟨read, split, conserved⟩ := reached.conserved
  have tokens : scan.tokens = read.map Lexeme.token ++ unread.map Lexeme.token := by
    rw [Scan.tokens, split, List.map_append]
  cases stops with
  | @unmatched lexeme rest operands closing =>
    -- The parenthesis would be one too many already in front of the rest.
    have bound := balanced.1 (read.map Lexeme.token ++ [Token.closeParen])
      ⟨rest.map Lexeme.token, by simp [tokens, closing]⟩
    have groups : (read.map Lexeme.token).count Token.closeParen =
        (read.map Lexeme.token).count Token.openParen := conserved.groups
    have opens : [Token.closeParen].count Token.openParen = 0 := rfl
    have closes : [Token.closeParen].count Token.closeParen = 1 := rfl
    rw [List.count_append, List.count_append, opens, closes] at bound
    omega
  | @refused _ operator span waiting operands halt due failed =>
    have waits : operator ∈ (read.map Lexeme.token).filterMap Token.operator? :=
      conserved.operators.subset (by simp [Waiting.operator?])
    refine ⟨operator, ?_, span, waiting, rfl⟩
    rw [Scan.operators, tokens, List.filterMap_append]
    exact List.mem_append_left _ waits
  | unknown word =>
    rw [complete] at word
    cases word
  | unclosed =>
    have groups := conserved.depth
    have closed := balanced.2
    rw [tokens, List.map_nil, List.append_nil] at closed
    omega

/-- Without operators, nothing can fail but parentheses that do not belong together. -/
theorem Evaluation.operands_of_no_operator (complete : scan.unknown = none)
    (balanced : Bracket.Balanced scan.tokens) (without : scan.operators = []) :
    operands scan = .ok ⟨scan.values.reverse, []⟩ := by
  have ends := operands_ends scan
  cases result : operands scan with
  | ok last =>
    obtain ⟨-, conserved⟩ := conserved_of_ok result
    have applied : last.applications = [] := by
      have permuted := conserved.operators
      rw [show scan.tokens.filterMap Token.operator? = [] from without] at permuted
      simpa using permuted
    obtain ⟨values, applications⟩ := last
    obtain rfl : applications = [] := applied
    obtain rfl : values = scan.values.reverse := conserved.untouched rfl
    rfl
  | error halt =>
    rw [result] at ends
    obtain ⟨unread, machine, reached, stops, -⟩ := ends
    obtain ⟨operator, stands, -⟩ := reached.operator_of_stops complete balanced stops
    rw [without] at stands
    cases stands

end Condition
