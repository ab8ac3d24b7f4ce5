import Condition.Proofs.Levels

namespace Condition

/-- What closing a group comes to. The sites are the places of the operators directly in the group,
each once and from right to left. -/
structure ClosesGroup (scan : Scan) (machine next : Machine) (opening closing : Nat)
    (sites : List Nat) : Prop where
  matched : Bracket.Matches scan.tokens opening closing
  direct : ∀ number, number ∈ sites ↔ Bracket.Direct scan.tokens opening closing number
  descending : sites.Pairwise (· > ·)
  popped : ∃ entries span, machine.waiting = entries ++ .group span :: next.waiting ∧
    scan.lexemes[opening]? = some ⟨span, .openParen⟩ ∧
    sites.map (scan.lexemes[·]?) = entries.map fun entry => some entry.lexeme
  applied : ∃ made : List Application,
    next.operands.applications = made.reverse ++ machine.operands.applications ∧
    sites.map (scan.tokens[·]?) = made.map fun application => some (.operator application.operator)

theorem Layered.closesGroup {scan : Scan} (layered : Layered front machine.waiting)
    (split : scan.lexemes = front ++ lexeme :: unread) (closing : lexeme.token = .closeParen)
    (stepped : machine.step lexeme = .ok next) :
    ∃ opening sites, ClosesGroup scan machine next opening front.length sites := by
  simp only [Machine.step, closing] at stepped
  obtain ⟨before, span, inside, entries, made, rfl, waiting, outside, level, applies⟩ :=
    layered.of_close stepped
  obtain ⟨numbers, sites⟩ := level.exists_sites
  have lexemes : scan.lexemes = before ++ [⟨span, .openParen⟩] ++ (inside ++ lexeme :: unread) := by
    simp [split]
  have tokens : scan.tokens = before.map Lexeme.token ++ .openParen :: inside.map Lexeme.token ++
      .closeParen :: unread.map Lexeme.token := by
    simp [Scan.tokens, split, closing]
  have width : (before ++ ⟨span, .openParen⟩ :: inside).length =
      (before.map Lexeme.token).length + 1 + (inside.map Lexeme.token).length := by
    simp only [List.length_append, List.length_cons, List.length_map]
    omega
  have found := sites.found_behind (before ++ [⟨span, .openParen⟩]) (lexeme :: unread)
  rw [← lexemes, List.length_append, List.length_singleton, ← before.length_map Lexeme.token]
    at found
  refine ⟨(before.map Lexeme.token).length, _, ?_, ?_, ?_, ⟨entries, span, waiting, ?_, found⟩, ?_⟩
  · exact ⟨_, _, _, tokens, level.closed, rfl, width⟩
  · intro number
    rw [width, Bracket.direct_iff level.closed tokens, List.mem_map]
    simp only [sites.exposed, eq_comm]
  · rw [List.pairwise_map]
    exact sites.descending.imp fun later => Nat.add_lt_add_left later _
  · rw [split, List.length_map]
    simp
  · refine ⟨made, applies.applications, ?_⟩
    calc (numbers.map ((before.map Lexeme.token).length + 1 + ·)).map (scan.tokens[·]?)
        = ((numbers.map ((before.map Lexeme.token).length + 1 + ·)).map (scan.lexemes[·]?)).map
            (Option.map Lexeme.token) := by
          simp [Scan.tokens]
      _ = (entries.map (·.lexeme.token)).map some := by
          rw [found, List.map_map, List.map_map]
          rfl
      _ = made.map fun application => some (.operator application.operator) := by
          rw [applies.operators, List.map_map]
          rfl

/-- The parenthesis that a fault blames: the first that closes no group, or, where there is none of
these, the last that opens a group no other one closes. -/
inductive Blames (scan : Scan) : Fault → Prop where
  | unmatched (stands : scan.lexemes[closing]? = some ⟨span, .closeParen⟩)
      (unopened : Bracket.Unopened scan.tokens closing)
      (first : ∀ other, Bracket.Unopened scan.tokens other → closing ≤ other) :
      Blames scan (.incomplete .unmatchedClose span)
  | unclosed (stands : scan.lexemes[opening]? = some ⟨span, .openParen⟩)
      (unclosed : Bracket.Unclosed scan.tokens opening)
      (last : ∀ other, Bracket.Unclosed scan.tokens other → other ≤ opening)
      (opened : ∀ other, ¬ Bracket.Unopened scan.tokens other) :
      Blames scan (.incomplete .unclosedGroup span)

namespace Layered

variable {scan : Scan} {front : List Lexeme} {machine : Machine} {halt : Halt}

theorem blames_of_step (layered : Layered front machine.waiting)
    (split : scan.lexemes = front ++ lexeme :: unread) (failed : machine.step lexeme = .error halt)
    (parenthesis : halt.fault.isParenthesis = true) : Blames scan halt.fault := by
  by_cases closing : lexeme.token = .closeParen
  · obtain ⟨waiting, operands⟩ := machine
    simp only [Machine.step, closing] at failed
    cases layered with
    | ground level =>
      obtain ⟨other, stopped, plain | unmatched⟩ :=
        Machine.close_ground level.group_notMem lexeme.span operands
      · cases failed.symm.trans stopped
        cases plain.symm.trans parenthesis
      · cases failed.symm.trans stopped
        have tokens : scan.tokens =
            front.map Lexeme.token ++ .closeParen :: unread.map Lexeme.token := by
          simp [Scan.tokens, split, closing]
        have stands : scan.lexemes[(front.map Lexeme.token).length]? =
            some ⟨lexeme.span, .closeParen⟩ := by
          rw [split, List.length_map, ← closing]
          simp
        rw [unmatched]
        have first := level.closed.first_unopened (unread.map Lexeme.token)
        rw [← tokens] at first
        exact .unmatched stands first.1 first.2
    | @group _ outer _ _ _ opening level =>
      rcases Machine.close_group_cases level.group_notMem lexeme.span opening outer operands with
        ⟨made, last, reached, -⟩ | ⟨other, stopped, plain⟩
      · cases failed.symm.trans reached
      · cases failed.symm.trans stopped
        cases plain.symm.trans parenthesis
  · rw [Machine.step_of_inner closing] at failed
    cases failed

theorem blames_of_settle (layered : Layered scan.lexemes waiting)
    (failed : Machine.settle waiting operands = .error halt)
    (parenthesis : halt.fault.isParenthesis = true) : Blames scan halt.fault := by
  have opened (other : Nat) : ¬ Bracket.Unopened scan.tokens other := by
    rintro ⟨stands, unopened⟩
    obtain ⟨opening, pair⟩ := layered.exists_opening stands
    exact unopened opening pair
  generalize lexemes : scan.lexemes = all at layered
  cases layered with
  | ground level =>
    rw [← List.append_nil waiting] at failed
    rcases Machine.settle_error_cases level.group_notMem (.inl rfl) failed with
      plain | ⟨span, rest, none, -⟩
    · cases plain.symm.trans parenthesis
    · cases none
  | @group before outer inside _ _ opening level =>
    rcases Machine.settle_error_cases level.group_notMem (.inr ⟨opening, outer, rfl⟩) failed with
      plain | ⟨span, rest, same, unclosed⟩
    · cases plain.symm.trans parenthesis
    · cases same
      have tokens : scan.tokens =
          before.map Lexeme.token ++ .openParen :: inside.map Lexeme.token := by
        simp [Scan.tokens, lexemes]
      have stands : scan.lexemes[(before.map Lexeme.token).length]? =
          some ⟨opening, .openParen⟩ := by
        rw [lexemes, List.length_map]
        simp
      have last := level.closed.last_unclosed (before.map Lexeme.token)
      rw [← tokens] at last
      rw [unclosed]
      exact .unclosed stands last.1 last.2 opened

end Layered

theorem Evaluation.blames_of_operands (failed : operands scan = .error halt)
    (parenthesis : halt.fault.isParenthesis = true) : Blames scan halt.fault := by
  simp only [operands] at failed
  cases fed : Machine.feed {} scan.lexemes with
  | error other =>
    rw [fed] at failed
    cases failed
    obtain ⟨front, lexeme, unread, last, split, reached, stopped⟩ := Machine.feed_eq_error fed
    exact (Layered.of_feed reached).blames_of_step split stopped parenthesis
  | ok machine =>
    rw [fed] at failed
    cases word : scan.unknown with
    | some span =>
      rw [word] at failed
      cases failed
      cases parenthesis
    | none =>
      rw [word] at failed
      exact (Layered.of_feed fed).blames_of_settle failed parenthesis

/-- How the evaluation of a text takes its parentheses. -/
structure PairsParentheses (text : List Char) : Prop where
  closes : ∀ front lexeme unread machine next,
    (Scan.ofText text).lexemes = front ++ lexeme :: unread → lexeme.token = .closeParen →
      Machine.feed {} front = .ok machine → machine.step lexeme = .ok next →
        ∃ opening sites, ClosesGroup (Scan.ofText text) machine next opening front.length sites
  blames : ∀ strictness failure, evaluate strictness text = .error failure →
    failure.fault.isParenthesis = true → Blames (Scan.ofText text) failure.fault

/-- Every parenthesis that is closed is closed with the one that it belongs to, and the one that is
blamed belongs to none. -/
theorem pairsParentheses (text : List Char) : PairsParentheses text where
  closes _ _ _ _ _ split closing fed stepped :=
    (Layered.of_feed fed).closesGroup split closing stepped
  blames strictness failure failed parenthesis := by
    rcases evaluate_error_cases failed with
      ⟨halt, settled, rfl⟩ | ⟨operands, fault, -, concluded, rfl⟩
    · exact Evaluation.blames_of_operands settled parenthesis
    · -- What is left at the end of a text is no matter of parentheses.
      rcases Evaluation.fault_of_conclude concluded with rfl | nowhere
      · cases parenthesis
      · cases fault with
        | incomplete cause span => cases nowhere
        | _ => cases parenthesis

end Condition
