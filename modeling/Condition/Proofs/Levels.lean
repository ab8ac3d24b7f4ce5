import Condition.Counting
import Condition.Proofs.FaultPlace
import Condition.Proofs.Frame
import Condition.Proofs.Matching

/-! What waits in a machine lies in levels, one for each group that is open. A level
holds the operators that stand in its group and in no group inside. -/

namespace Condition

/-- What waits for the tokens of a group, the latest first. Groups inside have left nothing. -/
inductive Level : List Lexeme → List Waiting → Prop where
  | start : Level [] []
  | value (level : Level inside entries) (stands : lexeme.token.value? = some value) :
      Level (inside ++ [lexeme]) entries
  | operator (level : Level inside entries) (known : Operator) (span : Span) :
      Level (inside ++ [⟨span, .operator known⟩]) (.operator known span :: entries)
  | group (level : Level inside entries) (inner : Level within others) (opening closing : Span) :
      Level (inside ++ (⟨opening, .openParen⟩ :: within ++ [⟨closing, .closeParen⟩])) entries

/-- What waits for the tokens read: a level for each open group, the innermost first. -/
inductive Layered : List Lexeme → List Waiting → Prop where
  | ground (level : Level inside entries) : Layered inside entries
  | group (outside : Layered before waiting) (span : Span) (level : Level inside entries) :
      Layered (before ++ ⟨span, .openParen⟩ :: inside) (entries ++ .group span :: waiting)

theorem Bracket.isInner_of_value {token : Token} (stands : token.value? = some value) :
    isInner token = true := by
  cases token with
  | openParen => cases stands
  | closeParen => cases stands
  | _ => rfl

namespace Level

variable {inside : List Lexeme} {entries : List Waiting}

theorem closed (level : Level inside entries) : Bracket.Closed (inside.map Lexeme.token) := by
  induction level with
  | start => exact .nil
  | value _ stands ih =>
    rw [List.map_append]
    exact ih.append (.inner _ (Bracket.isInner_of_value stands) .nil)
  | operator _ known span ih =>
    rw [List.map_append]
    exact ih.append (.inner _ rfl .nil)
  | group _ _ opening closing outer within =>
    rw [List.map_append, List.map_append, List.map_cons]
    exact outer.append (.group within .nil)

theorem group_notMem (level : Level inside entries) (span : Span) : .group span ∉ entries := by
  induction level with
  | start => exact List.not_mem_nil
  | value _ _ ih => exact ih
  | operator _ known place ih => simpa using ih
  | group _ _ _ _ ih _ => exact ih

end Level

/-- The numbers of the tokens that a level waits for: those of the exposed operators, from right
to left. -/
structure Sites (inside : List Lexeme) (entries : List Waiting) (numbers : List Nat) : Prop where
  descending : numbers.Pairwise (· > ·)
  exposed : ∀ number, number ∈ numbers ↔ Bracket.Exposed (inside.map Lexeme.token) number
  found : numbers.map (inside[·]?) = entries.map fun entry => some entry.lexeme

namespace Sites

variable {inside more : List Lexeme} {entries : List Waiting} {numbers : List Nat}

theorem lt (sites : Sites inside entries numbers) (member : number ∈ numbers) :
    number < inside.length := by
  have exposed := (sites.exposed number).mp member
  simpa using exposed.lt

theorem found_append (sites : Sites inside entries numbers) (more : List Lexeme) :
    numbers.map ((inside ++ more)[·]?) = entries.map fun entry => some entry.lexeme := by
  rw [← sites.found]
  exact List.map_congr_left fun number member => List.getElem?_append_left (sites.lt member)

theorem found_behind (sites : Sites inside entries numbers) (front more : List Lexeme) :
    (numbers.map (front.length + ·)).map ((front ++ (inside ++ more))[·]?) =
      entries.map fun entry => some entry.lexeme := by
  rw [List.map_map, ← sites.found_append more]
  refine List.map_congr_left fun number _ => ?_
  rw [Function.comp_apply, List.getElem?_append_right (Nat.le_add_right _ _),
    Nat.add_sub_cancel_left]

theorem extend (sites : Sites inside entries numbers)
    (same : ∀ number, Bracket.Exposed ((inside ++ more).map Lexeme.token) number ↔
      Bracket.Exposed (inside.map Lexeme.token) number) :
    Sites (inside ++ more) entries numbers where
  descending := sites.descending
  exposed number := (sites.exposed number).trans (same number).symm
  found := sites.found_append more

end Sites

theorem Level.exists_sites (level : Level inside entries) :
    ∃ numbers, Sites inside entries numbers := by
  induction level with
  | start =>
    refine ⟨[], .nil, fun number => ?_, rfl⟩
    exact iff_of_false List.not_mem_nil fun exposed => Nat.not_lt_zero _ exposed.lt
  | @value _ _ _ lexeme level stands ih =>
    obtain ⟨numbers, sites⟩ := ih
    refine ⟨numbers, sites.extend fun number => ?_⟩
    have silent : ¬ ∃ operator, lexeme.token = .operator operator := by
      rintro ⟨operator, same⟩
      rw [same] at stands
      cases stands
    rw [List.map_append, List.map_singleton, Bracket.exposed_concat_iff level.closed]
    exact or_iff_left fun other => silent other.1
  | @operator inside _ level known span ih =>
    obtain ⟨numbers, sites⟩ := ih
    refine ⟨inside.length :: numbers, ?_, fun number => ?_, ?_⟩
    · exact List.pairwise_cons.mpr ⟨fun number member => sites.lt member, sites.descending⟩
    · rw [List.map_append, List.map_singleton, Bracket.exposed_concat_iff level.closed,
        List.mem_cons, sites.exposed, or_comm, List.length_map]
      exact or_congr_right (and_iff_right ⟨known, rfl⟩).symm
    · rw [List.map_cons, sites.found_append, List.getElem?_concat_length]
      rfl
  | group _ inner opening closing ih _ =>
    obtain ⟨numbers, sites⟩ := ih
    refine ⟨numbers, sites.extend fun number => ?_⟩
    simp only [List.map_append, List.map_cons, List.map_nil]
    exact Bracket.exposed_group_iff inner.closed

/-- The applications that come of operators that wait, in the order in which these wait. -/
structure Applies (entries : List Waiting) (operands next : Operands) (made : List Application) :
    Prop where
  applications : next.applications = made.reverse ++ operands.applications
  operators : entries.map (·.lexeme.token) =
    made.map fun application => .operator application.operator

theorem Applies.cons {operands : Operands} (applied : operands.apply known span = .ok between)
    (applies : Applies entries between next made) : ∃ application,
      Applies (.operator known span :: entries) operands next (application :: made) := by
  obtain ⟨right, left, values, outcome, -, -, rfl⟩ := Operands.apply_eq_ok_iff.mp applied
  refine ⟨⟨left, known, right, outcome⟩, ?_, ?_⟩
  · simp [applies.applications]
  · exact congrArg (Token.operator known :: ·) applies.operators

namespace Machine

variable {entries rest : List Waiting}

/-- Operators that wait are all applied, unless one of them fails. -/
theorem reduce_cases (bare : ∀ span, .group span ∉ entries)
    (base : rest = [] ∨ ∃ span waiting, rest = .group span :: waiting) (operands : Operands) :
    (∃ made next, reduce (entries ++ rest) operands = .ok ⟨rest, next⟩ ∧
      Applies entries operands next made) ∨
    ∃ halt, reduce (entries ++ rest) operands = .error halt ∧ halt.fault.isParenthesis = false := by
  induction entries generalizing operands with
  | nil =>
    refine .inl ⟨[], operands, ?_, rfl, rfl⟩
    rcases base with rfl | ⟨span, waiting, rfl⟩ <;> rfl
  | cons latest others ih =>
    cases latest with
    | group span => exact absurd List.mem_cons_self (bare span)
    | operator known span =>
      simp only [List.cons_append, reduce]
      cases applied : operands.apply known span with
      | error halt =>
        refine .inr ⟨halt, rfl, ?_⟩
        rcases Operands.apply_eq_error_iff.mp applied with
          ⟨_, rfl⟩ | ⟨_, _, _, _, _, _, rfl⟩ <;> rfl
      | ok next =>
        have bare' (place : Span) : .group place ∉ others :=
          fun member => bare place (List.mem_cons_of_mem _ member)
        rcases ih bare' next with ⟨made, last, reduced, applies⟩ | failed
        · obtain ⟨application, applies⟩ := applies.cons applied
          exact .inl ⟨application :: made, last, reduced, applies⟩
        · exact .inr failed

/-- A closing parenthesis that finds no group applies the operators that wait, and it is a fault. -/
theorem close_ground (bare : ∀ span, .group span ∉ entries) (closing : Span) (operands : Operands) :
    ∃ halt, close closing entries operands = .error halt ∧
      (halt.fault.isParenthesis = false ∨ halt.fault = .incomplete .unmatchedClose closing) := by
  rw [← reduce_bind_close, ← List.append_nil entries]
  rcases reduce_cases bare (.inl rfl) operands with
    ⟨made, next, reduced, -⟩ | ⟨halt, failed, other⟩
  · rw [reduced]
    exact ⟨_, rfl, .inr rfl⟩
  · rw [failed]
    exact ⟨halt, rfl, .inl other⟩

theorem close_group_cases (bare : ∀ span, .group span ∉ entries) (closing opening : Span)
    (waiting : List Waiting) (operands : Operands) :
    (∃ made next, close closing (entries ++ .group opening :: waiting) operands =
        .ok ⟨waiting, next⟩ ∧ Applies entries operands next made) ∨
    ∃ halt, close closing (entries ++ .group opening :: waiting) operands = .error halt ∧
      halt.fault.isParenthesis = false := by
  rw [← reduce_bind_close]
  rcases reduce_cases bare (.inr ⟨opening, waiting, rfl⟩) operands with
    ⟨made, next, reduced, applies⟩ | ⟨halt, failed, other⟩
  · rw [reduced]
    exact .inl ⟨made, next, rfl, applies⟩
  · rw [failed]
    exact .inr ⟨halt, rfl, other⟩

theorem settle_error_cases {operands : Operands} (bare : ∀ span, .group span ∉ entries)
    (base : rest = [] ∨ ∃ span waiting, rest = .group span :: waiting)
    (failed : settle (entries ++ rest) operands = .error halt) :
    halt.fault.isParenthesis = false ∨
      ∃ span waiting, rest = .group span :: waiting ∧
        halt.fault = .incomplete .unclosedGroup span := by
  rw [← reduce_bind_settle] at failed
  rcases reduce_cases bare base operands with ⟨made, next, reduced, -⟩ | ⟨other, stopped, plain⟩
  · rw [reduced] at failed
    rcases base with rfl | ⟨span, waiting, rfl⟩
    · cases failed
    · cases failed
      exact .inr ⟨span, waiting, rfl, rfl⟩
  · rw [stopped] at failed
    cases failed
    exact .inl plain

theorem feed_eq_error {machine : Machine} (failed : machine.feed lexemes = .error halt) :
    ∃ front lexeme unread last, lexemes = front ++ lexeme :: unread ∧
      machine.feed front = .ok last ∧ last.step lexeme = .error halt := by
  induction lexemes generalizing machine with
  | nil => cases failed
  | cons lexeme rest ih =>
    rw [feed_cons] at failed
    cases stepped : machine.step lexeme with
    | error other =>
      rw [stepped] at failed
      exact ⟨[], lexeme, rest, machine, rfl, rfl, stepped.trans failed⟩
    | ok next =>
      rw [stepped] at failed
      obtain ⟨front, culprit, unread, last, rfl, fed, stopped⟩ := ih failed
      have ran : machine.feed (lexeme :: front) = .ok last := by
        rw [feed_cons, stepped]
        exact fed
      exact ⟨lexeme :: front, culprit, unread, last, rfl, ran, stopped⟩

end Machine

namespace Layered

variable {front : List Lexeme} {machine next : Machine}

theorem extend (layered : Layered front waiting) (more : List Lexeme) (later : List Waiting)
    (gains : ∀ inside entries, Level inside entries → Level (inside ++ more) (later ++ entries)) :
    Layered (front ++ more) (later ++ waiting) := by
  cases layered with
  | ground level => exact .ground (gains _ _ level)
  | group outside span level =>
    have joined := outside.group span (gains _ _ level)
    simpa using joined

/-- A closing parenthesis closes the innermost group, and applies what waits in its level. -/
theorem of_close (layered : Layered front waiting)
    (closed : Machine.close closing waiting operands = .ok next) :
    ∃ before opening inside entries made, front = before ++ ⟨opening, .openParen⟩ :: inside ∧
      waiting = entries ++ .group opening :: next.waiting ∧ Layered before next.waiting ∧
      Level inside entries ∧ Applies entries operands next.operands made := by
  cases layered with
  | ground level =>
    obtain ⟨halt, failed, -⟩ := Machine.close_ground level.group_notMem closing operands
    cases closed.symm.trans failed
  | @group before outer inside entries outside opening level =>
    rcases Machine.close_group_cases level.group_notMem closing opening outer operands with
      ⟨made, last, reached, applies⟩ | ⟨halt, failed, -⟩
    · cases closed.symm.trans reached
      exact ⟨before, opening, inside, entries, made, rfl, rfl, outside, level, applies⟩
    · cases closed.symm.trans failed

theorem step (layered : Layered front machine.waiting) (stepped : machine.step lexeme = .ok next) :
    Layered (front ++ [lexeme]) next.waiting := by
  obtain ⟨span, token⟩ := lexeme
  obtain ⟨waiting, operands⟩ := machine
  cases token with
  | openParen =>
    cases stepped
    exact layered.group span .start
  | closeParen =>
    obtain ⟨before, opening, inside, entries, _, rfl, -, outside, level, -⟩ :=
      layered.of_close stepped
    have grown := outside.extend (⟨opening, .openParen⟩ :: inside ++ [⟨span, .closeParen⟩]) []
      fun _ _ around => around.group level opening span
    simpa using grown
  | operator known =>
    cases stepped
    exact layered.extend _ [.operator known span] fun _ _ level => level.operator known span
  | boolean flag =>
    cases stepped
    exact layered.extend _ [] fun _ _ level => level.value rfl
  | integer digits =>
    cases stepped
    exact layered.extend _ [] fun _ _ level => level.value rfl

theorem feed (layered : Layered front machine.waiting) (fed : machine.feed lexemes = .ok next) :
    Layered (front ++ lexemes) next.waiting := by
  induction lexemes generalizing front machine with
  | nil =>
    cases fed
    rwa [List.append_nil]
  | cons lexeme rest ih =>
    obtain ⟨later, stepped, ran⟩ := ok_of_bind fed
    have joined := ih (layered.step stepped) ran
    simpa using joined

theorem of_feed (fed : Machine.feed {} front = .ok machine) : Layered front machine.waiting := by
  have start : Layered [] ({} : Machine).waiting := .ground .start
  exact start.feed fed

/-- No closing parenthesis that was read is one too many. -/
theorem exists_opening (layered : Layered front waiting)
    (stands : (front.map Lexeme.token)[closing]? = some .closeParen) :
    ∃ opening, Bracket.Matches (front.map Lexeme.token) opening closing := by
  induction layered generalizing closing with
  | ground level => exact level.closed.exists_opening stands
  | @group before _ inside _ _ span level ih =>
    rw [List.map_append, List.map_cons] at stands ⊢
    rcases Nat.lt_or_ge closing before.length with early | late
    · rw [List.getElem?_append_left (by simpa using early)] at stands
      obtain ⟨opening, pair⟩ := ih stands
      exact ⟨opening, by simpa using pair.within [] (.openParen :: inside.map Lexeme.token)⟩
    · obtain ⟨site, rfl⟩ := Nat.exists_eq_add_of_le late
      rw [List.getElem?_append_right (by simp), List.length_map, Nat.add_sub_cancel_left] at stands
      cases site with
      | zero => cases stands
      | succ site =>
        obtain ⟨opening, pair⟩ := level.closed.exists_opening stands
        have pair := pair.within (before.map Lexeme.token ++ [.openParen]) []
        rw [List.append_nil, List.append_assoc] at pair
        exact ⟨_, by simpa [Nat.add_assoc, Nat.add_comm 1] using pair⟩

end Layered

end Condition
