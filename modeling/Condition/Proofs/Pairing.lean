import Condition.Proofs.Matching
import Mathlib.Combinatorics.Enumerative.DoubleCounting
import Mathlib.Data.Nat.Count

namespace Condition.Bracket

variable {tokens before inside behind : List Token} {opening closing : Nat}

/-- If tokens are not closed, then some parenthesis lacks its partner: the first that closes no
group, or the last that opens a group no other one closes. -/
theorem closed_or_split (tokens : List Token) :
    Closed tokens ∨
      (∃ inside behind, tokens = inside ++ .closeParen :: behind ∧ Closed inside) ∨
      ∃ before inside, tokens = before ++ .openParen :: inside ∧ Closed inside := by
  induction whole : tokens.length using Nat.strong_induction_on generalizing tokens with
  | _ size shorter =>
    cases tokens with
    | nil => exact .inl .nil
    | cons token rest =>
      have ih := shorter rest.length (by simp [← whole]) rest rfl
      by_cases opens : token = .openParen
      · subst opens
        rcases ih with closed | ⟨inside, behind, rfl, closed⟩ | ⟨before, inside, rfl, closed⟩
        · exact .inr (.inr ⟨[], rest, rfl, closed⟩)
        · -- The parenthesis closes the group that the first one opens.
          have fewer : behind.length < size := by
            simp only [← whole, List.length_cons, List.length_append]
            omega
          rcases shorter behind.length fewer behind rfl with
            later | ⟨front, back, rfl, later⟩ | ⟨front, back, rfl, later⟩
          · exact .inl (.group closed later)
          · exact .inr (.inl ⟨.openParen :: inside ++ .closeParen :: front, back, by simp,
              .group closed later⟩)
          · exact .inr (.inr ⟨.openParen :: inside ++ .closeParen :: front, back, by simp, later⟩)
        · exact .inr (.inr ⟨.openParen :: before, inside, rfl, closed⟩)
      by_cases closes : token = .closeParen
      · subst closes
        exact .inr (.inl ⟨[], rest, rfl, .nil⟩)
      have plain : isInner token = true := by
        cases token with
        | openParen => exact absurd rfl opens
        | closeParen => exact absurd rfl closes
        | _ => rfl
      rcases ih with closed | ⟨inside, behind, rfl, closed⟩ | ⟨before, inside, rfl, closed⟩
      · exact .inl (.inner token plain closed)
      · exact .inr (.inl ⟨token :: inside, behind, rfl, .inner token plain closed⟩)
      · exact .inr (.inr ⟨token :: before, inside, rfl, closed⟩)

theorem Opened.ne_closeParen (opened : Opened tokens) (closed : Closed inside) :
    tokens ≠ inside ++ .closeParen :: behind := by
  rintro rfl
  have bound := opened (inside ++ [.closeParen]) ⟨behind, by simp⟩
  have same := closed.balanced.2
  have opens : [Token.closeParen].count .openParen = 0 := rfl
  have closes : [Token.closeParen].count .closeParen = 1 := rfl
  rw [List.count_append, List.count_append] at bound
  omega

theorem closed_iff_balanced : Closed tokens ↔ Balanced tokens := by
  constructor
  · exact Closed.balanced
  · rintro ⟨opened, same⟩
    rcases closed_or_split tokens with
      closed | ⟨inside, behind, split, closed⟩ | ⟨before, inside, rfl, closed⟩
    · exact closed
    · exact absurd split (opened.ne_closeParen closed)
    · -- The group that is left open would make the opening parentheses too many.
      have outer := opened before (List.prefix_append _ _)
      have inner := closed.balanced.2
      simp only [List.count_append, List.count_cons_self,
        List.count_cons_of_ne (show Token.openParen ≠ .closeParen by decide)] at same
      omega

instance (tokens : List Token) : Decidable (Closed tokens) :=
  decidable_of_iff (Balanced tokens) closed_iff_balanced.symm

/-- A group is closed where the tokens in it are. -/
theorem matches_iff : Matches tokens opening closing ↔
    opening < closing ∧ tokens[opening]? = some .openParen ∧ tokens[closing]? = some .closeParen ∧
      Closed ((tokens.take closing).drop (opening + 1)) := by
  constructor
  · rintro ⟨before, inside, behind, rfl, closed, rfl, rfl⟩
    refine ⟨by omega, by simp, ?_, ?_⟩
    · rw [← length_opened]
      simp
    · rw [← length_opened, List.take_left, ← List.singleton_append, ← List.append_assoc]
      simpa using closed
  · rintro ⟨early, opens, closes, closed⟩
    obtain ⟨front, behind, rfl, rfl⟩ := getElem?_eq_some_iff_append.mp closes
    rw [List.getElem?_append_left early] at opens
    obtain ⟨before, inside, rfl, rfl⟩ := getElem?_eq_some_iff_append.mp opens
    rw [List.take_left] at closed
    exact ⟨before, inside, behind, rfl, by simpa using closed, rfl, length_opened before inside⟩

instance (tokens : List Token) (opening closing : Nat) :
    Decidable (Matches tokens opening closing) :=
  decidable_of_iff _ matches_iff.symm

theorem Closed.eq_of_closeParen (closed : Closed inside) (closed' : Closed within)
    (same : inside ++ .closeParen :: behind = within ++ .closeParen :: back) : inside = within := by
  rcases List.append_eq_append_iff.mp same with ⟨between, rfl, rest⟩ | ⟨between, rfl, rest⟩
  · rcases List.cons_eq_append_iff.mp rest with ⟨rfl, -⟩ | ⟨others, rfl, -⟩
    · rw [List.append_nil]
    · exact absurd rfl (closed'.balanced.1.ne_closeParen closed)
  · rcases List.cons_eq_append_iff.mp rest with ⟨rfl, -⟩ | ⟨others, rfl, -⟩
    · rw [List.append_nil]
    · exact absurd rfl (closed.balanced.1.ne_closeParen closed')

theorem Closed.eq_of_openParen (closed : Closed inside) (closed' : Closed within)
    (same : before ++ .openParen :: inside = front ++ .openParen :: within) : inside = within := by
  rcases List.append_eq_append_iff.mp same with ⟨between, rfl, rest⟩ | ⟨between, rfl, rest⟩
  · rcases List.cons_eq_append_iff.mp rest with ⟨rfl, rest⟩ | ⟨others, rfl, rfl⟩
    · exact (List.cons.inj rest).2
    · exact absurd closed closed'.balanced.1.not_closed
  · rcases List.cons_eq_append_iff.mp rest with ⟨rfl, rest⟩ | ⟨others, rfl, rfl⟩
    · exact (List.cons.inj rest).2.symm
    · exact absurd closed' closed.balanced.1.not_closed

namespace Matches

variable {other : Nat}

theorem opening_lt (pair : Matches tokens opening closing) : opening < closing :=
  (matches_iff.mp pair).1

theorem closing_lt_length (pair : Matches tokens opening closing) : closing < tokens.length := by
  obtain ⟨inside, -⟩ := List.getElem?_eq_some_iff.mp (matches_iff.mp pair).2.2.1
  exact inside

theorem closing_unique (pair : Matches tokens opening closing)
    (found : Matches tokens opening other) : closing = other := by
  obtain ⟨before, inside, behind, rfl, closed, rfl, rfl⟩ := pair
  obtain ⟨front, within, back, split, closed', same, rfl⟩ := found
  rw [List.append_assoc, List.append_assoc] at split
  obtain ⟨rfl, rest⟩ := List.append_inj split same
  rw [closed.eq_of_closeParen closed' (List.cons.inj rest).2]

theorem opening_unique (pair : Matches tokens opening closing)
    (found : Matches tokens other closing) : opening = other := by
  obtain ⟨before, inside, behind, rfl, closed, rfl, rfl⟩ := pair
  obtain ⟨front, within, back, split, closed', rfl, same⟩ := found
  have widths : (before ++ .openParen :: inside).length =
      (front ++ .openParen :: within).length := by
    rw [length_opened, length_opened]
    omega
  obtain ⟨rest, -⟩ := List.append_inj split widths
  rw [closed.eq_of_openParen closed' rest] at rest
  rw [(List.append_inj' rest rfl).1]

end Matches

instance (tokens : List Token) : DecidablePred (Unclosed tokens) := fun opening =>
  decidable_of_iff (tokens[opening]? = some .openParen ∧
      ∀ closing < tokens.length, ¬ Matches tokens opening closing)
    (and_congr_right fun _ => ⟨fun alone closing pair => alone closing pair.closing_lt_length pair,
      fun alone closing _ => alone closing⟩)

instance (tokens : List Token) : DecidablePred (Unopened tokens) := fun closing =>
  decidable_of_iff (tokens[closing]? = some .closeParen ∧
      ∀ opening < closing, ¬ Matches tokens opening closing)
    (and_congr_right fun _ => ⟨fun alone opening pair => alone opening pair.opening_lt pair,
      fun alone opening _ => alone opening⟩)

/-- The places of a token among others. -/
def sites (tokens : List Token) (token : Token) : Finset Nat :=
  {number ∈ Finset.range tokens.length | tokens[number]? = some token}

def unclosed (tokens : List Token) : Finset Nat :=
  {opening ∈ sites tokens .openParen | Unclosed tokens opening}

def unopened (tokens : List Token) : Finset Nat :=
  {closing ∈ sites tokens .closeParen | Unopened tokens closing}

theorem mem_sites_iff {token : Token} :
    number ∈ sites tokens token ↔ tokens[number]? = some token := by
  simp only [sites, Finset.mem_filter, Finset.mem_range, and_iff_right_iff_imp]
  intro stands
  exact (List.getElem?_eq_some_iff.mp stands).1

theorem mem_unclosed_iff : opening ∈ unclosed tokens ↔ Unclosed tokens opening := by
  rw [unclosed, Finset.mem_filter, mem_sites_iff]
  exact and_iff_right_of_imp And.left

theorem mem_unopened_iff : closing ∈ unopened tokens ↔ Unopened tokens closing := by
  rw [unopened, Finset.mem_filter, mem_sites_iff]
  exact and_iff_right_of_imp And.left

theorem card_sites (tokens : List Token) (token : Token) :
    (sites tokens token).card = tokens.count token := by
  have entries : (List.range tokens.length).map (tokens[·]?) = tokens.map some := by
    apply List.ext_getElem <;> simp
  calc (sites tokens token).card
      = (List.range tokens.length).countP (tokens[·]? = some token) := by
        rw [sites, ← Nat.count_eq_card_filter_range, Nat.count]
    _ = ((List.range tokens.length).map (tokens[·]?)).count (some token) := by
        rw [List.count, List.countP_map]
        exact List.countP_congr (by simp)
    _ = tokens.count token := by
        rw [entries, List.count_map_of_injective _ _ (Option.some_injective _)]

theorem mem_openers_iff : opening ∈ sites tokens .openParen \ unclosed tokens ↔
    ∃ closing, Matches tokens opening closing := by
  rw [Finset.mem_sdiff, mem_unclosed_iff, mem_sites_iff, Unclosed, not_and, not_forall_not]
  constructor
  · rintro ⟨stands, paired⟩
    exact paired stands
  · rintro ⟨closing, pair⟩
    exact ⟨(matches_iff.mp pair).2.1, fun _ => ⟨closing, pair⟩⟩

theorem mem_closers_iff : closing ∈ sites tokens .closeParen \ unopened tokens ↔
    ∃ opening, Matches tokens opening closing := by
  rw [Finset.mem_sdiff, mem_unopened_iff, mem_sites_iff, Unopened, not_and, not_forall_not]
  constructor
  · rintro ⟨stands, paired⟩
    exact paired stands
  · rintro ⟨opening, pair⟩
    exact ⟨(matches_iff.mp pair).2.2.1, fun _ => ⟨opening, pair⟩⟩

/-- As many parentheses open a group that is closed as close one that is opened. -/
theorem card_openers (tokens : List Token) :
    (sites tokens .openParen \ unclosed tokens).card =
      (sites tokens .closeParen \ unopened tokens).card := by
  apply Nat.le_antisymm
  · refine Finset.card_le_card_of_forall_subsingleton (Matches tokens) ?_ ?_
    · intro opening member
      obtain ⟨closing, pair⟩ := mem_openers_iff.mp member
      exact ⟨closing, mem_closers_iff.mpr ⟨opening, pair⟩, pair⟩
    · rintro closing - first ⟨-, pair⟩ second ⟨-, found⟩
      exact pair.opening_unique found
  · refine Finset.card_le_card_of_forall_subsingleton' (Matches tokens) ?_ ?_
    · intro closing member
      obtain ⟨opening, pair⟩ := mem_closers_iff.mp member
      exact ⟨opening, mem_openers_iff.mpr ⟨closing, pair⟩, pair⟩
    · rintro opening - first ⟨-, pair⟩ second ⟨-, found⟩
      exact pair.closing_unique found

/-- The parentheses without a partner make up the difference between opening and closing ones. -/
theorem card_unclosed (tokens : List Token) :
    (unclosed tokens).card + tokens.count .closeParen =
      (unopened tokens).card + tokens.count .openParen := by
  have left : unclosed tokens ⊆ sites tokens .openParen := Finset.filter_subset _ _
  have right : unopened tokens ⊆ sites tokens .closeParen := Finset.filter_subset _ _
  have openers := Finset.card_sdiff_add_card_eq_card left
  have closers := Finset.card_sdiff_add_card_eq_card right
  rw [card_sites] at openers closers
  have paired := card_openers tokens
  omega

theorem Opened.unopened_eq_empty (opened : Opened tokens) : unopened tokens = ∅ := by
  rw [Finset.eq_empty_iff_forall_notMem]
  intro closing member
  obtain ⟨stands, alone⟩ := mem_unopened_iff.mp member
  obtain ⟨before, behind, rfl, rfl⟩ := getElem?_eq_some_iff_append.mp stands
  rcases closed_or_split before with
    closed | ⟨inside, between, rfl, closed⟩ | ⟨front, inside, rfl, closed⟩
  · exact opened.ne_closeParen closed rfl
  · exact opened.ne_closeParen closed (List.append_assoc _ _ _)
  · exact alone front.length ⟨front, inside, behind, rfl, closed, rfl, length_opened front inside⟩

end Condition.Bracket
