import Condition.Bracket
import Mathlib.Data.List.Infix

/-! Parentheses that belong together. Counting them tells that no two of them belong
to the same one, and that the ones in a group belong to each other. -/

namespace Condition.Bracket

instance (tokens : List Token) : Decidable (Opened tokens) :=
  decidable_of_iff (∀ front ∈ tokens.inits, front.count .closeParen ≤ front.count .openParen)
    (by simp only [Opened, List.mem_inits])

instance (tokens : List Token) : Decidable (Balanced tokens) := inferInstanceAs (Decidable (_ ∧ _))

/-- What opened tokens look like behind some open groups, and how many groups they leave open. -/
structure Nested (depth : Nat) (tokens : List Token) (unclosed : Nat) : Prop where
  within : ∀ front, front <+: tokens → front.count .closeParen ≤ depth + front.count .openParen
  left : tokens.count .closeParen + unclosed = depth + tokens.count .openParen

theorem Opened.nested (opened : Opened tokens) :
    Nested 0 tokens (tokens.count .openParen - tokens.count .closeParen) where
  within front prior := by
    have bound := opened front prior
    omega
  left := by
    have bound := opened tokens (List.prefix_refl tokens)
    omega

namespace Nested

variable {depth unclosed : Nat} {tokens : List Token} {token : Token}

theorem unclosed_eq (nested : Nested depth [] unclosed) : unclosed = depth := by
  have left := nested.left
  simp only [List.count_nil] at left
  omega

theorem cons_iff (fits : [token].count .closeParen ≤ depth + [token].count .openParen) :
    Nested depth (token :: tokens) unclosed ↔
      Nested (depth + [token].count .openParen - [token].count .closeParen) tokens unclosed := by
  have counted (kind : Token) (front : List Token) :
      (token :: front).count kind = [token].count kind + front.count kind := by
    rw [← List.count_append, List.singleton_append]
  constructor
  · intro nested
    refine ⟨fun front prior => ?_, ?_⟩
    · have bound := nested.within _ (List.cons_prefix_cons.mpr ⟨rfl, prior⟩)
      rw [counted _ front, counted _ front] at bound
      omega
    · have left := nested.left
      rw [counted _ tokens, counted _ tokens] at left
      omega
  · intro nested
    refine ⟨fun front prior => ?_, ?_⟩
    · rcases List.prefix_cons_iff.mp prior with rfl | ⟨later, rfl, earlier⟩
      · exact Nat.zero_le _
      · have bound := nested.within later earlier
        rw [counted _ later, counted _ later]
        omega
    · have left := nested.left
      rw [counted _ tokens, counted _ tokens]
      omega

theorem open_iff :
    Nested depth (.openParen :: tokens) unclosed ↔ Nested (depth + 1) tokens unclosed :=
  cons_iff (Nat.zero_le _)

theorem close_iff :
    Nested (depth + 1) (.closeParen :: tokens) unclosed ↔ Nested depth tokens unclosed :=
  cons_iff (Nat.le_add_left 1 depth)

theorem inner_iff (inner : isInner token = true) :
    Nested depth (token :: tokens) unclosed ↔ Nested depth tokens unclosed := by
  have counts : [token].count .openParen = 0 ∧ [token].count .closeParen = 0 := by
    cases token with
    | openParen => cases inner
    | closeParen => cases inner
    | _ => exact ⟨rfl, rfl⟩
  have fits : [token].count .closeParen ≤ depth + [token].count .openParen := by omega
  rw [cons_iff fits, counts.1, counts.2]
  rfl

theorem of_close (nested : Nested depth (.closeParen :: tokens) unclosed) :
    ∃ outer, depth = outer + 1 ∧ Nested outer tokens unclosed := by
  have positive : 1 ≤ depth := nested.within [.closeParen] ⟨tokens, rfl⟩
  obtain ⟨outer, rfl⟩ := Nat.exists_eq_add_of_le' positive
  exact ⟨outer, rfl, close_iff.mp nested⟩

theorem append_closed (nested : Nested depth tokens unclosed) (closed : Closed front) :
    Nested depth (front ++ tokens) unclosed := by
  induction closed generalizing depth tokens with
  | nil => exact nested
  | inner token plain _ ih => exact (inner_iff plain).mpr (ih nested)
  | group inside rest inner outer =>
    simp only [List.cons_append, List.append_assoc]
    exact open_iff.mpr (inner (close_iff.mpr (outer nested)))

end Nested

theorem Closed.balanced (closed : Closed tokens) : Balanced tokens := by
  have nothing : Nested 0 [] 0 := ⟨fun front prior => by simp [List.prefix_nil.mp prior], rfl⟩
  have nested := nothing.append_closed closed
  rw [List.append_nil] at nested
  exact ⟨fun front prior => by simpa using nested.within front prior, by simpa using nested.left⟩

variable {tokens before behind inside front : List Token}

theorem getElem?_eq_some_iff_append {list : List α} :
    list[number]? = some item ↔
      ∃ before behind, list = before ++ item :: behind ∧ number = before.length := by
  constructor
  · intro stands
    obtain ⟨inside, rfl⟩ := List.getElem?_eq_some_iff.mp stands
    refine ⟨list.take number, list.drop (number + 1), ?_, by simp [Nat.le_of_lt inside]⟩
    rw [List.getElem_cons_drop, List.take_append_drop]
  · rintro ⟨before, behind, rfl, rfl⟩
    simp

theorem Opened.not_closed (opened : Opened inside) : ¬ Closed (before ++ .openParen :: inside) := by
  intro closed
  obtain ⟨bounds, same⟩ := closed.balanced
  have early := bounds before (List.prefix_append _ _)
  have late := opened inside (List.prefix_refl _)
  simp only [List.count_append, List.count_cons_self,
    List.count_cons_of_ne (show Token.openParen ≠ .closeParen by decide)] at same
  omega

/-- Closed tokens close no group that they do not open. -/
theorem Closed.not_prefix (closed : Closed tokens) (closedFront : Closed front) :
    ¬ front ++ [.closeParen] <+: tokens := by
  intro prior
  have bound := closed.balanced.1 _ prior
  have same := closedFront.balanced.2
  have opens : [Token.closeParen].count .openParen = 0 := rfl
  have closes : [Token.closeParen].count .closeParen = 1 := rfl
  rw [List.count_append, List.count_append] at bound
  omega

namespace Matches

/-- What belongs together in some tokens does so wherever they stand. -/
theorem within (pair : Matches inside opening closing) (before behind : List Token) :
    Matches (before ++ (inside ++ behind)) (before.length + opening) (before.length + closing) := by
  obtain ⟨left, inner, right, rfl, closed, rfl, rfl⟩ := pair
  exact ⟨before ++ left, inner, right ++ behind, by simp, closed, by simp, by simp [Nat.add_assoc]⟩

end Matches

/-- Where a token of a group and of what follows it stands. -/
inductive Place (front back : List Token) : List Token → Token → List Token → Prop where
  | opening : Place front back [] .openParen (front ++ .closeParen :: back)
  | inside (split : front = left ++ token :: right) :
      Place front back (.openParen :: left) token (right ++ .closeParen :: back)
  | closing : Place front back (.openParen :: front) .closeParen back
  | behind (split : back = left ++ token :: right) :
      Place front back (.openParen :: front ++ .closeParen :: left) token right

theorem Place.of_split {back : List Token}
    (split : .openParen :: front ++ .closeParen :: back = before ++ token :: behind) :
    Place front back before token behind := by
  rw [List.cons_append] at split
  rcases List.cons_eq_append_iff.mp split with ⟨rfl, same⟩ | ⟨later, rfl, rest⟩
  · cases same
    exact .opening
  · rcases List.append_eq_append_iff.mp rest with ⟨between, rfl, same⟩ | ⟨between, rfl, same⟩
    · rcases List.cons_eq_append_iff.mp same with ⟨rfl, same⟩ | ⟨others, rfl, rfl⟩
      · cases same
        simpa using Place.closing
      · exact .behind rfl
    · rcases List.cons_eq_append_iff.mp same with ⟨rfl, same⟩ | ⟨others, rfl, rfl⟩
      · cases same
        simpa using Place.closing
      · exact .inside rfl

/-- What an opening parenthesis among closed tokens belongs to. -/
theorem Closed.closed_behind (closed : Closed tokens)
    (split : tokens = before ++ .openParen :: behind) :
    ∃ inside rest, behind = inside ++ .closeParen :: rest ∧ Closed inside := by
  induction closed generalizing before behind with
  | nil => simp at split
  | inner token plain _ ih =>
    rcases List.cons_eq_append_iff.mp split with ⟨rfl, same⟩ | ⟨later, rfl, rest⟩
    · cases same
      cases plain
    · exact ih rest
  | @group front back closed _ within outside =>
    cases Place.of_split split with
    | opening => exact ⟨front, back, rfl, closed⟩
    | inside found =>
      obtain ⟨inner, rest, rfl, closed⟩ := within found
      exact ⟨inner, rest ++ .closeParen :: back, by simp, closed⟩
    | behind found => exact outside found

/-- What a closing parenthesis among closed tokens belongs to. -/
theorem Closed.closed_before (closed : Closed tokens)
    (split : tokens = before ++ .closeParen :: behind) :
    ∃ rest inside, before = rest ++ .openParen :: inside ∧ Closed inside := by
  induction closed generalizing before behind with
  | nil => simp at split
  | inner token plain _ ih =>
    rcases List.cons_eq_append_iff.mp split with ⟨rfl, same⟩ | ⟨later, rfl, rest⟩
    · cases same
      cases plain
    · obtain ⟨more, inside, rfl, closed⟩ := ih rest
      exact ⟨token :: more, inside, rfl, closed⟩
  | @group front back closed _ within outside =>
    cases Place.of_split split with
    | inside found =>
      obtain ⟨rest, inner, rfl, closed⟩ := within found
      exact ⟨.openParen :: rest, inner, rfl, closed⟩
    | closing => exact ⟨[], front, rfl, closed⟩
    | behind found =>
      obtain ⟨rest, inner, rfl, closed⟩ := outside found
      exact ⟨.openParen :: front ++ .closeParen :: rest, inner, by simp, closed⟩

theorem length_opened (before inside : List Token) :
    (before ++ .openParen :: inside).length = before.length + 1 + inside.length := by
  rw [List.length_append, List.length_cons, Nat.add_assoc, Nat.add_comm 1]

theorem Closed.exists_closing (closed : Closed tokens)
    (stands : tokens[opening]? = some .openParen) :
    ∃ closing, Matches tokens opening closing := by
  obtain ⟨before, behind, rfl, rfl⟩ := getElem?_eq_some_iff_append.mp stands
  obtain ⟨inside, rest, rfl, inner⟩ := closed.closed_behind rfl
  exact ⟨_, before, inside, rest, by simp, inner, rfl, rfl⟩

theorem Closed.exists_opening (closed : Closed tokens)
    (stands : tokens[closing]? = some .closeParen) :
    ∃ opening, Matches tokens opening closing := by
  obtain ⟨before, behind, rfl, rfl⟩ := getElem?_eq_some_iff_append.mp stands
  obtain ⟨rest, inside, rfl, inner⟩ := closed.closed_before rfl
  exact ⟨rest.length, rest, inside, behind, rfl, inner, rfl, length_opened rest inside⟩

/-- A closing parenthesis behind closed tokens is the first that closes no group. -/
theorem Closed.first_unopened (closed : Closed before) (behind : List Token) :
    Unopened (before ++ .closeParen :: behind) before.length ∧
      ∀ other, Unopened (before ++ .closeParen :: behind) other → before.length ≤ other := by
  refine ⟨⟨by simp, ?_⟩, ?_⟩
  · rintro opening ⟨left, inner, right, split, enclosed, -, ends⟩
    have width : before.length = (left ++ .openParen :: inner).length := by
      rw [ends, length_opened]
    obtain ⟨rfl, -⟩ := List.append_inj split width
    exact enclosed.balanced.1.not_closed closed
  · rintro other ⟨stands, unopened⟩
    by_contra early
    rw [List.getElem?_append_left (Nat.lt_of_not_le early)] at stands
    obtain ⟨opening, pair⟩ := closed.exists_opening stands
    have pair := pair.within [] (.closeParen :: behind)
    simp only [List.nil_append, List.length_nil, Nat.zero_add] at pair
    exact unopened opening pair

/-- An opening parenthesis in front of closed tokens is the last that opens a group no other one
closes. -/
theorem Closed.last_unclosed (closed : Closed inside) (before : List Token) :
    Unclosed (before ++ .openParen :: inside) before.length ∧
      ∀ other, Unclosed (before ++ .openParen :: inside) other → other ≤ before.length := by
  refine ⟨⟨by simp, ?_⟩, ?_⟩
  · rintro closing ⟨left, inner, right, split, enclosed, starts, -⟩
    rw [List.append_assoc] at split
    obtain ⟨rfl, same⟩ := List.append_inj split starts
    cases same
    exact closed.not_prefix enclosed ⟨right, by simp⟩
  · rintro other ⟨stands, unclosed⟩
    by_contra late
    obtain ⟨site, rfl⟩ := Nat.exists_eq_add_of_lt (Nat.lt_of_not_le late)
    have found : inside[site]? = some .openParen := by
      rwa [Nat.add_assoc, List.getElem?_append_right (Nat.le_add_right _ _),
        Nat.add_sub_cancel_left] at stands
    obtain ⟨closing, pair⟩ := closed.exists_closing found
    have pair := pair.within (before ++ [.openParen]) []
    have width : (before ++ [Token.openParen]).length + site = before.length + site + 1 := by
      rw [List.length_append, List.length_singleton]
      omega
    rw [width, List.append_nil, List.append_assoc] at pair
    exact unclosed _ pair

theorem Closed.before_or_enclosed (closed : Closed tokens) (plain : isInner token = true)
    (split : tokens = before ++ token :: behind) :
    Closed before ∨ ∃ front left right back, before = front ++ .openParen :: left ∧
      behind = right ++ .closeParen :: back ∧ Closed (left ++ token :: right) := by
  induction closed generalizing before behind with
  | nil => simp at split
  | inner other plain' _ ih =>
    rcases List.cons_eq_append_iff.mp split with ⟨rfl, -⟩ | ⟨later, rfl, rest⟩
    · exact .inl .nil
    · rcases ih rest with closed | ⟨front, left, right, back, rfl, rfl, closed⟩
      · exact .inl (.inner other plain' closed)
      · exact .inr ⟨other :: front, left, right, back, rfl, rfl, closed⟩
  | @group front back closed _ _ outside =>
    cases Place.of_split split with
    | opening => cases plain
    | closing => cases plain
    | @inside left _ right found =>
      exact .inr ⟨[], left, right, back, rfl, rfl, by rwa [← found]⟩
    | @behind left _ _ found =>
      rcases outside found with closed' | ⟨earlier, left, right, later, rfl, rfl, closed'⟩
      · exact .inl (.group closed closed')
      · exact .inr ⟨.openParen :: front ++ .closeParen :: earlier, left, right, later,
          by simp, rfl, closed'⟩

theorem Matches.closing_lt (pair : Matches (before ++ (inside ++ behind)) opening closing)
    (closed : Closed inside) (after : before.length ≤ opening)
    (early : opening < before.length + inside.length) :
    closing < before.length + inside.length := by
  obtain ⟨left, inner, right, split, enclosed, rfl, rfl⟩ := pair
  by_contra late
  -- All of the closed tokens but those in front of the pair would stand in it.
  have outer : before <+: left :=
    List.prefix_of_prefix_length_le ⟨_, rfl⟩ ⟨_, by rw [split, List.append_assoc]⟩ after
  obtain ⟨first, rfl⟩ := outer
  have rest : inside ++ behind = first ++ .openParen :: inner ++ .closeParen :: right := by
    simpa using split
  have enters : first ++ [.openParen] <+: inside :=
    List.prefix_of_prefix_length_le ⟨inner ++ .closeParen :: right, by simp [rest]⟩ ⟨behind, rfl⟩
      (by simp only [List.length_append, List.length_singleton] at early ⊢; omega)
  obtain ⟨second, rfl⟩ := enters
  have within : second <+: inner := by
    have within : first ++ [.openParen] ++ second <+: first ++ [.openParen] ++ inner :=
      List.prefix_of_prefix_length_le ⟨behind, rfl⟩ ⟨.closeParen :: right, by simpa using rest.symm⟩
        (by simp only [List.length_append, List.length_singleton] at late ⊢; omega)
    exact (List.prefix_append_right_inj _).mp within
  have opened : Opened second := fun front prior => enclosed.balanced.1 front (prior.trans within)
  exact opened.not_closed (by simpa using closed)

/-- An operator that has only closed tokens in front. -/
def Exposed (tokens : List Token) (number : Nat) : Prop :=
  ∃ before operator behind, tokens = before ++ .operator operator :: behind ∧ Closed before ∧
    number = before.length

theorem Exposed.lt (exposed : Exposed tokens number) : number < tokens.length := by
  obtain ⟨before, operator, behind, rfl, -, rfl⟩ := exposed
  simp

theorem exposed_concat_iff (closed : Closed tokens) :
    Exposed (tokens ++ [token]) number ↔
      Exposed tokens number ∨
        ((∃ operator, token = .operator operator) ∧ number = tokens.length) := by
  constructor
  · rintro ⟨before, operator, behind, split, closedBefore, rfl⟩
    rcases List.eq_nil_or_concat' behind with rfl | ⟨others, last, rfl⟩
    · obtain ⟨rfl, same⟩ := List.append_inj' split rfl
      cases same
      exact .inr ⟨⟨operator, rfl⟩, rfl⟩
    · rw [← List.cons_append, ← List.append_assoc] at split
      obtain ⟨rfl, -⟩ := List.append_inj' split rfl
      exact .inl ⟨before, operator, others, rfl, closedBefore, rfl⟩
  · rintro (⟨before, operator, behind, rfl, closedBefore, rfl⟩ | ⟨⟨operator, rfl⟩, rfl⟩)
    · exact ⟨before, operator, behind ++ [token], by simp, closedBefore, rfl⟩
    · exact ⟨tokens, operator, [], rfl, closed, rfl⟩

theorem exposed_group_iff (closed : Closed inside) :
    Exposed (tokens ++ (.openParen :: inside ++ [.closeParen])) number ↔ Exposed tokens number := by
  constructor
  · rintro ⟨before, operator, behind, split, closedBefore, rfl⟩
    rcases List.append_eq_append_iff.mp split with ⟨within, rfl, same⟩ | ⟨rest, rfl, same⟩
    · cases Place.of_split same with
      | @inside left _ right found =>
        have opened : Opened left := fun front prior =>
          closed.balanced.1 front (prior.trans ⟨_, found.symm⟩)
        exact absurd closedBefore opened.not_closed
      | behind found => simp at found
    · rcases List.cons_eq_append_iff.mp same with ⟨rfl, same⟩ | ⟨others, rfl, -⟩
      · cases same
      · exact ⟨before, operator, others, rfl, closedBefore, rfl⟩
  · rintro ⟨before, operator, behind, rfl, closedBefore, rfl⟩
    exact ⟨before, operator, behind ++ (.openParen :: inside ++ [.closeParen]), by simp,
      closedBefore, rfl⟩

/-- The operators directly in a group are those exposed behind its opening parenthesis. -/
theorem direct_iff (closed : Closed inside)
    (split : tokens = before ++ .openParen :: inside ++ .closeParen :: behind) :
    Direct tokens before.length (before.length + 1 + inside.length) number ↔
      ∃ site, Exposed inside site ∧ number = before.length + 1 + site := by
  have around : tokens = before ++ [.openParen] ++ (inside ++ .closeParen :: behind) := by
    simp [split]
  have width : (before ++ [Token.openParen]).length = before.length + 1 := by simp
  constructor
  · rintro ⟨after, early, ⟨operator, stands⟩, direct⟩
    obtain ⟨site, rfl⟩ := Nat.exists_eq_add_of_le (Nat.succ_le_of_lt after)
    have found : inside[site]? = some (.operator operator) := by
      rw [around, List.getElem?_append_right (by omega), width, Nat.succ_eq_add_one,
        Nat.add_sub_cancel_left, List.getElem?_append_left (by omega)] at stands
      exact stands
    obtain ⟨left, right, rfl, rfl⟩ := getElem?_eq_some_iff_append.mp found
    rcases closed.before_or_enclosed rfl rfl with
      exposed | ⟨front, first, second, back, rfl, rfl, inner⟩
    · exact ⟨left.length, ⟨left, operator, right, rfl, exposed, rfl⟩, rfl⟩
    · -- The operator would stand in a group of the inside.
      have pair : Matches (front ++ .openParen :: first ++ .operator operator ::
          (second ++ .closeParen :: back)) front.length
          (front.length + 1 + (first ++ .operator operator :: second).length) :=
        ⟨front, _, back, by simp, inner, rfl, rfl⟩
      have pair := pair.within (before ++ [.openParen]) (.closeParen :: behind)
      rw [← around, width] at pair
      simp only [List.length_append, List.length_cons] at pair early direct
      exact absurd ⟨by omega, by omega⟩ (direct _ _ pair (by omega) (by omega))
  · rintro ⟨_, ⟨left, operator, right, rfl, exposed, rfl⟩, rfl⟩
    have stands : tokens[before.length + 1 + left.length]? = some (.operator operator) :=
      getElem?_eq_some_iff_append.mpr ⟨before ++ .openParen :: left, right ++ .closeParen :: behind,
        by simp [split], by simp only [List.length_append, List.length_cons]; omega⟩
    refine ⟨by omega, by simp only [List.length_append, List.length_cons]; omega,
      ⟨operator, stands⟩, ?_⟩
    rintro inner outer pair after - ⟨earlier, later⟩
    have pair' : Matches ((before ++ [.openParen]) ++ (left ++
        (.operator operator :: right ++ .closeParen :: behind))) inner outer := by
      simpa [split] using pair
    have ends := pair'.closing_lt exposed (by omega) (by omega)
    omega

end Condition.Bracket
