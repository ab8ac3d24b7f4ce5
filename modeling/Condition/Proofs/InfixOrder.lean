import Condition.Infix

namespace Condition

/-- What becomes of some operators, tried in order, and of the value that they lead to. -/
inductive Resolved (sites : List Site) : Option Value → Except Refusal Value → Prop where
  | value (free : ∀ site ∈ sites, site.refusal? = none) : Resolved sites (some value) (.ok value)
  | refused (first : sites.findSome? Site.refusal? = some refusal) :
      Resolved sites none (.error refusal)

theorem Chain.sites_join (start : Nat) (left : Operand) (operator : Operator) (rest : Chain) :
    Chain.sites start (.join left operator rest) =
      left.sites start ++ (rest.sites (start + left.tokens.length + 1) ++
        [⟨start + left.tokens.length, left, operator, rest⟩]) := by
  simp only [Chain.sites, Chain.inside, Chain.direct, List.append_assoc]

/-- Where the second part depends on the value of the first, its operators come later. -/
theorem Resolved.bind (first : Resolved before value? result)
    (next : ∀ value, value? = some value → Resolved after (following value) (later value)) :
    Resolved (before ++ after) (value? >>= following) (result >>= later) := by
  cases first with
  | refused first =>
    apply Resolved.refused
    rw [List.findSome?_append, first]
    rfl
  | @value value free =>
    have rest := next value rfl
    change Resolved _ (following value) (later value)
    generalize following value = value?, later value = result at rest
    cases rest with
    | refused second =>
      apply Resolved.refused
      rw [List.findSome?_append, List.findSome?_eq_none_iff.mpr free, second]
      rfl
    | value others =>
      apply Resolved.value
      intro site member
      cases List.mem_append.mp member with
      | inl early => exact free site early
      | inr late => exact others site late

theorem Site.resolved (site : Site) (left : site.left.value? = some first)
    (right : site.right.value? = some second) :
    Resolved [site]
      ((site.operator.apply first second).toOption >>= fun outcome => some (.outcome outcome))
      ((site.operator.apply first second).mapError (Refusal.mk site.index) >>=
        fun outcome => .ok (.outcome outcome)) := by
  cases applied : site.operator.apply first second with
  | ok outcome =>
    apply Resolved.value
    simp only [List.mem_singleton, forall_eq, Site.refusal?, left, right, applied]
  | error cause =>
    apply Resolved.refused
    simp only [List.findSome?_singleton, Site.refusal?, left, right, applied]

mutual

theorem Operand.resolved (start : Nat) (operand : Operand) :
    Resolved (operand.sites start) operand.value? (operand.value start) := by
  cases operand with
  | integer digits => exact .value (by simp [Operand.sites])
  | boolean flag => exact .value (by simp [Operand.sites])
  | group chain => exact chain.resolved (start + 1)

/-- The value of a chain, or the first of its operators in order that refuses its operands. -/
theorem Chain.resolved (start : Nat) (chain : Chain) :
    Resolved (chain.sites start) chain.value? (chain.value start) := by
  cases chain with
  | single operand =>
    rw [Chain.sites, Chain.inside, Chain.direct, List.append_nil]
    exact operand.resolved start
  | join left operator rest =>
    rw [Chain.sites_join]
    apply (left.resolved start).bind
    intro first leftValue
    apply (rest.resolved _).bind
    intro second restValue
    exact Site.resolved ⟨_, left, operator, rest⟩ leftValue restValue

end

/-- An operator among some tokens, at a place where it stands. -/
def Site.StandsIn (tokens : List Token) (start : Nat) (site : Site) : Prop :=
  ∃ before after, tokens = before ++ .operator site.operator :: after ∧
    site.index = start + before.length

theorem Site.index_of_refusal {site : Site} {refusal : Refusal}
    (refuses : site.refusal? = some refusal) : refusal.index = site.index := by
  unfold Site.refusal? at refuses
  split at refuses
  · split at refuses
    · cases refuses
    · cases refuses
      rfl
  · cases refuses

mutual

theorem Operand.standsIn {start : Nat} {operand : Operand} {site : Site}
    (member : site ∈ operand.sites start) : site.StandsIn operand.tokens start := by
  cases operand with
  | integer digits => simp [Operand.sites] at member
  | boolean flag => simp [Operand.sites] at member
  | group chain =>
    have inner : site ∈ chain.sites (start + 1) := member
    obtain ⟨before, after, tokens, index⟩ := chain.standsIn inner
    refine ⟨.openParen :: before, after ++ [.closeParen], ?_, ?_⟩
    · simp [Operand.tokens, tokens]
    · rw [index, List.length_cons]
      omega

theorem Chain.standsIn {start : Nat} {chain : Chain} {site : Site}
    (member : site ∈ chain.sites start) : site.StandsIn chain.tokens start := by
  cases chain with
  | single operand =>
    rw [Chain.sites, Chain.inside, Chain.direct, List.append_nil] at member
    exact operand.standsIn member
  | join left operator rest =>
    rw [Chain.sites_join] at member
    rcases List.mem_append.mp member with early | late
    · obtain ⟨before, after, tokens, index⟩ := left.standsIn early
      exact ⟨before, after ++ .operator operator :: rest.tokens, by simp [Chain.tokens, tokens], index⟩
    rcases List.mem_append.mp late with middle | last
    · obtain ⟨before, after, tokens, index⟩ := rest.standsIn middle
      refine ⟨left.tokens ++ .operator operator :: before, after, by simp [Chain.tokens, tokens], ?_⟩
      simp only [index, List.length_append, List.length_cons]
      omega
    · obtain rfl := List.mem_singleton.mp last
      exact ⟨left.tokens, rest.tokens, rfl, rfl⟩

end

mutual

theorem Operand.lone?_eq_some_iff {operand : Operand} {digits : List Char} :
    operand.lone? = some digits ↔ operand.value? = some (.digits digits) := by
  cases operand with
  | integer text => simp [Operand.lone?, Operand.value?]
  | boolean flag => simp [Operand.lone?, Operand.value?]
  | group chain => exact chain.lone?_eq_some_iff

theorem Chain.lone?_eq_some_iff {chain : Chain} {digits : List Char} :
    chain.lone? = some digits ↔ chain.value? = some (.digits digits) := by
  cases chain with
  | single operand => exact operand.lone?_eq_some_iff
  | join left operator rest =>
    simp [Chain.lone?, Chain.value?, Option.bind_eq_some_iff]

end

end Condition
