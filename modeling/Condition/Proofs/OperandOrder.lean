import Condition.Counting
import Condition.Proofs.Reachability
import Condition.Proofs.ScanExact

/-! Each value at hand was made from values in the text that stand side by side. What
is at hand is in the order of the text, so that is the order of all operands. -/

namespace Condition

def Lexeme.isValue (lexeme : Lexeme) : Bool := lexeme.token.value?.isSome

/-- A value, and the tokens of the text that it was made from. -/
structure Product where
  value : Value
  source : List Lexeme
deriving DecidableEq, Repr

def Lexeme.product? (lexeme : Lexeme) : Option Product :=
  lexeme.token.value?.map fun value => ⟨value, [lexeme]⟩

/-- A state that the evaluation of a scan comes to, with a record of what its values were made from,
the latest value first. An outcome is made from what its operands were made from. -/
inductive Recorded (scan : Scan) : List Lexeme → Machine → List Product → Prop where
  | start : Recorded scan scan.lexemes {} []
  | read (before : Recorded scan (lexeme :: unread) machine products)
      (inner : lexeme.token ≠ .closeParen) (stepped : machine.step lexeme = .ok next) :
      Recorded scan unread next (lexeme.product?.toList ++ products)
  | close (before : Recorded scan (lexeme :: unread) ⟨.group span :: waiting, operands⟩ products)
      (closing : lexeme.token = .closeParen) : Recorded scan unread ⟨waiting, operands⟩ products
  | apply (before : Recorded scan unread ⟨.operator operator span :: waiting, operands⟩
        (right :: left :: products))
      (due : scan.Due unread) (applied : operands.apply operator span = .ok next)
      (found : operator.apply left.value right.value = .ok outcome) :
      Recorded scan unread ⟨waiting, next⟩
        (⟨.outcome outcome, left.source ++ right.source⟩ :: products)

theorem Lexeme.map_value_product? (lexeme : Lexeme) :
    lexeme.product?.toList.map Product.value = lexeme.token.value?.toList := by
  rw [product?]
  cases lexeme.token.value? <;> rfl

theorem Lexeme.flatMap_source_product? (lexeme : Lexeme) :
    lexeme.product?.toList.flatMap Product.source = [lexeme].filter Lexeme.isValue := by
  cases stands : lexeme.token.value? <;> simp [product?, isValue, stands]

theorem Lexeme.source_ne_nil_of_product? {lexeme : Lexeme}
    (member : product ∈ lexeme.product?.toList) : product.source ≠ [] := by
  obtain ⟨value, -, rfl⟩ := Option.map_eq_some_iff.mp (Option.mem_toList.mp member)
  exact List.cons_ne_nil lexeme []

namespace Recorded

theorem reached (recorded : Recorded scan unread machine products) :
    Reached scan unread machine := by
  induction recorded with
  | start => exact .start
  | read _ inner stepped ih => exact ih.read inner stepped
  | close _ closing ih => exact ih.close closing
  | apply _ due applied _ ih => exact ih.apply due applied

theorem map_value (recorded : Recorded scan unread machine products) :
    products.map Product.value = machine.operands.values := by
  induction recorded with
  | start => rfl
  | @read lexeme _ _ products _ _ inner stepped ih =>
    rw [Machine.step_of_inner inner] at stepped
    cases stepped
    rw [List.map_append, lexeme.map_value_product?, ih]
  | close _ _ ih => exact ih
  | apply _ _ applied found ih =>
    obtain ⟨right, left, rest, outcome, values, result, rfl⟩ := Operands.apply_eq_ok_iff.mp applied
    rw [values, List.map_cons, List.map_cons] at ih
    obtain ⟨rfl, later⟩ := List.cons.inj ih
    obtain ⟨rfl, rfl⟩ := List.cons.inj later
    rw [Except.ok.inj (found.symm.trans result), List.map_cons]

theorem source_ne_nil (recorded : Recorded scan unread machine products) :
    ∀ product ∈ products, product.source ≠ [] := by
  induction recorded with
  | start => simp
  | read _ _ _ ih =>
    intro product member
    rcases List.mem_append.mp member with fresh | older
    · exact Lexeme.source_ne_nil_of_product? fresh
    · exact ih product older
  | close _ _ ih => exact ih
  | @apply _ _ _ _ _ right left products _ _ _ _ _ _ ih =>
    intro product member
    rcases List.mem_cons.mp member with rfl | older
    · exact List.append_ne_nil_of_left_ne_nil (ih left (by simp)) _
    · exact ih product (by simp [older])

/-- All values that are read are in the record, once each and in order. -/
theorem flatMap_source (recorded : Recorded scan unread machine products) :
    ∃ read, scan.lexemes = read ++ unread ∧
      products.reverse.flatMap Product.source = read.filter Lexeme.isValue := by
  induction recorded with
  | start => exact ⟨[], rfl, rfl⟩
  | @read lexeme unread _ products _ _ inner stepped ih =>
    obtain ⟨read, split, sources⟩ := ih
    have alone : lexeme.product?.toList.reverse = lexeme.product?.toList := by
      cases lexeme.product? <;> rfl
    refine ⟨read ++ [lexeme], by simp [split], ?_⟩
    rw [List.reverse_append, List.flatMap_append, sources, alone, lexeme.flatMap_source_product?,
      List.filter_append]
  | @close lexeme unread _ _ _ _ _ closing ih =>
    obtain ⟨read, split, sources⟩ := ih
    have plain : [lexeme].filter Lexeme.isValue = [] := by
      simp [Lexeme.isValue, Token.value?, closing]
    refine ⟨read ++ [lexeme], by simp [split], ?_⟩
    rw [sources, List.filter_append, plain, List.append_nil]
  | apply _ _ _ _ ih =>
    obtain ⟨read, split, sources⟩ := ih
    exact ⟨read, split, by simpa [List.flatMap_append] using sources⟩

theorem flatMap_source_of_append {passed : List Lexeme}
    (recorded : Recorded scan unread machine products) (split : scan.lexemes = passed ++ unread) :
    products.reverse.flatMap Product.source = passed.filter Lexeme.isValue := by
  obtain ⟨read, same, sources⟩ := recorded.flatMap_source
  rw [sources, List.append_cancel_right (split.symm.trans same)]

end Recorded

theorem Reached.recorded (reached : Reached scan unread machine) :
    ∃ products, Recorded scan unread machine products := by
  induction reached with
  | start => exact ⟨[], .start⟩
  | read _ inner stepped ih =>
    obtain ⟨products, recorded⟩ := ih
    exact ⟨_, recorded.read inner stepped⟩
  | close _ closing ih =>
    obtain ⟨products, recorded⟩ := ih
    exact ⟨products, recorded.close closing⟩
  | apply _ due applied ih =>
    obtain ⟨products, recorded⟩ := ih
    obtain ⟨right, left, rest, outcome, values, result, -⟩ := Operands.apply_eq_ok_iff.mp applied
    have shown := recorded.map_value
    rw [values] at shown
    obtain ⟨latest, earlier, rfl, rfl, below⟩ := List.map_eq_cons_iff.mp shown
    obtain ⟨second, earlier, rfl, rfl, -⟩ := List.map_eq_cons_iff.mp below
    exact ⟨_, recorded.apply due applied result⟩

theorem Scan.lexemes_ofText_ordered (text : List Char) :
    (Scan.ofText text).lexemes.Pairwise fun left right => left.span.Precedes right.span :=
  List.pairwise_map.mp (List.pairwise_append.mp (spans_ofText_ordered text)).1

/-- What the two latest values are made from are tokens of the scan, in its order. -/
theorem Recorded.sublist (recorded : Recorded scan unread machine (right :: left :: products)) :
    (left.source ++ right.source).Sublist scan.lexemes := by
  obtain ⟨read, split, sources⟩ := recorded.flatMap_source
  rw [List.reverse_cons, List.reverse_cons, List.append_assoc, List.flatMap_append] at sources
  have latest : (left.source ++ right.source).Sublist (read.filter Lexeme.isValue) := by
    rw [← sources]
    simp
  rw [split]
  exact (latest.trans List.filter_sublist).trans (List.sublist_append_left read unread)

/-- How the values of a scan are made into operands. -/
structure KeepsOrder (scan : Scan) : Prop where
  recorded : ∀ unread machine,
    Reached scan unread machine ↔ ∃ products, Recorded scan unread machine products
  /-- The values at hand are made from the values that are read, one stretch after the other. -/
  sources : ∀ unread machine products, Recorded scan unread machine products →
    products.map Product.value = machine.operands.values ∧
      (∀ product ∈ products, product.source ≠ []) ∧
      ∃ read, scan.lexemes = read ++ unread ∧
        products.reverse.flatMap Product.source = read.filter Lexeme.isValue
  /-- What a left operand is made from comes before what the right one is made from. -/
  operands : ∀ unread machine right left products,
    Recorded scan unread machine (right :: left :: products) →
      (left.source ++ right.source).Sublist scan.lexemes
  /-- In a text that is an order of places. -/
  places : ∀ text, scan = Scan.ofText text → ∀ unread machine right left products,
    Recorded scan unread machine (right :: left :: products) →
      ∀ first ∈ left.source, ∀ second ∈ right.source, first.span.Precedes second.span
  /-- Whatever comes later, a record is kept of the values behind the tokens that are read. -/
  between : ∀ count machine, Machine.feed {} (scan.lexemes.take count) = .ok machine →
    ∃ products, Recorded scan (scan.lexemes.drop count) machine products ∧
      products.reverse.flatMap Product.source = (scan.lexemes.take count).filter Lexeme.isValue
  /-- A fault is found in a state with a record, and the applications before it are those of that
  state. -/
  broken : ∀ halt, Evaluation.operands scan = .error halt →
    ∃ unread machine products, Recorded scan unread machine products ∧
      Stops scan unread machine halt.fault ∧ halt.applications = machine.operands.applications
  /-- Nothing is lost until the result is taken from the values that are left. -/
  whole : ∀ operands, Evaluation.operands scan = .ok operands →
    ∃ products, Recorded scan [] ⟨[], operands⟩ products ∧
      products.reverse.flatMap Product.source = scan.lexemes.filter Lexeme.isValue

/-- The order of the values that are read is kept by all that is made from them. -/
theorem keepsOrder (scan : Scan) : KeepsOrder scan where
  recorded _ _ := ⟨Reached.recorded, fun ⟨_, recorded⟩ => recorded.reached⟩
  sources _ _ _ recorded := ⟨recorded.map_value, recorded.source_ne_nil, recorded.flatMap_source⟩
  operands _ _ _ _ _ := Recorded.sublist
  places text same _ _ _ _ _ recorded := by
    have ordered := Scan.lexemes_ofText_ordered text
    rw [← same] at ordered
    exact (List.pairwise_append.mp (ordered.sublist recorded.sublist)).2.2
  between count machine fed := by
    obtain ⟨products, recorded⟩ := (Reached.of_feed_take count fed).recorded
    have split := (List.take_append_drop count scan.lexemes).symm
    exact ⟨products, recorded, recorded.flatMap_source_of_append split⟩
  broken halt halted := by
    have ends := Evaluation.operands_ends scan
    rw [halted] at ends
    obtain ⟨unread, machine, reached, stops, made⟩ := ends
    obtain ⟨products, recorded⟩ := reached.recorded
    exact ⟨unread, machine, products, recorded, stops, made⟩
  whole operands settled := by
    have ends := Evaluation.operands_ends scan
    rw [settled] at ends
    obtain ⟨products, recorded⟩ := ends.2.recorded
    have split := (List.append_nil scan.lexemes).symm
    exact ⟨products, recorded, recorded.flatMap_source_of_append split⟩

end Condition
