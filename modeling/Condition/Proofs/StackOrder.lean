import Condition.Proofs.CursorScan
import Condition.Proofs.FaultPlace
import Condition.Proofs.NumeralReading
import Condition.Proofs.OperandOrder

namespace Condition

namespace Cursor

/-- The cursor behind some calls of `next`. -/
def after (cursor : Cursor) : Nat → Cursor
  | 0 => cursor
  | calls + 1 => cursor.next.2.after calls

theorem next_offset (cursor : Cursor) :
    cursor.offset ≤ cursor.next.2.offset ∧
      ∀ lexeme, cursor.next.1 = some (.ok lexeme) → lexeme.span.stop = cursor.next.2.offset := by
  have skipped : cursor.offset ≤ cursor.skipSpaces.offset := Nat.le_add_right _ _
  unfold next
  generalize cursor.skipSpaces = start at skipped ⊢
  obtain ⟨offset, unread⟩ := start
  cases unread with
  | nil => exact ⟨skipped, nofun⟩
  | cons char rest =>
    have behind (size : Nat) : cursor.offset ≤ (Span.mk offset size).stop :=
      Nat.le_trans skipped (Nat.le_add_right _ _)
    have found (span : Span) (token : Token) (lexeme : Lexeme)
        (same : (some (.ok ⟨span, token⟩) : Option (Except Span Lexeme)) = some (.ok lexeme)) :
        lexeme.span.stop = span.stop := by
      cases same
      rfl
    dsimp only
    split
    · exact ⟨behind _, found _ _⟩
    · exact ⟨behind _, found _ _⟩
    · exact ⟨behind _, found _ _⟩
    · split
      · exact ⟨behind _, found _ _⟩
      · exact ⟨behind _, nofun⟩

theorem offset_le_after (cursor : Cursor) (calls : Nat) :
    cursor.offset ≤ (cursor.after calls).offset := by
  induction calls generalizing cursor with
  | zero => exact Nat.le_refl _
  | succ calls ih => exact Nat.le_trans cursor.next_offset.1 (ih cursor.next.2)

theorem stop_le_after (cursor : Cursor) (found : cursor.call earlier = some (.ok lexeme))
    (calls : earlier < count) : lexeme.span.stop ≤ (cursor.after count).offset := by
  induction count generalizing cursor earlier with
  | zero => exact absurd calls (Nat.not_lt_zero earlier)
  | succ count ih =>
    cases earlier with
    | zero =>
      rw [cursor.next_offset.2 lexeme found]
      exact offset_le_after cursor.next.2 count
    | succ earlier => exact ih cursor.next.2 found (Nat.lt_of_succ_lt_succ calls)

theorem stop_le_after_ofText (member : lexeme ∈ (Scan.ofText text).lexemes.take count) :
    lexeme.span.stop ≤ ((ofText text).after count).offset := by
  obtain ⟨index, inside, found⟩ := List.mem_take_iff_getElem.mp member
  have bound := Nat.lt_min.mp inside
  refine stop_le_after (ofText text) ?_ bound.1
  rw [(call_ofText_exact text).2, Scan.items, List.getElem?_append_left (by simpa using bound.2),
    List.getElem?_map, List.getElem?_eq_getElem bound.2, found]
  rfl

end Cursor

/-- What waits was seen in this order, and the integers at hand were seen too. -/
structure Held (seen : List Lexeme) (machine : Machine) : Prop where
  stack : (machine.waiting.map Waiting.lexeme).reverse.Sublist seen
  integers : ∀ digits, .digits digits ∈ machine.operands.values →
    ∃ span, ⟨span, .integer digits⟩ ∈ seen

theorem Lexeme.lexeme_waiting? {lexeme : Lexeme} (waits : lexeme.waiting? = some entry) :
    entry.lexeme = lexeme := by
  obtain ⟨span, token⟩ := lexeme
  cases token <;> cases waits <;> rfl

theorem Token.eq_integer_of_value? {token : Token} (stands : token.value? = some (.digits digits)) :
    token = .integer digits := by
  cases token <;> cases stands
  rfl

namespace Held

variable {seen : List Lexeme} {waiting : List Waiting} {operands : Operands}

theorem mono {machine : Machine} (held : Held seen machine) (later : seen.Sublist more) :
    Held more machine where
  stack := held.stack.trans later
  integers digits member := by
    obtain ⟨span, inside⟩ := held.integers digits member
    exact ⟨span, later.subset inside⟩

theorem read {machine next : Machine} (held : Held seen machine)
    (inner : lexeme.token ≠ .closeParen) (stepped : machine.step lexeme = .ok next) :
    Held (seen ++ [lexeme]) next := by
  rw [Machine.step_of_inner inner] at stepped
  cases stepped
  refine ⟨?_, fun digits member => ?_⟩
  · rw [List.map_append, List.reverse_append]
    refine held.stack.append ?_
    cases waits : lexeme.waiting? with
    | none => exact List.nil_sublist _
    | some entry => rw [Option.toList_some, List.map_singleton, Lexeme.lexeme_waiting? waits,
        List.reverse_singleton]
  · rcases List.mem_append.mp member with fresh | older
    · have token := Token.eq_integer_of_value? (Option.mem_toList.mp fresh)
      exact ⟨lexeme.span, List.mem_append_right _ (List.mem_singleton.mpr (by rw [← token]))⟩
    · obtain ⟨span, inside⟩ := held.integers digits older
      exact ⟨span, List.mem_append_left _ inside⟩

theorem pop {next : Operands} (held : Held seen ⟨entry :: waiting, operands⟩)
    (kept : ∀ digits, .digits digits ∈ next.values → .digits digits ∈ operands.values) :
    Held seen ⟨waiting, next⟩ where
  stack := by
    have longer := held.stack
    rw [List.map_cons, List.reverse_cons] at longer
    exact (List.sublist_append_left _ _).trans longer
  integers digits member := held.integers digits (kept digits member)

theorem apply {next : Operands} (held : Held seen ⟨entry :: waiting, operands⟩)
    (applied : operands.apply operator span = .ok next) : Held seen ⟨waiting, next⟩ := by
  refine held.pop fun digits member => ?_
  obtain ⟨right, left, rest, outcome, values, -, rfl⟩ := Operands.apply_eq_ok_iff.mp applied
  rw [values]
  rcases List.mem_cons.mp member with same | older
  · cases same
  · exact .tail _ (.tail _ older)

end Held

/-- In every state what is held is from the tokens that are read. -/
theorem Reached.held (reached : Reached scan unread machine) :
    ∃ seen, scan.lexemes = seen ++ unread ∧ Held seen machine := by
  induction reached with
  | start => exact ⟨[], rfl, List.Sublist.slnil, nofun⟩
  | read _ inner stepped ih =>
    obtain ⟨seen, split, held⟩ := ih
    exact ⟨_, by rw [split, List.append_assoc]; rfl, held.read inner stepped⟩
  | @close lexeme _ _ _ _ _ _ ih =>
    obtain ⟨seen, split, held⟩ := ih
    exact ⟨seen ++ [lexeme], by rw [split, List.append_assoc]; rfl,
      (held.pop fun _ member => member).mono (List.sublist_append_left _ _)⟩
  | apply _ _ applied ih =>
    obtain ⟨seen, split, held⟩ := ih
    exact ⟨seen, split, held.apply applied⟩

theorem occurs_integer (member : ⟨span, .integer digits⟩ ∈ (Scan.ofText text).lexemes) :
    Occurs text span digits ∧ (Token.integer digits).Printable := by
  cases (Scan.mem_lexemes_ofText_iff.mp member).1 with
  | integer run =>
    have place := run.occurs
    obtain ⟨_, _, _, _, some, valid, _⟩ := run
    exact ⟨place, some, valid⟩

/-- What the stacks keep between two tokens, as far as a cursor has come. -/
structure Kept (text : List Char) (cursor : Cursor) (machine : Machine) : Prop where
  /-- What began to wait later lies behind what waits below it. -/
  ascending : machine.waiting.Pairwise fun upper lower =>
    lower.lexeme.span.Precedes upper.lexeme.span
  passed : ∀ entry ∈ machine.waiting, entry.lexeme.span.stop ≤ cursor.offset
  groups : ∀ span, .group span ∈ machine.waiting → Occurs text span ['(']
  operators : ∀ operator span, .operator operator span ∈ machine.waiting →
    ∃ word, Occurs text span word ∧ Operator.ofSpelling? word = some operator
  integers : ∀ digits, .digits digits ∈ machine.operands.values →
    digits ≠ [] ∧ (∀ char ∈ digits, char.isDigit = true) ∧
      ∃ span, Occurs text span digits ∧ span.stop ≤ cursor.offset

theorem Held.kept (held : Held ((Scan.ofText text).lexemes.take count) machine) :
    Kept text ((Cursor.ofText text).after count) machine := by
  have seen (lexeme : Lexeme) (member : lexeme ∈ (Scan.ofText text).lexemes.take count) :
      lexeme ∈ (Scan.ofText text).lexemes := List.mem_of_mem_take member
  have waits (entry : Waiting) (member : entry ∈ machine.waiting) :
      entry.lexeme ∈ (Scan.ofText text).lexemes.take count :=
    held.stack.subset (List.mem_reverse.mpr (List.mem_map_of_mem member))
  refine ⟨?_, fun entry member => Cursor.stop_le_after_ofText (waits entry member),
    fun span member => occurs_open (seen _ (waits _ member)),
    fun operator span member => ?_, fun digits member => ?_⟩
  · have ordered := (Scan.lexemes_ofText_ordered text).sublist
      (held.stack.trans (List.take_sublist _ _))
    exact List.pairwise_map.mp (List.pairwise_reverse.mp ordered)
  · obtain ⟨word, place, listed⟩ := occurs_operator (seen _ (waits _ member))
    exact ⟨word, place, Operator.ofSpelling?_eq_some_iff.mpr listed⟩
  · obtain ⟨span, inside⟩ := held.integers digits member
    obtain ⟨place, some, valid⟩ := occurs_integer (seen _ inside)
    exact ⟨some, valid, span, place, Cursor.stop_le_after_ofText inside⟩

/-- Where the fault is a value that does not fit. -/
def Fault.operand? : Fault → Option OperandFault
  | invalidOperand cause _ | notBoolean cause => some cause
  | _ => none

section

variable {value left right : Value} {operator : Operator} {cause : OperandFault}

theorem Value.value_of_toInt (failed : value.toInt = .error cause) : cause.value = value := by
  cases value with
  | digits text =>
    rw [toInt] at failed
    cases read : Integer.read text with
    | ok number =>
      rw [read] at failed
      cases failed
    | error fault =>
      rw [read] at failed
      cases failed
      rfl
  | literal flag => cases failed
  | outcome flag =>
    cases failed
    rfl

theorem Value.value_of_toBool (failed : value.toBool = .error cause) : cause.value = value := by
  rcases value.toBool_cases with ⟨flag, truth⟩ | ⟨digits, rfl, one, zero⟩
  · rw [truth] at failed
    cases failed
  · rw [toBool_digits one zero] at failed
    cases failed
    rfl

/-- Whatever two values are converted to, the first one that is refused decides. -/
theorem Value.refusal_cases {convert : Value → Except OperandFault α} {combine : α → α → Bool}
    (refused : (do
      let first ← convert left
      let second ← convert right
      return combine first second) = Except.error cause) :
    convert left = .error cause ∨ convert right = .error cause := by
  cases first : convert left with
  | error fault =>
    rw [first] at refused
    cases refused
    exact .inl rfl
  | ok found =>
    cases second : convert right with
    | error fault =>
      rw [first, second] at refused
      cases refused
      exact .inr rfl
    | ok other =>
      rw [first, second] at refused
      cases refused

theorem Operator.value_of_apply (refused : operator.apply left right = .error cause) :
    (cause.value = left ∨ cause.value = right) ∧
      (cause.value.toInt = .error cause ∨ cause.value.toBool = .error cause) := by
  cases operator with
  | comparison relation =>
    rcases Value.refusal_cases refused with failed | failed
    · have same := Value.value_of_toInt failed
      exact ⟨.inl same, .inl (same ▸ failed)⟩
    · have same := Value.value_of_toInt failed
      exact ⟨.inr same, .inl (same ▸ failed)⟩
  | connective junction =>
    rcases Value.refusal_cases refused with failed | failed
    · have same := Value.value_of_toBool failed
      exact ⟨.inl same, .inr (same ▸ failed)⟩
    · have same := Value.value_of_toBool failed
      exact ⟨.inr same, .inr (same ▸ failed)⟩

end

variable {failure : Failure} {cause : OperandFault}

theorem Stops.refusal {fault : Fault} (stops : Stops scan unread machine fault)
    (operand : fault.operand? = some cause) :
    cause.value ∈ machine.operands.values ∧
      (cause.value.toInt = .error cause ∨ cause.value.toBool = .error cause) := by
  cases stops with
  | unmatched closing => cases operand
  | unknown word => cases operand
  | unclosed ended => cases operand
  | refused due failed =>
    rcases Operands.apply_eq_error_iff.mp failed with
      ⟨-, rfl⟩ | ⟨right, left, rest, fault, values, refused, rfl⟩
    · cases operand
    · cases operand
      obtain ⟨side, converted⟩ := Operator.value_of_apply refused
      refine ⟨?_, converted⟩
      rcases side with same | same <;> rw [same, values]
      · exact .tail _ (.head _)
      · exact .head _

theorem Evaluation.refusal_of_conclude {fault : Fault} {size : Nat}
    (failed : conclude strictness size values = .error fault)
    (operand : fault.operand? = some cause) :
    cause.value ∈ values ∧ cause.value.toBool = .error cause := by
  cases values with
  | nil =>
    cases failed
    cases operand
  | cons value rest =>
    rw [conclude] at failed
    split at failed
    · cases failed
      cases operand
    · cases truth : value.toBool with
      | ok flag =>
        rw [truth] at failed
        cases failed
      | error other =>
        rw [truth] at failed
        cases failed
        cases operand
        have same := Value.value_of_toBool truth
        exact ⟨by rw [same]; exact .head _, by rw [same]; exact truth⟩

/-- A value that does not fit is an outcome or stands in the text. -/
theorem evaluate_operand (failed : evaluate strictness text = .error failure)
    (operand : failure.fault.operand? = some cause) :
    (cause.value.toInt = .error cause ∨ cause.value.toBool = .error cause) ∧
      ∀ digits, cause.value = .digits digits →
        ∃ span, ⟨span, .integer digits⟩ ∈ (Scan.ofText text).lexemes := by
  have ends := Evaluation.operands_ends (Scan.ofText text)
  have read (unread : List Lexeme) (machine : Machine)
      (reached : Reached (Scan.ofText text) unread machine) (digits : List Char)
      (member : .digits digits ∈ machine.operands.values) :
      ∃ span, ⟨span, .integer digits⟩ ∈ (Scan.ofText text).lexemes := by
    obtain ⟨seen, split, held⟩ := reached.held
    obtain ⟨span, inside⟩ := held.integers digits member
    exact ⟨span, by rw [split]; exact List.mem_append_left _ inside⟩
  rcases evaluate_error_cases failed with
    ⟨halt, halted, rfl⟩ | ⟨operands, fault, settled, concluded, rfl⟩
  · rw [halted] at ends
    obtain ⟨unread, machine, reached, stops, -⟩ := ends
    obtain ⟨member, converted⟩ := stops.refusal operand
    exact ⟨converted, fun digits same => read unread machine reached digits (same ▸ member)⟩
  · rw [settled] at ends
    obtain ⟨member, truth⟩ := Evaluation.refusal_of_conclude concluded operand
    exact ⟨.inr truth, fun digits same => read [] _ ends.2 digits (same ▸ member)⟩

/-- What is kept on the stacks of every evaluation of a text, and what follows for its integers. -/
structure KeepsStacks (text : List Char) : Prop where
  between : ∀ count machine,
    Machine.feed {} ((Scan.ofText text).lexemes.take count) = .ok machine →
      Kept text ((Cursor.ofText text).after count) machine
  /-- The same holds while operators are applied. -/
  within : ∀ unread machine, Reached (Scan.ofText text) unread machine →
    ∃ count, unread = (Scan.ofText text).lexemes.drop count ∧
      Kept text ((Cursor.ofText text).after count) machine
  tooLarge : ∀ strictness failure digits cause, evaluate strictness text = .error failure →
    failure.fault.operand? = some (.invalidInteger digits cause) →
      cause = .aboveRange ∧ Integer.maximum < Decimal.value digits ∧
        (∀ char ∈ digits, char.isDigit = true) ∧ ∃ span, Occurs text span digits

/-- Between two tokens all stacks are in the order of the text, whatever the text is. -/
theorem keepsStacks (text : List Char) : KeepsStacks text where
  between count machine fed := by
    obtain ⟨seen, split, held⟩ := (Reached.of_feed_take count fed).held
    have same : (Scan.ofText text).lexemes.take count = seen :=
      List.append_cancel_right ((List.take_append_drop count _).trans split)
    rw [← same] at held
    exact held.kept
  within unread machine reached := by
    obtain ⟨seen, split, held⟩ := reached.held
    refine ⟨seen.length, by rw [split, List.drop_left], ?_⟩
    have same : (Scan.ofText text).lexemes.take seen.length = seen := by rw [split, List.take_left]
    rw [← same] at held
    exact held.kept
  tooLarge strictness failure digits cause failed operand := by
    obtain ⟨converted, read⟩ := evaluate_operand failed operand
    obtain ⟨span, member⟩ := read digits rfl
    obtain ⟨place, printable⟩ := occurs_integer member
    have refused : Integer.read digits = .error cause := by
      rcases converted with integer | truth
      · exact Value.toInt_eq_error_iff.mp integer
      · simp only [OperandFault.value, Value.toBool] at truth
        split at truth <;> cases truth
    rw [Integer.read_digits printable] at refused
    split at refused
    · cases refused
    · cases refused
      exact ⟨rfl, Nat.lt_of_not_le ‹_›, printable.2, span, place⟩

end Condition
