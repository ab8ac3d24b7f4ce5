import Condition.Nesting
import Condition.Proofs.Pairing
import Condition.Proofs.ScanExact

namespace Condition

variable {text buffer : List Char}

theorem Token.foldl_nest (tokens : List Token) (depth : Int) :
    tokens.foldl nest depth = depth + tokens.count .openParen - tokens.count .closeParen := by
  induction tokens generalizing depth with
  | nil => simp
  | cons token rest ih =>
    rw [List.foldl_cons, ih, List.count_cons, List.count_cons]
    cases token with
    | openParen => simp [nest]; omega
    | closeParen => simp [nest]; omega
    | _ => simp [nest]

theorem depth?_of_complete (complete : (Scan.ofText text).unknown = none) :
    depth? text = some ((Scan.ofText text).tokens.count .openParen -
      (Scan.ofText text).tokens.count .closeParen) := by
  simp only [depth?, complete, Token.foldl_nest]
  congr 1
  omega

theorem depth?_of_unknown (word : (Scan.ofText text).unknown = some span) : depth? text = none := by
  simp only [depth?, word]

theorem depth?_eq_none_iff : depth? text = none ↔ (Scan.ofText text).unknown.isSome = true := by
  cases word : (Scan.ofText text).unknown with
  | none => simp [depth?_of_complete word]
  | some span => simp [depth?_of_unknown word]

/-- More lines are asked for just where a text is read to its end and has groups to close. -/
theorem isComplete_eq_false_iff : isComplete text = false ↔
    (Scan.ofText text).unknown = none ∧
      (Scan.ofText text).tokens.count .closeParen < (Scan.ofText text).tokens.count .openParen := by
  cases word : (Scan.ofText text).unknown with
  | none =>
    simp only [isComplete, depth?_of_complete word, beq_eq_false_iff_ne, true_and]
    omega
  | some span => simp [isComplete, depth?_of_unknown word]

/-- What closes no group is set off against what is left open, wherever it stands. The depth is the
number of groups left open just where there is none of the one kind or none of the other. -/
theorem depth?_eq_card (complete : (Scan.ofText text).unknown = none) :
    depth? text = some ((Bracket.unclosed (Scan.ofText text).tokens).card -
        (Bracket.unopened (Scan.ofText text).tokens).card) ∧
      (depth? text = some (Bracket.unclosed (Scan.ofText text).tokens).card ↔
        Bracket.unclosed (Scan.ofText text).tokens = ∅ ∨
          Bracket.unopened (Scan.ofText text).tokens = ∅) := by
  have counted := Bracket.card_unclosed (Scan.ofText text).tokens
  have depth : depth? text = some ((Bracket.unclosed (Scan.ofText text).tokens).card -
      (Bracket.unopened (Scan.ofText text).tokens).card) := by
    rw [depth?_of_complete complete]
    congr 1
    omega
  refine ⟨depth, ?_⟩
  rw [depth, Option.some.injEq, ← Finset.card_eq_zero, ← Finset.card_eq_zero]
  omega

/-- In `)((` one of the two groups that are left open is set off. -/
theorem depth?_eq_card_netted :
    let text : List Char := [')', '(', '(']
    (Scan.ofText text).unknown = none ∧ (Bracket.unclosed (Scan.ofText text).tokens).card = 2 ∧
      (Bracket.unopened (Scan.ofText text).tokens).card = 1 ∧ depth? text = some (2 - 1) :=
  ⟨by decide, by decide, by decide, (depth?_eq_card (by decide)).1⟩

/-- In `)(` a group is left open, but the depth is zero. -/
theorem depth?_ne_card :
    let text : List Char := [')', '(']
    (Scan.ofText text).unknown = none ∧ (Bracket.unclosed (Scan.ofText text).tokens).card = 1 ∧
      depth? text = some 0 := by
  decide

theorem joinLines_of_notMem (single : '\n' ∉ buffer) : joinLines buffer = buffer := by
  have kept : ∀ char ∈ buffer, (if char = '\n' then ' ' else char) = id char := by
    intro char member
    refine if_neg fun same => single ?_
    rwa [← same]
  rw [joinLines, List.map_congr_left kept, List.map_id]

theorem Token.ofWord?_of_lineFeed (member : '\n' ∈ word) : ofWord? word = none := by
  have literalWords : ∀ entry ∈ literals, '\n' ∉ entry.1.toList := by decide
  have operatorWords : ∀ entry ∈ Operator.spellings, '\n' ∉ entry.1.toList := by decide
  refine ofWord?_eq_none_iff.mpr ⟨fun flag listed => ?_, fun operator listed => ?_⟩
  · exact literalWords _ listed (by simpa using member)
  · exact operatorWords _ listed (by simpa using member)

/-- A line feed does not separate, so it is a part of some word. -/
theorem exists_unknownWord_of_lineFeed (member : '\n' ∈ text) :
    ∃ span word, UnknownWord text span word := by
  have covered : '\n' ∈ ((Segment.split text).map Segment.chars).flatten := by
    rwa [Segment.split, Segment.locate_chars, List.flatten_splitBy]
  obtain ⟨_, found, inside⟩ := List.mem_flatten.mp covered
  obtain ⟨⟨span, chars⟩, stands, rfl⟩ := List.mem_map.mp found
  obtain ⟨first, rest, rfl⟩ := Segment.exists_cons_of_mem_split stands
  have letter : CharKind.of first = .letter := by
    obtain ⟨_, _, _, _, _, chain, _, _⟩ := Segment.mem_split_iff.mp stands
    rcases List.mem_cons.mp inside with rfl | later
    · decide
    · rw [← (Segment.kind_of_isChain chain _ later).1]
      decide
  have read : Segment.reading ⟨span, first :: rest⟩ = .unknownWord := by
    rw [Segment.reading_of_letter letter, Token.ofWord?_of_lineFeed inside]
  exact ⟨span, _, unknownWord_iff.mpr ⟨stands, read⟩⟩

theorem depth?_of_lineFeed (member : '\n' ∈ text) : depth? text = none := by
  rw [depth?_eq_none_iff, Scan.unknown_isSome_iff]
  exact exists_unknownWord_of_lineFeed member

/-- A buffer is judged like the text that is evaluated for it, unless it has a line feed and more
lines would have to follow. So more are asked for behind the first line only. -/
theorem isComplete_joinLines (buffer : List Char) :
    (isComplete buffer = isComplete (joinLines buffer) ↔
      ('\n' ∈ buffer → isComplete (joinLines buffer) = true)) ∧
    (isComplete buffer = false ↔
      '\n' ∉ buffer ∧ (Scan.ofText (joinLines buffer)).unknown = none ∧
        (Scan.ofText (joinLines buffer)).tokens.count .closeParen <
          (Scan.ofText (joinLines buffer)).tokens.count .openParen) := by
  rw [← isComplete_eq_false_iff]
  by_cases member : '\n' ∈ buffer
  · have ready : isComplete buffer = true := by
      simp only [isComplete, depth?_of_lineFeed member]
    refine ⟨?_, by simp [ready, member]⟩
    rw [ready, forall_prop_of_true member]
    exact eq_comm
  · simp [joinLines_of_notMem member, member]

/-- The group of `(1` is open in the next line too, where no more lines are asked for. -/
theorem isComplete_ne_joinLines :
    let buffer : List Char := ['(', '1', '\n', 'l', 't', ' ', '2']
    joinLines buffer = ['(', '1', ' ', 'l', 't', ' ', '2'] ∧ isComplete buffer = true ∧
      isComplete (joinLines buffer) = false := by
  decide

end Condition
