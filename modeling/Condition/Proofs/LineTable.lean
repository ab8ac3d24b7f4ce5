import Condition.Report.Region
import Mathlib

namespace Condition

variable {text : List Char} {lines : List (List Char)}

theorem sameLine_eq_false_iff {left right : Char} :
    sameLine left right = false ↔ left ∈ lineBreaks ∧ ¬ (left = '\r' ∧ right = '\n') := by
  simp [sameLine]

theorem sameLine_of_notMem {left : Char} (plain : left ∉ lineBreaks) (right : Char) :
    sameLine left right = true := by
  simp [sameLine, plain]

/-- Only a carriage return has another character behind it on its line, its line feed. -/
theorem isLineEnd_of_isChain {char : Char} {rest : List Char} (breaks : char ∈ lineBreaks)
    (chain : (char :: rest).IsChain fun left right => sameLine left right = true) :
    IsLineEnd (char :: rest) := by
  have ends {left right : Char} (broken : left ∈ lineBreaks)
      (same : sameLine left right = true) : left = '\r' ∧ right = '\n' := by
    by_contra apart
    simp [sameLine_eq_false_iff.mpr ⟨broken, apart⟩] at same
  match rest, chain with
  | [], _ => exact .inr ⟨char, breaks, rfl⟩
  | [next], .cons_cons same _ =>
    obtain ⟨rfl, rfl⟩ := ends breaks same
    exact .inl rfl
  | next :: third :: _, .cons_cons same (.cons_cons again _) =>
    obtain ⟨-, rfl⟩ := ends breaks same
    exact absurd (ends (by decide) again).1 (by decide)

theorem isChain_sameLine_iff {line : List Char} :
    (line.IsChain fun left right => sameLine left right = true) ↔
      ∃ shown ending, line = shown ++ ending ∧ (∀ char ∈ shown, char ∉ lineBreaks) ∧
        (ending = [] ∨ IsLineEnd ending) := by
  constructor
  · intro chain
    induction line with
    | nil => exact ⟨[], [], rfl, by simp, .inl rfl⟩
    | cons char rest ih =>
      by_cases breaks : char ∈ lineBreaks
      · exact ⟨[], char :: rest, rfl, by simp, .inr (isLineEnd_of_isChain breaks chain)⟩
      · obtain ⟨shown, ending, rfl, plain, ended⟩ := ih chain.tail
        exact ⟨char :: shown, ending, rfl, List.forall_mem_cons.mpr ⟨breaks, plain⟩, ended⟩
  · rintro ⟨shown, ending, rfl, plain, ended⟩
    induction shown with
    | nil =>
      rcases ended with rfl | rfl | ⟨char, -, rfl⟩
      · exact .nil
      · decide
      · exact .singleton char
    | cons char rest ih =>
      obtain ⟨first, later⟩ := List.forall_mem_cons.mp plain
      exact List.isChain_cons.mpr ⟨fun next _ => sameLine_of_notMem first next, ih later⟩

theorem sameLine_getLast_head_iff {line next : List Char} (filled : line ≠ [])
    (nonempty : next ≠ []) :
    (∃ left right, sameLine (line.getLast left) (next.head right) = false) ↔
      ∃ last ∈ line.getLast?, ∃ first ∈ next.head?,
        last ∈ lineBreaks ∧ ¬ (last = '\r' ∧ first = '\n') := by
  simp [List.getLast?_eq_some_getLast filled, List.head?_eq_some_head nonempty,
    sameLine_eq_false_iff, filled, nonempty]

/-- The lines of a text are those that it is split into, and no others. -/
theorem linesOf_iff : LinesOf text lines ↔ lines = splitLines text := by
  rw [eq_comm, splitLines, List.splitBy_eq_iff, List.isChain_iff_forall_rel_of_append_cons_cons]
  constructor
  · intro ⟨whole, each, apart⟩
    have filled : [] ∉ lines := fun member => (each [] member).1 rfl
    refine ⟨whole.symm, filled,
      fun line member => isChain_sameLine_iff.mpr (each line member).2, ?_⟩
    intro line next front back split
    have first := (each line (by simp [split])).1
    have second := (each next (by simp [split])).1
    exact (sameLine_getLast_head_iff first second).mpr (apart front line next back split)
  · intro ⟨whole, filled, chains, apart⟩
    have nonempty {line : List Char} (member : line ∈ lines) : line ≠ [] :=
      ne_of_mem_of_not_mem member filled
    refine ⟨whole.symm, fun line member =>
      ⟨nonempty member, isChain_sameLine_iff.mp (chains line member)⟩, ?_⟩
    intro front line next back split
    have first : line ≠ [] := nonempty (by simp [split])
    have second : next ≠ [] := nonempty (by simp [split])
    exact (sameLine_getLast_head_iff first second).mp (apart split)

theorem linesOf_splitLines (text : List Char) : LinesOf text (splitLines text) :=
  linesOf_iff.mpr rfl

theorem byteAt?_cons (chars : List Char) (line column : Nat) :
    byteAt? (chars :: lines) (line + 2) (column + 1) =
      (byteAt? lines (line + 1) (column + 1)).map (byteSize chars + ·) := by
  simp only [byteAt?, List.getElem?_cons_succ]
  cases lines[line]? with
  | none => rfl
  | some found =>
    split <;> simp [*]

/-- The line and the column of a character lead back to the bytes in front of it. -/
theorem byteAt?_lineAt (lines : List (List Char)) (offset : Nat)
    (inside : offset < lines.flatten.length) :
    byteAt? lines ((lineAt lines offset).index + 1) (offset - (lineAt lines offset).offset + 1) =
      some (byteSize (lines.flatten.take offset)) := by
  induction lines generalizing offset with
  | nil => simp at inside
  | cons chars rest ih =>
    by_cases here : offset < chars.length
    · simp [lineAt, here, byteAt?, List.take_append_of_le_length here.le]
    · have later : offset - chars.length < rest.flatten.length := by
        simp only [List.flatten_cons, List.length_append] at inside
        omega
      simp only [lineAt, here, ↓reduceIte, Nat.sub_add_eq]
      rw [byteAt?_cons, ih _ later]
      simp [List.take_append, List.take_of_length_le (Nat.le_of_not_lt here)]

/-- In the second line of `é\r\nab` the second character begins behind five bytes. -/
example : byteAt? (splitLines "é\r\nab".toList) 2 2 = some 5 := by decide

theorem Region.byteAt?_position {span : Span} (boundary : IsBoundary text span.start)
    (inside : span.start < byteSize text) :
    byteAt? (splitLines text) (Region.ofSpan span text).position.1
      (Region.ofSpan span text).position.2 = some span.start := by
  have whole : (splitLines text).flatten = text := (linesOf_splitLines text).whole
  have found := byteAt?_lineAt (splitLines text) (charOffset span.start text)
    (by rw [whole]; exact charOffset_lt_length boundary inside)
  rw [whole, byteSize_take_charOffset boundary] at found
  exact found

private theorem ne_colon_of_mem_repr (number : Nat) :
    ∀ char ∈ number.repr.toList, (char != ':') = true := by
  intro char member
  rw [Nat.toList_repr] at member
  have digit : char.isDigit = true := Nat.isDigit_of_mem_toDigits (by decide) (by decide) member
  rw [bne_iff_ne]
  rintro rfl
  exact absurd digit (by decide)

/-- A printed place is read as the line and the column that it was printed from. -/
theorem byteAtPlace?_eq (lines : List (List Char)) (line column : Nat) :
    byteAtPlace? lines s!"{line}:{column}".toList = byteAt? lines line column := by
  have written : s!"{line}:{column}".toList = line.repr.toList ++ ':' :: column.repr.toList := by
    simp [toString, String.toList_append]
  have front : (line.repr.toList ++ ':' :: column.repr.toList).takeWhile (· != ':') =
      line.repr.toList := by
    rw [List.takeWhile_append_of_pos (ne_colon_of_mem_repr line)]
    exact List.append_nil _
  have back : (line.repr.toList ++ ':' :: column.repr.toList).dropWhile (· != ':') =
      ':' :: column.repr.toList := by
    rw [List.dropWhile_append_of_pos (ne_colon_of_mem_repr line)]
    rfl
  rw [written, byteAtPlace?, front, back]
  simp only [List.drop_succ_cons, List.drop_zero, String.ofList_toList, Nat.toNat?_repr]
  rfl

end Condition
