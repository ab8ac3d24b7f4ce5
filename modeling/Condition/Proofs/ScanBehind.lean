import Condition.Proofs.SegmentRuns

namespace Condition

namespace Scan

/-- The scan of a text that has some bytes in front of it. -/
def behind (start : Nat) (text : List Char) : Scan :=
  ofSegments (Segment.locate start (text.splitBy CharKind.joins))

theorem behind_zero (text : List Char) : behind 0 text = ofText text := rfl

@[simp] theorem behind_nil (start : Nat) : behind start [] = ⟨[], none⟩ := rfl

theorem behind_cons (start : Nat) (char : Char) (rest : List Char) :
    behind start (char :: rest) =
      ofSegments (⟨⟨start, byteSize (char :: rest.takeWhile (CharKind.joins char))⟩,
          char :: rest.takeWhile (CharKind.joins char)⟩ ::
        Segment.locate (start + byteSize (char :: rest.takeWhile (CharKind.joins char)))
          ((rest.dropWhile (CharKind.joins char)).splitBy CharKind.joins)) := by
  rw [behind, Segment.splitBy_cons]
  rfl

/-- A space in front of a text moves its tokens and adds none. -/
theorem behind_space (start : Nat) (text : List Char) :
    behind start (' ' :: text) = behind (start + 1) text := by
  cases text with
  | nil => rfl
  | cons char rest =>
    by_cases space : char = ' '
    · subst space
      have joined : CharKind.joins ' ' ' ' = true := by decide
      rw [behind_cons, behind_cons, List.takeWhile_cons_of_pos joined,
        List.dropWhile_cons_of_pos joined]
      have gap (span : Span) (others : List Char) :
          Segment.reading ⟨span, ' ' :: others⟩ = .gap := rfl
      simp only [ofSegments, gap, byteSize_cons, utf8Size_space, Nat.add_assoc]
    · have kind : CharKind.of ' ' ≠ CharKind.of char := by
        intro same
        exact space (CharKind.of_eq_space_iff.mp same.symm)
      have free := CharKind.joins_eq_false_of_ne kind
      rw [behind_cons, List.takeWhile_cons_of_neg (by simp [free]),
        List.dropWhile_cons_of_neg (by simp [free])]
      have gap (span : Span) : Segment.reading ⟨span, [' ']⟩ = .gap := rfl
      simp only [ofSegments, gap, byteSize_cons, byteSize_nil, utf8Size_space, Nat.add_zero]
      rfl

theorem behind_spaces (start count : Nat) (text : List Char) :
    behind start (List.replicate count ' ' ++ text) = behind (start + count) text := by
  induction count generalizing start with
  | zero => rfl
  | succ count ih =>
    rw [List.replicate_succ, List.cons_append, behind_space, ih, Nat.add_right_comm, Nat.add_assoc]

/-- A segment that nothing behind it extends is read on its own. -/
theorem behind_append {run text : List Char} (nonempty : run ≠ [])
    (chain : run.IsChain fun left right => CharKind.joins left right = true)
    (apart : Segment.Apart run text)
    (read : Segment.reading ⟨⟨start, byteSize run⟩, run⟩ = .token token) :
    behind start (run ++ text) =
      { behind (start + byteSize run) text with
        lexemes := ⟨⟨start, byteSize run⟩, token⟩ :: (behind (start + byteSize run) text).lexemes } := by
  rw [behind, List.splitBy_append apart, List.splitBy_of_isChain nonempty chain,
    List.singleton_append, Segment.locate, ofSegments, read]
  rfl

end Scan

end Condition
