import Condition.Cursor
import Condition.Proofs.ScanBehind
import Condition.Proofs.ScanExact

namespace Condition

namespace Cursor

/-- The scan of what is not read yet. -/
def scan (cursor : Cursor) : Scan := Scan.behind cursor.offset cursor.unread

theorem scan_skipSpaces (cursor : Cursor) : cursor.skipSpaces.scan = cursor.scan := by
  obtain ⟨offset, unread⟩ := cursor
  induction unread generalizing offset with
  | nil => rfl
  | cons char rest ih =>
    by_cases space : char = ' '
    · subst space
      have moved : skipSpaces ⟨offset, ' ' :: rest⟩ = skipSpaces ⟨offset + 1, rest⟩ := by
        simp [skipSpaces, Nat.add_assoc]
      rw [moved, ih, scan, scan, Scan.behind_space]
    · simp [skipSpaces, scan, space]

theorem ne_space_of_skipSpaces {cursor : Cursor} (stands : cursor.skipSpaces.unread = char :: rest) :
    char ≠ ' ' := by
  intro same
  subst same
  have stopped := List.head?_dropWhile_not (· == ' ') cursor.unread
  have head : cursor.unread.dropWhile (· == ' ') = ' ' :: rest := stands
  simp [head] at stopped

theorem next_items (cursor : Cursor) :
    cursor.next.1 = cursor.scan.items.head? ∧
      cursor.next.2.scan.items = cursor.scan.items.tail := by
  rw [← scan_skipSpaces]
  unfold next
  generalize moved : cursor.skipSpaces = start
  obtain ⟨offset, unread⟩ := start
  cases unread with
  | nil => exact ⟨rfl, rfl⟩
  | cons char rest =>
    have letters : char ≠ ' ' := ne_space_of_skipSpaces (by rw [moved])
    simp only [scan, Scan.behind_cons]
    cases kind : CharKind.of char with
    | space => exact absurd (CharKind.of_eq_space_iff.mp kind) letters
    | openParen => simp [Scan.ofSegments, Segment.reading, kind, Scan.items, Scan.behind, Span.stop]
    | closeParen => simp [Scan.ofSegments, Segment.reading, kind, Scan.items, Scan.behind, Span.stop]
    | digit => simp [Scan.ofSegments, Segment.reading, kind, Scan.items, Scan.behind, Span.stop]
    | letter =>
      cases known : Token.ofWord? (char :: rest.takeWhile (CharKind.joins char)) with
      | none => simp [Scan.ofSegments, Segment.reading, kind, known, Scan.items, finish]
      | some token =>
        simp [Scan.ofSegments, Segment.reading, kind, known, Scan.items, Scan.behind, Span.stop]

/-- Each call finds one item of the scan, and a call behind the last one finds nothing. -/
theorem call_eq (cursor : Cursor) (earlier : Nat) :
    cursor.call earlier = cursor.scan.items[earlier]? := by
  induction earlier generalizing cursor with
  | zero => rw [call, (next_items cursor).1, List.head?_eq_getElem?]
  | succ earlier ih => rw [call, ih, (next_items cursor).2, List.getElem?_tail]

/-- Calling for tokens gives those of an exact scan in order, and nothing once they are given. -/
theorem call_ofText_exact (text : List Char) :
    (Scan.ofText text).Exact text ∧
      ∀ earlier, (ofText text).call earlier = (Scan.ofText text).items[earlier]? :=
  ⟨Scan.exact_ofText text, call_eq (ofText text)⟩

end Cursor

end Condition
