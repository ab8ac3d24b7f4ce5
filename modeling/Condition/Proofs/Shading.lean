import Condition.Highlight
import Condition.Proofs.ScanBehind
import Condition.Proofs.ScanExact

namespace Condition

def Segment.shade (segment : Segment) : Shade :=
  match segment.reading with
  | .gap => ⟨.white, segment.span⟩
  | .token token => ⟨token.color, segment.span⟩
  | .unknownWord => ⟨.red, segment.span⟩

namespace Segment

variable {segment : Segment}

theorem shade_span (segment : Segment) : segment.shade.span = segment.span := by
  unfold shade
  split <;> rfl

theorem shade_of_gap (read : segment.reading = .gap) : segment.shade = ⟨.white, segment.span⟩ := by
  simp only [shade, read]

theorem shade_of_token (read : segment.reading = .token token) :
    segment.shade = ⟨token.color, segment.span⟩ := by
  simp only [shade, read]

theorem shade_of_unknownWord (read : segment.reading = .unknownWord) :
    segment.shade = ⟨.red, segment.span⟩ := by
  simp only [shade, read]

end Segment

namespace Shade

/-- One shade for each segment, and for all that follows an unknown word. -/
def ofSegments (size : Nat) : List Segment → List Shade
  | [] => []
  | segment :: later =>
    segment.shade ::
      if segment.reading = .unknownWord then between segment.span.stop size
      else ofSegments size later

theorem between_self (offset : Nat) : between offset offset = [] := if_neg (Nat.lt_irrefl offset)

/-- An offset at which a scan goes on: that of its first item, or the end of the text. -/
structure Begins (size offset : Nat) (items : List (Except Span Lexeme)) : Prop where
  first : ∀ item ∈ items.head?, (ofItem item).span.start = offset
  ended : items = [] → size = offset

/-- Everything in front of an item is one white shade. -/
theorem Begins.ofItems (begins : Begins size next items) (ahead : reached < next) :
    Shade.ofItems size reached items =
      ⟨.white, ⟨reached, next - reached⟩⟩ :: Shade.ofItems size next items := by
  cases items with
  | nil => rw [Shade.ofItems, Shade.ofItems, begins.ended rfl, between_self, between, if_pos ahead]
  | cons item rest =>
    simp only [Shade.ofItems]
    rw [begins.first item rfl, between_self, between, if_pos ahead]
    rfl

/-- Behind spaces there is an item, or the text has ended. -/
theorem begins_behind (visible : ∀ char ∈ text.head?, char ≠ ' ') :
    Begins (start + byteSize text) start (Scan.behind start text).items := by
  cases text with
  | nil => exact ⟨fun item first => (Option.not_mem_none item first).elim, fun _ => rfl⟩
  | cons char rest =>
    rw [Scan.behind_cons, Scan.ofSegments]
    generalize same : Segment.reading _ = reading
    cases reading with
    | gap =>
      exact absurd (CharKind.of_eq_space_iff.mp (Segment.kind_of_gap same)) (visible char rfl)
    | token token =>
      refine ⟨fun item first => ?_, fun empty => by cases empty⟩
      cases first
      rfl
    | unknownWord =>
      refine ⟨fun item first => ?_, fun empty => by cases empty⟩
      cases first
      rfl

theorem ofItems_cons (segment : Segment) (later : List Segment) (nonempty : 0 < segment.span.size)
    (begins : segment.reading = .gap →
      Begins size segment.span.stop (Scan.ofSegments later).items) :
    ofItems size segment.span.start (Scan.ofSegments (segment :: later)).items =
      segment.shade ::
        if segment.reading = .unknownWord then between segment.span.stop size
        else ofItems size segment.span.stop (Scan.ofSegments later).items := by
  rw [Scan.ofSegments, Segment.shade]
  cases read : segment.reading with
  | gap =>
    have ahead : segment.span.start < segment.span.stop := Nat.lt_add_of_pos_right nonempty
    rw [(begins read).ofItems ahead, Span.stop, Nat.add_sub_cancel_left]
    rfl
  | token token =>
    simp only [Scan.items, List.map_cons, List.cons_append, ofItems, ofItem, between_self]
    rfl
  | unknownWord =>
    simp only [Scan.items, List.map_nil, List.nil_append, Option.toList_some, List.map_cons,
      ofItems, ofItem, between_self]
    rfl

/-- The shades found at the items of a text are those of its segments. -/
theorem ofItems_behind (start : Nat) (text : List Char) :
    ofItems (start + byteSize text) start (Scan.behind start text).items =
      ofSegments (start + byteSize text)
        (Segment.locate start (text.splitBy CharKind.joins)) := by
  -- What follows is shaded behind a whole segment, so the induction is on the length of the text.
  induction count : text.length using Nat.strong_induction_on generalizing start text with
  | _ _ ih =>
    subst count
    cases text with
    | nil => exact between_self start
    | cons char rest =>
      have shorter : (rest.dropWhile (CharKind.joins char)).length < (char :: rest).length :=
        Nat.lt_succ_of_le (List.dropWhile_suffix (CharKind.joins char)).length_le
      have later := ih _ shorter (start + byteSize (char :: rest.takeWhile (CharKind.joins char)))
        (rest.dropWhile (CharKind.joins char)) rfl
      have size : start + byteSize (char :: rest) =
          start + byteSize (char :: rest.takeWhile (CharKind.joins char)) +
            byteSize (rest.dropWhile (CharKind.joins char)) := by
        rw [Nat.add_assoc, ← byteSize_append, List.cons_append, List.takeWhile_append_dropWhile]
      rw [Scan.behind_cons, Segment.splitBy_cons, Segment.locate, ofSegments, size]
      rw [ofItems_cons ⟨⟨start, _⟩, _⟩ _ (byteSize_pos (List.cons_ne_nil _ _))]
      · exact congrArg _ (congrArg _ later)
      · intro gap
        obtain rfl : char = ' ' := CharKind.of_eq_space_iff.mp (Segment.kind_of_gap gap)
        refine begins_behind fun other first => ?_
        have apart := List.head?_dropWhile_not (CharKind.joins ' ') rest
        rw [Option.mem_def.mp first] at apart
        rintro rfl
        cases apart

theorem ofText_eq (line : List Char) :
    ofText line = ofSegments (byteSize line) (Segment.split line) := by
  have same := ofItems_behind 0 line
  rwa [Nat.zero_add] at same

theorem map_between (before rest : List Char) :
    (between (byteSize before) (byteSize (before ++ rest))).map (piece (before ++ rest)) =
      if rest.isEmpty then [] else [⟨.white, rest⟩] := by
  rw [byteSize_append, between]
  cases rest with
  | nil => simp
  | cons char rest =>
    have more := byteSize_pos (List.cons_ne_nil char rest)
    have cut := Span.slice_append before (char :: rest) []
    rw [List.append_nil] at cut
    rw [if_pos (Nat.lt_add_of_pos_right more), Nat.add_sub_cancel_left, List.map_singleton, piece,
      cut]
    rfl

theorem rest_locate (start : Nat) (pieces : List (List Char))
    (nonempty : ∀ chars ∈ pieces, chars ≠ []) :
    Piece.rest (Segment.locate start pieces) =
      if pieces.flatten.isEmpty then [] else [⟨.white, pieces.flatten⟩] := by
  cases pieces with
  | nil => rfl
  | cons chars rest =>
    obtain ⟨first, others, rfl⟩ := List.exists_cons_of_ne_nil (nonempty chars List.mem_cons_self)
    rw [Piece.rest, List.flatMap_def, Segment.locate_chars]
    rfl

theorem map_ofSegments (before : List Char) (pieces : List (List Char))
    (nonempty : ∀ chars ∈ pieces, chars ≠ []) :
    (ofSegments (byteSize (before ++ pieces.flatten))
        (Segment.locate (byteSize before) pieces)).map (piece (before ++ pieces.flatten)) =
      Piece.ofSegments (Segment.locate (byteSize before) pieces) := by
  induction pieces generalizing before with
  | nil => rfl
  | cons chars rest ih =>
    have later := ih (before ++ chars) fun other member => nonempty other (.tail _ member)
    have cut := Span.slice_append before chars rest.flatten
    rw [byteSize_append before chars] at later
    rw [List.append_assoc] at later cut
    rw [List.flatten_cons, Segment.locate, ofSegments, Piece.ofSegments, List.map_cons,
      Segment.shade]
    cases Segment.reading ⟨⟨byteSize before, byteSize chars⟩, chars⟩ with
    | gap => exact congrArg₂ List.cons (congrArg (Piece.mk _) cut) later
    | token token => exact congrArg₂ List.cons (congrArg (Piece.mk _) cut) later
    | unknownWord =>
      have left := map_between (before ++ chars) rest.flatten
      rw [byteSize_append before chars, List.append_assoc] at left
      refine congrArg₂ List.cons (congrArg (Piece.mk _) cut) (left.trans ?_)
      exact (rest_locate _ rest fun other member => nonempty other (.tail _ member)).symm

/-- The pieces of a line are what stands at its shades. -/
theorem map_ofText (line : List Char) : (ofText line).map (piece line) = highlight line := by
  have whole : (line.splitBy CharKind.joins).flatten = line := List.flatten_splitBy _ _
  have cut := map_ofSegments [] (line.splitBy CharKind.joins)
    fun _ member => List.ne_nil_of_mem_splitBy member
  rw [List.nil_append, whole] at cut
  rw [ofText_eq]
  exact cut

end Shade

end Condition
