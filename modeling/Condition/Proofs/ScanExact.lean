import Condition.Proofs.SegmentReading

namespace Condition

theorem byteSize_pos {text : List Char} (nonempty : text ≠ []) : 0 < byteSize text := by
  cases text with
  | nil => exact absurd rfl nonempty
  | cons char rest =>
    have positive := char.utf8Size_pos
    simp only [byteSize_cons]
    omega

theorem occurs_space {gap : List Char} (spaces : ∀ char ∈ gap, char = ' ')
    (inside : offset < byteSize gap) : Occurs gap ⟨offset, 1⟩ [' '] := by
  induction gap generalizing offset with
  | nil => simp at inside
  | cons char rest ih =>
    obtain rfl := spaces char (by simp)
    cases offset with
    | zero => exact ⟨[], rest, rfl, rfl⟩
    | succ offset =>
      rw [byteSize_cons, utf8Size_space] at inside
      have later : offset < byteSize rest := by omega
      obtain ⟨before, behind, rfl, place⟩ :=
        ih (fun other member => spaces other (by simp [member])) later
      obtain ⟨start, -⟩ := Span.mk.inj place
      exact ⟨' ' :: before, behind, rfl, by simp [start, Nat.add_comm]⟩

theorem Occurs.within {text inner chars : List Char} {outer place : Span}
    (stands : Occurs text outer inner) (inside : Occurs inner place chars) :
    Occurs text (place.shift outer.start) chars := by
  obtain ⟨before, behind, rfl, rfl⟩ := stands
  obtain ⟨left, right, rfl, rfl⟩ := inside
  exact ⟨before ++ left, right ++ behind, by simp, by simp [Span.shift]⟩

theorem Occurs.boundaries {text chars : List Char} {span : Span} (stands : Occurs text span chars) :
    IsBoundary text span.start ∧ IsBoundary text span.stop ∧ span.stop ≤ byteSize text := by
  obtain ⟨before, behind, rfl, rfl⟩ := stands
  refine ⟨⟨before, chars ++ behind, by simp, rfl⟩,
    ⟨before ++ chars, behind, rfl, by simp [Span.stop]⟩, ?_⟩
  simp only [Span.stop, byteSize_append]
  omega

theorem Occurs.slice_eq {text chars : List Char} {span : Span} (stands : Occurs text span chars) :
    span.slice text = chars := by
  obtain ⟨before, behind, rfl, rfl⟩ := stands
  exact Span.slice_append before chars behind

theorem MaximalRun.occurs {text run : List Char} {span : Span}
    (maximal : MaximalRun member text span run) : Occurs text span run := by
  obtain ⟨before, behind, whole, place, _⟩ := maximal
  exact ⟨before, behind, whole, place⟩

theorem UnknownWord.occurs {text word : List Char} {span : Span}
    (unknown : UnknownWord text span word) : Occurs text span word := unknown.run.occurs

/-- One span ends before the other begins. -/
def Span.Precedes (left right : Span) : Prop := left.start < right.start ∧ left.stop ≤ right.start

namespace Segment

theorem occurs_of_mem_split {segment : Segment} {text : List Char} (member : segment ∈ split text) :
    Occurs text segment.span segment.chars := by
  obtain ⟨before, behind, whole, place, _⟩ := mem_split_iff.mp member
  exact ⟨before, behind, whole, place⟩

theorem size_pos_of_mem_split {segment : Segment} {text : List Char} (member : segment ∈ split text) :
    0 < segment.span.size := by
  obtain ⟨_, _, _, place, nonempty, _⟩ := mem_split_iff.mp member
  rw [place]
  exact byteSize_pos nonempty

private theorem locate_ordered (pieces : List (List Char)) (nonempty : ∀ piece ∈ pieces, piece ≠ [])
    (start : Nat) :
    (∀ segment ∈ locate start pieces, start ≤ segment.span.start) ∧
      (locate start pieces).Pairwise fun left right => left.span.Precedes right.span := by
  induction pieces generalizing start with
  | nil => simp [locate]
  | cons piece rest ih =>
    have positive := byteSize_pos (nonempty piece (by simp))
    obtain ⟨later, ordered⟩ := ih (fun other member => nonempty other (by simp [member]))
      (start + byteSize piece)
    constructor
    · intro segment member
      rcases List.mem_cons.mp member with rfl | member
      · exact Nat.le_refl _
      · exact Nat.le_trans (Nat.le_add_right _ _) (later segment member)
    · refine List.pairwise_cons.mpr ⟨?_, ordered⟩
      intro segment member
      have bound := later segment member
      exact ⟨Nat.lt_of_lt_of_le (Nat.lt_add_of_pos_right positive) bound, bound⟩

theorem split_ordered (text : List Char) :
    (split text).Pairwise fun left right => left.span.Precedes right.span :=
  (locate_ordered _ (fun _ member => List.ne_nil_of_mem_splitBy member) 0).2

private theorem locate_covers (pieces : List (List Char)) (start : Nat) (lower : start ≤ offset)
    (upper : offset < start + byteSize pieces.flatten) :
    ∃ segment ∈ locate start pieces, segment.span.start ≤ offset ∧ offset < segment.span.stop := by
  induction pieces generalizing start with
  | nil => simp at upper; omega
  | cons piece rest ih =>
    by_cases here : offset < start + byteSize piece
    · exact ⟨_, List.mem_cons_self, lower, here⟩
    · obtain ⟨segment, member, covered⟩ := ih (start + byteSize piece) (by omega)
        (by simpa [Nat.add_assoc] using upper)
      exact ⟨segment, List.mem_cons_of_mem _ member, covered⟩

theorem split_covers {text : List Char} (inside : offset < byteSize text) :
    ∃ segment ∈ split text, segment.span.start ≤ offset ∧ offset < segment.span.stop :=
  locate_covers _ 0 (Nat.zero_le _) (by simpa using inside)

/-- The token of a segment that is one, in its place. -/
def lexeme? (segment : Segment) : Option Lexeme :=
  match segment.reading with
  | .token token => some ⟨segment.span, token⟩
  | _ => none

theorem lexeme?_eq_some_iff {segment : Segment} :
    segment.lexeme? = some lexeme ↔
      segment.span = lexeme.span ∧ segment.reading = .token lexeme.token := by
  obtain ⟨span, token⟩ := lexeme
  unfold lexeme?
  cases segment.reading <;> simp

end Segment

namespace Scan

open Segment (lexeme? lexeme?_eq_some_iff)

/-- A scan takes the tokens of the segments in front of the first one that it does not know. -/
structure Cut (scan : Scan) (front back : List Segment) : Prop where
  known : ∀ segment ∈ front, segment.reading ≠ .unknownWord
  stopped : ∀ segment ∈ back.head?, segment.reading = .unknownWord
  scanned : scan = ⟨front.filterMap lexeme?, back.head?.map Segment.span⟩

theorem ofSegments_cut (segments : List Segment) :
    ∃ front back, segments = front ++ back ∧ Cut (ofSegments segments) front back := by
  induction segments with
  | nil => exact ⟨[], [], rfl, by simp, by simp, rfl⟩
  | cons segment rest ih =>
    obtain ⟨front, back, rfl, known, stopped, scanned⟩ := ih
    cases read : segment.reading with
    | gap =>
      refine ⟨segment :: front, back, rfl, ?_, stopped, ?_⟩
      · simpa [read] using known
      · simp [ofSegments, read, scanned, lexeme?]
    | token token =>
      refine ⟨segment :: front, back, rfl, ?_, stopped, ?_⟩
      · simpa [read] using known
      · simp [ofSegments, read, scanned, lexeme?]
    | unknownWord =>
      exact ⟨[], segment :: (front ++ back), rfl, by simp, by simpa using read,
        by simp [ofSegments, read]⟩

namespace Cut

theorem mem_lexemes_iff (cut : Cut scan front back) :
    lexeme ∈ scan.lexemes ↔ ∃ segment ∈ front, segment.lexeme? = some lexeme := by
  rw [cut.scanned, List.mem_filterMap]

theorem unknown_eq_some_iff (cut : Cut scan front back) :
    scan.unknown = some span ↔ ∃ word ∈ back.head?, word.span = span := by
  rw [cut.scanned]
  exact Option.map_eq_some_iff

theorem mem_spans_iff (cut : Cut scan front back) :
    span ∈ scan.spans ↔ (∃ segment ∈ front, segment.span = span ∧ segment.lexeme?.isSome = true) ∨
      ∃ word ∈ back.head?, word.span = span := by
  rw [spans, List.mem_append, Option.mem_toList, cut.unknown_eq_some_iff]
  refine or_congr_left ⟨?_, ?_⟩
  · intro member
    obtain ⟨lexeme, found, rfl⟩ := List.mem_map.mp member
    obtain ⟨segment, inside, read⟩ := cut.mem_lexemes_iff.mp found
    exact ⟨segment, inside, (lexeme?_eq_some_iff.mp read).1, by simp [read]⟩
  · intro given
    obtain ⟨segment, inside, rfl, some⟩ := given
    obtain ⟨lexeme, read⟩ := Option.isSome_iff_exists.mp some
    exact List.mem_map.mpr ⟨lexeme, cut.mem_lexemes_iff.mpr ⟨segment, inside, read⟩,
      (lexeme?_eq_some_iff.mp read).1.symm⟩

theorem mem_of_mem_spans (cut : Cut scan front back) (member : span ∈ scan.spans) :
    ∃ segment ∈ front ++ back, segment.span = span := by
  rcases cut.mem_spans_iff.mp member with ⟨segment, inside, same, -⟩ | ⟨word, first, same⟩
  · exact ⟨segment, by simp [inside], same⟩
  · exact ⟨word, by simp [List.mem_of_mem_head? first], same⟩

theorem ordered (cut : Cut scan front back)
    (inOrder : (front ++ back).Pairwise fun left right => left.span.Precedes right.span) :
    scan.spans.Pairwise Span.Precedes := by
  obtain ⟨inFront, -, across⟩ := List.pairwise_append.mp inOrder
  refine List.pairwise_append.mpr ⟨?_, ?_, ?_⟩
  · rw [cut.scanned]
    refine List.pairwise_map.mpr (List.pairwise_filterMap.mpr (inFront.imp ?_))
    intro left right precedes first leftRead second rightRead
    rwa [← (lexeme?_eq_some_iff.mp leftRead).1, ← (lexeme?_eq_some_iff.mp rightRead).1]
  · cases scan.unknown <;> simp
  · intro left leftMember right rightMember
    obtain ⟨lexeme, found, rfl⟩ := List.mem_map.mp leftMember
    obtain ⟨segment, inside, read⟩ := cut.mem_lexemes_iff.mp found
    obtain ⟨word, first, rfl⟩ := cut.unknown_eq_some_iff.mp (Option.mem_toList.mp rightMember)
    rw [← (lexeme?_eq_some_iff.mp read).1]
    exact across segment inside word (List.mem_of_mem_head? first)

/-- The word at the cut is the first unknown one. -/
theorem head_eq_or_lt (cut : Cut scan front back)
    (inOrder : (front ++ back).Pairwise fun left right => left.span.Precedes right.span)
    (member : other ∈ front ++ back) (read : other.reading = .unknownWord) :
    ∃ word ∈ back.head?, word = other ∨ word.span.start < other.span.start := by
  rcases List.mem_append.mp member with inside | behind
  · exact absurd read (cut.known other inside)
  · cases back with
    | nil => simp at behind
    | cons word rest =>
      refine ⟨word, rfl, ?_⟩
      rcases List.mem_cons.mp behind with same | later
      · exact .inl same.symm
      · have after := (List.pairwise_append.mp inOrder).2.1
        exact .inr ((List.pairwise_cons.mp after).1 other later).1

theorem head_le (cut : Cut scan front back)
    (inOrder : (front ++ back).Pairwise fun left right => left.span.Precedes right.span)
    (member : other ∈ front ++ back) (read : other.reading = .unknownWord) :
    ∃ word ∈ back.head?, word.span.start ≤ other.span.start := by
  obtain ⟨word, first, same | before⟩ := cut.head_eq_or_lt inOrder member read
  · exact ⟨word, first, Nat.le_of_eq (by rw [same])⟩
  · exact ⟨word, first, Nat.le_of_lt before⟩

theorem mem_front_of_lt {segment : Segment} (cut : Cut scan front back)
    (inOrder : (front ++ back).Pairwise fun left right => left.span.Precedes right.span)
    (member : segment ∈ front ++ back)
    (early : ∀ other ∈ front ++ back, other.reading = .unknownWord →
      segment.span.start < other.span.start) : segment ∈ front := by
  rcases List.mem_append.mp member with inside | behind
  · exact inside
  · cases back with
    | nil => simp at behind
    | cons word rest =>
      have lower := early word (by simp) (cut.stopped word rfl)
      rcases List.mem_cons.mp behind with rfl | later
      · omega
      · have after := (List.pairwise_append.mp inOrder).2.1
        have upper := ((List.pairwise_cons.mp after).1 segment later).1
        omega

theorem stop_le {segment : Segment} (cut : Cut scan front (word :: rest))
    (inOrder : (front ++ word :: rest).Pairwise fun left right => left.span.Precedes right.span)
    (later : segment ∈ rest) (member : span ∈ scan.spans) : span.stop ≤ segment.span.start := by
  obtain ⟨-, after, across⟩ := List.pairwise_append.mp inOrder
  rcases cut.mem_spans_iff.mp member with ⟨token, inside, rfl, -⟩ | ⟨other, first, rfl⟩
  · exact (across token inside segment (List.mem_cons_of_mem _ later)).2
  · obtain rfl := Option.some.inj first
    exact ((List.pairwise_cons.mp after).1 segment later).2

end Cut

variable {text : List Char}

theorem ofText_cut (text : List Char) :
    ∃ front back, Segment.split text = front ++ back ∧ Cut (ofText text) front back :=
  ofSegments_cut _

theorem mem_lexemes_ofText_iff : ⟨span, token⟩ ∈ (ofText text).lexemes ↔
    Stands text span token ∧
      ∀ other word, UnknownWord text other word → span.start < other.start := by
  obtain ⟨front, back, whole, cut⟩ := ofText_cut text
  have inOrder := Segment.split_ordered text
  rw [cut.mem_lexemes_iff]
  constructor
  · intro given
    obtain ⟨segment, inside, read⟩ := given
    obtain ⟨rfl, read⟩ := lexeme?_eq_some_iff.mp read
    refine ⟨stands_iff.mpr ⟨segment.chars, by simp [whole, inside], read⟩, ?_⟩
    intro other word unknown
    obtain ⟨member, unread⟩ := unknownWord_iff.mp unknown
    rw [whole] at member inOrder
    obtain ⟨first, atCut, lower⟩ := cut.head_le inOrder member unread
    have across := (List.pairwise_append.mp inOrder).2.2
    exact Nat.lt_of_lt_of_le (across segment inside first (List.mem_of_mem_head? atCut)).1 lower
  · intro given
    obtain ⟨stands, early⟩ := given
    obtain ⟨chars, member, read⟩ := stands_iff.mp stands
    refine ⟨⟨span, chars⟩, ?_, lexeme?_eq_some_iff.mpr ⟨rfl, read⟩⟩
    rw [whole] at member inOrder
    refine cut.mem_front_of_lt inOrder member ?_
    intro other inside unread
    exact early _ _ (unknownWord_iff.mpr ⟨whole ▸ inside, unread⟩)

/-- The word that ends a scan is the first unknown word of the text. -/
theorem unknown_ofText_iff : (ofText text).unknown = some span ↔
    ∃ word, UnknownWord text span word ∧
      ∀ other word, UnknownWord text other word → span.start ≤ other.start := by
  obtain ⟨front, back, whole, cut⟩ := ofText_cut text
  have inOrder := Segment.split_ordered text
  rw [whole] at inOrder
  rw [cut.unknown_eq_some_iff]
  constructor
  · intro given
    obtain ⟨word, first, rfl⟩ := given
    have member : word ∈ Segment.split text := by simp [whole, List.mem_of_mem_head? first]
    refine ⟨word.chars, unknownWord_iff.mpr ⟨member, cut.stopped word first⟩, ?_⟩
    intro other chars unknown
    obtain ⟨otherMember, unread⟩ := unknownWord_iff.mp unknown
    obtain ⟨least, atCut, lower⟩ := cut.head_le inOrder (whole ▸ otherMember) unread
    obtain rfl := Option.some.inj (atCut.symm.trans first)
    exact lower
  · intro given
    obtain ⟨chars, unknown, early⟩ := given
    obtain ⟨member, unread⟩ := unknownWord_iff.mp unknown
    obtain ⟨word, atCut, rfl | before⟩ := cut.head_eq_or_lt inOrder (whole ▸ member) unread
    · exact ⟨_, atCut, rfl⟩
    · have wordMember : word ∈ Segment.split text := by simp [whole, List.mem_of_mem_head? atCut]
      have least := early _ _ (unknownWord_iff.mpr ⟨wordMember, cut.stopped word atCut⟩)
      exact absurd before (Nat.not_lt.mpr least)

theorem unknown_isSome_iff : (ofText text).unknown.isSome = true ↔
    ∃ span word, UnknownWord text span word := by
  obtain ⟨front, back, whole, cut⟩ := ofText_cut text
  have inOrder := Segment.split_ordered text
  rw [whole] at inOrder
  rw [Option.isSome_iff_exists]
  constructor
  · intro given
    obtain ⟨span, unknown⟩ := given
    obtain ⟨word, unlisted, _⟩ := unknown_ofText_iff.mp unknown
    exact ⟨span, word, unlisted⟩
  · intro given
    obtain ⟨span, word, unknown⟩ := given
    obtain ⟨member, unread⟩ := unknownWord_iff.mp unknown
    obtain ⟨first, atCut, _⟩ := cut.head_le inOrder (whole ▸ member) unread
    exact ⟨first.span, cut.unknown_eq_some_iff.mpr ⟨first, atCut, rfl⟩⟩

theorem spans_ofText_ordered (text : List Char) :
    (ofText text).spans.Pairwise Span.Precedes := by
  obtain ⟨front, back, whole, cut⟩ := ofText_cut text
  have inOrder := Segment.split_ordered text
  rw [whole] at inOrder
  exact cut.ordered inOrder

theorem exists_segment_of_mem_spans (member : span ∈ (ofText text).spans) :
    ∃ segment ∈ Segment.split text, segment.span = span := by
  obtain ⟨front, back, whole, cut⟩ := ofText_cut text
  rw [whole]
  exact cut.mem_of_mem_spans member

private theorem space_of_gap {segment : Segment} (member : segment ∈ Segment.split text)
    (gap : segment.reading = .gap) (lower : segment.span.start ≤ offset)
    (upper : offset < segment.span.stop) : Occurs text ⟨offset, 1⟩ [' '] := by
  have spaces := Segment.eq_space_of_gap member gap
  have stands := Segment.occurs_of_mem_split member
  have size : segment.span.size = byteSize segment.chars := by
    obtain ⟨_, _, _, place⟩ := stands
    rw [place]
  have within : offset - segment.span.start < byteSize segment.chars := by
    rw [Span.stop] at upper
    omega
  have found := stands.within (occurs_space spaces within)
  rwa [Span.shift, Nat.add_sub_cancel' lower] at found

/-- An offset in front of the cut that no token covers is the place of a space. -/
theorem covered_or_space (inside : offset < byteSize text)
    (early : (ofText text).unknown = none ∨ ∃ span ∈ (ofText text).spans, offset < span.stop) :
    (∃ span ∈ (ofText text).spans, span.start ≤ offset ∧ offset < span.stop) ∨
      Occurs text ⟨offset, 1⟩ [' '] := by
  obtain ⟨front, back, whole, cut⟩ := ofText_cut text
  obtain ⟨segment, member, lower, upper⟩ := Segment.split_covers inside
  have inOrder := Segment.split_ordered text
  rw [whole] at inOrder
  rcases List.mem_append.mp (whole ▸ member) with inFront | behind
  · cases read : segment.reading with
    | gap => exact .inr (space_of_gap member read lower upper)
    | token token =>
      have found : segment.lexeme? = some ⟨segment.span, token⟩ :=
        lexeme?_eq_some_iff.mpr ⟨rfl, read⟩
      exact .inl ⟨_, cut.mem_spans_iff.mpr (.inl ⟨segment, inFront, rfl, by simp [found]⟩),
        lower, upper⟩
    | unknownWord => exact absurd read (cut.known segment inFront)
  · cases back with
    | nil => simp at behind
    | cons word rest =>
      rcases List.mem_cons.mp behind with rfl | later
      · exact .inl ⟨_, cut.mem_spans_iff.mpr (.inr ⟨_, rfl, rfl⟩), lower, upper⟩
      · rcases early with none | ⟨span, inScan, before⟩
        · rw [cut.unknown_eq_some_iff.mpr ⟨word, rfl, rfl⟩] at none
          cases none
        · have bound := cut.stop_le inOrder later inScan
          omega

theorem placed_of_mem_spans (member : span ∈ (ofText text).spans) :
    0 < span.size ∧ IsBoundary text span.start ∧ IsBoundary text span.stop ∧
      span.stop ≤ byteSize text := by
  obtain ⟨segment, inside, rfl⟩ := exists_segment_of_mem_spans member
  obtain ⟨start, stop, bound⟩ := (Segment.occurs_of_mem_split inside).boundaries
  exact ⟨Segment.size_pos_of_mem_split inside, start, stop, bound⟩

theorem exact_ofText (text : List Char) : (ofText text).Exact text where
  tokens _ _ := mem_lexemes_ofText_iff
  fails := unknown_isSome_iff
  unknown span := by
    rw [unknown_ofText_iff]
    constructor
    · intro given
      obtain ⟨word, unlisted, first⟩ := given
      exact ⟨word, unlisted, unlisted.occurs.slice_eq, first⟩
    · intro given
      obtain ⟨word, unlisted, -, first⟩ := given
      exact ⟨word, unlisted, first⟩
  placed _ := placed_of_mem_spans
  ordered := spans_ofText_ordered text
  lossless _ := covered_or_space

end Scan

end Condition
