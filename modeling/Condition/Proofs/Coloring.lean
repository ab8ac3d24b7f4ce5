import Condition.Bracket
import Condition.Counting
import Condition.Proofs.Shading

namespace Condition

variable {line : List Char} {front back : List Segment} {shades : List Shade}

theorem CharKind.isSpace_eq : (· == ' ') = fun char => of char == .space := by
  funext char
  rw [Bool.eq_iff_iff, beq_iff_eq, beq_iff_eq, of_eq_space_iff]

/-- What the color of a token says. -/
structure Legend (token : Token) : Prop where
  cyan : token.color = .cyan ↔ token.value?.isSome = true
  yellow : token.color = .yellow ↔ ∃ comparison, token = .operator (.comparison comparison)
  magenta : token.color = .magenta ↔ ∃ connective, token = .operator (.connective connective)
  white : token.color = .white ↔ Bracket.isInner token = false
  notRed : token.color ≠ .red

theorem Token.legend (token : Token) : Legend token := by
  cases token with
  | operator known => cases known <;> constructor <;> simp [color, value?, Bracket.isInner]
  | _ => constructor <;> simp [color, value?, Bracket.isInner]

namespace Shade

theorem mem_between_iff {shade : Shade} :
    shade ∈ between start stop ↔ start < stop ∧ shade = ⟨.white, ⟨start, stop - start⟩⟩ := by
  rw [between]
  split <;> simp [*]

theorem ofSegments_append (size : Nat) (back : List Segment)
    (known : ∀ segment ∈ front, segment.reading ≠ .unknownWord) :
    ofSegments size (front ++ back) = front.map Segment.shade ++ ofSegments size back := by
  induction front with
  | nil => rfl
  | cons segment front ih =>
    rw [List.cons_append, ofSegments, if_neg (known segment List.mem_cons_self),
      ih fun other member => known other (.tail _ member)]
    rfl

/-- Behind the cut a word is red, and all that follows it is one white shade. -/
theorem ofSegments_cut (cut : Scan.Cut scan front back) (size : Nat) :
    ofSegments size (front ++ back) = front.map Segment.shade ++
      (scan.unknown.toList.map (Shade.mk .red) ++
        scan.unknown.toList.flatMap fun span => between span.stop size) := by
  rw [ofSegments_append size back cut.known, cut.scanned]
  cases back with
  | nil => rfl
  | cons word rest =>
    have read := cut.stopped word rfl
    simp [ofSegments, Segment.shade_of_unknownWord read, read]

theorem filter_shade (known : ∀ segment ∈ front, segment.reading ≠ .unknownWord) :
    (front.map Segment.shade).filter (·.color ≠ .white) =
      ((front.filterMap Segment.lexeme?).filter (Bracket.isInner ·.token)).map
        fun lexeme => ofItem (.ok lexeme) := by
  induction front with
  | nil => rfl
  | cons segment front ih =>
    have later := ih fun other member => known other (.tail _ member)
    cases read : segment.reading with
    | gap =>
      have silent : segment.lexeme? = none := by simp only [Segment.lexeme?, read]
      rw [List.map_cons, Segment.shade_of_gap read, List.filterMap_cons_none silent]
      exact later
    | token token =>
      have found : segment.lexeme? = some ⟨segment.span, token⟩ :=
        Segment.lexeme?_eq_some_iff.mpr ⟨rfl, read⟩
      have white := token.legend.white
      rw [List.map_cons, Segment.shade_of_token read, List.filterMap_cons_some found]
      by_cases plain : token.color = .white
      · rw [List.filter_cons_of_neg (by simp [plain]), later,
          List.filter_cons_of_neg (by simp [white.mp plain])]
      · have inner : Bracket.isInner token = true := by
          simpa using mt white.mpr plain
        rw [List.filter_cons_of_pos (by simpa using plain), later]
        simp only [List.filter_cons, inner, if_true, List.map_cons]
        rfl
    | unknownWord => exact absurd read (known segment List.mem_cons_self)

end Shade

/-- What is shown of a line in front of its unknown word. -/
structure KnownPart (line : List Char) (shades : List Shade) : Prop where
  notRed : ∀ shade ∈ shades, shade.color ≠ .red
  tokens : shades.filter (·.color ≠ .white) =
    ((Scan.ofText line).lexemes.filter (Bracket.isInner ·.token)).map
      fun lexeme => .ofItem (.ok lexeme)
  white : ∀ shade ∈ shades, shade.color = .white →
    Occurs line shade.span ['('] ∨ Occurs line shade.span [')'] ∨
      MaximalRun (· == ' ') line shade.span (shade.span.slice line)

/-- What the colored pieces of a line show. -/
structure Colored (line : List Char) (pieces : List Piece) : Prop where
  lossless : pieces.flatMap Piece.chars = line
  nonempty : ∀ piece ∈ pieces, piece.chars ≠ []
  cut : pieces = (Shade.ofText line).map (Shade.piece line)
  placed : ∀ shade ∈ Shade.ofText line, shade.span.start ≤ shade.span.stop ∧
    shade.span.stop ≤ byteSize line ∧ IsBoundary line shade.span.start ∧
    IsBoundary line shade.span.stop
  legend : ∀ lexeme ∈ (Scan.ofText line).lexemes, Legend lexeme.token
  /-- Red is the word that is reported as unknown. -/
  red : pieces.filter (·.color = .red) =
    (Scan.ofText line).unknown.toList.map fun span =>
      ⟨.red, Failure.culprit ⟨line, .unknownWord span⟩⟩
  /-- At most one white piece follows an unknown word. -/
  parts : ∃ known rest, KnownPart line known ∧
    Shade.ofText line = known ++ ((Scan.ofText line).unknown.toList.map (Shade.mk .red) ++ rest) ∧
    rest.length ≤ (Scan.ofText line).unknown.toList.length ∧ ∀ shade ∈ rest, shade.color = .white

/-- A segment that is shown white is a parenthesis, or all the spaces between two others. -/
theorem Segment.white_shade {segment : Segment} (member : segment ∈ split line)
    (white : segment.shade.color = .white) :
    Occurs line segment.span ['('] ∨ Occurs line segment.span [')'] ∨
      MaximalRun (· == ' ') line segment.span (segment.span.slice line) := by
  have stands := occurs_of_mem_split member
  cases read : segment.reading with
  | gap =>
    obtain ⟨first, rest, chars⟩ := exists_cons_of_mem_split member
    obtain ⟨span, _⟩ := segment
    subst chars
    rw [stands.slice_eq, CharKind.isSpace_eq]
    exact .inr (.inr (maximalRun_of_mem_split rfl member rfl (kind_of_gap read)))
  | token token =>
    rw [shade_of_token read] at white
    have outer := token.legend.white.mp white
    have found := stands_of_reading member read
    cases found with
    | openParen place => exact .inl place
    | closeParen place => exact .inr (.inl place)
    | _ => cases outer
  | unknownWord =>
    rw [shade_of_unknownWord read] at white
    cases white

theorem Shade.known_of_cut (split : Segment.split line = front ++ back)
    (cut : Scan.Cut (Scan.ofText line) front back) : KnownPart line (front.map Segment.shade) where
  notRed shade member := by
    obtain ⟨segment, inside, rfl⟩ := List.mem_map.mp member
    cases read : segment.reading with
    | gap =>
      rw [Segment.shade_of_gap read]
      exact Color.noConfusion
    | token token =>
      rw [Segment.shade_of_token read]
      exact token.legend.notRed
    | unknownWord => exact absurd read (cut.known segment inside)
  tokens := by
    rw [filter_shade cut.known, cut.scanned]
  white shade member white := by
    obtain ⟨segment, inside, rfl⟩ := List.mem_map.mp member
    rw [Segment.shade_span]
    exact Segment.white_shade (split ▸ List.mem_append_left back inside) white

theorem Shade.parts (line : List Char) : ∃ known rest, KnownPart line known ∧
    ofText line = known ++ ((Scan.ofText line).unknown.toList.map (Shade.mk .red) ++ rest) ∧
    rest.length ≤ (Scan.ofText line).unknown.toList.length ∧
      ∀ shade ∈ rest, shade.color = .white := by
  obtain ⟨front, back, split, cut⟩ := Scan.ofText_cut line
  have whole : ofText line = _ := (ofText_eq line).trans (congrArg _ split)
  refine ⟨_, _, known_of_cut split cut, whole.trans (ofSegments_cut cut _), ?_, ?_⟩
  · cases (Scan.ofText line).unknown with
    | none => exact Nat.le_refl 0
    | some span =>
      simp only [Option.toList_some, List.flatMap_singleton, List.length_singleton, between]
      split <;> simp
  · intro shade member
    obtain ⟨span, -, inside⟩ := List.mem_flatMap.mp member
    rw [(mem_between_iff.mp inside).2]

theorem Shade.placed (member : shade ∈ ofText line) :
    shade.span.start ≤ shade.span.stop ∧ shade.span.stop ≤ byteSize line ∧
      IsBoundary line shade.span.start ∧ IsBoundary line shade.span.stop := by
  obtain ⟨front, back, split, cut⟩ := Scan.ofText_cut line
  rw [ofText_eq, split, ofSegments_cut cut] at member
  rcases List.mem_append.mp member with inFront | behind
  · obtain ⟨segment, inside, rfl⟩ := List.mem_map.mp inFront
    have stands : segment ∈ Segment.split line := split ▸ List.mem_append_left back inside
    obtain ⟨start, stop, bound⟩ := (Segment.occurs_of_mem_split stands).boundaries
    rw [Segment.shade_span]
    exact ⟨Nat.le_add_right _ _, bound, start, stop⟩
  rcases List.mem_append.mp behind with red | last
  · obtain ⟨span, word, rfl⟩ := List.mem_map.mp red
    obtain ⟨-, start, stop, bound⟩ := Scan.placed_of_mem_spans (List.mem_append_right _ word)
    exact ⟨Nat.le_add_right _ _, bound, start, stop⟩
  · obtain ⟨span, word, between⟩ := List.mem_flatMap.mp last
    obtain ⟨ahead, rfl⟩ := mem_between_iff.mp between
    obtain ⟨-, -, start, -⟩ := Scan.placed_of_mem_spans (List.mem_append_right _ word)
    have reaches : span.stop + (byteSize line - span.stop) = byteSize line :=
      Nat.add_sub_cancel' (Nat.le_of_lt ahead)
    refine ⟨Nat.le_add_right _ _, Nat.le_of_eq reaches, start, line, [], by simp, reaches.symm⟩

theorem Piece.chars_ne_nil_of_mem {segments : List Segment}
    (nonempty : ∀ segment ∈ segments, segment.chars ≠ []) :
    ∀ piece ∈ ofSegments segments, piece.chars ≠ [] := by
  induction segments with
  | nil => exact fun piece member => (List.not_mem_nil member).elim
  | cons segment later ih =>
    have first := nonempty segment List.mem_cons_self
    have others := ih fun other member => nonempty other (.tail _ member)
    rw [ofSegments]
    cases segment.reading with
    | gap => exact List.forall_mem_cons.mpr ⟨first, others⟩
    | token token => exact List.forall_mem_cons.mpr ⟨first, others⟩
    | unknownWord =>
      refine List.forall_mem_cons.mpr ⟨first, fun piece member => ?_⟩
      cases later with
      | nil => exact (List.not_mem_nil member).elim
      | cons other rest =>
        rw [List.mem_singleton.mp member, List.flatMap_cons]
        exact List.append_ne_nil_of_left_ne_nil (nonempty other (.tail _ (.head _))) _

theorem Shade.filter_red (line : List Char) (plain : ∀ shade ∈ shades, shade.color ≠ .red) :
    (shades.map (piece line)).filter (·.color = .red) = [] := by
  rw [List.filter_eq_nil_iff]
  intro piece member
  obtain ⟨shade, inside, rfl⟩ := List.mem_map.mp member
  exact fun red => plain shade inside (of_decide_eq_true red)

/-- Nothing of a line is lost, and nothing but its unknown word is red. -/
theorem highlight_colored (line : List Char) : Colored line (highlight line) where
  lossless := by
    rw [highlight, Piece.flatMap_chars_ofSegments, List.flatMap_def, Segment.split,
      Segment.locate_chars, List.flatten_splitBy]
  nonempty := Piece.chars_ne_nil_of_mem fun segment member => by
    obtain ⟨first, rest, chars⟩ := Segment.exists_cons_of_mem_split member
    rw [chars]
    exact List.cons_ne_nil first rest
  cut := (Shade.map_ofText line).symm
  placed _ := Shade.placed
  legend lexeme _ := lexeme.token.legend
  red := by
    obtain ⟨known, rest, shown, whole, -, white⟩ := Shade.parts line
    have plain : ∀ shade ∈ rest, shade.color ≠ .red := by
      intro shade member
      rw [white shade member]
      exact Color.noConfusion
    rw [← Shade.map_ofText, whole, List.map_append, List.map_append, List.filter_append,
      List.filter_append, Shade.filter_red line shown.notRed,
      Shade.filter_red line plain, List.filter_eq_self.mpr]
    · simp [Shade.piece, Failure.culprit, Fault.span?]
    · simp [Shade.piece]
  parts := Shade.parts line

/-- In `1 xor 2` the unknown word is red, and what follows it is white. -/
example : highlight ['1', ' ', 'x', 'o', 'r', ' ', '2'] =
    [⟨.cyan, ['1']⟩, ⟨.white, [' ']⟩, ⟨.red, ['x', 'o', 'r']⟩, ⟨.white, [' ', '2']⟩] := by
  decide

end Condition
