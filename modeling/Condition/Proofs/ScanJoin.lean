import Condition.Proofs.PrintedScan

/-! A text can be cut at a space or at a parenthesis. Its parts are then scanned
each by itself, as no word or number reaches over the cut. -/

namespace Condition

open CharKind

namespace Scan

/-- A scan with another one behind it. Nothing is read behind an unknown word. -/
def append (first second : Scan) : Scan :=
  match first.unknown with
  | some _ => first
  | none => { second with lexemes := first.lexemes ++ second.lexemes }

def shift (offset : Nat) (scan : Scan) : Scan where
  lexemes := scan.lexemes.map fun lexeme => { lexeme with span := lexeme.span.shift offset }
  unknown := scan.unknown.map (Span.shift offset)

variable {first second : Scan} {left right : List Char}

theorem append_of_complete (complete : first.unknown = none) :
    first.append second = { second with lexemes := first.lexemes ++ second.lexemes } := by
  simp only [append, complete]

theorem append_of_unknown (word : first.unknown = some span) : first.append second = first := by
  simp only [append, word]

@[simp] theorem empty_append (scan : Scan) : append ⟨[], none⟩ scan = scan := rfl

@[simp] theorem append_empty (scan : Scan) : scan.append ⟨[], none⟩ = scan := by
  obtain ⟨lexemes, unknown⟩ := scan
  cases unknown with
  | none => simp [append]
  | some span => rfl

theorem ofSegments_append (front back : List Segment) :
    ofSegments (front ++ back) = (ofSegments front).append (ofSegments back) := by
  induction front with
  | nil => rfl
  | cons segment rest ih =>
    rw [List.cons_append, ofSegments, ofSegments, ih]
    cases segment.reading with
    | gap => rfl
    | unknownWord => rfl
    | token token =>
      generalize ofSegments rest = later
      obtain ⟨lexemes, unknown⟩ := later
      cases unknown <;> rfl

theorem behind_append_of_apart (start : Nat) (apart : Segment.Apart left right) :
    behind start (left ++ right) = (behind start left).append (behind (start + byteSize left) right) := by
  rw [behind, List.splitBy_append apart, Segment.locate_append, ofSegments_append,
    List.flatten_splitBy]
  rfl

theorem ofSegments_locate (offset start : Nat) (pieces : List (List Char)) :
    ofSegments (Segment.locate (offset + start) pieces) =
      (ofSegments (Segment.locate start pieces)).shift offset := by
  induction pieces generalizing start with
  | nil => rfl
  | cons piece rest ih =>
    have later := ih (start + byteSize piece)
    rw [← Nat.add_assoc] at later
    simp only [Segment.locate, Span.stop, ofSegments, later]
    have same : Segment.reading ⟨⟨offset + start, byteSize piece⟩, piece⟩ =
        Segment.reading ⟨⟨start, byteSize piece⟩, piece⟩ := rfl
    rw [same]
    cases Segment.reading ⟨⟨start, byteSize piece⟩, piece⟩ <;> rfl

/-- Only the places of tokens depend on what stands in front of a text. -/
theorem behind_eq_shift (start : Nat) (text : List Char) : behind start text = (ofText text).shift start :=
  ofSegments_locate start 0 _

@[simp] theorem shift_tokens (offset : Nat) (scan : Scan) : (scan.shift offset).tokens = scan.tokens := by
  simp [shift, tokens]

@[simp] theorem shift_unknown_eq_none (offset : Nat) (scan : Scan) :
    (scan.shift offset).unknown = none ↔ scan.unknown = none := by
  simp [shift]

/-- A space separates what is in front of it from what is behind it. -/
theorem behind_append_space (start : Nat) (left right : List Char) :
    behind start (left ++ ' ' :: right) =
      (behind start left).append (behind (start + byteSize left + 1) right) := by
  induction left using List.reverseRecOn generalizing right with
  | nil => simpa using behind_space start right
  | append_singleton front last ih =>
    by_cases space : last = ' '
    · -- Spaces in front of the cut are one run with it, so the cut is moved in front of them.
      subst space
      have inner := ih (' ' :: right)
      have outer := ih []
      rw [behind_nil, append_empty] at outer
      rw [behind_space] at inner
      rw [List.append_assoc, List.singleton_append, inner, outer]
      simp [Nat.add_assoc]
    · have apart : Segment.Apart (front ++ [last]) (' ' :: right) := by
        intro before stands after next
        obtain rfl : last = before := by simpa using stands
        obtain rfl : ' ' = after := by simpa using next
        exact joins_eq_false_of_ne fun same => space (of_eq_space_iff.mp same)
      rw [behind_append_of_apart start apart, behind_space]

/-- A parenthesis separates what is in front of it from what is behind it. -/
theorem behind_append_paren (start : Nat) (left right : List Char)
    (paren : (of char).isParen = true) (spelled : Token.SpelledBy token [char]) :
    behind start (left ++ char :: right) = (behind start left).append
      (append ⟨[⟨⟨start + byteSize left, byteSize [char]⟩, token⟩], none⟩
        (behind (start + byteSize left + byteSize [char]) right)) := by
  have before : Segment.Apart left (char :: right) := by
    intro last _ next stands
    obtain rfl : char = next := by simpa using stands
    by_contra joined
    obtain ⟨same, plain⟩ := joins_eq_true_iff.mp (by simpa using joined)
    rw [same, paren] at plain
    cases plain
  have after : Segment.Apart [char] right := Segment.apart_concat_paren paren [] right
  rw [behind_append_of_apart start before, ← List.singleton_append,
    behind_append (List.cons_ne_nil char []) spelled.isChain after (spelled.reading _)]
  rfl

/-- A scan that comes to its end and finds these tokens. -/
structure Spells (scan : Scan) (tokens : List Token) : Prop where
  complete : scan.unknown = none
  tokens : scan.tokens = tokens

variable {tokens : List Token}

theorem spells_append_iff : (first.append second).Spells tokens ↔
    ∃ front back, first.Spells front ∧ second.Spells back ∧ tokens = front ++ back := by
  constructor
  · rintro ⟨complete, rfl⟩
    cases word : first.unknown with
    | some span =>
      rw [append_of_unknown word, word] at complete
      cases complete
    | none =>
      rw [append_of_complete word] at complete ⊢
      exact ⟨_, _, ⟨word, rfl⟩, ⟨complete, rfl⟩, List.map_append⟩
  · rintro ⟨_, _, ⟨word, rfl⟩, ⟨complete, rfl⟩, rfl⟩
    rw [append_of_complete word]
    exact ⟨complete, List.map_append⟩

theorem spells_behind_iff {text : List Char} :
    (behind start text).Spells tokens ↔ (ofText text).Spells tokens := by
  rw [behind_eq_shift]
  constructor
  · rintro ⟨complete, same⟩
    exact ⟨(shift_unknown_eq_none start _).mp complete, by rwa [shift_tokens] at same⟩
  · rintro ⟨complete, same⟩
    exact ⟨(shift_unknown_eq_none start _).mpr complete, by rwa [shift_tokens]⟩

theorem spells_space_iff : (ofText (left ++ ' ' :: right)).Spells tokens ↔
    ∃ front back, (ofText left).Spells front ∧ (ofText right).Spells back ∧ tokens = front ++ back := by
  rw [← behind_zero, behind_append_space, spells_append_iff]
  simp only [spells_behind_iff]

theorem spells_paren_iff (paren : (of char).isParen = true) (spelled : Token.SpelledBy token [char]) :
    (ofText (left ++ char :: right)).Spells tokens ↔
      ∃ front back, (ofText left).Spells front ∧ (ofText right).Spells back ∧
        tokens = front ++ token :: back := by
  rw [← behind_zero, behind_append_paren 0 left right paren spelled, spells_append_iff]
  simp only [spells_append_iff, spells_behind_iff]
  constructor
  · rintro ⟨front, _, before, ⟨_, back, ⟨-, rfl⟩, after, rfl⟩, rfl⟩
    exact ⟨front, back, before, after, rfl⟩
  · rintro ⟨front, back, before, after, rfl⟩
    exact ⟨front, token :: back, before, ⟨[token], back, ⟨rfl, rfl⟩, after, rfl⟩, rfl⟩

theorem spells_group_iff {before inner behind : List Char} :
    (ofText (before ++ '(' :: (inner ++ ')' :: behind))).Spells tokens ↔
      ∃ front inside back, (ofText before).Spells front ∧ (ofText inner).Spells inside ∧
        (ofText behind).Spells back ∧
        tokens = front ++ .openParen :: (inside ++ .closeParen :: back) := by
  have opens : Token.SpelledBy .openParen ['('] := rfl
  have closes : Token.SpelledBy .closeParen [')'] := rfl
  simp only [spells_paren_iff rfl opens, spells_paren_iff rfl closes]
  constructor
  · rintro ⟨front, _, first, ⟨inside, back, second, third, rfl⟩, rfl⟩
    exact ⟨front, inside, back, first, second, third, rfl⟩
  · rintro ⟨front, inside, back, first, second, third, rfl⟩
    exact ⟨front, _, first, ⟨inside, back, second, third, rfl⟩, rfl⟩

theorem spells_of_spelledBy (spelled : Token.SpelledBy token word) : (ofText word).Spells [token] := by
  have nothing : Segment.Apart word [] := by
    intro _ _ next stands
    cases stands
  have whole := behind_append spelled.kind.1 spelled.isChain nothing
    (spelled.reading ⟨0, byteSize word⟩)
  rw [List.append_nil, behind_zero] at whole
  rw [whole]
  exact ⟨rfl, rfl⟩

end Scan

end Condition
