import Condition.Printing
import Condition.Proofs.ScanBehind
import Mathlib.Data.List.Chain

namespace Condition

open CharKind

namespace Token

private theorem ofWord?_of_spelledBy_operator (spelled : Operator.ofSpelling? word = some known) :
    ofWord? word = some (.operator known) :=
  ofWord?_eq_operator_iff.mpr (Operator.ofSpelling?_eq_some_iff.mp spelled)

private theorem ofWord?_of_spelledBy_boolean (spelled : literal? word = some flag) :
    ofWord? word = some (.boolean flag) :=
  ofWord?_eq_boolean_iff.mpr (literal?_eq_some_iff.mp spelled)

private theorem letters_of_ofWord? (known : ofWord? word = some token) :
    word ≠ [] ∧ ∀ char ∈ word, of char = .letter := by
  obtain ⟨nonempty, members⟩ := isWordChar_of_ofWord? known
  exact ⟨nonempty, fun char member => of_eq_letter_iff.mpr (members char member)⟩

theorem kind_ne_space (token : Token) : token.kind ≠ .space := by
  cases token <;> simp [kind]

theorem SpelledBy.kind {token : Token} (spelled : token.SpelledBy word) :
    word ≠ [] ∧ ∀ char ∈ word, of char = token.kind := by
  cases token with
  | openParen =>
    obtain rfl : word = ['('] := spelled
    exact ⟨by simp, fun char member => by rw [List.mem_singleton.mp member]; rfl⟩
  | closeParen =>
    obtain rfl : word = [')'] := spelled
    exact ⟨by simp, fun char member => by rw [List.mem_singleton.mp member]; rfl⟩
  | operator known => exact letters_of_ofWord? (ofWord?_of_spelledBy_operator spelled)
  | boolean flag => exact letters_of_ofWord? (ofWord?_of_spelledBy_boolean spelled)
  | integer digits =>
    obtain ⟨rfl, nonempty, members⟩ := spelled
    exact ⟨nonempty, fun char member => of_eq_digit_iff.mpr (members char member)⟩

theorem SpelledBy.isChain {token : Token} (spelled : token.SpelledBy word) :
    word.IsChain fun left right => joins left right = true := by
  obtain ⟨nonempty, kinds⟩ := spelled.kind
  cases token with
  | openParen =>
    obtain rfl : word = ['('] := spelled
    exact .singleton _
  | closeParen =>
    obtain rfl : word = [')'] := spelled
    exact .singleton _
  | operator known => exact Segment.isChain_of_kind rfl kinds
  | boolean flag => exact Segment.isChain_of_kind rfl kinds
  | integer digits => exact Segment.isChain_of_kind rfl kinds

theorem SpelledBy.reading {token : Token} (spelled : token.SpelledBy word) (span : Span) :
    Segment.reading ⟨span, word⟩ = .token token := by
  obtain ⟨nonempty, kinds⟩ := spelled.kind
  obtain ⟨first, rest, rfl⟩ := List.exists_cons_of_ne_nil nonempty
  have kind := kinds first List.mem_cons_self
  cases token with
  | openParen => simp only [Segment.reading, kind, Token.kind]
  | closeParen => simp only [Segment.reading, kind, Token.kind]
  | operator known =>
    simp only [Segment.reading, kind, Token.kind, ofWord?_of_spelledBy_operator spelled]
  | boolean flag =>
    simp only [Segment.reading, kind, Token.kind, ofWord?_of_spelledBy_boolean spelled]
  | integer digits =>
    obtain ⟨same, -⟩ := spelled
    simp only [Segment.reading, kind, Token.kind, same]

instance : (token : Token) → (word : List Char) → Decidable (token.SpelledBy word)
  | .openParen, word => inferInstanceAs (Decidable (word = ['(']))
  | .closeParen, word => inferInstanceAs (Decidable (word = [')']))
  | .operator spelled, word => inferInstanceAs (Decidable (Operator.ofSpelling? word = some spelled))
  | .boolean flag, word => inferInstanceAs (Decidable (literal? word = some flag))
  | .integer digits, word => decidable_of_iff (word = digits ∧ digits ≠ [] ∧ digits.all Char.isDigit)
      (by simp only [List.all_eq_true, SpelledBy])

instance : (token : Token) → Decidable token.Printable
  | .integer digits => decidable_of_iff (digits ≠ [] ∧ digits.all Char.isDigit)
      (by simp only [List.all_eq_true, Printable])
  | .openParen | .closeParen | .operator _ | .boolean _ => .isTrue trivial

end Token

theorem byteSize_replicate_space (count : Nat) : byteSize (List.replicate count ' ') = count := by
  induction count with
  | zero => rfl
  | succ count ih => rw [List.replicate_succ, byteSize_cons, ih, utf8Size_space, Nat.add_comm]

namespace Written

instance (left right : Written) : Decidable (Apart left right) :=
  inferInstanceAs (Decidable (_ → _ → _))

theorem readable_iff :
    Readable row ↔ (∀ written ∈ row, written.token.SpelledBy written.word) ∧ row.IsChain Apart := by
  rw [List.isChain_iff_forall_rel_of_append_cons_cons]
  constructor
  · intro readable
    exact ⟨readable.spelled, fun left right front back => readable.apart front left right back⟩
  · intro ⟨spelled, apart⟩
    exact ⟨spelled, fun front left right back same => apart same⟩

instance (row : List Written) : Decidable (Readable row) := decidable_of_iff _ readable_iff.symm

theorem text_cons (written : Written) (rest : List Written) (trailing : Nat) :
    text (written :: rest) trailing =
      List.replicate written.gap ' ' ++ (written.word ++ text rest trailing) := by
  simp [text, chars]

theorem Readable.tail (readable : Readable (written :: rest)) : Readable rest where
  spelled other member := readable.spelled other (List.mem_cons_of_mem _ member)
  apart front left right back same :=
    readable.apart (written :: front) left right back (by rw [same, List.cons_append])

theorem Readable.head_text (readable : Readable row) (trailing : Nat)
    (first : char ∈ (text row trailing).head?) :
    of char = .space ∨
      ∃ next rest, row = next :: rest ∧ next.gap = 0 ∧ of char = next.token.kind := by
  cases row with
  | nil =>
    have space := List.eq_of_mem_replicate (List.mem_of_mem_head? first)
    exact .inl (of_eq_space_iff.mpr space)
  | cons next rest =>
    obtain ⟨nonempty, kinds⟩ := (readable.spelled next List.mem_cons_self).kind
    rw [text_cons] at first
    cases gap : next.gap with
    | zero =>
      rw [gap, List.replicate_zero, List.nil_append, List.head?_append_of_ne_nil _ nonempty] at first
      exact .inr ⟨next, rest, rfl, gap, kinds char (List.mem_of_mem_head? first)⟩
    | succ count =>
      rw [gap, List.replicate_succ, List.cons_append, List.head?_cons] at first
      exact .inl (of_eq_space_iff.mpr (Option.some.inj first).symm)

/-- What follows a spelling does not run together with it. -/
theorem Readable.apart_text (readable : Readable (written :: rest)) (trailing : Nat) :
    Segment.Apart written.word (text rest trailing) := by
  obtain ⟨-, kinds⟩ := (readable.spelled written List.mem_cons_self).kind
  intro last lastMember first firstMember
  have lastKind := kinds last (List.mem_of_mem_getLast? lastMember)
  rcases readable.tail.head_text trailing firstMember with space | ⟨next, others, rfl, gap, kind⟩
  · apply joins_eq_false_of_ne
    rw [lastKind, space]
    exact written.token.kind_ne_space
  · have apart := readable.apart [] written next others rfl
    by_cases same : written.token.kind = next.token.kind
    · apply joins_eq_false_of_isParen
      rw [lastKind]
      by_contra plain
      have positive := apart same (by simpa using plain)
      omega
    · apply joins_eq_false_of_ne
      rwa [lastKind, kind]

/-- Reading undoes writing. -/
theorem Readable.behind_text (readable : Readable row) (start trailing : Nat) :
    Scan.behind start (text row trailing) = ⟨place start row, none⟩ := by
  induction row generalizing start with
  | nil =>
    have spaces := Scan.behind_spaces start trailing []
    rw [List.append_nil, Scan.behind_nil] at spaces
    exact spaces
  | cons written rest ih =>
    have spelled := readable.spelled written List.mem_cons_self
    rw [text_cons, Scan.behind_spaces,
      Scan.behind_append spelled.kind.1 spelled.isChain (readable.apart_text trailing)
        (spelled.reading _), ih readable.tail]
    rfl

theorem Readable.ofText (readable : Readable row) (trailing : Nat) :
    Scan.ofText (text row trailing) = ⟨place 0 row, none⟩ :=
  readable.behind_text 0 trailing

theorem byteSize_text_cons (written : Written) (rest : List Written) (trailing : Nat) :
    byteSize (text (written :: rest) trailing) =
      written.gap + byteSize written.word + byteSize (text rest trailing) := by
  simp [text_cons, byteSize_replicate_space, Nat.add_assoc]

/-- A written token stands behind the text of those before it and its own gap. -/
theorem getElem?_place (start : Nat) (before : List Written) (piece : Written) (later : List Written) :
    (place start (before ++ piece :: later))[before.length]? =
      some ⟨⟨start + byteSize (text before piece.gap), byteSize piece.word⟩, piece.token⟩ := by
  induction before generalizing start with
  | nil => simp [place, text, byteSize_replicate_space]
  | cons written rest ih =>
    rw [List.cons_append, place, List.length_cons, List.getElem?_cons_succ, ih, byteSize_text_cons]
    simp only [Span.stop, Nat.add_assoc]

theorem occurs_text (before : List Written) (piece : Written) (after : List Written)
    (trailing : Nat) :
    Occurs (text (before ++ piece :: after) trailing)
      ⟨byteSize (text before piece.gap), byteSize piece.word⟩ piece.word :=
  ⟨text before piece.gap, text after trailing, by simp [text, chars], rfl⟩

theorem place_token (start : Nat) (row : List Written) :
    (place start row).map Lexeme.token = row.map token := by
  induction row generalizing start with
  | nil => rfl
  | cons written rest ih => simp [place, ih]

end Written

end Condition
