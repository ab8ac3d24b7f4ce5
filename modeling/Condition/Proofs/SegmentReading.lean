import Condition.Proofs.SegmentRuns

namespace Condition

namespace Segment

open CharKind

theorem exists_cons_of_mem_split {segment : Segment} {text : List Char}
    (member : segment ∈ split text) :
    ∃ first rest, segment.chars = first :: rest := by
  obtain ⟨_, _, _, _, nonempty, _⟩ := mem_split_iff.mp member
  exact List.exists_cons_of_ne_nil nonempty

theorem reading_of_letter {span : Span} (letter : of first = .letter) :
    reading ⟨span, first :: rest⟩ =
      match Token.ofWord? (first :: rest) with
      | some token => .token token
      | none => .unknownWord := by
  cases known : Token.ofWord? (first :: rest) <;> simp only [reading, letter, known]

theorem kind_of_gap {span : Span} (gap : reading ⟨span, first :: rest⟩ = .gap) :
    of first = .space := by
  cases kind : of first with
  | space => rfl
  | letter =>
    rw [reading_of_letter kind] at gap
    split at gap <;> cases gap
  | _ => simp [reading, kind] at gap

theorem mem_split_word_iff {text word : List Char} {span : Span} :
    MaximalRun isWordChar text span word ↔
      ⟨span, word⟩ ∈ split text ∧ ∃ first ∈ word.head?, of first = .letter := by
  rw [isWordChar_eq]
  exact (mem_split_run_iff rfl).symm

theorem mem_split_digits_iff {text digits : List Char} {span : Span} :
    MaximalRun Char.isDigit text span digits ↔
      ⟨span, digits⟩ ∈ split text ∧ ∃ first ∈ digits.head?, of first = .digit := by
  rw [isDigit_eq]
  exact (mem_split_run_iff rfl).symm

end Segment

open Segment CharKind

/-- A maximal run of word characters is a segment, and the tables say how it reads. -/
theorem reading_of_word {text word : List Char} {span : Span}
    (run : MaximalRun isWordChar text span word) :
    ⟨span, word⟩ ∈ split text ∧
      reading ⟨span, word⟩ =
        match Token.ofWord? word with
        | some token => .token token
        | none => .unknownWord := by
  obtain ⟨member, first, firstMember, letter⟩ := mem_split_word_iff.mp run
  obtain ⟨rest, rfl⟩ := List.head?_eq_some_iff.mp firstMember
  exact ⟨member, reading_of_letter letter⟩

theorem Stands.reading {text : List Char} {span : Span} (stands : Stands text span token) :
    ∃ chars, ⟨span, chars⟩ ∈ split text ∧ Segment.reading ⟨span, chars⟩ = .token token := by
  cases stands with
  | openParen place =>
    exact ⟨_, (mem_split_paren_iff (by decide)).mpr ⟨rfl, place⟩, rfl⟩
  | closeParen place =>
    exact ⟨_, (mem_split_paren_iff (by decide)).mpr ⟨rfl, place⟩, rfl⟩
  | integer run =>
    obtain ⟨member, first, firstMember, digit⟩ := mem_split_digits_iff.mp run
    obtain ⟨rest, rfl⟩ := List.head?_eq_some_iff.mp firstMember
    exact ⟨_, member, by simp only [Segment.reading, digit]⟩
  | boolean run listed =>
    obtain ⟨member, read⟩ := reading_of_word run
    exact ⟨_, member, by rw [read, Token.ofWord?_eq_boolean_iff.mpr listed]⟩
  | operator run listed =>
    obtain ⟨member, read⟩ := reading_of_word run
    exact ⟨_, member, by rw [read, Token.ofWord?_eq_operator_iff.mpr listed]⟩

theorem stands_of_reading {text chars : List Char} {span : Span}
    (member : ⟨span, chars⟩ ∈ split text) (read : Segment.reading ⟨span, chars⟩ = .token token) :
    Stands text span token := by
  obtain ⟨first, rest, rfl⟩ := exists_cons_of_mem_split member
  cases kind : of first with
  | space => simp [Segment.reading, kind] at read
  | openParen =>
    obtain rfl := of_eq_openParen_iff.mp kind
    obtain ⟨rfl, place⟩ := (mem_split_paren_iff (by decide)).mp member
    cases read
    exact .openParen place
  | closeParen =>
    obtain rfl := of_eq_closeParen_iff.mp kind
    obtain ⟨rfl, place⟩ := (mem_split_paren_iff (by decide)).mp member
    cases read
    exact .closeParen place
  | digit =>
    simp only [Segment.reading, kind, Reading.token.injEq] at read
    subst read
    exact .integer (mem_split_digits_iff.mpr ⟨member, first, by simp, kind⟩)
  | letter =>
    have run := mem_split_word_iff.mpr ⟨member, first, by simp, kind⟩
    rw [reading_of_letter kind] at read
    cases known : Token.ofWord? (first :: rest) with
    | none => simp [known] at read
    | some found =>
      obtain rfl : found = token := by simpa [known] using read
      rcases Token.ofWord?_cases known with ⟨flag, rfl⟩ | ⟨spelled, rfl⟩
      · exact .boolean run (Token.ofWord?_eq_boolean_iff.mp known)
      · exact .operator run (Token.ofWord?_eq_operator_iff.mp known)

/-- The tokens of a text are its segments that read as tokens. -/
theorem stands_iff {text : List Char} {span : Span} :
    Stands text span token ↔
      ∃ chars, ⟨span, chars⟩ ∈ split text ∧ reading ⟨span, chars⟩ = .token token := by
  constructor
  · exact Stands.reading
  · intro given
    obtain ⟨chars, member, read⟩ := given
    exact stands_of_reading member read

theorem unknownWord_iff {text word : List Char} {span : Span} :
    UnknownWord text span word ↔
      ⟨span, word⟩ ∈ split text ∧ reading ⟨span, word⟩ = .unknownWord := by
  constructor
  · intro given
    obtain ⟨run, noLiteral, noOperator⟩ := given
    obtain ⟨member, read⟩ := reading_of_word run
    exact ⟨member, by rw [read, Token.ofWord?_eq_none_iff.mpr ⟨noLiteral, noOperator⟩]⟩
  · intro given
    obtain ⟨member, read⟩ := given
    obtain ⟨first, rest, rfl⟩ := exists_cons_of_mem_split member
    cases kind : of first with
    | letter =>
      have unlisted : Token.ofWord? (first :: rest) = none := by
        rw [reading_of_letter kind] at read
        cases known : Token.ofWord? (first :: rest) <;> simp_all
      obtain ⟨noLiteral, noOperator⟩ := Token.ofWord?_eq_none_iff.mp unlisted
      exact ⟨mem_split_word_iff.mpr ⟨member, first, by simp, kind⟩, noLiteral, noOperator⟩
    | _ => simp [reading, kind] at read

theorem Segment.eq_space_of_gap {text : List Char} {segment : Segment} (member : segment ∈ split text)
    (gap : segment.reading = .gap) : ∀ char ∈ segment.chars, char = ' ' := by
  obtain ⟨span, chars⟩ := segment
  obtain ⟨first, rest, rfl⟩ := exists_cons_of_mem_split member
  have run : MaximalRun (of · == .space) text span (first :: rest) :=
    (mem_split_run_iff rfl).mp ⟨member, first, by simp, kind_of_gap gap⟩
  obtain ⟨_, _, _, _, _, members, _⟩ := run
  intro char inside
  exact of_eq_space_iff.mp (by simpa using members char inside)

end Condition
