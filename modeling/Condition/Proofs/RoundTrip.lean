import Condition.Proofs.ScanExact
import Condition.Proofs.ScanJoin

namespace Condition

open CharKind

namespace Token

theorem spelledBy_of_reading {rest : List Char}
    (read : Segment.reading ⟨span, char :: rest.takeWhile (joins char)⟩ = .token token) :
    token.SpelledBy (char :: rest.takeWhile (joins char)) := by
  have alone (paren : (of char).isParen = true) : rest.takeWhile (joins char) = [] := by
    cases rest <;> simp [joins_eq_false_of_isParen paren]
  cases kind : of char with
  | space => simp only [Segment.reading, kind, reduceCtorEq] at read
  | openParen =>
    obtain rfl := of_eq_openParen_iff.mp kind
    simp only [Segment.reading, kind, Reading.token.injEq] at read
    rw [← read, alone rfl]
    rfl
  | closeParen =>
    obtain rfl := of_eq_closeParen_iff.mp kind
    simp only [Segment.reading, kind, Reading.token.injEq] at read
    rw [← read, alone rfl]
    rfl
  | digit =>
    simp only [Segment.reading, kind, Reading.token.injEq] at read
    rw [← read]
    refine ⟨rfl, List.cons_ne_nil _ _, fun other member => of_eq_digit_iff.mp ?_⟩
    rcases List.mem_cons.mp member with rfl | later
    · exact kind
    · rw [Segment.kind_of_mem_takeWhile later, kind]
  | letter =>
    rw [Segment.reading_of_letter kind] at read
    cases known : ofWord? (char :: rest.takeWhile (joins char)) with
    | none => simp [known] at read
    | some found =>
      obtain rfl : found = token := by simpa [known] using read
      rcases ofWord?_cases known with ⟨flag, rfl⟩ | ⟨spelled, rfl⟩
      · exact literal?_eq_some_iff.mpr (ofWord?_eq_boolean_iff.mp known)
      · exact Operator.ofSpelling?_eq_some_iff.mpr (ofWord?_eq_operator_iff.mp known)

theorem spelledBy_display {token : Token} (printable : token.Printable) :
    token.SpelledBy token.display.toList := by
  cases token with
  | openParen => rfl
  | closeParen => rfl
  | operator known => exact Operator.ofSpelling?_display known
  | boolean flag => cases flag <;> decide
  | integer digits => exact ⟨String.toList_ofList, printable⟩

theorem printable_of_spelledBy {token : Token} (spelled : token.SpelledBy word) :
    token.Printable := by
  cases token with
  | integer digits => exact spelled.2
  | _ => trivial

end Token

namespace Written

theorem readable_nil : Readable [] where
  spelled _ member := by cases member
  apart front _ _ _ same := by simp at same

theorem Readable.widen (readable : Readable (written :: rest)) (gap : Nat) :
    Readable ({ written with gap := gap } :: rest) := by
  obtain ⟨spelled, apart⟩ := readable_iff.mp readable
  refine readable_iff.mpr ⟨?_, ?_⟩
  · simpa using spelled
  · cases rest with
    | nil => exact .singleton _
    | cons next later =>
      obtain ⟨first, others⟩ := List.isChain_cons_cons.mp apart
      exact List.isChain_cons_cons.mpr ⟨first, others⟩

/-- A spelling can be written in front of a text that does not run together with it. -/
theorem Readable.cons {token : Token} {word : List Char} (readable : Readable row)
    (spelled : token.SpelledBy word) (apart : Segment.Apart word (text row trailing)) :
    Readable (⟨0, word, token⟩ :: row) := by
  obtain ⟨others, chain⟩ := readable_iff.mp readable
  refine readable_iff.mpr ⟨by simpa using ⟨spelled, others⟩, ?_⟩
  cases row with
  | nil => exact .singleton _
  | cons next later =>
    refine List.isChain_cons_cons.mpr ⟨fun same plain => ?_, chain⟩
    by_contra noGap
    obtain ⟨nonempty, kinds⟩ := spelled.kind
    obtain ⟨nextNonempty, nextKinds⟩ := (others next List.mem_cons_self).kind
    have first : next.word.head nextNonempty ∈ (text (next :: later) trailing).head? := by
      rw [text_cons, Nat.eq_zero_of_not_pos noGap, List.replicate_zero, List.nil_append,
        List.head?_append_of_ne_nil _ nextNonempty]
      exact List.head_mem_head? nextNonempty
    have free := apart _ (List.getLast_mem_getLast? nonempty) _ first
    refine kinds_ne_of_joins free ?_ ?_
    · rw [kinds _ (List.getLast_mem nonempty)]
      exact plain
    · rw [kinds _ (List.getLast_mem nonempty), nextKinds _ (List.head_mem nextNonempty)]
      exact same

/-- A space in front of the text of a row is one more space in front of its first token. -/
theorem Readable.space_text (readable : Readable row) (trailing : Nat) :
    ∃ row' trailing', Readable row' ∧ ' ' :: text row trailing = text row' trailing' := by
  cases row with
  | nil => exact ⟨[], trailing + 1, readable, rfl⟩
  | cons written rest =>
    refine ⟨_, trailing, readable.widen (written.gap + 1), ?_⟩
    rw [text_cons, text_cons, List.replicate_succ, List.cons_append]

theorem exists_text (start : Nat) (chars : List Char)
    (complete : (Scan.behind start chars).unknown = none) :
    ∃ row trailing, Readable row ∧ chars = text row trailing := by
  -- The scan goes on behind a whole segment, so the induction is on the length of the text.
  induction size : chars.length using Nat.strong_induction_on generalizing start chars with
  | _ _ ih =>
    subst size
    cases chars with
    | nil => exact ⟨[], 0, readable_nil, rfl⟩
    | cons char rest =>
      by_cases space : char = ' '
      · subst space
        rw [Scan.behind_space] at complete
        obtain ⟨row, trailing, readable, rfl⟩ :=
          ih rest.length (Nat.lt_succ_self _) _ rest complete rfl
        exact readable.space_text trailing
      · have shorter : (rest.dropWhile (joins char)).length < (char :: rest).length :=
          Nat.lt_succ_of_le (List.dropWhile_suffix (joins char)).length_le
        rw [Scan.behind_cons, Scan.ofSegments] at complete
        generalize same : Segment.reading _ = reading at complete
        cases reading with
        | gap => exact absurd (of_eq_space_iff.mp (Segment.kind_of_gap same)) space
        | unknownWord => cases complete
        | token token =>
          obtain ⟨row, trailing, readable, written⟩ := ih _ shorter _ _ complete rfl
          have apart : Segment.Apart (char :: rest.takeWhile (joins char)) (text row trailing) := by
            rw [← written]
            exact Segment.apart_takeWhile char rest
          refine ⟨⟨0, char :: rest.takeWhile (joins char), token⟩ :: row, trailing,
            readable.cons (Token.spelledBy_of_reading same) apart, ?_⟩
          rw [text_cons, ← written, List.replicate_zero, List.nil_append, List.cons_append,
            List.takeWhile_append_dropWhile]

/-- The text of a row is read as its tokens, and no other text is. -/
theorem ofText_eq_iff {chars : List Char} {lexemes : List Lexeme} :
    Scan.ofText chars = ⟨lexemes, none⟩ ↔
      ∃ row trailing, Readable row ∧ chars = text row trailing ∧ lexemes = place 0 row := by
  constructor
  · intro read
    have complete : (Scan.behind 0 chars).unknown = none := by rw [Scan.behind_zero, read]
    obtain ⟨row, trailing, readable, rfl⟩ := exists_text 0 chars complete
    have again := readable.ofText trailing
    rw [read] at again
    exact ⟨row, trailing, readable, rfl, congrArg Scan.lexemes again⟩
  · rintro ⟨row, trailing, readable, rfl, rfl⟩
    exact readable.ofText trailing

theorem canonicalRow_token (tokens : List Token) : (canonicalRow tokens).map token = tokens := by
  cases tokens with
  | nil => rfl
  | cons first rest => simp [canonicalRow, canonical, Function.comp_def]

theorem text_canonicalRow (tokens : List Token) :
    text (canonicalRow tokens) 0 = Token.join tokens := by
  have joined (word : List Char) (rest : List Token) : word ++ (rest.map canonical).flatMap chars =
      [' '].intercalate (word :: rest.map fun token => token.display.toList) := by
    induction rest generalizing word with
    | nil => simp
    | cons next others ih =>
      rw [List.map_cons, List.map_cons, List.flatMap_cons, List.intercalate_cons_cons, ← ih,
        List.append_assoc]
      rfl
  cases tokens with
  | nil => rfl
  | cons first rest =>
    rw [text, List.replicate_zero, List.append_nil]
    exact joined first.display.toList rest

theorem readable_canonicalRow {tokens : List Token}
    (printable : ∀ token ∈ tokens, token.Printable) : Readable (canonicalRow tokens) := by
  cases tokens with
  | nil => exact readable_nil
  | cons first rest =>
    have gaps (left : Written) : ∀ right ∈ rest.map canonical, Apart left right := by
      intro right member _ _
      obtain ⟨token, -, rfl⟩ := List.mem_map.mp member
      exact Nat.one_pos
    refine readable_iff.mpr ⟨?_, List.Pairwise.isChain (List.pairwise_cons.mpr ⟨gaps _, ?_⟩)⟩
    · intro written member
      rcases List.mem_cons.mp member with rfl | later
      · exact Token.spelledBy_display (printable first List.mem_cons_self)
      · obtain ⟨token, inside, rfl⟩ := List.mem_map.mp later
        exact Token.spelledBy_display (printable token (List.mem_cons_of_mem _ inside))
    · exact List.pairwise_of_forall_mem_list fun left _ right member => gaps left right member

end Written

theorem Scan.printable_tokens {text : List Char} (complete : (ofText text).unknown = none) :
    ∀ token ∈ (ofText text).tokens, token.Printable := by
  obtain ⟨row, trailing, readable, rfl⟩ := Written.exists_text 0 text complete
  rw [readable.ofText trailing, tokens, Written.place_token]
  intro token member
  obtain ⟨written, inside, rfl⟩ := List.mem_map.mp member
  exact Token.printable_of_spelledBy (readable.spelled written inside)

theorem Scan.spells_join {tokens : List Token} (printable : ∀ token ∈ tokens, token.Printable) :
    (ofText (Token.join tokens)).Spells tokens := by
  have read : ofText (Token.join tokens) = ⟨Written.place 0 (Written.canonicalRow tokens), none⟩ :=
    Written.ofText_eq_iff.mpr ⟨_, 0, Written.readable_canonicalRow printable,
      (Written.text_canonicalRow tokens).symm, rfl⟩
  rw [read]
  exact ⟨rfl, (Written.place_token 0 _).trans (Written.canonicalRow_token tokens)⟩

/-- How reading a text goes together with writing tokens. -/
structure ReadsAsWritten (text : List Char) : Prop where
  /-- A text is read to its end if it is the text of some row, and only then. -/
  written : ∀ lexemes, Scan.ofText text = ⟨lexemes, none⟩ ↔
    ∃ row trailing, Written.Readable row ∧ text = Written.text row trailing ∧
      lexemes = Written.place 0 row
  /-- Each piece of the row is found where it was written. -/
  placed : ∀ row trailing, Written.Readable row → text = Written.text row trailing →
    ∀ before piece later, row = before ++ piece :: later →
      let span : Span := ⟨byteSize (Written.text before piece.gap), byteSize piece.word⟩
      (Scan.ofText text).lexemes[before.length]? = some ⟨span, piece.token⟩ ∧
        Occurs text span piece.word
  /-- Operators and truth values are written as the tables say. -/
  spelled : (∀ operator word, (Token.operator operator).SpelledBy word ↔
      (String.ofList word, operator) ∈ Operator.spellings) ∧
    ∀ flag word, (Token.boolean flag).SpelledBy word ↔ (String.ofList word, flag) ∈ Token.literals
  /-- The canonical text of tokens is read as those tokens. -/
  canonical : ∀ tokens, (∀ token ∈ tokens, token.Printable) → text = Token.join tokens →
    (Scan.ofText text).Spells tokens
  /-- A text that is read to its end has the tokens of its canonical text, which is canonical. -/
  normal : (Scan.ofText text).unknown = none →
    (Scan.ofText (canonicalText text)).Spells (Scan.ofText text).tokens ∧
      canonicalText (canonicalText text) = canonicalText text

/-- Reading undoes writing, and every text that is read to its end is written. -/
theorem readsAsWritten (text : List Char) : ReadsAsWritten text where
  written _ := Written.ofText_eq_iff
  placed := by
    rintro _ trailing readable rfl before piece later rfl
    have read := readable.behind_text 0 trailing
    have place := Written.getElem?_place 0 before piece later
    rw [Nat.zero_add] at place
    rw [← Scan.behind_zero, read]
    exact ⟨place, Written.occurs_text before piece later trailing⟩
  spelled := ⟨fun _ _ => Operator.ofSpelling?_eq_some_iff, fun _ _ => Token.literal?_eq_some_iff⟩
  canonical := by
    rintro tokens printable rfl
    exact Scan.spells_join printable
  normal complete := by
    have spells := Scan.spells_join (Scan.printable_tokens complete)
    refine ⟨spells, ?_⟩
    rw [canonicalText, canonicalText, spells.tokens]

end Condition
