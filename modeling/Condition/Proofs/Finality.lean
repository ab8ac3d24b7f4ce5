import Condition.Proofs.EventTrace
import Condition.Proofs.Openness
import Condition.Proofs.ScanJoin

/-! A failure that is met while a text is read is final: every text that begins the same
way fails the same way. A parenthesis is known as soon as it is there, a word not before
something else follows it. -/

namespace Condition

/-- Another text fails as `text` does, whatever is asked of the values that are left. -/
structure FailsLike (text other : List Char) (fault : Fault) : Prop where
  fails : ∀ strictness, evaluate strictness text = .error ⟨text, fault⟩ ∧
    evaluate strictness other = .error ⟨other, fault⟩
  culprit : Failure.culprit ⟨other, fault⟩ = Failure.culprit ⟨text, fault⟩
  events : ∀ strictness asked, Event.ofText asked other = Event.ofText strictness text

/-- A failure that is met while a text is read does not depend on what is not read. -/
structure Final (text : List Char) : Prop where
  /-- A failure is met at a parenthesis, at an unknown word or behind the last token. -/
  met : ∀ strictness fault, evaluate strictness text = .error ⟨text, fault⟩ →
    (∃ closing, FoundAt (Scan.ofText text) closing fault) ∨ (∃ span, fault = .unknownWord span) ∨
      (Scan.ofText text).unknown = none ∧
        ∃ machine, Machine.feed {} (Scan.ofText text).lexemes = .ok machine
  parenthesis : ∀ closing fault, FoundAt (Scan.ofText text) closing fault →
    closing.token = .closeParen ∧
      ∀ other, Span.slice ⟨0, closing.span.stop⟩ text <+: other → FailsLike text other fault
  /-- The word is no other one as long as no character of a word follows it. -/
  word : ∀ strictness span, evaluate strictness text = .error ⟨text, .unknownWord span⟩ →
    ∀ behind, (∀ char ∈ behind.head?, isWordChar char = false) →
      FailsLike text (Span.slice ⟨0, span.stop⟩ text ++ behind) (.unknownWord span)

theorem Span.slice_stop (before chars behind : List Char) :
    slice ⟨0, stop ⟨byteSize before, byteSize chars⟩⟩ (before ++ chars ++ behind) =
      before ++ chars := by
  have cut := slice_append [] (before ++ chars) behind
  rwa [byteSize_append] at cut

namespace Scan

variable {front back : List Char} {read unread : List Lexeme}

theorem ofText_append_of_apart (apart : Segment.Apart front back) :
    ofText (front ++ back) = (ofText front).append (behind (byteSize front) back) := by
  rw [← behind_zero, ← behind_zero, behind_append_of_apart 0 apart, Nat.zero_add]

theorem exists_lexemes_append (first second : Scan) :
    ∃ later, (first.append second).lexemes = first.lexemes ++ later ∧ later <+: second.lexemes := by
  cases word : first.unknown with
  | some span =>
    rw [append_of_unknown word]
    exact ⟨[], (List.append_nil _).symm, List.nil_prefix⟩
  | none =>
    rw [append_of_complete word]
    exact ⟨second.lexemes, rfl, List.prefix_rfl⟩

theorem lexemes_prefix_of_apart (apart : Segment.Apart front back) :
    (ofText front).lexemes <+: (ofText (front ++ back)).lexemes := by
  obtain ⟨later, lexemes, -⟩ := exists_lexemes_append (ofText front) (behind (byteSize front) back)
  rw [ofText_append_of_apart apart, lexemes]
  exact List.prefix_append _ later

theorem le_start_of_mem_spans_behind (member : span ∈ (behind start back).spans) :
    start ≤ span.start := by
  have moved : (behind start back).spans = (ofText back).spans.map (Span.shift start) := by
    rw [behind_eq_shift, spans, spans, shift, List.map_append, List.map_map, List.map_map]
    cases (ofText back).unknown <;> rfl
  rw [moved] at member
  obtain ⟨other, -, rfl⟩ := List.mem_map.mp member
  exact Nat.le_add_right _ _

/-- A token that begins in front of a cut is read there, and so are all tokens in front of it. -/
theorem prefix_of_start_lt (apart : Segment.Apart front back)
    (split : (ofText (front ++ back)).lexemes = read ++ lexeme :: unread)
    (inside : lexeme.span.start < byteSize front) :
    read ++ [lexeme] <+: (ofText front).lexemes := by
  obtain ⟨later, lexemes, among⟩ :=
    exists_lexemes_append (ofText front) (behind (byteSize front) back)
  rw [← ofText_append_of_apart apart, split] at lexemes
  have both : read ++ [lexeme] <+: (ofText front).lexemes ++ later := ⟨unread, by simp [← lexemes]⟩
  rcases List.prefix_or_prefix_of_prefix both (List.prefix_append _ later) with within | beyond
  · exact within
  · rcases List.prefix_concat_iff.mp beyond with same | ⟨between, rfl⟩
    · rw [same]
    · -- The token would stand behind the cut, where nothing begins so early.
      rw [List.append_assoc] at lexemes
      have member : lexeme ∈ later := by
        rw [← List.append_cancel_left lexemes]
        exact List.mem_append_right _ List.mem_cons_self
      have late := le_start_of_mem_spans_behind
        (List.mem_append_left _ (List.mem_map_of_mem (among.subset member)))
      omega

/-- An unknown word that begins in front of a cut ends the scan, whatever stands behind the cut. -/
theorem ofText_append_of_unknown (apart : Segment.Apart front back)
    (word : (ofText (front ++ back)).unknown = some span) (inside : span.start < byteSize front) :
    ∀ other, Segment.Apart front other → ofText (front ++ other) = ofText front := by
  rw [ofText_append_of_apart apart] at word
  cases early : (ofText front).unknown with
  | some first =>
    intro other apart
    rw [ofText_append_of_apart apart, append_of_unknown early]
  | none =>
    rw [append_of_complete early] at word
    have late := le_start_of_mem_spans_behind
      (List.mem_append_right _ (Option.mem_toList.mpr word))
    omega

end Scan

theorem Occurs.append {front chars : List Char} {span : Span} (stands : Occurs front span chars)
    (back : List Char) : Occurs (front ++ back) span chars := by
  obtain ⟨before, behind, rfl, rfl⟩ := stands
  exact ⟨before, behind ++ back, List.append_assoc .., rfl⟩

/-- Texts with a front in common fail alike if what fails is the front. -/
theorem FailsLike.of_halt {front behind back : List Char}
    (alone : Evaluation.operands (Scan.ofText front) = .error halt)
    (first : Evaluation.operands (Scan.ofText (front ++ behind)) = .error halt)
    (second : Evaluation.operands (Scan.ofText (front ++ back)) = .error halt) :
    FailsLike (front ++ behind) (front ++ back) halt.fault where
  fails _ := ⟨evaluate_of_halt first, evaluate_of_halt second⟩
  culprit := by
    obtain ⟨span, chars, place, stands, -⟩ := Evaluation.occurs_of_halt alone
    rw [Failure.culprit_of_occurs place (stands.append back),
      Failure.culprit_of_occurs place (stands.append behind)]
  events strictness asked := by
    rw [Event.ofText_of_error (evaluate_of_halt first),
      Event.ofText_of_error (evaluate_of_halt second),
      Evaluation.applications_of_halt strictness first,
      Evaluation.applications_of_halt asked second]

theorem Segment.apart_of_word {front word behind : List Char} (some : word ≠ [])
    (members : ∀ char ∈ word, isWordChar char = true)
    (ends : ∀ char ∈ behind.head?, isWordChar char = false) :
    Segment.Apart (front ++ word) behind := by
  intro last stands next first
  rw [List.getLast?_append_of_ne_nil _ some] at stands
  have letter := CharKind.of_eq_letter_iff.mpr (members last (List.mem_of_mem_getLast? stands))
  refine CharKind.joins_eq_false_of_ne fun same => ?_
  have joined := CharKind.of_eq_letter_iff.mp (same.symm.trans letter)
  rw [ends next first] at joined
  cases joined

namespace FoundAt

variable {scan : Scan} {text : List Char}

/-- Only a closing parenthesis can fail when it is read. -/
theorem token_eq (found : FoundAt scan lexeme fault) : lexeme.token = .closeParen := by
  cases found with
  | token split fed failed site place =>
    by_contra inner
    rw [Machine.step_of_inner inner] at failed
    cases failed

/-- A closing parenthesis that fails makes all texts fail that begin like this one, up to it. -/
theorem final (found : FoundAt (Scan.ofText text) closing fault)
    (same : Span.slice ⟨0, closing.span.stop⟩ text <+: other) : FailsLike text other fault := by
  have token := found.token_eq
  obtain ⟨span, _⟩ := closing
  subst token
  cases found with
  | @token read unread machine applications culprit split fed failed site place =>
    have member : ⟨span, .closeParen⟩ ∈ (Scan.ofText text).lexemes := by
      rw [split]
      exact List.mem_append_right _ List.mem_cons_self
    obtain ⟨before, behind, rfl, rfl⟩ := occurs_close member
    rw [Span.slice_stop] at same
    obtain ⟨back, rfl⟩ := same
    have apart : ∀ later, Segment.Apart (before ++ [')']) later :=
      Segment.apart_concat_paren rfl before
    have inside := Scan.prefix_of_start_lt (apart behind) split (by simp [Char.utf8Size_pos])
    have stopped := (Machine.feed_concat fed _).trans failed
    have halted (later : List Char) :
        Evaluation.operands (Scan.ofText (before ++ [')'] ++ later)) =
          .error ⟨fault, applications⟩ :=
      Evaluation.operands_of_feed stopped
        (inside.trans (Scan.lexemes_prefix_of_apart (apart later)))
    have alone := halted []
    rw [List.append_nil] at alone
    exact .of_halt alone (halted behind) (halted back)

end FoundAt

theorem exists_halt_of_unknownWord
    (failed : evaluate strictness text = .error ⟨text, .unknownWord span⟩) :
    (Scan.ofText text).unknown = some span ∧ ∃ halt,
      Evaluation.operands (Scan.ofText text) = .error halt ∧ halt.fault = .unknownWord span := by
  rcases evaluate_error_cases failed with ⟨halt, halted, same⟩ | ⟨_, fault, _, concluded, same⟩
  · have found : halt.fault = .unknownWord span := (Failure.mk.inj same).2.symm
    refine ⟨?_, halt, halted, found⟩
    have ends := Evaluation.operands_ends (Scan.ofText text)
    rw [halted] at ends
    obtain ⟨_, _, _, stops, -⟩ := ends
    rw [found] at stops
    rcases stops.stuck with stuck | ⟨other, word, same⟩
    · cases stuck
    · cases same
      exact word
  · obtain rfl := (Failure.mk.inj same).2
    rcases Evaluation.fault_of_conclude concluded with other | nowhere
    · cases other
    · cases nowhere

theorem final_of_unknownWord
    (failed : evaluate strictness text = .error ⟨text, .unknownWord span⟩) (back : List Char)
    (ends : ∀ char ∈ back.head?, isWordChar char = false) :
    FailsLike text (Span.slice ⟨0, span.stop⟩ text ++ back) (.unknownWord span) := by
  obtain ⟨word, halt, halted, fault⟩ := exists_halt_of_unknownWord failed
  obtain ⟨chars, unlisted, -⟩ := Scan.unknown_ofText_iff.mp word
  obtain ⟨before, behind, rfl, rfl, some, members, -, ended⟩ := unlisted.run
  have apart (later : List Char) (free : ∀ char ∈ later.head?, isWordChar char = false) :
      Segment.Apart (before ++ chars) later := Segment.apart_of_word some members free
  have alone := Scan.ofText_append_of_unknown (apart behind ended) word
    (by simpa using byteSize_pos some)
  rw [alone behind (apart behind ended)] at halted
  rw [Span.slice_stop, ← fault]
  exact .of_halt halted (by rwa [alone behind (apart behind ended)])
    (by rwa [alone back (apart back ends)])

theorem failure_cases {text : List Char} {fault : Fault}
    (failed : evaluate strictness text = .error ⟨text, fault⟩) :
    (∃ closing, FoundAt (Scan.ofText text) closing fault) ∨ (∃ span, fault = .unknownWord span) ∨
      (Scan.ofText text).unknown = none ∧
        ∃ machine, Machine.feed {} (Scan.ofText text).lexemes = .ok machine := by
  cases fed : Machine.feed {} (Scan.ofText text).lexemes with
  | error halt =>
    have halted := Evaluation.operands_of_feed fed List.prefix_rfl
    obtain ⟨-, closing, -, found⟩ := Evaluation.foundAt_of_feed fed
    cases (evaluate_of_halt halted).symm.trans failed
    exact .inl ⟨closing, found⟩
  | ok machine =>
    cases word : (Scan.ofText text).unknown with
    | none => exact .inr (.inr ⟨rfl, machine, rfl⟩)
    | some span =>
      have halted := Evaluation.operands_of_unknown fed word
      cases (evaluate_of_halt halted).symm.trans failed
      exact .inr (.inl ⟨span, rfl⟩)

/-- What fails while it is read fails however it goes on. -/
theorem evaluate_final (text : List Char) : Final text where
  met _ _ := failure_cases
  parenthesis _ _ found := ⟨found.token_eq, fun _ => found.final⟩
  word _ _ := final_of_unknownWord

/-- No text that begins with `1)` has a truth value. -/
theorem evaluate_final_unmatched :
    FoundAt (Scan.ofText ['1', ')']) ⟨⟨1, 1⟩, .closeParen⟩ (.incomplete .unmatchedClose ⟨1, 1⟩) ∧
      ∀ behind, FailsLike ['1', ')'] ('1' :: ')' :: behind)
        (.incomplete .unmatchedClose ⟨1, 1⟩) := by
  have split : (Scan.ofText ['1', ')']).lexemes =
      [⟨⟨0, 1⟩, .integer ['1']⟩] ++ [⟨⟨1, 1⟩, .closeParen⟩] := by decide
  have found : FoundAt (Scan.ofText ['1', ')']) ⟨⟨1, 1⟩, .closeParen⟩
      (.incomplete .unmatchedClose ⟨1, 1⟩) :=
    .token split rfl rfl (List.mem_append_right _ List.mem_cons_self) rfl
  refine ⟨found, fun behind => ?_⟩
  exact ((evaluate_final ['1', ')']).parenthesis _ _ found).2 _ ⟨behind, rfl⟩

end Condition
