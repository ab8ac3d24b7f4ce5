import Mathlib.Data.List.SplitBy
import Mathlib.Data.List.TakeWhile
import Condition.Proofs.WordTable

/-! A segment is a parenthesis or a run of one kind that nothing extends. Reading
from the left finds the same segments as looking at every stretch of the text. -/

namespace Condition

namespace CharKind

theorem of_eq_space_iff : of char = .space ↔ char = ' ' := by
  unfold of
  split_ifs with space <;> simp_all

theorem of_eq_openParen_iff : of char = .openParen ↔ char = '(' := by
  unfold of
  split_ifs with space opening <;> simp_all

theorem of_eq_closeParen_iff : of char = .closeParen ↔ char = ')' := by
  unfold of
  split_ifs with space opening closing <;> simp_all

theorem of_eq_digit_iff : of char = .digit ↔ char.isDigit = true := by
  unfold of
  split_ifs with space opening closing digit
  · subst space; decide
  · subst opening; decide
  · subst closing; decide
  · simp [digit]
  · simp [digit]

theorem of_eq_letter_iff : of char = .letter ↔ isWordChar char = true := by
  unfold of isWordChar
  split_ifs with space opening closing digit <;> simp_all

theorem isDigit_eq : Char.isDigit = fun char => of char == .digit := by
  funext char
  rw [Bool.eq_iff_iff, beq_iff_eq, of_eq_digit_iff]

theorem isWordChar_eq : isWordChar = fun char => of char == .letter := by
  funext char
  rw [Bool.eq_iff_iff, beq_iff_eq, of_eq_letter_iff]

theorem joins_eq_true_iff :
    joins left right = true ↔ of left = of right ∧ (of left).isParen = false := by
  simp [joins]

theorem joins_congr_left (same : of left = of other) (right : Char) :
    joins left right = joins other right := by
  simp [joins, same]

theorem joins_eq_false_of_ne (different : of left ≠ of right) : joins left right = false := by
  simp [joins, different]

theorem kinds_ne_of_joins (free : joins left right = false) (plain : (of left).isParen = false) :
    of left ≠ of right := by
  intro same
  have joined := joins_eq_true_iff.mpr ⟨same, plain⟩
  rw [free] at joined
  cases joined

theorem joins_eq_false_of_isParen (paren : (of left).isParen = true) :
    joins left right = false := by
  simp [joins, paren]

end CharKind

namespace Segment

open CharKind

/-- No character on the left of the gap is joined with the one on the right. -/
def Apart (left right : List Char) : Prop :=
  ∀ last ∈ left.getLast?, ∀ first ∈ right.head?, joins last first = false

theorem isChain_of_kind {run : List Char} (plain : kind.isParen = false)
    (kinds : ∀ char ∈ run, of char = kind) : run.IsChain fun left right => joins left right = true := by
  induction run with
  | nil => exact .nil
  | cons char rest ih =>
    refine List.isChain_cons.mpr ⟨?_, ih fun other member => kinds other (by simp [member])⟩
    intro next first
    have same := kinds next (List.mem_cons_of_mem _ (List.mem_of_mem_head? first))
    rw [joins_eq_true_iff, kinds char (by simp), same]
    exact ⟨rfl, plain⟩

theorem kind_of_isChain {char : Char} {rest : List Char}
    (chain : (char :: rest).IsChain fun left right => joins left right = true) :
    ∀ other ∈ rest, of other = of char ∧ (of char).isParen = false := by
  induction rest generalizing char with
  | nil => simp
  | cons next rest ih =>
    obtain ⟨joined, chain⟩ := List.isChain_cons_cons.mp chain
    obtain ⟨same, plain⟩ := joins_eq_true_iff.mp joined
    intro other member
    rcases List.mem_cons.mp member with rfl | later
    · exact ⟨same.symm, plain⟩
    · exact ⟨(ih chain other later).1.trans same.symm, plain⟩

theorem kind_of_mem_takeWhile {rest : List Char}
    (member : other ∈ rest.takeWhile (joins char)) : of other = of char :=
  (joins_eq_true_iff.mp (List.mem_takeWhile_imp member)).1.symm

theorem isChain_takeWhile (char : Char) (rest : List Char) :
    (char :: rest.takeWhile (joins char)).IsChain fun left right => joins left right = true := by
  by_cases paren : (of char).isParen = true
  · have alone : rest.takeWhile (joins char) = [] := by
      cases rest <;> simp [joins_eq_false_of_isParen paren]
    simp [alone]
  · exact isChain_of_kind (by simpa using paren) (by simpa using fun _ => kind_of_mem_takeWhile)

theorem apart_takeWhile (char : Char) (rest : List Char) :
    Apart (char :: rest.takeWhile (joins char)) (rest.dropWhile (joins char)) := by
  intro last lastMember first firstMember
  have lastKind : of last = of char := by
    rcases List.mem_cons.mp (List.mem_of_mem_getLast? lastMember) with rfl | inside
    · rfl
    · exact kind_of_mem_takeWhile inside
  have stopped := List.head?_dropWhile_not (joins char) rest
  rw [Option.mem_def.mp firstMember] at stopped
  rw [joins_congr_left lastKind]
  exact stopped

theorem apart_concat_paren (paren : (of char).isParen = true) (left right : List Char) :
    Apart (left ++ [char]) right := by
  intro last stands next _
  obtain rfl : char = last := by simpa using stands
  exact joins_eq_false_of_isParen paren

/-- The first segment is the run of characters that are joined with the first one. -/
theorem splitBy_cons (char : Char) (rest : List Char) :
    (char :: rest).splitBy joins =
      (char :: rest.takeWhile (joins char)) :: (rest.dropWhile (joins char)).splitBy joins := by
  calc (char :: rest).splitBy joins
      = (char :: rest.takeWhile (joins char) ++ rest.dropWhile (joins char)).splitBy joins := by
        rw [List.cons_append, List.takeWhile_append_dropWhile]
    _ = _ := by
        rw [List.splitBy_append (apart_takeWhile char rest),
          List.splitBy_of_isChain (by simp) (isChain_takeWhile char rest), List.singleton_append]

theorem mem_locate_iff {segment : Segment} {pieces : List (List Char)} :
    segment ∈ locate start pieces ↔
      ∃ front back, pieces = front ++ segment.chars :: back ∧
        segment.span = ⟨start + byteSize front.flatten, byteSize segment.chars⟩ := by
  constructor
  · intro member
    induction pieces generalizing start with
    | nil => simp [locate] at member
    | cons piece rest ih =>
      rcases List.mem_cons.mp member with rfl | later
      · exact ⟨[], rest, rfl, by simp⟩
      · obtain ⟨front, back, rfl, place⟩ := ih later
        exact ⟨piece :: front, back, rfl, by simp [place, Span.stop, Nat.add_assoc]⟩
  · intro given
    obtain ⟨front, back, rfl, place⟩ := given
    rw [locate_append]
    exact List.mem_append_right _ (by simp [locate, ← place])

/-- A segment is exactly a chain of joined characters with nothing to join on either side. -/
theorem mem_split_iff {segment : Segment} {text : List Char} :
    segment ∈ split text ↔
      ∃ before behind, text = before ++ segment.chars ++ behind ∧
        segment.span = ⟨byteSize before, byteSize segment.chars⟩ ∧ segment.chars ≠ [] ∧
        (segment.chars.IsChain fun left right => joins left right = true) ∧
        Apart before segment.chars ∧ Apart segment.chars behind := by
  rw [split, mem_locate_iff]
  constructor
  · intro given
    obtain ⟨front, back, pieces, place⟩ := given
    obtain ⟨whole, noEmpty, chains, apart⟩ := List.splitBy_eq_iff.mp pieces
    refine ⟨front.flatten, back.flatten, by simp [whole], by simpa using place,
      fun empty => noEmpty (by simp [empty]), chains _ (by simp), ?_, ?_⟩
    · rcases List.eq_nil_or_concat front with rfl | ⟨init, last, rfl⟩
      · simp [Apart]
      · obtain ⟨lastNonempty, charsNonempty, free⟩ :=
          (List.isChain_append.mp apart).2.2 last (by simp) segment.chars (by simp)
        intro left leftMember right rightMember
        simp only [List.concat_eq_append, List.flatten_append, List.flatten_singleton,
          List.getLast?_append_of_ne_nil _ lastNonempty] at leftMember
        rwa [← List.getLast_of_mem_getLast? leftMember, ← List.head_of_mem_head? rightMember]
    · cases back with
      | nil => simp [Apart]
      | cons next rest =>
        obtain ⟨charsNonempty, nextNonempty, free⟩ :=
          (List.isChain_cons_cons.mp (List.isChain_append.mp apart).2.1).1
        intro left leftMember right rightMember
        rw [List.flatten_cons, List.head?_append_of_ne_nil _ nextNonempty] at rightMember
        rwa [← List.getLast_of_mem_getLast? leftMember, ← List.head_of_mem_head? rightMember]
  · intro given
    obtain ⟨before, behind, whole, place, nonempty, chain, left, right⟩ := given
    refine ⟨before.splitBy joins, behind.splitBy joins, ?_, by simpa using place⟩
    have leftOfBoth : Apart before (segment.chars ++ behind) := by
      intro last lastMember first firstMember
      rw [List.head?_append_of_ne_nil _ nonempty] at firstMember
      exact left last lastMember first firstMember
    rw [whole, List.append_assoc, List.splitBy_append leftOfBoth, List.splitBy_append right,
      List.splitBy_of_isChain nonempty chain, List.singleton_append]

/-- Characters of a kind that is not a parenthesis make up a segment as far as they go. -/
theorem maximalRun_of_mem_split {text run : List Char} {span : Span} (plain : kind.isParen = false)
    (member : ⟨span, run⟩ ∈ split text) (firstMember : first ∈ run.head?) (kindOf : of first = kind) :
    MaximalRun (of · == kind) text span run := by
  obtain ⟨before, behind, whole, place, nonempty, chain, left, right⟩ := mem_split_iff.mp member
  obtain ⟨rest, rfl⟩ := List.head?_eq_some_iff.mp firstMember
  have kinds : ∀ char ∈ first :: rest, of char = kind := by
    intro char inside
    rcases List.mem_cons.mp inside with rfl | later
    · exact kindOf
    · exact (kind_of_isChain chain char later).1.trans kindOf
  refine ⟨before, behind, whole, place, nonempty, by simpa using kinds, ?_, ?_⟩
  · intro char last
    have free := left char last first firstMember
    by_contra inside
    have same : of char = kind := by simpa using inside
    exact kinds_ne_of_joins free (by rw [same, plain]) (same.trans kindOf.symm)
  · intro char next
    have ends : (first :: rest).getLast nonempty ∈ (first :: rest).getLast? :=
      List.getLast_mem_getLast? nonempty
    have same := kinds _ (List.getLast_mem nonempty)
    have differ := kinds_ne_of_joins (right _ ends char next) (by rw [same, plain])
    rw [same] at differ
    simpa using differ.symm

theorem mem_split_of_maximalRun {text run : List Char} {span : Span} (plain : kind.isParen = false)
    (maximal : MaximalRun (of · == kind) text span run) :
    ⟨span, run⟩ ∈ split text ∧ ∃ first ∈ run.head?, of first = kind := by
  obtain ⟨before, behind, whole, place, nonempty, members, left, right⟩ := maximal
  have kinds : ∀ char ∈ run, of char = kind := by simpa using members
  have others (char : Char) (outside : (of char == kind) = false) : of char ≠ kind := by
    simpa using outside
  refine ⟨mem_split_iff.mpr ⟨before, behind, whole, place, nonempty,
    isChain_of_kind plain kinds, ?_, ?_⟩, run.head nonempty, List.head_mem_head? nonempty,
    kinds _ (List.head_mem nonempty)⟩
  · intro last lastMember first firstMember
    apply joins_eq_false_of_ne
    rw [kinds first (List.mem_of_mem_head? firstMember)]
    exact others last (left last lastMember)
  · intro last lastMember first firstMember
    apply joins_eq_false_of_ne
    rw [kinds last (List.mem_of_mem_getLast? lastMember)]
    exact (others first (right first firstMember)).symm

theorem mem_split_run_iff {text run : List Char} {span : Span} (plain : kind.isParen = false) :
    (⟨span, run⟩ ∈ split text ∧ ∃ first ∈ run.head?, of first = kind) ↔
      MaximalRun (of · == kind) text span run := by
  constructor
  · intro given
    obtain ⟨member, first, firstMember, kindOf⟩ := given
    exact maximalRun_of_mem_split plain member firstMember kindOf
  · exact mem_split_of_maximalRun plain

theorem mem_split_paren_iff {text rest : List Char} {span : Span} (paren : (of char).isParen = true) :
    ⟨span, char :: rest⟩ ∈ split text ↔ rest = [] ∧ Occurs text span [char] := by
  constructor
  · intro member
    obtain ⟨before, behind, whole, place, -, chain, -, -⟩ := mem_split_iff.mp member
    have alone : rest = [] := by
      apply List.eq_nil_iff_forall_not_mem.mpr
      intro other later
      have plain := (kind_of_isChain chain other later).2
      rw [paren] at plain
      cases plain
    subst alone
    exact ⟨rfl, before, behind, whole, place⟩
  · intro given
    obtain ⟨rfl, before, behind, whole, place⟩ := given
    refine mem_split_iff.mpr ⟨before, behind, whole, place, by simp, .singleton _, ?_, ?_⟩
    · intro last _ first firstMember
      have same : char = first := by simpa using firstMember
      subst same
      by_cases kinds : of last = of char
      · exact joins_eq_false_of_isParen (by rw [kinds, paren])
      · exact joins_eq_false_of_ne kinds
    · intro last lastMember first _
      have same : char = last := by simpa using lastMember
      subst same
      exact joins_eq_false_of_isParen paren

end Segment

end Condition
