import Condition.Proofs.FaultPlace
import Condition.Proofs.ScanJoin

namespace Condition

/-- A character that separates what is in front of it from what is behind it. -/
inductive Separator where
  | space
  | openParen
  | closeParen
deriving DecidableEq, Repr

namespace Separator

def char : Separator → Char
  | space => ' '
  | openParen => '('
  | closeParen => ')'

/-- The token that a separator stands for. A space stands for none. -/
def token? : Separator → Option Token
  | space => none
  | openParen => some .openParen
  | closeParen => some .closeParen

/-- What is read at a separator that has some bytes in front of it. -/
def lexemes (start : Nat) (separator : Separator) : List Lexeme :=
  separator.token?.toList.map (Lexeme.mk ⟨start, 1⟩)

end Separator

/-- How the scan of a text in two parts goes together with the scans of the parts. -/
structure ScansInParts (left : List Char) (separator : Separator) (right : List Char) : Prop where
  /-- If the first part is read to its end, the second one is read as it is alone. -/
  complete : (Scan.ofText left).unknown = none →
    let text := left ++ separator.char :: right
    let offset := byteSize left + 1
    let moved := (Scan.ofText right).shift offset
    (Scan.ofText text).lexemes =
        (Scan.ofText left).lexemes ++ separator.lexemes (byteSize left) ++ moved.lexemes ∧
      (Scan.ofText text).unknown = moved.unknown ∧
      ∀ span, (Scan.ofText right).unknown = some span →
        Failure.culprit ⟨text, .unknownWord (span.shift offset)⟩ =
          Failure.culprit ⟨right, .unknownWord span⟩
  /-- If it is not, the scan ends at its unknown word, whatever the second part is. -/
  failed : ∀ span, (Scan.ofText left).unknown = some span →
    let text := left ++ separator.char :: right
    Scan.ofText text = Scan.ofText left ∧
      Failure.culprit ⟨text, .unknownWord span⟩ = Failure.culprit ⟨left, .unknownWord span⟩

namespace Scan

theorem behind_append_separator (start : Nat) (left : List Char) (separator : Separator)
    (right : List Char) : behind start (left ++ separator.char :: right) =
      (behind start left).append (append ⟨separator.lexemes (start + byteSize left), none⟩
        (behind (start + byteSize left + 1) right)) := by
  have opens : Token.SpelledBy .openParen ['('] := rfl
  have closes : Token.SpelledBy .closeParen [')'] := rfl
  cases separator with
  | space => exact behind_append_space start left right
  | openParen => exact behind_append_paren start left right rfl opens
  | closeParen => exact behind_append_paren start left right rfl closes

theorem ofText_append_separator (left : List Char) (separator : Separator) (right : List Char) :
    ofText (left ++ separator.char :: right) = (ofText left).append
      (append ⟨separator.lexemes (byteSize left), none⟩
        ((ofText right).shift (byteSize left + 1))) := by
  have cut := behind_append_separator 0 left separator right
  rwa [Nat.zero_add, behind_zero, behind_zero, behind_eq_shift] at cut

end Scan

/-- An unknown word of a part is the same word in the whole, where it lies as far behind the place
of the part as it does in the part. -/
theorem Failure.culprit_of_part {text part : List Char} {place span : Span}
    (stands : Occurs text place part) (unknown : (Scan.ofText part).unknown = some span) :
    Failure.culprit ⟨text, .unknownWord (span.shift place.start)⟩ =
      Failure.culprit ⟨part, .unknownWord span⟩ := by
  obtain ⟨word, unlisted, -⟩ := Scan.unknown_ofText_iff.mp unknown
  have inPart : Failure.culprit ⟨part, .unknownWord span⟩ = word :=
    culprit_of_occurs rfl unlisted.occurs
  rw [inPart]
  exact culprit_of_occurs rfl (stands.within unlisted.occurs)

/-- Two parts that are separated are scanned one behind the other. -/
theorem scansInParts (left : List Char) (separator : Separator) (right : List Char) :
    ScansInParts left separator right where
  complete read := by
    have size : byteSize [separator.char] = 1 := by cases separator <;> rfl
    have second : Occurs (left ++ separator.char :: right) ⟨byteSize left + 1, byteSize right⟩
        right :=
      ⟨left ++ [separator.char], [], by simp, by rw [byteSize_append, size]⟩
    intro text offset moved
    have joined : Scan.ofText text =
        ⟨(Scan.ofText left).lexemes ++ separator.lexemes (byteSize left) ++ moved.lexemes,
          moved.unknown⟩ := by
      rw [Scan.ofText_append_separator, Scan.append_of_complete read,
        Scan.append_of_complete rfl, List.append_assoc]
    refine ⟨by rw [joined], by rw [joined], ?_⟩
    intro span unknown
    exact Failure.culprit_of_part second unknown
  failed span unknown := by
    have first : Occurs (left ++ separator.char :: right) ⟨0, byteSize left⟩ left :=
      ⟨[], separator.char :: right, rfl, rfl⟩
    have same := Failure.culprit_of_part first unknown
    rw [Span.shift, Nat.zero_add] at same
    refine ⟨?_, same⟩
    rw [Scan.ofText_append_separator, Scan.append_of_unknown unknown]

end Condition
