namespace Condition

/-- The characters between the head of a color sequence and its end. -/
def isColorParameter (char : Char) : Bool := char.isDigit || char == ';'

/-- What stands behind the color sequence that a text begins with. -/
def behindColor? : List Char → Option (List Char)
  | '\x1B' :: '[' :: rest =>
    match rest.dropWhile isColorParameter with
    | 'm' :: behind => some behind
    | _ => none
  | _ => none

theorem length_behindColor? {text behind : List Char} (colored : behindColor? text = some behind) :
    behind.length < text.length := by
  unfold behindColor? at colored
  split at colored
  case h_1 rest =>
    split at colored
    case h_1 shown found =>
      cases colored
      have shorter := (List.dropWhile_sublist isColorParameter (l := rest)).length_le
      rw [found] at shorter
      simp only [List.length_cons] at shorter ⊢
      omega
    case h_2 => cases colored
  case h_2 => cases colored

def withoutColors : List Char → List Char
  | [] => []
  | char :: rest =>
    match _ : behindColor? (char :: rest) with
    | some behind => withoutColors behind
    | none => char :: withoutColors rest
termination_by text => text.length
decreasing_by
  · exact length_behindColor? ‹_›
  · exact Nat.lt_succ_self _

variable {front behind : List Char}

theorem withoutColors_of_some {text : List Char} (colored : behindColor? text = some behind) :
    withoutColors text = withoutColors behind := by
  cases text with
  | nil => cases colored
  | cons char rest =>
    rw [withoutColors]
    split
    case h_1 other same =>
      rw [colored] at same
      cases same
      rfl
    case h_2 none =>
      rw [colored] at none
      cases none

theorem withoutColors_of_none {char : Char} {rest : List Char}
    (plain : behindColor? (char :: rest) = none) :
    withoutColors (char :: rest) = char :: withoutColors rest := by
  rw [withoutColors]
  split
  case h_1 some =>
    rw [plain] at some
    cases some
  case h_2 => rfl

theorem behindColor?_cons {char : Char} (plain : char ≠ '\x1B') (rest : List Char) :
    behindColor? (char :: rest) = none := by
  unfold behindColor?
  split
  case h_1 same => exact absurd (List.cons.inj same).1 plain
  case h_2 => rfl

/-- In front of anything a text without escape characters is kept. -/
theorem withoutColors_append (plain : '\x1B' ∉ front) (back : List Char) :
    withoutColors (front ++ back) = front ++ withoutColors back := by
  induction front with
  | nil => rfl
  | cons char rest ih =>
    have first : char ≠ '\x1B' := fun same => plain (same ▸ List.mem_cons_self)
    have later := ih fun member => plain (.tail _ member)
    rw [List.cons_append, withoutColors_of_none (behindColor?_cons first _), later,
      List.cons_append]

/-- In front of anything a color sequence is deleted. -/
theorem withoutColors_sequence (code : List Char)
    (parameters : ∀ char ∈ code, isColorParameter char = true) (back : List Char) :
    withoutColors ('\x1B' :: '[' :: (code ++ 'm' :: back)) = withoutColors back := by
  have ends : ('m' :: back).dropWhile isColorParameter = 'm' :: back :=
    List.dropWhile_cons_of_neg (by decide)
  have behind : behindColor? ('\x1B' :: '[' :: (code ++ 'm' :: back)) = some back := by
    simp only [behindColor?, List.dropWhile_append_of_pos parameters, ends]
  exact withoutColors_of_some behind

end Condition
