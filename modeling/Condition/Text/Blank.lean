namespace Condition

abbrev CodeRange := Nat × Nat

/-- Whether some range of a table holds the code point of a character. -/
def CodeRange.covers (table : List CodeRange) (char : Char) : Bool :=
  table.any fun (low, high) => decide (low ≤ char.toNat) && decide (char.toNat ≤ high)

/-- The code points with the Unicode property White_Space. -/
def blankRanges : List CodeRange :=
  [(0x9, 0xD), (0x20, 0x20), (0x85, 0x85), (0xA0, 0xA0), (0x1680, 0x1680), (0x2000, 0x200A),
   (0x2028, 0x2029), (0x202F, 0x202F), (0x205F, 0x205F), (0x3000, 0x3000)]

/-- A character that only makes room: spaces of any width, tabs and line breaks. -/
def isBlank (char : Char) : Bool := CodeRange.covers blankRanges char

theorem isBlank_eq_false_of_isDigit {char : Char} (digit : char.isDigit = true) :
    isBlank char = false := by
  have range : 48 ≤ char.toNat ∧ char.toNat ≤ 57 := by
    simpa [Char.isDigit, UInt32.le_iff_toNat_le] using digit
  simp [isBlank, CodeRange.covers, blankRanges]
  omega

/-- A text without any visible character. -/
def IsBlank (text : List Char) : Prop := ∀ char ∈ text, isBlank char = true

instance (text : List Char) : Decidable (IsBlank text) :=
  List.decidableBAll (fun char => isBlank char = true) text

/-- A text without the blanks at its end. -/
def trimEnd (text : List Char) : List Char := (text.reverse.dropWhile isBlank).reverse

theorem exists_trimEnd_append (text : List Char) : ∃ blanks, trimEnd text ++ blanks = text :=
  ⟨(text.reverse.takeWhile isBlank).reverse, by
    rw [trimEnd, ← List.reverse_append, List.takeWhile_append_dropWhile, List.reverse_reverse]⟩

end Condition
