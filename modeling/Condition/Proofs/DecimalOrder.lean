import Condition.Decimal
import Mathlib.Algebra.Group.Nat.Defs
import Mathlib.Data.Char

namespace Condition

namespace Decimal

variable {digits rest rest' first second : List Char} {char char' : Char}

theorem value_cons (char : Char) (rest : List Char) :
    value (char :: rest) = 10 ^ rest.length * (char.toNat - '0'.toNat) + value rest := by
  rw [value, Nat.ofDigitChars_cons, Nat.ofDigitChars_eq_ofDigitChars_zero, Nat.mul_zero,
    Nat.zero_add, value]

theorem digit_le (digit : char.isDigit = true) :
    '0'.toNat ≤ char.toNat ∧ char.toNat - '0'.toNat ≤ 9 := by
  obtain ⟨lower, upper⟩ := Char.isDigit_iff_toNat.mp digit
  refine ⟨lower, ?_⟩
  have nine : '9'.toNat = '0'.toNat + 9 := rfl
  omega

theorem value_lt (digits : ∀ char ∈ rest, char.isDigit = true) :
    value rest < 10 ^ rest.length := by
  induction rest with
  | nil => exact Nat.one_pos
  | cons char rest ih =>
    have below := ih fun other member => digits other (List.mem_cons_of_mem _ member)
    have digit := (digit_le (digits char List.mem_cons_self)).2
    calc value (char :: rest)
        = 10 ^ rest.length * (char.toNat - '0'.toNat) + value rest := value_cons char rest
      _ < 10 ^ rest.length * (char.toNat - '0'.toNat) + 10 ^ rest.length :=
        Nat.add_lt_add_left below _
      _ = 10 ^ rest.length * (char.toNat - '0'.toNat + 1) := (Nat.mul_succ _ _).symm
      _ ≤ 10 ^ rest.length * 10 := Nat.mul_le_mul_left _ (Nat.succ_le_succ digit)
      _ = 10 ^ (char :: rest).length := by rw [List.length_cons, Nat.pow_succ]

/-- The first digits decide if they differ. -/
theorem value_cons_lt (lower : char < char') (digit : char.isDigit = true)
    (digits : ∀ other ∈ rest, other.isDigit = true) (sizes : rest.length = rest'.length) :
    value (char :: rest) < value (char' :: rest') := by
  have below := value_lt digits
  have order : char.toNat < char'.toNat := lower
  have least := (digit_le digit).1
  have next : char.toNat - '0'.toNat + 1 ≤ char'.toNat - '0'.toNat := by omega
  calc value (char :: rest)
      = 10 ^ rest.length * (char.toNat - '0'.toNat) + value rest := value_cons char rest
    _ < 10 ^ rest.length * (char.toNat - '0'.toNat) + 10 ^ rest.length :=
      Nat.add_lt_add_left below _
    _ = 10 ^ rest.length * (char.toNat - '0'.toNat + 1) := (Nat.mul_succ _ _).symm
    _ ≤ 10 ^ rest.length * (char'.toNat - '0'.toNat) := Nat.mul_le_mul_left _ next
    _ ≤ value (char' :: rest') := by
      rw [value_cons, sizes]
      exact Nat.le_add_right _ _

/-- Numerals of one length are in the order in which a dictionary has them. -/
theorem compare_value_of_length_eq (left : ∀ char ∈ first, char.isDigit = true)
    (right : ∀ char ∈ second, char.isDigit = true) (sizes : first.length = second.length) :
    compare (value first) (value second) = List.compareLex compare first second := by
  induction first generalizing second with
  | nil =>
    rw [List.length_nil, eq_comm, List.length_eq_zero_iff] at sizes
    rw [sizes, List.compareLex_nil_nil]
    exact compare_eq_iff_eq.mpr rfl
  | cons char rest ih =>
    cases second with
    | nil => cases sizes
    | cons char' rest' =>
      obtain ⟨digit, digits⟩ := List.forall_mem_cons.mp left
      obtain ⟨digit', digits'⟩ := List.forall_mem_cons.mp right
      have shorter : rest.length = rest'.length := Nat.succ.inj sizes
      rw [List.compareLex_cons_cons]
      rcases lt_trichotomy char char' with lower | same | higher
      · rw [compare_lt_iff_lt.mpr lower,
          compare_lt_iff_lt.mpr (value_cons_lt lower digit digits shorter)]
        rfl
      · rw [← same, compare_eq_iff_eq.mpr rfl, Ordering.eq_then, ← ih digits digits' shorter,
          value_cons, value_cons, shorter]
        simp only [Nat.compare_eq_ite_lt, Nat.add_lt_add_iff_left]
      · rw [compare_gt_iff_gt.mpr higher,
          compare_gt_iff_gt.mpr (value_cons_lt higher digit' digits' shorter.symm)]
        rfl

theorem value_significant (digits : List Char) : value (significant digits) = value digits := by
  induction digits with
  | nil => rfl
  | cons char rest ih =>
    by_cases zero : char = '0'
    · subst zero
      rw [significant, List.dropWhile_cons_of_pos rfl, value_cons, Nat.sub_self, Nat.mul_zero,
        Nat.zero_add]
      exact ih
    · rw [significant, List.dropWhile_cons_of_neg (by simpa using zero)]

theorem digits_significant (digits : ∀ char ∈ first, char.isDigit = true) :
    ∀ char ∈ significant first, char.isDigit = true :=
  fun char member => digits char ((List.dropWhile_sublist _).subset member)

/-- A numeral without zeros at its front denotes more than a shorter one does. -/
theorem value_lt_of_length_lt (left : ∀ char ∈ first, char.isDigit = true)
    (right : ∀ char ∈ second, char.isDigit = true)
    (shorter : first.length < (significant second).length) :
    value first < value (significant second) := by
  have nonzero := List.head?_dropWhile_not (· == '0') second
  have digits := digits_significant right
  generalize trimmed : significant second = chars at shorter digits
  cases chars with
  | nil => cases shorter
  | cons char rest =>
    rw [significant] at trimmed
    rw [trimmed] at nonzero
    have digit := digit_le (digits char List.mem_cons_self)
    have positive : 1 ≤ char.toNat - '0'.toNat := by
      by_contra none
      have same : char.toNat = '0'.toNat := by omega
      have zero : char = '0' := Char.toNat_inj.mp same
      simp [zero] at nonzero
    calc value first
        < 10 ^ first.length := value_lt left
      _ ≤ 10 ^ rest.length := Nat.pow_le_pow_right (by decide) (Nat.le_of_lt_succ shorter)
      _ ≤ 10 ^ rest.length * (char.toNat - '0'.toNat) := Nat.le_mul_of_pos_right _ positive
      _ ≤ value (char :: rest) := by
        rw [value_cons]
        exact Nat.le_add_right _ _

/-- Numbers are in the order of their numerals. -/
theorem compare_value (left : ∀ char ∈ first, char.isDigit = true)
    (right : ∀ char ∈ second, char.isDigit = true) :
    compare (value first) (value second) = order first second := by
  have leftDigits := digits_significant left
  have rightDigits := digits_significant right
  rw [order, ← value_significant first, ← value_significant second]
  rcases lt_trichotomy (significant first).length (significant second).length with
    shorter | same | longer
  · rw [compare_lt_iff_lt.mpr shorter,
      compare_lt_iff_lt.mpr (value_lt_of_length_lt leftDigits right shorter)]
    rfl
  · rw [compare_value_of_length_eq leftDigits rightDigits same, compare_eq_iff_eq.mpr same]
    rfl
  · rw [compare_gt_iff_gt.mpr longer,
      compare_gt_iff_gt.mpr (value_lt_of_length_lt rightDigits left longer)]
    rfl

end Decimal

theorem Comparison.holds_natCast (relation : Comparison) (first second : Nat) :
    relation.holds first second = relation.admits (compare first second) := by
  rw [Bool.eq_iff_iff]
  cases relation with
  | lt => simp [holds, admits, Ordering.isLT_iff_eq_lt, Nat.compare_eq_lt]
  | le => simp [holds, admits, Nat.isLE_compare]
  | gt => simp [holds, admits, Ordering.isGT_iff_eq_gt, Nat.compare_eq_gt]
  | ge => simp [holds, admits, Nat.isGE_compare]
  | eq =>
    simp only [holds, admits, decide_eq_true_eq, Int.natCast_inj, Ordering.isEq_iff_eq_eq,
      Nat.compare_eq_eq]

end Condition
