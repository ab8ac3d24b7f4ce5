import Condition.Except
import Condition.Numeral
import Condition.Proofs.NumeralComparison

namespace Condition

namespace Sign

/-- The largest magnitude of a number in range. -/
def limit : Sign → Nat
  | minus => Integer.maximum + 1
  | _ => Integer.maximum

theorem inRange_iff (sign : Sign) (magnitude : Nat) :
    Integer.InRange (sign.number magnitude) ↔ magnitude ≤ sign.limit := by
  cases sign <;> simp only [Integer.InRange, number, limit, Integer.maximum] <;> omega

theorem beyond_ne_invalidDigit (sign : Sign) : sign.beyond ≠ .invalidDigit := by
  cases sign <;> decide

theorem number_mul (sign : Sign) (factor magnitude : Nat) :
    sign.number (factor * magnitude) = factor * sign.number magnitude := by
  cases sign <;> simp only [number, Int.natCast_mul, Int.mul_neg]

theorem number_add (sign : Sign) (tens digit : Nat) :
    sign.number (tens + digit) = sign.number tens + sign.number digit := by
  cases sign <;> simp only [number] <;> omega

theorem chars_append_behind (text : List Char) :
    (ofText text).chars ++ behind text = text := by
  unfold behind ofText
  split <;> rfl

theorem behind_eq_nil_iff {text : List Char} (some : text ≠ []) :
    behind text = [] ↔ text = ['+'] ∨ text = ['-'] := by
  constructor
  · intro bare
    have whole := chars_append_behind text
    rw [bare, List.append_nil] at whole
    cases sign : ofText text with
    | absent =>
      rw [sign] at whole
      exact absurd whole.symm some
    | plus =>
      rw [sign] at whole
      exact .inl whole.symm
    | minus =>
      rw [sign] at whole
      exact .inr whole.symm
  · rintro (rfl | rfl) <;> rfl

variable {digits : List Char}

theorem ofText_chars_append (some : digits ≠ []) (valid : ∀ char ∈ digits, char.isDigit = true)
    (sign : Sign) : ofText (sign.chars ++ digits) = sign := by
  cases digits with
  | nil => exact absurd rfl some
  | cons char rest =>
    have digit := valid char List.mem_cons_self
    cases sign with
    | plus => rfl
    | minus => rfl
    | absent =>
      simp only [chars, List.nil_append]
      unfold ofText
      split <;> simp_all

theorem behind_chars_append (some : digits ≠ []) (valid : ∀ char ∈ digits, char.isDigit = true)
    (sign : Sign) : behind (sign.chars ++ digits) = digits := by
  rw [behind, ofText_chars_append some valid, List.drop_left]

end Sign

theorem denotes_iff {text : List Char} {number : Int} : Denotes text number ↔
    Sign.behind text ≠ [] ∧ (∀ char ∈ Sign.behind text, char.isDigit = true) ∧
      number = (Sign.ofText text).number (Decimal.value (Sign.behind text)) := by
  constructor
  · rintro ⟨sign, some, valid⟩
    rw [Sign.behind_chars_append some valid, Sign.ofText_chars_append some valid]
    exact ⟨some, valid, rfl⟩
  · rintro ⟨some, valid, rfl⟩
    have denotes := Denotes.numeral (Sign.ofText text) some valid
    rwa [Sign.chars_append_behind] at denotes

theorem denotes_chars_append_iff {digits : List Char} {sign : Sign} {number : Int}
    (some : digits ≠ []) (valid : ∀ char ∈ digits, char.isDigit = true) :
    Denotes (sign.chars ++ digits) number ↔ number = sign.number (Decimal.value digits) := by
  rw [denotes_iff, Sign.behind_chars_append some valid, Sign.ofText_chars_append some valid]
  exact ⟨fun given => given.2.2, fun same => ⟨some, valid, same⟩⟩

namespace Decimal

theorem value_le_of_prefix {front digits : List Char} (first : front <+: digits) :
    value front ≤ value digits := by
  obtain ⟨rest, rfl⟩ := first
  rw [value, value, Nat.ofDigitChars_append]
  exact Integer.le_ofDigitChars rest _

theorem value_zeros_append (count : Nat) (digits : List Char) :
    value (List.replicate count '0' ++ digits) = value digits := by
  induction count with
  | zero => rfl
  | succ count ih =>
    rw [List.replicate_succ, List.cons_append, value_cons, Nat.sub_self, Nat.mul_zero, Nat.zero_add,
      ih]

end Decimal

namespace Integer

variable {digits rest body front : List Char} {limit : Nat} {beyond : IntegerFault}

theorem exists_digits (body : List Char) :
    ∃ digits rest, body = digits ++ rest ∧ (∀ char ∈ digits, char.isDigit = true) ∧
      ∀ char ∈ rest.head?, char.isDigit = false := by
  refine ⟨_, _, List.takeWhile_append_dropWhile.symm,
    fun char => List.mem_takeWhile_imp, fun char first => ?_⟩
  have stopped := List.head?_dropWhile_not Char.isDigit body
  rwa [Option.mem_def.mp first] at stopped

theorem prefix_of_digits (stopped : ∀ char ∈ rest.head?, char.isDigit = false)
    (valid : ∀ char ∈ front, char.isDigit = true) (first : front <+: digits ++ rest) :
    front <+: digits := by
  obtain ⟨behind, whole⟩ := first
  rcases List.append_eq_append_iff.mp whole with ⟨more, longer, -⟩ | ⟨more, rfl, later⟩
  · exact ⟨more, longer.symm⟩
  · cases more with
    | nil => simp
    | cons char more =>
      have digit := valid char (by simp)
      rw [stopped char (by simp [later])] at digit
      cases digit

/-- What is read up to the first character that is no digit decides, unless the digits in front of
it leave the range. -/
theorem foldlM_appendDigit_append (valid : ∀ char ∈ digits, char.isDigit = true)
    (stopped : ∀ char ∈ rest.head?, char.isDigit = false) :
    (digits ++ rest).foldlM (appendDigit limit beyond) 0 =
      if limit < Decimal.value digits then .error beyond
      else if rest = [] then .ok (Decimal.value digits) else .error .invalidDigit := by
  rw [List.foldlM_append, foldlM_appendDigit valid (Nat.zero_le limit), ← Decimal.value]
  by_cases above : limit < Decimal.value digits
  · simp only [if_pos above, if_neg (Nat.not_le_of_lt above)]
    rfl
  · simp only [if_neg above, if_pos (Nat.le_of_not_lt above)]
    cases rest with
    | nil => rfl
    | cons char rest =>
      have bad := stopped char rfl
      simp only [List.foldlM_cons, appendDigit, bad]
      rfl

theorem readMagnitude_append (some : digits ++ rest ≠ [])
    (valid : ∀ char ∈ digits, char.isDigit = true)
    (stopped : ∀ char ∈ rest.head?, char.isDigit = false) :
    readMagnitude limit beyond (digits ++ rest) =
      if limit < Decimal.value digits then .error beyond
      else if rest = [] then .ok (Decimal.value digits) else .error .invalidDigit := by
  rw [readMagnitude, if_neg (by simpa using some), foldlM_appendDigit_append valid stopped]

theorem readMagnitude_eq_ok_iff {magnitude : Nat} :
    readMagnitude limit beyond body = .ok magnitude ↔
      body ≠ [] ∧ (∀ char ∈ body, char.isDigit = true) ∧ magnitude = Decimal.value body ∧
        magnitude ≤ limit := by
  by_cases some : body = []
  · subst some
    exact iff_of_false nofun fun given => given.1 rfl
  obtain ⟨digits, rest, rfl, valid, stopped⟩ := exists_digits body
  rw [readMagnitude_append some valid stopped]
  cases rest with
  | nil =>
    rw [List.append_nil] at some ⊢
    split
    · refine iff_of_false nofun ?_
      rintro ⟨-, -, rfl, within⟩
      omega
    · constructor
      · rintro ⟨⟩
        exact ⟨some, valid, rfl, by omega⟩
      · rintro ⟨-, -, rfl, -⟩
        rfl
  | cons char rest =>
    refine iff_of_false (by split <;> nofun) ?_
    rintro ⟨-, all, -⟩
    have digit := all char (by simp)
    rw [stopped char rfl] at digit
    cases digit

theorem readMagnitude_eq_beyond_iff (other : beyond ≠ .invalidDigit) :
    readMagnitude limit beyond body = .error beyond ↔
      ∃ front, front <+: body ∧ (∀ char ∈ front, char.isDigit = true) ∧
        limit < Decimal.value front := by
  by_cases some : body = []
  · subst some
    refine iff_of_false (fun same => other (Except.error.inj same).symm) ?_
    rintro ⟨front, first, -, above⟩
    rw [List.prefix_nil.mp first] at above
    cases above
  obtain ⟨digits, rest, rfl, valid, stopped⟩ := exists_digits body
  rw [readMagnitude_append some valid stopped]
  split
  · exact iff_of_true rfl ⟨digits, List.prefix_append digits rest, valid, ‹_›⟩
  · refine iff_of_false ?_ ?_
    · split
      · nofun
      · exact fun same => other (Except.error.inj same).symm
    · rintro ⟨front, first, all, above⟩
      have below := Decimal.value_le_of_prefix (prefix_of_digits stopped all first)
      omega

theorem readMagnitude_eq_invalidDigit_iff (other : beyond ≠ .invalidDigit) :
    readMagnitude limit beyond body = .error .invalidDigit ↔
      body = [] ∨ ∃ front char behind, body = front ++ char :: behind ∧
        (∀ char ∈ front, char.isDigit = true) ∧ char.isDigit = false ∧
        Decimal.value front ≤ limit := by
  by_cases some : body = []
  · subst some
    exact iff_of_true rfl (.inl rfl)
  rw [or_iff_right some]
  constructor
  · intro refused
    obtain ⟨digits, rest, rfl, valid, stopped⟩ := exists_digits body
    rw [readMagnitude_append some valid stopped] at refused
    split at refused
    · exact absurd (Except.error.inj refused) other
    · cases rest with
      | nil => cases refused
      | cons char rest => exact ⟨digits, char, rest, rfl, valid, stopped char rfl, by omega⟩
  · rintro ⟨front, char, behind, rfl, valid, bad, within⟩
    have stopped : ∀ first ∈ (char :: behind).head?, first.isDigit = false := by simpa using bad
    rw [readMagnitude_append some valid stopped, if_neg (Nat.not_lt_of_le within),
      if_neg (List.cons_ne_nil char behind)]

theorem readMagnitude_error_cases {fault : IntegerFault}
    (failed : readMagnitude limit beyond body = .error fault) :
    fault = .invalidDigit ∨ fault = beyond := by
  by_cases some : body = []
  · subst some
    cases failed
    exact .inl rfl
  obtain ⟨digits, rest, rfl, valid, stopped⟩ := exists_digits body
  rw [readMagnitude_append some valid stopped] at failed
  split at failed
  · exact .inr (Except.error.inj failed).symm
  · split at failed
    · cases failed
    · exact .inl (Except.error.inj failed).symm

theorem read_eq {text : List Char} (some : text ≠ []) :
    read text = (readMagnitude (Sign.ofText text).limit (Sign.ofText text).beyond
      (Sign.behind text)).map (Sign.ofText text).number := by
  cases text with
  | nil => exact absurd rfl some
  | cons char rest =>
    by_cases plus : char = '+'
    · subst plus
      rfl
    by_cases minus : char = '-'
    · subst minus
      rfl
    have absent : Sign.ofText (char :: rest) = .absent := by
      unfold Sign.ofText
      split <;> simp_all
    rw [Sign.behind, absent]
    unfold read
    split
    · simp_all
    · simp_all
    · simp_all
    · rfl

theorem word?_number (sign : Sign) {magnitude : Nat} (within : magnitude ≤ sign.limit) :
    ∃ word, word? (sign.number magnitude) = some word ∧ word.toInt = sign.number magnitude := by
  have range := (sign.inRange_iff magnitude).mpr within
  refine ⟨_, if_pos range, Int64.toInt_ofInt_of_le range.1 ?_⟩
  have upper := range.2
  omega

theorem word?_number_eq_none (sign : Sign) {magnitude : Nat} (above : sign.limit < magnitude) :
    word? (sign.number magnitude) = none :=
  if_neg fun range => Nat.not_le_of_lt above ((sign.inRange_iff magnitude).mp range)

/-- A step in 64 bits does what a step with numbers of any size does that knows the limit. It does
not matter whether it is the product or the sum that leaves the range. -/
theorem accumulate_map {sign : Sign} {sofar : Int64} {magnitude : Nat}
    (same : sofar.toInt = sign.number magnitude) (char : Char) :
    (accumulate sign sofar char).map Int64.toInt =
      (appendDigit sign.limit sign.beyond magnitude char).map sign.number := by
  by_cases digit : char.isDigit = true
  · have tens : (10 : Int) * sign.number magnitude = sign.number (10 * magnitude) :=
      (sign.number_mul 10 magnitude).symm
    simp only [accumulate, appendDigit, if_pos digit, same, tens]
    generalize char.toNat - '0'.toNat = units
    by_cases product : 10 * magnitude ≤ sign.limit
    · obtain ⟨word, held, value⟩ := word?_number sign product
      rw [held, Option.bind_some, value, ← sign.number_add]
      by_cases sum : 10 * magnitude + units ≤ sign.limit
      · obtain ⟨next, found, result⟩ := word?_number sign sum
        simp only [found, if_pos sum, Except.map, result]
      · rw [word?_number_eq_none sign (Nat.lt_of_not_le sum), if_neg sum]
        rfl
    · have sum : ¬ 10 * magnitude + units ≤ sign.limit := by omega
      rw [word?_number_eq_none sign (Nat.lt_of_not_le product), if_neg sum]
      rfl
  · simp only [accumulate, appendDigit, digit]
    rfl

theorem foldlM_accumulate_map {sign : Sign} {sofar : Int64} {magnitude : Nat}
    (same : sofar.toInt = sign.number magnitude) (body : List Char) :
    (body.foldlM (accumulate sign) sofar).map Int64.toInt =
      (body.foldlM (appendDigit sign.limit sign.beyond) magnitude).map sign.number := by
  induction body generalizing sofar magnitude with
  | nil => exact congrArg Except.ok same
  | cons char rest ih =>
    rw [List.foldlM_cons, List.foldlM_cons]
    rcases map_eq_map_cases (accumulate_map same char) with
      ⟨cause, refused, stopped⟩ | ⟨word, next, stepped, appended, agree⟩
    · rw [refused, stopped]
      rfl
    · rw [stepped, appended]
      exact ih agree

/-- Numbers of any size that are checked against a limit, and words of 64 bits of which no product
and no sum goes out of range unnoticed, lead to one reading. -/
theorem read_eq_readWord (text : List Char) : read text = (readWord text).map Int64.toInt := by
  by_cases some : text = []
  · subst some
    rfl
  rw [read_eq some, readWord, if_neg some, readMagnitude]
  by_cases bare : Sign.behind text = []
  · rw [if_pos bare, bare]
    rfl
  · rw [if_neg bare, if_neg (by simpa using bare)]
    have zero : (0 : Int64).toInt = (Sign.ofText text).number 0 := by
      cases Sign.ofText text <;> rfl
    exact (foldlM_accumulate_map zero _).symm

/-- Digits at the front of a text, behind its sign, denote a number out of range. -/
def LeavesRange (text : List Char) : Prop :=
  ∃ front, front <+: Sign.behind text ∧ (∀ char ∈ front, char.isDigit = true) ∧
    ¬ InRange ((Sign.ofText text).number (Decimal.value front))

/-- The digits behind the sign of a text end at some other character, and none of them lead out of
the range. -/
def BreaksOff (text : List Char) : Prop :=
  ∃ digits char rest, Sign.behind text = digits ++ char :: rest ∧
    (∀ digit ∈ digits, digit.isDigit = true) ∧ char.isDigit = false ∧
    ∀ front, front <+: digits → InRange ((Sign.ofText text).number (Decimal.value front))

variable {text : List Char} {fault : IntegerFault}

theorem read_eq_error_iff (some : text ≠ []) : read text = .error fault ↔
    readMagnitude (Sign.ofText text).limit (Sign.ofText text).beyond (Sign.behind text) =
      .error fault := by
  rw [read_eq some, map_eq_error_iff]

theorem read_eq_ok_iff {number : Int} :
    read text = .ok number ↔ Denotes text number ∧ InRange number := by
  rw [denotes_iff]
  by_cases some : text = []
  · subst some
    exact iff_of_false nofun fun given => given.1.1 rfl
  rw [read_eq some]
  constructor
  · intro found
    cases read : readMagnitude (Sign.ofText text).limit (Sign.ofText text).beyond
      (Sign.behind text) with
    | error cause =>
      rw [read] at found
      cases found
    | ok magnitude =>
      rw [read] at found
      cases found
      obtain ⟨nonempty, valid, same, within⟩ := readMagnitude_eq_ok_iff.mp read
      exact ⟨⟨nonempty, valid, by rw [same]⟩, (Sign.inRange_iff _ _).mpr within⟩
  · rintro ⟨⟨nonempty, valid, rfl⟩, range⟩
    have within := (Sign.inRange_iff _ _).mp range
    rw [readMagnitude_eq_ok_iff.mpr ⟨nonempty, valid, rfl, within⟩]
    rfl

theorem read_error_cases (failed : read text = .error fault) :
    text = [] ∧ fault = .empty ∨ fault = .invalidDigit ∨ fault = (Sign.ofText text).beyond := by
  by_cases some : text = []
  · subst some
    cases failed
    exact .inl ⟨rfl, rfl⟩
  · exact .inr (readMagnitude_error_cases ((read_eq_error_iff some).mp failed))

theorem read_eq_empty_iff : read text = .error .empty ↔ text = [] := by
  constructor
  · intro failed
    rcases read_error_cases failed with ⟨same, -⟩ | same | same
    · exact same
    · cases same
    · cases sign : Sign.ofText text <;> rw [sign] at same <;> cases same
  · rintro rfl
    rfl

theorem read_eq_invalidDigit_iff :
    read text = .error .invalidDigit ↔ text = ['+'] ∨ text = ['-'] ∨ BreaksOff text := by
  by_cases some : text = []
  · subst some
    refine iff_of_false nofun ?_
    rintro (same | same | ⟨digits, _, _, same, -⟩)
    · cases same
    · cases same
    · cases digits <;> cases same
  rw [read_eq_error_iff some, readMagnitude_eq_invalidDigit_iff (Sign.beyond_ne_invalidDigit _),
    Sign.behind_eq_nil_iff some, or_assoc]
  simp only [BreaksOff, Sign.inRange_iff]
  refine or_congr_right (or_congr_right ?_)
  constructor
  · rintro ⟨digits, char, rest, split, valid, bad, within⟩
    exact ⟨digits, char, rest, split, valid, bad,
      fun front first => Nat.le_trans (Decimal.value_le_of_prefix first) within⟩
  · rintro ⟨digits, char, rest, split, valid, bad, within⟩
    exact ⟨digits, char, rest, split, valid, bad, within digits (List.prefix_refl digits)⟩

theorem read_eq_beyond_iff :
    read text = .error (Sign.ofText text).beyond ↔ LeavesRange text := by
  by_cases some : text = []
  · subst some
    refine iff_of_false nofun ?_
    rintro ⟨front, first, -, out⟩
    rw [List.prefix_nil.mp first] at out
    exact out (by decide)
  rw [read_eq_error_iff some, readMagnitude_eq_beyond_iff (Sign.beyond_ne_invalidDigit _)]
  simp only [LeavesRange, Sign.inRange_iff, Nat.not_le]

theorem read_eq_outOfRange_iff (out : fault = .aboveRange ∨ fault = .belowRange) :
    read text = .error fault ↔ fault = (Sign.ofText text).beyond ∧ LeavesRange text := by
  rw [← read_eq_beyond_iff]
  constructor
  · intro failed
    rcases read_error_cases failed with ⟨-, same⟩ | same | same
    · rcases out with rfl | rfl <;> cases same
    · rcases out with rfl | rfl <;> cases same
    · exact ⟨same, same ▸ failed⟩
  · rintro ⟨rfl, failed⟩
    exact failed

end Integer

/-- How a text is read where an integer is needed. -/
structure ReadsInteger (text : List Char) : Prop where
  number : ∀ number, Value.toInt (.digits text) = .ok number ↔
    Denotes text number ∧ Integer.InRange number
  /-- A text that is refused is named, with one of four causes. -/
  refused : ∀ fault, Value.toInt (.digits text) = .error fault →
    ∃ cause, fault = .invalidInteger text cause
  empty : Value.toInt (.digits text) = .error (.invalidInteger text .empty) ↔ text = []
  invalidDigit : Value.toInt (.digits text) = .error (.invalidInteger text .invalidDigit) ↔
    text = ['+'] ∨ text = ['-'] ∨ Integer.BreaksOff text
  aboveRange : Value.toInt (.digits text) = .error (.invalidInteger text .aboveRange) ↔
    Sign.ofText text ≠ .minus ∧ Integer.LeavesRange text
  belowRange : Value.toInt (.digits text) = .error (.invalidInteger text .belowRange) ↔
    Sign.ofText text = .minus ∧ Integer.LeavesRange text
  /-- Zeros in front of the digits make no difference. -/
  zeros : ∀ (sign : Sign) (digits : List Char) (count : Nat) (number : Int),
    text = sign.chars ++ digits → digits ≠ [] → (∀ digit ∈ digits, digit.isDigit = true) →
      (Value.toInt (.digits (sign.chars ++ List.replicate count '0' ++ digits)) = .ok number ↔
        Value.toInt (.digits text) = .ok number)
  /-- It makes no difference either whether the digits are added up in 64 bits. -/
  words : Value.toInt (.digits text) =
    ((Integer.readWord text).map Int64.toInt).mapError (.invalidInteger text)

theorem Value.toInt_eq_ok_iff {text : List Char} {number : Int} :
    Value.toInt (.digits text) = .ok number ↔ Denotes text number ∧ Integer.InRange number := by
  rw [toInt, mapError_eq_ok_iff, Integer.read_eq_ok_iff]

theorem Value.toInt_eq_error_iff {text : List Char} {cause : IntegerFault} :
    Value.toInt (.digits text) = .error (.invalidInteger text cause) ↔
      Integer.read text = .error cause := by
  rw [toInt]
  cases Integer.read text with
  | ok number => constructor <;> intro same <;> cases same
  | error fault => simp [Except.mapError]

/-- Texts are read as the decimal integers that they denote, and all others are refused. -/
theorem readsInteger (text : List Char) : ReadsInteger text where
  number _ := Value.toInt_eq_ok_iff
  refused fault failed := by
    cases read : Integer.read text with
    | ok number =>
      rw [Value.toInt, read] at failed
      cases failed
    | error cause =>
      rw [Value.toInt, read] at failed
      cases failed
      exact ⟨cause, rfl⟩
  empty := by rw [Value.toInt_eq_error_iff, Integer.read_eq_empty_iff]
  invalidDigit := by rw [Value.toInt_eq_error_iff, Integer.read_eq_invalidDigit_iff]
  aboveRange := by
    rw [Value.toInt_eq_error_iff, Integer.read_eq_outOfRange_iff (.inl rfl)]
    cases Sign.ofText text <;> simp [Sign.beyond]
  belowRange := by
    rw [Value.toInt_eq_error_iff, Integer.read_eq_outOfRange_iff (.inr rfl)]
    cases Sign.ofText text <;> simp [Sign.beyond]
  zeros sign digits count number whole some valid := by
    have longer : List.replicate count '0' ++ digits ≠ [] :=
      List.append_ne_nil_of_right_ne_nil _ some
    have zeros : ∀ char ∈ List.replicate count '0' ++ digits, char.isDigit = true := by
      intro char member
      rcases List.mem_append.mp member with zero | later
      · rw [List.eq_of_mem_replicate zero]
        rfl
      · exact valid char later
    rw [whole, Value.toInt_eq_ok_iff, Value.toInt_eq_ok_iff, List.append_assoc,
      denotes_chars_append_iff longer zeros, denotes_chars_append_iff some valid,
      Decimal.value_zeros_append]
  words := by rw [Value.toInt, Integer.read_eq_readWord]

/-- A letter behind the largest number decides, though any digit there would lead out of the range.
Behind the digit it does not. -/
example :
    Integer.read "9223372036854775807x".toList = .error .invalidDigit ∧
      Integer.read "-9223372036854775809x".toList = .error .belowRange := by
  decide

end Condition
