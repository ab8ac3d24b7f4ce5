import Condition.Proofs.PipeRun

namespace Condition.CommandLine

/-- The line of an input, counted from zero, that is the first one to be no text. -/
structure FirstInvalid (input : List UInt8) (number : Nat) : Prop where
  invalid : ∃ line, (byteLines input)[number]? = some line ∧ decode? line = none
  valid : ∀ line ∈ (byteLines input).take number, (decode? line).isSome = true

def leadingBytes (input : List UInt8) (number : Nat) : List UInt8 :=
  ((byteLines input).take number).flatten

/-- What is printed as errors about the expressions of a text. -/
def reports (options : Options) (text : List Char) : List Char :=
  (expressionsOf text).flatMap fun expression => (answer options expression).err

def failures (options : Options) (text : List Char) : Nat :=
  (expressionsOf text).countP fun expression => (answer options expression).failed

/-- A run that a line which is no text cuts short. -/
structure CutShort (arguments : List (List Char)) (options : Options) (input : List UInt8)
    (number : Nat) : Prop where
  out : (respond arguments input).out = (respond arguments (leadingBytes input number)).out
  /-- The complaint about the line takes the place of the summary. -/
  err : ∃ text, decode? (leadingBytes input number) = some text ∧
    (respond arguments (leadingBytes input number)).err =
      reports options text ++ closing (failures options text) ∧
    (respond arguments input).err =
      reports options text ++ complaint "stream did not contain valid UTF-8"
  status : (respond arguments input).status = 1
  /-- Neither the bytes of that line nor those behind it make a difference. -/
  blind : ∀ other, FirstInvalid other number →
    leadingBytes other number = leadingBytes input number →
      respond arguments other = respond arguments input

theorem byteLines_flatten (input : List UInt8) : (byteLines input).flatten = input :=
  List.flatten_splitBy _ input

theorem byteLines_leadingBytes (input : List UInt8) (number : Nat) :
    byteLines (leadingBytes input number) = (byteLines input).take number := by
  obtain ⟨-, nonempty, chains, apart⟩ := List.splitBy_eq_iff.mp (rfl : byteLines input = _)
  have among := List.take_subset number (byteLines input)
  exact List.splitBy_flatten (mt (among ·) nonempty) (fun line member => chains line (among member))
    (apart.take number)

theorem exists_decode?_flatten {lines : List (List UInt8)}
    (valid : ∀ line ∈ lines, (decode? line).isSome = true) :
    ∃ text, decode? lines.flatten = some text := by
  induction lines with
  | nil => exact ⟨[], decode?_eq_some_iff.mpr rfl⟩
  | cons line rest ih =>
    obtain ⟨first, others⟩ := List.forall_mem_cons.mp valid
    obtain ⟨front, found⟩ := Option.isSome_iff_exists.mp first
    obtain ⟨back, later⟩ := ih others
    refine ⟨front ++ back, decode?_eq_some_iff.mpr ?_⟩
    rw [List.flatten_cons, encode_append, decode?_eq_some_iff.mp found,
      decode?_eq_some_iff.mp later]

theorem decode?_of_mem_byteLines (decoded : decode? input = some text)
    (member : line ∈ byteLines input) : (decode? line).isSome = true := by
  rw [decode?_eq_some_iff.mp decoded, byteLines_encode] at member
  obtain ⟨chars, -, rfl⟩ := List.mem_map.mp member
  exact Option.isSome_iff_exists.mpr ⟨chars, decode?_eq_some_iff.mpr rfl⟩

theorem firstInvalid_iff : FirstInvalid input number ↔
    ∃ front line back, byteLines input = front ++ line :: back ∧ front.length = number ∧
      (∀ earlier ∈ front, (decode? earlier).isSome = true) ∧ decode? line = none := by
  constructor
  · rintro ⟨⟨line, stands, invalid⟩, valid⟩
    obtain ⟨inside, rfl⟩ := List.getElem?_eq_some_iff.mp stands
    have split := List.take_append_drop number (byteLines input)
    rw [List.drop_eq_getElem_cons inside] at split
    exact ⟨_, _, _, split.symm, List.length_take_of_le inside.le, valid, invalid⟩
  · rintro ⟨front, line, back, split, rfl, valid, invalid⟩
    refine ⟨⟨line, ?_, invalid⟩, ?_⟩
    · rw [split, List.getElem?_append_right le_rfl, Nat.sub_self, List.getElem?_cons_zero]
    · rwa [split, List.take_left]

/-- An input is a text, or it has a first line that is none. -/
theorem decode?_eq_none_iff : decode? input = none ↔ ∃ number, FirstInvalid input number := by
  constructor
  · intro invalid
    have split := List.takeWhile_append_dropWhile (p := fun line => (decode? line).isSome)
      (l := byteLines input)
    cases rest : (byteLines input).dropWhile fun line => (decode? line).isSome with
    | nil =>
      have valid := List.dropWhile_eq_nil_iff.mp rest
      obtain ⟨text, found⟩ := exists_decode?_flatten valid
      rw [byteLines_flatten, invalid] at found
      cases found
    | cons line back =>
      have stopped := List.head?_dropWhile_not (fun line => (decode? line).isSome) (byteLines input)
      rw [rest] at stopped split
      have valid : ∀ earlier ∈ (byteLines input).takeWhile fun line => (decode? line).isSome,
          (decode? earlier).isSome = true := fun _ => List.mem_takeWhile_imp
      have invalid : decode? line = none := by simpa using stopped
      exact ⟨_, firstInvalid_iff.mpr ⟨_, line, back, split.symm, rfl, valid, invalid⟩⟩
  · rintro ⟨number, first⟩
    obtain ⟨line, stands, invalid⟩ := first.invalid
    cases decoded : decode? input with
    | none => rfl
    | some text =>
      have valid := decode?_of_mem_byteLines decoded (List.mem_of_getElem? stands)
      rw [invalid] at valid
      cases valid

namespace FirstInvalid

variable {input : List UInt8} {number : Nat}

theorem exists_text (first : FirstInvalid input number) : ∃ text line back,
    decode? (leadingBytes input number) = some text ∧
      byteLines input = (textLines text).map encode ++ line :: back ∧ decode? line = none := by
  obtain ⟨text, decoded⟩ : ∃ text, decode? (leadingBytes input number) = some text :=
    exists_decode?_flatten first.valid
  obtain ⟨front, line, back, split, rfl, -, invalid⟩ := firstInvalid_iff.mp first
  have lines := byteLines_leadingBytes input front.length
  rw [split, List.take_left, decode?_eq_some_iff.mp decoded, byteLines_encode] at lines
  exact ⟨text, line, back, decoded, by rw [lines, split], invalid⟩

theorem answerLines_eq (first : FirstInvalid input number)
    (decoded : decode? (leadingBytes input number) = some text) (options : Options) :
    answerLines options input = interrupted ((expressionsOf text).map (answer options)) := by
  obtain ⟨other, line, back, found, lines, invalid⟩ := first.exists_text
  obtain rfl := Option.some.inj (found.symm.trans decoded)
  have read : (byteLines input).map decode? =
      (textLines other).map some ++ none :: back.map decode? := by
    rw [lines, List.map_append, map_decode?_encode, List.map_cons, invalid]
  have broken :
      ((textLines other).map some ++ none :: back.map decode?).all Option.isSome = false := by
    simp
  have stops : (none :: back.map decode?).takeWhile Option.isSome = [] := rfl
  have readable := filterMap_takeWhile_some (textLines other) stops
  simp only [answerLines, read, readable, broken, expressions_textLines]
  rfl

end FirstInvalid

/-- The lines in front of the first one that is no text are answered, and then the run ends. -/
theorem respond_cutShort (parsed : parse arguments = .ok (.run options))
    (reads : options.expression = none) (first : FirstInvalid input number) :
    CutShort arguments options input number := by
  obtain ⟨text, -, -, decoded, -⟩ := first.exists_text
  have whole : respond arguments input =
      interrupted ((expressionsOf text).map (answer options)) :=
    (respond_of_parse parsed reads input).trans (first.answerLines_eq decoded options)
  have leading : respond arguments (leadingBytes input number) =
      summarize ((expressionsOf text).map (answer options)) := by
    rw [respond_of_parse parsed reads, decode?_eq_some_iff.mp decoded, answerLines_encode]
  have told : ((expressionsOf text).map (answer options)).flatMap Answer.err =
      reports options text :=
    List.flatMap_map _ _ _
  have failed : ((expressionsOf text).map (answer options)).countP Answer.failed =
      failures options text := List.countP_map
  constructor
  · rw [whole, leading, summarize_eq, interrupted]
  · refine ⟨text, decoded, ?_, ?_⟩
    · rw [leading, summarize_eq, told, failed]
    · rw [whole, interrupted, told]
  · rw [whole, interrupted]
  · intro other second same
    rw [whole, respond_of_parse parsed reads, second.answerLines_eq (same ▸ decoded)]

/-- A line feed in the middle of a character spoils the line that it ends. What is printed about the
two lines in front of it stays. -/
theorem respond_cutShort_character :
    let input := encode "true\n(\n".toList ++ [195, 10, 169]
    let options : Options := ⟨[.lenient], none⟩
    parse (flagArguments [.lenient]) = .ok (.run options) ∧ FirstInvalid input 2 ∧
      CutShort (flagArguments [.lenient]) options input 2 ∧
      (respond (flagArguments [.lenient]) input).out = "true\n".toList := by
  intro input options
  have parsed : parse (flagArguments [.lenient]) = .ok (.run options) := by decide
  have first : FirstInvalid input 2 := ⟨⟨[195, 10], by decide, by decide⟩, by decide⟩
  have cut := respond_cutShort parsed rfl first
  exact ⟨parsed, first, cut, by rw [cut.out]; decide⟩

end Condition.CommandLine
