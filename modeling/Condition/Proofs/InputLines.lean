import Condition.CommandLine.Session
import Mathlib.Data.List.DropRight
import Mathlib.Data.List.SplitBy
import Mathlib.Logic.Relation

/-! The lines of an input. They are found among bytes, and they hold the same
expressions as the lines that are found among characters: no other character has the
byte of a line feed in its encoding. -/

namespace Condition.CommandLine

def encode (text : List Char) : List UInt8 := text.flatMap String.utf8EncodeChar

theorem encode_append (front back : List Char) :
    encode (front ++ back) = encode front ++ encode back :=
  List.flatMap_append

theorem fromUTF8?_eq_some_iff {bytes : ByteArray} {text : String} :
    String.fromUTF8? bytes = some text ↔ bytes = text.toByteArray := by
  constructor
  · intro found
    unfold String.fromUTF8? at found
    split at found
    · cases found
      rfl
    · cases found
  · rintro rfl
    exact dif_pos text.isValidUTF8

theorem decode?_eq_some_iff : decode? bytes = some text ↔ bytes = encode text := by
  have encoded : (String.ofList text).toByteArray = (encode text).toByteArray := rfl
  rw [← List.toByteArray_inj, ← encoded, ← fromUTF8?_eq_some_iff, decode?, Option.map_eq_some_iff]
  constructor
  · rintro ⟨whole, found, rfl⟩
    rwa [String.ofList_toList]
  · intro found
    exact ⟨_, found, String.toList_ofList⟩

theorem lineFeed_eq_ofNat_iff (number : Nat) : 10 = UInt8.ofNat number ↔ number % 256 = 10 := by
  rw [← UInt8.toNat_inj, UInt8.toNat_ofNat', eq_comm]
  rfl

/-- Only the encoding of a line feed has the byte of one. -/
theorem lineFeed_mem_utf8EncodeChar {char : Char} :
    10 ∈ String.utf8EncodeChar char ↔ char = '\n' := by
  constructor
  · intro member
    have code : char.val.toNat = ('\n' : Char).val.toNat := by
      have feed : ('\n' : Char).val.toNat = 10 := rfl
      simp only [String.utf8EncodeChar] at member
      -- Every byte of a longer encoding is at least 128.
      split_ifs at member <;>
        simp only [List.mem_cons, List.not_mem_nil, or_false, lineFeed_eq_ofNat_iff] at member <;>
        omega
    exact Char.ext (UInt32.toNat_inj.mp code)
  · rintro rfl
    decide

theorem lineFeed_mem_encode {text : List Char} : 10 ∈ encode text ↔ '\n' ∈ text := by
  simp only [encode, List.mem_flatMap, lineFeed_mem_utf8EncodeChar, exists_eq_right]

/-- A text is a line without a line feed, or one with it in front of another text. -/
theorem lines_induction {motive : List Char → Prop} (last : ∀ line, '\n' ∉ line → motive line)
    (next : ∀ line rest, '\n' ∉ line → motive rest → motive (line ++ '\n' :: rest))
    (text : List Char) : motive text := by
  induction size : text.length using Nat.strong_induction_on generalizing text with
  | _ length ih =>
    by_cases feed : '\n' ∈ text
    · obtain ⟨line, rest, rfl, free⟩ := List.eq_append_cons_of_mem feed
      have shorter : rest.length < length := by
        simp only [← size, List.length_append, List.length_cons]
        omega
      exact next line rest free (ih rest.length shorter rest rfl)
    · exact last text feed

section

variable {α : Type} [BEq α] [LawfulBEq α] {mark : α} {line : List α}

theorem pairwise_of_notMem (free : mark ∉ line) :
    line.Pairwise fun left _ => (left != mark) = true :=
  List.pairwise_of_forall_mem_list fun _ member _ _ =>
    bne_iff_ne.mpr (ne_of_mem_of_not_mem member free)

theorem splitBy_unmarked (free : mark ∉ line) (nonempty : line ≠ []) :
    line.splitBy (fun left _ => left != mark) = [line] :=
  List.splitBy_of_isChain nonempty (pairwise_of_notMem free).isChain

theorem splitBy_mark (free : mark ∉ line) (rest : List α) :
    (line ++ mark :: rest).splitBy (fun left _ => left != mark) =
      (line ++ [mark]) :: rest.splitBy fun left _ => left != mark := by
  have chain : (line ++ [mark]).Pairwise fun left _ => (left != mark) = true :=
    List.pairwise_append.mpr ⟨pairwise_of_notMem free, List.pairwise_singleton _ _,
      fun _ member _ _ => bne_iff_ne.mpr (ne_of_mem_of_not_mem member free)⟩
  have ends : ∀ last ∈ (line ++ [mark]).getLast?, ∀ first ∈ rest.head?, (last != mark) = false := by
    simp
  rw [List.append_cons, List.splitBy_append ends, List.splitBy_of_isChain (by simp) chain.isChain,
    List.singleton_append]

end

def textLines (text : List Char) : List (List Char) := text.splitBy fun left _ => left != '\n'

theorem textLines_last (free : '\n' ∉ line) (nonempty : line ≠ []) : textLines line = [line] :=
  splitBy_unmarked free nonempty

theorem textLines_line (free : '\n' ∉ line) (rest : List Char) :
    textLines (line ++ '\n' :: rest) = (line ++ ['\n']) :: textLines rest :=
  splitBy_mark free rest

/-- An encoded text has the lines of the text, encoded. -/
theorem byteLines_encode (text : List Char) :
    byteLines (encode text) = (textLines text).map encode := by
  induction text using lines_induction with
  | last line free =>
    have bytes : 10 ∉ encode line := mt lineFeed_mem_encode.mp free
    cases line with
    | nil => rfl
    | cons char rest =>
      have nonempty : encode (char :: rest) ≠ [] :=
        List.append_ne_nil_of_left_ne_nil String.utf8EncodeChar_ne_nil _
      rw [byteLines, splitBy_unmarked bytes nonempty, textLines_last free (by simp)]
      rfl
  | next line rest free ih =>
    have bytes : 10 ∉ encode line := mt lineFeed_mem_encode.mp free
    have feed : encode ('\n' :: rest) = 10 :: encode rest := rfl
    rw [encode_append, feed, byteLines, splitBy_mark bytes, textLines_line free, List.map_cons,
      encode_append]
    exact congrArg _ ih

/-- The expressions in a text: its lines without the carriage returns at their ends, unless they are
blank. -/
def expressionsOf (text : List Char) : List (List Char) :=
  ((text.splitOn '\n').map (List.rdropWhile (· == '\r'))).filter fun line => !decide (IsBlank line)

theorem expressionsOf_append (front back : List Char) :
    expressionsOf (front ++ '\n' :: back) = expressionsOf front ++ expressionsOf back := by
  simp only [expressionsOf, List.splitOn_append_cons_self, List.map_append, List.filter_append]

theorem expressionsOf_line (free : '\n' ∉ line) :
    expressionsOf line =
      [line.rdropWhile (· == '\r')].filter fun line => !decide (IsBlank line) := by
  rw [expressionsOf, List.splitOn_eq_singleton free, List.map_singleton]

theorem lineContent_lineFeed (line : List Char) :
    lineContent (line ++ ['\n']) = line.rdropWhile (· == '\r') := by
  simp [lineContent, List.rdropWhile]

theorem lineContent_last (free : '\n' ∉ line) :
    lineContent line = line.rdropWhile (· == '\r') := by
  unfold lineContent List.rdropWhile
  split
  · rename_i rest same
    have member : '\n' ∈ line.reverse := by simp [same]
    exact absurd (List.mem_reverse.mp member) free
  · rfl

theorem expressions_textLines (text : List Char) :
    expressions (textLines text) = expressionsOf text := by
  induction text using lines_induction with
  | last line free =>
    cases line with
    | nil => rfl
    | cons char rest =>
      rw [textLines_last free (by simp), expressionsOf_line free, expressions, List.map_singleton,
        lineContent_last free]
  | next line rest free ih =>
    rw [textLines_line free, expressionsOf_append, ← ih, expressionsOf_line free, expressions,
      List.map_cons, lineContent_lineFeed, expressions, ← List.filter_append, List.singleton_append]

theorem map_decode?_encode (lines : List (List Char)) :
    (lines.map encode).map decode? = lines.map some := by
  rw [List.map_map]
  exact List.map_congr_left fun line _ => decode?_eq_some_iff.mpr rfl

/-- The lines that are texts are read up to the first one that is none. -/
theorem filterMap_takeWhile_some (lines : List α) (stops : rest.takeWhile Option.isSome = []) :
    ((lines.map some ++ rest).takeWhile Option.isSome).filterMap id = lines := by
  have all : ∀ line ∈ lines.map some, line.isSome = true := by simp
  rw [List.takeWhile_append_of_pos all, stops, List.append_nil, List.filterMap_map]
  exact List.filterMap_some

theorem answerLines_encode (options : Options) (text : List Char) :
    answerLines options (encode text) =
      summarize ((expressionsOf text).map (answer options)) := by
  have decoded : (byteLines (encode text)).map decode? = (textLines text).map some := by
    rw [byteLines_encode, map_decode?_encode]
  have whole : ((textLines text).map some).all Option.isSome = true := by simp
  have readable := filterMap_takeWhile_some (textLines text) List.takeWhile_nil
  rw [List.append_nil] at readable
  simp only [answerLines, decoded, readable, if_pos whole, expressions_textLines]

/-- Texts whose lines differ in nothing but how they end and in blank ones among them. -/
inductive Restyled : List Char → List Char → Prop where
  | ending (front back : List Char) (count other : Nat) :
      Restyled (front ++ List.replicate count '\r' ++ '\n' :: back)
        (front ++ List.replicate other '\r' ++ '\n' :: back)
  | final (text : List Char) (count : Nat) :
      Restyled (text ++ List.replicate count '\r' ++ ['\n']) text
  | blank (front : List Char) (blank : IsBlank line) (back : List Char)
      (starts : front = [] ∨ ∃ earlier, front = earlier ++ ['\n']) :
      Restyled (front ++ line ++ '\n' :: back) (front ++ back)
  | blankLast (front : List Char) (blank : IsBlank line)
      (starts : front = [] ∨ ∃ earlier, front = earlier ++ ['\n']) :
      Restyled (front ++ line) front

theorem expressionsOf_returns (text : List Char) (count : Nat) :
    expressionsOf (text ++ List.replicate count '\r') = expressionsOf text := by
  induction text using lines_induction with
  | last line free =>
    have same : (line ++ List.replicate count '\r').rdropWhile (· == '\r') =
        line.rdropWhile (· == '\r') := by
      simp [List.rdropWhile]
    have still : '\n' ∉ line ++ List.replicate count '\r' := by simp [free]
    rw [expressionsOf_line still, expressionsOf_line free, same]
  | next line rest free ih =>
    rw [List.append_assoc, List.cons_append, expressionsOf_append, expressionsOf_append, ih]

theorem expressionsOf_blank (blank : IsBlank text) : expressionsOf text = [] := by
  have single (line : List Char) (free : '\n' ∉ line) (blank : IsBlank line) :
      expressionsOf line = [] := by
    have still : IsBlank (line.rdropWhile (· == '\r')) :=
      fun char member => blank char ((List.rdropWhile_prefix _ _).subset member)
    rw [expressionsOf_line free]
    simp [still]
  induction text using lines_induction with
  | last line free => exact single line free blank
  | next line rest free ih =>
    obtain ⟨first, others⟩ := List.forall_mem_append.mp blank
    rw [expressionsOf_append, single line free first, ih (List.forall_mem_cons.mp others).2]
    rfl

theorem Restyled.expressionsOf_eq (restyled : Restyled text other) :
    expressionsOf text = expressionsOf other := by
  have nothing : expressionsOf [] = [] := rfl
  cases restyled with
  | ending front back count others =>
    rw [expressionsOf_append, expressionsOf_append, expressionsOf_returns, expressionsOf_returns]
  | final text count =>
    rw [expressionsOf_append, expressionsOf_returns, nothing, List.append_nil]
  | @blank line front blank back starts =>
    rcases starts with rfl | ⟨earlier, rfl⟩
    · rw [List.nil_append, List.nil_append, expressionsOf_append, expressionsOf_blank blank,
        List.nil_append]
    · simp only [List.append_assoc, List.cons_append, expressionsOf_append,
        expressionsOf_blank blank, List.nil_append]
  | @blankLast line front blank starts =>
    rcases starts with rfl | ⟨earlier, rfl⟩
    · rw [List.nil_append, expressionsOf_blank blank, nothing]
    · simp only [List.append_assoc, List.singleton_append, expressionsOf_append,
        expressionsOf_blank blank, nothing]

theorem expressionsOf_of_eqvGen (same : Relation.EqvGen Restyled text other) :
    expressionsOf text = expressionsOf other := by
  induction same with
  | rel _ _ restyled => exact restyled.expressionsOf_eq
  | refl _ => rfl
  | symm _ _ _ ih => exact ih.symm
  | trans _ _ _ _ _ first second => exact first.trans second

end Condition.CommandLine
