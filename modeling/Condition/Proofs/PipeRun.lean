import Condition.Proofs.InputLines

namespace Condition.CommandLine

def flagArguments (flags : List Flag) : List (List Char) := flags.map fun flag => flag.name.toList

/-- The arguments that raise some flags and hand over an expression, whatever it looks like. -/
def expressionArguments (flags : List Flag) (expression : List Char) : List (List Char) :=
  flagArguments flags ++ [['-', '-'], expression]

theorem parseFrom_flag (options : Options) (flag : Flag) (rest : List (List Char)) :
    parseFrom options (flag.name.toList :: rest) =
      (options.raise flag).bind fun raised => parseFrom raised rest := by
  cases flag <;> rfl

theorem parseFrom_flags (options : Options) (flags : List Flag) (rest : List (List Char))
    (distinct : (options.flags ++ flags).Nodup) :
    parseFrom options (flagArguments flags ++ rest) =
      parseFrom { options with flags := options.flags ++ flags } rest := by
  induction flags generalizing options with
  | nil =>
    rw [List.append_nil]
    rfl
  | cons flag others ih =>
    obtain ⟨-, -, apart⟩ := List.nodup_append.mp distinct
    have fresh : options.raise flag = .ok { options with flags := options.flags ++ [flag] } := by
      have absent : flag ∉ options.flags :=
        fun member => apart flag member flag List.mem_cons_self rfl
      rw [Options.raise, if_neg (by simpa using absent)]
    have moved := ih { options with flags := options.flags ++ [flag] } (by simpa using distinct)
    rw [List.append_assoc, List.singleton_append] at moved
    rw [← moved]
    exact (parseFrom_flag options flag _).trans (by rw [fresh]; rfl)

variable {flags : List Flag}

theorem respond_of_parse (parsed : parse arguments = .ok (.run options))
    (reads : options.expression = none) (input : List UInt8) :
    respond arguments input = answerLines options input := by
  simp only [respond, parsed, run, reads]

theorem respond_flags (distinct : flags.Nodup) (input : List UInt8) :
    respond (flagArguments flags) input = answerLines ⟨flags, none⟩ input := by
  have parsed : parse (flagArguments flags) = .ok (.run ⟨flags, none⟩) := by
    have raised := parseFrom_flags {} flags [] distinct
    rwa [List.append_nil] at raised
  exact respond_of_parse parsed rfl input

theorem respond_expression (distinct : flags.Nodup) (expression : List Char) (input : List UInt8) :
    respond (expressionArguments flags expression) input =
      summarize [answer ⟨flags, some expression⟩ expression] := by
  have parsed : parse (expressionArguments flags expression) =
      .ok (.run ⟨flags, some expression⟩) :=
    parseFrom_flags {} flags [['-', '-'], expression] distinct
  rw [respond, parsed]
  rfl

/-- The summary at the end of the errors, if something failed. -/
def closing (failures : Nat) : List Char :=
  if failures = 0 then [] else complaint s!"{failures} expression(s) failed to evaluate"

/-- An output that gathers those of single expressions. Their reports are what they print as errors,
but for the summaries. -/
structure Gathers (parts : List Output) (whole : Output) : Prop where
  statuses : ∀ part ∈ parts, part.status = 0 ∨ part.status = 1
  out : whole.out = parts.flatMap Output.out
  err : ∃ reports,
    List.Forall₂ (fun part report => part.err = report ++ closing part.status) parts reports ∧
      whole.err = reports.flatten ++ closing (parts.countP fun part => part.status = 1)
  status : whole.status = if parts.countP (fun part => part.status = 1) = 0 then 0 else 1

theorem summarize_eq (answers : List Answer) :
    summarize answers = ⟨answers.flatMap Answer.out,
      answers.flatMap Answer.err ++ closing (answers.countP Answer.failed),
      if answers.countP Answer.failed = 0 then 0 else 1⟩ := by
  simp only [summarize, closing, List.countP_eq_length_filter]
  split
  · rw [List.append_nil]
  · rfl

theorem summarize_singleton (answer : Answer) :
    summarize [answer] =
      ⟨answer.out, answer.err ++ closing answer.failed.toNat, answer.failed.toNat⟩ := by
  obtain ⟨out, err, failed⟩ := answer
  cases failed <;> simp [summarize_eq]

theorem status_summarize_singleton_iff (answer : Answer) :
    (summarize [answer]).status = 1 ↔ answer.failed = true := by
  rw [summarize_singleton]
  cases answer.failed <;> simp

theorem gathers_summarize (answers : List Answer) :
    Gathers (answers.map fun answer => summarize [answer]) (summarize answers) := by
  have failures : (answers.map fun answer => summarize [answer]).countP
      (fun part => part.status = 1) = answers.countP Answer.failed := by
    rw [List.countP_map]
    refine List.countP_congr fun answer _ => ?_
    simp [status_summarize_singleton_iff]
  constructor
  · intro part member
    obtain ⟨answer, -, rfl⟩ := List.mem_map.mp member
    rw [summarize_singleton]
    cases answer.failed with
    | false => exact .inl rfl
    | true => exact .inr rfl
  · rw [summarize_eq, List.flatMap_map]
    simp only [summarize_singleton]
  · refine ⟨answers.map Answer.err, ?_, ?_⟩
    · rw [List.forall₂_map_left_iff, List.forall₂_map_right_iff, List.forall₂_same]
      intro answer _
      rw [summarize_singleton]
    · rw [failures, summarize_eq, ← List.flatMap_def]
  · rw [failures, summarize_eq]

theorem respond_encode (distinct : flags.Nodup) (text : List Char) :
    respond (flagArguments flags) (encode text) =
      summarize ((expressionsOf text).map (answer ⟨flags, none⟩)) := by
  rw [respond_flags distinct, answerLines_encode]

/-- What a run over the lines of a text comes to. -/
structure RunsLines (flags : List Flag) (input : List UInt8) (text : List Char) : Prop where
  gathers : ∀ unused, Gathers
    ((expressionsOf text).map fun line => respond (expressionArguments flags line) unused)
    (respond (flagArguments flags) input)
  failures : ∀ line unused, (respond (expressionArguments flags line) unused).status = 1 ↔
    ∃ failure, evaluate (Options.strictness ⟨flags, none⟩) line = .error failure
  restyled : ∀ other restyled, decode? other = some restyled →
    Relation.EqvGen Restyled text restyled →
      respond (flagArguments flags) other = respond (flagArguments flags) input

theorem failed_answer_iff {options : Options} {expression : List Char} :
    (answer options expression).failed = true ↔
      ∃ failure, evaluate options.strictness expression = .error failure := by
  unfold answer
  cases evaluate options.strictness expression with
  | ok result => simp
  | error failure => simp

/-- A run over lines does what runs for the single lines do, and it does the same for texts that
only differ in style. -/
theorem runsLines (distinct : flags.Nodup) (decoded : decode? input = some text) :
    RunsLines flags input text where
  gathers unused := by
    obtain rfl := decode?_eq_some_iff.mp decoded
    have alone (line : List Char) : respond (expressionArguments flags line) unused =
        summarize [answer ⟨flags, none⟩ line] := respond_expression distinct line unused
    have gathered := gathers_summarize ((expressionsOf text).map (answer ⟨flags, none⟩))
    rw [List.map_map] at gathered
    simp only [alone, respond_encode distinct]
    exact gathered
  failures line unused := by
    rw [respond_expression distinct, status_summarize_singleton_iff]
    exact failed_answer_iff
  restyled other restyled found same := by
    obtain rfl := decode?_eq_some_iff.mp decoded
    obtain rfl := decode?_eq_some_iff.mp found
    rw [respond_encode distinct, respond_encode distinct, expressionsOf_of_eqvGen same]

/-- A text with two expressions, and the same without carriage returns, blank lines and a line feed
at the end. -/
theorem runsLines_restyled :
    let text := "true\r\n \n(\n".toList
    let restyled := "true\n(".toList
    decode? (encode text) = some text ∧ RunsLines [.lenient] (encode text) text ∧
      expressionsOf text = ["true".toList, "(".toList] ∧
      respond (flagArguments [.lenient]) (encode restyled) =
        respond (flagArguments [.lenient]) (encode text) ∧
      (respond (flagArguments [.lenient]) (encode text)).status = 1 := by
  intro text restyled
  have decoded : decode? (encode text) = some text := decode?_eq_some_iff.mpr rfl
  have distinct : [Flag.lenient].Nodup := by decide
  have runs := runsLines distinct decoded
  have returns : Restyled text "true\n \n(\n".toList := .ending "true".toList " \n(\n".toList 1 0
  have blank : IsBlank [' '] := by decide
  have blanks : Restyled "true\n \n(\n".toList "true\n(\n".toList :=
    .blank "true\n".toList blank "(\n".toList (.inr ⟨"true".toList, rfl⟩)
  have feed : Restyled "true\n(\n".toList restyled := .final restyled 0
  have same : Relation.EqvGen Restyled text restyled :=
    .trans _ _ _ (.rel _ _ returns) (.trans _ _ _ (.rel _ _ blanks) (.rel _ _ feed))
  refine ⟨decoded, runs, by decide, runs.restyled _ restyled (decode?_eq_some_iff.mpr rfl) same, ?_⟩
  rw [runs.gathers [] |>.status]
  decide

end Condition.CommandLine
