import Condition.Proofs.TokenSequence

/-! Counting values is enough to tell what is wrong with how tokens follow each
other. What the values are can only make an operator refuse before that is found. -/

namespace Condition

namespace Counting

/-- The number of values of a counting that goes on from some state. -/
def resume (scan : Scan) (unread : List Lexeme) (counter : Counter) : Except Tally.Halt Tally := do
  let last ← counter.feed unread
  match scan.unknown with
  | some span => last.tally.halt (.unknownWord span)
  | none => Counter.settle last.waiting last.tally

theorem tally_eq_resume (scan : Scan) : tally scan = resume scan scan.lexemes {} := rfl

theorem resume_nil (complete : scan.unknown = none) (counter : Counter) :
    resume scan [] counter = Counter.settle counter.waiting counter.tally := by
  simp only [resume, complete]
  rfl

theorem resume_unknown (word : scan.unknown = some span) (counter : Counter) :
    resume scan [] counter = counter.tally.halt (.unknownWord span) := by
  simp only [resume, word]
  rfl

theorem resume_cons (scan : Scan) (lexeme : Lexeme) (unread : List Lexeme) (counter : Counter) :
    resume scan (lexeme :: unread) counter = (counter.step lexeme).bind (resume scan unread) := by
  simp only [resume, Counter.feed, List.foldlM_cons]
  cases counter.step lexeme <;> rfl

theorem resume_closeParen (closing : lexeme.token = .closeParen) (counter : Counter) :
    resume scan (lexeme :: unread) counter =
      (Counter.close lexeme.span counter.waiting counter.tally).bind (resume scan unread) := by
  rw [resume_cons, Counter.step, closing]

theorem resume_operator (due : scan.Due unread) (operator : Operator) (span : Span)
    (waiting : List Waiting) (tally : Tally) :
    resume scan unread ⟨.operator operator span :: waiting, tally⟩ =
      (tally.apply span).bind fun next => resume scan unread ⟨waiting, next⟩ := by
  cases unread with
  | nil => simp only [resume_nil due, Counter.settle]
  | cons lexeme rest =>
    have closing : lexeme.token = .closeParen := due
    simp only [resume_closeParen closing, Counter.close]
    cases tally.apply span <;> rfl

/-- The operators that a counting has applied. -/
def log : Except Tally.Halt Tally → List Span
  | .ok tally => tally.applied
  | .error halt => halt.applied

private theorem suffix_log_of_due (due : scan.Due unread)
    (nothing : ∀ tally, tally.applied <:+ log (resume scan unread ⟨[], tally⟩))
    (group : ∀ span rest tally,
      tally.applied <:+ log (resume scan unread ⟨.group span :: rest, tally⟩))
    (waiting : List Waiting) (tally : Tally) :
    tally.applied <:+ log (resume scan unread ⟨waiting, tally⟩) := by
  induction waiting generalizing tally with
  | nil => exact nothing tally
  | cons latest rest ih =>
    cases latest with
    | group span => exact group span rest tally
    | operator operator span =>
      rw [resume_operator due, Tally.apply]
      split
      · exact List.suffix_refl _
      · exact (List.suffix_cons span _).trans (ih ⟨tally.size - 2 + 1, span :: tally.applied⟩)

theorem suffix_log_resume (scan : Scan) (unread : List Lexeme) (counter : Counter) :
    counter.tally.applied <:+ log (resume scan unread counter) := by
  induction unread generalizing counter with
  | nil =>
    cases word : scan.unknown with
    | some span =>
      rw [resume_unknown word]
      exact List.suffix_refl _
    | none =>
      refine suffix_log_of_due (show scan.Due [] from word) (fun tally => ?_) (fun span rest tally => ?_)
        counter.waiting counter.tally
      · rw [resume_nil word]
        exact List.suffix_refl _
      · rw [resume_nil word]
        exact List.suffix_refl _
  | cons lexeme rest ih =>
    by_cases closing : lexeme.token = .closeParen
    · refine suffix_log_of_due (show scan.Due (lexeme :: rest) from closing) (fun tally => ?_)
        (fun span others tally => ?_) counter.waiting counter.tally
      · rw [resume_closeParen closing]
        exact List.suffix_refl _
      · rw [resume_closeParen closing]
        exact ih ⟨others, tally⟩
    · rw [resume_cons, Counter.step_of_inner closing]
      exact ih ⟨lexeme.waiting?.toList ++ counter.waiting,
        ⟨counter.tally.size + lexeme.token.value?.toList.length, counter.tally.applied⟩⟩

end Counting

/-- The counter that knows of a machine what waits and how many values there are. -/
def Machine.counter (machine : Machine) (applied : List Span) : Counter :=
  ⟨machine.waiting, ⟨machine.operands.values.length, applied⟩⟩

theorem Counter.step_counter (inner : lexeme.token ≠ .closeParen) (applied : List Span)
    (stepped : Machine.step machine lexeme = .ok next) :
    (machine.counter applied).step lexeme = .ok (next.counter applied) := by
  rw [Machine.step_of_inner inner] at stepped
  cases stepped
  rw [step_of_inner inner, Machine.counter, Machine.counter, List.length_append, Nat.add_comm]

theorem Tally.apply_of_two {operands : Operands} (values : operands.values = right :: left :: rest)
    (applied : List Span) (span : Span) :
    Tally.apply ⟨operands.values.length, applied⟩ span = .ok ⟨rest.length + 1, span :: applied⟩ := by
  have enough : ¬ operands.values.length < 2 := by simp [values]
  rw [Tally.apply, if_neg enough, values]
  rfl

/-- Every state that an evaluation comes to is one that its counting comes to. -/
theorem Reached.counted (reached : Reached scan unread machine) :
    ∃ applied, Counting.tally scan = Counting.resume scan unread (machine.counter applied) := by
  induction reached with
  | start => exact ⟨[], Counting.tally_eq_resume scan⟩
  | read _ inner stepped ih =>
    obtain ⟨applied, same⟩ := ih
    refine ⟨applied, ?_⟩
    rw [same, Counting.resume_cons, Counter.step_counter inner applied stepped]
    rfl
  | close _ closing ih =>
    obtain ⟨applied, same⟩ := ih
    refine ⟨applied, ?_⟩
    rw [same, Counting.resume_closeParen closing]
    rfl
  | @apply unread operator span waiting operands next _ due found ih =>
    obtain ⟨applied, same⟩ := ih
    refine ⟨span :: applied, ?_⟩
    obtain ⟨right, left, rest, outcome, values, -, rfl⟩ := Operands.apply_eq_ok_iff.mp found
    rw [same, Machine.counter, Counting.resume_operator due, Tally.apply_of_two values]
    rfl

/-- What counting comes to for the sake of an evaluation. A refusal is the evaluation's alone, but
the operator that refuses is applied by both. -/
inductive Counted : Except Halt Operands → Except Tally.Halt Tally → Prop where
  | ended (size : operands.values.length = tally.size) : Counted (.ok operands) (.ok tally)
  | stopped (structural : fault.isStructural = true) :
      Counted (.error ⟨fault, applications⟩) (.error ⟨fault, applied⟩)
  | refused (member : span ∈ Counting.log counted) :
      Counted (.error ⟨.invalidOperand cause span, applications⟩) counted

theorem Stops.counted (stops : Stops scan unread machine fault) (applied : List Span)
    (applications : List Application) :
    Counted (.error ⟨fault, applications⟩)
      (Counting.resume scan unread (machine.counter applied)) := by
  cases stops with
  | unmatched closing =>
    rw [Counting.resume_closeParen closing]
    exact .stopped rfl
  | unknown word =>
    rw [Counting.resume_unknown word]
    exact .stopped rfl
  | unclosed ended =>
    rw [Counting.resume_nil ended]
    exact .stopped rfl
  | @refused _ operator span waiting operands halt due failed =>
    rw [Machine.counter, Counting.resume_operator due]
    rcases Operands.apply_eq_error_iff.mp failed with
      ⟨short, rfl⟩ | ⟨right, left, rest, cause, values, -, rfl⟩
    · rw [Tally.apply, if_pos short]
      exact .stopped rfl
    · rw [Tally.apply_of_two values]
      have kept := Counting.suffix_log_resume scan unread
        ⟨waiting, ⟨rest.length + 1, span :: applied⟩⟩
      exact .refused (kept.subset List.mem_cons_self)

theorem Evaluation.operands_counted (scan : Scan) : Counted (operands scan) (Counting.tally scan) := by
  have ends := operands_ends scan
  generalize operands scan = result at ends
  cases result with
  | ok operands =>
    obtain ⟨complete, reached⟩ := ends
    obtain ⟨applied, same⟩ := reached.counted
    rw [same, Counting.resume_nil complete]
    exact .ended rfl
  | error halt =>
    obtain ⟨unread, machine, reached, stops, -⟩ := ends
    obtain ⟨applied, same⟩ := reached.counted
    rw [same]
    exact stops.counted applied halt.applications

/-- Whether the values at the end are too few or too many can be told from their number. -/
theorem Evaluation.conclude_cases (strictness : Strictness) (size : Nat) (values : List Value) :
    (∃ fault, Counting.conclude strictness size values.length = some fault ∧
      fault.isStructural = true ∧ conclude strictness size values = .error fault) ∨
    (Counting.conclude strictness size values.length = none ∧
      ∃ value : Value, conclude strictness size values = value.toBool.mapError .notBoolean) := by
  cases values with
  | nil => exact .inl ⟨_, rfl, rfl, rfl⟩
  | cons value rest =>
    have emptiness : rest ≠ [] ↔ rest.length ≠ 0 := by simp
    by_cases trailing : strictness = .strict ∧ rest.length ≠ 0
    · refine .inl ⟨_, if_pos trailing, rfl, ?_⟩
      simp only [conclude, emptiness, if_pos trailing]
    · refine .inr ⟨if_neg trailing, value, ?_⟩
      simp only [conclude, emptiness, if_neg trailing]

/-- The result of a text is found out by counting, or an operator refuses that is counted. -/
structure Foretells (text : List Char) (counting : Counting) (result : Except Failure Bool) :
    Prop where
  found : ∀ fault, fault.isStructural = true → result = .error ⟨text, fault⟩ →
    counting.fault? = some fault
  stopped : ∀ fault, counting.fault? = some fault → result = .error ⟨text, fault⟩ ∨
    ∃ cause, ∃ span ∈ counting.applied, result = .error ⟨text, .invalidOperand cause span⟩
  finished : counting.fault? = none → (∃ flag, result = .ok flag) ∨
    (∃ cause, result = .error ⟨text, .notBoolean cause⟩) ∨
    ∃ cause, ∃ span ∈ counting.applied, result = .error ⟨text, .invalidOperand cause span⟩

namespace Foretells

variable {counting : Counting} {text : List Char}

theorem of_truth (finished : counting.fault? = none) (flag : Bool) :
    Foretells text counting (.ok flag) where
  found _ _ failed := by cases failed
  stopped fault stopped := by
    rw [finished] at stopped
    cases stopped
  finished _ := .inl ⟨flag, rfl⟩

theorem of_notBoolean (finished : counting.fault? = none) (cause : OperandFault) :
    Foretells text counting (.error ⟨text, .notBoolean cause⟩) where
  found fault structural failed := by
    cases failed
    cases structural
  stopped fault stopped := by
    rw [finished] at stopped
    cases stopped
  finished _ := .inr (.inl ⟨cause, rfl⟩)

theorem of_structural (stopped : counting.fault? = some fault) :
    Foretells text counting (.error ⟨text, fault⟩) where
  found other _ failed := by
    cases failed
    exact stopped
  stopped other same := by
    obtain rfl := Option.some.inj (stopped.symm.trans same)
    exact .inl rfl
  finished finished := by
    rw [stopped] at finished
    cases finished

theorem of_refusal (member : span ∈ counting.applied) (cause : OperandFault) :
    Foretells text counting (.error ⟨text, .invalidOperand cause span⟩) where
  found fault structural failed := by
    cases failed
    cases structural
  stopped _ _ := .inr ⟨cause, span, member, rfl⟩
  finished _ := .inr (.inr ⟨cause, span, member, rfl⟩)

theorem of_conclude (strictness : Strictness) (values : List Value)
    (ended : counting.fault? = Counting.conclude strictness (byteSize text) values.length) :
    Foretells text counting
      ((Evaluation.conclude strictness (byteSize text) values).mapError (Failure.mk text)) := by
  rcases Evaluation.conclude_cases strictness (byteSize text) values with
    ⟨fault, counted, -, concluded⟩ | ⟨counted, value, concluded⟩
  · rw [concluded]
    exact of_structural (ended.trans counted)
  · rw [concluded]
    cases value.toBool with
    | ok flag => exact of_truth (ended.trans counted) flag
    | error cause => exact of_notBoolean (ended.trans counted) cause

end Foretells

/-- Counting foretells the result of every text. -/
theorem Counting.foretells (strictness : Strictness) (text : List Char) :
    Foretells text (ofText strictness text) (evaluate strictness text) := by
  have counted := Evaluation.operands_counted (Scan.ofText text)
  have applied : (ofText strictness text).applied = (log (tally (Scan.ofText text))).reverse := by
    unfold ofText
    cases tally (Scan.ofText text) <;> rfl
  rw [evaluate, Evaluation.ofText]
  generalize result : Evaluation.operands (Scan.ofText text) = operands,
    count : tally (Scan.ofText text) = counting at counted
  cases counted with
  | ended size =>
    refine Foretells.of_conclude strictness _ ?_
    rw [ofText, count, size]
  | stopped structural =>
    refine Foretells.of_structural ?_
    rw [ofText, count]
  | refused member =>
    refine Foretells.of_refusal ?_ _
    rwa [applied, count, List.mem_reverse]

end Condition
