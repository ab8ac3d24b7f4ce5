import Condition.Evaluation

/-! The postfix order of some tokens: values as they come, and each operator
behind the operands that it is applied to. Running that order takes one stack
and knows no groups. -/

namespace Condition.Postfix

inductive Item where
  | value (value : Value)
  | operator (operator : Operator) (span : Span)
deriving DecidableEq, Repr

/-- The postfix order. Operators wait, the latest first, for the end of the group they stand in,
and so do those of the groups around it. -/
def order : List Item → List (List Item) → List Lexeme → List Item
  | waiting, around, [] => waiting ++ around.flatten
  | waiting, around, lexeme :: rest =>
    match lexeme.token with
    | .openParen => order [] (waiting :: around) rest
    | .closeParen =>
      match around with
      | [] => waiting ++ order [] [] rest
      | outer :: others => waiting ++ order outer others rest
    | .operator operator => order (.operator operator lexeme.span :: waiting) around rest
    | .boolean flag => .value (.literal flag) :: order waiting around rest
    | .integer digits => .value (.digits digits) :: order waiting around rest

def ofLexemes (lexemes : List Lexeme) : List Item := order [] [] lexemes

def step (operands : Operands) : Item → Except Halt Operands
  | .value value => .ok (operands.push value)
  | .operator operator span => operands.apply operator span

def run (operands : Operands) (items : List Item) : Except Halt Operands :=
  items.foldlM step operands

theorem run_append (operands : Operands) (front back : List Item) :
    run operands (front ++ back) = (run operands front).bind fun next => run next back :=
  List.foldlM_append

/-- An evaluation that puts all tokens into postfix order before anything is applied. -/
def evaluation (strictness : Strictness) (text : List Char) : Evaluation :=
  match run {} (ofLexemes (Scan.ofText text).lexemes) with
  | .ok operands => ⟨operands.applications.reverse,
      Evaluation.conclude strictness (byteSize text) operands.values⟩
  | .error halt => ⟨halt.applications.reverse, .error halt.fault⟩

end Condition.Postfix
