import Condition.CommandLine.Arguments
import Condition.Report
import Condition.Text.Pad

namespace Condition.CommandLine

/-- What is printed about one expression, and whether its evaluation failed. -/
structure Answer where
  out : List Char
  err : List Char
  failed : Bool
deriving DecidableEq, Repr

/-- All that is printed, and the exit status. -/
structure Output where
  out : List Char := []
  err : List Char := []
  status : Nat := 0
deriving DecidableEq, Repr

def unlines (lines : List String) : List Char :=
  lines.flatMap fun line => line.toList ++ ['\n']

def tokenLine (lexeme : Lexeme) : String :=
  let start := padLeft 3 (toString lexeme.span.start)
  let stop := padRight 3 (toString lexeme.span.stop)
  let shown := lexeme.token.display
  s!"{start}..{stop} {shown}"

/-- The tokens of an expression up to its first unknown word. -/
def tokenListing (expression : List Char) : List Char :=
  unlines (["=== Tokens ==="] ++ (Scan.ofText expression).lexemes.map tokenLine ++ [""])

def answer (options : Options) (expression : List Char) : Answer :=
  let listing := if options.debugTokens then tokenListing expression else []
  match evaluate options.strictness expression with
  | .ok result => ⟨listing ++ unlines [toString result], [], false⟩
  | .error failure => ⟨listing, failure.report .colored, true⟩

/-- How the program complains when it ends. -/
def complaint (message : String) : List Char :=
  unlines [s!"Error:   × {message}", ""]

/-- Answers in order. How many of them are failures is said at the end, if there are any. -/
def summarize (answers : List Answer) : Output :=
  let failures := (answers.filter Answer.failed).length
  let out := answers.flatMap Answer.out
  let err := answers.flatMap Answer.err
  if failures = 0 then ⟨out, err, 0⟩
  else ⟨out, err ++ complaint s!"{failures} expression(s) failed to evaluate", 1⟩

/-- Answers in order, cut short by an input that is no text. -/
def interrupted (answers : List Answer) : Output :=
  ⟨answers.flatMap Answer.out,
    answers.flatMap Answer.err ++ complaint "stream did not contain valid UTF-8", 1⟩

/-- The lines of an input in bytes, each with its line feed. -/
def byteLines (input : List UInt8) : List (List UInt8) :=
  input.splitBy fun left _ => left != 10

def decode? (bytes : List UInt8) : Option (List Char) :=
  (String.fromUTF8? bytes.toByteArray).map String.toList

/-- A line without the line feed at its end and the carriage returns before it. -/
def lineContent (line : List Char) : List Char :=
  let reversed :=
    match line.reverse with
    | '\n' :: rest => rest
    | all => all
  (reversed.dropWhile (· == '\r')).reverse

/-- The expressions on some lines. Blank lines hold none. -/
def expressions (lines : List (List Char)) : List (List Char) :=
  (lines.map lineContent).filter fun line => !decide (IsBlank line)

/-- Answers the lines of an input up to the first that is no text. -/
def answerLines (options : Options) (input : List UInt8) : Output :=
  let decoded := (byteLines input).map decode?
  let readable := (decoded.takeWhile Option.isSome).filterMap id
  let answers := (expressions readable).map (answer options)
  if decoded.all Option.isSome then summarize answers else interrupted answers

def run (options : Options) (input : List UInt8) : Output :=
  match options.expression with
  | some expression => summarize [answer options expression]
  | none => answerLines options input

def readsInput (arguments : List (List Char)) : Bool :=
  match parse arguments with
  | .ok (.run options) => options.expression.isNone
  | _ => false

/-- What the program prints for some arguments and a standard input. -/
def respond (arguments : List (List Char)) (input : List UInt8) : Output :=
  match parse arguments with
  | .error fault => ⟨[], unlines fault.lines, 2⟩
  | .ok .help => ⟨unlines helpLines, [], 0⟩
  | .ok (.run options) => run options input

end Condition.CommandLine
