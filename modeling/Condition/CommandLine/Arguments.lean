import Condition.Evaluation
import Condition.Text.Escape
import Condition.Text.Similarity

/-! The arguments of the command line. Flags may stand before and behind the
expression, up to a bare `--`, behind which nothing is a flag. -/

namespace Condition.CommandLine

inductive Flag where
  | lenient
  | debugTokens
deriving DecidableEq, Repr

def Flag.name : Flag → String
  | lenient => "--lenient"
  | debugTokens => "--debug-tokens"

/-- What has a long name: a flag, or the request for help. -/
inductive Switch where
  | flag (flag : Flag)
  | help
deriving DecidableEq, Repr

namespace Switch

def name : Switch → String
  | flag known => known.name
  | help => "--help"

def all : List Switch := [flag .lenient, flag .debugTokens, help]

def ofName? (name : List Char) : Option Switch :=
  all.find? fun switch => switch.name.toList == name

/-- The switch that a long name may be a misspelling of. The dashes in front do not count. -/
def similar? (name : List Char) : Option Switch :=
  closest? (fun switch => switch.name.toList.drop 2) (name.drop 2) all

end Switch

/-- The flags that are raised, in order, and the expression if it is an argument. -/
structure Options where
  flags : List Flag := []
  expression : Option (List Char) := none
deriving DecidableEq, Repr

/-- Why the arguments cannot be followed. -/
inductive ArgumentFault where
  /-- An expression behind another one. -/
  | surplus (argument : List Char)
  | unknownLetter (letter : Char)
  /-- A long name that is no switch, and the options in front of it. -/
  | unknownName (name : List Char) (before : Options)
  | repeated (flag : Flag)
  /-- A switch with a value, and the options in front of it. -/
  | valued (switch : Switch) (value : List Char) (before : Options)
deriving DecidableEq, Repr

inductive Request where
  | help
  | run (options : Options)
deriving DecidableEq, Repr

/-- What an argument in front of a bare `--` is. -/
inductive Argument where
  | switch (switch : Switch)
  /-- A switch with a value behind an equals sign. -/
  | valued (switch : Switch) (value : List Char)
  | unknownName (name : List Char)
  | unknownLetter (letter : Char)
  | expression (text : List Char)
deriving DecidableEq, Repr

namespace Argument

/-- A long name, and what stands behind its first equals sign. -/
def ofLong (argument : List Char) : Argument :=
  let name := argument.takeWhile (· != '=')
  match Switch.ofName? name, argument.dropWhile (· != '=') with
  | none, _ => unknownName name
  | some known, [] => switch known
  | some known, _ :: value => valued known value

/-- A single dash with more behind it begins one-letter switches, of which there is one. -/
def ofText (argument : List Char) : Argument :=
  match argument with
  | '-' :: '-' :: _ => ofLong argument
  | '-' :: 'h' :: _ => switch .help
  | '-' :: letter :: _ => unknownLetter letter
  | _ => expression argument

end Argument

namespace Options

def lenient (options : Options) : Bool := options.flags.contains .lenient

def debugTokens (options : Options) : Bool := options.flags.contains .debugTokens

def strictness (options : Options) : Strictness :=
  if options.lenient then .lenient else .standard

def raise (options : Options) (flag : Flag) : Except ArgumentFault Options :=
  if options.flags.contains flag then .error (.repeated flag)
  else .ok { options with flags := options.flags ++ [flag] }

/-- Takes the expression, of which there is at most one. -/
def take (options : Options) (text : List Char) : Except ArgumentFault Options :=
  match options.expression with
  | none => .ok { options with expression := some text }
  | some _ => .error (.surplus text)

end Options

/-- Follows arguments from left to right. The first one at fault decides, and so does a request
for help. -/
def parseFrom (options : Options) : List (List Char) → Except ArgumentFault Request
  | [] => .ok (.run options)
  | ['-', '-'] :: rest => (rest.foldlM Options.take options).map Request.run
  | argument :: rest =>
    match Argument.ofText argument with
    | .switch .help => .ok .help
    | .switch (.flag flag) => do
      let raised ← options.raise flag
      parseFrom raised rest
    | .valued switch value => .error (.valued switch value options)
    | .unknownName name => .error (.unknownName name options)
    | .unknownLetter letter => .error (.unknownLetter letter)
    | .expression text => do
      let taken ← options.take text
      parseFrom taken rest

def parse (arguments : List (List Char)) : Except ArgumentFault Request :=
  parseFrom {} arguments

def usageLine (arguments : List String) : String :=
  " ".intercalate ("Usage: boolex-cli" :: arguments)

def anyArguments : List String := ["[OPTIONS]", "[EXPRESSION]"]

def helpLines : List String :=
  ["Evaluate boolean condition expressions",
   "",
   usageLine anyArguments,
   "",
   "Arguments:",
   "  [EXPRESSION]  Expression to evaluate (if not provided, reads from stdin)",
   "",
   "Options:",
   "      --lenient       Keep only the last value when an expression leaves several behind",
   "      --debug-tokens  Print the scanned tokens (for debugging)",
   "  -h, --help          Print help"]

/-- An argument as complaints show it. -/
def shown (argument : List Char) : String := String.ofList (withoutEscapes argument)

namespace ArgumentFault

def message : ArgumentFault → String
  | surplus argument =>
    let found := shown argument
    s!"error: unexpected argument '{found}' found"
  | unknownLetter letter =>
    let found := shown ['-', letter]
    s!"error: unexpected argument '{found}' found"
  | unknownName name _ =>
    let found := shown name
    s!"error: unexpected argument '{found}' found"
  | repeated flag =>
    let found := flag.name
    s!"error: the argument '{found}' cannot be used multiple times"
  | valued switch value _ =>
    let found := shown value
    let name := switch.name
    s!"error: unexpected value '{found}' for '{name}' found; no more were expected"

/-- How to pass on an argument that only looks like a switch. -/
def escapeTip (argument : List Char) : String :=
  let found := shown argument
  s!"  tip: to pass '{found}' as a value, use '-- {found}'"

/-- What may have been meant. -/
def tip? : ArgumentFault → Option String
  | unknownLetter letter => some (escapeTip ['-', letter])
  | unknownName name _ =>
    match Switch.similar? name with
    | some switch =>
      let meant := switch.name
      some s!"  tip: a similar argument exists: '{meant}'"
    | none => some (escapeTip name)
  | _ => none

/-- The arguments of a call that goes on from some switches. -/
def continued (switches : List Switch) (before : Options) : List String :=
  let expression := if before.expression.isSome then "<EXPRESSION>" else "[EXPRESSION]"
  if switches.isEmpty && before.expression.isNone then anyArguments
  else switches.map Switch.name ++ [expression]

/-- The arguments of a call as it is shown after a fault. A misspelled switch is set right, and
what stands in front of it is kept. A switch with a value is shown alone, or as one of a choice if
flags stand in front of it. -/
def call : ArgumentFault → List String
  | unknownName name before =>
    let raised := before.flags.map Switch.flag
    let meant := (Switch.similar? name).toList.filter fun switch => !raised.contains switch
    continued (raised ++ meant) before
  | valued switch _ before =>
    let choice := "<--lenient|--debug-tokens|EXPRESSION>"
    if before.flags.isEmpty then [switch.name, "[EXPRESSION]"]
    else if switch = .help then [switch.name, choice]
    else [choice]
  | _ => anyArguments

def lines (fault : ArgumentFault) : List String :=
  let tip := fault.tip?.toList.flatMap fun line => [line, ""]
  [fault.message, ""] ++ tip ++
    [usageLine fault.call, "", "For more information, try '--help'."]

end ArgumentFault

end Condition.CommandLine
