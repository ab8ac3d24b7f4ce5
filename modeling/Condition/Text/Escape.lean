/-! Escape sequences steer a terminal: they color text or move the cursor, and
are not seen themselves. A text without them is what a reader sees. -/

namespace Condition

/-- How far into an escape sequence a text is. -/
inductive EscapeState where
  /-- Outside of all sequences. -/
  | ground
  /-- Behind the escape character. -/
  | escape
  /-- Where only the final character of a short sequence is missing. -/
  | final
  /-- In a control sequence, such as one that sets a color. -/
  | control
  /-- At the head of a device control string. -/
  | device
  /-- Behind a parameter of a device control string. -/
  | deviceParameter
  /-- Behind a qualifier of a device control string. -/
  | deviceQualifier
  /-- In a string for the terminal, up to a string terminator. -/
  | string
  /-- In a command for the system around the terminal, up to a bell. -/
  | command
deriving DecidableEq, Repr

/-- The control characters that lay out text: tab, line feed, form feed and carriage return. -/
def layoutControls : List Char := ['\t', '\n', '\x0C', '\r']

namespace EscapeState

/-- A text is laid out everywhere but in a string or a command. Other characters are shown outside
of sequences, unless they are control characters. -/
def shows (state : EscapeState) (char : Char) : Bool :=
  match state with
  | ground => layoutControls.contains char || (decide (' ' ≤ char) && char != '\x7F')
  | escape | final | control => layoutControls.contains char
  | _ => false

/-- The state behind the character that follows an escape character. -/
def afterEscape (char : Char) : EscapeState :=
  if ' ' ≤ char ∧ char ≤ '/' then final
  else if char = '[' then control
  else if char = ']' then command
  else if char = 'P' then device
  else if char = 'X' ∨ char = '^' ∨ char = '_' then string
  else if '0' ≤ char ∧ char ≤ '~' then ground
  else escape

/-- The state behind a character at the head of a device control string. The marks from `<` to `?`
are good for its first place only. -/
def afterDevice (state : EscapeState) (char : Char) : EscapeState :=
  if ' ' ≤ char ∧ char ≤ '/' then deviceQualifier
  else if char.isDigit ∨ char = ';' then deviceParameter
  else if state = device ∧ '<' ≤ char ∧ char ≤ '?' then deviceParameter
  else if '0' ≤ char ∧ char ≤ '~' then string
  else state

/-- The state behind a character. The escape character begins a sequence anywhere, and a cancel or
a substitute character gives one up, as does any that is shown. The byte 9C terminates a string,
also as a part of a longer character in UTF-8. -/
def next (state : EscapeState) (char : Char) : EscapeState :=
  if char = '\x1B' then escape
  else if char = '\x18' ∨ char = '\x1A' then ground
  else if state.shows char then ground
  else
    match state with
    | ground => ground
    | escape => afterEscape char
    | final => if '0' ≤ char ∧ char ≤ '~' then ground else final
    | control => if '@' ≤ char ∧ char ≤ '~' then ground else control
    | device | deviceParameter => state.afterDevice char
    | deviceQualifier => if '0' ≤ char ∧ char ≤ '~' then string else deviceQualifier
    | string => if (String.utf8EncodeChar char).contains 0x9C then ground else string
    | command => if char = '\x07' then ground else command

def visible : EscapeState → List Char → List Char
  | _, [] => []
  | state, char :: rest =>
    let behind := visible (state.next char) rest
    if state.shows char then char :: behind else behind

end EscapeState

/-- A text without escape sequences and without control characters other than those that lay it
out. -/
def withoutEscapes (text : List Char) : List Char := EscapeState.ground.visible text

end Condition
