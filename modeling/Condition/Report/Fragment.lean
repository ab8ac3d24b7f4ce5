/-! Drawn text. A drawing is made of rows and a row of fragments, each in one
ink. Only the palette decides whether inks show. -/

namespace Condition

inductive Ink where
  /-- What is at fault. -/
  | mark
  | margin
  /-- The margin of rows that show no line of the text. -/
  | faintMargin
  | body
  | help
deriving DecidableEq, Repr

/-- The parameters of the escape sequence that selects an ink. -/
def Ink.code : Ink → String
  | mark => "31"
  | margin => "38;5;246"
  | faintMargin => "38;5;240"
  | body => "38;5;249"
  | help => "38;5;115"

inductive Palette where
  | plain
  | colored
deriving DecidableEq, Repr

structure Fragment where
  ink : Option Ink
  chars : List Char
deriving DecidableEq, Repr

abbrev Row := List Fragment

namespace Fragment

def bare (text : String) : Fragment := ⟨none, text.toList⟩

def inked (ink : Ink) (text : String) : Fragment := ⟨some ink, text.toList⟩

def space (width : Nat) : Fragment := ⟨none, List.replicate width ' '⟩

/-- A fragment as written: an ink is selected before its characters and dropped behind them. -/
def render (fragment : Fragment) : Palette → List Char
  | .plain => fragment.chars
  | .colored =>
    match fragment.ink with
    | none => fragment.chars
    | some ink =>
      '\x1b' :: '[' :: ink.code.toList ++ 'm' :: fragment.chars ++ ['\x1b', '[', '0', 'm']

end Fragment

/-- The rows of a drawing as written, each on a line of its own. -/
def renderRows (palette : Palette) (rows : List Row) : List Char :=
  rows.flatMap fun row => row.flatMap (fun fragment => fragment.render palette) ++ ['\n']

end Condition
