namespace Condition

def spaces (width : Nat) : String := String.ofList (List.replicate width ' ')

/-- A text set to the right of a column. -/
def padLeft (width : Nat) (text : String) : String := spaces (width - text.length) ++ text

/-- A text set to the left of a column. -/
def padRight (width : Nat) (text : String) : String := text ++ spaces (width - text.length)

end Condition
