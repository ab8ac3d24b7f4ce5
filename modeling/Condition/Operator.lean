namespace Condition

inductive Comparison where
  | lt | le | gt | ge | eq
deriving DecidableEq, Repr

namespace Comparison

def holds : Comparison → Int → Int → Bool
  | lt, left, right => decide (left < right)
  | le, left, right => decide (left ≤ right)
  | gt, left, right => decide (left > right)
  | ge, left, right => decide (left ≥ right)
  | eq, left, right => decide (left = right)

def display : Comparison → String
  | lt => "lt"
  | le => "lt="
  | gt => "gt"
  | ge => "gt="
  | eq => "="

end Comparison

inductive Connective where
  | and | or
deriving DecidableEq, Repr

namespace Connective

def combine : Connective → Bool → Bool → Bool
  | .and, left, right => left && right
  | .or, left, right => left || right

def display : Connective → String
  | .and => "and"
  | .or => "or"

end Connective

inductive Operator where
  | comparison (relation : Comparison)
  | connective (junction : Connective)
deriving DecidableEq, Repr

namespace Operator

/-- The canonical spelling. -/
def display : Operator → String
  | comparison relation => relation.display
  | connective junction => junction.display

def isComparison : Operator → Bool
  | comparison _ => true
  | connective _ => false

def spellings : List (String × Operator) :=
  [("lt", comparison .lt), ("<", comparison .lt),
   ("lt=", comparison .le), ("<=", comparison .le),
   ("gt", comparison .gt), (">", comparison .gt),
   ("gt=", comparison .ge), (">=", comparison .ge),
   ("=", comparison .eq), ("and", connective .and), ("or", connective .or)]

def ofSpelling? (word : List Char) : Option Operator :=
  (spellings.find? fun entry => entry.1.toList == word).map Prod.snd

theorem ofSpelling?_display (operator : Operator) :
    ofSpelling? operator.display.toList = some operator := by
  rcases operator with relation | junction
  · cases relation <;> decide
  · cases junction <;> decide

end Operator

end Condition
