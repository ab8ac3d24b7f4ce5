import Condition.Token

namespace Condition.Bracket

/-- Whether a token neither opens nor closes a group. -/
def isInner : Token → Bool
  | .openParen | .closeParen => false
  | _ => true

/-- Tokens whose parentheses all belong together among themselves. -/
inductive Closed : List Token → Prop where
  | nil : Closed []
  | inner (token : Token) (plain : isInner token = true) (rest : Closed tokens) :
      Closed (token :: tokens)
  | group (inside : Closed front) (rest : Closed back) :
      Closed (.openParen :: front ++ .closeParen :: back)

/-- Whether the token at `opening` opens the group that the token at `closing` closes. -/
def Matches (tokens : List Token) (opening closing : Nat) : Prop :=
  ∃ before inside behind,
    tokens = before ++ .openParen :: inside ++ .closeParen :: behind ∧ Closed inside ∧
      opening = before.length ∧ closing = before.length + 1 + inside.length

/-- A parenthesis that opens a group no other one closes. -/
def Unclosed (tokens : List Token) (opening : Nat) : Prop :=
  tokens[opening]? = some .openParen ∧ ∀ closing, ¬ Matches tokens opening closing

/-- A parenthesis that closes no group. -/
def Unopened (tokens : List Token) (closing : Nat) : Prop :=
  tokens[closing]? = some .closeParen ∧ ∀ opening, ¬ Matches tokens opening closing

/-- An operator that stands in a group and in no group inside that one. -/
def Direct (tokens : List Token) (opening closing number : Nat) : Prop :=
  opening < number ∧ number < closing ∧
    (∃ operator, tokens[number]? = some (.operator operator)) ∧
    ∀ inner outer, Matches tokens inner outer → opening < inner → outer < closing →
      ¬ (inner < number ∧ number < outer)

/-- No closing parenthesis comes before the opening one that it needs. -/
def Opened (tokens : List Token) : Prop :=
  ∀ front, front <+: tokens → front.count .closeParen ≤ front.count .openParen

/-- All groups are opened before they are closed, and all that are opened are closed. -/
def Balanced (tokens : List Token) : Prop :=
  Opened tokens ∧ tokens.count .closeParen = tokens.count .openParen

theorem Closed.append (front : Closed first) (back : Closed second) :
    Closed (first ++ second) := by
  induction front with
  | nil => exact back
  | inner token plain _ ih => exact .inner token plain ih
  | group inside _ _ ih =>
    have joined := Closed.group inside ih
    simpa using joined

end Condition.Bracket
