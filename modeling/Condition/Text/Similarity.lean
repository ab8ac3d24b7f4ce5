/-! How alike two words are. Equal characters that stand at nearly the same place
match, and a match out of order counts for less. -/

namespace Condition

/-- How far apart equal characters of two words may stand to match. -/
def matchReach (left right : List Char) : Nat := max left.length right.length / 2 - 1

/-- The places in `right` where the characters of `left` find their match, in the order of `left`.
Each takes the first place in reach that is still free. -/
def matchPlaces (left right : List Char) : List Nat :=
  let reach := matchReach left right
  left.zipIdx.foldl (fun taken (char, index) =>
    let free := right.zipIdx.find? fun (other, place) =>
      other == char && decide (index ≤ place + reach) && decide (place ≤ index + reach) &&
        !taken.contains place
    match free with
    | some (_, place) => taken ++ [place]
    | none => taken) []

/-- A similarity of `part` out of `whole`. -/
structure Similarity where
  part : Nat
  whole : Nat
deriving DecidableEq, Repr

namespace Similarity

/-- The average of three shares: of the matches in each of the two words, and of the matches that
are in order. Two matches that only change places count as one out of order. -/
def of (left right : List Char) : Similarity :=
  let places := matchPlaces left right
  let found := places.length
  if found = 0 then ⟨0, 1⟩
  else
    let sorted := (List.range right.length).filter places.contains
    let displaced := (places.zip sorted).filter fun (one, other) => right[one]? != right[other]?
    let ordered := found - displaced.length / 2
    ⟨found * found * right.length + found * found * left.length +
        ordered * left.length * right.length,
      3 * found * left.length * right.length⟩

/-- Seven tenths at least. -/
def isHigh (similarity : Similarity) : Bool := decide (7 * similarity.whole ≤ 10 * similarity.part)

def isBelow (left right : Similarity) : Bool :=
  decide (left.part * right.whole < right.part * left.whole)

end Similarity

/-- The entry whose name is most like a text, if one is much like it. The last of equals counts. -/
def closest? {Entry : Type} (name : Entry → List Char) (text : List Char)
    (entries : List Entry) : Option Entry :=
  let similarity (entry : Entry) := Similarity.of text (name entry)
  (entries.filter fun entry => (similarity entry).isHigh).foldl (fun best entry =>
    match best with
    | none => some entry
    | some held => if (similarity entry).isBelow (similarity held) then best else some entry) none

end Condition
