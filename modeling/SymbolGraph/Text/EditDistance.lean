/-!
# Edit distance and near misses

`editDistance a b` is the least number of single-character insertions, deletions and
substitutions that turn `a` into `b`, computed row by row: the row of a text `a` holds the
distances from `a` to every initial part of `b`.

`nearest` picks the suggestion for a misspelt name: the first candidate of smallest distance,
among those at distance one or two.
-/

namespace SymbolGraph

namespace EditDistance

/-- The row of the empty text: the initial parts of `b` have distances `0, 1, …, b.length`. -/
def firstRow (b : List Char) : List Nat := List.range (b.length + 1)

/-- Fill a row from left to right.  `left` is the entry just written, `diagonal` the entry of
the row above it, and the list the rest of the row above. -/
def fillRow (c : Char) : List Char → (diagonal left : Nat) → List Nat → List Nat
  | d :: ds, diagonal, left, up :: ups =>
    left :: fillRow c ds up
      (min (min (diagonal + if c = d then 0 else 1) (up + 1)) (left + 1)) ups
  | _, _, left, _ => [left]

/-- The row of a text one character longer. -/
def nextRow (b : List Char) (row : List Nat) (c : Char) : List Nat :=
  match row with
  | [] => []
  | first :: rest => fillRow c b first (first + 1) rest

/-- The row of `a`. -/
def row (a b : List Char) : List Nat := a.foldl (nextRow b) (firstRow b)

end EditDistance

/-- The number of single-character edits between two texts, counted in code points. -/
def editDistance (a b : String) : Nat :=
  ((EditDistance.row a.toList b.toList).getLast?).getD 0

/-- A candidate with its distance from the name in question. -/
structure NearMiss where
  distance : Nat
  candidate : String
deriving DecidableEq, Repr

namespace NearMiss

/-- Keep the candidate found first unless a later one is strictly nearer. -/
def better (name : String) (best : Option NearMiss) (candidate : String) : Option NearMiss :=
  let distance := editDistance name candidate
  if distance = 0 ∨ 2 < distance then best
  else match best with
    | some found => if found.distance ≤ distance then best else some ⟨distance, candidate⟩
    | none => some ⟨distance, candidate⟩

end NearMiss

/-- The first of the candidates nearest to `name`, among those one or two edits away. -/
def nearest (name : String) (candidates : List String) : Option String :=
  (candidates.foldl (NearMiss.better name) none).map NearMiss.candidate

end SymbolGraph
