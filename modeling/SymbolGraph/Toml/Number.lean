import SymbolGraph.Toml.Node
import SymbolGraph.Toml.Quoted

/-!
# Numbers

Integers are decimal, with an optional sign and no leading zero, or unsigned with the radix marks
`0x`, `0o` and `0b`; they have to fit in 64 bits with a sign.  A fraction or an exponent makes a
float.  Single underscores may stand between digits.  A positive float too large for the binary
format with 53 bits of precision is refused; a negative one reads as minus infinity.
-/

namespace SymbolGraph.Toml

/-- Digits after a first one: an underscore must stand between two digits. -/
def moreDigits (ok : Char → Bool) : Scan (List Char)
  | [] => some ([], [])
  | ['_'] => none
  | '_' :: c :: cs => if ok c then prepend c (moreDigits ok cs) else none
  | c :: cs => if ok c then prepend c (moreDigits ok cs) else some ([], c :: cs)

/-- One digit or more. -/
def digits (ok : Char → Bool) : Scan (List Char)
  | [] => none
  | c :: cs => if ok c then prepend c (moreDigits ok cs) else none

/-- The whole part of a decimal number: zero, or digits that do not start with zero. -/
def wholePart : Scan (List Char)
  | '0' :: cs => some (['0'], cs)
  | cs => digits Char.isDigit cs

/-- The number with given digits; a character that is no digit counts as zero. -/
def ofDigits (radix : Nat) (ds : List Char) : Nat :=
  ds.foldl (fun total c => radix * total + (hexDigit? c).getD 0) 0

/-- An integer, if it fits in 64 bits with a sign. -/
def fitted? (value : Int) : Option Node :=
  if -0x8000000000000000 ≤ value && value < 0x8000000000000000 then some (.integer value) else none

/-- The least number that rounds to infinity: half a unit in the last place above the greatest
finite one. -/
def infinityBound : Nat := Nat.pow 2 1024 - Nat.pow 2 970

/-- Whether `mantissa · 10 ^ exponent` rounds to infinity.  The number of digits decides except
near the bound, which has 309 digits. -/
def overflows (mantissa : Nat) (exponent : Int) : Bool :=
  let size : Int := (Nat.toDigits 10 mantissa).length + exponent
  if mantissa = 0 || size < 309 then false
  else if size > 309 then true
  else if 0 ≤ exponent then infinityBound ≤ mantissa * Nat.pow 10 exponent.toNat
  else infinityBound * Nat.pow 10 (-exponent).toNat ≤ mantissa

/-- A sign, if there is one: whether it is a minus. -/
def sign : Scan Bool := do
  match ← Scan.peek with
  | some '-' => discard Scan.next; return true
  | some '+' => discard Scan.next; return false
  | _ => return false

/-- The digits of a fraction, if a point follows. -/
def fraction : Scan (List Char) := do
  if (← Scan.peek) = some '.' then
    Scan.only '.'
    digits Char.isDigit
  else return []

/-- The value of an exponent, if the mark of one follows. -/
def exponent? : Scan (Option Int) := do
  match ← Scan.peek with
  | some c =>
    if c = 'e' || c = 'E' then
      discard Scan.next
      let negative ← sign
      let value := ofDigits 10 (← digits Char.isDigit)
      return some (if negative then -(value : Int) else value)
    else return none
  | none => return none

/-- A decimal number whose sign has been read. -/
def decimal (negative : Bool) : Scan Node := do
  let whole ← wholePart
  let places ← fraction
  let power ← exponent?
  if places.isEmpty && power.isNone then
    let value := ofDigits 10 whole
    fitted? (if negative then -(value : Int) else value)
  else if !negative
      && overflows (ofDigits 10 (whole ++ places)) (power.getD 0 - places.length) then failure
  else
    return .float <| String.ofList <| (if negative then ['-'] else []) ++ whole
      ++ (if places.isEmpty then [] else '.' :: places)
      ++ (match power with | some e => 'e' :: (toString e).toList | none => [])

/-- The radix that a letter after a zero announces, and its digits. -/
def radix? : Char → Option (Nat × (Char → Bool))
  | 'x' => some (16, fun c => (hexDigit? c).isSome)
  | 'o' => some (8, fun c => '0' ≤ c && c ≤ '7')
  | 'b' => some (2, fun c => c = '0' || c = '1')
  | _ => none

/-- A number, or one of the names `inf` and `nan` with a sign. -/
def number : Scan Node := fun cs =>
  match cs with
  | '0' :: c :: rest =>
    match radix? c with
    | some (radix, ok) => (do fitted? (ofDigits radix (← digits ok)) : Scan Node) rest
    | none => decimal false cs
  | _ =>
    let signed : Scan Node := do
      let negative ← sign
      match ← Scan.peek with
      | some 'i' => Scan.spelled ['i', 'n', 'f']; return .float "inf"
      | some 'n' => Scan.spelled ['n', 'a', 'n']; return .float "nan"
      | _ => decimal negative
    signed cs

end SymbolGraph.Toml
