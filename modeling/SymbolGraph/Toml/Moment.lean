import SymbolGraph.Toml.Node
import SymbolGraph.Toml.Scan

/-!
# Dates and times

A moment is a date, a time of day, or a date with a time of day and possibly an offset.  Months
have their right number of days and a minute may have a leap second.
-/

namespace SymbolGraph.Toml

/-- The number with given decimal digits. -/
def ofDecimals (ds : List Char) : Nat :=
  ds.foldl (fun total c => 10 * total + (c.toNat - '0'.toNat)) 0

/-- A number of so many digits within bounds. -/
def field (width low high : Nat) : Scan (List Char) := do
  let ds ← Scan.exactly width Char.isDigit
  if low ≤ ofDecimals ds && ofDecimals ds ≤ high then return ds else failure

/-- A leap year has a day more in February. -/
def isLeapYear (year : Nat) : Bool := year % 4 = 0 && (year % 100 ≠ 0 || year % 400 = 0)

/-- The days of a month. -/
def daysIn (year month : Nat) : Nat :=
  if month = 2 then if isLeapYear year then 29 else 28
  else if month ∈ [4, 6, 9, 11] then 30
  else 31

/-- A date. -/
def date : Scan (List Char) := do
  let year ← Scan.exactly 4 Char.isDigit
  Scan.only '-'
  let month ← field 2 1 12
  Scan.only '-'
  let day ← field 2 1 (daysIn (ofDecimals year) (ofDecimals month))
  return year ++ '-' :: month ++ '-' :: day

/-- Hours and minutes. -/
def clock : Scan (List Char) := do
  let hours ← field 2 0 23
  Scan.only ':'
  let minutes ← field 2 0 59
  return hours ++ ':' :: minutes

/-- A time of day. -/
def time : Scan (List Char) := do
  let start ← clock
  Scan.only ':'
  let seconds ← field 2 0 60
  if (← Scan.peek) = some '.' then
    Scan.only '.'
    let places ← Scan.span Char.isDigit
    if places.isEmpty then failure
    else return start ++ ':' :: seconds ++ '.' :: places
  else return start ++ ':' :: seconds

/-- An offset, if one follows. -/
def offset : Scan (List Char) := do
  match ← Scan.peek with
  | some c =>
    if c = 'Z' || c = 'z' then discard Scan.next; return ['Z']
    else if c = '+' || c = '-' then
      discard Scan.next
      return c :: (← clock)
    else return []
  | none => return []

/-- Whether a text starts with so many digits and a mark. -/
def startsField (width : Nat) (mark : Char) (cs : List Char) : Bool :=
  (cs.take width).length = width && (cs.take width).all Char.isDigit
    && cs[width]? = some mark

/-- The time of day that belongs to a date, if one follows. -/
def timeOfDay : Scan (List Char) := fun cs =>
  match cs with
  | c :: rest =>
    if (c = 'T' || c = 't' || c = ' ') && startsField 2 ':' rest then
      (do return 'T' :: (← time) ++ (← offset) : Scan (List Char)) rest
    else some ([], cs)
  | [] => some ([], [])

/-- A moment. -/
def moment : Scan Node := fun cs =>
  let reading : Scan (List Char) :=
    if startsField 4 '-' cs then do return (← date) ++ (← timeOfDay) else time
  (do return .moment (String.ofList (← reading)) : Scan Node) cs

/-- Whether a text starts as a moment does. -/
def startsMoment (cs : List Char) : Bool := startsField 4 '-' cs || startsField 2 ':' cs

end SymbolGraph.Toml
