/-!
# Reading a text from the left

A `Scan` reads some characters off the front of a text and leaves the rest, or fails.  Nothing is
ever read twice: each reader of the format decides by the next character what to read, so failure
is final.  Repetition is `repeated`, whose step says when to stop; it ends because a step that
goes on must have read something.

The second half of the module holds the characters that carry no meaning: blanks, line breaks and
comments.
-/

namespace SymbolGraph.Toml

/-- A reader of the front of a text. -/
abbrev Scan := StateT (List Char) Option

namespace Scan

/-- The next character, left in place; nothing at the end of the text. -/
def peek : Scan (Option Char) := fun cs => some (cs.head?, cs)

/-- The next character. -/
def next : Scan Char
  | [] => none
  | c :: cs => some (c, cs)

/-- Read one given character. -/
def only (c : Char) : Scan Unit
  | [] => none
  | d :: cs => if d = c then some ((), cs) else none

/-- Read a given text. -/
def spelled : List Char → Scan Unit
  | [] => pure ()
  | c :: cs => do only c; spelled cs

/-- The longest run of characters of a class, possibly empty. -/
def span (ok : Char → Bool) : Scan (List Char) := fun cs => some (cs.takeWhile ok, cs.dropWhile ok)

/-- Exactly so many characters of a class. -/
def exactly (count : Nat) (ok : Char → Bool) : Scan (List Char) := fun cs =>
  let taken := cs.take count
  if taken.length = count && taken.all ok then some (taken, cs.drop count) else none

/-- Repeat a step until it yields nothing; what the steps yielded is collected.  A step that yields
without having read anything makes the whole fail. -/
def repeated {α : Type} (step : Scan (Option α)) : Scan (List α) := fun cs =>
  match step cs with
  | none => none
  | some (none, rest) => some ([], rest)
  | some (some a, rest) =>
    if _h : rest.length < cs.length then
      match repeated step rest with
      | none => none
      | some (found, last) => some (a :: found, last)
    else none
termination_by cs => cs.length

end Scan

/-! ## Blanks, line breaks and comments -/

/-- A blank: a space or a tab. -/
def isGap (c : Char) : Bool := c = ' ' || c = '\t'

/-- A character that may stand in a text as itself: a tab, a printable one, or any beyond the
seven-bit codes. -/
def isPlain (c : Char) : Bool := c = '\t' || (0x20 ≤ c.toNat && c.toNat ≤ 0x7E) || 0x80 ≤ c.toNat

namespace Scan

/-- Skip blanks. -/
def gap : Scan Unit := discard (span isGap)

/-- A line break: a line feed, or a carriage return with a line feed. -/
def lineBreak : Scan Unit
  | '\n' :: cs => some ((), cs)
  | '\r' :: '\n' :: cs => some ((), cs)
  | _ => none

/-- Skip a comment, up to the end of its line, if one starts here. -/
def comment : Scan Unit := do
  if (← peek) = some '#' then discard (span isPlain)

/-- Skip what may follow a statement on its line, and the end of that line. -/
def lineEnd : Scan Unit := do
  gap
  comment
  if (← peek).isSome then lineBreak

/-- Skip blanks, line breaks and comments, as inside brackets. -/
def wideGap : Scan Unit := discard <| repeated do
  match ← peek with
  | some '#' => comment; return some ()
  | some '\n' => lineBreak; return some ()
  | some '\r' => lineBreak; return some ()
  | some ' ' => gap; return some ()
  | some '\t' => gap; return some ()
  | _ => return none

end Scan

end SymbolGraph.Toml
