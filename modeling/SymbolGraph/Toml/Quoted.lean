import SymbolGraph.Toml.Scan

/-!
# Quoted texts

A text is written in one of four ways: between double quotes, with escapes; between single quotes,
as it stands; and each of the two with the quotes tripled, in which case it may run over several
lines.  In the tripled forms a line break right after the opening quotes is dropped, every line
break reads as a line feed, and up to two quotes in a row, even right before the closing ones,
belong to the text.

The readers of a body start behind the opening quotes and read the closing quotes too.
-/

namespace SymbolGraph.Toml

/-- The single quote. -/
def quoteMark : Char := Char.ofNat 39

/-- The value of a hexadecimal digit. -/
def hexDigit? (c : Char) : Option Nat :=
  if '0' ≤ c && c ≤ '9' then some (c.toNat - '0'.toNat)
  else if 'a' ≤ c && c ≤ 'f' then some (c.toNat - 'a'.toNat + 10)
  else if 'A' ≤ c && c ≤ 'F' then some (c.toNat - 'A'.toNat + 10)
  else none

/-- The character with a hexadecimal code; a code in the surrogate range has none. -/
def ofHexCode? (digits : List Char) : Option Char := do
  let values ← digits.mapM hexDigit?
  let code := values.foldl (fun total digit => 16 * total + digit) 0
  if code.isValidChar then some (Char.ofNat code) else none

/-- The character that a backslash with one letter stands for. -/
def shortEscape? : Char → Option Char
  | 'b' => some (Char.ofNat 0x8)
  | 't' => some '\t'
  | 'n' => some '\n'
  | 'f' => some (Char.ofNat 0xC)
  | 'r' => some '\r'
  | '"' => some '"'
  | '\\' => some '\\'
  | _ => none

/-- A text that was read, with one more character in front. -/
def prepend (c : Char) : Option (List Char × List Char) → Option (List Char × List Char)
  | some (text, rest) => some (c :: text, rest)
  | none => none

@[simp] theorem prepend_none (c : Char) : prepend c none = none := rfl

@[simp] theorem prepend_some (c : Char) (text rest : List Char) :
    prepend c (some (text, rest)) = some (c :: text, rest) := rfl

/-- The body of a text between double quotes. -/
def escapedBody : Scan (List Char)
  | [] => none
  | '"' :: cs => some ([], cs)
  | '\\' :: 'u' :: a :: b :: c :: d :: cs =>
    match ofHexCode? [a, b, c, d] with
    | some ch => prepend ch (escapedBody cs)
    | none => none
  | '\\' :: 'U' :: a :: b :: c :: d :: e :: f :: g :: h :: cs =>
    match ofHexCode? [a, b, c, d, e, f, g, h] with
    | some ch => prepend ch (escapedBody cs)
    | none => none
  | '\\' :: c :: cs =>
    match shortEscape? c with
    | some ch => prepend ch (escapedBody cs)
    | none => none
  | c :: cs => if c ≠ '\\' && isPlain c then prepend c (escapedBody cs) else none

/-- Whether the rest of a line is blank and the line ends with a break. -/
def endsLine (cs : List Char) : Bool :=
  match cs.dropWhile isGap with
  | '\n' :: _ => true
  | '\r' :: '\n' :: _ => true
  | _ => false

/-- The body of a text between tripled double quotes.  While `folding`, after a backslash at the end
of a line, blanks and line breaks are skipped. -/
def escapedLines (folding : Bool) : Scan (List Char)
  | '"' :: '"' :: '"' :: '"' :: '"' :: cs => some (['"', '"'], cs)
  | '"' :: '"' :: '"' :: '"' :: cs => some (['"'], cs)
  | '"' :: '"' :: '"' :: cs => some ([], cs)
  | '"' :: cs => prepend '"' (escapedLines false cs)
  | '\r' :: '\n' :: cs =>
    if folding then escapedLines true cs else prepend '\n' (escapedLines false cs)
  | '\n' :: cs => if folding then escapedLines true cs else prepend '\n' (escapedLines false cs)
  | '\\' :: 'u' :: a :: b :: c :: d :: cs =>
    match ofHexCode? [a, b, c, d] with
    | some ch => prepend ch (escapedLines false cs)
    | none => none
  | '\\' :: 'U' :: a :: b :: c :: d :: e :: f :: g :: h :: cs =>
    match ofHexCode? [a, b, c, d, e, f, g, h] with
    | some ch => prepend ch (escapedLines false cs)
    | none => none
  | '\\' :: c :: cs =>
    if endsLine (c :: cs) then
      -- The first character of the blank end of the line is skipped here, the others folding.
      escapedLines true cs
    else match shortEscape? c with
      | some ch => prepend ch (escapedLines false cs)
      | none => none
  | c :: cs =>
    if folding && isGap c then escapedLines true cs
    else if c ≠ '\\' && isPlain c then prepend c (escapedLines false cs)
    else none
  | [] => none

/-- The body of a text between tripled single quotes. -/
def rawLines : Scan (List Char)
  | [] => none
  | '\r' :: '\n' :: cs => prepend '\n' (rawLines cs)
  | '\n' :: cs => prepend '\n' (rawLines cs)
  | c :: cs =>
    if c = quoteMark then
      if cs.take 4 = List.replicate 4 quoteMark then some ([c, c], cs.drop 4)
      else if cs.take 3 = List.replicate 3 quoteMark then some ([c], cs.drop 3)
      else if cs.take 2 = List.replicate 2 quoteMark then some ([], cs.drop 2)
      else prepend c (rawLines cs)
    else if isPlain c then prepend c (rawLines cs)
    else none

/-- The body of a text between single quotes. -/
def rawBody : Scan (List Char) := do
  let text ← Scan.span fun c => isPlain c && c ≠ quoteMark
  Scan.only quoteMark
  return text

/-- A text without one line break at its start. -/
def withoutBreak : List Char → List Char
  | '\n' :: cs => cs
  | '\r' :: '\n' :: cs => cs
  | cs => cs

/-- A text on one line, in double or single quotes. -/
def shortText : Scan String
  | [] => none
  | c :: cs =>
    if c = '"' then (escapedBody.map String.ofList).run cs
    else if c = quoteMark then (rawBody.map String.ofList).run cs
    else none

/-- A text in any of the four forms. -/
def anyText : Scan String := fun cs =>
  if cs.take 3 = List.replicate 3 '"' then
    ((escapedLines false).map String.ofList).run (withoutBreak (cs.drop 3))
  else if cs.take 3 = List.replicate 3 quoteMark then
    (rawLines.map String.ofList).run (withoutBreak (cs.drop 3))
  else shortText cs

end SymbolGraph.Toml
