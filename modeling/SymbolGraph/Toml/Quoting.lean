/-!
# Choosing quotes

A text can be written in four forms, and the plainest that can hold it is chosen: double quotes if
nothing needs an escape, then single quotes, then the tripled double and the tripled single quotes,
and only when none of these can hold the text as it stands, double quotes with escapes.  A tab
never decides the form, but is escaped wherever escapes can be.
-/

namespace SymbolGraph.Toml

/-- The form a text is written in. -/
inductive QuoteForm where
  /-- Double quotes. -/
  | escaped
  /-- Single quotes. -/
  | raw
  /-- Tripled double quotes. -/
  | escapedLines
  /-- Tripled single quotes. -/
  | rawLines
deriving DecidableEq, Repr

namespace QuoteForm

/-- The quotes of a form. -/
def marks : QuoteForm → List Char
  | escaped => ['"']
  | raw => [Char.ofNat 39]
  | escapedLines => ['"', '"', '"']
  | rawLines => List.replicate 3 (Char.ofNat 39)

/-- Whether a form may run over several lines. -/
def hasLines : QuoteForm → Bool
  | escaped | raw => false
  | escapedLines | rawLines => true

end QuoteForm

/-- The length of the longest run of a character; `current` is that of the run just read. -/
def longestRun (mark : Char) (current : Nat) : List Char → Nat
  | [] => current
  | c :: cs =>
    if c = mark then longestRun mark (current + 1) cs
    else max current (longestRun mark 0 cs)

/-- A control code that only an escape can write: all but the tab and the line feed. -/
def needsEscape (c : Char) : Bool :=
  (c.toNat ≤ 0x1F || c.toNat = 0x7F) && c ≠ '\t' && c ≠ '\n'

/-- The plainest form that can hold a text. -/
def quoteForm (cs : List Char) : QuoteForm :=
  let doubles := longestRun '"' 0 cs
  let singles := longestRun (Char.ofNat 39) 0 cs
  let hasBreak := cs.contains '\n'
  if cs.any needsEscape then if hasBreak then .escapedLines else .escaped
  else if !cs.contains '\\' && doubles = 0 && !hasBreak then .escaped
  else if singles = 0 && !hasBreak then .raw
  else if !cs.contains '\\' && doubles ≤ 2 then .escapedLines
  else if singles ≤ 2 then .rawLines
  else if hasBreak then .escapedLines
  else .escaped

/-- One upper case hexadecimal digit. -/
def upperHex (n : Nat) : Char := if n < 10 then Char.ofNat (48 + n) else Char.ofNat (55 + n)

/-- The escape of a control code, in four hexadecimal digits. -/
def codeEscape (c : Char) : List Char :=
  ['\\', 'u', '0', '0', upperHex (c.toNat / 16), upperHex (c.toNat % 16)]

/-- The escape of a character that is not written as itself in a form with escapes; a line feed is
written as itself where a form has lines, and double quotes are not looked at. -/
def escape? (lines : Bool) (c : Char) : Option (List Char) :=
  if c = '\\' then some ['\\', '\\']
  else if c = '\t' then some ['\\', 't']
  else if c = '\n' then if lines then none else some ['\\', 'n']
  else if c = '\r' then some ['\\', 'r']
  else if c.toNat = 0x8 then some ['\\', 'b']
  else if c.toNat = 0xC then some ['\\', 'f']
  else if needsEscape c then some (codeEscape c)
  else none

/-- A text with escapes.  Of double quotes in a row the first `allowed` are written as themselves
and the next with an escape, after which counting starts again; `run` were just written. -/
def withEscapes (lines : Bool) (allowed run : Nat) : List Char → List Char
  | [] => []
  | c :: cs =>
    if c = '"' then
      if run < allowed then '"' :: withEscapes lines allowed (run + 1) cs
      else '\\' :: '"' :: withEscapes lines allowed 0 cs
    else (escape? lines c).getD [c] ++ withEscapes lines allowed 0 cs

/-- A text in quotes of a given form.  Where the form has lines and the text a line break, the text
starts on a line of its own. -/
def quotedAs (form : QuoteForm) (cs : List Char) : List Char :=
  let body := match form with
    | .escaped => withEscapes false 0 0 cs
    | .escapedLines => withEscapes true 2 0 cs
    | .raw | .rawLines => cs
  let start := if form.hasLines && cs.contains '\n' then ['\n'] else []
  form.marks ++ start ++ body ++ form.marks

/-- A text in quotes of the plainest form. -/
def quoted (text : String) : String := String.ofList (quotedAs (quoteForm text.toList) text.toList)

example : quoted "app" = "\"app\"" := by decide +kernel

example : quoted "a\\b" = String.ofList ([Char.ofNat 39] ++ "a\\b".toList ++ [Char.ofNat 39]) := by
  decide +kernel

end SymbolGraph.Toml
