import SymbolGraph.Toml.Moment
import SymbolGraph.Toml.Number

/-!
# Documents

A document is read in two steps: its lines are read as statements, and the statements are carried
out one after the other on a table.  `Document.parse?` does both.
-/

namespace SymbolGraph.Toml

/-! ## Keys -/

/-- A character of an unquoted key. -/
def isKeyChar (c : Char) : Bool := c.isAlphanum || c = '_' || c = '-'

/-- One segment of a key. -/
def keySegment : Scan String := do
  match ← Scan.peek with
  | some c =>
    if c = '"' || c = quoteMark then shortText
    else
      let name ← Scan.span isKeyChar
      if name.isEmpty then failure else return String.ofList name
  | none => failure

/-- How deep keys and values may nest. -/
def depthLimit : Nat := 80

/-- A key: segments between dots, with blanks around each; at least one, and fewer than
`depthLimit`. The last stands apart. -/
def key : Scan (List String × String) := do
  let segment : Scan String := do
    Scan.gap
    let name ← keySegment
    Scan.gap
    return name
  let first ← segment
  let more ← Scan.repeated do
    if (← Scan.peek) = some '.' then
      Scan.only '.'
      some <$> segment
    else return none
  let segments := first :: more
  if segments.length < depthLimit then
    return (segments.dropLast, segments.getLast?.getD first)
  else failure

/-! ## Values -/

/-- A value that holds no others. -/
def scalar : Scan Node := fun cs =>
  match cs with
  | 't' :: _ => (do Scan.spelled "true".toList; return .boolean true : Scan Node) cs
  | 'f' :: _ => (do Scan.spelled "false".toList; return .boolean false : Scan Node) cs
  | c :: _ =>
    if c = '"' || c = quoteMark then (anyText.map Node.text).run cs
    else if startsMoment cs then moment cs
    else number cs
  | [] => none

/-- The items of an array, behind its opening bracket: a comma may follow the last. -/
def arrayItems (item : Scan Node) : Scan (List Node) := Scan.repeated do
  Scan.wideGap
  if (← Scan.peek) = some ']' then
    Scan.only ']'
    return none
  else
    let node ← item
    Scan.wideGap
    if (← Scan.peek) ≠ some ']' then Scan.only ','
    return some node

/-- A key with its value, up to the blanks behind it. -/
def keyValue (item : Scan Node) : Scan (List String × String × Node) := do
  let (path, name) ← key
  Scan.only '='
  Scan.gap
  let node ← item
  Scan.gap
  return (path, name, node)

/-- The entries of a table in braces, behind its opening brace: no comma follows the last. -/
def inlineEntries (item : Scan Node) : Scan (List (List String × String × Node)) := do
  Scan.gap
  if (← Scan.peek) = some '\x7d' then
    Scan.only '\x7d'
    return []
  else
    let first ← keyValue item
    let more ← Scan.repeated do
      if (← Scan.peek) = some '\x7d' then
        Scan.only '\x7d'
        return none
      else
        Scan.only ','
        some <$> keyValue item
    return first :: more

/-- The table in braces with given entries. -/
def inlineTable? (entries : List (List String × String × Node)) : Option Node := do
  let table ← entries.foldlM
    (fun table (path, name, node) => Table.define table path name node) ⟨.inline, []⟩
  return table.toNode

/-- A value whose parts, if it has any, are read by `item`. -/
def compound (item : Scan Node) : Scan Node := do
  match ← Scan.peek with
  | some '[' => Scan.only '['; return .array (← arrayItems item)
  | some '\x7b' => Scan.only '\x7b'; inlineTable? (← inlineEntries item)
  | _ => scalar

/-- A value that nests at most so deep. -/
def value : Nat → Scan Node
  | 0 => scalar
  | depth + 1 => compound (value depth)

/-! ## Statements -/

/-- What a line says. -/
inductive Statement where
  /-- Nothing. -/
  | blank
  /-- The header of a table. -/
  | header (path : List String) (name : String)
  /-- The header of one more table in a row. -/
  | row (path : List String) (name : String)
  /-- A value for a key. -/
  | entry (path : List String) (name : String) (value : Node)

/-- A header, up to the end of its line. -/
def header : Scan Statement := do
  Scan.only '['
  if (← Scan.peek) = some '[' then
    Scan.only '['
    let (path, name) ← key
    Scan.spelled [']', ']']
    Scan.lineEnd
    return .row path name
  else
    let (path, name) ← key
    Scan.only ']'
    Scan.lineEnd
    return .header path name

/-- A statement with the end of its line; nothing at the end of the text. -/
def statement : Scan (Option Statement) := do
  Scan.gap
  match ← Scan.peek with
  | none => return none
  | some '[' => some <$> header
  | some '#' => Scan.lineEnd; return some .blank
  | some '\n' => Scan.lineBreak; return some .blank
  | some '\r' => Scan.lineBreak; return some .blank
  | some _ =>
    let (path, name, node) ← keyValue (value (depthLimit - 1))
    Scan.lineEnd
    return some (.entry path name node)

/-! ## Carrying out statements -/

/-- The table of a document so far, and the path of the last header. -/
structure Document where
  root : Table := ⟨.declared, []⟩
  cursor : List String := []

namespace Document

/-- Carry out one statement. -/
def obey (doc : Document) : Statement → Option Document
  | .blank => some doc
  | .header path name => do
    return ⟨← doc.root.declare path name, path ++ [name]⟩
  | .row path name => do
    return ⟨← doc.root.declareRow path name, path ++ [name]⟩
  | .entry path name node => do
    let root ← doc.root.within .implied (fun table => table.define path name node) doc.cursor
    return { doc with root }

/-- A text without a byte order mark at its start. -/
def withoutMark : List Char → List Char
  | c :: cs => if c.toNat = 0xFEFF then cs else c :: cs
  | [] => []

/-- The table that a text describes. -/
def parse? (text : String) : Option Table := do
  let (statements, _) ← (Scan.repeated statement).run (withoutMark text.toList)
  let doc ← statements.foldlM obey {}
  return doc.root

end Document

end SymbolGraph.Toml
