import SymbolGraph.Collection.Assoc

/-!
# Tables of settings

A document is a table: keys with nodes, which are scalars, arrays and again tables.  What decides
whether a table may still be added to is how it came about, its `Origin`:

* a table written in braces is complete;
* a table with a header of its own is `declared`, and no second header or dotted key may name it;
* a table that only stands on the way to another header is `implied`: a header of its own may come;
* a table that only stands on the way of a dotted key is `dotted`: more dotted keys may come, but
  no header.

`Table.within` walks a path and changes the table at its end; `Table.define`, `Table.declare` and
`Table.declareRow` are the three kinds of statement.
-/

namespace SymbolGraph.Toml

/-- How a table came about. -/
inductive Origin where
  /-- It is written in braces. -/
  | inline
  /-- It has a header of its own. -/
  | declared
  /-- It stands on the way to a header. -/
  | implied
  /-- It stands on the way of a dotted key. -/
  | dotted
deriving DecidableEq, Repr

/-- A node of a document.  Of the scalars that no setting uses the spelling is kept. -/
inductive Node where
  | text (value : String)
  | boolean (value : Bool)
  | integer (value : Int)
  | float (spelling : String)
  /-- A date, a time or both. -/
  | moment (spelling : String)
  | array (items : List Node)
  | table (origin : Origin) (entries : List (String × Node))
  /-- The tables declared under one key with double brackets, in order. -/
  | rows (tables : List (List (String × Node)))

/-- A table: how it came about and what it holds. -/
structure Table where
  origin : Origin
  entries : Assoc String Node := []

namespace Table

/-- A table as a node. -/
def toNode (table : Table) : Node := .table table.origin table.entries

/-- The table with one key set. -/
def set (table : Table) (key : String) (node : Node) : Table :=
  { table with entries := table.entries.put key node }

@[simp] theorem at?_set (table : Table) (key k : String) (node : Node) :
    (table.set key node).entries.at? k
      = if key = k then some node else table.entries.at? k := by
  simp [set]

/-- Change the table at the end of a path.  Missing tables on the way come about as `origin` says;
with `dotted`, the way may not lead through a table with a header of its own; it never leads
through a scalar, an array or a table in braces.  Of the tables in a row the last is meant. -/
def within (origin : Origin) (change : Table → Option Table) :
    List String → Table → Option Table
  | [], table => change table
  | key :: path, table => do
    match table.entries.at? key with
    | none =>
      let inner ← within origin change path { origin }
      return table.set key inner.toNode
    | some (.table found entries) =>
      if found = .inline || (origin = .dotted && found = .declared) then none
      else
        let inner ← within origin change path ⟨found, entries⟩
        return table.set key inner.toNode
    | some (.rows tables) =>
      let inner ← within origin change path ⟨.declared, tables.getLast?.getD []⟩
      return table.set key (.rows (tables.dropLast ++ [inner.entries]))
    | some _ => none

/-- Give a value to a key under a dotted path.  The path has to end at a table that dotted keys
brought about, the empty path at one that they did not, and the key must be new. -/
def define (table : Table) (path : List String) (key : String) (value : Node) : Option Table :=
  table.within .dotted
    (fun inner =>
      if decide (inner.origin = .dotted) = path.isEmpty then none
      else if inner.entries.has key then none
      else some (inner.set key value))
    path

/-- Declare the table with a given path: it must be new, or only implied so far. -/
def declare (table : Table) (path : List String) (key : String) : Option Table :=
  table.within .implied
    (fun parent =>
      match parent.entries.at? key with
      | none => some (parent.set key (.table .declared []))
      | some (.table .implied entries) => some (parent.set key (.table .declared entries))
      | some _ => none)
    path

/-- Declare one more table in the row of tables with a given path. -/
def declareRow (table : Table) (path : List String) (key : String) : Option Table :=
  table.within .implied
    (fun parent =>
      match parent.entries.at? key with
      | none => some (parent.set key (.rows [[]]))
      | some (.rows tables) => some (parent.set key (.rows (tables ++ [[]])))
      | some _ => none)
    path

end Table

end SymbolGraph.Toml
