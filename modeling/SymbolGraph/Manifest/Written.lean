import SymbolGraph.Manifest
import SymbolGraph.Toml.Document
import SymbolGraph.Toml.Quoting

/-!
# Manifest files

A manifest is kept as a document with the tables `project`, `imports` and `analysis`.  Only the
name of the project has to be there; keys that are not known are passed over.  A section may also
be written as an array, whose items are the fields in order.

`Manifest.parse` reads the text of a manifest and checks its rules, `Manifest.render` writes one,
and `Folder.load` and `Folder.save` do the same with the file in a folder.
-/

namespace SymbolGraph

namespace Toml.Node

/-- The text of a node. -/
def text? : Node → Option String
  | .text value => some value
  | _ => none

/-- The truth value of a node. -/
def boolean? : Node → Option Bool
  | .boolean value => some value
  | _ => none

/-- The texts of an array. -/
def texts? : Node → Option (List String)
  | .array items => items.mapM text?
  | _ => none

/-- The fields of a section, of which the names are given in order: by name in a table, by position
in an array or a row of tables.  A moment has none; other scalars are no sections. -/
def fields? (names : List String) : Node → Option (Assoc String Node)
  | .table _ entries => some (entries.filter fun entry => entry.1 ∈ names)
  | .array items => some (names.zip items)
  | .rows tables => some (names.zip (tables.map (Node.table .declared)))
  | .moment _ => some []
  | _ => none

end Toml.Node

namespace Manifest

open Toml

/-- A field that may be left out. -/
def field? {α : Type} (fields : Assoc String Node) (name : String) (read : Node → Option α)
    (default : α) : Option α :=
  match fields.at? name with
  | some node => read node
  | none => some default

/-- The fields of a section that may be left out. -/
def part? (root : Table) (name : String) (fields : List String) :
    Option (Assoc String Node) :=
  field? root.entries name (Node.fields? fields) []

/-- The manifest of a document, before its rules are checked. -/
def ofTable? (root : Table) : Option Manifest := do
  let project ← part? root "project" ["name"]
  let imports ← part? root "imports" ["libraries"]
  let analysis ← part? root "analysis" ["kernel", "suggestions"]
  let name ← (← project.at? "name").text?
  return {
    name
    libraries := ← field? imports "libraries" Node.texts? []
    kernel := ← field? analysis "kernel" Node.text? "kernel"
    suggestions := ← field? analysis "suggestions" Node.boolean? true }

/-- The manifest that a text describes, if it keeps the rules. -/
def parse (text : String) : Except ManifestError Manifest :=
  match (Document.parse? text).bind ofTable? with
  | some manifest => manifest.validate
  | none => .error .malformed

/-- A list of texts: on one line if there are fewer than two, otherwise each on a line of its
own. -/
def renderTexts : List String → String
  | [] => "[]"
  | [text] => "[" ++ quoted text ++ "]"
  | texts => "[\n" ++ String.join (texts.map fun text => "    " ++ quoted text ++ ",\n") ++ "]"

/-- The text of a manifest. -/
def render (manifest : Manifest) : String :=
  "[project]\nname = " ++ quoted manifest.name
    ++ "\n\n[imports]\nlibraries = " ++ renderTexts manifest.libraries
    ++ "\n\n[analysis]\nkernel = " ++ quoted manifest.kernel
    ++ "\nsuggestions = " ++ (if manifest.suggestions then "true" else "false") ++ "\n"

end Manifest

/-- What stands where the manifest file of a folder is looked for. -/
inductive Folder where
  /-- The folder itself does not exist. -/
  | absent
  /-- There is no such file. -/
  | empty
  /-- A folder stands in its place. -/
  | blocked
  /-- A file with these bytes. -/
  | holding (bytes : ByteArray)

namespace Folder

/-- Read the manifest of a folder. -/
def load : Folder → Except ManifestError Manifest
  | absent | empty => .error .missing
  | blocked => .error .unreadable
  | holding bytes =>
    match String.fromUTF8? bytes with
    | some text => Manifest.parse text
    | none => .error .unreadable

/-- Write the manifest of a folder, over any that was there. -/
def save (manifest : Manifest) : Folder → Except ManifestError Folder
  | absent | blocked => .error .unreadable
  | empty | holding _ => .ok (holding manifest.render.toUTF8)

/-- A file that holds a text is read as that text says. -/
@[simp] theorem load_holding_toUTF8 (text : String) :
    (holding text.toUTF8).load = Manifest.parse text := by
  have valid : text.toUTF8.IsValidUTF8 := text.isValidUTF8
  have decoded : String.fromUTF8? text.toUTF8 = some text := by
    unfold String.fromUTF8?
    split
    · rfl
    · contradiction
  simp only [load, decoded]

end Folder

end SymbolGraph
