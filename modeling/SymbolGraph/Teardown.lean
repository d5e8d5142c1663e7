import SymbolGraph.Link
import SymbolGraph.Tidy

/-!
# Tearing documents down

A document goes in two steps.  Marking strips everything that it wrote into other records and
everything that other records hold of it, and gives its indices back to the pool.  Disposing
empties its slots and closes the namespaces that only it opened.  All documents of a batch are
marked before the first is disposed of, so that marking finds every record still in place.
-/

namespace SymbolGraph

namespace LibrarySet

/-- The functions of a declaration, each paired with a function tied to it. -/
def relatedPairs (set : LibrarySet) (id : DeclId) : List (DeclId × DeclId) :=
  match set.find? id with
  | none => []
  | some entry => entry.body.functions.flatMap fun function =>
      match function.body.callable? with
      | some callable => callable.relations.all.map fun other => (other, function.id)
      | none => []

/-- Take a function out of the relations of another. -/
def dropRelation (set : LibrarySet) (pair : DeclId × DeclId) : LibrarySet :=
  set.edit pair.1 (.callable fun c => { c with relations := c.relations.without pair.2 })

/-- Take the functions of a declaration out of the relations of all functions tied to them. -/
def stripRelations (set : LibrarySet) (id : DeclId) : LibrarySet :=
  (set.relatedPairs id).foldl dropRelation set

end LibrarySet

namespace Workbench

/-- Undo linking for the document at hand. -/
def unlink (bench : Workbench) : Workbench :=
  let state := Linkage.unlink ⟨bench.libraries, bench.unit⟩
  { bench with libraries := state.libraries, unit := state.unit }

/-- Give an index back to the pool. -/
def recycle (id : DeclId) (bench : Workbench) : Outcome Workbench :=
  match bench.pool.recycle id.library id.category id.index with
  | .ok pool => ⟨{ bench with pool }, none⟩
  | .error fault => ⟨bench, some fault⟩

/-- First step of teardown: detach the document and free its indices. -/
def mark (bench : Workbench) : Outcome Workbench :=
  let libraries := bench.unit.declarations.foldl LibrarySet.stripRelations bench.libraries
  Outcome.forEach recycle bench.unit.declarations (unlink { bench with libraries })

end Workbench

namespace Library

/-- Take a declaration out of its slot and out of the group of its name. -/
def eraseRecord (lib : Library) (id : DeclId) : Library :=
  match lib.slot? id.category id.index with
  | none => lib
  | some entry =>
    let lib := lib.remove id
    { lib with spaces := lib.spaces.undeclare entry.space entry.name id }

/-- Close a namespace for a document, and remove it if nothing is left in it. -/
def close (document : String) (lib : Library) (space : SpaceId) : Library :=
  { lib with spaces := (lib.spaces.dropDocument space document).prune space }

end Library

namespace Linkage

/-- Second step of teardown: empty the document's slots and close its namespaces, inner ones
first. -/
def dispose (state : Linkage) : Linkage :=
  let unit := state.unit
  match state.libraries.get? unit.library with
  | none => state
  | some lib =>
    let lib := unit.declarations.foldl Library.eraseRecord lib
    let lib := unit.spaces.reverse.foldl (Library.close unit.path) lib
    { libraries := state.libraries.adjust unit.library fun _ => lib
      unit := { unit with
        declarations := []
        spaces := []
        occurrences := []
        scopes := []
        diagnostics := {} } }

end Linkage

end SymbolGraph
