import SymbolGraph.Diagnostic
import SymbolGraph.LibrarySet
import SymbolGraph.Tree

/-!
# Compiled documents

A `SourceUnit` is one document together with what the phases made of it: the identities of its
declarations, the namespaces it opens, the scope of each declaration, the names that occur in it,
and the *back-links* that it wrote into records of other documents.  The back-links are what lets
a document be unlinked without searching the model for its traces.
-/

namespace SymbolGraph

/-- What a name can mean. -/
inductive Target where
  | declaration (id : DeclId)
  | space (space : SpaceRef)
deriving DecidableEq, Repr

/-- A trace that a document left in a record it may not own. -/
inductive BackLink where
  | reference (target : Target) (location : Location)
  | implementor (base heir : DeclId)
deriving DecidableEq, Repr

/-- A name in the text of a document. -/
structure Occurrence where
  range : Range
  target : Target
  /-- The name is declared here, rather than referred to. -/
  definition : Bool
  /-- The occurrence was found while linking, and goes when the document is unlinked. -/
  linked : Bool
deriving DecidableEq, Repr

/-- The namespace and imports under which a declaration is linked. -/
structure DeclScope where
  space : SpaceId
  imports : List SpaceRef
deriving DecidableEq, Repr, Inhabited

/-- One document and what has been compiled from it. -/
structure SourceUnit where
  tree : FileTree
  library : LibraryId
  /-- The top-level declarations, in the order of `SpaceNode.nodes`. -/
  declarations : List DeclId := []
  /-- The namespaces that the document opens, outer ones first. -/
  spaces : List SpaceId := []
  /-- The scope of each declaration, in the same order as the declarations. -/
  scopes : List DeclScope := []
  links : List BackLink := []
  occurrences : List Occurrence := []
  diagnostics : Diagnostics := {}
deriving Repr

namespace SourceUnit

/-- A document before any phase has run. -/
def new (tree : FileTree) (library : LibraryId) : SourceUnit := { tree, library }

/-- The path of the document. -/
def path (unit : SourceUnit) : String := unit.tree.path

/-- The declarations of the document as written. -/
def nodes (unit : SourceUnit) : List DeclNode := unit.tree.root.nodes

/-- Record an occurrence. -/
def occur (unit : SourceUnit) (range : Range) (target : Target) (definition linked : Bool) :
    SourceUnit :=
  { unit with occurrences := unit.occurrences ++ [⟨range, target, definition, linked⟩] }

/-- Record findings of a phase. -/
def report (unit : SourceUnit) (phase : Phase) (found : List Diagnostic) : SourceUnit :=
  { unit with diagnostics := unit.diagnostics.append phase found }

end SourceUnit

namespace LibrarySet

/-- The reference set of a target, if the target exists. -/
def references? (set : LibrarySet) : Target → Option (List Location)
  | .declaration id => (set.find? id).map Symbol.references
  | .space space => (set.space? space).map Namespace.references

/-- Change the reference set of a target. -/
def overReferences (set : LibrarySet) (f : List Location → List Location) : Target → LibrarySet
  | .declaration id => set.edit id (.references f)
  | .space space => set.adjustSpace space fun node => { node with references := f node.references }

/-- Change the list of heirs of a class or interface. -/
def overImplementors (set : LibrarySet) (base : DeclId) (f : List DeclId → List DeclId) :
    LibrarySet :=
  set.edit base (.body (Body.overImplementors f))

end LibrarySet

end SymbolGraph
