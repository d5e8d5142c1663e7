import SymbolGraph.IndexPool
import SymbolGraph.Naming
import SymbolGraph.SourceUnit

/-!
# Tidying a document

Tidying gives every top-level declaration of a document a stable identity and a place in
the namespace tree.  Nested blocks come first, then the declarations of the block itself.  An index
comes from the pool, or is the next one behind the end of the table.

A declaration whose name is no identifier still gets its place, but is marked invalid and
reported.
-/

namespace SymbolGraph

/-- What a phase works on: the libraries, the pool of free indices, and one document. -/
structure Workbench where
  libraries : LibrarySet
  pool : IndexPool
  unit : SourceUnit

namespace Tidy

/-- Whether a name is allowed for a category. -/
def allowedName (category : Category) (name : String) : Bool :=
  isIdentifier name || (category = .function || category = .native) && isOperator name

/-- The report on a name that is not allowed. -/
def badName (name : Ident) : Diagnostic :=
  .error name.range .invalidIdentifier s!"`{name.name}` is not a valid name"

/-- Put an entry into the library of the document and into the group of its name. -/
def store (bench : Workbench) (lib : Library) (entry : Entry) : Outcome Workbench :=
  match lib.insert entry with
  | .error fault => ⟨bench, some fault⟩
  | .ok lib =>
    let lib := { lib with spaces := lib.spaces.declare entry.space entry.name entry.id }
    let unit := { bench.unit with declarations := bench.unit.declarations ++ [entry.id] }
    ⟨{ bench with
        libraries := bench.libraries.adjust bench.unit.library fun _ => lib
        unit := unit.occur entry.nameRange (.declaration entry.id) true false }, none⟩

/-- Give a declaration its identity and its place. -/
def declaration (space : SpaceId) (node : DeclNode) (bench : Workbench) : Outcome Workbench :=
  let library := bench.unit.library
  match bench.libraries.get? library with
  | none => ⟨bench, none⟩
  | some lib =>
    match bench.pool.allocate library node.category with
    | .error fault => ⟨bench, some fault⟩
    | .ok (index, pool) =>
      let id : DeclId := ⟨library, node.category, index.getD (lib.tableSize node.category), none⟩
      let valid := allowedName node.category node.name.name
      let entry := Entry.new node.name bench.unit.path space id node.visibility
      let unit := if valid then bench.unit else bench.unit.report .tidy [badName node.name]
      store { bench with pool, unit } lib { entry with valid }

/-- Open the namespace of a nested block for the document. -/
def openBlock (space : SpaceId) (name : Ident) (bench : Workbench) : SpaceId × Workbench :=
  let library := bench.unit.library
  match bench.libraries.get? library with
  | none => (space, bench)
  | some lib =>
    let (id, spaces) := lib.spaces.openChild space name.name
    let spaces := spaces.addDocument id bench.unit.path
    let unit := { bench.unit with spaces := addNew bench.unit.spaces id }
    (id, { bench with
      libraries := bench.libraries.adjust library fun lib => { lib with spaces }
      unit := unit.occur name.range (.space ⟨library, id⟩) true false })

mutual

/-- Tidy a block in a namespace: the nested blocks, then its own declarations. -/
def block (space : SpaceId) : SpaceNode → Workbench → Outcome Workbench
  | ⟨_, _, children, declarations⟩, bench =>
    (blocks space children bench).andThen (Outcome.forEach (declaration space) declarations)

/-- Tidy blocks in order; a block without a name belongs to the namespace around it. -/
def blocks (space : SpaceId) : List SpaceNode → Workbench → Outcome Workbench
  | [], bench => ⟨bench, none⟩
  | child :: rest, bench =>
    (match child.name with
      | none => block space child bench
      | some name =>
        let (id, bench) := openBlock space name bench
        block id child bench).andThen (blocks space rest)

end

end Tidy

/-- Give identities and places to all declarations of a document. -/
def Workbench.tidy (bench : Workbench) : Outcome Workbench :=
  let bench := { bench with
    unit := { bench.unit with diagnostics := bench.unit.diagnostics.clear .tidy } }
  match bench.libraries.get? bench.unit.library with
  | none => ⟨bench, none⟩
  | some _ => Tidy.block Arena.root bench.unit.tree.root bench

end SymbolGraph
