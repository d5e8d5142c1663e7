import SymbolGraph.Text.Blank
import SymbolGraph.Tree

/-!
# Hand-assembled declaration trees

A `Sketch` lists items of a document by name and type text only.  `FileTree.ofSketch` lays it
out: every name and every type reference gets a source line of its own, taken from one running
counter, so that ranges are distinct and ordered by creation.  The order in which an item takes
its lines is part of its layout rule: a variable takes its type before its name, a function its
return types, its name and then each parameter's type and name.

Members that their owner cannot hold (the variables and constructors of an interface, the
constructors of a struct) take their lines and are then left out.
-/

namespace SymbolGraph

namespace Sketch

/-- A member of a struct, interface or class. -/
inductive Member where
  | variable (visibility : Visibility) (ty name : String)
  | function (visibility : Visibility) (name : String) (params returns : List String)
  | constructor (visibility : Visibility) (params : List String)
deriving Repr

/-- An item of a namespace block. -/
inductive Item where
  /-- An import directive. -/
  | directive (path : String)
  /-- A nested namespace block. -/
  | block (name : String) (items : List Item)
  | variable (visibility : Visibility) (constant : Bool) (ty name : String)
  | function (visibility : Visibility) (name : String) (params returns : List String)
  | native (visibility : Visibility) (name : String) (params returns : List String)
  | enum (visibility : Visibility) (name : String) (elements : List String)
  | struct (visibility : Visibility) (name : String) (members : List Member)
  | interface (visibility : Visibility) (name : String) (inherits : List String)
      (members : List Member)
  | class (visibility : Visibility) (name : String) (inherits : List String)
      (members : List Member)
  | delegate (visibility : Visibility) (name : String) (params returns : List String)
  | task (visibility : Visibility) (name : String) (returns : List String)
deriving Repr

/-! ## Lines and columns -/

/-- A step of the layout: it may take lines from the running counter. -/
abbrev Layout := StateM Nat

/-- Take the next line. -/
def freshLine : Layout Nat := fun line => (line, line + 1)

/-- The column at which names and types begin. -/
def nameColumn : Nat := 4

/-- The column at which the path of an import directive begins. -/
def importColumn : Nat := 7

/-- A name on a line of its own. -/
def ident (name : String) : Layout Ident := do
  let line ← freshLine
  return ⟨name, .onLine line nameColumn name.length⟩

/-- Names on several lines. -/
def idents : List String → Layout (List Ident)
  | [] => return []
  | name :: rest => return (← ident name) :: (← idents rest)

/-- The segments of a dotted name on one line, each a dot away from the one before. -/
def segments (line : Nat) : (column : Nat) → List String → List Ident
  | _, [] => []
  | column, name :: rest =>
    ⟨name, .onLine line column name.length⟩ :: segments line (column + name.length + 1) rest

/-- Cut array ranks off a text given in reverse: the text before them, still in reverse, and
their number. -/
def cutRanks : List Char → List Char × Nat
  | ']' :: '[' :: rest => ((cutRanks rest).1, (cutRanks rest).2 + 1)
  | cs => (cs, 0)

/-- The type reference that a text spells, placed on one line. -/
def typeRefOn (line : Nat) (text : String) : TypeRef :=
  let (base, dimension) := cutRanks (trimBlank text.toList).reverse
  .ofPath (segments line nameColumn (Dotted.splitName (String.ofList base.reverse))) dimension

/-- A type reference on a line of its own. -/
def typeRef (text : String) : Layout TypeRef := do
  let line ← freshLine
  return typeRefOn line text

/-- Type references on several lines. -/
def typeRefs : List String → Layout (List TypeRef)
  | [] => return []
  | text :: rest => return (← typeRef text) :: (← typeRefs rest)

/-- Parameters named `arg0`, `arg1`, …, each with its type first. -/
def params (position : Nat) : List String → Layout (List ParamNode)
  | [] => return []
  | text :: rest => do
    let ty ← typeRef text
    let name ← ident s!"arg{position}"
    return ⟨some name, ty⟩ :: (← params (position + 1) rest)

/-- An import directive on a line of its own. -/
def importNode (path : String) : Layout ImportNode := do
  let line ← freshLine
  return ⟨segments line importColumn (Dotted.splitName path),
    .onLine line 0 (importColumn + path.length)⟩

/-! ## Declarations -/

/-- A variable: its type, then its name. -/
def variableNode (visibility : Visibility) (constant : Bool) (ty name : String) :
    Layout VariableNode := do
  let ty ← typeRef ty
  let name ← ident name
  return ⟨visibility, constant, name, ty⟩

/-- A function: its return types, its name, its parameters. -/
def functionNode (visibility : Visibility) (name : String) (inputs returns : List String) :
    Layout FunctionNode := do
  let returns ← typeRefs returns
  let name ← ident name
  let inputs ← params 0 inputs
  return ⟨visibility, name, inputs, returns⟩

/-- Laid-out members, sorted into the lists of their owner. -/
structure Members where
  fields : List VariableNode := []
  constructors : List ConstructorNode := []
  functions : List FunctionNode := []

/-- Lay out members in order; constructors take the name of their owner. -/
def members (owner : String) : List Member → Layout Members
  | [] => return {}
  | .variable visibility ty name :: rest => do
    let node ← variableNode visibility false ty name
    let others ← members owner rest
    return { others with fields := node :: others.fields }
  | .function visibility name inputs returns :: rest => do
    let node ← functionNode visibility name inputs returns
    let others ← members owner rest
    return { others with functions := node :: others.functions }
  | .constructor visibility inputs :: rest => do
    let name ← ident owner
    let inputs ← params 0 inputs
    let others ← members owner rest
    return { others with constructors := ⟨visibility, name, inputs⟩ :: others.constructors }

/-- Add a declaration at the end of a block. -/
def addDeclaration (node : SpaceNode) (declaration : DeclNode) : SpaceNode :=
  { node with declarations := node.declarations ++ [declaration] }

mutual

/-- Lay out one item at the end of a block. -/
def place (node : SpaceNode) : Item → Layout SpaceNode
  | .directive path => do
    let written ← importNode path
    return { node with imports := node.imports ++ [written] }
  | .block name items => do
    let name ← ident name
    let child ← placeAll { SpaceNode.empty with name := some name } items
    return { node with children := node.children ++ [child] }
  | .variable visibility constant ty name => do
    return addDeclaration node (.variable (← variableNode visibility constant ty name))
  | .function visibility name inputs returns => do
    return addDeclaration node (.function (← functionNode visibility name inputs returns))
  | .native visibility name inputs returns => do
    return addDeclaration node (.native (← functionNode visibility name inputs returns))
  | .enum visibility name elements => do
    let name ← ident name
    let elements ← idents elements
    return addDeclaration node (.enum ⟨visibility, name, elements⟩)
  | .struct visibility name items => do
    let ident ← ident name
    let parts ← members name items
    return addDeclaration node (.struct ⟨visibility, ident, parts.fields, parts.functions⟩)
  | .interface visibility name inherits items => do
    let ident ← ident name
    let inherits ← typeRefs inherits
    let parts ← members name items
    return addDeclaration node (.interface ⟨visibility, ident, inherits, parts.functions⟩)
  | .class visibility name inherits items => do
    let ident ← ident name
    let inherits ← typeRefs inherits
    let parts ← members name items
    return addDeclaration node (.class ⟨visibility, ident, inherits, parts.fields,
      parts.constructors, parts.functions⟩)
  | .delegate visibility name inputs returns => do
    let name ← ident name
    let inputs ← params 0 inputs
    let returns ← typeRefs returns
    return addDeclaration node (.delegate ⟨visibility, name, inputs, returns⟩)
  | .task visibility name returns => do
    let name ← ident name
    let returns ← typeRefs returns
    return addDeclaration node (.task ⟨visibility, name, returns⟩)

/-- Lay out items in order at the end of a block. -/
def placeAll (node : SpaceNode) : List Item → Layout SpaceNode
  | [] => return node
  | item :: rest => do
    let node ← place node item
    placeAll node rest

end

end Sketch

/-- The document of a sketch, laid out from line zero. -/
def FileTree.ofSketch (path : String) (items : List Sketch.Item) : FileTree :=
  ⟨path, (Sketch.placeAll .empty items 0).1⟩

example : (Sketch.typeRefOn 3 " a.B[][] ").text = "a.B[][]" := by cbv

end SymbolGraph
