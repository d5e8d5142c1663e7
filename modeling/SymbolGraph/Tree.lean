import SymbolGraph.Identity
import SymbolGraph.Text.Dotted
import SymbolGraph.Text.Range
import SymbolGraph.Visibility

/-!
# Declaration trees

The parsed form of one document, as far as declarations go: nested namespace blocks with import
directives and declarations, and the members of each declaration.  Bodies of functions are not
part of it.

The declarations of a whole tree are read off *children first*: the declarations of the
nested blocks, in order, before those of the block itself.  Every pass over a document follows
this one order (`SpaceNode.nodes`), which is what lets a pass pair the n-th node with the n-th
identity.
-/

namespace SymbolGraph

/-! ## Type references -/

/-- A type as written: a dotted name and a number of array ranks. -/
structure TypeRef where
  path : List Ident
  dimension : Nat
  range : Range
deriving DecidableEq, Repr, Inhabited

namespace TypeRef

/-- The range of a path, from its first to its last segment. -/
def pathRange (path : List Ident) : Range :=
  match path.head?, path.getLast? with
  | some first, some last => first.range.merge last.range
  | _, _ => default

/-- A reference that covers exactly its path. -/
def ofPath (path : List Ident) (dimension : Nat) : TypeRef :=
  ⟨path, dimension, pathRange path⟩

/-- The last segment: the simple name of the type. -/
def name? (ty : TypeRef) : Option Ident := ty.path.getLast?

/-- The dotted name without ranks. -/
def dotted (ty : TypeRef) : String := Dotted.joinNames (ty.path.map Ident.name)

/-- The reference as it is written. -/
def text (ty : TypeRef) : String :=
  ty.dotted ++ String.join (List.replicate ty.dimension "[]")

end TypeRef

/-! ## Declarations -/

/-- A global or member variable. -/
structure VariableNode where
  visibility : Visibility
  constant : Bool
  name : Ident
  ty : TypeRef
deriving DecidableEq, Repr, Inhabited

/-- A parameter; natives and delegates may leave its name out. -/
structure ParamNode where
  name : Option Ident
  ty : TypeRef
deriving DecidableEq, Repr, Inhabited

/-- A function, native or member function. -/
structure FunctionNode where
  visibility : Visibility
  name : Ident
  params : List ParamNode
  returns : List TypeRef
deriving DecidableEq, Repr, Inhabited

/-- An enum with the names of its elements. -/
structure EnumNode where
  visibility : Visibility
  name : Ident
  elements : List Ident
deriving DecidableEq, Repr, Inhabited

/-- A struct. -/
structure StructNode where
  visibility : Visibility
  name : Ident
  fields : List VariableNode
  functions : List FunctionNode
deriving DecidableEq, Repr, Inhabited

/-- An interface. -/
structure InterfaceNode where
  visibility : Visibility
  name : Ident
  inherits : List TypeRef
  functions : List FunctionNode
deriving DecidableEq, Repr, Inhabited

/-- A constructor; its name is the class name as written. -/
structure ConstructorNode where
  visibility : Visibility
  name : Ident
  params : List ParamNode
deriving DecidableEq, Repr, Inhabited

/-- A class; the first inherited type may be its parent class. -/
structure ClassNode where
  visibility : Visibility
  name : Ident
  inherits : List TypeRef
  fields : List VariableNode
  constructors : List ConstructorNode
  functions : List FunctionNode
deriving DecidableEq, Repr, Inhabited

/-- A delegate: a named function type. -/
structure DelegateNode where
  visibility : Visibility
  name : Ident
  params : List ParamNode
  returns : List TypeRef
deriving DecidableEq, Repr, Inhabited

/-- A task: a handle of a running function. -/
structure TaskNode where
  visibility : Visibility
  name : Ident
  returns : List TypeRef
deriving DecidableEq, Repr, Inhabited

/-- A top-level declaration. -/
inductive DeclNode where
  | variable (node : VariableNode)
  | function (node : FunctionNode)
  | native (node : FunctionNode)
  | enum (node : EnumNode)
  | struct (node : StructNode)
  | interface (node : InterfaceNode)
  | class (node : ClassNode)
  | delegate (node : DelegateNode)
  | task (node : TaskNode)
deriving DecidableEq, Repr

namespace DeclNode

/-- The declared name. -/
def name : DeclNode → Ident
  | .variable node => node.name
  | .function node | .native node => node.name
  | .enum node => node.name
  | .struct node => node.name
  | .interface node => node.name
  | .class node => node.name
  | .delegate node => node.name
  | .task node => node.name

/-- The written modifier. -/
def visibility : DeclNode → Visibility
  | .variable node => node.visibility
  | .function node | .native node => node.visibility
  | .enum node => node.visibility
  | .struct node => node.visibility
  | .interface node => node.visibility
  | .class node => node.visibility
  | .delegate node => node.visibility
  | .task node => node.visibility

/-- The category of the slot that the declaration takes. -/
def category : DeclNode → Category
  | .variable _ => .variable
  | .function _ => .function
  | .native _ => .native
  | .enum _ => .enum
  | .struct _ => .struct
  | .interface _ => .interface
  | .class _ => .class
  | .delegate _ => .delegate
  | .task _ => .task

@[simp] theorem isMember_category (node : DeclNode) : node.category.isMember = false := by
  cases node <;> rfl

end DeclNode

/-! ## Namespace blocks and files -/

/-- An import directive. -/
structure ImportNode where
  path : List Ident
  range : Range
deriving DecidableEq, Repr, Inhabited

/-- A namespace block, or the top level of a file; the top level has no name. -/
structure SpaceNode where
  name : Option Ident
  imports : List ImportNode
  children : List SpaceNode
  declarations : List DeclNode
deriving Repr, Inhabited

namespace SpaceNode

/-- The block with nothing in it. -/
def empty : SpaceNode := ⟨none, [], [], []⟩

mutual

/-- All declarations of a block, those of its nested blocks first. -/
def nodes : SpaceNode → List DeclNode
  | ⟨_, _, children, declarations⟩ => nodesOf children ++ declarations

/-- All declarations of several blocks, block after block. -/
def nodesOf : List SpaceNode → List DeclNode
  | [] => []
  | child :: rest => nodes child ++ nodesOf rest

end

mutual

/-- The first segment of every import directive, those of the block before those of its nested
blocks. -/
def importRoots : SpaceNode → List String
  | ⟨_, imports, children, _⟩ =>
    imports.filterMap (fun node => node.path.head?.map Ident.name) ++ importRootsOf children

/-- The first segments of the import directives of several blocks. -/
def importRootsOf : List SpaceNode → List String
  | [] => []
  | child :: rest => importRoots child ++ importRootsOf rest

end

end SpaceNode

/-- One parsed document. -/
structure FileTree where
  path : String
  root : SpaceNode
deriving Repr, Inhabited

end SymbolGraph
