import SymbolGraph.Query

/-!
# Outlines

The outline of a document: its namespace blocks, its declarations and their members.  The walk
follows the order of `SpaceNode.nodes`, so the identities of the document can be handed out to the
blocks one after the other.
-/

namespace SymbolGraph

/-- The kind of an outline item. -/
inductive OutlineKind where
  | space
  | «variable»
  | constant
  | function
  | native
  | enum
  | enumElement
  | struct
  | interface
  | «class»
  | field
  | constructor
  | method
  | delegate
  | task
deriving DecidableEq, Repr, Inhabited

/-- An item of an outline. -/
structure OutlineItem where
  name : String
  kind : OutlineKind
  range : Range
  detail : Option String
  children : List OutlineItem
deriving Repr, Inhabited

namespace OutlineKind

/-- Every kind in its fixed order. -/
def all : List OutlineKind :=
  [.space, .variable, .constant, .function, .native, .enum, .enumElement, .struct,
    .interface, .class, .field, .constructor, .method, .delegate, .task]

/-- The name of a kind as data. -/
def name : OutlineKind → String
  | .space => "Namespace"
  | .variable => "Variable"
  | .constant => "Constant"
  | .function => "Function"
  | .native => "Native"
  | .enum => "Enum"
  | .enumElement => "EnumElement"
  | .struct => "Struct"
  | .interface => "Interface"
  | .class => "Class"
  | .field => "Field"
  | .constructor => "Constructor"
  | .method => "Method"
  | .delegate => "Delegate"
  | .task => "Task"

/-- The kind of a name. -/
def ofName? (text : String) : Option OutlineKind := all.find? fun kind => kind.name = text

@[simp] theorem ofName?_name (kind : OutlineKind) : ofName? kind.name = some kind := by
  cases kind <;> rfl

/-- The kind of a declaration; only a top-level variable is told apart from a constant. -/
def ofCategory (category : Category) (constant : Bool) : OutlineKind :=
  match category with
  | .variable => if constant then .constant else .variable
  | .function => .function
  | .native => .native
  | .enum => .enum
  | .enumElement => .enumElement
  | .struct => .struct
  | .interface => .interface
  | .class => .class
  | .structVariable | .classVariable => .field
  | .constructor => .constructor
  | .structFunction | .classFunction | .interfaceFunction => .method
  | .delegate => .delegate
  | .task => .task
  | .invalid => .variable

end OutlineKind

namespace Outline

section

variable (set : LibrarySet)

/-- The text beside a name: the type of a variable, the parameters and results of a callable. -/
def detail? : Body → Option String
  | .leaf (.variable info) => some (set.typeName info.ty)
  | .leaf (.callable info) =>
    let params := String.intercalate ", " (set.typeNames info.signature)
    let returns := String.intercalate ", " (set.typeNames info.returns)
    some (if info.returns.isEmpty then s!"({params})" else s!"({params}) -> {returns}")
  | _ => none

/-- Whether a body is that of a constant. -/
def isConstant : Body → Bool
  | .leaf (.variable info) => info.constant
  | _ => false

/-- The item of a declaration with given children. -/
def item (entry : Entry) (children : List OutlineItem) : OutlineItem :=
  ⟨entry.name, .ofCategory entry.category (isConstant entry.body), entry.nameRange,
    detail? set entry.body, children⟩

/-- The item of a top-level declaration with its members. -/
def entryItem (entry : Entry) : OutlineItem :=
  item set entry (entry.body.allMembers.map fun member => item set member.toEntry [])

mutual

/-- The outline of a block, and the identities that are left for the blocks behind it. -/
def block (ids : List DeclId) : SpaceNode → List OutlineItem × List DeclId
  | ⟨_, _, children, declarations⟩ =>
    let (nested, ids) := blocks ids children
    let own := ids.take declarations.length
    (nested ++ (own.filterMap set.find?).map (entryItem set), ids.drop declarations.length)

/-- The outlines of blocks in order; the items of a block without a name stand in its place. -/
def blocks (ids : List DeclId) : List SpaceNode → List OutlineItem × List DeclId
  | [] => ([], ids)
  | child :: rest =>
    let (inner, ids) := block ids child
    let first := match child.name with
      | some name => [⟨name.name, .space, name.range, none, inner⟩]
      | none => inner
    let (others, ids) := blocks ids rest
    (first ++ others, ids)

end

end

end Outline

/-- The outline of a unit. -/
def LibrarySet.outline (set : LibrarySet) (unit : SourceUnit) : List OutlineItem :=
  (Outline.block set unit.declarations unit.tree.root).1

/-- The outline of a document. -/
def Session.outline (session : Session) (path : String) : List OutlineItem :=
  match session.unit? path with
  | none => []
  | some unit => session.libraries.outline unit

end SymbolGraph
