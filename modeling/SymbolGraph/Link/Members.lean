import SymbolGraph.Link.Findings
import SymbolGraph.Naming

/-!
# Declaring members

Members get their identity from their position: the index is the place in the member list of
their category and `define` is the index of the owner.  A member whose name is no identifier, and
a function that has the name of its class, are declared all the same, marked invalid and reported;
constructors have the name of their class by nature.
-/

namespace SymbolGraph

/-- A member as written: its category, position, name and modifier. -/
structure MemberNode where
  category : Category
  position : Nat
  name : Ident
  visibility : Visibility

namespace DeclNode

/-- Members of one category in order. -/
def membersOf {α : Type} (category : Category) (name : α → Ident) (visibility : α → Visibility)
    (nodes : List α) : List MemberNode :=
  nodes.zipIdx.map fun (node, position) => ⟨category, position, name node, visibility node⟩

/-- The members of a declaration, list by list.  Elements of enums and functions of interfaces are
public. -/
def memberNodes : DeclNode → List MemberNode
  | .enum node => membersOf .enumElement (fun element => element) (fun _ => .pub) node.elements
  | .struct node =>
    membersOf .structVariable VariableNode.name VariableNode.visibility node.fields ++
      membersOf .structFunction FunctionNode.name FunctionNode.visibility node.functions
  | .interface node =>
    membersOf .interfaceFunction FunctionNode.name (fun _ => .pub) node.functions
  | .class node =>
    membersOf .classVariable VariableNode.name VariableNode.visibility node.fields ++
      membersOf .constructor ConstructorNode.name ConstructorNode.visibility
        node.constructors ++
      membersOf .classFunction FunctionNode.name FunctionNode.visibility node.functions
  | _ => []

end DeclNode

namespace LinkMembers

/-- The report on a member that may not have its name, if it may not. -/
def nameProblem? (owner : Entry) (node : MemberNode) : Option Diagnostic :=
  if node.category ≠ .constructor ∧ !isIdentifier node.name.name then
    some (.error node.name.range .invalidIdentifier
      s!"`{node.name.name}` is not a valid member name")
  else if node.category = .classFunction ∧ node.name.name = owner.name then
    some (.error node.name.range .memberNamedAfterClass
      s!"member function cannot share the class name `{owner.name}`")
  else none

/-- The identity of a member. -/
def memberId (owner : DeclId) (node : MemberNode) : DeclId :=
  ⟨owner.library, node.category, node.position, some owner.index⟩

/-- The member that a node declares. -/
def member (document : String) (ownerId : DeclId) (owner : Entry) (node : MemberNode) : Member :=
  { Member.new node.name document owner.space (memberId ownerId node) node.visibility with
    valid := (nameProblem? owner node).isNone }

/-- Put a member at the end of the list of its category. -/
def addMember (member : Member) (body : Body) : Body :=
  body.overMembers member.category (· ++ [member])

/-- Declare the members of one declaration. -/
def declareFor (state : Linkage) (declared : DeclId × DeclNode) : Linkage :=
  let (id, node) := declared
  match state.libraries.find? id with
  | none => state
  | some owner =>
    let members := node.memberNodes.map (member state.unit.path id owner)
    let occurrences := members.map fun m => ⟨m.nameRange, .declaration m.id, true, true⟩
    { libraries := state.libraries.edit id
        (.body fun body => members.foldl (fun body m => addMember m body) body)
      unit := { state.unit with
        occurrences := state.unit.occurrences ++ occurrences
        diagnostics := state.unit.diagnostics.append .link
          (node.memberNodes.filterMap (nameProblem? owner)) } }

end LinkMembers

/-- Declare the members of every declaration of a document. -/
def Linkage.declareMembers (state : Linkage) : Linkage :=
  (state.unit.declarations.zip state.unit.nodes).foldl LinkMembers.declareFor state

end SymbolGraph
