import SymbolGraph.Link.Types

/-!
# Linking signatures

Types of variables, parameters and results are resolved last, when members and inheritance are in
place: inside a struct, class or interface a name is looked up among the members first.
-/

namespace SymbolGraph

namespace LinkSignatures

variable (ctx : Context)

/-- What is found for a variable. -/
def ofVariable (target : DeclId) (node : VariableNode) : Findings :=
  let ty := ctx.resolveType node.ty
  ty.found ++ .ofUpdate (.variable target ⟨ty.value, node.constant⟩)

/-- What is found for something with parameters. -/
def ofCallable (target : DeclId) (params : List ParamNode) (returns : List TypeRef) : Findings :=
  let params := ctx.resolveParams params
  let returns := ctx.resolveTypes returns
  params.found ++ returns.found ++ .ofUpdate (.callable target params.value returns.value)

/-- What is found for a function. -/
def ofFunction (target : DeclId) (node : FunctionNode) : Findings :=
  ofCallable ctx target node.params node.returns

/-- The members of a declaration that are paired with nodes of a category. -/
def memberIds (owner : DeclId) (category : Category) : List DeclId :=
  (((ctx.libraries.find? owner).bind fun entry => entry.body.members? category).getD []).map
    Symbol.id

/-- What is found for the members of one category. -/
def ofMembers {α : Type} (owner : DeclId) (category : Category) (nodes : List α)
    (find : DeclId → α → Findings) : Findings :=
  .join ((nodes.zip (memberIds ctx owner category)).map fun (node, id) => find id node)

/-- What is found for a declaration and its members. -/
def findings (ctx : Context) (id : DeclId) (node : DeclNode) : Findings :=
  let inner := { ctx with within := some id }
  match node with
  | .variable node => ofVariable ctx id node
  | .function node | .native node => ofFunction ctx id node
  | .delegate node => ofCallable ctx id node.params node.returns
  | .task node =>
    let returns := ctx.resolveTypes node.returns
    returns.found ++ .ofUpdate (.task id returns.value)
  | .enum _ => {}
  | .struct node =>
    ofMembers ctx id .structVariable node.fields (ofVariable inner) ++
      ofMembers ctx id .structFunction node.functions (ofFunction inner)
  | .interface node => ofMembers ctx id .interfaceFunction node.functions (ofFunction inner)
  | .class node =>
    ofMembers ctx id .classVariable node.fields (ofVariable inner) ++
      ofMembers ctx id .constructor node.constructors
        (fun target node => ofCallable inner target node.params []) ++
      ofMembers ctx id .classFunction node.functions (ofFunction inner)

end LinkSignatures

/-- Resolve the types of every declaration and member of a document. -/
def Linkage.linkSignatures (state : Linkage) (options : LinkOptions) : Linkage :=
  state.linkEach options LinkSignatures.findings

end SymbolGraph
