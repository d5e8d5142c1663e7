import SymbolGraph.Interchange.Values

/-!
# Written forms of declaration trees
-/

namespace SymbolGraph

instance : Interchange TypeRef where
  encode ty := .object
    [("path", encode ty.path), ("dimension", encode ty.dimension), ("range", encode ty.range)]
  decode? datum := do
    let r ← datum.record? ["path", "dimension", "range"]
    return ⟨← r.required "path", ← r.required "dimension", ← r.required "range"⟩

instance : Interchange VariableNode where
  encode node := .object
    [("visibility", encode node.visibility), ("constant", encode node.constant),
      ("name", encode node.name), ("ty", encode node.ty)]
  decode? datum := do
    let r ← datum.record? ["visibility", "constant", "name", "ty"]
    return ⟨← r.required "visibility", ← r.required "constant", ← r.required "name",
      ← r.required "ty"⟩

instance : Interchange ParamNode where
  encode node := .object [("name", encode node.name), ("ty", encode node.ty)]
  decode? datum := do
    let r ← datum.record? ["name", "ty"]
    return ⟨← r.optional "name", ← r.required "ty"⟩

instance : Interchange FunctionNode where
  encode node := .object
    [("visibility", encode node.visibility), ("name", encode node.name),
      ("params", encode node.params), ("returns", encode node.returns)]
  decode? datum := do
    let r ← datum.record? ["visibility", "name", "params", "returns"]
    return ⟨← r.required "visibility", ← r.required "name", ← r.required "params",
      ← r.required "returns"⟩

instance : Interchange EnumNode where
  encode node := .object
    [("visibility", encode node.visibility), ("name", encode node.name),
      ("elements", encode node.elements)]
  decode? datum := do
    let r ← datum.record? ["visibility", "name", "elements"]
    return ⟨← r.required "visibility", ← r.required "name", ← r.required "elements"⟩

instance : Interchange StructNode where
  encode node := .object
    [("visibility", encode node.visibility), ("name", encode node.name),
      ("variables", encode node.fields), ("functions", encode node.functions)]
  decode? datum := do
    let r ← datum.record? ["visibility", "name", "variables", "functions"]
    return ⟨← r.required "visibility", ← r.required "name", ← r.required "variables",
      ← r.required "functions"⟩

instance : Interchange InterfaceNode where
  encode node := .object
    [("visibility", encode node.visibility), ("name", encode node.name),
      ("inherits", encode node.inherits), ("functions", encode node.functions)]
  decode? datum := do
    let r ← datum.record? ["visibility", "name", "inherits", "functions"]
    return ⟨← r.required "visibility", ← r.required "name", ← r.required "inherits",
      ← r.required "functions"⟩

instance : Interchange ConstructorNode where
  encode node := .object
    [("visibility", encode node.visibility), ("name", encode node.name),
      ("params", encode node.params)]
  decode? datum := do
    let r ← datum.record? ["visibility", "name", "params"]
    return ⟨← r.required "visibility", ← r.required "name", ← r.required "params"⟩

instance : Interchange ClassNode where
  encode node := .object
    [("visibility", encode node.visibility), ("name", encode node.name),
      ("inherits", encode node.inherits), ("variables", encode node.fields),
      ("constructors", encode node.constructors), ("functions", encode node.functions)]
  decode? datum := do
    let r ← datum.record? ["visibility", "name", "inherits", "variables", "constructors",
      "functions"]
    return ⟨← r.required "visibility", ← r.required "name", ← r.required "inherits",
      ← r.required "variables", ← r.required "constructors", ← r.required "functions"⟩

instance : Interchange DelegateNode where
  encode node := .object
    [("visibility", encode node.visibility), ("name", encode node.name),
      ("params", encode node.params), ("returns", encode node.returns)]
  decode? datum := do
    let r ← datum.record? ["visibility", "name", "params", "returns"]
    return ⟨← r.required "visibility", ← r.required "name", ← r.required "params",
      ← r.required "returns"⟩

instance : Interchange TaskNode where
  encode node := .object
    [("visibility", encode node.visibility), ("name", encode node.name),
      ("returns", encode node.returns)]
  decode? datum := do
    let r ← datum.record? ["visibility", "name", "returns"]
    return ⟨← r.required "visibility", ← r.required "name", ← r.required "returns"⟩

namespace DeclNode

/-- The name of the choice that a declaration is. -/
def choiceName : DeclNode → String
  | .variable _ => "Variable"
  | .function _ => "Function"
  | .native _ => "Native"
  | .enum _ => "Enum"
  | .struct _ => "Struct"
  | .interface _ => "Interface"
  | .class _ => "Class"
  | .delegate _ => "Delegate"
  | .task _ => "Task"

/-- The written form of what a declaration holds. -/
def content : DeclNode → Datum
  | .variable node => encode node
  | .function node | .native node => encode node
  | .enum node => encode node
  | .struct node => encode node
  | .interface node => encode node
  | .class node => encode node
  | .delegate node => encode node
  | .task node => encode node

/-- The declaration of a choice with its content. -/
def ofChoice? (choice : String) (content : Datum) : Option DeclNode :=
  match choice with
  | "Variable" => (decode? content).map .variable
  | "Function" => (decode? content).map .function
  | "Native" => (decode? content).map .native
  | "Enum" => (decode? content).map .enum
  | "Struct" => (decode? content).map .struct
  | "Interface" => (decode? content).map .interface
  | "Class" => (decode? content).map .class
  | "Delegate" => (decode? content).map .delegate
  | "Task" => (decode? content).map .task
  | _ => none

end DeclNode

/-- A declaration is written as an object with the name of its choice as the only field. -/
instance : Interchange DeclNode where
  encode node := .object [(node.choiceName, node.content)]
  decode? datum := datum.variant?.bind fun (choice, content) => DeclNode.ofChoice? choice content

instance : Interchange ImportNode where
  encode node := .object [("path", encode node.path), ("range", encode node.range)]
  decode? datum := do
    let r ← datum.record? ["path", "range"]
    return ⟨← r.required "path", ← r.required "range"⟩

namespace SpaceNode

/-- The fields of a namespace block. -/
def fieldNames : List String := ["name", "imports", "children", "declarations"]

mutual

/-- The written form of a block. -/
def toDatum : SpaceNode → Datum
  | ⟨name, imports, children, declarations⟩ => .object
    [("name", encode name), ("imports", encode imports), ("children", .list (toData children)),
      ("declarations", encode declarations)]

/-- The written forms of blocks. -/
def toData : List SpaceNode → List Datum
  | [] => []
  | node :: rest => toDatum node :: toData rest

end

/-- The block of a written form. -/
def ofDatum? (datum : Datum) : Option SpaceNode :=
  match h : datum.fieldItems? fieldNames "children" with
  | none => none
  | some items => do
    let r ← datum.record? fieldNames
    let children ← items.attach.mapM fun item => ofDatum? item.1
    return ⟨← r.optional "name", ← r.required "imports", children,
      ← r.required "declarations"⟩
termination_by sizeOf datum
decreasing_by exact Datum.sizeOf_lt_of_mem_fieldItems? h item.2

end SpaceNode

instance : Interchange SpaceNode where
  encode := SpaceNode.toDatum
  decode? := SpaceNode.ofDatum?

instance : Interchange FileTree where
  encode tree := .object [("path", encode tree.path), ("root", encode tree.root)]
  decode? datum := do
    let r ← datum.record? ["path", "root"]
    return ⟨← r.required "path", ← r.required "root"⟩

end SymbolGraph
