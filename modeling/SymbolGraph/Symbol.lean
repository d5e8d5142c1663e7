import SymbolGraph.Text.Range
import SymbolGraph.Ty
import SymbolGraph.Visibility

/-!
# Linked declarations

A `Symbol` is what the model knows of one declaration: where and how it is declared, which places
refer to it, and a *body* that holds what linking finds out.  Members have small bodies
(`Leaf`: a variable, a callable or an enum's element); top-level declarations may also be tasks,
or own members (`Body`).  So a member never owns members, and no recursion is needed to walk a
declaration.

A symbol is created with the *fresh* body of its category and returns to it when its document is
unlinked.  Reference sets are not part of the body: they belong to the referring documents.

An `Edit` changes one symbol wherever it sits, in a table or in a member list of its owner.
-/

namespace SymbolGraph

/-! ## Bodies -/

/-- A parameter of a callable. -/
structure Parameter where
  name : Option String
  ty : Ty
deriving DecidableEq, Repr, Inhabited

/-- The functions to which a member function is tied by inheritance. -/
structure Relations where
  /-- Functions further up that this one overrides. -/
  overrides : List DeclId := []
  /-- Functions further down that override this one. -/
  overriddenBy : List DeclId := []
  /-- Interface functions that this class function implements. -/
  implements : List DeclId := []
  /-- Class functions that implement this interface function. -/
  implementedBy : List DeclId := []
deriving DecidableEq, Repr, Inhabited

namespace Relations

/-- All related functions, list by list. -/
def all (r : Relations) : List DeclId :=
  r.overrides ++ r.overriddenBy ++ r.implements ++ r.implementedBy

/-- Take a function out of all four lists. -/
def without (r : Relations) (gone : DeclId) : Relations :=
  ⟨r.overrides.filter (· ≠ gone), r.overriddenBy.filter (· ≠ gone),
    r.implements.filter (· ≠ gone), r.implementedBy.filter (· ≠ gone)⟩

@[simp] theorem all_without (r : Relations) (gone : DeclId) :
    (r.without gone).all = r.all.filter (· ≠ gone) := by
  simp [all, without]

end Relations

/-- What linking knows of something with parameters. -/
structure Callable where
  params : List Parameter := []
  returns : Signature := []
  relations : Relations := {}
deriving DecidableEq, Repr, Inhabited

/-- The parameter types: the key by which overloads are told apart. -/
def Callable.signature (c : Callable) : Signature := c.params.map Parameter.ty

/-- What linking knows of a variable. -/
structure VariableInfo where
  ty : Ty := .invalid
  constant : Bool := false
deriving DecidableEq, Repr, Inhabited

/-- The body of a declaration that owns nothing. -/
inductive Leaf where
  | variable (info : VariableInfo)
  | callable (info : Callable)
  | element
deriving DecidableEq, Repr, Inhabited

namespace Leaf

/-- The body of a category before linking. -/
def fresh (category : Category) : Leaf :=
  match category with
  | .variable | .structVariable | .classVariable => .variable {}
  | .enumElement => .element
  | _ => .callable {}

/-- The callable in a body. -/
def callable? : Leaf → Option Callable
  | .callable info => some info
  | _ => none

/-- Change the callable in a body. -/
def overCallable (f : Callable → Callable) : Leaf → Leaf
  | .callable info => .callable (f info)
  | leaf => leaf

end Leaf

/-- One declaration with a body of type `β`. -/
structure Symbol (β : Type) where
  name : String
  nameRange : Range
  document : String
  /-- The namespace of the declaration; members have that of their owner. -/
  space : SpaceId
  id : DeclId
  visibility : Visibility
  /-- The places that refer to this declaration, in the order in which they were found. -/
  references : List Location := []
  /-- Cleared when the declaration is malformed, so that later passes skip it. -/
  valid : Bool := true
  body : β
deriving DecidableEq, Repr

namespace Symbol

variable {β γ : Type}

/-- Where the declaration's name stands. -/
def location (s : Symbol β) : Location := ⟨s.document, s.nameRange⟩

/-- The category of the declaration. -/
def category (s : Symbol β) : Category := s.id.category

/-- Change the body. -/
def map (f : β → γ) (s : Symbol β) : Symbol γ := { s with body := f s.body }

@[simp] theorem body_map (f : β → γ) (s : Symbol β) : (s.map f).body = f s.body := rfl

@[simp] theorem id_map (f : β → γ) (s : Symbol β) : (s.map f).id = s.id := rfl

@[simp] theorem name_map (f : β → γ) (s : Symbol β) : (s.map f).name = s.name := rfl

@[simp] theorem references_map (f : β → γ) (s : Symbol β) :
    (s.map f).references = s.references := rfl

/-- A declaration as it is first met. -/
def declare (name : Ident) (document : String) (space : SpaceId) (id : DeclId)
    (visibility : Visibility) (body : β) : Symbol β :=
  ⟨name.name, name.range, document, space, id, visibility, [], true, body⟩

end Symbol

/-- A member of a declaration. -/
abbrev Member := Symbol Leaf

/-- A member as it is first met. -/
def Member.new (name : Ident) (document : String) (space : SpaceId) (id : DeclId)
    (visibility : Visibility) : Member :=
  .declare name document space id visibility (.fresh id.category)

/-- What linking knows of an interface. -/
structure InterfaceInfo where
  inherits : List Ty := []
  functions : List Member := []
  /-- Interfaces and classes that inherit this one. -/
  implementors : List DeclId := []
deriving DecidableEq, Repr, Inhabited

/-- What linking knows of a class. -/
structure ClassInfo where
  parent : Option Ty := none
  inherits : List Ty := []
  fields : List Member := []
  constructors : List Member := []
  functions : List Member := []
  /-- Classes whose parent is this one. -/
  implementors : List DeclId := []
deriving DecidableEq, Repr, Inhabited

/-- The body of a top-level declaration. -/
inductive Body where
  | leaf (part : Leaf)
  | task (returns : Signature)
  | enum (elements : List Member)
  | struct (fields functions : List Member)
  | interface (info : InterfaceInfo)
  | class (info : ClassInfo)
  | invalid
deriving DecidableEq, Repr, Inhabited

namespace Body

/-- The body of a category before linking. -/
def fresh (category : Category) : Body :=
  match category with
  | .invalid => .invalid
  | .task => .task []
  | .enum => .enum []
  | .struct => .struct [] []
  | .interface => .interface {}
  | .class => .class {}
  | other => .leaf (.fresh other)

/-- The member list of a category, if the body has one. -/
def members? : Body → Category → Option (List Member)
  | .enum elements, .enumElement => some elements
  | .struct fields _, .structVariable => some fields
  | .struct _ functions, .structFunction => some functions
  | .interface info, .interfaceFunction => some info.functions
  | .class info, .classVariable => some info.fields
  | .class info, .constructor => some info.constructors
  | .class info, .classFunction => some info.functions
  | _, _ => none

/-- Change the member list of a category, if the body has one. -/
def overMembers (category : Category) (f : List Member → List Member) (body : Body) : Body :=
  match body, category with
  | .enum elements, .enumElement => .enum (f elements)
  | .struct fields functions, .structVariable => .struct (f fields) functions
  | .struct fields functions, .structFunction => .struct fields (f functions)
  | .interface info, .interfaceFunction => .interface { info with functions := f info.functions }
  | .class info, .classVariable => .class { info with fields := f info.fields }
  | .class info, .constructor => .class { info with constructors := f info.constructors }
  | .class info, .classFunction => .class { info with functions := f info.functions }
  | body, _ => body

@[simp] theorem members?_overMembers (body : Body) (category category' : Category)
    (f : List Member → List Member) :
    (body.overMembers category f).members? category' =
      if category = category' then (body.members? category').map f
      else body.members? category' := by
  cases body <;> cases category <;> cases category' <;> rfl

/-- Every member, list by list. -/
def allMembers : Body → List Member
  | .enum elements => elements
  | .struct fields functions => fields ++ functions
  | .interface info => info.functions
  | .class info => info.fields ++ info.constructors ++ info.functions
  | _ => []

/-- The member functions. -/
def functions : Body → List Member
  | .struct _ functions => functions
  | .interface info => info.functions
  | .class info => info.functions
  | _ => []

/-- The callable in a body. -/
def callable? : Body → Option Callable
  | .leaf part => part.callable?
  | _ => none

/-- The class in a body. -/
def class? : Body → Option ClassInfo
  | .class info => some info
  | _ => none

/-- The interface in a body. -/
def interface? : Body → Option InterfaceInfo
  | .interface info => some info
  | _ => none

/-- The declarations that inherit this one; only classes and interfaces keep such a list. -/
def implementors? : Body → Option (List DeclId)
  | .interface info => some info.implementors
  | .class info => some info.implementors
  | _ => none

/-- Change the list of inheriting declarations, if there is one. -/
def overImplementors (f : List DeclId → List DeclId) : Body → Body
  | .interface info => .interface { info with implementors := f info.implementors }
  | .class info => .class { info with implementors := f info.implementors }
  | body => body

/-- The parent class of a class, as a declaration. -/
def parent? (body : Body) : Option DeclId :=
  (body.class?.bind ClassInfo.parent).bind Ty.declaration?

/-- The interfaces that an interface inherits, as declarations. -/
def superInterfaces (body : Body) : List DeclId :=
  match body.interface? with
  | some info => info.inherits.filterMap Ty.declaration?
  | none => []

end Body

/-- A top-level declaration. -/
abbrev Entry := Symbol Body

namespace Entry

/-- A top-level declaration as it is first met. -/
def new (name : Ident) (document : String) (space : SpaceId) (id : DeclId)
    (visibility : Visibility) : Entry :=
  .declare name document space id visibility (.fresh id.category)

/-- Members that a simple name reaches.  Constructors carry the name of their class and are
never reached by it. -/
def membersNamed (entry : Entry) (name : String) : List DeclId :=
  (entry.body.allMembers.filter fun m => m.name = name ∧ m.category ≠ .constructor).map Symbol.id

end Entry

/-- A member seen as a declaration like any other. -/
def Member.toEntry (member : Member) : Entry := member.map Body.leaf

/-! ## Edits -/

/-- A change of one symbol, whether it is top-level or a member. -/
structure Edit where
  onEntry : Entry → Entry
  onMember : Member → Member

namespace Edit

/-- Change the reference set. -/
def references (f : List Location → List Location) : Edit :=
  ⟨fun s => { s with references := f s.references },
    fun s => { s with references := f s.references }⟩

/-- Change the callable of a symbol that has one. -/
def callable (f : Callable → Callable) : Edit :=
  ⟨fun s => s.map fun
      | .leaf part => .leaf (part.overCallable f)
      | body => body,
    fun s => s.map (Leaf.overCallable f)⟩

/-- Give the symbol a body that owns nothing. -/
def setLeaf (leaf : Leaf) : Edit := ⟨fun s => s.map fun _ => .leaf leaf,
    fun s => s.map fun _ => leaf⟩

/-- Change the body of a top-level declaration. -/
def body (f : Body → Body) : Edit := ⟨fun s => s.map f, id⟩

/-- Go back to the body before linking. -/
def reset : Edit :=
  ⟨fun s => { s with body := .fresh s.id.category },
    fun s => { s with body := .fresh s.id.category }⟩

end Edit

end SymbolGraph
