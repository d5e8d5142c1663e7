import SymbolGraph.Link.Types

/-!
# Linking inheritance

An interface inherits interfaces.  A class inherits interfaces, and its first inherited type may
be a class, its parent.  Arrays are inherited by nobody.  A type that cannot be inherited is
reported and left out; a type that did not resolve has been reported already.
-/

namespace SymbolGraph

namespace LinkBases

/-- What an inherited type turns out to be. -/
inductive Role where
  | parent
  | interface
  | unresolved
  | refused (message : String)

/-- The role of a type inherited by an interface. -/
def roleForInterface (written : TypeRef) (ty : Ty) : Role :=
  if ty.isInvalid then .unresolved
  else if ty.code = .interface ∧ !ty.isArray then .interface
  else .refused s!"interface can only inherit interfaces, `{written.text}` is not one"

/-- The role of the type that a class inherits at a position. -/
def roleForClass (position : Nat) (written : TypeRef) (ty : Ty) : Role :=
  if ty.isInvalid then .unresolved
  else if ty.isArray then .refused s!"cannot inherit from array type `{written.text}`"
  else if ty.code = .handle then
    if position = 0 then .parent
    else .refused
      s!"only the first inherited type may be a class, `{written.text}` is a class"
  else if ty.code = .interface then .interface
  else .refused s!"`{written.text}` is neither a class nor an interface"

/-- One inherited type with its role. -/
structure Base where
  written : TypeRef
  resolved : Resolved Ty
  role : Role

namespace Base

/-- The type, if it is a parent class. -/
def parent? (base : Base) : Option Ty :=
  match base.role with
  | .parent => some base.resolved.value
  | _ => none

/-- The type, if it is an inherited interface. -/
def interface? (base : Base) : Option Ty :=
  match base.role with
  | .interface => some base.resolved.value
  | _ => none

/-- What is found for an inherited type of `heir`. -/
def findings (heir : DeclId) (base : Base) : Findings :=
  base.resolved.found ++
    match base.role with
    | .parent | .interface =>
      { heirs := base.resolved.value.declaration?.toList.map fun id => (id, heir) }
    | .unresolved => {}
    | .refused message => .ofDiagnostic (.error base.written.range .invalidInheritance message)

end Base

/-- The types that an interface inherits. -/
def interfaceBases (ctx : Context) (written : List TypeRef) : List Base :=
  written.map fun ref =>
    let resolved := ctx.resolveType ref
    ⟨ref, resolved, roleForInterface ref resolved.value⟩

/-- The types that a class inherits. -/
def classBases (ctx : Context) (written : List TypeRef) : List Base :=
  written.zipIdx.map fun (ref, position) =>
    let resolved := ctx.resolveType ref
    ⟨ref, resolved, roleForClass position ref resolved.value⟩

/-- What is found for the inherited types of a declaration. -/
def findingsOf (id : DeclId) (bases : List Base) : Findings :=
  .join (bases.map (Base.findings id)) ++
    .ofUpdate (.inheritance id (bases.findSome? Base.parent?) (bases.filterMap Base.interface?))

/-- What is found for a declaration. -/
def findings (ctx : Context) (id : DeclId) : DeclNode → Findings
  | .interface node => findingsOf id (interfaceBases ctx node.inherits)
  | .class node => findingsOf id (classBases ctx node.inherits)
  | _ => {}

end LinkBases

/-- Resolve the inherited types of every declaration of a document. -/
def Linkage.linkBases (state : Linkage) (options : LinkOptions) : Linkage :=
  state.linkEach options LinkBases.findings

end SymbolGraph
