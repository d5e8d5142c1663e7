import SymbolGraph.Inheritance

/-!
# Where a name is looked up, and what is visible there

A `Context` is the place from which a name is looked up: the loaded libraries, the document, the
current namespace, the imported namespaces, and the enclosing declaration if there is one.

`Context.isVisible` decides whether a declaration may be referred to from there.  Everything in
the kernel is visible.  Of other libraries only what is public is, apart from protected members of
an ancestor class.  Inside a library a top-level declaration is judged by its own modifier, and a
member by that of its owner and then by its own.
-/

namespace SymbolGraph

/-- The place from which names are looked up. -/
structure Context where
  libraries : LibrarySet
  /-- The document being linked. -/
  document : String
  /-- The current namespace. -/
  space : SpaceRef
  /-- The imported namespaces, in the order of their directives. -/
  imports : List SpaceRef := []
  /-- The enclosing declaration, for lookups inside a struct or class. -/
  within : Option DeclId := none
  /-- Whether near misses are suggested. -/
  suggestions : Bool := true

namespace Context

variable (ctx : Context)

/-- The context lies in the namespace of a declaration of its own library, or below it. -/
def withinSpaceOf (entry : Entry) : Bool :=
  entry.id.library = ctx.space.library &&
    match ctx.libraries.get? ctx.space.library with
    | some lib => lib.spaces.isWithin ctx.space.space entry.space
    | none => false

/-- The enclosing class has `id` on its parent chain. -/
def inheritsFrom (id : DeclId) : Bool :=
  match ctx.within with
  | some current => id ∈ ctx.libraries.classAncestors current
  | none => false

/-- Visibility of a top-level declaration of the context's own library. -/
def seesLocal (entry : Entry) : Bool :=
  match entry.visibility with
  | .pub | .internal => true
  | .space => ctx.withinSpaceOf entry
  | .priv | .prot => entry.document = ctx.document

/-- Visibility of a member of the context's own library. -/
def seesLocalMember (member owner : Entry) : Bool :=
  ctx.within = some owner.id ||
    ctx.seesLocal owner &&
      match member.visibility with
      | .pub | .internal => true
      | .space => ctx.withinSpaceOf member
      | .priv | .prot => ctx.inheritsFrom owner.id

/-- Visibility of a member of another library. -/
def seesForeignMember (member owner : Entry) : Bool :=
  match member.visibility with
  | .pub => owner.visibility = .pub
  | .prot => ctx.within = some owner.id || ctx.inheritsFrom owner.id
  | _ => false

/-- Whether a declaration may be referred to from this context. -/
def isVisible (id : DeclId) : Bool :=
  id.library = .kernel ||
    match ctx.libraries.find? id with
    | none => false
    | some entry =>
      match id.owner? with
      | none =>
        if id.library = ctx.space.library then ctx.seesLocal entry else entry.visibility = .pub
      | some ownerId =>
        match ctx.libraries.find? ownerId with
        | none => false
        | some owner =>
          if id.library = ctx.space.library then ctx.seesLocalMember entry owner
          else ctx.seesForeignMember entry owner

/-- The visible part of a group. -/
def visible (group : List DeclId) : List DeclId := group.filter ctx.isVisible

@[simp] theorem mem_visible (group : List DeclId) (id : DeclId) :
    id ∈ ctx.visible group ↔ id ∈ group ∧ ctx.isVisible id = true := by
  simp [visible]

/-- The current namespace and those around it, nearest first. -/
def enclosing : List SpaceRef :=
  match ctx.libraries.get? ctx.space.library with
  | some lib => (lib.spaces.ancestors ctx.space.space).map fun id => ⟨ctx.space.library, id⟩
  | none => []

/-- The imported namespaces, and behind them the root of the kernel. -/
def importScopes : List SpaceRef := addNew ctx.imports LibrarySet.kernelRoot

/-- The namespaces that a simple name is looked up in, in order. -/
def searchScopes : List SpaceRef := ctx.enclosing ++ ctx.importScopes

/-- The declarations of a name in a namespace. -/
def groupIn (name : String) (scope : SpaceRef) : List DeclId :=
  ((ctx.libraries.space? scope).map fun space => space.group name).getD []

end Context

end SymbolGraph
