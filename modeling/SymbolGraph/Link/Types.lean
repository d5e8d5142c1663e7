import SymbolGraph.Link.Findings
import SymbolGraph.Lookup.Resolve

/-!
# Linking type references

A written type resolves when its name leads to exactly one declaration that stands for a type.
Every namespace on the way and the declaration itself are recorded as references.  Anything else
gives the invalid type, with a report saying why.
-/

namespace SymbolGraph

/-- Something a link pass worked out, with what it found on the way. -/
structure Resolved (α : Type) where
  value : α
  found : Findings := {}

namespace Context

variable (ctx : Context)

/-- The place of a range in the context's document. -/
def locate (range : Range) : Location := ⟨ctx.document, range⟩

/-- The report on a name that means something other than a type. -/
def notAType (ty : TypeRef) (id : DeclId) : Diagnostic :=
  .error ty.range .notAType s!"`{ty.dotted}` is a {id.category.keyword}, not a type"

/-- The report on a name that means several declarations. -/
def severalMatches (ty : TypeRef) (ids : List DeclId) : Diagnostic :=
  let count := ids.length
  (Diagnostic.error ty.range .ambiguous
      s!"`{ty.dotted}` matches {count} declarations").relatedTo <|
    ids.filterMap fun id =>
      (ctx.libraries.find? id).map fun entry => ⟨entry.location, "candidate"⟩

/-- The type that a written type means. -/
def resolveType (ty : TypeRef) : Resolved Ty :=
  let (resolution, notes) := ctx.findPath ty.path
  let found : Findings :=
    { diagnostics := notes
      references := resolution.spaces.map fun (range, space) => (.space space, ctx.locate range) }
  match ty.name?, resolution.declarations with
  | some name, [id] =>
    let found := found ++ { references := [(.declaration id, ctx.locate name.range)] }
    let defining := Ty.defining id
    if defining.isInvalid then ⟨.invalid, found ++ .ofDiagnostic (notAType ty id)⟩
    else ⟨defining.withDimension ty.dimension, found⟩
  | some _, id :: other :: more =>
    ⟨.invalid, found ++ .ofDiagnostic (ctx.severalMatches ty (id :: other :: more))⟩
  | _, _ => ⟨.invalid, found⟩

/-- The types that written types mean. -/
def resolveTypes (types : List TypeRef) : Resolved Signature :=
  let resolved := types.map ctx.resolveType
  ⟨resolved.map Resolved.value, .join (resolved.map Resolved.found)⟩

/-- The parameters that written parameters mean. -/
def resolveParams (params : List ParamNode) : Resolved (List Parameter) :=
  let resolved := params.map fun param => (param, ctx.resolveType param.ty)
  ⟨resolved.map fun (param, ty) => ⟨param.name.map Ident.name, ty.value⟩,
    .join (resolved.map fun (_, ty) => ty.found)⟩

end Context

/-- Whether names that are not found come with a suggestion. -/
structure LinkOptions where
  suggestions : Bool := true
deriving DecidableEq, Repr, Inhabited

namespace Linkage

/-- The context in which a declaration of the document is linked. -/
def context (state : Linkage) (options : LinkOptions) (scope : DeclScope) : Context where
  libraries := state.libraries
  document := state.unit.path
  space := ⟨state.unit.library, scope.space⟩
  imports := scope.imports
  suggestions := options.suggestions

/-- Collect findings for every declaration of the document in its context, then write them
down. -/
def linkEach (state : Linkage) (options : LinkOptions)
    (find : Context → DeclId → DeclNode → Findings) : Linkage :=
  state.apply <| .join <|
    ((state.unit.declarations.zip state.unit.nodes).zip state.unit.scopes).map
      fun ((id, node), scope) => find (state.context options scope) id node

end Linkage

end SymbolGraph
