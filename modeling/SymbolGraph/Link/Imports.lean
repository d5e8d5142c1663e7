import SymbolGraph.Link.Findings

/-!
# Linking import directives

An import directive names a namespace: its first segment is a library, or a namespace at the root
of the importing library or of the kernel, and the further segments are exact children.  A
directive holds for its block and the blocks nested in it, so each declaration is linked under the
directives of the blocks around it, outermost first and each namespace once.
-/

namespace SymbolGraph

namespace LinkImports

/-- The namespaces along a list of segments below a namespace; `none` if one is missing. -/
def descend (set : LibrarySet) (space : SpaceRef) : List Ident → Option (List (Range × SpaceRef))
  | [] => some []
  | segment :: rest => do
    let child ← set.child? space segment.name
    return (segment.range, child) :: (← descend set child rest)

/-- The namespace that the first segment of a directive names. -/
def start? (set : LibrarySet) (library : LibraryId) (name : String) : Option SpaceRef :=
  ((set.named? name).bind set.root?)
    <|> ((set.root? library).bind fun root => set.child? root name)
    <|> set.child? LibrarySet.kernelRoot name

/-- The namespaces that the segments of a directive name. -/
def resolve? (set : LibrarySet) (library : LibraryId) (directive : ImportNode) :
    Option (List (Range × SpaceRef)) :=
  match directive.path with
  | [] => none
  | first :: rest => do
    let start ← start? set library first.name
    return (first.range, start) :: (← descend set start rest)

/-- The report on a directive that names nothing. -/
def notFound (directive : ImportNode) : Diagnostic :=
  let dotted := Dotted.joinNames (directive.path.map Ident.name)
  .error directive.range .importNotFound s!"cannot find import `{dotted}`"

/-- What is found for a directive. -/
def findings (set : LibrarySet) (library : LibraryId) (document : String)
    (directive : ImportNode) : Findings :=
  match resolve? set library directive with
  | some segments =>
    { references := segments.map fun (range, space) => (.space space, ⟨document, range⟩) }
  | none => .ofDiagnostic (notFound directive)

/-- The namespace that a directive brings into scope. -/
def imported? (set : LibrarySet) (library : LibraryId) (directive : ImportNode) :
    Option SpaceRef :=
  (resolve? set library directive).bind fun segments => segments.getLast?.map Prod.snd

/-- The imports in effect inside a block, given those around it. -/
def inEffect (set : LibrarySet) (library : LibraryId) (outer : List SpaceRef)
    (directives : List ImportNode) : List SpaceRef :=
  addAllNew outer (directives.filterMap (imported? set library))

/-- The namespace of a nested block; a block without a name belongs to the one around it. -/
def blockSpace? (set : LibrarySet) (library : LibraryId) (space : SpaceId) :
    Option Ident → Option SpaceId
  | none => some space
  | some name => (set.get? library).bind fun lib => lib.spaces.child? space name.name

section

variable (set : LibrarySet) (library : LibraryId) (document : String)

mutual

/-- The scopes of all declarations of a block and what its directives are found to mean. -/
def block (space : SpaceId) (outer : List SpaceRef) : SpaceNode → List DeclScope × Findings
  | ⟨_, imports, children, declarations⟩ =>
    let inner := inEffect set library outer imports
    let own := Findings.join (imports.map (findings set library document))
    let (scopes, nested) := blocks space inner children
    (scopes ++ declarations.map fun _ => ⟨space, inner⟩, own ++ nested)

/-- The same for nested blocks in order; a block whose namespace is missing is passed over. -/
def blocks (space : SpaceId) (outer : List SpaceRef) : List SpaceNode → List DeclScope × Findings
  | [] => ([], {})
  | child :: rest =>
    let (first, found) := match blockSpace? set library space child.name with
      | some id => block id outer child
      | none => ([], {})
    let (scopes, others) := blocks space outer rest
    (first ++ scopes, found ++ others)

end

end

end LinkImports

/-- Resolve the import directives of a document and record the scope of each declaration. -/
def Linkage.linkImports (state : Linkage) : Linkage :=
  let unit := state.unit
  let (scopes, found) := match state.libraries.get? unit.library with
    | some _ =>
      LinkImports.block state.libraries unit.library unit.path Arena.root [] unit.tree.root
    | none => ([], {})
  Linkage.apply { state with unit := { unit with scopes } } found

end SymbolGraph
