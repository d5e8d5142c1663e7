import SymbolGraph.Diagnostic
import SymbolGraph.Lookup.Context
import SymbolGraph.Text.EditDistance

/-!
# Name lookup

A simple name is looked up among the members of the enclosing struct or class (for a class, then
of its ancestors), and if no member is visible, in the enclosing namespaces nearest first, then in
the imported ones and the kernel; the first namespace with a visible declaration of the name wins
(`Context.find`).

A dotted name is looked up by its first segment (`Context.findSpace`): the nearest
enclosing namespace with such a child wins, else the imports, the library of that name and the
kernel are asked, and several answers are ambiguous.  The further segments must match exactly
(`Context.findPath`).

Operators are looked up everywhere at once (`Context.operations`).
-/

namespace SymbolGraph

/-! ## Messages -/

namespace Message

/-- Nothing of that name exists where it was looked for. -/
def notFound (name : Ident) (what : String) (suggestion : Option String) : Diagnostic :=
  let hint := match suggestion with
    | some near => s!". Did you mean `{near}`?"
    | none => ""
  .error name.range .notFound (s!"cannot find {what} `{name.name}`" ++ hint)

/-- Something of that name exists, and none of it is visible. -/
def notAccessible (name : Ident) : Diagnostic :=
  .error name.range .notFound s!"`{name.name}` is not accessible here"

/-- Several namespaces answer to a name; each comes with its full name and the first place that
refers to it. -/
def ambiguousSpace (name : Ident) (candidates : List (String × Option Location)) : Diagnostic :=
  let first := (candidates.head?.map Prod.fst).getD ""
  let count := candidates.length
  (Diagnostic.error name.range .ambiguous
      s!"`{name.name}` is ambiguous between {count} namespaces, using `{first}`").relatedTo <|
    candidates.filterMap fun (full, location) =>
      location.map fun location => ⟨location, s!"candidate `{full}`"⟩

end Message

/-- The outcome of a dotted lookup. -/
structure PathResolution where
  /-- The namespaces that resolved, each with the range that names it. -/
  spaces : List (Range × SpaceRef) := []
  declarations : List DeclId := []
deriving DecidableEq, Repr, Inhabited

namespace Context

variable (ctx : Context)

/-! ## Namespaces -/

/-- The full name of a namespace with that of its library, and the first place that refers to
it. -/
def describeSpace (space : SpaceRef) : String × Option Location :=
  match ctx.libraries.get? space.library with
  | none => ("", none)
  | some lib =>
    let full := lib.spaces.fullName space.space
    (if full.isEmpty then lib.name else s!"{lib.name}.{full}",
      (lib.spaces.get? space.space).bind fun node => node.references.head?)

/-- The namespaces that a leading segment may mean when no enclosing namespace has such a child:
children of the imports, the library of that name, a child of the kernel's root. -/
def spaceCandidates (name : String) : List SpaceRef :=
  addAllNew [] <|
    ctx.imports.filterMap (fun scope => ctx.libraries.child? scope name) ++
    ((ctx.libraries.named? name).bind ctx.libraries.root?).toList ++
    (ctx.libraries.child? LibrarySet.kernelRoot name).toList

/-- Resolve the leading segment of a dotted name. -/
def findSpace (name : Ident) : Option SpaceRef × List Diagnostic :=
  match ctx.enclosing.findSome? fun scope => ctx.libraries.child? scope name.name with
  | some found => (some found, [])
  | none =>
    let candidates := ctx.spaceCandidates name.name
    (candidates.head?,
      if 1 < candidates.length then
        [Message.ambiguousSpace name (candidates.map ctx.describeSpace)]
      else [])

/-! ## Declarations -/

/-- The enclosing declaration and, for a class, its ancestors: where members are looked up. -/
def memberLevels : List DeclId :=
  match ctx.within with
  | none => []
  | some id =>
    match id.category with
    | .struct => [id]
    | .class => id :: ctx.libraries.classAncestors id
    | _ => []

/-- The visible members of a name at one level. -/
def membersAt (name : String) (level : DeclId) : List DeclId :=
  match ctx.libraries.find? level with
  | some entry => ctx.visible (entry.membersNamed name)
  | none => []

/-- The first non-empty list among those that `f` gives, or the empty list. -/
def firstNonEmpty {α β : Type} (f : α → List β) : List α → List β
  | [] => []
  | x :: xs => if (f x).isEmpty then firstNonEmpty f xs else f x

/-- The visible members of a name at the nearest level that has any. -/
def findMember (name : String) : List DeclId := firstNonEmpty (ctx.membersAt name) ctx.memberLevels

/-- The names that a simple lookup would find, in search order. -/
def namesInScope : List String :=
  ctx.searchScopes.foldl (fun names scope =>
    match ctx.libraries.space? scope with
    | some space =>
      addAllNew names <|
        (space.groups.filter fun (_, group) => !(ctx.visible group).isEmpty).map Prod.fst
    | none => names) []

/-- The report on a simple name that was not found. -/
def reportMissing (name : Ident) : Diagnostic :=
  if ctx.searchScopes.any fun scope => !(ctx.groupIn name.name scope).isEmpty then
    Message.notAccessible name
  else
    Message.notFound name "declaration"
      (if ctx.suggestions then nearest name.name ctx.namesInScope else none)

/-- The visible declarations of a name in the first namespace that has any. -/
def findInScopes (name : String) : List DeclId :=
  firstNonEmpty (fun scope => ctx.visible (ctx.groupIn name scope)) ctx.searchScopes

/-- Resolve a simple name. -/
def find (name : Ident) : List DeclId × List Diagnostic :=
  let members := ctx.findMember name.name
  if !members.isEmpty then (members, [])
  else
    let found := ctx.findInScopes name.name
    (found, if found.isEmpty then [ctx.reportMissing name] else [])

/-- Go down from a namespace by exact names: the namespaces on the way, and the last one or the
segment that has no namespace. -/
def descend (space : SpaceRef) : List Ident → List (Range × SpaceRef) × Except Ident SpaceRef
  | [] => ([], .ok space)
  | segment :: rest =>
    match ctx.libraries.child? space segment.name with
    | none => ([], .error segment)
    | some child =>
      let (spaces, last) := descend child rest
      ((segment.range, child) :: spaces, last)

/-- Resolve a name in the namespace that its leading segments lead to. -/
def findIn (space : SpaceRef) (name : Ident) : List DeclId × List Diagnostic :=
  let group := ctx.groupIn name.name space
  let found := ctx.visible group
  (found,
    if !found.isEmpty then []
    else if group.isEmpty then [Message.notFound name "declaration" none]
    else [Message.notAccessible name])

/-- Resolve a name behind at least one leading segment. -/
def findBehind (first : Ident) (rest : List Ident) (last : Ident) :
    PathResolution × List Diagnostic :=
  match ctx.findSpace first with
  | (none, notes) => ({}, notes ++ [Message.notFound first "namespace" none])
  | (some space, notes) =>
    match ctx.descend space rest with
    | (spaces, .error segment) =>
      (⟨(first.range, space) :: spaces, []⟩,
        notes ++ [Message.notFound segment "namespace" none])
    | (spaces, .ok target) =>
      let (found, more) := ctx.findIn target last
      (⟨(first.range, space) :: spaces, found⟩, notes ++ more)

/-- Resolve a possibly dotted name. -/
def findPath (path : List Ident) : PathResolution × List Diagnostic :=
  match path.getLast? with
  | none => ({}, [])
  | some last =>
    match path.dropLast with
    | [] =>
      let (found, notes) := ctx.find last
      (⟨[], found⟩, notes)
    | first :: rest => ctx.findBehind first rest last

/-- The visible declarations of an operator in the kernel, every enclosing namespace and every
import, each once. -/
def operations (name : String) : List DeclId :=
  addAllNew [] <|
    (LibrarySet.kernelRoot :: ctx.enclosing ++ ctx.imports).flatMap fun scope =>
      ctx.visible (ctx.groupIn name scope)

end Context

end SymbolGraph
