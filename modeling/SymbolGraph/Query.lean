import SymbolGraph.Session.Basic

/-!
# Questions about a position

Each answer is read off the tables that the phases built; nothing is resolved when a question is
asked.  The name under the cursor is the innermost occurrence that covers the position, and of
several equally small ones the first recorded.
-/

namespace SymbolGraph

/-! ## Occurrences -/

/-- Lexicographic order of sizes: lines first. -/
def smaller (a b : Nat × Nat) : Bool := a.1 < b.1 || a.1 = b.1 && a.2 < b.2

/-- The first occurrence of smallest extent. -/
def innermost : List Occurrence → Option Occurrence
  | [] => none
  | first :: rest =>
    some <| rest.foldl (fun best other =>
      if smaller other.range.extent best.range.extent then other else best) first

/-- The innermost occurrence that covers a position. -/
def SourceUnit.occurrenceAt (unit : SourceUnit) (position : Position) : Option Occurrence :=
  innermost (unit.occurrences.filter fun occurrence => occurrence.range.Contains position)

/-- The ranges of a document that name the target at a position, in order and each once. -/
def SourceUnit.highlight (unit : SourceUnit) (position : Position) : List Range :=
  match unit.occurrenceAt position with
  | none => []
  | some occurrence =>
    let ranges := (unit.occurrences.filter (·.target = occurrence.target)).map Occurrence.range
    (ranges.mergeSort fun a b => (compare a b).isLE).eraseReps

/-! ## Hovers -/

/-- What is shown for the name under the cursor. -/
structure Hover where
  /-- The range of the name under the cursor. -/
  range : Range
  /-- The word for the category, or `namespace`. -/
  kind : String
  /-- The dotted name inside its library. -/
  name : String
  library : String
  visibility : Option Visibility := none
  /-- The type of a variable. -/
  ty : Option String := none
  params : List String := []
  returns : List String := []
  /-- The parent class and the inherited interfaces. -/
  inherits : List String := []
deriving DecidableEq, Repr, Inhabited

namespace LibrarySet

/-- A type as its dotted name and ranks; a type that cannot be named is a question mark. -/
def typeName (set : LibrarySet) (ty : Ty) : String :=
  ((ty.declaration?.bind set.fullName?).getD "?") ++
    String.join (List.replicate ty.dimension "[]")

/-- Several types by name. -/
def typeNames (set : LibrarySet) (types : List Ty) : List String := types.map set.typeName

/-- The parts of a hover that come from the body of a declaration. -/
def describeBody (set : LibrarySet) (hover : Hover) : Body → Hover
  | .leaf (.variable info) => { hover with ty := some (set.typeName info.ty) }
  | .leaf (.callable info) =>
    { hover with
      params := set.typeNames (info.params.map Parameter.ty)
      returns := set.typeNames info.returns }
  | .task returns => { hover with returns := set.typeNames returns }
  | .interface info => { hover with inherits := set.typeNames info.inherits }
  | .class info => { hover with inherits := set.typeNames (info.parent.toList ++ info.inherits) }
  | _ => hover

/-- What is shown for an occurrence. -/
def hover? (set : LibrarySet) (occurrence : Occurrence) : Option Hover :=
  match occurrence.target with
  | .space space => do
    let lib ← set.get? space.library
    return { range := occurrence.range, kind := "namespace"
             name := lib.spaces.fullName space.space, library := lib.name }
  | .declaration id => do
    let entry ← set.find? id
    let name ← set.fullName? id
    let lib ← set.get? id.library
    let hover : Hover :=
      { range := occurrence.range, kind := entry.category.keyword, name, library := lib.name
        visibility := some entry.visibility }
    return set.describeBody hover entry.body

end LibrarySet

/-! ## Questions to a session -/

namespace Session

variable (session : Session)

/-- The innermost occurrence at a position of a document. -/
def occurrenceAt (path : String) (position : Position) : Option Occurrence :=
  (session.unit? path).bind fun unit => unit.occurrenceAt position

/-- What is shown at a position. -/
def hover (path : String) (position : Position) : Option Hover :=
  (session.occurrenceAt path position).bind session.libraries.hover?

/-- The first place where a target is declared by a unit. -/
def definitionIn (target : Target) (unit : SourceUnit) : Option Location :=
  (unit.occurrences.find? fun other => other.definition && other.target = target).map
    fun other => ⟨unit.path, other.range⟩

/-- Where the target at a position is declared; a namespace, where it is first opened. -/
def definition (path : String) (position : Position) : Option Location := do
  let occurrence ← session.occurrenceAt path position
  match occurrence.target with
  | .declaration id => (session.libraries.find? id).map Symbol.location
  | .space space => session.units.findSome? (definitionIn (.space space))

/-- Every recorded reference to the target at a position. -/
def references (path : String) (position : Position) : List Location :=
  match session.occurrenceAt path position with
  | none => []
  | some occurrence => (session.libraries.references? occurrence.target).getD []

/-- The ranges of the same document that name the target at a position. -/
def highlight (path : String) (position : Position) : List Range :=
  match session.unit? path with
  | none => []
  | some unit => unit.highlight position

end Session

end SymbolGraph
