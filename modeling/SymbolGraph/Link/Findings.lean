import SymbolGraph.SourceUnit

/-!
# What a link pass finds

A link pass first reads the model and collects `Findings`, then writes them down
(`Findings.apply`).  So nothing that a pass writes for a document can influence what it reads for
the same document.

A reference is written only if it is new to its target, and only then does it leave an occurrence
and a back-link; an heir is added to its base at most once, while the back-link is recorded each
time.
-/

namespace SymbolGraph

/-- A change of what linking knows of a declaration. -/
inductive Update where
  | variable (target : DeclId) (info : VariableInfo)
  | callable (target : DeclId) (params : List Parameter) (returns : Signature)
  | task (target : DeclId) (returns : Signature)
  | inheritance (target : DeclId) (parent : Option Ty) (inherits : List Ty)
deriving DecidableEq, Repr

namespace Update

/-- Set the bases of a class or interface; interfaces have no parent. -/
def setBases (parent : Option Ty) (inherits : List Ty) : Body → Body
  | .class info => .class { info with parent, inherits }
  | .interface info => .interface { info with inherits }
  | body => body

/-- Write an update down. -/
def apply (set : LibrarySet) : Update → LibrarySet
  | .variable target info => set.edit target (.setLeaf (.variable info))
  | .callable target params returns =>
    set.edit target (.callable fun c => { c with params, returns })
  | .task target returns => set.edit target (.body fun _ => .task returns)
  | .inheritance target parent inherits => set.edit target (.body (setBases parent inherits))

end Update

/-- What a link pass over one document found out. -/
structure Findings where
  diagnostics : List Diagnostic := []
  references : List (Target × Location) := []
  /-- Bases with the declarations that inherit them. -/
  heirs : List (DeclId × DeclId) := []
  updates : List Update := []

namespace Findings

/-- Findings one after the other. -/
protected def append (a b : Findings) : Findings :=
  ⟨a.diagnostics ++ b.diagnostics, a.references ++ b.references, a.heirs ++ b.heirs,
    a.updates ++ b.updates⟩

instance : Append Findings := ⟨Findings.append⟩

/-- Several findings in order. -/
def join (all : List Findings) : Findings := all.foldr (· ++ ·) {}

/-- Nothing but a diagnostic. -/
def ofDiagnostic (d : Diagnostic) : Findings := { diagnostics := [d] }

/-- Nothing but an update. -/
def ofUpdate (u : Update) : Findings := { updates := [u] }

@[simp] theorem diagnostics_append (a b : Findings) :
    (a ++ b).diagnostics = a.diagnostics ++ b.diagnostics := rfl

@[simp] theorem references_append (a b : Findings) :
    (a ++ b).references = a.references ++ b.references := rfl

@[simp] theorem heirs_append (a b : Findings) : (a ++ b).heirs = a.heirs ++ b.heirs := rfl

@[simp] theorem updates_append (a b : Findings) : (a ++ b).updates = a.updates ++ b.updates := rfl

@[simp] theorem diagnostics_join (all : List Findings) :
    (join all).diagnostics = all.flatMap Findings.diagnostics := by
  induction all with
  | nil => rfl
  | cons a rest ih => simpa [join] using ih

@[simp] theorem references_join (all : List Findings) :
    (join all).references = all.flatMap Findings.references := by
  induction all with
  | nil => rfl
  | cons a rest ih => simpa [join] using ih

end Findings

/-- The libraries together with the document that is being linked into them. -/
structure Linkage where
  libraries : LibrarySet
  unit : SourceUnit

namespace Linkage

/-- Write a reference down, if its target exists and does not have it yet. -/
def addReference (state : Linkage) (found : Target × Location) : Linkage :=
  let (target, location) := found
  match state.libraries.references? target with
  | none => state
  | some known =>
    if location ∈ known then state
    else
      let unit := state.unit.occur location.range target false true
      { libraries := state.libraries.overReferences (· ++ [location]) target
        unit := { unit with links := unit.links ++ [.reference target location] } }

/-- Write an heir down, if the base is a class or interface. -/
def addHeir (state : Linkage) (found : DeclId × DeclId) : Linkage :=
  let (base, heir) := found
  match (state.libraries.find? base).bind fun entry => entry.body.implementors? with
  | none => state
  | some _ =>
    { libraries := state.libraries.overImplementors base (addNew · heir)
      unit := { state.unit with links := state.unit.links ++ [.implementor base heir] } }

/-- Write findings down: updates, references, heirs, diagnostics. -/
def apply (state : Linkage) (found : Findings) : Linkage :=
  let state := { state with libraries := found.updates.foldl Update.apply state.libraries }
  let state := found.references.foldl addReference state
  let state := found.heirs.foldl addHeir state
  { state with unit := state.unit.report .link found.diagnostics }

end Linkage

end SymbolGraph
