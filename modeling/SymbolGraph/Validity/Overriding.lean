import SymbolGraph.Inheritance
import SymbolGraph.Validity.Report

/-!
# Overriding and implementing

A function *matches* another when both have the same name and the same parameter types.  A
function of an interface overrides the matching functions of all interfaces it inherits, a
function of a class those of all its ancestor classes; and a function of a class implements the
matching functions of every interface that the class inherits, directly or not.  Only valid
functions whose parameter types resolved take part.

A `Verdict` collects the pairs so found, together with the reports: circular inheritance,
return types that differ between a function and one it is tied to, and interface functions that
a class leaves unimplemented.  Verdicts are computed from the model as it stands and written down
afterwards.
-/

namespace SymbolGraph

/-- What the pass over interfaces and classes finds. -/
structure Verdict where
  /-- Functions with functions that they override. -/
  overrides : List (DeclId × DeclId) := []
  /-- Class functions with interface functions that they implement. -/
  implements : List (DeclId × DeclId) := []
  report : Report := []

namespace Verdict

/-- Verdicts one after the other. -/
protected def append (a b : Verdict) : Verdict :=
  ⟨a.overrides ++ b.overrides, a.implements ++ b.implements, a.report ++ b.report⟩

instance : Append Verdict := ⟨Verdict.append⟩

/-- Several verdicts in order. -/
def join (all : List Verdict) : Verdict := all.foldr (· ++ ·) {}

@[simp] theorem overrides_append (a b : Verdict) :
    (a ++ b).overrides = a.overrides ++ b.overrides := rfl

@[simp] theorem implements_append (a b : Verdict) :
    (a ++ b).implements = a.implements ++ b.implements := rfl

@[simp] theorem report_append (a b : Verdict) : (a ++ b).report = a.report ++ b.report := rfl

@[simp] theorem overrides_join (all : List Verdict) :
    (join all).overrides = all.flatMap Verdict.overrides := by
  induction all with
  | nil => rfl
  | cons a rest ih => simpa [join] using ih

@[simp] theorem implements_join (all : List Verdict) :
    (join all).implements = all.flatMap Verdict.implements := by
  induction all with
  | nil => rfl
  | cons a rest ih => simpa [join] using ih

@[simp] theorem report_join (all : List Verdict) :
    (join all).report = all.flatMap Verdict.report := by
  induction all with
  | nil => rfl
  | cons a rest ih => simpa [join] using ih

end Verdict

namespace Overriding

/-- The parameter types of a function all resolved. -/
def isResolved (function : Member) : Bool :=
  match function.body.callable? with
  | some callable => callable.signature.isResolved
  | none => false

/-- The valid functions of a declaration whose parameter types resolved. -/
def linkedFunctions (body : Body) : List Member :=
  body.functions.filter fun function => function.valid && isResolved function

/-- Same name and same parameter types. -/
def sameSignature (a b : Member) : Bool :=
  match a.body.callable?, b.body.callable? with
  | some x, some y => a.name = b.name && x.signature = y.signature
  | _, _ => false

/-- Same return types. -/
def sameReturns (a b : Member) : Bool :=
  match a.body.callable?, b.body.callable? with
  | some x, some y => x.returns = y.returns
  | _, _ => true

/-- The report on a declaration that inherits from itself. -/
def circular (entry : Entry) : String × Diagnostic :=
  (entry.document,
    .error entry.nameRange .circularInheritance s!"`{entry.name}` inherits from itself")

section

variable (set : LibrarySet)

/-- The dotted name of a function. -/
def displayName (function : Member) : String :=
  (set.fullName? function.id).getD function.name

/-- The note that points to where a function is declared. -/
def declaredHere (function : Member) : Related :=
  ⟨function.location, s!"`{displayName set function}` declared here"⟩

/-- The report on a function whose return types differ from those of a function it is tied to. -/
def returnMismatch (function base : Member) : String × Diagnostic :=
  (function.document,
    (Diagnostic.error function.nameRange .returnTypeMismatch
      (s!"`{function.name}` has the parameters of `{displayName set base}` " ++
        "but a different return type")).relatedTo [declaredHere set base])

/-- The linked functions of several declarations, in order. -/
def functionsOf (ids : List DeclId) : List Member :=
  (ids.filterMap set.find?).flatMap fun entry => linkedFunctions entry.body

/-! ## Interfaces -/

/-- The verdict on a function of an interface, given the functions that the interface inherits:
only the first difference in return types is reported. -/
def judgeInterfaceFunction (inherited : List Member) (function : Member) : Verdict :=
  let bases := inherited.filter (sameSignature function)
  { overrides := bases.map fun base => (function.id, base.id)
    report := ((bases.find? fun base => !sameReturns function base).map
      (returnMismatch set function)).toList }

/-- The verdict on an interface. -/
def judgeInterface (entry : Entry) : Verdict :=
  match entry.body.interface? with
  | none => {}
  | some _ =>
    let roots := entry.body.superInterfaces
    let inherited := functionsOf set (set.interfaceClosure roots (some entry.id))
    { report := if set.interfaceLoops entry.id roots then [circular entry] else [] } ++
      .join ((linkedFunctions entry.body).map (judgeInterfaceFunction set inherited))

/-! ## Classes -/

/-- The verdict on a function of a class, given the functions of its ancestors: every difference
in return types is reported. -/
def judgeOverrides (inherited : List Member) (function : Member) : Verdict :=
  let bases := inherited.filter (sameSignature function)
  { overrides := bases.map fun base => (function.id, base.id)
    report := (bases.filter fun base => !sameReturns function base).map
      (returnMismatch set function) }

/-- What a class has to offer for a function that one of its interfaces requires. -/
inductive Offer where
  /-- A function that implements it. -/
  | implementation (own : Member)
  /-- A function of that name that is invalid or whose types did not resolve: nothing is said. -/
  | unclear
  /-- Nothing. -/
  | missing

/-- What a class offers for a required function: its first function of that name that has the same
parameter types, or whose types did not resolve, decides. -/
def offer (functions : List Member) (required : Member) : Offer :=
  match functions.find? fun own =>
      own.name = required.name && own.body.callable?.isSome &&
        (!isResolved own || sameSignature own required) with
  | none => .missing
  | some own =>
    if own.valid && sameSignature own required then .implementation own else .unclear

/-- The verdict on an offer. -/
def judgeOffer (required : Member) : Offer → Verdict
  | .implementation own =>
    { implements := [(own.id, required.id)]
      report := if sameReturns own required then [] else [returnMismatch set own required] }
  | _ => {}

/-- The required functions for which nothing is offered. -/
def missing (functions required : List Member) : List Member :=
  required.filter fun function =>
    match offer functions function with
    | .missing => true
    | _ => false

/-- The report on a class that leaves interface functions unimplemented. -/
def notImplemented (entry : Entry) (functions : List Member) : String × Diagnostic :=
  let names := functions.map fun function => s!"`{displayName set function}`"
  let listed := String.intercalate ", " names
  (entry.document,
    (Diagnostic.error entry.nameRange .notImplemented
      s!"`{entry.name}` does not implement interface functions: {listed}").relatedTo
        (functions.map (declaredHere set)))

/-- The functions that the interfaces of a class require. -/
def required (info : ClassInfo) : List Member :=
  functionsOf set (set.interfaceClosure (info.inherits.filterMap Ty.declaration?) none)

/-- The verdict on a class. -/
def judgeClass (entry : Entry) : Verdict :=
  match entry.body.class? with
  | none => {}
  | some info =>
    let inherited := functionsOf set (set.classAncestors entry.id)
    let required := required set info
    let lacking := missing info.functions required
    { report := if set.classLoops entry.id then [circular entry] else [] } ++
      .join ((linkedFunctions entry.body).map (judgeOverrides set inherited)) ++
      .join (required.map fun function =>
        judgeOffer set function (offer info.functions function)) ++
      { report := if lacking.isEmpty then [] else [notImplemented set entry lacking] }

end

end Overriding

/-- The verdict on the valid interfaces of a library, and then on its valid classes. -/
def LibrarySet.judge (set : LibrarySet) (lib : Library) : Verdict :=
  .join (((lib.entries .interface).filter Symbol.valid).map (Overriding.judgeInterface set)) ++
    .join (((lib.entries .class).filter Symbol.valid).map (Overriding.judgeClass set))

end SymbolGraph
