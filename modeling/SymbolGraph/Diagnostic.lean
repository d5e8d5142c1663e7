import SymbolGraph.Text.Range

/-!
# Diagnostics

A `Diagnostic` reports a mistake in the written program at a range of a document.  The
diagnostics of one document are collected by the phase that found them (`Diagnostics`), because
a phase that runs again replaces its own findings and leaves those of the other phases alone.
They are listed in phase order, and inside a phase in the order in which they were found.
-/

namespace SymbolGraph

/-- How serious a diagnostic is. -/
inductive Severity where
  | error
  | warning
  | info
deriving DecidableEq, Repr, Inhabited

namespace Severity

/-- The name of a severity as data. -/
def name : Severity → String
  | error => "Error"
  | warning => "Warning"
  | info => "Info"

/-- The severity of a name. -/
def ofName? : String → Option Severity
  | "Error" => some error
  | "Warning" => some warning
  | "Info" => some info
  | _ => none

@[simp] theorem ofName?_name (s : Severity) : ofName? s.name = some s := by cases s <;> rfl

end Severity

/-- What went wrong. -/
inductive DiagnosticCode where
  | invalidIdentifier
  | memberNamedAfterClass
  | invalidInheritance
  | circularInheritance
  | duplicateName
  | invalidOverload
  | notFound
  | ambiguous
  | notAType
  | importNotFound
  | returnTypeMismatch
  | notImplemented
deriving DecidableEq, Repr, Inhabited

namespace DiagnosticCode

/-- Every code in its fixed order. -/
def all : List DiagnosticCode :=
  [invalidIdentifier, memberNamedAfterClass, invalidInheritance, circularInheritance,
    duplicateName, invalidOverload, notFound, ambiguous, notAType, importNotFound,
    returnTypeMismatch, notImplemented]

/-- The name of a code as data. -/
def name : DiagnosticCode → String
  | invalidIdentifier => "InvalidIdentifier"
  | memberNamedAfterClass => "MemberNamedAfterClass"
  | invalidInheritance => "InvalidInheritance"
  | circularInheritance => "CircularInheritance"
  | duplicateName => "DuplicateName"
  | invalidOverload => "InvalidOverload"
  | notFound => "NotFound"
  | ambiguous => "Ambiguous"
  | notAType => "NotAType"
  | importNotFound => "ImportNotFound"
  | returnTypeMismatch => "ReturnTypeMismatch"
  | notImplemented => "NotImplemented"

/-- The code of a name. -/
def ofName? (text : String) : Option DiagnosticCode := all.find? fun c => c.name = text

@[simp] theorem ofName?_name (c : DiagnosticCode) : ofName? c.name = some c := by
  cases c <;> rfl

end DiagnosticCode

/-- A second place that a diagnostic points to. -/
structure Related where
  location : Location
  message : String
deriving DecidableEq, Repr, Inhabited

/-- A report at a range of a document. -/
structure Diagnostic where
  range : Range
  severity : Severity
  code : DiagnosticCode
  message : String
  related : List Related := []
deriving DecidableEq, Repr, Inhabited

namespace Diagnostic

/-- An error without related places. -/
def error (range : Range) (code : DiagnosticCode) (message : String) : Diagnostic :=
  ⟨range, .error, code, message, []⟩

/-- A warning without related places. -/
def warning (range : Range) (code : DiagnosticCode) (message : String) : Diagnostic :=
  ⟨range, .warning, code, message, []⟩

/-- The same report with further related places at the end. -/
def relatedTo (diagnostic : Diagnostic) (places : List Related) : Diagnostic :=
  { diagnostic with related := diagnostic.related ++ places }

end Diagnostic

/-- The phase that found a diagnostic. -/
inductive Phase where
  | tidy
  | link
  | check
deriving DecidableEq, Repr, Inhabited

/-- The diagnostics of one document, phase by phase. -/
structure Diagnostics where
  tidy : List Diagnostic := []
  link : List Diagnostic := []
  check : List Diagnostic := []
deriving DecidableEq, Repr, Inhabited

namespace Diagnostics

/-- Change the findings of one phase. -/
def changePhase (ds : Diagnostics) (phase : Phase) (f : List Diagnostic → List Diagnostic) :
    Diagnostics :=
  match phase with
  | .tidy => { ds with tidy := f ds.tidy }
  | .link => { ds with link := f ds.link }
  | .check => { ds with check := f ds.check }

/-- Add findings at the end of a phase. -/
def append (ds : Diagnostics) (phase : Phase) (found : List Diagnostic) : Diagnostics :=
  ds.changePhase phase (· ++ found)

/-- Add one finding at the end of a phase. -/
def push (ds : Diagnostics) (phase : Phase) (found : Diagnostic) : Diagnostics :=
  ds.append phase [found]

/-- Drop the findings of a phase. -/
def clear (ds : Diagnostics) (phase : Phase) : Diagnostics := ds.changePhase phase fun _ => []

/-- All findings, phase after phase. -/
def toList (ds : Diagnostics) : List Diagnostic := ds.tidy ++ ds.link ++ ds.check

/-- The number of findings. -/
def size (ds : Diagnostics) : Nat := ds.toList.length

/-- Whether an error is among the findings. -/
def hasErrors (ds : Diagnostics) : Bool := ds.toList.any fun d => d.severity = .error

end Diagnostics

end SymbolGraph
