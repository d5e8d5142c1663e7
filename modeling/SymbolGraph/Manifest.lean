/-!
# Project manifests

A manifest names the project, the libraries it may import and its kernel, and says whether
diagnostics suggest near misses.  The project, the kernel and the imports must be told apart by
name: `Manifest.validate` refuses a manifest in which they cannot be.
-/

namespace SymbolGraph

/-- The settings of a project. -/
structure Manifest where
  /-- The name of the project's own library. -/
  name : String
  /-- The libraries that may be loaded by name. -/
  libraries : List String := []
  /-- The name of the kernel. -/
  kernel : String := "kernel"
  /-- Whether names that are not found come with a suggestion. -/
  suggestions : Bool := true
deriving DecidableEq, Repr, Inhabited

/-- Why a manifest is refused. -/
inductive Refusal where
  | emptyName
  | nameIsKernel (name : String)
  | importIsReserved (name : String)
deriving DecidableEq, Repr

/-- The text of a refusal. -/
def Refusal.message : Refusal → String
  | emptyName => "project name is empty"
  | nameIsKernel name => s!"project name `{name}` is reserved for the kernel"
  | importIsReserved name => s!"`{name}` cannot be imported as a library"

/-- Why no manifest could be had. -/
inductive ManifestError where
  /-- There is no manifest file. -/
  | missing
  /-- The manifest file cannot be read or written. -/
  | unreadable
  /-- The text is not that of a manifest. -/
  | malformed
  /-- The manifest breaks a rule on names. -/
  | invalid (refusal : Refusal)
deriving DecidableEq, Repr

namespace ManifestError

/-- The name of the kind of error. -/
def name : ManifestError → String
  | missing => "Missing"
  | unreadable => "Io"
  | malformed => "Parse"
  | invalid _ => "Invalid"

/-- The text of an error, for those that have a fixed one. -/
def message? : ManifestError → Option String
  | invalid refusal => some s!"invalid rook.toml: {refusal.message}"
  | _ => none

end ManifestError

namespace Manifest

/-- The manifest of a new project. -/
def new (name : String) : Manifest := { name }

/-- Whether a library is a declared import. -/
def declares (manifest : Manifest) (library : String) : Bool := library ∈ manifest.libraries

/-- The first rule on names that a manifest breaks. -/
def refusal? (manifest : Manifest) : Option Refusal :=
  if manifest.name.isEmpty then some .emptyName
  else if manifest.name = manifest.kernel then some (.nameIsKernel manifest.name)
  else (manifest.libraries.find? fun library =>
    library = manifest.name || library = manifest.kernel).map .importIsReserved

/-- A manifest that keeps the rules on names. -/
def validate (manifest : Manifest) : Except ManifestError Manifest :=
  match manifest.refusal? with
  | some refusal => .error (.invalid refusal)
  | none => .ok manifest

/-- Validation passes a manifest on unchanged, if it breaks no rule. -/
theorem validate_eq_ok_iff (manifest result : Manifest) :
    manifest.validate = .ok result ↔ manifest.refusal? = none ∧ result = manifest := by
  unfold validate
  cases h : manifest.refusal? with
  | none => simp [eq_comm]
  | some refusal => simp

/-- No rule is broken exactly when the names can be told apart. -/
theorem refusal?_eq_none_iff (manifest : Manifest) :
    manifest.refusal? = none ↔ manifest.name ≠ "" ∧ manifest.name ≠ manifest.kernel ∧
      ∀ library ∈ manifest.libraries, library ≠ manifest.name ∧ library ≠ manifest.kernel := by
  unfold refusal?
  by_cases he : manifest.name = ""
  · simp [he]
  · by_cases hk : manifest.name = manifest.kernel
    · have hk' : ¬ manifest.kernel = "" := fun h => he (hk.trans h)
      simp [hk, hk']
    · simp [he, hk]

end Manifest

end SymbolGraph
