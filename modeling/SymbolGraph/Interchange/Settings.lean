import SymbolGraph.Interchange.Datum
import SymbolGraph.Manifest

/-!
# Written form of manifests

A manifest is written in three sections: the project, its imports, and the analysis.  The last two
may be left out, and so may any field of theirs.
-/

namespace SymbolGraph

namespace Manifest

/-- The section on imports. -/
structure ImportSection where
  libraries : List String := []

/-- The section on the analysis. -/
structure AnalysisSection where
  kernel : String := "kernel"
  suggestions : Bool := true

/-- The section on the project. -/
structure ProjectSection where
  name : String

/-- The manifest of its sections. -/
def ofSections (project : ProjectSection) (imports : ImportSection)
    (analysis : AnalysisSection) : Manifest :=
  ⟨project.name, imports.libraries, analysis.kernel, analysis.suggestions⟩

end Manifest

open Manifest in
instance : Interchange ProjectSection where
  encode part := .object [("name", encode part.name)]
  decode? datum := do
    let r ← datum.record? ["name"]
    return ⟨← r.required "name"⟩

open Manifest in
instance : Interchange ImportSection where
  encode part := .object [("libraries", encode part.libraries)]
  decode? datum := do
    let r ← datum.record? ["libraries"]
    return ⟨← r.defaulted "libraries" []⟩

open Manifest in
instance : Interchange AnalysisSection where
  encode part :=
    .object [("kernel", encode part.kernel), ("suggestions", encode part.suggestions)]
  decode? datum := do
    let r ← datum.record? ["kernel", "suggestions"]
    return ⟨← r.defaulted "kernel" "kernel", ← r.defaulted "suggestions" true⟩

open Manifest in
instance : Interchange Manifest where
  encode m := .object
    [("project", encode (ProjectSection.mk m.name)),
      ("imports", encode (ImportSection.mk m.libraries)),
      ("analysis", encode (AnalysisSection.mk m.kernel m.suggestions))]
  decode? datum := do
    let r ← datum.record? ["project", "imports", "analysis"]
    return ofSections (← r.required "project") (← r.defaulted "imports" {})
      (← r.defaulted "analysis" {})

end SymbolGraph
