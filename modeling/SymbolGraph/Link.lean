import SymbolGraph.Link.Bases
import SymbolGraph.Link.Imports
import SymbolGraph.Link.Members
import SymbolGraph.Link.Signatures

/-!
# Linking and unlinking

Linking runs four passes, each over every document before the next begins: import directives,
members, inheritance, signatures.  A pass over one document therefore sees the identities of all
documents, and signatures see complete parent chains.

`Linkage.unlink` takes a document's traces back: its back-links, the bodies of its declarations,
the occurrences and reports that linking added.  Identities and reference sets of its declarations
stay.
-/

namespace SymbolGraph

/-- Several documents together with the libraries they are linked into. -/
structure Linkages where
  libraries : LibrarySet
  units : List SourceUnit

namespace Linkages

/-- Run a pass over every document in order. -/
def each (pass : Linkage → Linkage) : LibrarySet → List SourceUnit → Linkages
  | libraries, [] => ⟨libraries, []⟩
  | libraries, unit :: rest =>
    let state := pass ⟨libraries, unit⟩
    let others := each pass state.libraries rest
    ⟨others.libraries, state.unit :: others.units⟩

/-- Run a pass over every document of a group. -/
def applyPass (state : Linkages) (pass : Linkage → Linkage) : Linkages :=
  each pass state.libraries state.units

/-- Run the four link passes. -/
def link (state : Linkages) (options : LinkOptions) : Linkages :=
  (((state.applyPass Linkage.linkImports).applyPass Linkage.declareMembers).applyPass
    (·.linkBases options)).applyPass (·.linkSignatures options)

end Linkages

namespace Linkage

/-- Take one back-link out of the record that holds it. -/
def dropLink (libraries : LibrarySet) : BackLink → LibrarySet
  | .reference target location => libraries.overReferences (·.erase location) target
  | .implementor base heir => libraries.overImplementors base (·.filter (· ≠ heir))

/-- Undo what linking did for a document. -/
def unlink (state : Linkage) : Linkage :=
  let unit := state.unit
  let libraries := unit.links.foldl dropLink state.libraries
  { libraries := unit.declarations.foldl (fun set id => set.edit id .reset) libraries
    unit := { unit with
      links := []
      occurrences := unit.occurrences.filter fun occurrence => !occurrence.linked
      scopes := []
      diagnostics := unit.diagnostics.clear .link } }

end Linkage

end SymbolGraph
