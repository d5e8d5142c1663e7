import SymbolGraph.Diagnostic

/-!
# Reports of the validity passes

The validity passes look at a whole library, so each of their diagnostics comes with the document
of the declaration it sits on.  A report keeps them in the order in which they were found; the
diagnostics of one document are picked out of it on demand.
-/

namespace SymbolGraph

/-- Diagnostics with the documents they belong to, in the order in which they were found. -/
abbrev Report := List (String × Diagnostic)

namespace Report

/-- The diagnostics of one document. -/
def of (report : Report) (document : String) : List Diagnostic :=
  (report.filter fun found => found.1 = document).map Prod.snd

/-- The report without the diagnostics of one document. -/
def except (report : Report) (document : String) : Report :=
  report.filter fun found => found.1 ≠ document

/-- The documents that have diagnostics, each once and in increasing order. -/
def documents (report : Report) : List String :=
  (report.map Prod.fst).eraseDups.mergeSort fun a b => decide (a ≤ b)

/-- The diagnostics document by document, documents in increasing order. -/
def byDocument (report : Report) : List (String × List Diagnostic) :=
  report.documents.map fun document => (document, report.of document)

@[simp] theorem of_append (a b : Report) (document : String) :
    Report.of (a ++ b) document = Report.of a document ++ Report.of b document := by
  simp [of]

end Report

end SymbolGraph
