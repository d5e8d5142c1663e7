import SymbolGraph.Session.Loading

/-!
# Rebuilding a project

A rebuild applies the edits that wait:

1. the documents to read again and those to drop are torn down, all marked before the first is
   disposed of;
2. every other document is unlinked;
3. the documents to read again are read and tidied, in the order of their paths;
4. declared imports that are named for the first time are loaded;
5. every document is linked, and the project library is checked.

Documents that were not edited keep their identities throughout.
-/

namespace SymbolGraph

/-- What a rebuild did. -/
structure RebuildReport where
  tornDown : Nat
  tidied : Nat
  linked : Nat
  diagnostics : Nat
deriving DecidableEq, Repr

namespace Session

/-- A session and the units that have been taken out of it. -/
structure Demolition where
  session : Session
  torn : List SourceUnit := []

/-- Take a document out of the session and mark it. -/
def markFile (path : String) (work : Demolition) : Outcome Demolition :=
  let session := work.session
  match session.file? path with
  | none => ⟨work, none⟩
  | some unit =>
    let result := Workbench.mark ⟨session.libraries, session.pool, unit⟩
    let bench := result.state
    let session := { session with
      libraries := bench.libraries
      pool := bench.pool
      files := session.files.filter (·.path ≠ path) }
    match result.fault with
    | none => ⟨⟨session, work.torn ++ [bench.unit]⟩, none⟩
    | some fault => ⟨⟨session, work.torn⟩, some fault⟩

/-- The live documents to tear down: those to read again, then those to drop. -/
def doomed (session : Session) : List String :=
  (session.dirty ++ session.removed).filter fun path => (session.file? path).isSome

/-- Tear down all documents that are doomed. -/
def tearDown (session : Session) : Outcome Demolition :=
  (Outcome.forEach markFile session.doomed ⟨session, []⟩).andThen fun work =>
    let disposed := Linkages.each Linkage.dispose work.session.libraries work.torn
    ⟨⟨{ work.session with libraries := disposed.libraries, removed := [] }, disposed.units⟩, none⟩

/-- Run a pass over every project document. -/
def overFiles (session : Session) (pass : Linkages → Linkages) : Session :=
  let state := pass ⟨session.libraries, session.files⟩
  { session with libraries := state.libraries, files := state.units }

/-- Undo linking for every project document. -/
def unlinkAll (session : Session) : Session := session.overFiles (·.applyPass Linkage.unlink)

/-- Read the documents that wait to be read again; those that are gone are passed over. -/
def pendingTrees (session : Session) : List FileTree :=
  session.dirty.filterMap session.sources.document?

/-- Tidy a document that has been read and make it one of the project. -/
def tidyFile (tree : FileTree) (session : Session) : Outcome Session :=
  let result := Workbench.tidy ⟨session.libraries, session.pool, .new tree .project⟩
  let bench := result.state
  let session := { session with libraries := bench.libraries, pool := bench.pool }
  match result.fault with
  | none => ⟨{ session with files := placeUnit bench.unit session.files }, none⟩
  | some fault => ⟨session, some fault⟩

/-- Read and tidy the documents that wait to be read again. -/
def tidyPending (session : Session) : Outcome Session :=
  Outcome.forEach tidyFile session.pendingTrees { session with dirty := [] }

/-- Check the project library and give each document its part of the report. -/
def checkProject (session : Session) : Session :=
  let (libraries, report) := session.libraries.check .project
  { session with
    libraries
    files := session.files.map fun unit =>
      { unit with diagnostics :=
          (unit.diagnostics.clear .check).append .check (report.of unit.path) } }

/-- Load the imports that the documents name, link every document and check the project. -/
def relink (session : Session) : Session :=
  let session := session.loadImports (importNames session.files)
  (session.overFiles (·.link session.options)).checkProject

/-- Apply the edits that wait. -/
def rebuild (session : Session) : Session × Except Fault RebuildReport :=
  let demolished := session.tearDown
  match demolished.fault with
  | some fault => (demolished.state.session, .error fault)
  | none =>
    let session := demolished.state.session.unlinkAll
    let tidied := session.tidyPending
    match tidied.fault with
    | some fault => (tidied.state, .error fault)
    | none =>
      let built := tidied.state.relink
      (built, .ok
        { tornDown := demolished.state.torn.length
          tidied := session.pendingTrees.length
          linked := built.files.length
          diagnostics := built.files.foldl (fun total unit => total + unit.diagnostics.size) 0 })

end Session

end SymbolGraph
