import SymbolGraph.Session.Basic

/-!
# Loading libraries

The kernel and the imports are compiled once, when they are loaded, and never torn down.  Loading
an import loads the declared imports that its own directives name, so libraries may name each
other in circles; since a library is registered before its directives are looked at, each one is
loaded at most once.  The nesting of loads is therefore bounded by the number of declared imports,
which is the depth that `Session.load` starts from.
-/

namespace SymbolGraph

/-- The first segments of the import directives of some units, sorted and each once. -/
def importNames (units : List SourceUnit) : List String :=
  (units.flatMap fun unit => unit.tree.root.importRoots).foldl addSorted []

/-- Give each document of a report its diagnostics: the first unit with a path gets those of that
path. -/
def handOut (report : Report) : List SourceUnit → List SourceUnit
  | [] => []
  | unit :: rest =>
    unit.report .check (report.of unit.path) :: handOut (report.except unit.path) rest

/-- Documents of one library on their way through the phases. -/
structure Batch where
  libraries : LibrarySet
  pool : IndexPool
  units : List SourceUnit := []

namespace Batch

/-- Tidy a document and add it to the batch. -/
def tidy (library : LibraryId) (tree : FileTree) (batch : Batch) : Outcome Batch :=
  let result := Workbench.tidy ⟨batch.libraries, batch.pool, .new tree library⟩
  let bench := result.state
  match result.fault with
  | none => ⟨⟨bench.libraries, bench.pool, batch.units ++ [bench.unit]⟩, none⟩
  | some fault => ⟨⟨bench.libraries, bench.pool, batch.units⟩, some fault⟩

end Batch

namespace Session

/-- Compile a library whose documents are given: tidy them, load what they import by means of
`loadNames`, link them and check the library. -/
def compile (loadNames : List String → Session → Session) (library : LibraryId)
    (trees : List FileTree) (session : Session) : Outcome Session :=
  let result := Outcome.forEach (Batch.tidy library) trees ⟨session.libraries, session.pool, []⟩
  let batch := result.state
  let session := { session with libraries := batch.libraries, pool := batch.pool }
  match result.fault with
  | some fault => ⟨session, some fault⟩
  | none =>
    let session :=
      if library = .kernel then session else loadNames (importNames batch.units) session
    let linked := Linkages.link ⟨session.libraries, batch.units⟩ session.options
    let (libraries, report) := linked.libraries.check library
    ⟨{ session with
        libraries
        foreign := session.foreign.putSorted library (handOut report linked.units) }, none⟩

/-- A declared import that is not loaded yet. -/
def wants (session : Session) (name : String) : Bool :=
  session.manifest.declares name && (session.libraries.named? name).isNone

/-- Load an import and, nested at most `depth` deep, the imports that it names.  Nothing happens
if its sources are not at hand; an import whose load fails stays unresolved. -/
def load : (depth : Nat) → String → Session → Outcome Session
  | 0, _, session => ⟨session, none⟩
  | depth + 1, name, session =>
    match session.sources.library? name with
    | none => ⟨session, none⟩
    | some trees =>
      let (id, libraries) := session.libraries.addImport name
      compile (fun names session =>
          names.foldl (fun session name =>
            if session.wants name then (load depth name session).state else session) session)
        id trees { session with libraries }

/-- Load the wanted imports among some names. -/
def loadImports (session : Session) (names : List String) : Session :=
  names.foldl (fun session name =>
    if session.wants name then (load session.manifest.libraries.length name session).state
    else session) session

/-- Why a library could not be loaded. -/
inductive LoadError where
  /-- The name is neither the project, the kernel nor a declared import. -/
  | unknown (name : String)
  /-- The sources do not have the library. -/
  | unavailable (name : String)
  /-- A rule of the model was broken on the way. -/
  | fault (cause : Fault)
deriving DecidableEq, Repr

namespace LoadError

/-- The name of the kind of error. -/
def name : LoadError → String
  | .unknown _ => "UnknownLibrary"
  | .unavailable _ => "LibraryUnavailable"
  | .fault cause => cause.name

/-- The text of an error. -/
def message : LoadError → String
  | .unknown name => s!"`{name}` is not the project, the kernel or a declared import"
  | .unavailable name => s!"library `{name}` could not be loaded"
  | .fault cause => cause.message

end LoadError

/-- The library of a name: the kernel, the project, an import loaded before, or a declared import
that is loaded now. -/
def loadLibrary (session : Session) (name : String) : Session × Except LoadError LibraryId :=
  if name = session.manifest.kernel then (session, .ok .kernel)
  else if name = session.manifest.name then (session, .ok .project)
  else match session.libraries.named? name with
    | some id => (session, .ok id)
    | none =>
      if !session.manifest.declares name then (session, .error (.unknown name))
      else if (session.sources.library? name).isNone then (session, .error (.unavailable name))
      else
        let id := LibraryId.ofSlot session.libraries.imports.length
        let result := load session.manifest.libraries.length name session
        match result.fault with
        | none => (result.state, .ok id)
        | some fault => (result.state, .error (.fault fault))

/-- A session before its kernel is loaded. -/
def unloaded (manifest : Manifest) (sources : Sources) : Session where
  manifest := manifest
  sources := sources
  libraries := .new manifest.name manifest.kernel

/-- The documents of the kernel: those of the sources, or the built-in ones. -/
def kernelTrees (manifest : Manifest) (sources : Sources) : List FileTree :=
  (sources.library? manifest.kernel).getD Kernel.builtin

/-- A session with its kernel loaded. -/
def start (manifest : Manifest) (sources : Sources) : Except Fault Session :=
  let result := compile (fun _ session => session) .kernel (kernelTrees manifest sources)
    (unloaded manifest sources)
  match result.fault with
  | none => .ok result.state
  | some fault => .error fault

end Session

end SymbolGraph
