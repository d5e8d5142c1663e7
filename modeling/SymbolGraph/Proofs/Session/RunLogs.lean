import SymbolGraph.Proofs.Session.Runs

/-!
# Logs of a run

The kernel is compiled at the start, the project in every rebuild, and an import when it is loaded;
loads ask for further loads.  A log follows this course and lists what a `Watch` sees on the way:
each document when it is about to be tidied, and the documents of a library when they are about to
be linked (`Session.log`).

What a log says of the way from one session to another is put together from what it says of the
parts of a load.  `LogInvariant` lists these parts; from them follows what is said of several loads
in order, of a compilation and of a load (`InOrder.tells_wanted`, `InOrder.tells_compile`,
`InOrder.tells_load`), by one induction on the depth for all logs.
-/

namespace SymbolGraph

namespace Outcome

variable {α β σ : Type}

/-- What is watched after a step, unless it has met a fault. -/
def follow (outcome : Outcome σ) (watch : σ → List β) : List β :=
  match outcome.fault with
  | none => watch outcome.state
  | some _ => []

/-- What is watched at each of several steps in turn, until a fault is met. -/
def trace (step : α → σ → Outcome σ) (watch : α → σ → List β) : List α → σ → List β
  | [], _ => []
  | x :: xs, state => watch x state ++ (step x state).follow (trace step watch xs)

@[simp] lemma follow_of_none (state : σ) (watch : σ → List β) :
    (Outcome.mk state none).follow watch = watch state := rfl

@[simp] lemma follow_nil (outcome : Outcome σ) : (outcome.follow fun _ => ([] : List β)) = [] := by
  unfold follow
  split <;> rfl

@[simp] lemma trace_nil (step : α → σ → Outcome σ) (xs : List α) (state : σ) :
    trace step (fun _ _ => ([] : List β)) xs state = [] := by
  induction xs generalizing state with
  | nil => rfl
  | cons x xs ih => rw [trace, funext ih, follow_nil, List.append_nil]

end Outcome

/-! ## What is watched -/

/-- Documents of one library that are about to be linked. -/
structure Linking where
  library : LibraryId
  /-- The model that they are linked into. -/
  libraries : LibrarySet
  options : LinkOptions
  units : List SourceUnit
  /-- The other documents of the session. -/
  others : List SourceUnit

/-- What is put down when a document is about to be tidied, and when the documents of a library are
about to be linked. -/
structure Watch (β : Type) where
  tidying : Workbench → List β := fun _ => []
  linking : Linking → List β := fun _ => []

/-- The log of a document of a batch. -/
def Batch.tidyLog {β : Type} (watch : Watch β) (library : LibraryId)
    (tree : FileTree) (batch : Batch) :
    List β :=
  watch.tidying ⟨batch.libraries, batch.pool, .new tree library⟩

namespace Session

variable {β : Type} (watch : Watch β)

/-- The log of several loads in order, given that of one. -/
def wantedLog (load : String → Session → Outcome Session) (log : String → Session → List β) :
    List String → Session → List β
  | [], _ => []
  | name :: rest, session =>
    if session.wants name then log name session ++ wantedLog load log rest (load name session).state
    else wantedLog load log rest session

/-- The log of a compilation: that of its documents, then that of the loads that they ask for, and
then the linking. -/
def compileLog (loadNames : List String → Session → Session)
    (namesLog : List String → Session → List β) (library : LibraryId) (trees : List FileTree)
    (session : Session) : List β :=
  Outcome.trace (Batch.tidy library) (Batch.tidyLog watch library) trees
      ⟨session.libraries, session.pool, []⟩ ++
    (Outcome.forEach (Batch.tidy library) trees
      ⟨session.libraries, session.pool, []⟩).follow fun batch =>
      let tidied := { session with libraries := batch.libraries, pool := batch.pool }
      let names := importNames batch.units
      let loaded := if library = .kernel then tidied else loadNames names tidied
      (if library = .kernel then [] else namesLog names tidied) ++
        watch.linking ⟨library, loaded.libraries, loaded.options, batch.units, loaded.units⟩

/-- The log of a load. -/
def loadLog : Nat → String → Session → List β
  | 0, _, _ => []
  | depth + 1, name, session =>
    match session.sources.library? name with
    | none => []
    | some trees =>
      compileLog watch (fun names session =>
          names.foldl (fun session name =>
            if session.wants name then (load depth name session).state else session) session)
        (wantedLog (load depth) (loadLog depth)) (session.libraries.addImport name).1 trees
        { session with libraries := (session.libraries.addImport name).2 }

/-- The log of the loads of the wanted imports among some names. -/
def importsLog (names : List String) (session : Session) : List β :=
  wantedLog (fun name session => load session.manifest.libraries.length name session)
    (fun name session => loadLog watch session.manifest.libraries.length name session) names session

/-- The log of a document of the project. -/
def fileLog (tree : FileTree) (session : Session) : List β :=
  watch.tidying ⟨session.libraries, session.pool, .new tree .project⟩

/-- The log of the loads that the project asks for, then that of linking the project. -/
def relinkLog (session : Session) : List β :=
  let names := importNames session.files
  let loaded := session.loadImports names
  importsLog watch names session ++ watch.linking
    ⟨.project, loaded.libraries, loaded.options, loaded.files, loaded.foreign.values.flatten⟩

/-- The log of a request.  That of a rebuild goes through the documents that are read again before
it comes to imports and to linking. -/
def performLog (session : Session) : Request → List β
  | .rebuild =>
    (session.tearDown.follow fun work =>
      let cleared := work.session.unlinkAll
      Outcome.trace tidyFile (fileLog watch) cleared.pendingTrees { cleared with dirty := [] }) ++
      session.groundwork?.elim [] (relinkLog watch)
  | .load name =>
    if name = session.manifest.kernel ∨ name = session.manifest.name ∨
        (session.libraries.named? name).isSome ∨ !session.manifest.declares name then []
    else loadLog watch session.manifest.libraries.length name session
  | _ => []

/-- The log of several requests in order. -/
def runLog (session : Session) : List Request → List β
  | [] => []
  | request :: rest => performLog watch session request ++ runLog (session.perform request) rest

/-- The log of the start, where the kernel is compiled. -/
def startLog (manifest : Manifest) (sources : Sources) : List β :=
  compileLog watch (fun _ session => session) (fun _ _ => []) .kernel (kernelTrees manifest sources)
    (unloaded manifest sources)

/-- The log of a run from the start. -/
def log (manifest : Manifest) (sources : Sources) (initial : Session) (requests : List Request) :
    List β :=
  startLog watch manifest sources ++ runLog watch initial requests

/-- A request to load a library loads it with the depth of the manifest, or does nothing. -/
lemma loadLibrary_log (session : Session) (name : String) :
    (session.loadLibrary name).1 = session ∧ performLog watch session (.load name) = [] ∨
      (session.loadLibrary name).1 = (load session.manifest.libraries.length name session).state ∧
      performLog watch session (.load name)
        = loadLog watch session.manifest.libraries.length name session := by
  rw [loadLibrary_fst_eq, performLog]
  split
  · exact Or.inl ⟨rfl, rfl⟩
  · exact Or.inr ⟨rfl, rfl⟩

lemma compile_unloaded {manifest : Manifest} {sources : Sources} {initial : Session}
    (hstart : start manifest sources = .ok initial) :
    (compile (fun _ session => session) .kernel (kernelTrees manifest sources)
      (unloaded manifest sources)).state = initial := by
  simp only [start] at hstart
  split at hstart
  · exact Except.ok.inj hstart
  · cases hstart

/-! ## What a log says -/

/-- A property of the model holds in a session, with documents beside it that refer to nothing
yet. -/
structure InOrder (P : LibrarySet → IndexPool → List SourceUnit → Prop) (extra : List SourceUnit)
    (session : Session) : Prop where
  keeps : session.Keeps P extra
  pending : ∀ unit ∈ extra, unit.links = []

end Session

open Session

/-- `Tells before log after` holds of the parts of which a load is made, as long as the model has
the property `P`. -/
structure LogInvariant {β : Type} (watch : Watch β)
    (P : LibrarySet → IndexPool → List SourceUnit → Prop)
    (Tells : Session → List β → Session → Prop) : Prop where
  loads : LoadInvariant P
  refl : ∀ session, Tells session [] session
  trans : ∀ {a b c xs ys}, Tells a xs b → Tells b ys c → Tells a (xs ++ ys) c
  registered : ∀ {session : Session} {extra} (name : String), session.Keeps P extra →
    Tells session [] { session with libraries := (session.libraries.addImport name).2 }
  tidied : ∀ {session : Session} {extra library trees batch}, session.Keeps P extra →
    library ≠ .project → (∃ lib, session.libraries.get? library = some lib) →
    library ∉ session.foreign.keys →
    Outcome.forEach (Batch.tidy library) trees ⟨session.libraries, session.pool, []⟩
      = ⟨batch, none⟩ →
    Tells session (Outcome.trace (Batch.tidy library) (Batch.tidyLog watch library) trees
        ⟨session.libraries, session.pool, []⟩)
      { session with libraries := batch.libraries, pool := batch.pool }
  filed : ∀ {session : Session} {extra library units}, session.InOrder P (units ++ extra) →
    library ≠ .project → (∀ unit ∈ units, unit.library = library ∧ unit.skeleton = unit) →
    Tells session
      (watch.linking ⟨library, session.libraries, session.options, units, session.units⟩)
      (session.filed library units)

namespace Session

variable {β : Type} {watch : Watch β} {P : LibrarySet → IndexPool → List SourceUnit → Prop}
  {Tells : Session → List β → Session → Prop} {session : Session} {extra : List SourceUnit}

/-- Loads one after the other. -/
theorem InOrder.tells_wanted (inv : LogInvariant watch P Tells)
    {load : String → Session → Outcome Session} {log : String → Session → List β}
    (hload : ∀ name session, session.InOrder P extra →
      (load name session).state.InOrder P extra ∧
        Tells session (log name session) (load name session).state)
    (names : List String) (inOrder : session.InOrder P extra) :
    let after := names.foldl (fun session name =>
      if session.wants name then (load name session).state else session) session
    after.InOrder P extra ∧ Tells session (wantedLog load log names session) after := by
  induction names generalizing session with
  | nil => exact ⟨inOrder, inv.refl session⟩
  | cons name rest ih =>
    rw [wantedLog, List.foldl_cons]
    split
    · obtain ⟨hnext, hfirst⟩ := hload name session inOrder
      obtain ⟨hafter, hrest⟩ := ih hnext
      exact ⟨hafter, inv.trans hfirst hrest⟩
    · exact ih inOrder

/-- Compiling a registered library whose documents the session does not have yet. -/
theorem InOrder.tells_compile (inv : LogInvariant watch P Tells) (inOrder : session.InOrder P extra)
    (loadNames : List String → Session → Session) (namesLog : List String → Session → List β)
    (hnames : ∀ names extra session, session.InOrder P extra →
      (loadNames names session).InOrder P extra ∧
        Tells session (namesLog names session) (loadNames names session))
    {library : LibraryId} (hlibrary : library ≠ .project)
    (hloaded : ∃ lib, session.libraries.get? library = some lib)
    (hkey : library ∉ session.foreign.keys) (trees : List FileTree) :
    Tells session (compileLog watch loadNames namesLog library trees session)
      (compile loadNames library trees session).state := by
  obtain ⟨batch, hbatch, hunits, -, keeps, -⟩ :=
    inOrder.keeps.tidied inv.loads hlibrary hloaded trees
  have inOrder₀ : InOrder P (batch.units ++ extra)
      { session with libraries := batch.libraries, pool := batch.pool } := by
    refine ⟨keeps, fun unit hunit => ?_⟩
    rcases List.mem_append.1 hunit with h | h
    · exact (congrArg SourceUnit.links (hunits unit h).2).symm
    · exact inOrder.pending unit h
  obtain ⟨mid, earlier, hmid, hearlier, inOrder₁, told⟩ : ∃ mid earlier,
      mid = (if library = .kernel then
          { session with libraries := batch.libraries, pool := batch.pool }
        else loadNames (importNames batch.units)
          { session with libraries := batch.libraries, pool := batch.pool }) ∧
      earlier = (if library = .kernel then []
        else namesLog (importNames batch.units)
          { session with libraries := batch.libraries, pool := batch.pool }) ∧
      mid.InOrder P (batch.units ++ extra) ∧
      Tells { session with libraries := batch.libraries, pool := batch.pool } earlier mid := by
    split
    · exact ⟨_, _, rfl, rfl, inOrder₀, inv.refl _⟩
    · exact ⟨_, _, rfl, rfl, hnames (importNames batch.units) _ _ inOrder₀⟩
  have hfiled : (compile loadNames library trees session).state
      = mid.filed library batch.units := by
    simp only [compile, hbatch, ← hmid]
    rfl
  simp only [compileLog, hbatch, ← hmid, ← hearlier, Outcome.follow_of_none, hfiled]
  exact inv.trans (inv.tidied inOrder.keeps hlibrary hloaded hkey hbatch)
    (inv.trans told (inv.filed inOrder₁ hlibrary hunits))

/-- Loading an import. -/
theorem InOrder.tells_load (inv : LogInvariant watch P Tells) (depth : Nat) (name : String)
    (inOrder : session.InOrder P extra) :
    (load depth name session).state.InOrder P extra ∧
      Tells session (loadLog watch depth name session) (load depth name session).state := by
  refine ⟨?_, ?_⟩
  · obtain ⟨after, hload, keeps, -⟩ := inOrder.keeps.load inv.loads depth name
    rw [hload]
    exact ⟨keeps, inOrder.pending⟩
  · -- On the depth of nested loads: the imports of a library are loaded one level down.
    induction depth generalizing name session extra with
    | zero => exact inv.refl session
    | succ depth ih =>
      cases hsources : session.sources.library? name with
      | none =>
        simp only [loadLog, Session.load, hsources]
        exact inv.refl session
      | some trees =>
        obtain ⟨keeps, -, hkey, hnew⟩ := inOrder.keeps.register inv.loads name
        have hload (extra : List SourceUnit) (name : String) (session : Session)
            (inOrder : session.InOrder P extra) :
            (Session.load depth name session).state.InOrder P extra ∧
              Tells session (loadLog watch depth name session)
                (Session.load depth name session).state := by
          obtain ⟨after, hload, keeps, -⟩ := inOrder.keeps.load inv.loads depth name
          exact ⟨by rw [hload]; exact ⟨keeps, inOrder.pending⟩, ih name inOrder⟩
        have registered : InOrder P extra
            { session with libraries := (session.libraries.addImport name).2 } :=
          ⟨keeps, inOrder.pending⟩
        have told := registered.tells_compile inv _ _
          (fun names extra session inOrder => inOrder.tells_wanted inv (hload extra) names) hnew
          ⟨_, by rw [LibrarySet.get?_addImport, if_pos rfl]⟩ hkey trees
        have whole := inv.trans (inv.registered name inOrder.keeps) told
        simp only [loadLog, Session.load, hsources]
        exact whole

lemma InOrder.tells_loadImports (inv : LogInvariant watch P Tells)
    (inOrder : session.InOrder P extra)
    (names : List String) : (session.loadImports names).InOrder P extra ∧
      Tells session (importsLog watch names session) (session.loadImports names) :=
  inOrder.tells_wanted inv (fun name session inOrder =>
    inOrder.tells_load inv session.manifest.libraries.length name) names

/-- The kernel is compiled at the start. -/
lemma tells_start (inv : LogInvariant watch P Tells) {manifest : Manifest} {sources : Sources}
    {initial : Session} (hstart : start manifest sources = .ok initial)
    (hP : P (.new manifest.name manifest.kernel) {} []) :
    Tells (unloaded manifest sources) (startLog watch manifest sources) initial := by
  have inOrder : (unloaded manifest sources).InOrder P [] :=
    ⟨⟨hP, by simp [unloaded, Assoc.values], by simp [unloaded]⟩, by simp⟩
  have told := inOrder.tells_compile inv (fun _ session => session) (fun _ _ => [])
    (fun _ _ session inOrder => ⟨inOrder, inv.refl session⟩) LibraryId.kernel_ne_project ⟨_, rfl⟩
    (by simp [unloaded]) (kernelTrees manifest sources)
  rwa [compile_unloaded hstart] at told

end Session

end SymbolGraph
