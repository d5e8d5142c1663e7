import SymbolGraph.Proofs.Tidying.FirstFit

/-!
# Every identity is given first fit

The moments at which identities are given are followed through a whole run: the kernel is tidied at
the start, the project in every rebuild, an import when it is loaded (`Session.allotments`).  At
each of them the model is `Granting`: the pool matches the tables of the project, and the tables of
all other libraries, from which nothing is ever taken, have no holes.  So each identity is first
fit.

A rebuild gives no identity before it has torn down what is doomed, and takes none away afterwards.
That is why the indices of a category increase in the course of a rebuild, through the documents in
the order of their paths and through each of them children first.
-/

namespace SymbolGraph

/-! ## Libraries without holes -/

namespace LibrarySet

variable {set set' : LibrarySet}

/-- Libraries other than the project have no holes. -/
def Compact (set : LibrarySet) : Prop :=
  ∀ library lib, library ≠ .project → set.get? library = some lib → lib.Full

lemma Compact.of_skeleton_eq (compact : set.Compact) (h : set'.skeleton = set.skeleton) :
    set'.Compact := by
  intro library lib' hforeign hlib' category index hlt
  obtain ⟨lib, hlib, hskeleton⟩ := get?_of_skeleton_eq h hlib'
  rw [Library.tableSize_of_skeleton_eq hskeleton] at hlt
  exact mt (Library.slot?_eq_none_of_skeleton_eq hskeleton ..).1
    (compact library lib hforeign hlib category index hlt)

lemma compact_new (projectName kernelName : String) : (new projectName kernelName).Compact := by
  intro library lib _ hlib category index hlt
  obtain ⟨name, rfl⟩ := get?_new hlib
  simp [Library.tableSize] at hlt

lemma Compact.addImport (compact : set.Compact) (name : String) :
    (set.addImport name).2.Compact := by
  intro library lib hforeign hlib
  rw [get?_addImport] at hlib
  split at hlib
  · obtain rfl := Option.some.inj hlib
    exact fun category index hlt => by simp [Library.tableSize] at hlt
  · exact compact library lib hforeign hlib

end LibrarySet

/-- The model is in a state in which identities are given first fit. -/
structure Granting (set : LibrarySet) (pool : IndexPool) (units : List SourceUnit) : Prop where
  settled : set.Settled units
  pool : pool.Matches set.project []
  compact : set.Compact

/-- Tidying a new document. -/
lemma Granting.tidy {set : LibrarySet} {pool : IndexPool} {units : List SourceUnit}
    (granting : Granting set pool units) {library : LibraryId} {lib : Library}
    (hloaded : set.get? library = some lib) (tree : FileTree) :
    ∃ bench, Workbench.tidy ⟨set, pool, .new tree library⟩ = ⟨bench, none⟩ ∧
      Granting bench.libraries bench.pool (bench.unit :: units) ∧
      set.Grows library bench.libraries ∧
      Workbench.Allots ⟨set, pool, .new tree library⟩ tree.root.nodes
        (Workbench.allotments ⟨set, pool, .new tree library⟩) bench := by
  obtain ⟨bench, htidy, hsettled, hpool, grows, -, hlibrary, -⟩ :=
    granting.settled.tidy hloaded granting.pool tree
  have hid := granting.settled.id_eq hloaded
  have hmatch : lib.id = .project → pool.Matches lib [] := by
    intro hproject
    rw [← hid, hproject] at hloaded
    obtain rfl : set.project = lib := Option.some.inj hloaded
    exact granting.pool
  obtain ⟨bench', htidy', allots⟩ := Workbench.allots_tidy hloaded hid hmatch fun hforeign =>
    granting.compact library lib (hid ▸ hforeign) hloaded
  obtain rfl : bench = bench' := congrArg Outcome.state (htidy.symm.trans htidy')
  refine ⟨bench, htidy, ⟨hsettled, hpool, fun other lib' hforeign hlib' => ?_⟩, grows, allots⟩
  -- A library that is not tidied is not touched either, and the tidied one stays without holes if
  -- it is not the project.
  by_cases heq : other = library
  · obtain ⟨lib'', ready⟩ := allots.ready
    have hloaded' := ready.loaded
    rw [hlibrary, ← heq, hlib'] at hloaded'
    obtain rfl := Option.some.inj hloaded'
    exact ready.full fun h => hforeign (heq.trans (hlibrary.symm.trans (ready.id_eq.symm.trans h)))
  · exact granting.compact other lib' hforeign ((grows.other heq).symm.trans hlib')

theorem loadInvariant_granting : LoadInvariant Granting where
  settled h := h.settled
  pool h := h.pool
  perm h hperm := ⟨h.settled.perm hperm, h.pool, h.compact⟩
  addImport name h := ⟨h.settled.addImport name, h.pool, h.compact.addImport name⟩
  tidy := by
    intro set pool units library lib tree bench h _ hloaded htidy
    obtain ⟨bench', htidy', granting, -⟩ := h.tidy hloaded tree
    obtain rfl : bench = bench' := congrArg Outcome.state (htidy.symm.trans htidy')
    exact granting
  finish := by
    intro set pool units batch library options h _ _
    obtain ⟨hset, hunits⟩ := Linkages.skeleton_finish ⟨set, batch⟩ options library
    refine ⟨h.settled.of_skeleton_eq hset ?_, ?_, h.compact.of_skeleton_eq hset⟩
    · rw [List.map_append, hunits, List.map_append]
    · exact h.pool.of_skeleton_eq (congrArg LibrarySet.project hset)

/-! ## The moments of a run -/

/-- The moments at which identities are given are those of the documents that are tidied. -/
def Watch.allotments : Watch Allotment where
  tidying := Workbench.allotments

namespace Session

/-- The moments of a request.  In a rebuild these are those of the documents that are read again,
and then those of the imports that are named for the first time. -/
def performAllotments (session : Session) (request : Request) : List Allotment :=
  performLog .allotments session request

/-- The moments of a run from the start, where the kernel is compiled. -/
def allotments (manifest : Manifest) (sources : Sources) (initial : Session)
    (requests : List Request) :
    List Allotment :=
  log .allotments manifest sources initial requests

end Session

/-! ## What they say -/

/-- From one state of the model to a later one identities are given outside the project. -/
def FillsAbroad (before : LibrarySet) (allotments : List Allotment) (after : LibrarySet) : Prop :=
  Filling before allotments after ∧ ∀ allotment ∈ allotments,
  allotment.bench.unit.library ≠ .project

lemma FillsAbroad.trans {a b c : LibrarySet} {xs ys : List Allotment} (h : FillsAbroad a xs b)
    (k : FillsAbroad b ys c) : FillsAbroad a (xs ++ ys) c :=
  ⟨h.1.trans k.1, fun allotment hmem =>
    (List.mem_append.1 hmem).elim (h.2 allotment) (k.2 allotment)⟩

lemma FillsAbroad.of_skeleton_eq {a b : LibrarySet} (h : b.skeleton = a.skeleton) :
    FillsAbroad a [] b :=
  ⟨.of_skeleton_eq h, by simp⟩

lemma LibrarySet.fillsAbroad_addImport (set : LibrarySet) (name : String) :
    FillsAbroad set [] (set.addImport name).2 := by
  refine ⟨.of_occupied fun id => ?_, by simp⟩
  rw [Occupied, Occupied, slot?, slot?, get?_addImport]
  split
  · next h =>
    rw [h, get?_addImport_fst, Option.bind_some, Option.bind_none, Library.slot?, Library.table_new]
    simp
  · rfl

/-- The documents of a batch. -/
lemma Batch.fillsAbroad {library : LibraryId} (hforeign : library ≠ .project)
    (trees : List FileTree)
    (batch : Batch) {units : List SourceUnit} (granting : Granting batch.libraries batch.pool units)
    (hloaded : ∃ lib, batch.libraries.get? library = some lib) :
    ∃ batch', Outcome.forEach (Batch.tidy library) trees batch = ⟨batch', none⟩ ∧
      FillsAbroad batch.libraries (Outcome.trace (Batch.tidy library)
        (Batch.tidyLog .allotments library) trees batch)
        batch'.libraries := by
  induction trees generalizing batch units with
  | nil => exact ⟨batch, rfl, .of_skeleton_eq rfl⟩
  | cons tree rest ih =>
    obtain ⟨lib, hlib⟩ := hloaded
    obtain ⟨bench, htidy, granting', grows, allots⟩ := granting.tidy hlib tree
    have hstep : Batch.tidy library tree batch
        = ⟨⟨bench.libraries, bench.pool, batch.units ++ [bench.unit]⟩, none⟩ := by
      simp only [Batch.tidy, htidy]
    obtain ⟨batch', hrest, fills⟩ :=
      @ih ⟨bench.libraries, bench.pool, batch.units ++ [bench.unit]⟩ _ granting' (grows.keeps hlib)
    refine ⟨batch', ?_, ?_⟩
    · rw [Outcome.forEach, hstep, Outcome.andThen_of_none, hrest]
    · rw [Outcome.trace, hstep, Outcome.follow_of_none]
      refine FillsAbroad.trans ⟨allots.filling, fun allotment hmem => ?_⟩ fills
      rw [allots.own allotment hmem]
      exact hforeign

namespace Session

variable {session : Session} {extra : List SourceUnit}

/-- Loads give identities outside the project. -/
theorem logInvariant_fillsAbroad : LogInvariant .allotments Granting fun before allotments after =>
    FillsAbroad before.libraries allotments after.libraries where
  loads := loadInvariant_granting
  refl _ := .of_skeleton_eq rfl
  trans := FillsAbroad.trans
  registered {session _} name _ := session.libraries.fillsAbroad_addImport name
  tidied {session _ _ trees batch} keeps hforeign hloaded _ hbatch := by
    obtain ⟨batch', hbatch', fills⟩ := Batch.fillsAbroad hforeign trees
      ⟨session.libraries, session.pool, []⟩ keeps.holds hloaded
    obtain rfl : batch = batch' := congrArg Outcome.state (hbatch.symm.trans hbatch')
    exact fills
  filed {session _ library units} _ _ _ :=
    .of_skeleton_eq (Linkages.skeleton_finish ⟨session.libraries, units⟩ session.options library).1

/-! ## The moments of a rebuild -/

/-- Disposing of documents of the project takes declarations away, and only from the project. -/
lemma occupied_disposes (set : LibrarySet) (torn : List SourceUnit)
    (htorn : ∀ unit ∈ torn, unit.library = .project) :
    (∀ library ≠ .project, (Linkages.each Linkage.dispose set torn).libraries.get? library
        = set.get? library) ∧
      ∀ id, (Linkages.each Linkage.dispose set torn).libraries.Occupied id → set.Occupied id := by
  have herase (decls : List DeclId) (lib : Library) {category : Category} {index : Nat}
      (h : (decls.foldl Library.eraseRecord lib).slot? category index ≠ none) :
      lib.slot? category index ≠ none := by
    induction decls generalizing lib with
    | nil => exact h
    | cons decl rest ih =>
      have hrest := ih _ h
      rw [Library.slot?_eraseRecord] at hrest
      split at hrest
      · exact absurd rfl hrest
      · exact hrest
  have hclose (document : String) (spaces : List SpaceId) (lib : Library) :
      (spaces.foldl (Library.close document) lib).tables = lib.tables := by
    induction spaces generalizing lib with
    | nil => rfl
    | cons space rest ih => exact ih _
  induction torn generalizing set with
  | nil => exact ⟨fun _ _ => rfl, fun _ h => h⟩
  | cons unit rest ih =>
    have hproject := htorn unit (List.mem_cons_self ..)
    obtain ⟨hother, hlive⟩ := @ih (Linkage.dispose ⟨set, unit⟩).libraries
      fun u hu => htorn u (List.mem_cons_of_mem _ hu)
    have hstep : (Linkage.dispose ⟨set, unit⟩).libraries = set.adjust .project fun _ =>
        unit.spaces.reverse.foldl (Library.close unit.path)
          (unit.declarations.foldl Library.eraseRecord set.project) := by
      have hget : set.get? .project = some set.project := rfl
      simp only [Linkage.dispose, hproject, hget]
    refine ⟨fun library hforeign => ?_, fun id hid => ?_⟩
    · refine (hother library hforeign).trans ?_
      rw [hstep, LibrarySet.get?_adjust, if_neg (Ne.symm hforeign)]
    · have hid := hlive id hid
      rw [LibrarySet.Occupied, LibrarySet.slot?, hstep, LibrarySet.get?_adjust] at hid
      rw [LibrarySet.Occupied, LibrarySet.slot?]
      split at hid
      · next heq =>
        have hget : set.get? id.library = some set.project := by rw [← heq]; rfl
        rw [hget, Option.map_some, Option.bind_some, Library.slot?, Library.table, hclose] at hid
        rw [hget, Option.bind_some]
        exact herase unit.declarations set.project hid
      · exact hid

/-- Tidying documents of the project in order. -/
lemma fills_tidyFiles (session : Session) (trees : List FileTree) {units : List SourceUnit}
    (granting : Granting session.libraries session.pool units) :
    ∃ after, Outcome.forEach tidyFile trees session = ⟨after, none⟩ ∧
      Filling session.libraries (Outcome.trace tidyFile (fileLog .allotments) trees session)
        after.libraries ∧
      (∀ allotment ∈ Outcome.trace tidyFile (fileLog .allotments) trees session,
        allotment.bench.unit.library = .project) ∧
      (Outcome.trace tidyFile (fileLog .allotments) trees session).map Allotment.node
        = trees.flatMap (fun tree => tree.root.nodes) ∧ after.libraries.Compact := by
  -- On the documents in their order; what the first one fills stays filled.
  induction trees generalizing session units with
  | nil => exact ⟨session, rfl, .refl _, by simp [Outcome.trace], rfl, granting.compact⟩
  | cons tree rest ih =>
    have hproject : session.libraries.get? .project = some session.libraries.project := rfl
    obtain ⟨bench, htidy, granting', -, allots⟩ := granting.tidy hproject tree
    have hstep : tidyFile tree session = ⟨session.place bench, none⟩ := tidyFile_eq htidy
    obtain ⟨after, hrest, fills, howned, hnodes, compact⟩ :=
      @ih (session.place bench) (bench.unit :: units) granting'
    refine ⟨after, ?_, ?_, ?_, ?_, compact⟩
    · rw [Outcome.forEach, hstep, Outcome.andThen_of_none, hrest]
    · rw [Outcome.trace, hstep, Outcome.follow_of_none]
      exact allots.filling.trans fills
    · rw [Outcome.trace, hstep, Outcome.follow_of_none]
      intro allotment hmem
      exact (List.mem_append.1 hmem).elim (allots.own allotment) (howned allotment)
    · rw [Outcome.trace, hstep, Outcome.follow_of_none, List.map_append, hnodes, List.flatMap_cons]
      exact congrArg (· ++ _) allots.nodes_eq

/-- The session, as one that loads may start from. -/
lemma Sound.granting (sound : session.Sound) (compact : session.libraries.Compact) :
    session.InOrder Granting [] :=
  ⟨sound.keeps ⟨sound.settled, sound.pool, compact⟩, by simp⟩

/-- The moments of a rebuild that succeeds are those of tidying and those of the imports. -/
theorem performAllotments_rebuild {work : Demolition} {tidied : Session}
    (hgroundwork : session.groundwork? = some tidied) (htear : session.tearDown = ⟨work, none⟩)
    (hpending : work.session.unlinkAll.pendingTrees = session.pendingTrees) :
    session.performAllotments .rebuild
      = Outcome.trace tidyFile (fileLog .allotments) session.pendingTrees
          { work.session.unlinkAll with dirty := [] } ++
        importsLog .allotments (importNames tidied.files) tidied := by
  rw [performAllotments, performLog, hgroundwork, htear]
  simp only [Outcome.follow_of_none, hpending, Option.elim_some, relinkLog]
  exact congrArg _ (List.append_nil _)

/-- After the imports are loaded, linking and checking change no skeleton. -/
lemma skeleton_libraries_relink (session : Session) : session.relink.libraries.skeleton
    = (session.loadImports (importNames session.files)).libraries.skeleton := by
  rw [Session.relink, libraries_checkProject, LibrarySet.skeleton_check]
  exact (Linkages.skeleton_link ⟨_, _⟩ _).1

/-- A rebuild takes declarations away before it gives identities, not afterwards. -/
theorem Sound.fills_rebuild (sound : session.Sound) (compact : session.libraries.Compact) :
    (∃ cleared : LibrarySet, (∀ id, cleared.Occupied id → session.libraries.Occupied id) ∧
        Filling cleared (session.performAllotments .rebuild) session.rebuild.1.libraries) ∧
      session.rebuild.1.libraries.Compact ∧
      ((session.performAllotments .rebuild).filter fun allotment =>
          allotment.bench.unit.library = .project).map Allotment.node
        = session.pendingTrees.flatMap fun tree => tree.root.nodes := by
  obtain ⟨torn, pool, hperm, ⟨gone, htear⟩, hsettled, hpool⟩ := sound.tearDown_eq
  obtain ⟨hdetached, -⟩ :=
    Linkages.skeleton_each Linkage.sameSkeleton_detach session.libraries torn
  obtain ⟨-, hproject⟩ := sound.settled_detached hperm
  obtain ⟨hother, hlive⟩ := occupied_disposes
    (Linkages.each Linkage.detach session.libraries torn).libraries _ hproject
  generalize (Linkages.each Linkage.dispose
    (Linkages.each Linkage.detach session.libraries torn).libraries
    (Linkages.each Linkage.detach session.libraries torn).units).libraries = disposed
    at htear hsettled hpool hother hlive
  have hcompact : disposed.Compact := fun library lib hforeign hlib =>
    (compact.of_skeleton_eq hdetached) library lib hforeign
    ((hother library hforeign).symm.trans hlib)
  -- the session in which the documents are read again
  obtain ⟨work, hwork⟩ : ∃ work : Session, work = { session with
      libraries := disposed, pool, files := session.untouched, removed := [] } := ⟨_, rfl⟩
  rw [← hwork] at htear
  have hunlinked : work.unlinkAll.libraries.skeleton = disposed.skeleton := by
    rw [hwork]
    exact (Linkages.skeleton_each Linkage.sameSkeleton_unlink disposed session.untouched).1
  have granting : Granting work.unlinkAll.libraries work.unlinkAll.pool
      (session.untouched ++ session.foreign.values.flatten) := by
    refine ⟨hsettled.of_skeleton_eq hunlinked rfl, ?_, hcompact.of_skeleton_eq hunlinked⟩
    have hsame : work.unlinkAll.pool = pool := by rw [hwork]; rfl
    rw [hsame]
    exact hpool.of_skeleton_eq (congrArg LibrarySet.project hunlinked)
  have hpending : work.unlinkAll.pendingTrees = session.pendingTrees := by rw [hwork]; rfl
  obtain ⟨tidied, htidy, fills, howned, hnodes, compact'⟩ := fills_tidyFiles
    { work.unlinkAll with dirty := [] } session.pendingTrees granting
  have htidied : work.unlinkAll.tidyPending = ⟨tidied, none⟩ := by rw [tidyPending, hpending, htidy]
  obtain ⟨-, -, tidied', report, -, -, sound', -, hgroundwork, hrebuild⟩ := sound.groundwork_eq
  have hsame : tidied = tidied' := by
    simpa only [groundwork?, htear, htidied, Option.some.injEq] using hgroundwork
  subst hsame
  obtain ⟨inOrder, fills', habroad⟩ := (sound'.granting compact').tells_loadImports
    logInvariant_fillsAbroad (importNames tidied.files)
  have hmoments := performAllotments_rebuild hgroundwork htear hpending
  have hrelinked := tidied.skeleton_libraries_relink
  refine ⟨⟨work.unlinkAll.libraries, fun id hid => ?_, ?_⟩, ?_, ?_⟩
  · have hdisposed := (Filling.of_skeleton_eq hunlinked.symm).keeps id hid
    exact (Filling.of_skeleton_eq hdetached.symm).keeps id (hlive id hdisposed)
  · rw [hmoments, hrebuild]
    have whole := (fills.trans fills').trans (Filling.of_skeleton_eq hrelinked)
    rw [List.append_nil] at whole
    exact whole
  · rw [hrebuild]
    exact inOrder.keeps.holds.compact.of_skeleton_eq hrelinked
  · rw [hmoments, List.filter_append, List.filter_eq_self.2 fun allotment hmem => by
      simpa using howned allotment hmem, List.filter_eq_nil_iff.2 fun allotment hmem => by
      simpa using habroad allotment hmem, List.append_nil, hnodes]

/-! ## The moments of a run -/

/-- What the moments of a run say. -/
structure Allotted (before : LibrarySet) (allotments : List Allotment)
    (after : LibrarySet) : Prop where
  firstFit : ∀ allotment ∈ allotments, ∃ lib lib' index, allotment.FirstFit lib lib' index
  only : ∀ id, id.define = none → after.Occupied id → before.Occupied id ∨ id ∈ givenAt allotments

lemma Allotted.trans {a b c : LibrarySet} {xs ys : List Allotment} (h : Allotted a xs b)
    (k : Allotted b ys c) : Allotted a (xs ++ ys) c := by
  refine ⟨fun allotment hmem => ?_, fun id htop hid => ?_⟩
  · exact (List.mem_append.1 hmem).elim (h.firstFit allotment) (k.firstFit allotment)
  · rw [givenAt, List.flatMap_append, List.mem_append]
    rcases k.only id htop hid with hid | hid
    · exact (h.only id htop hid).imp_right Or.inl
    · exact Or.inr (Or.inr hid)

lemma Allotted.of_filling {before cleared after : LibrarySet} {allotments : List Allotment}
    (h : ∀ id, cleared.Occupied id → before.Occupied id)
    (fills : Filling cleared allotments after) :
    Allotted before allotments after :=
  ⟨fills.firstFit, fun id htop hid => (fills.only id htop hid).imp_left (h id)⟩

/-- What one request gives. -/
lemma Sound.allotted_perform (sound : session.Sound) (compact : session.libraries.Compact)
    (request : Request) :
    Allotted session.libraries (session.performAllotments request)
      (session.perform request).libraries ∧
      (session.perform request).libraries.Compact := by
  have hidle : Allotted session.libraries [] session.libraries :=
    .of_filling (fun _ h => h) (.refl _)
  cases request with
  | rebuild =>
    obtain ⟨⟨cleared, hcleared, fills⟩, compact', -⟩ := sound.fills_rebuild compact
    exact ⟨.of_filling hcleared fills, compact'⟩
  | load name =>
    rw [Session.perform, performAllotments]
    rcases loadLibrary_log .allotments session name with ⟨hsession, hlog⟩ | ⟨hsession, hlog⟩
    · rw [hsession, hlog]
      exact ⟨hidle, compact⟩
    · obtain ⟨inOrder, fills⟩ := (sound.granting compact).tells_load logInvariant_fillsAbroad
        session.manifest.libraries.length name
      rw [hsession, hlog]
      exact ⟨.of_filling (fun _ h => h) fills.1, inOrder.keeps.holds.compact⟩
  | insert tree => exact ⟨hidle, compact⟩
  | erase path => exact ⟨hidle, compact⟩
  | insertLibrary name trees => exact ⟨hidle, compact⟩
  | changed path => exact ⟨hidle, compact⟩
  | dropped path => exact ⟨hidle, compact⟩

/-- What several requests give. -/
theorem Sound.allotted_run (sound : session.Sound) (compact : session.libraries.Compact)
    (requests : List Request) :
    Allotted session.libraries (runLog .allotments session requests)
      (session.run requests).libraries ∧
      (session.run requests).libraries.Compact := by
  induction requests generalizing session with
  | nil => exact ⟨.of_filling (fun _ h => h) (.refl _), compact⟩
  | cons request rest ih =>
    obtain ⟨allotted, compact'⟩ := sound.allotted_perform compact request
    obtain ⟨allotted', compact''⟩ := ih (sound.perform request) compact'
    exact ⟨allotted.trans allotted', compact''⟩

/-- In every run, every identity that is given, in whatever library, has the least index that no
live declaration of its category has there at that moment, and a table grows only if it has no hole;
and what is live has been given its identity at one of these moments.  In a rebuild the indices of a
category of a library increase from each moment to the next, and the documents of the project are
gone through in the order of their paths, each children first. -/
theorem identities_given_first_fit (manifest : Manifest) (sources : Sources) :
    ∃ initial, Session.start manifest sources = .ok initial ∧ ∀ requests : List Request,
      let session := initial.run requests
      (∀ allotment ∈ allotments manifest sources initial requests,
        ∃ lib lib' index, allotment.FirstFit lib lib' index) ∧
      (∀ id, id.define = none → session.libraries.Occupied id →
        id ∈ givenAt (allotments manifest sources initial requests)) ∧
      (givenAt (session.performAllotments .rebuild)).Pairwise DeclId.Before ∧
      ((session.performAllotments .rebuild).filter fun allotment =>
          allotment.bench.unit.library = .project).map Allotment.node
        = session.pendingTrees.flatMap (fun tree => tree.root.nodes) ∧
      (session.pendingTrees.map FileTree.path).Pairwise (· < ·) := by
  obtain ⟨initial, hstart, sound, -⟩ := Sound.start manifest sources
  have granting : Granting (.new manifest.name manifest.kernel) {} [] :=
    ⟨LibrarySet.settled_new .., IndexPool.matches_new manifest.name, LibrarySet.compact_new _ _⟩
  have fills := (tells_start logInvariant_fillsAbroad hstart granting).1
  obtain ⟨initial', hstart', keeps', -⟩ := Keeps.start loadInvariant_granting
    manifest sources granting
  obtain rfl : initial = initial' := Except.ok.inj (hstart.symm.trans hstart')
  refine ⟨initial, hstart, fun requests => ?_⟩
  obtain ⟨allotted, compact⟩ := sound.allotted_run keeps'.holds.compact requests
  have whole := (Allotted.of_filling (fun _ h => h) fills).trans allotted
  obtain ⟨⟨cleared, -, fills'⟩, -, hnodes⟩ := (sound.run requests).fills_rebuild compact
  refine ⟨whole.firstFit, fun id htop hid => (whole.only id htop hid).resolve_left fun hold => ?_,
    fills'.increasing, hnodes,
    (sound.run requests).dirty_sorted.sublist (pendingTrees_paths _)⟩
  -- nothing is live before the kernel is compiled
  rw [LibrarySet.Occupied, LibrarySet.slot?] at hold
  cases hlib : (unloaded manifest sources).libraries.get? id.library with
  | none => simp [hlib] at hold
  | some lib =>
    obtain ⟨name, rfl⟩ := LibrarySet.get?_new hlib
    simp [hlib, Library.slot?] at hold

end Session

end SymbolGraph
