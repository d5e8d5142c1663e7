import SymbolGraph.Proofs.Session.RebuildTotality

/-!
# Runs of a session

A session serves requests one after the other: the sources change, edits are announced, rebuilds are
asked for, libraries are loaded.  `Session.run` serves a list of them, so a statement about every
list is one about every reachable state.  Each request keeps a session sound, hence every state of
every run is sound (`Session.Sound.run`), and with it the free indices of the project are at all
times the empty slots of its tables, the documents list the live declarations, and no rebuild meets
a fault.
-/

namespace SymbolGraph

/-- What can be asked of a session. -/
inductive Request where
  /-- Add a document to the sources, or replace it. -/
  | insert (tree : FileTree)
  /-- Remove a document from the sources. -/
  | erase (path : String)
  /-- Add the documents of a library to the sources, or replace them. -/
  | insertLibrary (name : String) (trees : List FileTree)
  | changed (path : String)
  | dropped (path : String)
  | rebuild
  | load (name : String)

namespace Session

/-- Serve one request. -/
def perform (session : Session) : Request → Session
  | .insert tree => { session with sources := session.sources.insert tree }
  | .erase path => { session with sources := session.sources.erase path }
  | .insertLibrary name trees =>
    { session with sources := session.sources.insertLibrary name trees }
  | .changed path => session.changed path
  | .dropped path => session.dropped path
  | .rebuild => session.rebuild.1
  | .load name => (session.loadLibrary name).1

/-- Serve several requests in order. -/
def run (session : Session) (requests : List Request) : Session := requests.foldl perform session

@[simp] lemma run_nil (session : Session) : session.run [] = session := rfl

@[simp] lemma run_cons (session : Session) (request : Request) (requests : List Request) :
    session.run (request :: requests) = (session.perform request).run requests := rfl

/-- What every request keeps holds after every run. -/
lemma run_induction {P : Session → Prop} {session : Session} (h : P session)
    (hstep : ∀ session request, P session → P (session.perform request))
    (requests : List Request) : P (session.run requests) := by
  induction requests generalizing session with
  | nil => exact h
  | cons request rest ih => exact ih (hstep session request h)

/-- Loading by name does nothing, unless the name is that of a declared import that is not loaded
yet. -/
lemma loadLibrary_fst_eq (session : Session) (name : String) : (session.loadLibrary name).1
    = if name = session.manifest.kernel ∨ name = session.manifest.name ∨
        (session.libraries.named? name).isSome ∨ !session.manifest.declares name then session
      else (load session.manifest.libraries.length name session).state := by
  -- The four early returns leave the session as it is, whatever they answer; past them the missing
  -- sources are the only way not to load.
  by_cases hskip : name = session.manifest.kernel ∨ name = session.manifest.name ∨
      (session.libraries.named? name).isSome ∨ !session.manifest.declares name
  · rw [if_pos hskip]
    unfold loadLibrary
    split
    · rfl
    · split
      · rfl
      · split
        · rfl
        · next hkernel hname _ hnamed =>
          rw [if_pos (by simpa [hkernel, hname, hnamed] using hskip)]
  · rw [if_neg hskip]
    obtain ⟨hkernel, hskip⟩ := not_or.1 hskip
    obtain ⟨hname, hskip⟩ := not_or.1 hskip
    obtain ⟨hnamed, hdeclared⟩ := not_or.1 hskip
    have hnone : session.libraries.named? name = none := by simpa using hnamed
    rw [loadLibrary, if_neg hkernel, if_neg hname, hnone]
    dsimp only
    rw [if_neg hdeclared]
    split
    · next hsources =>
      have hmissing : session.sources.library? name = none := by simpa using hsources
      cases session.manifest.libraries.length <;> simp [load, hmissing]
    · split <;> rfl

/-- Loading by name changes the session as a load does, or not at all. -/
lemma loadLibrary_fst (session : Session) (name : String) :
    (session.loadLibrary name).1 = session ∨
      (session.loadLibrary name).1
        = (load session.manifest.libraries.length name session).state := by
  rw [loadLibrary_fst_eq]
  split
  · exact Or.inl rfl
  · exact Or.inr rfl

/-! ## Sound sessions -/

variable {session : Session}

theorem Sound.perform (sound : session.Sound) (request : Request) :
    (session.perform request).Sound := by
  cases request with
  | insert tree => exact sound.of_skeleton_eq rfl rfl rfl rfl sound.dirty_sorted
  | erase path => exact sound.of_skeleton_eq rfl rfl rfl rfl sound.dirty_sorted
  | insertLibrary name trees => exact sound.of_skeleton_eq rfl rfl rfl rfl sound.dirty_sorted
  | changed path =>
    exact sound.of_skeleton_eq rfl rfl rfl rfl (pairwise_addSorted sound.dirty_sorted path)
  | dropped path =>
    exact sound.of_skeleton_eq rfl rfl rfl rfl (sound.dirty_sorted.sublist List.erase_sublist)
  | rebuild =>
    obtain ⟨torn, pool, tidied, report, -, -, hsound, -, hrebuild⟩ := sound.rebuild_eq
    rw [Session.perform, hrebuild]
    exact hsound.relink
  | load name =>
    rw [Session.perform]
    rcases session.loadLibrary_fst name with h | h
    · rw [h]
      exact sound
    · obtain ⟨after, hload, keeps, loaded, -⟩ :=
        (sound.keeps ⟨sound.settled, sound.pool⟩).load loadInvariant_settled
          session.manifest.libraries.length name
      rw [h, hload]
      exact sound.of_keeps loaded keeps

theorem Sound.run (sound : session.Sound) (requests : List Request) :
    (session.run requests).Sound :=
  run_induction sound (fun _ request h => h.perform request) requests

/-- A property that loading keeps holds when the kernel has been loaded. -/
lemma Keeps.start {P : LibrarySet → IndexPool → List SourceUnit → Prop} (inv : LoadInvariant P)
    (manifest : Manifest) (sources : Sources)
    (h : P (.new manifest.name manifest.kernel) {} []) :
    ∃ session, Session.start manifest sources = .ok session ∧ session.Keeps P [] ∧
      Loaded (unloaded manifest sources) session := by
  have keeps : (unloaded manifest sources).Keeps P [] := ⟨h, by simp [unloaded, Assoc.values],
    by simp [unloaded]⟩
  obtain ⟨session, hcompile, hkeeps, hloaded, -⟩ := keeps.compile inv
    (fun _ session => session)
    (fun _ extra session keeps => ⟨keeps, .refl session, fun _ h => Or.inl h⟩)
    LibraryId.kernel_ne_project ⟨_, rfl⟩ (by simp [unloaded]) (kernelTrees manifest sources)
  exact ⟨session, by simp only [Session.start, hcompile], hkeeps, hloaded⟩

/-- A session starts without a fault, and in order. -/
lemma Sound.start (manifest : Manifest) (sources : Sources) :
    ∃ session, Session.start manifest sources = .ok session ∧ session.Sound ∧
      session.manifest = manifest := by
  obtain ⟨session, hstart, keeps, loaded⟩ := Keeps.start loadInvariant_settled manifest sources
    ⟨LibrarySet.settled_new .., IndexPool.matches_new manifest.name⟩
  refine ⟨session, hstart, ⟨keeps.holds.1, keeps.holds.2, ?_, ?_, keeps.foreign_library,
    keeps.foreign_loaded, ?_⟩, loaded.manifest_eq⟩
  · rw [loaded.files_eq]
    exact List.Pairwise.nil
  · rw [loaded.files_eq]
    simp [unloaded]
  · rw [loaded.dirty_eq]
    exact List.Pairwise.nil

/-! ## Tables, pool and documents -/

/-- The project holds exactly the project's documents. -/
lemma Sound.hosts (sound : session.Sound) : session.libraries.project.Hosts session.files := by
  have hproject : session.libraries.get? .project = some session.libraries.project := rfl
  have hosts := sound.settled.hosts hproject
  rwa [Session.units, List.filter_append, List.filter_eq_self.2, List.filter_eq_nil_iff.2,
    List.append_nil] at hosts
  · intro u hu
    simpa using sound.foreign_library u hu
  · intro u hu
    simpa using sound.files_library u hu

/-- In every state of every run, the free indices of the project are the empty slots below the ends
of its tables, the documents of the project list every live declaration once and nothing else, and
a rebuild succeeds. -/
theorem pool_tables_documents_agree (manifest : Manifest) (sources : Sources) :
    ∃ initial, Session.start manifest sources = .ok initial ∧ ∀ requests : List Request,
      let session := initial.run requests
      let project := session.libraries.project
      (∀ category index, index ∈ session.pool.free .project category ↔
        index < project.tableSize category ∧ project.slot? category index = none) ∧
      (session.files.flatMap SourceUnit.declarations).Nodup ∧
      (∀ decl, decl ∈ session.files.flatMap SourceUnit.declarations ↔
        decl = ⟨.project, decl.category, decl.index, none⟩ ∧
          (project.slot? decl.category decl.index).isSome) ∧
      ∃ report, session.rebuild.2 = .ok report := by
  obtain ⟨initial, hstart, hsound, -⟩ := Sound.start manifest sources
  refine ⟨initial, hstart, fun requests => ?_⟩
  have sound := hsound.run requests
  have hid : (initial.run requests).libraries.project.id = .project :=
    @LibrarySet.Settled.id_eq _ _ sound.settled .project _ rfl
  refine ⟨?_, sound.hosts.declarations_nodup, ?_, ?_⟩
  · intro category index
    have hfree := sound.pool.mem_free category index
    simpa using hfree
  · intro decl
    constructor
    · intro hdecl
      obtain ⟨heq, -, entry, hentry, -⟩ := sound.hosts.declared hdecl
      exact ⟨hid ▸ heq, by simp [hentry]⟩
    · rintro ⟨heq, hlive⟩
      obtain ⟨entry, hentry⟩ := Option.isSome_iff_exists.1 hlive
      refine sound.hosts.mem_declarations.2 ⟨entry, hentry, ?_⟩
      rw [sound.hosts.coherent.id_eq hentry, hid, ← heq]
  · obtain ⟨torn, pool, tidied, report, -, -, -, -, hrebuild⟩ := sound.rebuild_eq
    exact ⟨report, by rw [hrebuild]⟩

end Session

end SymbolGraph
