import SymbolGraph.Proofs.Session.RebuildTotality

/-!
# The registry of libraries

The *registry* of a library set says which imports there are, in order, with their identities and
names, and which library each name means.  Registering an import is the only step that writes to it
(`LibrarySet.registry_addImport`); tidying, linking, checking and teardown leave it alone, whatever
the state they start from and whether or not they meet a fault.

A registry is *regular* when the imports are numbered in order and every import is what its name
means.  Then no two imports have one name.
-/

namespace SymbolGraph

/-- Which imports there are, and what the names of libraries mean. -/
structure Registry where
  imports : List (LibraryId × String)
  names : Assoc String LibraryId

namespace Registry

/-- Register an import under the next free identity. -/
def add (registry : Registry) (name : String) : Registry :=
  let id := LibraryId.ofSlot registry.imports.length
  ⟨registry.imports ++ [(id, name)], registry.names.put name id⟩

/-- The imports are numbered in order, and each is what its name means. -/
structure Regular (registry : Registry) : Prop where
  numbered : ∀ i id name, registry.imports[i]? = some (id, name) → id = LibraryId.ofSlot i
  named : ∀ id name, (id, name) ∈ registry.imports → registry.names.at? name = some id

variable {registry : Registry}

lemma Regular.add (regular : registry.Regular) {name : String}
    (hname : registry.names.at? name = none) : (registry.add name).Regular where
  numbered i id other h := by
    rw [Registry.add, List.getElem?_append] at h
    split at h
    · exact regular.numbered i id other h
    · rw [List.getElem?_singleton] at h
      split at h
      · obtain ⟨rfl, rfl⟩ := Prod.mk.inj (Option.some.inj h)
        congr 1
        omega
      · cases h
  named id other h := by
    rw [Registry.add, Assoc.at?_put]
    rcases List.mem_append.1 h with h | h
    · have hold := regular.named id other h
      have hne : name ≠ other := by
        rintro rfl
        simp [hname] at hold
      rw [if_neg hne, hold]
    · obtain ⟨rfl, rfl⟩ := Prod.mk.inj (List.mem_singleton.1 h)
      exact if_pos rfl

/-! ### Several imports one after the other -/

lemma imports_foldl_add (names : List String) (registry : Registry) :
    (names.foldl add registry).imports.map Prod.snd
      = registry.imports.map Prod.snd ++ names := by
  induction names generalizing registry with
  | nil => simp
  | cons name rest ih => simp [ih, add]

/-- Names that are not registered anew mean what they meant. -/
lemma at?_foldl_add {names : List String} {name : String} (hname : name ∉ names)
    (registry : Registry) :
    (names.foldl add registry).names.at? name = registry.names.at? name := by
  induction names generalizing registry with
  | nil => rfl
  | cons first rest ih =>
    obtain ⟨hfirst, hrest⟩ := not_or.1 (List.mem_cons.not.1 hname)
    rw [List.foldl_cons, ih hrest, add, Assoc.at?_put, if_neg (Ne.symm hfirst)]

lemma isSome_at?_foldl_add {names : List String} {name : String} (registry : Registry)
    (h : name ∈ names ∨ (registry.names.at? name).isSome) :
    ((names.foldl add registry).names.at? name).isSome := by
  induction names generalizing registry with
  | nil => exact h.resolve_left List.not_mem_nil
  | cons first rest ih =>
    refine ih (registry.add first) ?_
    rw [add, Assoc.at?_put]
    split
    · exact Or.inr rfl
    · next hne =>
      rcases h with h | h
      · exact Or.inl ((List.mem_cons.1 h).resolve_left (Ne.symm hne))
      · exact Or.inr h

/-- Registering names that have no meaning yet, each once, keeps a registry regular. -/
lemma Regular.foldl_add {names : List String} (regular : registry.Regular)
    (hnodup : names.Nodup) (hnew : ∀ name ∈ names, registry.names.at? name = none) :
    (names.foldl Registry.add registry).Regular := by
  induction names generalizing registry with
  | nil => exact regular
  | cons first rest ih =>
    obtain ⟨hfirst, hrest⟩ := List.nodup_cons.1 hnodup
    refine ih (regular.add (hnew first List.mem_cons_self)) hrest fun name hname => ?_
    have hne : first ≠ name := by
      rintro rfl
      exact hfirst hname
    rw [Registry.add, Assoc.at?_put, if_neg hne]
    exact hnew name (List.mem_cons_of_mem _ hname)

end Registry

/-! ## The registry of a library set -/

namespace LibrarySet

/-- The registry of a library set. -/
def registry (set : LibrarySet) : Registry :=
  ⟨set.imports.map fun lib => (lib.id, lib.name), set.names⟩

theorem registry_addImport (set : LibrarySet) (name : String) :
    (set.addImport name).2.registry = set.registry.add name := by
  simp [registry, addImport, Registry.add, Library.new]

/-- Changing a library without changing its identity or name. -/
lemma registry_adjust {set : LibrarySet} {id : LibraryId} {f : Library → Library}
    (h : ∀ lib, set.get? id = some lib → (f lib).id = lib.id ∧ (f lib).name = lib.name) :
    (set.adjust id f).registry = set.registry := by
  rw [registry, names_adjust, registry]
  congr 1
  unfold adjust
  split
  · rfl
  · split
    · rfl
    · next hproject hkernel =>
      split
      · next slot hslot =>
        refine List.ext_getElem? fun i => ?_
        simp only [List.getElem?_map, List.getElem?_modify]
        cases hlib : set.imports[i]? with
        | none => rfl
        | some lib =>
          split
          · next heq =>
            obtain ⟨hid, hname⟩ := h lib (by
              rw [get?, if_neg hproject, if_neg hkernel, hslot, Option.bind_some, heq, hlib])
            simp [hid, hname]
          · rfl
      · rfl

lemma registry_of_skeleton_eq {set set' : LibrarySet} (h : set'.skeleton = set.skeleton) :
    set'.registry = set.registry := by
  have hkept (set : LibrarySet) : set.skeleton.registry = set.registry := by
    simp [registry, skeleton, Function.comp_def]
  rw [← hkept, h, hkept]

end LibrarySet

lemma Library.insert_registered {lib lib' : Library} {entry : Entry}
    (h : lib.insert entry = .ok lib') : lib'.id = lib.id ∧ lib'.name = lib.name := by
  simp only [insert] at h
  repeat' split at h
  all_goals cases h <;> exact ⟨rfl, rfl⟩

/-! ## Steps that leave the registry alone -/

/-- A step that leaves alone what is read, after another. -/
lemma Outcome.kept_andThen {σ ρ : Type} (read : σ → ρ) {outcome : Outcome σ}
    {step : σ → Outcome σ} (h : ∀ state, read (step state).state = read state) :
    read (outcome.andThen step).state = read outcome.state := by
  unfold Outcome.andThen
  split
  · exact h _
  · rfl

/-- Steps that leave alone what is read do so in a row. -/
lemma Outcome.kept_forEach {σ α ρ : Type} (read : σ → ρ) {step : α → σ → Outcome σ}
    (h : ∀ x state, read (step x state).state = read state) (xs : List α) (state : σ) :
    read (Outcome.forEach step xs state).state = read state := by
  induction xs generalizing state with
  | nil => rfl
  | cons x xs ih => exact (Outcome.kept_andThen read ih).trans (h x state)

namespace Tidy

lemma registry_store {bench : Workbench} {lib : Library} (entry : Entry)
    (h : bench.libraries.get? bench.unit.library = some lib) :
    (store bench lib entry).state.libraries.registry = bench.libraries.registry := by
  unfold store
  split
  · rfl
  · next lib' hinsert =>
    refine LibrarySet.registry_adjust fun old hold => ?_
    obtain rfl : lib = old := Option.some.inj (h.symm.trans hold)
    obtain ⟨hid, hname⟩ := Library.insert_registered hinsert
    exact ⟨hid, hname⟩

lemma registry_declaration (space : SpaceId) (node : DeclNode) (bench : Workbench) :
    (declaration space node bench).state.libraries.registry = bench.libraries.registry := by
  unfold declaration
  dsimp only
  split
  · rfl
  · next lib hlib =>
    split
    · rfl
    · next index pool hallocate =>
      refine registry_store _ ?_
      dsimp only
      split <;> exact hlib

lemma registry_openBlock (space : SpaceId) (name : Ident) (bench : Workbench) :
    (openBlock space name bench).2.libraries.registry = bench.libraries.registry := by
  unfold openBlock
  dsimp only
  split
  · rfl
  · exact LibrarySet.registry_adjust fun _ _ => ⟨rfl, rfl⟩

lemma tree_declaration (space : SpaceId) (node : DeclNode) (bench : Workbench) :
    (declaration space node bench).state.unit.tree = bench.unit.tree := by
  unfold declaration
  dsimp only
  split
  · rfl
  · split
    · rfl
    · unfold store
      split
      · dsimp only
        split <;> rfl
      · dsimp only [SourceUnit.occur]
        split <;> rfl

lemma tree_openBlock (space : SpaceId) (name : Ident) (bench : Workbench) :
    (openBlock space name bench).2.unit.tree = bench.unit.tree := by
  unfold openBlock
  dsimp only
  split <;> rfl

mutual

/-- What declarations and openings of blocks leave alone, whole blocks do. -/
theorem kept_block {ρ : Type} (read : Workbench → ρ)
    (hdeclaration : ∀ space node bench, read (declaration space node bench).state = read bench)
    (hopen : ∀ space name bench, read (openBlock space name bench).2 = read bench)
    (space : SpaceId) : ∀ (node : SpaceNode) (bench : Workbench),
      read (block space node bench).state = read bench
  | ⟨_, _, children, declarations⟩, bench => by
    rw [block, Outcome.kept_andThen read, kept_blocks read hdeclaration hopen space children bench]
    exact Outcome.kept_forEach read (hdeclaration space) declarations

theorem kept_blocks {ρ : Type} (read : Workbench → ρ)
    (hdeclaration : ∀ space node bench, read (declaration space node bench).state = read bench)
    (hopen : ∀ space name bench, read (openBlock space name bench).2 = read bench)
    (space : SpaceId) : ∀ (nodes : List SpaceNode) (bench : Workbench),
      read (blocks space nodes bench).state = read bench
  | [], _ => rfl
  | child :: rest, bench => by
    rw [blocks, Outcome.kept_andThen read (kept_blocks read hdeclaration hopen space rest)]
    split
    · exact kept_block read hdeclaration hopen space child bench
    · next name _ =>
      exact (kept_block read hdeclaration hopen _ child _).trans (hopen space name bench)

end

end Tidy

namespace Workbench

lemma registry_tidy (bench : Workbench) :
    bench.tidy.state.libraries.registry = bench.libraries.registry := by
  unfold tidy
  dsimp only
  split
  · rfl
  · exact Tidy.kept_block (fun bench => bench.libraries.registry) Tidy.registry_declaration
      Tidy.registry_openBlock _ _ _

lemma tree_tidy (bench : Workbench) : bench.tidy.state.unit.tree = bench.unit.tree := by
  unfold tidy
  dsimp only
  split
  · rfl
  · exact Tidy.kept_block (fun bench => bench.unit.tree) Tidy.tree_declaration Tidy.tree_openBlock
      _ _ _

lemma registry_mark (bench : Workbench) :
    bench.mark.state.libraries.registry = bench.libraries.registry := by
  unfold mark
  rw [Outcome.kept_forEach (fun bench : Workbench => bench.libraries.registry)]
  · refine LibrarySet.registry_of_skeleton_eq ((Linkage.sameSkeleton_unlink _).1.trans ?_)
    exact LibrarySet.skeleton_foldl LibrarySet.skeleton_stripRelations _ _
  · intro id bench
    unfold recycle
    split <;> rfl

end Workbench

lemma Linkage.registry_dispose (state : Linkage) :
    state.dispose.libraries.registry = state.libraries.registry := by
  unfold dispose
  dsimp only
  split
  · rfl
  · next lib hlib =>
    refine LibrarySet.registry_adjust fun old hold => ?_
    obtain rfl : lib = old := Option.some.inj (hlib.symm.trans hold)
    have herase : ∀ lib id, (Library.eraseRecord lib id).id = lib.id ∧
        (Library.eraseRecord lib id).name = lib.name := by
      intro lib id
      unfold Library.eraseRecord
      split <;> exact ⟨rfl, rfl⟩
    have hclose := List.foldlRecOn (motive := fun after : Library =>
        after.id = lib.id ∧ after.name = lib.name)
      state.unit.declarations Library.eraseRecord (b := lib) ⟨rfl, rfl⟩
      fun after hafter id _ => ⟨(herase after id).1.trans hafter.1,
        (herase after id).2.trans hafter.2⟩
    exact List.foldlRecOn (motive := fun after : Library =>
        after.id = lib.id ∧ after.name = lib.name)
      state.unit.spaces.reverse (Library.close state.unit.path) hclose
      fun after hafter _ _ => hafter

lemma Linkages.registry_each {pass : Linkage → Linkage}
    (h : ∀ state : Linkage, (pass state).libraries.registry = state.libraries.registry)
    (set : LibrarySet) (units : List SourceUnit) :
    (each pass set units).libraries.registry = set.registry := by
  induction units generalizing set with
  | nil => rfl
  | cons unit rest ih => exact (ih _).trans (h ⟨set, unit⟩)

lemma Linkages.registry_link (state : Linkages) (options : LinkOptions) :
    (state.link options).libraries.registry = state.libraries.registry :=
  LibrarySet.registry_of_skeleton_eq (state.skeleton_link options).1

namespace Session

lemma registry_tidyAll (library : LibraryId) (trees : List FileTree) (batch : Batch) :
    (Outcome.forEach (Batch.tidy library) trees batch).state.libraries.registry
      = batch.libraries.registry := by
  refine Outcome.kept_forEach (fun batch : Batch => batch.libraries.registry)
    (fun tree batch => ?_) trees batch
  have htidy := Workbench.registry_tidy ⟨batch.libraries, batch.pool, .new tree library⟩
  unfold Batch.tidy
  dsimp only
  split <;> exact htidy

lemma registry_overFiles {session : Session} {pass : Linkages → Linkages}
    (h : ∀ state, (pass state).libraries.registry = state.libraries.registry) :
    (session.overFiles pass).libraries.registry = session.libraries.registry :=
  h ⟨session.libraries, session.files⟩

lemma registry_checkProject (session : Session) :
    session.checkProject.libraries.registry = session.libraries.registry :=
  LibrarySet.registry_of_skeleton_eq (session.libraries.skeleton_check .project)

/-- The manifest of a session and the registry of its libraries. -/
def charter (session : Session) : Manifest × Registry :=
  (session.manifest, session.libraries.registry)

lemma charter_tearDown (session : Session) :
    session.tearDown.state.session.charter = session.charter := by
  have hfile (path : String) (work : Demolition) :
      (markFile path work).state.session.charter = work.session.charter := by
    unfold markFile
    dsimp only
    split
    · rfl
    · next unit _ =>
      have hunit := Workbench.registry_mark ⟨work.session.libraries, work.session.pool, unit⟩
      split <;> exact congrArg (Prod.mk work.session.manifest) hunit
  have hmark := Outcome.kept_forEach (fun work : Demolition => work.session.charter) hfile
    session.doomed ⟨session, []⟩
  unfold tearDown Outcome.andThen
  split
  · refine Eq.trans ?_ hmark
    exact congrArg (Prod.mk _) (Linkages.registry_each Linkage.registry_dispose _ _)
  · exact hmark

lemma charter_unlinkAll (session : Session) : session.unlinkAll.charter = session.charter :=
  congrArg (Prod.mk _) (registry_overFiles fun state => LibrarySet.registry_of_skeleton_eq
    (Linkages.skeleton_each Linkage.sameSkeleton_unlink state.libraries state.units).1)

lemma charter_tidyPending (session : Session) :
    session.tidyPending.state.charter = session.charter := by
  refine Outcome.kept_forEach charter (fun tree session => ?_) session.pendingTrees
    { session with dirty := [] }
  have htidy := Workbench.registry_tidy ⟨session.libraries, session.pool, .new tree .project⟩
  unfold tidyFile
  dsimp only
  split <;> exact congrArg (Prod.mk session.manifest) htidy

lemma charter_linked (session : Session) :
    (session.overFiles (·.link session.options)).checkProject.charter = session.charter := by
  refine (congrArg₂ Prod.mk (foreign_checkProject _).2 (registry_checkProject _)).trans ?_
  exact congrArg (Prod.mk session.manifest)
    (registry_overFiles fun state => state.registry_link session.options)

end Session

end SymbolGraph
