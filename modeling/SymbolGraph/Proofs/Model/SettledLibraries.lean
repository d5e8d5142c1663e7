import SymbolGraph.Proofs.Tidying.Totality

/-!
# All libraries and all documents

`set.Settled units` is the invariant of the whole model: every loaded library holds exactly those of
the documents `units` that belong to it, and every document is aligned with its library.  The list
is taken without regard to order, and it includes documents on their way in or out, so the one
statement serves between rebuilds as well as in the middle of them.

Linking keeps it because skeletons stay (`Settled.of_skeleton_eq`); loading a library, tidying a
document and disposing of one have a lemma each.
-/

namespace SymbolGraph

namespace LibrarySet

/-- Every library holds its documents, and every document is aligned with its library. -/
structure Settled (set : LibrarySet) (units : List SourceUnit) : Prop where
  id_eq : ∀ {library lib}, set.get? library = some lib → lib.id = library
  hosts : ∀ {library lib}, set.get? library = some lib →
    lib.Hosts (units.filter fun unit => unit.library = library)
  aligned : ∀ {unit lib}, unit ∈ units → set.get? unit.library = some lib → unit.Aligned lib
  loaded : ∀ {unit}, unit ∈ units → ∃ lib, set.get? unit.library = some lib

variable {set set' : LibrarySet} {units units' : List SourceUnit}

lemma get?_new {projectName kernelName : String} {library : LibraryId} {lib : Library}
    (h : (new projectName kernelName).get? library = some lib) :
    ∃ name, lib = .new library name := by
  unfold get? at h
  split at h
  · next hp =>
    subst hp
    exact ⟨projectName, (Option.some.inj h).symm⟩
  · split at h
    · next hk =>
      subst hk
      exact ⟨kernelName, (Option.some.inj h).symm⟩
    · cases hs : library.slot? with
      | none => simp [hs] at h
      | some slot => simp [hs, new] at h

lemma settled_new (projectName kernelName : String) : (new projectName kernelName).Settled [] := by
  refine ⟨?_, ?_, by simp, by simp⟩
  · intro library lib h
    obtain ⟨name, rfl⟩ := get?_new h
    rfl
  · intro library lib h
    obtain ⟨name, rfl⟩ := get?_new h
    exact Library.hosts_new library name

lemma Settled.perm (settled : set.Settled units) (h : units.Perm units') :
    set.Settled units' where
  id_eq := settled.id_eq
  hosts hget := (settled.hosts hget).perm (h.filter _)
  aligned hunit := settled.aligned (h.mem_iff.2 hunit)
  loaded hunit := settled.loaded (h.mem_iff.2 hunit)

lemma get?_of_skeleton_eq (h : set'.skeleton = set.skeleton) {library : LibraryId}
    {lib' : Library} (hget : set'.get? library = some lib') :
    ∃ lib, set.get? library = some lib ∧ lib'.skeleton = lib.skeleton := by
  have heq : (set.get? library).map Library.skeleton
      = (set'.get? library).map Library.skeleton := by
    rw [← get?_skeleton, ← get?_skeleton, h]
  rw [hget, Option.map_some] at heq
  obtain ⟨lib, hlib, hs⟩ := Option.map_eq_some_iff.1 heq
  exact ⟨lib, hlib, hs.symm⟩

/-- Linking, unlinking and checking keep the model settled. -/
theorem Settled.of_skeleton_eq (settled : set.Settled units) (hset : set'.skeleton = set.skeleton)
    (hunits : units'.map SourceUnit.skeleton = units.map SourceUnit.skeleton) :
    set'.Settled units' := by
  have hlibrary {unit unit' : SourceUnit} (he : unit'.skeleton = unit.skeleton) :
      unit'.library = unit.library := congrArg (·.library) he
  -- A library is settled by the claims of its own documents, which skeletons keep.
  have hclaims (library : LibraryId) :
      (units'.filter fun unit => unit.library = library).map SourceUnit.claims
        = (units.filter fun unit => unit.library = library).map SourceUnit.claims := by
    have hfilter (us : List SourceUnit) :
        (us.filter fun unit => unit.library = library).map SourceUnit.claims
          = ((us.map SourceUnit.skeleton).filter fun unit => unit.library = library).map
            SourceUnit.claims := by
      rw [List.filter_map, List.map_map]
      rfl
    rw [hfilter units', hunits, ← hfilter units]
  refine ⟨?_, ?_, ?_, ?_⟩
  · intro library lib' hget
    obtain ⟨lib, hlib, hs⟩ := get?_of_skeleton_eq hset hget
    rw [Library.id_of_skeleton_eq hs]
    exact settled.id_eq hlib
  · intro library lib' hget
    obtain ⟨lib, hlib, hs⟩ := get?_of_skeleton_eq hset hget
    exact ((settled.hosts hlib).of_skeleton_eq hs).congr (hclaims library)
  · intro unit' lib' hunit' hget
    obtain ⟨unit, hunit, he⟩ := SourceUnit.exists_of_skeleton_eq hunits hunit'
    obtain ⟨lib, hlib, hs⟩ := get?_of_skeleton_eq hset hget
    have hold := settled.aligned hunit (hlibrary he ▸ hlib)
    unfold SourceUnit.Aligned at hold ⊢
    rw [SourceUnit.tree_of_skeleton_eq he]
    exact hold.of_skeleton_eq he hs
  · intro unit' hunit'
    obtain ⟨unit, hunit, he⟩ := SourceUnit.exists_of_skeleton_eq hunits hunit'
    obtain ⟨lib, hlib⟩ := settled.loaded hunit
    obtain ⟨lib', hlib', -⟩ := get?_of_skeleton_eq hset.symm hlib
    exact ⟨lib', hlibrary he ▸ hlib'⟩

/-! ## Groups -/

/-- In no namespace do two groups have the same name: the groups are a map from names. -/
def GroupsByName (set : LibrarySet) : Prop :=
  ∀ ref space, set.space? ref = some space → space.groups.keys.Nodup

lemma Settled.groupsByName (settled : set.Settled units) : set.GroupsByName := by
  intro ref space hspace
  obtain ⟨lib, hlib, hspace⟩ := Option.bind_eq_some_iff.1 hspace
  exact (settled.hosts hlib).coherent.group_keys hspace

theorem GroupsByName.of_skeleton_eq (keyed : set.GroupsByName) (h : set'.skeleton = set.skeleton) :
    set'.GroupsByName := by
  intro ref space' hspace'
  obtain ⟨lib', hlib', hspace'⟩ := Option.bind_eq_some_iff.1 hspace'
  obtain ⟨lib, hlib, hskeleton⟩ := get?_of_skeleton_eq h hlib'
  obtain ⟨space, hspace, heq⟩ := Library.space?_of_skeleton_eq hskeleton hspace'
  rw [show space'.groups = space.groups from congrArg (·.groups) heq]
  exact keyed ref space (by rw [space?, hlib, Option.bind_some, hspace])

/-! ## Loading -/

lemma get?_addImport (set : LibrarySet) (name : String) (library : LibraryId) :
    (set.addImport name).2.get? library =
      if library = (set.addImport name).1 then some (.new library name) else set.get? library := by
  unfold addImport get?
  by_cases hp : library = .project
  · simp [hp, Ne.symm (LibraryId.ofSlot_ne_project _)]
  · by_cases hk : library = .kernel
    · simp [hk, Ne.symm (LibraryId.ofSlot_ne_kernel _)]
    · simp only [hp, hk, if_false]
      cases hs : library.slot? with
      | none =>
        have hne : library ≠ .ofSlot set.imports.length := by
          rintro rfl
          simp at hs
        simp [hne]
      | some slot =>
        -- The new import is behind all others.
        by_cases hlast : slot = set.imports.length
        · subst hlast
          have heq : library = .ofSlot set.imports.length :=
            LibraryId.slot?_inj hs (LibraryId.slot?_ofSlot _)
          simp [heq]
        · have hne : library ≠ .ofSlot set.imports.length := by
            rintro rfl
            simp only [LibraryId.slot?_ofSlot, Option.some.injEq] at hs
            exact hlast hs.symm
          simp only [Option.bind_some, hne, if_false]
          rcases Nat.lt_or_gt_of_ne hlast with hlt | hgt
          · rw [List.getElem?_append_left hlt]
          · rw [List.getElem?_eq_none (by simp; omega), List.getElem?_eq_none (by omega)]

/-- The identity of the next import is not in use. -/
lemma get?_addImport_fst (set : LibrarySet) (name : String) :
    set.get? (set.addImport name).1 = none := by
  simp [addImport, get?]

lemma Settled.addImport (settled : set.Settled units) (name : String) :
    (set.addImport name).2.Settled units := by
  -- No document can belong to the new library, since the library of a document is loaded.
  have hold {unit : SourceUnit} (hunit : unit ∈ units) :
      unit.library ≠ (set.addImport name).1 := by
    intro heq
    obtain ⟨lib, hlib⟩ := settled.loaded hunit
    rw [heq, get?_addImport_fst] at hlib
    cases hlib
  refine ⟨?_, ?_, ?_, ?_⟩
  · intro library lib hget
    rw [get?_addImport] at hget
    split at hget
    · rw [← Option.some.inj hget]
      rfl
    · exact settled.id_eq hget
  · intro library lib hget
    rw [get?_addImport] at hget
    split at hget
    · next heq =>
      have hnone : units.filter (fun unit => unit.library = library) = [] := by
        rw [List.filter_eq_nil_iff]
        intro unit hunit
        simpa [heq] using hold hunit
      rw [hnone, ← Option.some.inj hget]
      exact Library.hosts_new library name
    · exact settled.hosts hget
  · intro unit lib hunit hget
    rw [get?_addImport, if_neg (hold hunit)] at hget
    exact settled.aligned hunit hget
  · intro unit hunit
    obtain ⟨lib, hlib⟩ := settled.loaded hunit
    exact ⟨lib, by rw [get?_addImport, if_neg (hold hunit), hlib]⟩

/-! ## One library at a time -/

lemma get?_replace {library : LibraryId} {lib : Library} (hloaded : set.get? library = some lib)
    (lib' : Library) (id : LibraryId) : (set.adjust library fun _ => lib').get? id =
      if library = id then some lib' else set.get? id := by
  rw [get?_adjust]
  split
  · next heq => rw [← heq, hloaded, Option.map_some]
  · rfl

/-- Where one library takes the place of another under the same identity, only its own documents
have to be looked at again. -/
lemma Settled.replace (settled : set.Settled units) {library : LibraryId} {lib lib' : Library}
    (hloaded : set.get? library = some lib) (hid : lib'.id = lib.id)
    (hosts : lib'.Hosts (units'.filter fun unit => unit.library = library))
    (hothers : ∀ other, other ≠ library → units'.filter (fun unit => unit.library = other)
      = units.filter fun unit => unit.library = other)
    (haligned : ∀ unit ∈ units', unit.library = library → unit.Aligned lib') :
    (set.adjust library fun _ => lib').Settled units' := by
  have hget := get?_replace hloaded lib'
  -- Documents of other libraries have not changed at all.
  have hkept {unit : SourceUnit} (hunit : unit ∈ units') (hne : unit.library ≠ library) :
      unit ∈ units := by
    have hmem : unit ∈ units'.filter fun u => u.library = unit.library :=
      List.mem_filter.2 ⟨hunit, by simp⟩
    rw [hothers _ hne] at hmem
    exact List.mem_of_mem_filter hmem
  refine ⟨?_, ?_, ?_, ?_⟩
  · intro id l hl
    rw [hget] at hl
    split at hl
    · next heq =>
      rw [← Option.some.inj hl, hid, settled.id_eq hloaded, heq]
    · exact settled.id_eq hl
  · intro id l hl
    rw [hget] at hl
    split at hl
    · next heq =>
      subst heq
      exact Option.some.inj hl ▸ hosts
    · next hne =>
      rw [hothers id (Ne.symm hne)]
      exact settled.hosts hl
  · intro unit l hunit hl
    rw [hget] at hl
    split at hl
    · next heq => exact Option.some.inj hl ▸ haligned unit hunit heq.symm
    · next hne => exact settled.aligned (hkept hunit (Ne.symm hne)) hl
  · intro unit hunit
    rw [hget]
    split
    · exact ⟨lib', rfl⟩
    · next hne => exact settled.loaded (hkept hunit (Ne.symm hne))

/-! ## Tidying -/

/-- `set.Grows library set'`: one library has grown and the others are the same. -/
structure Grows (set : LibrarySet) (library : LibraryId) (set' : LibrarySet) : Prop where
  names_eq : set'.names = set.names
  length_imports : set'.imports.length = set.imports.length
  other : ∀ {id}, id ≠ library → set'.get? id = set.get? id
  grown : ∀ {lib}, set.get? library = some lib →
    ∃ lib', set'.get? library = some lib' ∧ lib.Grows lib'

lemma Grows.refl (set : LibrarySet) (library : LibraryId) : set.Grows library set :=
  ⟨rfl, rfl, fun _ => rfl, fun h => ⟨_, h, .refl _⟩⟩

/-- What is loaded stays loaded. -/
lemma Grows.keeps {library : LibraryId} (h : set.Grows library set')
    {id : LibraryId} {lib : Library}
    (hlib : set.get? id = some lib) : ∃ lib', set'.get? id = some lib' := by
  by_cases hid : id = library
  · subst hid
    obtain ⟨lib', hlib', -⟩ := h.grown hlib
    exact ⟨lib', hlib'⟩
  · exact ⟨lib, (h.other hid).trans hlib⟩

lemma Grows.trans {a b c : LibrarySet} {library : LibraryId} (h : a.Grows library b)
    (k : b.Grows library c) : a.Grows library c where
  names_eq := k.names_eq.trans h.names_eq
  length_imports := k.length_imports.trans h.length_imports
  other hne := (k.other hne).trans (h.other hne)
  grown hlib := by
    obtain ⟨lib', hlib', hgrows⟩ := h.grown hlib
    obtain ⟨lib'', hlib'', hgrows'⟩ := k.grown hlib'
    exact ⟨lib'', hlib'', hgrows.trans hgrows'⟩

/-- Tidying a new document of a loaded library. -/
lemma Settled.tidy (settled : set.Settled units) {library : LibraryId} {lib : Library}
    (hloaded : set.get? library = some lib) {pool : IndexPool}
    (hpool : pool.Matches set.project []) (tree : FileTree) :
    ∃ bench, Workbench.tidy ⟨set, pool, .new tree library⟩ = ⟨bench, none⟩ ∧
      bench.libraries.Settled (bench.unit :: units) ∧
      bench.pool.Matches bench.libraries.project [] ∧ set.Grows library bench.libraries ∧
      bench.unit.tree = tree ∧ bench.unit.library = library ∧
      bench.unit.skeleton = bench.unit := by
  have hid := settled.id_eq hloaded
  have hmatch : lib.id = .project → pool.Matches lib [] := by
    intro hproject
    have hget : set.get? .project = some lib := by rw [← hproject, hid, hloaded]
    obtain rfl : set.project = lib := by simpa [get?] using hget
    exact hpool
  obtain ⟨bench, lib', htidy, stage, advances⟩ :=
    Workbench.tidy_eq hloaded hid (settled.hosts hloaded) hmatch
  have htree : bench.unit.tree = tree := advances.tree_eq
  have hlibrary : bench.unit.library = library := advances.library_eq
  have hlibraries : bench.libraries = set.adjust library fun _ => lib' := advances.libraries_eq
  have hget (id : LibraryId) : bench.libraries.get? id =
      if library = id then some lib' else set.get? id := by
    rw [hlibraries, get?_replace hloaded]
  have hself : bench.libraries.get? library = some lib' := by rw [hget, if_pos rfl]
  have hsettled : bench.libraries.Settled (bench.unit :: units) := by
    rw [hlibraries]
    -- The document at hand is aligned by the last stage, all others because their library grows.
    refine settled.replace hloaded advances.grows.id_eq ?_ ?_ ?_
    · rw [List.filter_cons_of_pos (by simpa using hlibrary)]
      exact stage.hosts
    · intro other hne
      rw [List.filter_cons_of_neg (by simpa [hlibrary] using hne.symm)]
    · intro unit hunit heq
      rcases List.mem_cons.1 hunit with rfl | hunit
      · unfold SourceUnit.Aligned
        rw [htree]
        exact stage.aligned
      · exact (settled.aligned hunit (heq ▸ hloaded)).grows advances.grows
  refine ⟨bench, htidy, hsettled, ?_, ⟨?_, ?_, ?_, ?_⟩, htree, hlibrary, stage.unlinked⟩
  · by_cases hproject : library = .project
    · have hp : bench.libraries.project = lib' := by
        rw [hproject] at hself
        simpa [get?] using hself
      rw [hp]
      exact stage.pool (by rw [advances.grows.id_eq, hid, hproject])
    · have hp : bench.libraries.project = set.project := by
        have h := hget .project
        rw [if_neg hproject] at h
        simpa [get?] using h
      rw [hp, advances.pool_eq (by rw [hid]; exact hproject)]
      exact hpool
  · rw [hlibraries, names_adjust]
  · rw [hlibraries, length_imports_adjust]
  · intro id hne
    rw [hget, if_neg (Ne.symm hne)]
  · intro l hl
    obtain rfl : lib = l := by simpa [hloaded] using hl
    exact ⟨lib', hself, advances.grows⟩

/-- The declarations of a new document of the project get the next indices of their categories. -/
lemma Settled.drawn_tidy (settled : set.Settled units) {pool : IndexPool}
    (hpool : pool.Matches set.project []) {tree : FileTree} {bench : Workbench}
    (htidy : Workbench.tidy ⟨set, pool, .new tree .project⟩ = ⟨bench, none⟩) (category : Category) :
    ∃ n, pool.Draws set.project category n bench.pool bench.libraries.project ∧
      bench.unit.indices category = pool.next set.project category n := by
  have hproject : set.get? .project = some set.project := rfl
  have hid := settled.id_eq hproject
  obtain ⟨bench', lib', htidy', stage, advances⟩ :=
    @Workbench.tidy_eq _ set.project set pool tree .project hproject hid (settled.hosts hproject)
      fun _ => hpool
  obtain rfl : bench = bench' := by simpa [htidy] using htidy'
  have hloaded := stage.loaded
  have hlibrary : bench.unit.library = .project := advances.library_eq
  rw [hlibrary] at hloaded
  obtain rfl : bench.libraries.project = lib' := Option.some.inj hloaded
  obtain ⟨n, hdraws, hindices⟩ := advances.drawn hid category
  exact ⟨n, hdraws, hindices⟩

/-! ## Disposal -/

/-- `set.Sheds library decls set'`: one library has lost some declarations, with namespaces that
nothing is left of, and the others are the same. -/
structure Sheds (set : LibrarySet) (library : LibraryId) (decls : List DeclId)
    (set' : LibrarySet) : Prop where
  names_eq : set'.names = set.names
  length_imports : set'.imports.length = set.imports.length
  other : ∀ {id}, id ≠ library → set'.get? id = set.get? id
  shed : ∀ {lib}, set.get? library = some lib →
    ∃ lib', set'.get? library = some lib' ∧ lib.Sheds decls lib'

/-- Disposing of a document whose path no other document of the library has. -/
lemma Settled.dispose {unit : SourceUnit} (settled : set.Settled (unit :: units))
    (hpath : ∀ u ∈ units, u.library = unit.library → u.path ≠ unit.path) :
    (Linkage.dispose ⟨set, unit⟩).libraries.Settled units ∧
      set.Sheds unit.library unit.declarations (Linkage.dispose ⟨set, unit⟩).libraries := by
  obtain ⟨lib, hloaded⟩ := settled.loaded (List.mem_cons_self ..)
  have hosts := settled.hosts hloaded
  rw [List.filter_cons_of_pos (by simp)] at hosts
  -- A namespace is closed by path, so another document of the library must not have this path.
  have hdistinct : ∀ u ∈ units.filter fun u => u.library = unit.library, u.path ≠ unit.path := by
    intro u hu
    obtain ⟨hu, hlib⟩ := List.mem_filter.1 hu
    exact hpath u hu (by simpa using hlib)
  obtain ⟨hosts', sheds⟩ := hosts.dispose hdistinct
  have hlibraries : (Linkage.dispose ⟨set, unit⟩).libraries
      = set.adjust unit.library fun _ => unit.spaces.reverse.foldl (Library.close unit.path)
          (unit.declarations.foldl Library.eraseRecord lib) := by
    simp only [Linkage.dispose, hloaded]
  generalize unit.spaces.reverse.foldl (Library.close unit.path)
    (unit.declarations.foldl Library.eraseRecord lib) = lib' at hosts' sheds hlibraries
  rw [hlibraries]
  have hget := get?_replace hloaded lib'
  refine ⟨settled.replace hloaded sheds.id_eq hosts' ?_ ?_,
    ⟨names_adjust .., length_imports_adjust .., ?_, ?_⟩⟩
  · intro other hne
    rw [List.filter_cons_of_neg (by simpa using hne.symm)]
  · intro u hu heq
    have hin : u ∈ units.filter fun u => u.library = unit.library :=
      List.mem_filter.2 ⟨hu, by simpa using heq⟩
    refine (settled.aligned (List.mem_cons_of_mem _ hu) (heq ▸ hloaded)).sheds hosts sheds hosts'
      (List.mem_cons_of_mem _ hin) hin ?_
    -- What is erased was declared by the document at hand, and hence by no other.
    intro decl hdecl hgone
    have hnodup := hosts.declarations_nodup
    rw [List.flatMap_cons, List.nodup_append] at hnodup
    exact hnodup.2.2 decl hgone decl (List.mem_flatMap.2 ⟨u, hin, hdecl⟩) rfl
  · intro id hne
    rw [hget, if_neg (Ne.symm hne)]
  · intro l hl
    obtain rfl : lib = l := by simpa [hloaded] using hl
    exact ⟨lib', by rw [hget, if_pos rfl], sheds⟩

end LibrarySet

end SymbolGraph
