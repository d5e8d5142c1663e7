import SymbolGraph.Proofs.Session.ClearedProject

/-!
# References are exact after every rebuild

Once the project is cleared nothing but tidying, loading and linking happens, and each of them keeps
the books.  So after a rebuild the references of every target are exactly the occurrences that the
documents have for it, provided that no other library names the project: such a library would go on
pointing to declarations that a rebuild takes away.
-/

namespace SymbolGraph

namespace Session

variable {session : Session}

/-! ## Linking again -/

lemma record_files_checkProject (session : Session) :
    session.checkProject.files.map (fun unit => (unit.skeleton, unit.occurrences, unit.links))
      = session.files.map fun unit => (unit.skeleton, unit.occurrences, unit.links) := by
  simp only [checkProject, List.map_map]
  rfl

lemma record_checkProject (session : Session) :
    session.checkProject.units.map (fun unit => (unit.skeleton, unit.occurrences, unit.links))
      = session.units.map fun unit => (unit.skeleton, unit.occurrences, unit.links) := by
  rw [Session.units, Session.units, List.map_append, List.map_append, record_files_checkProject,
    session.foreign_checkProject.1]

lemma booked_checkProject (booked : Linkages.Booked session.libraries session.units) :
    Linkages.Booked session.checkProject.libraries session.checkProject.units := by
  have hrecord := session.record_checkProject
  rw [← List.append_nil session.checkProject.units]
  refine Linkages.Booked.congr ?_ hrecord
  rw [List.append_nil]
  exact booked.check .project

lemma insular_checkProject {name : String} (hid : session.libraries.Identified)
    (insular : Insular name session.libraries session.units) :
    Insular name session.checkProject.libraries session.checkProject.units :=
  (insular.check hid .project).congr session.record_checkProject

/-- Linking the documents of the project gives no other library a parent in it. -/
lemma insular_overFiles {name : String}
    (booked : Linkages.Booked session.libraries session.units)
    (hundeclared : ∀ unit ∈ session.files, unit.Undeclared)
    (hproject : ∀ unit ∈ session.files, unit.library = .project)
    (insular : Insular name session.libraries session.units) (options : LinkOptions) :
    Insular name (session.overFiles (·.link options)).libraries
      (session.overFiles (·.link options)).units := by
  have hcores := Linkages.Booked.sameCores_link booked hundeclared hproject options
  obtain ⟨hset, hskeletons⟩ := Linkages.skeleton_link ⟨session.libraries, session.files⟩ options
  refine insular.of_parents (LibrarySet.names_of_skeleton_eq hset) (fun hid hparent =>
    hcores.parents booked.1.orderly.identified hid hparent) ?_
  intro unit hunit hlibrary
  rcases List.mem_append.1 hunit with h | h
  · obtain ⟨old, hold, he⟩ := SourceUnit.exists_of_skeleton_eq hskeletons h
    have hsame : unit.library = old.library := congrArg (·.library) he
    exact absurd (hsame.trans (hproject old hold)) hlibrary
  · exact Or.inr ⟨unit, List.mem_append_right _ h, rfl, rfl⟩

/-- Loading what is named, linking and checking keep the books, and other libraries insular. -/
lemma Sound.relink_keeps (sound : session.Sound)
    (booked : Linkages.Booked session.libraries session.units)
    (hundeclared : ∀ unit ∈ session.files, unit.Undeclared) {name : String}
    (hinsular : Shunned name session.units → Insular name session.libraries session.units) :
    Linkages.Booked session.relink.libraries session.relink.units ∧
      (Shunned name session.relink.units →
        Insular name session.relink.libraries session.relink.units) := by
  obtain ⟨keeps, loaded⟩ := (sound.keeps ⟨⟨booked, sound.pool⟩, hinsular⟩).loadImports
    (loadInvariant_insular name) (importNames session.files)
  obtain ⟨hsound, -⟩ := sound.loadImports (importNames session.files)
  unfold Session.relink
  generalize session.loadImports (importNames session.files) = mid at keeps loaded hsound ⊢
  have hbooked : Linkages.Booked mid.libraries mid.units := keeps.holds.1.1
  have hfiles : ∀ unit ∈ mid.files, unit.Undeclared := loaded.files_eq ▸ hundeclared
  have hlinked : Linkages.Booked (mid.overFiles (·.link mid.options)).libraries
      (mid.overFiles (·.link mid.options)).units := Linkages.Booked.link hbooked hfiles mid.options
  refine ⟨booked_checkProject hlinked, fun shunned => ?_⟩
  -- Whether a unit shuns the project's name is read off its tree, which neither pass replaces.
  have hunits : mid.units.map SourceUnit.skeleton
      = (mid.overFiles (·.link mid.options)).checkProject.units.map SourceUnit.skeleton := by
    have hchecked := congrArg (List.map Prod.fst)
      (record_checkProject (mid.overFiles (·.link mid.options)))
    rw [List.map_map, List.map_map] at hchecked
    obtain ⟨-, hskeletons⟩ := Linkages.skeleton_link ⟨mid.libraries, mid.files⟩ mid.options
    refine Eq.trans ?_ hchecked.symm
    rw [Session.units, List.map_append, ← hskeletons, ← List.map_append]
    rfl
  have insular := insular_overFiles hbooked hfiles hsound.files_library
    (keeps.holds.2 (shunned.of_skeleton_eq hunits)) mid.options
  exact insular_checkProject hlinked.1.orderly.identified insular

/-! ## Runs -/

/-- No document of another library names the project. -/
def Quiet (session : Session) : Prop :=
  ∀ unit ∈ session.foreign.values.flatten, unit.tree.Shuns session.manifest.name

/-- The books are in order, and no other library refers to the project. -/
structure Balanced (session : Session) : Prop where
  booked : Linkages.Booked session.libraries session.units
  insular : Insular session.manifest.name session.libraries session.units

lemma Sound.shunned_iff (sound : session.Sound) :
    Shunned session.manifest.name session.units ↔ session.Quiet := by
  constructor
  · intro shunned unit hunit
    exact shunned unit (List.mem_append_right _ hunit) (sound.foreign_library unit hunit)
  · intro quiet unit hunit hlibrary
    rcases List.mem_append.1 hunit with h | h
    · exact absurd (sound.files_library unit h) hlibrary
    · exact quiet unit h

lemma Balanced.lasting (balanced : session.Balanced) (sound : session.Sound) :
    session.Lasting := by
  intro unit hunit reference hreference
  exact Or.inl (balanced.insular.references unit (List.mem_append_right _ hunit)
    (sound.foreign_library unit hunit) reference hreference)

lemma relink_foreign (sound : session.Sound) : session.relink.manifest = session.manifest ∧
    ∀ unit ∈ session.foreign.values.flatten, unit ∈ session.relink.foreign.values.flatten := by
  obtain ⟨-, loaded⟩ := sound.loadImports (importNames session.files)
  unfold Session.relink
  generalize session.loadImports (importNames session.files) = mid at loaded ⊢
  obtain ⟨hforeign, hmanifest⟩ := (mid.overFiles (·.link mid.options)).foreign_checkProject
  dsimp only
  rw [hforeign, hmanifest]
  exact ⟨loaded.manifest_eq, loaded.foreign_units⟩

/-- A request leaves the manifest as it is and takes no document of another library away. -/
lemma Sound.perform_foreign (sound : session.Sound) (request : Request) :
    (session.perform request).manifest = session.manifest ∧
      ∀ unit ∈ session.foreign.values.flatten,
        unit ∈ (session.perform request).foreign.values.flatten := by
  cases request with
  | rebuild =>
    obtain ⟨torn, pool, tidied, report, -, -, hsound, htidied, hrebuild⟩ := sound.rebuild_eq
    obtain ⟨hmanifest, hforeign⟩ := relink_foreign hsound
    rw [Session.perform, hrebuild]
    refine ⟨hmanifest.trans htidied.manifest_eq, fun unit hunit => hforeign unit ?_⟩
    rw [htidied.foreign_eq]
    exact hunit
  | load name =>
    rw [Session.perform]
    rcases session.loadLibrary_fst name with h | h
    · rw [h]
      exact ⟨rfl, fun _ h => h⟩
    · obtain ⟨after, hload, -, loaded, -⟩ :=
        (sound.keeps ⟨sound.settled, sound.pool⟩).load loadInvariant_settled
          session.manifest.libraries.length name
      rw [h, hload]
      exact ⟨loaded.manifest_eq, loaded.foreign_units⟩
  | insert tree => exact ⟨rfl, fun _ h => h⟩
  | erase path => exact ⟨rfl, fun _ h => h⟩
  | insertLibrary name trees => exact ⟨rfl, fun _ h => h⟩
  | changed path => exact ⟨rfl, fun _ h => h⟩
  | dropped path => exact ⟨rfl, fun _ h => h⟩

lemma Sound.quiet_of_perform (sound : session.Sound) {request : Request}
    (quiet : (session.perform request).Quiet) : session.Quiet := by
  obtain ⟨hmanifest, hforeign⟩ := sound.perform_foreign request
  intro unit hunit
  have hshuns := quiet unit (hforeign unit hunit)
  rwa [hmanifest] at hshuns

/-- No other library refers to the project when it is about to be linked again. -/
lemma Balanced.insular_readied (balanced : session.Balanced) {tidied : Session}
    (readied : Readied session tidied) :
    Insular session.manifest.name tidied.libraries tidied.units := by
  refine balanced.insular.of_parents readied.names (fun hid hparent =>
    readied.cores.parents balanced.booked.1.orderly.identified hid hparent) ?_
  intro unit hunit hlibrary
  rcases List.mem_append.1 hunit with h | h
  · exact absurd (readied.sound.files_library unit h) hlibrary
  · exact Or.inr ⟨unit, List.mem_append_right _ (readied.foreign ▸ h), rfl, rfl⟩

/-- A request keeps a session balanced, unless it loads a library that names the project. -/
theorem Balanced.perform (balanced : session.Balanced) (sound : session.Sound) (request : Request)
    (quiet : (session.perform request).Quiet) : (session.perform request).Balanced := by
  cases request with
  | rebuild =>
    obtain ⟨tidied, report, hrebuild, readied⟩ :=
      sound.readied balanced.booked (balanced.lasting sound)
    obtain ⟨hbooked, hkept⟩ := readied.sound.relink_keeps readied.booked
      (fun unit hunit => (readied.unlinked unit hunit).undeclared) fun _ =>
        balanced.insular_readied readied
    have hmanifest : tidied.relink.manifest = session.manifest :=
      (relink_foreign readied.sound).1.trans readied.manifest
    rw [Session.perform, hrebuild] at quiet ⊢
    -- The insular part holds as long as no unit names the project, which is what being quiet says
    -- after the rebuild.
    refine ⟨hbooked, ?_⟩
    rw [hmanifest]
    refine hkept ?_
    rw [← hmanifest]
    exact readied.sound.relink.shunned_iff.2 quiet
  | load name =>
    have hsound := sound.perform (.load name)
    have shunned := hsound.shunned_iff.2 quiet
    rw [Session.perform] at shunned ⊢
    rcases session.loadLibrary_fst name with h | h
    · rw [h]
      exact balanced
    · obtain ⟨after, hload, keeps, loaded, -⟩ :=
        (sound.keeps ⟨⟨balanced.booked, sound.pool⟩, fun _ => balanced.insular⟩).load
          (loadInvariant_insular session.manifest.name) session.manifest.libraries.length name
      rw [h, hload] at shunned ⊢
      rw [loaded.manifest_eq] at shunned
      refine ⟨keeps.holds.1.1, ?_⟩
      rw [loaded.manifest_eq]
      exact keeps.holds.2 shunned
  | insert tree => exact ⟨balanced.booked, balanced.insular⟩
  | erase path => exact ⟨balanced.booked, balanced.insular⟩
  | insertLibrary name trees => exact ⟨balanced.booked, balanced.insular⟩
  | changed path => exact ⟨balanced.booked, balanced.insular⟩
  | dropped path => exact ⟨balanced.booked, balanced.insular⟩

end Session

namespace LibrarySet

/-- Nothing refers to anything before the first document is read. -/
lemma booked_new (projectName kernelName : String) :
    Linkages.Booked (new projectName kernelName) [] := by
  have arranged := arranged_new projectName kernelName
  have hid := arranged.orderly.identified
  refine ⟨⟨arranged, ⟨?_, by simp⟩, by simp⟩, by simp [Anchored]⟩
  intro target refs _ hrefs
  have hnil : refs = [] := by
    cases target with
    | declaration id => simp [references?_declaration hid, tags?_new] at hrefs
    | space ref =>
      obtain ⟨space, hspace, rfl⟩ := Option.map_eq_some_iff.1 hrefs
      obtain ⟨lib, hlib, hget⟩ := Option.bind_eq_some_iff.1 hspace
      obtain ⟨name, rfl⟩ := get?_new hlib
      exact (Library.space_new hget).2.2
  rw [hnil]
  exact ⟨List.nodup_nil, List.Perm.refl _⟩

lemma insular_new (projectName kernelName : String) :
    Insular projectName (new projectName kernelName) [] := by
  have hid : (new projectName kernelName).Identified :=
    fun _ _ => (settled_new projectName kernelName).id_eq
  refine ⟨?_, ?_, by simp⟩
  · intro other h
    rw [named?, new, Assoc.at?_put] at h
    split at h
    · cases h
    · by_contra hne
      simp [Assoc.at?, Ne.symm hne] at h
  · intro id parent _ hparent
    obtain ⟨-, entry, hslot, -⟩ := (mem_parents hid).1 hparent
    obtain ⟨lib, hlib, hentry⟩ := Option.bind_eq_some_iff.1 hslot
    obtain ⟨name, rfl⟩ := get?_new hlib
    simp [Library.slot?_new] at hentry

end LibrarySet

namespace Session

variable {session : Session}

/-- Every run keeps a session balanced, as long as no library that it loads names the project. -/
theorem balanced_run (manifest : Manifest) (sources : Sources) :
    ∃ initial, Session.start manifest sources = .ok initial ∧ ∀ requests : List Request,
      (initial.run requests).Sound ∧
        ((initial.run requests).Quiet → (initial.run requests).Balanced) := by
  obtain ⟨initial, hstart, hsound, hmanifest⟩ := Sound.start manifest sources
  obtain ⟨initial', hstart', keeps, -⟩ :=
    Keeps.start (loadInvariant_insular manifest.name) manifest sources
      ⟨⟨LibrarySet.booked_new .., IndexPool.matches_new manifest.name⟩,
        fun _ => LibrarySet.insular_new ..⟩
  obtain rfl : initial = initial' := by simpa [hstart] using hstart'
  refine ⟨initial, hstart, run_induction (P := fun session =>
    session.Sound ∧ (session.Quiet → session.Balanced)) ⟨hsound, fun quiet => ?_⟩ ?_⟩
  · have shunned := hsound.shunned_iff.2 quiet
    rw [hmanifest] at shunned
    refine ⟨keeps.holds.1.1, ?_⟩
    rw [hmanifest]
    exact keeps.holds.2 shunned
  · intro session request h
    exact ⟨h.1.perform request, fun quiet =>
      (h.2 (h.1.quiet_of_perform quiet)).perform h.1 request quiet⟩

/-- The references of a live target are the occurrences of the documents that mean it and are no
definitions. -/
lemma Balanced.mem_references (balanced : session.Balanced) {target : Target}
    (hlive : session.libraries.Live target) : ∃ refs,
      session.libraries.references? target = some refs ∧ ∀ location, location ∈ refs ↔
        ∃ unit ∈ session.units, ∃ occurrence ∈ unit.occurrences, occurrence.target = target ∧
          occurrence.definition = false ∧ location = ⟨unit.path, occurrence.range⟩ := by
  obtain ⟨books, -⟩ := balanced.booked
  obtain ⟨proper, refs, hrefs⟩ := (books.orderly.live_iff target).1 hlive
  obtain ⟨-, hperm⟩ := books.ledger.exact proper hrefs
  refine ⟨refs, hrefs, fun location => ?_⟩
  rw [hperm.mem_iff, List.mem_flatMap]
  refine exists_congr fun unit => and_congr_right fun hunit => ?_
  rw [SourceUnit.mem_pointers, ← books.faithful hunit, List.mem_map]
  constructor
  · rintro ⟨occurrence, hmem, heq⟩
    obtain ⟨hoccurrence, hdefinition⟩ := List.mem_filter.1 hmem
    obtain ⟨htarget, hlocation⟩ := Prod.mk.inj heq
    exact ⟨occurrence, hoccurrence, htarget, by simpa using hdefinition, hlocation.symm⟩
  · rintro ⟨occurrence, hoccurrence, rfl, hdefinition, rfl⟩
    exact ⟨occurrence, List.mem_filter.2 ⟨hoccurrence, by simpa using hdefinition⟩, rfl⟩

/-- Right after a rebuild in any run, as long as no other library names the project, the references
of every live declaration and namespace are the places where documents refer to it. -/
theorem references_exact (manifest : Manifest) (sources : Sources) :
    ∃ initial, Session.start manifest sources = .ok initial ∧ ∀ requests : List Request,
      let session := (initial.run requests).rebuild.1
      session.Quiet → ∀ target, session.libraries.Live target → ∃ refs,
        session.libraries.references? target = some refs ∧ ∀ location, location ∈ refs ↔
          ∃ unit ∈ session.units, ∃ occurrence ∈ unit.occurrences, occurrence.target = target ∧
            occurrence.definition = false ∧ location = ⟨unit.path, occurrence.range⟩ := by
  obtain ⟨initial, hstart, hrun⟩ := balanced_run manifest sources
  refine ⟨initial, hstart, fun requests => ?_⟩
  have hlast : (initial.run requests).rebuild.1 = initial.run (requests ++ [.rebuild]) := by
    rw [run, run, List.foldl_append]
    rfl
  intro session quiet target hlive
  have hbalanced : session.Balanced := by
    obtain ⟨-, h⟩ := hrun (requests ++ [.rebuild])
    rw [← hlast] at h
    exact h quiet
  exact hbalanced.mem_references hlive

/-- A kernel with one struct, `bit`. -/
def bitKernel : Sources :=
  { libraries := [("kernel", [⟨"kernel.rk",
      ⟨none, [], [], [.struct ⟨.pub, ⟨"bit", ⟨⟨0, 7⟩, ⟨0, 10⟩⟩⟩, [], []⟩]⟩⟩])] }

/-- A document with one variable, `flag`, of type `bit`. -/
def flagTree : FileTree :=
  ⟨"main.rk", ⟨none, [], [], [.variable ⟨.pub, false, ⟨"flag", ⟨⟨0, 4⟩, ⟨0, 8⟩⟩⟩,
    ⟨[⟨"bit", ⟨⟨0, 0⟩, ⟨0, 3⟩⟩⟩], 0, ⟨⟨0, 0⟩, ⟨0, 3⟩⟩⟩⟩]⟩⟩

/-- The kernel does not name the project. -/
lemma quiet_flag {initial : Session} (hstart : Session.start (.new "demo")
    bitKernel = .ok initial) :
    (initial.run [.insert flagTree, .changed "main.rk"]).rebuild.1.Quiet := by
  have htrees : (Session.start (.new "demo") bitKernel).toOption.map (fun initial =>
      let session := (initial.run [.insert flagTree, .changed "main.rk"]).rebuild.1
      (session.manifest.name, session.foreign.values.flatten.map SourceUnit.tree))
      = some ("demo", bitKernel.libraries.values.flatten) := by rfl
  rw [hstart] at htrees
  obtain ⟨hname, htrees⟩ := Prod.mk.inj (Option.some.inj htrees)
  intro unit hunit
  rw [hname]
  have htree : unit.tree ∈ bitKernel.libraries.values.flatten :=
    htrees ▸ List.mem_map_of_mem hunit
  rw [List.mem_singleton.1 htree]
  exact ⟨by decide, by simp [FileTree.types, DeclNode.types, SpaceNode.nodes, SpaceNode.nodesOf]⟩

theorem references_exact_flag :
    ∃ initial, Session.start (.new "demo") bitKernel = .ok initial ∧
      let session := (initial.run [.insert flagTree, .changed "main.rk"]).rebuild.1
      session.Quiet ∧ ∀ target, session.libraries.Live target → ∃ refs,
        session.libraries.references? target = some refs ∧ ∀ location, location ∈ refs ↔
          ∃ unit ∈ session.units, ∃ occurrence ∈ unit.occurrences, occurrence.target = target ∧
            occurrence.definition = false ∧ location = ⟨unit.path, occurrence.range⟩ := by
  obtain ⟨initial, hstart, hexact⟩ := references_exact (.new "demo") bitKernel
  exact ⟨initial, hstart, quiet_flag hstart, hexact _ (quiet_flag hstart)⟩

end Session

end SymbolGraph
