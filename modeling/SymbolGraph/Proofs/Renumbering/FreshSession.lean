import SymbolGraph.Proofs.Renumbering.ProjectPairs
import SymbolGraph.Proofs.Renumbering.ReportOrder
import SymbolGraph.Proofs.Renumbering.Restoration

/-!
# Starting over

A rebuild keeps the documents that have not been edited, reuses the numbers of declarations and
namespaces that are gone, and links again what it finds.  Nothing of that can be told from the
result: if the manifest declares no imports, a session that reads the trees of the same documents
for the first time ends up with an isomorphic model (`Session.isomorphic_to_fresh`).

Both sessions rest on the same kernel, and right after their documents have been tidied nothing of
the project is linked in either of them (`Session.Alike`).  So the two projects are copies of each
other under the renumbering that pairs what was recorded for the same nodes
(`Session.Alike.copies`), and linking and checking copies makes isomorphic models of them
(`Session.Alike.linked`).  The documents get the same diagnostics then, at the same ranges and with
the same codes, up to the order of those that a check finds.
-/

namespace SymbolGraph

/-- The references of a document under the new numbers. -/
lemma SourceUnit.pointers_target {r : Renumbering} {unit : SourceUnit}
    (hlinks : unit.links.map r.backLink = unit.links) (target : Target) :
    unit.pointers (r.target target) = unit.pointers target := by
  have hreference (link : BackLink) : (r.backLink link).reference?
      = link.reference?.map fun reference => (r.target reference.1, reference.2) := by
    cases link <;> rfl
  have hreferences : unit.references
      = unit.references.map fun reference => (r.target reference.1, reference.2) := by
    conv_lhs => rw [references, ← hlinks, List.filterMap_map]
    rw [references, List.map_filterMap]
    exact congrArg (List.filterMap · unit.links) (funext hreference)
  rw [pointers, pointers]
  conv_lhs => rw [hreferences, List.filter_map, List.map_map]
  simp [Function.comp_def, r.target_injective.eq_iff]

/-- The document under the new numbers, with what the last check has reported up to its order. -/
structure SourceUnit.Isomorphic (r : Renumbering) (unit unit' : SourceUnit) : Prop where
  copies : unit.unchecked.Copies r unit'.unchecked
  checked : (unit'.diagnostics.check.map Diagnostic.mark).Perm
    (unit.diagnostics.check.map Diagnostic.mark)

namespace Session

open LibrarySet (SameContents)

variable {initial session session' : Session} {r : Renumbering}

/-- Documents that a check has nothing else to say about, up to the order in which it says it. -/
lemma isomorphic_checkProject
    (hunits : List.Forall₂ (fun unit unit' : SourceUnit => unit.unchecked.Copies r unit'.unchecked)
      session.files session'.files)
    (hmarks : (Report.marks (session'.libraries.check .project).2).Perm
      (Report.marks (session.libraries.check .project).2)) :
    List.Forall₂ (SourceUnit.Isomorphic r) session.checkProject.files
      session'.checkProject.files := by
  simp only [checkProject, List.forall₂_map_left_iff, List.forall₂_map_right_iff]
  -- whatever the checks report
  generalize (session.libraries.check .project).2 = report at hmarks ⊢
  generalize (session'.libraries.check .project).2 = report' at hmarks ⊢
  refine hunits.imp fun unit unit' hunit => ⟨hunit, ?_⟩
  have hpath : unit'.path = unit.path := hunit.path
  change ((report'.of unit'.path).map Diagnostic.mark).Perm
    ((report.of unit.path).map Diagnostic.mark)
  rw [hpath, Report.map_mark_of, Report.map_mark_of]
  exact (hmarks.filter _).map _

/-- Two sessions that rest on the same and whose documents have the same trees. -/
structure Alike (initial session session' : Session) : Prop where
  bedrock : initial.Bedrock
  rests : RestsOn initial session
  rests' : RestsOn initial session'
  blank : session.Blank
  blank' : session'.Blank
  trees : session'.files.map SourceUnit.tree = session.files.map SourceUnit.tree

namespace Alike

variable (alike : Alike initial session session')

include alike

lemma sameTrees :
    session.libraries.project.SameTrees session'.libraries.project
      session.files session'.files where
  hosts := alike.rests.sound.hosts
  hosts' := alike.rests'.sound.hosts
  id := alike.rests.sound.settled.id_eq rfl
  id' := alike.rests'.sound.settled.id_eq rfl
  root space space' hspace hspace' :=
    (alike.rests'.root space' hspace').trans (alike.rests.root space hspace).symm
  documents := by
    have haligned {session : Session} (sound : session.Sound) (unit : SourceUnit)
        (hunit : unit ∈ session.files) : unit.Aligned session.libraries.project :=
      sound.settled.aligned (List.mem_append_left _ hunit)
        (by rw [sound.files_library unit hunit]; rfl)
    have htrees := forall₂_of_map_eq alike.trees
    rw [List.forall₂_iff_get] at htrees ⊢
    refine ⟨htrees.1, fun i h h' => ⟨htrees.2 i h h', ?_, ?_⟩⟩
    · exact haligned alike.rests.sound _ (List.get_mem _ _)
    · exact haligned alike.rests'.sound _ (List.get_mem _ _)

variable
  (numbers : Library.Numbers r session.libraries.project session'.libraries.project
    session.files session'.files)

include numbers

lemma renumbered : session.libraries.Matches Entry.content r .all session'.libraries := by
  refine LibrarySet.matches_of_copies numbers.only alike.rests.booked.1.orderly.identified
    alike.rests'.booked.1.orderly.identified (alike.rests'.names.trans
      alike.rests.names.symm) fun library => ?_
  by_cases hproject : library = .project
  · subst hproject
    exact .some (alike.sameTrees.copies numbers alike.blank.records alike.blank'.records)
  · have hcontents := alike.rests.contents library hproject
    have hcontents' := alike.rests'.contents library hproject
    unfold LibrarySet.contents? at hcontents hcontents'
    cases hlib : initial.libraries.get? library with
    | none =>
      rw [hlib, Option.map_none, Option.map_eq_none_iff] at hcontents hcontents'
      rw [hcontents, hcontents']
      exact .none
    | some lib =>
      rw [hlib] at hcontents hcontents'
      obtain ⟨lib₁, hlib₁, heq₁⟩ := Option.map_eq_some_iff.1 hcontents
      obtain ⟨lib₂, hlib₂, heq₂⟩ := Option.map_eq_some_iff.1 hcontents'
      rw [hlib₁, hlib₂]
      have hcopies := (alike.bedrock.copies r numbers.only).contents.copies_library
        numbers.only hlib hlib
      exact .some (hcopies.congr heq₁ heq₂)

theorem copies : session.libraries.Copies r session'.libraries where
  contents := alike.renumbered numbers
  citations target htarget := by
    have hforeign : session'.foreign.values.flatten.flatMap (SourceUnit.pointers (r.target target))
        = session.foreign.values.flatten.flatMap (SourceUnit.pointers target) := by
      rw [alike.rests'.foreign, alike.rests.foreign]
      exact List.flatMap_congr fun unit hunit =>
        SourceUnit.pointers_target (alike.bedrock.links r numbers.only unit hunit) target
    have hfiles {session : Session} (blank : session.Blank) (target : Target) :
        session.files.flatMap (SourceUnit.pointers target) = [] :=
      SourceUnit.flatMap_pointers (fun unit hunit =>
        (blank.unlinked unit hunit).references_eq) target
    rw [alike.rests.booked.1.ledger.citations?_eq htarget,
      alike.rests'.booked.1.ledger.citations?_eq ((r.proper_target target).2 htarget),
      (alike.renumbered numbers).isSome_references? target, units, units, List.flatMap_append,
      List.flatMap_append, hfiles alike.blank, hfiles alike.blank', hforeign]
  progeny base hdefine := by
    -- The heirs of the project's own records are empty before linking; those of the other libraries
    -- are as they were initially.
    by_cases hproject : base.library = .project
    · refine (alike.renumbered numbers).progeny_of_blank alike.rests.booked.1.orderly
        alike.rests'.booked.1.orderly hdefine ?_ ?_
      · rw [hproject]
        exact alike.blank.records base.category base.index
      · rw [r.library_decl, hproject, r.library_project]
        exact alike.blank'.records base.category (r.decl base).index
    · have hheirs {session : Session} (rests : RestsOn initial session) (blank : session.Blank)
          {base : DeclId} (hbase : base.library ≠ .project) :
          session.libraries.heirs? base = initial.libraries.heirs? base := by
        rw [← rests.sound.undo_of_blank blank.records blank.unlinked]
        exact rests.heirs.heirs?_eq hbase
      have hbase' : (r.decl base).library ≠ .project := by
        rwa [numbers.only.decl_eq hproject]
      rw [LibrarySet.progeny?, hheirs alike.rests' alike.blank' hbase',
        hheirs alike.rests alike.blank hproject]
      exact (alike.bedrock.copies r numbers.only).progeny base hdefine

/-- Linking and checking keeps the sessions alike, now under the new numbers. -/
theorem linked (options : LinkOptions) :
    (session.overFiles (·.link options)).checkProject.libraries.Isomorphic r
      (session'.overFiles (·.link options)).checkProject.libraries ∧
    List.Forall₂ (SourceUnit.Isomorphic r) (session.overFiles (·.link options)).checkProject.files
      (session'.overFiles (·.link options)).checkProject.files := by
  have harranged {session : Session} (rests : RestsOn initial session) :
    session.unchecked.libraries.Arranged
      (session.unchecked.files ++ session.foreign.values.flatten) := by
    refine LibrarySet.Arranged.congr rests.booked.1.toArranged ?_
    simp only [Session.units, unchecked, List.map_append, List.map_map]
    rfl
  have hundeclared {session : Session} (blank : session.Blank) :
      ∀ unit ∈ session.unchecked.files, unit.Undeclared := by
    intro unit hunit
    obtain ⟨old, hold, rfl⟩ := List.mem_map.1 hunit
    exact (blank.unlinked old hold).undeclared
  have hunits : List.Forall₂ (SourceUnit.Copies r) session.unchecked.files
      session'.unchecked.files :=
    List.forall₂_map_left_iff.2 <| List.forall₂_map_right_iff.2 <|
      alike.sameTrees.copies_documents numbers alike.blank.unlinked alike.blank'.unlinked
  -- Check marks left from an earlier rebuild are set aside: linking does not read them, and the
  -- check replaces them.
  have related : Linkages.Related SourceUnit.Undeclared (LibrarySet.Copies r) (SourceUnit.Copies r)
      session.foreign.values.flatten session'.foreign.values.flatten
      ⟨session.libraries, session.unchecked.files⟩ ⟨session'.libraries, session'.unchecked.files⟩ :=
    ⟨harranged alike.rests, harranged alike.rests', hundeclared alike.blank,
      hundeclared alike.blank', alike.copies numbers, hunits⟩
  have linked := Linkages.copies_link related options
  have hchecked := linked.libraries.check linked.arranged linked.arranged' .project
  have hcores := linked.libraries.contents.mono Entry.core_content r.core_entry
  have hunits := linked.units
  simp only [unchecked, Linkages.link_unchecked, r.library_project] at hchecked hcores hunits
  have hmarks := hcores.perm_marks_check
    (alike.rests.sound.overFiles_link options).settled.groupsByName
    (alike.rests'.sound.overFiles_link options).settled.groupsByName .project
  rw [r.library_project] at hmarks
  rw [libraries_checkProject, libraries_checkProject]
  exact ⟨hchecked, isomorphic_checkProject
    (List.forall₂_map_left_iff.1 (List.forall₂_map_right_iff.1 hunits)) hmarks⟩

end Alike

/-! ## A session with the same documents -/

/-- Sessions whose kernels have the same documents start with the same libraries. -/
lemma start_of_kernelTrees_eq {manifest : Manifest} {sources sources' : Sources}
    (hkernel : kernelTrees manifest sources' = kernelTrees manifest sources)
    (hstart : start manifest sources = .ok initial) :
    start manifest sources' = .ok { initial with sources := sources' } := by
  obtain ⟨⟨batch, fault⟩, hbatch⟩ : ∃ result, Outcome.forEach (Batch.tidy .kernel)
      (kernelTrees manifest sources)
      ⟨(unloaded manifest sources).libraries, (unloaded manifest sources).pool, []⟩
        = result := ⟨_, rfl⟩
  have hbatch' : Outcome.forEach (Batch.tidy .kernel) (kernelTrees manifest sources')
      ⟨(unloaded manifest sources').libraries, (unloaded manifest sources').pool, []⟩
        = ⟨batch, fault⟩ :=
    hkernel ▸ hbatch
  cases fault with
  | some fault =>
    simp only [start, compile, hbatch] at hstart
    cases hstart
  | none =>
    obtain ⟨done, hdone⟩ : ∃ done : Linkages,
        Linkages.finish ⟨batch.libraries, batch.units⟩ ⟨manifest.suggestions⟩ .kernel
          = done := ⟨_, rfl⟩
    rw [start_eq_of_tidied hbatch hdone] at hstart
    rw [start_eq_of_tidied hbatch' hdone, ← Except.ok.inj hstart]
    rfl

/-- Announcing documents has them read at the next rebuild. -/
lemma exists_run_changed (session : Session) (paths : List String) :
    ∃ removed, session.run (paths.map .changed)
      = { session with dirty := paths.foldl addSorted session.dirty, removed } := by
  induction paths generalizing session with
  | nil => exact ⟨session.removed, rfl⟩
  | cons path rest ih => exact ih (session.perform (.changed path))

/-- When all documents of the sources have been announced, in whatever order, they are read in the
order of their paths. -/
lemma pendingTrees_run_changed {session : Session} (hdirty : session.dirty = [])
    (hsorted : session.sources.documents.Pairwise fun a b => a.path < b.path) {paths : List String}
    (hpaths : paths.Perm session.sources.paths) :
    (session.run (paths.map .changed)).pendingTrees = session.sources.documents := by
  obtain ⟨removed, hrun⟩ := session.exists_run_changed paths
  have hpaths' : session.sources.paths.Pairwise (· < ·) := List.pairwise_map.2 hsorted
  have hread (tree : FileTree) (htree : tree ∈ session.sources.documents) :
      session.sources.document? tree.path = some tree := by
    cases hfound : session.sources.document? tree.path with
    | none => exact absurd (decide_eq_true rfl) (List.find?_eq_none.1 hfound tree htree)
    | some found =>
      exact congrArg some <| List.inj_on_of_nodup_map (nodup_of_pairwise_lt hpaths')
        (List.mem_of_find?_eq_some hfound) htree (document?_path hfound)
  rw [hrun, pendingTrees, hdirty,
    foldl_addSorted_of_perm hpaths hpaths', Sources.paths, List.filterMap_map]
  exact (List.filterMap_congr hread).trans (List.filterMap_some)

/-- If all its documents are announced to a session that has just started, the next rebuild tidies
exactly these. -/
lemma Bedrock.rebuild_announced (bedrock : initial.Bedrock)
    (hlibraries : initial.manifest.libraries = [])
    (hsorted : initial.sources.documents.Pairwise fun a b => a.path < b.path) {paths : List String}
    (hpaths : paths.Perm initial.sources.paths) : ∃ tidied report,
      (initial.run (paths.map .changed)).rebuild
        = ((tidied.overFiles (·.link initial.options)).checkProject, .ok report) ∧
      RestsOn initial tidied ∧ tidied.Blank ∧
      tidied.files.map SourceUnit.tree = initial.sources.documents := by
  obtain ⟨tidied, report, hrebuild, rests, blank, -, hperm⟩ :=
    (bedrock.restsOn_run hlibraries (paths.map .changed)).rebuild bedrock hlibraries
  obtain ⟨removed, hrun⟩ := initial.exists_run_changed paths
  have huntouched : (initial.run (paths.map .changed)).untouched = [] := by
    rw [hrun, untouched, bedrock.files, List.filter_nil]
  rw [pendingTrees_run_changed bedrock.dirty hsorted hpaths, huntouched, List.map_nil,
    List.append_nil] at hperm
  exact ⟨tidied, report, hrebuild, rests, blank,
    hperm.eq_of_pairwise (fun _ _ _ _ h k => absurd h (asymm k))
    (List.pairwise_map.2 rests.sound.sorted) hsorted⟩

/-- Sources do not matter to what a session rests on. -/
lemma RestsOn.of_sources {sources : Sources} (rests : RestsOn { initial with sources } session) :
    RestsOn initial session := by
  obtain ⟨sound, booked, noted, manifest, foreign, names, contents, heirs, root⟩ := rests
  exact ⟨sound, booked, noted, manifest, foreign, names, contents, heirs, root⟩

/-! ## Isomorphic sessions -/

/-- The same libraries and documents under other numbers for the project: records and namespaces are
the same, references, heirs and relations are the same up to order, and so are the documents with
their diagnostics. -/
structure Isomorphic (r : Renumbering) (session session' : Session) : Prop where
  only : r.OnlyProject
  libraries : session.libraries.Isomorphic r session'.libraries
  documents : List.Forall₂ (SourceUnit.Isomorphic r) session.files session'.files

/-- Whatever has happened before a rebuild, if the manifest declares no imports: the session is the
one that comes out of reading the trees of its documents into a new session, in whatever order they
are announced there, up to the numbers of declarations and namespaces. -/
theorem isomorphic_to_fresh (manifest : Manifest) (sources : Sources)
    (hlibraries : manifest.libraries = []) :
    ∃ initial, start manifest sources = .ok initial ∧ ∀ requests : List Request,
      let session := (initial.run requests).rebuild.1
      (∃ report, (initial.run requests).rebuild.2 = .ok report) ∧
      ∃ initial',
        start manifest { sources with documents := session.files.map SourceUnit.tree }
          = .ok initial' ∧
        ∀ paths : List String, paths.Perm session.paths →
          let fresh := (initial'.run (paths.map .changed)).rebuild
          (∃ report, fresh.2 = .ok report) ∧ ∃ r, Isomorphic r session fresh.1 := by
  obtain ⟨initial, hstart, bedrock, rfl⟩ := bedrock manifest sources
  refine ⟨initial, hstart, fun requests => ?_⟩
  obtain ⟨tidied, report, hrebuild, rests, blank, htrees, -⟩ :=
    (bedrock.restsOn_run hlibraries requests).rebuild bedrock hlibraries
  have hsorted : (tidied.files.map SourceUnit.tree).Pairwise fun a b => a.path < b.path :=
    List.pairwise_map.2 rests.sound.sorted
  have hpaths : (initial.run requests).rebuild.1.paths
      = (tidied.files.map SourceUnit.tree).map FileTree.path := by
    rw [← htrees, List.map_map]
    rfl
  dsimp only
  rw [htrees, hpaths, hrebuild]
  refine ⟨⟨report, rfl⟩, ?_⟩
  -- the kernel is read from the same sources, so the new session starts with the same libraries
  have hkernel : kernelTrees initial.manifest
      { sources with documents := tidied.files.map SourceUnit.tree }
      = kernelTrees initial.manifest sources := rfl
  have hstart' := start_of_kernelTrees_eq hkernel hstart
  obtain ⟨initial', hinitial', bedrock', -⟩ :=
    Session.bedrock initial.manifest { sources with documents := tidied.files.map SourceUnit.tree }
  obtain rfl := Except.ok.inj (hstart'.symm.trans hinitial')
  refine ⟨_, hstart', fun paths hperm => ?_⟩
  obtain ⟨tidied', report', hrebuild', rests', blank', htrees'⟩ :=
    bedrock'.rebuild_announced hlibraries hsorted hperm
  rw [hrebuild']
  refine ⟨⟨report', rfl⟩, ?_⟩
  have alike : Alike initial tidied tidied' :=
    ⟨bedrock, rests, rests'.of_sources, blank, blank', htrees'⟩
  obtain ⟨r, numbers⟩ := alike.sameTrees.exists_numbers
  obtain ⟨hlibraries, hdocuments⟩ := alike.linked numbers initial.options
  exact ⟨r, numbers.only, hlibraries, hdocuments⟩

theorem isomorphic_to_fresh_flag : (Manifest.new "demo").libraries = [] ∧
    ∃ initial, start (.new "demo") bitKernel = .ok initial ∧
      let session :=
        (initial.run [.insert flagTree, .changed "main.rk", .rebuild, .changed "main.rk"]).rebuild.1
      ∃ initial', start (.new "demo")
          { bitKernel with documents := session.files.map SourceUnit.tree } = .ok initial' ∧
        ∃ r, Isomorphic r session (initial'.run (session.paths.map .changed)).rebuild.1 := by
  obtain ⟨initial, hstart, hfresh⟩ := isomorphic_to_fresh (.new "demo") bitKernel rfl
  obtain ⟨-, initial', hstart', hisomorphic⟩ :=
    hfresh [.insert flagTree, .changed "main.rk", .rebuild, .changed "main.rk"]
  exact ⟨rfl, initial, hstart, initial', hstart', (hisomorphic _ (.refl _)).2⟩

end Session

end SymbolGraph
