import SymbolGraph.Proofs.Linking.DocumentStages
import SymbolGraph.Proofs.Session.References

/-!
# Types after a rebuild

A rebuild computes every type of the project anew, from blank records: libraries that it loads first
leave the project alone (`loadInvariant_project`), linking realizes all records of the project, and
checking changes neither their cores nor what the documents report.

So right after a rebuild no type of the project dangles, and none is invalid without a report
(`Session.types_accounted`).
-/

namespace SymbolGraph

/-! ## Loading leaves the project alone -/

lemma Body.core_fresh (category : Category) : (Body.fresh category).core = Body.fresh category := by
  cases category <;> rfl

lemma LibrarySet.SameTags.live {set set' : LibrarySet} (same : LibrarySet.SameTags set set')
    (orderly : set.Orderly) {target : Target} (hlive : set.Live target) : set'.Live target := by
  rw [(same.orderly orderly).live_iff, same.references?_eq orderly.identified]
  exact (orderly.live_iff target).1 hlive

open LibrarySet in
/-- Loading libraries keeps the cores of the project. -/
theorem loadInvariant_project (origin : LibrarySet) : LoadInvariant fun set pool units =>
    (Linkages.Booked set units ∧ pool.Matches set.project []) ∧
      SameCores (fun id => id.library ≠ .project) origin set where
  settled h := loadInvariant_booked.settled h.1
  pool h := loadInvariant_booked.pool h.1
  perm h hperm := ⟨loadInvariant_booked.perm h.1 hperm, h.2⟩
  addImport := by
    intro set pool units name h
    have hbooked := loadInvariant_booked.addImport name h.1
    refine ⟨hbooked, h.2.trans ⟨hbooked.1.1.orderly.identified,
      fun library category index hown => ?_⟩⟩
    obtain rfl : library = .project := by simpa using hown
    rfl
  tidy := by
    intro set pool units library lib tree bench h hproject hloaded htidy
    have hbooked := loadInvariant_booked.tidy h.1 hproject hloaded htidy
    obtain ⟨bench', htidy', -, -, hgrows, -⟩ := h.1.1.1.settled.tidy hloaded h.1.2 tree
    rw [htidy] at htidy'
    obtain rfl : bench = bench' := by simpa using htidy'
    refine ⟨hbooked, h.2.trans ⟨hbooked.1.1.orderly.identified,
      fun other category index hown => ?_⟩⟩
    obtain rfl : other = .project := by simpa using hown
    rw [core?, core?, slot?, slot?, hgrows.other (Ne.symm hproject)]
  finish := by
    intro set pool units batch library options h hproject hbatch
    have hundeclared : ∀ unit ∈ batch, unit.Undeclared :=
      fun unit hunit => undeclared_of_skeleton_eq (hbatch unit hunit).2
    refine ⟨loadInvariant_booked.finish options h.1 hproject hbatch, h.2.trans ?_⟩
    -- All that is written into cores belongs to the library of the batch.
    have hlinked : SameCores (fun id => id.library ≠ .project) set
        (Linkages.link ⟨set, batch⟩ options).libraries :=
      (h.1.1.sameCores_link hundeclared (fun unit hunit => (hbatch unit hunit).1) options).mono
        fun id hid => hid ▸ hproject
    exact hlinked.trans (sameCores_check hlinked.identified library)

/-! ## Occurrences -/

/-- The names that tidying has recorded mean what exists. -/
lemma LibrarySet.Arranged.live_tidied {set : LibrarySet} {units : List SourceUnit}
    (arranged : set.Arranged units) {unit : SourceUnit} (hunit : unit ∈ units) :
    ∀ occurrence ∈ unit.skeleton.occurrences, set.Live occurrence.target := by
  intro occurrence hskeleton
  obtain ⟨lib, hlib⟩ := arranged.settled.loaded hunit
  have aligned := arranged.settled.aligned hunit hlib
  obtain ⟨mark, hmark⟩ := forall_mem_of_forall₂ aligned.traced.flip
    (Q := fun occurrence => ∃ mark : Mark, mark.Traced unit.path lib occurrence)
    (fun mark _ h => ⟨mark, h⟩) occurrence hskeleton
  cases mark with
  | space range path =>
    obtain ⟨id, rfl, hpath⟩ := hmark
    obtain ⟨space, hspace⟩ := hpath.live
    refine ⟨space, ?_⟩
    rw [LibrarySet.space?, arranged.settled.id_eq hlib, hlib, Option.bind_some, hspace]
  | declaration path node =>
    obtain ⟨id, -, -, rfl, -⟩ := hmark
    have hid : id ∈ unit.declarations := by
      rw [aligned.declarations_eq]
      exact List.mem_filterMap.2 ⟨_, hskeleton, rfl⟩
    obtain ⟨heq, -, entry, hslot, hentry⟩ := arranged.settled.declared hunit hid
    obtain ⟨-, hfind⟩ := arranged.legible.finds_slot hslot
    exact ⟨entry, hentry ▸ hfind, hentry⟩

/-- The occurrences of a document whose records are realized mean what exists. -/
lemma Linkages.Booked.live_occurrences {set : LibrarySet} {units : List SourceUnit}
    (booked : Linkages.Booked set units) {unit : SourceUnit} (hunit : unit ∈ units)
    (declared : unit.Declared) (reaches : unit.Reaches DeclNode.Realized set) :
    ∀ occurrence ∈ unit.occurrences, set.Live occurrence.target := by
  obtain ⟨books, anchored⟩ := booked
  have legible := books.legible
  intro occurrence hoccurrence
  -- An occurrence that defines nothing is a reference, and those are anchored; one that does was
  -- traced when the document was tidied or its members were declared.
  cases hdefinition : occurrence.definition with
  | false =>
    have hreference : (occurrence.target, ⟨unit.path, occurrence.range⟩) ∈ unit.references := by
      rw [← books.faithful hunit]
      exact List.mem_map.2 ⟨occurrence, List.mem_filter.2 ⟨hoccurrence, by simp [hdefinition]⟩, rfl⟩
    exact (books.orderly.live_iff _).2 ⟨books.ledger.proper hunit hreference,
      anchored unit hunit _ hreference⟩
  | true =>
    cases hlinked : occurrence.linked with
    | false =>
      exact books.live_tidied hunit occurrence (by simp [SourceUnit.skeleton, hoccurrence, hlinked])
    | true =>
      obtain ⟨id, node, m, hpair, hm, htarget⟩ :=
        declared occurrence hoccurrence hlinked hdefinition
      obtain ⟨entry, hslot, hrealized⟩ := reaches id node hpair
      obtain ⟨list, hlist, hlt⟩ := DeclNode.Meets.exists_member hrealized hm
      obtain ⟨-, hid, hfind⟩ := legible.find?_member hslot hlist (List.getElem?_eq_getElem hlt)
      rw [htarget, LinkMembers.memberId, ← hid]
      exact ⟨_, hfind, rfl⟩

namespace Session

variable {session : Session}

/-- Checking the project keeps its records realized. -/
lemma realized_checkProject (orderly : session.libraries.Orderly)
    (h : ∀ unit ∈ session.files, unit.Declared ∧ unit.Reaches DeclNode.Realized session.libraries) :
    ∀ unit ∈ session.checkProject.files, unit.Declared ∧
      unit.Reaches DeclNode.Realized session.checkProject.libraries := by
  have cores := @LibrarySet.sameCores_check _ (fun _ => False) orderly.identified .project
  have same := LibrarySet.sameTags_check orderly .project
  intro unit hunit
  simp only [checkProject] at hunit ⊢
  generalize session.libraries.check .project = checked at cores same hunit ⊢
  obtain ⟨linked, hmem, rfl⟩ := List.mem_map.1 hunit
  obtain ⟨hdeclared, hreaches⟩ := h linked hmem
  exact ⟨hdeclared, hreaches.of_sameCores durable_realized cores (fun _ _ h => h)
    (same.live orderly) rfl fun _ h => h⟩

/-- Records that are blank are realized by linking the project anew. -/
lemma Sound.realized_relink (sound : session.Sound)
    (booked : Linkages.Booked session.libraries session.units)
    (hundeclared : ∀ unit ∈ session.files, unit.Undeclared)
    (blank : session.libraries.ProjectBlank)
    (hnamed : ∀ unit ∈ session.files, ∀ ref ∈ unit.tree.types, ref.path ≠ []) :
    ∀ unit ∈ session.relink.files, unit.Declared ∧
      unit.Reaches DeclNode.Realized session.relink.libraries := by
  obtain ⟨keeps, loaded⟩ := (sound.keeps ⟨⟨booked, sound.pool⟩,
    .refl booked.1.orderly.identified⟩).loadImports (loadInvariant_project session.libraries)
      (importNames session.files)
  unfold Session.relink
  generalize session.loadImports (importNames session.files) = mid at keeps loaded ⊢
  have hbooked : Linkages.Booked mid.libraries (mid.files ++ mid.foreign.values.flatten) :=
    keeps.holds.1.1
  have hcores := keeps.holds.2
  have hbatch : ∀ unit ∈ mid.files, unit.Undeclared ∧ (∀ ref ∈ unit.tree.types, ref.path ≠ []) ∧
      unit.Reaches (fun _ _ node body => body.core = Body.fresh node.category) mid.libraries := by
    intro unit hunit
    rw [loaded.files_eq] at hunit
    refine ⟨hundeclared unit hunit, hnamed unit hunit, fun id node hpair => ?_⟩
    have hmem : unit ∈ session.units := List.mem_append_left _ hunit
    obtain ⟨hcategory, hdefine, hlibrary, hid, -⟩ := booked.1.settled.paired hmem hpair
    obtain ⟨heq, -, entry, hslot, hentry⟩ := booked.1.settled.declared hmem hid
    have hproject : unit.library = .project := sound.files_library unit hunit
    rw [hproject] at hslot hlibrary
    -- Loading does not touch the project, so its records are as blank as tidying has left them.
    have hcore := hcores.cores .project id.category id.index (by simp)
    rw [LibrarySet.core?, LibrarySet.core?, hslot, Option.map_some] at hcore
    obtain ⟨entry', hslot', hcore⟩ := Option.map_eq_some_iff.1 hcore
    refine ⟨entry', by rw [hlibrary, hslot'], ?_⟩
    have hbody : entry'.body.core = entry.body.core := congrArg Symbol.body hcore
    show entry'.body.core = Body.fresh node.category
    rw [hbody, blank _ _ _ hslot, hentry, hcategory, Body.core_fresh]
  have hlinked := Linkages.Booked.link hbooked (fun unit hunit => (hbatch unit hunit).1) mid.options
  have hrealized := hbooked.realized_link mid.options hbatch
  exact realized_checkProject hlinked.1.orderly hrealized

/-- A record of the project belongs to the document that declares it. -/
lemma Sound.exists_owner (sound : session.Sound) {category : Category} {index : Nat} {entry : Entry}
    (hslot : session.libraries.project.slot? category index = some entry) :
    entry.id = ⟨.project, category, index, none⟩ ∧
      ∃ unit ∈ session.files, entry.document = unit.path ∧
        ∃ node, (entry.id, node) ∈ unit.declarations.zip unit.nodes := by
  have hslot' : session.libraries.slot? .project category index = some entry := hslot
  obtain ⟨unit, hunit, hid⟩ := @LibrarySet.Settled.exists_unit _ _ sound.settled
    ⟨.project, category, index, none⟩ entry hslot' rfl
  obtain ⟨heq, -, entry', hentry', hid'⟩ := sound.settled.declared hunit hid
  have hlibrary : unit.library = .project := (congrArg DeclId.library heq).symm
  have hfile : unit ∈ session.files := by
    rcases List.mem_append.1 hunit with h | h
    · exact h
    · exact absurd hlibrary (sound.foreign_library unit h)
  rw [hlibrary, hslot'] at hentry'
  obtain rfl := Option.some.inj hentry'
  obtain ⟨node, hpair⟩ := sound.settled.exists_node hunit hid
  exact ⟨hid', unit, hfile, (sound.hosts.entry_of hfile hid hslot).1, node, hid' ▸ hpair⟩

/-- Right after a rebuild in any run, as long as no other library names the project and all types
are written with a name: every type stored in the project is invalid or denotes a live declaration;
every record realizes the node that declares it, so that a type which did not resolve has been
reported in its document; and every name in a document of the project means something that
exists. -/
theorem types_accounted (manifest : Manifest) (sources : Sources) :
    ∃ initial, Session.start manifest sources = .ok initial ∧ ∀ requests : List Request,
      let session := (initial.run requests).rebuild.1
      session.Quiet → (∀ unit ∈ session.files, ∀ ref ∈ unit.tree.types, ref.path ≠ []) →
        (∀ category index entry, session.libraries.project.slot? category index = some entry →
          (∀ ty ∈ entry.body.types, ty.isInvalid = false → ty.Denotes session.libraries) ∧
          ∃ unit ∈ session.files, entry.document = unit.path ∧
            ∃ node, (entry.id, node) ∈ unit.declarations.zip unit.nodes ∧
              node.Realized session.libraries unit.diagnostics.link entry.body) ∧
        ∀ unit ∈ session.files, ∀ occurrence ∈ unit.occurrences,
          session.libraries.Live occurrence.target := by
  obtain ⟨initial, hstart, hrun⟩ := balanced_run manifest sources
  refine ⟨initial, hstart, fun requests => ?_⟩
  obtain ⟨sound, hbalanced⟩ := hrun requests
  generalize initial.run requests = before at sound hbalanced
  intro session quiet hnamed
  have balanced := hbalanced (@Sound.quiet_of_perform before sound .rebuild quiet)
  have hafter : session.Balanced := balanced.perform sound .rebuild quiet
  have hsound : session.Sound := sound.perform .rebuild
  obtain ⟨tidied, report, hrebuild, readied⟩ :=
    sound.readied balanced.booked (balanced.lasting sound)
  have hsession : session = tidied.relink := congrArg Prod.fst hrebuild
  have hrealized : ∀ unit ∈ session.files, unit.Declared ∧
      unit.Reaches DeclNode.Realized session.libraries := by
    rw [hsession]
    refine readied.sound.realized_relink readied.booked
      (fun unit hunit => (readied.unlinked unit hunit).undeclared) readied.blank ?_
    intro unit hunit
    obtain ⟨unit', hunit', hskeleton⟩ :=
      SourceUnit.exists_of_skeleton_eq readied.sound.skeleton_relink.symm hunit
    rw [SourceUnit.tree_of_skeleton_eq hskeleton]
    exact hnamed unit' (hsession ▸ hunit')
  refine ⟨?_, ?_⟩
  · intro category index entry hslot
    obtain ⟨hid, unit, hunit, hdocument, node, hpair⟩ := hsound.exists_owner hslot
    obtain ⟨entry', hslot', hentry⟩ := (hrealized unit hunit).2 _ _ hpair
    obtain rfl : entry' = entry := by
      rw [hid] at hslot'
      exact Option.some.inj (hslot'.symm.trans hslot)
    exact ⟨hentry.denotes, unit, hunit, hdocument, node, hpair, hentry⟩
  · intro unit hunit
    exact hafter.booked.live_occurrences (List.mem_append_left _ hunit) (hrealized unit hunit).1
      (hrealized unit hunit).2

theorem types_accounted_flag :
    ∃ initial, Session.start (.new "demo") bitKernel = .ok initial ∧
      let session := (initial.run [.insert flagTree, .changed "main.rk"]).rebuild.1
      session.Quiet ∧ (∀ unit ∈ session.files, ∀ ref ∈ unit.tree.types, ref.path ≠ []) ∧
        (∀ category index entry, session.libraries.project.slot? category index = some entry →
          (∀ ty ∈ entry.body.types, ty.isInvalid = false → ty.Denotes session.libraries) ∧
          ∃ unit ∈ session.files, entry.document = unit.path ∧
            ∃ node, (entry.id, node) ∈ unit.declarations.zip unit.nodes ∧
              node.Realized session.libraries unit.diagnostics.link entry.body) ∧
        ∀ unit ∈ session.files, ∀ occurrence ∈ unit.occurrences,
          session.libraries.Live occurrence.target := by
  obtain ⟨initial, hstart, haccounted⟩ := types_accounted (.new "demo") bitKernel
  refine ⟨initial, hstart, ?_⟩
  have hpending : (Session.start (.new "demo") bitKernel).toOption.map (fun initial =>
      let session := initial.run [.insert flagTree, .changed "main.rk"]
      session.pendingTrees ++ session.untouched.map SourceUnit.tree) = some [flagTree] := by rfl
  rw [hstart] at hpending
  have hnamed : ∀ unit ∈ (initial.run [.insert flagTree, .changed "main.rk"]).rebuild.1.files,
      ∀ ref ∈ unit.tree.types, ref.path ≠ [] := by
    obtain ⟨other, hother, sound, -⟩ := Sound.start (.new "demo") bitKernel
    obtain rfl : initial = other := Except.ok.inj (hstart.symm.trans hother)
    have hperm := (sound.run [.insert flagTree, .changed "main.rk"]).trees_rebuild
    have hwaiting : (initial.run [.insert flagTree, .changed "main.rk"]).pendingTrees ++
        (initial.run [.insert flagTree, .changed "main.rk"]).untouched.map SourceUnit.tree
        = [flagTree] := Option.some.inj hpending
    intro unit hunit
    have htree := hperm.mem_iff.1 (List.mem_map_of_mem hunit)
    rw [hwaiting] at htree
    rw [List.mem_singleton.1 htree]
    decide
  exact ⟨quiet_flag hstart, hnamed, haccounted _ (quiet_flag hstart) hnamed⟩

end Session

end SymbolGraph
