import SymbolGraph.Proofs.Session.ClearedProject

/-!
# Identities and name groups after every rebuild

In every state of every run the model is arranged, so a record can be told from its identity: there
is one place where a record with that identity can stand.  After a rebuild nothing else is left over
either, the groups of a namespace list the declarations that stand in it, and a namespace of the
project lives for the documents that open it.

No assumption is made on what the other libraries name.
-/

namespace SymbolGraph

/-! ## Runs -/

namespace Session

variable {session : Session}

/-- Disposing of marked documents of the project, in whatever order, leaves the model arranged. -/
lemma Sound.arranged_disposes (sound : session.Sound)
    (arranged : session.libraries.Arranged session.units) {torn kept order : List SourceUnit}
    (hperm : (torn ++ kept).Perm session.files)
    (horder : order.Perm (Linkages.each Linkage.detach session.libraries torn).units) :
    (Linkages.each Linkage.dispose
        (Linkages.each Linkage.detach session.libraries torn).libraries order).libraries.Arranged
      (kept ++ session.foreign.values.flatten) := by
  have hproject : ∀ unit ∈ torn, unit.library = .project := fun unit hunit =>
    sound.files_library unit (hperm.mem_iff.1 (List.mem_append_left _ hunit))
  obtain ⟨hdetached, hlibrary⟩ := Linkages.each_induction Linkage.detach LibrarySet.Arranged
    (fun unit => unit.library = .project) (fun unit => unit.library = .project)
      LibrarySet.Arranged.perm
    (fun h hunit => ⟨h.detach, hunit⟩) (arranged.perm (units_perm hperm)) hproject
  refine Linkages.dispose_induction LibrarySet.Arranged (fun _ => True)
    (fun h _ _ hdistinct => h.dispose hdistinct) (hdetached.perm (horder.symm.append_right _))
    (fun unit hunit => ⟨hlibrary unit (horder.mem_iff.1 hunit), trivial⟩) ?_
  exact ((horder.append_right _).map SourceUnit.path).nodup_iff.2 (sound.nodup_paths hperm)

/-- Clearing the project leaves it arranged, and all of its documents undeclared. -/
lemma Sound.arranged_cleared (sound : session.Sound)
    (arranged : session.libraries.Arranged session.units) {torn : List SourceUnit}
    (hperm : (torn ++ session.untouched).Perm session.files) (pool : IndexPool) :
    (session.cleared torn pool).libraries.Arranged (session.cleared torn pool).units ∧
      ∀ unit ∈ (session.cleared torn pool).files, unit.Undeclared := by
  have hdisposed := sound.arranged_disposes arranged hperm (List.Perm.refl _)
  exact Linkages.each_induction Linkage.unlink LibrarySet.Arranged (fun _ => True)
    SourceUnit.Undeclared LibrarySet.Arranged.perm
    (fun h _ => ⟨h.unlink, (SourceUnit.Unlinked.unlink _).undeclared⟩) hdisposed
    (fun _ _ => trivial)

lemma arranged_checkProject (arranged : session.libraries.Arranged session.units) :
    session.checkProject.libraries.Arranged session.checkProject.units := by
  refine LibrarySet.Arranged.congr (arranged.check .project) ?_
  simp only [Session.units, checkProject, List.map_append, List.map_map]
  rfl

/-- Linking the project again ends with linking documents of which nothing has been declared, and
checking them. -/
lemma Sound.exists_ready_relink (sound : session.Sound)
    (arranged : session.libraries.Arranged session.units)
    (hundeclared : ∀ unit ∈ session.files, unit.Undeclared) :
    ∃ ready : Session, ready.libraries.Arranged ready.units ∧
      (∀ unit ∈ ready.files, unit.Undeclared) ∧
      session.relink = (ready.overFiles (·.link ready.options)).checkProject := by
  obtain ⟨keeps, loaded⟩ := (sound.keeps ⟨arranged, sound.pool⟩).loadImports
    loadInvariant_arranged (importNames session.files)
  refine ⟨session.loadImports (importNames session.files), keeps.holds.1, fun unit hunit => ?_, rfl⟩
  exact hundeclared unit (loaded.files_eq ▸ hunit)

lemma Sound.arranged_relink (sound : session.Sound)
    (arranged : session.libraries.Arranged session.units)
    (hundeclared : ∀ unit ∈ session.files, unit.Undeclared) :
    session.relink.libraries.Arranged session.relink.units := by
  obtain ⟨ready, harranged, hundeclared', hrelink⟩ :=
    sound.exists_ready_relink arranged hundeclared
  rw [hrelink]
  exact arranged_checkProject (Linkages.arranged_link harranged hundeclared' ready.options)

/-- The session that is about to be linked anew. -/
lemma Sound.arranged_tidied (sound : session.Sound)
    (arranged : session.libraries.Arranged session.units) {torn : List SourceUnit}
    (hperm : (torn ++ session.untouched).Perm session.files) {pool : IndexPool} {tidied : Session}
    (hsound : tidied.Sound)
    (htidied : Tidied { session.cleared torn pool with dirty := [] } tidied session.pendingTrees) :
    tidied.libraries.Arranged tidied.units ∧ ∀ unit ∈ tidied.files, unit.Undeclared := by
  obtain ⟨harranged, hundeclared⟩ := sound.arranged_cleared arranged hperm pool
  generalize session.cleared torn pool = cleared at *
  obtain ⟨fresh, hfresh, -, hself, -⟩ := htidied.files_perm
  have hunits : (fresh ++ cleared.units).Perm tidied.units := by
    rw [Session.units, Session.units, htidied.foreign_eq, ← List.append_assoc]
    exact hfresh.append_right _
  have hproject : cleared.libraries.get? .project = some cleared.libraries.project := rfl
  have htidy := harranged.tidy hproject (hsound.settled.perm hunits.symm) htidied.grows
  refine ⟨htidy.perm hunits, fun unit hunit => ?_⟩
  rcases List.mem_append.1 (hfresh.mem_iff.2 hunit) with h | h
  · exact undeclared_of_skeleton_eq (hself unit h)
  · exact hundeclared unit h

/-- A rebuild ends with linking documents of which nothing has been declared, and checking them. -/
lemma Sound.exists_ready (sound : session.Sound)
    (arranged : session.libraries.Arranged session.units) :
    ∃ ready : Session, ready.libraries.Arranged ready.units ∧
      (∀ unit ∈ ready.files, unit.Undeclared) ∧
      session.rebuild.1 = (ready.overFiles (·.link ready.options)).checkProject := by
  obtain ⟨torn, pool, tidied, report, hperm, -, hsound, htidied, hrebuild⟩ := sound.rebuild_eq
  obtain ⟨harranged, hundeclared⟩ := sound.arranged_tidied arranged hperm hsound htidied
  rw [hrebuild]
  exact hsound.exists_ready_relink harranged hundeclared

theorem Sound.arranged_rebuild (sound : session.Sound)
    (arranged : session.libraries.Arranged session.units) :
    session.rebuild.1.libraries.Arranged session.rebuild.1.units := by
  obtain ⟨ready, harranged, hundeclared, hrebuild⟩ := sound.exists_ready arranged
  rw [hrebuild]
  exact arranged_checkProject (Linkages.arranged_link harranged hundeclared ready.options)

/-- A request keeps the records under their identities. -/
lemma Sound.arranged_perform (sound : session.Sound)
    (arranged : session.libraries.Arranged session.units) (request : Request) :
    (session.perform request).libraries.Arranged (session.perform request).units := by
  cases request with
  | rebuild => exact sound.arranged_rebuild arranged
  | load name =>
    rw [Session.perform]
    rcases session.loadLibrary_fst name with hload | hload
    · rw [hload]
      exact arranged
    · obtain ⟨after, hafter, keeps, -⟩ := (sound.keeps ⟨arranged, sound.pool⟩).load
        loadInvariant_arranged session.manifest.libraries.length name
      rw [hload, hafter]
      exact keeps.holds.1
  | insert tree => exact arranged
  | erase path => exact arranged
  | insertLibrary name trees => exact arranged
  | changed path => exact arranged
  | dropped path => exact arranged

/-- Every run keeps the records under their identities. -/
theorem arranged_run (manifest : Manifest) (sources : Sources) :
    ∃ initial, Session.start manifest sources = .ok initial ∧ ∀ requests : List Request,
      (initial.run requests).Sound ∧
        (initial.run requests).libraries.Arranged (initial.run requests).units := by
  obtain ⟨initial, hstart, hsound, -⟩ := Sound.start manifest sources
  have harranged := LibrarySet.arranged_new manifest.name manifest.kernel
  obtain ⟨initial', hstart', keeps, -⟩ := Keeps.start loadInvariant_arranged manifest sources
    ⟨harranged, IndexPool.matches_new manifest.name⟩
  obtain rfl : initial = initial' := by simpa [hstart] using hstart'
  refine ⟨initial, hstart, run_induction (P := fun session => session.Sound ∧
    session.libraries.Arranged session.units) ⟨hsound, keeps.holds.1⟩ ?_⟩
  exact fun session request h => ⟨h.1.perform request, h.1.arranged_perform h.2 request⟩

end Session

/-! ## Places of records -/

/-- Where a record can stand: in a slot of a library, or at a position of a member list of the
record in a slot. -/
structure Place where
  library : LibraryId
  category : Category
  index : Nat
  member : Option (Category × Nat) := none
deriving DecidableEq

namespace LibrarySet

variable {set : LibrarySet} {units : List SourceUnit}

/-- The record at a place. -/
def recordAt? (set : LibrarySet) (place : Place) : Option Entry := do
  let entry ← set.slot? place.library place.category place.index
  match place.member with
  | none => return entry
  | some (category, position) =>
    let members ← entry.body.members? category
    return (← members[position]?).toEntry

@[simp] lemma recordAt?_slot (set : LibrarySet) (library : LibraryId) (category : Category)
    (index : Nat) :
    set.recordAt? ⟨library, category, index, none⟩ = set.slot? library category index := by
  cases h : set.slot? library category index <;> simp [recordAt?, h]

/-- A record stands in its slot, or is a member of the one that does. -/
lemma recordAt?_eq_some {place : Place} {record : Entry} :
    set.recordAt? place = some record ↔
      (place.member = none ∧
        set.slot? place.library place.category place.index = some record) ∨
      ∃ c j entry list m, place.member = some (c, j) ∧
        set.slot? place.library place.category place.index = some entry ∧
        entry.body.members? c = some list ∧ list[j]? = some m ∧ m.toEntry = record := by
  obtain ⟨library, category, index, member⟩ := place
  rcases member with _ | ⟨c, j⟩
  · simp
  · simp [recordAt?, Option.bind_eq_some_iff]

/-- The identity of a record says where it stands. -/
lemma Arranged.id_of_recordAt? (arranged : set.Arranged units) {place : Place} {record : Entry}
    (h : set.recordAt? place = some record) :
    (place.member = none ∧ place.category.isMember = false ∧
      record.id = ⟨place.library, place.category, place.index, none⟩) ∨
    ∃ c j, place.member = some (c, j) ∧ c.owner? = some place.category ∧
      record.id = ⟨place.library, c, j, some place.index⟩ := by
  rcases recordAt?_eq_some.1 h with ⟨hmember, hslot⟩ | ⟨c, j, entry, list, m, hmember, hslot,
    hlist, hm, rfl⟩
  · refine Or.inl ⟨hmember, (arranged.orderly.tags (tags?_of_slot? hslot)).top_level, ?_⟩
    exact (arranged.legible.finds_slot hslot).1
  · obtain ⟨howner, hid, -⟩ := arranged.legible.find?_member hslot hlist hm
    exact Or.inr ⟨c, j, hmember, howner, hid⟩

/-- Looking a record's identity up finds the record. -/
lemma Arranged.find?_id (arranged : set.Arranged units) {place : Place} {record : Entry}
    (h : set.recordAt? place = some record) : set.find? record.id = some record := by
  rcases recordAt?_eq_some.1 h with ⟨-, hslot⟩ | ⟨c, j, entry, list, m, -, hslot, hlist, hm, rfl⟩
  · exact (arranged.legible.finds_slot hslot).2
  · exact (arranged.legible.find?_member hslot hlist hm).2.2

/-- There is one place for each identity. -/
lemma Arranged.place_unique (arranged : set.Arranged units) {place place' : Place}
    {record record' : Entry} (h : set.recordAt? place = some record)
    (h' : set.recordAt? place' = some record') (hid : record.id = record'.id) : place = place' := by
  obtain ⟨library, category, index, member⟩ := place
  obtain ⟨library', category', index', member'⟩ := place'
  rcases arranged.id_of_recordAt? h with ⟨hm, -, heq⟩ | ⟨c, j, hm, howner, heq⟩ <;>
    rcases arranged.id_of_recordAt? h' with ⟨hm', -, heq'⟩ | ⟨c', j', hm', howner', heq'⟩ <;>
    simp_all

/-- No member stands in a group. -/
lemma Arranged.member_notMem_group (arranged : set.Arranged units) {library : LibraryId}
    {lib : Library} (hlib : set.get? library = some lib) {space : SpaceId} {node : Namespace}
    (hnode : lib.spaces.get? space = some node) (name : String) {place : Place} {record : Entry}
    (hmember : place.member ≠ none) (h : set.recordAt? place = some record) :
    record.id ∉ node.group name := by
  intro hmem
  have coherent := (arranged.settled.hosts hlib).coherent
  obtain ⟨entry, hentry, hid, -⟩ := (coherent.group_iff hnode).1 hmem
  have htop := congrArg DeclId.define (coherent.id_eq hentry)
  rcases arranged.id_of_recordAt? h with ⟨hnone, -⟩ | ⟨c, j, -, -, heq⟩
  · exact hmember hnone
  · rw [hid, heq] at htop
    cases htop

/-- The groups of a namespace list the declarations that stand in it. -/
lemma Settled.mem_group_iff (settled : set.Settled units) {library : LibraryId} {lib : Library}
    (hlib : set.get? library = some lib) (space : SpaceId) (name : String) (decl : DeclId) :
    (∃ node, lib.spaces.get? space = some node ∧ decl ∈ node.group name) ↔
      ∃ category index entry, set.slot? library category index = some entry ∧ entry.id = decl ∧
        entry.name = name ∧ entry.space = space := by
  have coherent := (settled.hosts hlib).coherent
  have hslot := slot?_of_get? hlib
  constructor
  · rintro ⟨node, hnode, hmem⟩
    obtain ⟨entry, hentry, hid, hspace, hname⟩ := (coherent.group_iff hnode).1 hmem
    exact ⟨_, _, entry, (hslot _ _).trans hentry, hid, hname, hspace⟩
  · rintro ⟨category, index, entry, hentry, rfl, rfl, rfl⟩
    rw [hslot] at hentry
    obtain ⟨node, hnode⟩ := coherent.space_live hentry
    refine ⟨node, hnode, (coherent.group_iff hnode).2 ⟨entry, ?_, rfl, rfl, rfl⟩⟩
    rw [coherent.id_eq hentry]
    exact hentry

end LibrarySet

/-- A document opens the namespaces that its tree names. -/
lemma SourceUnit.AlignedWith.mem_spaces {unit : SourceUnit} {lib : Library} {marks : List Mark}
    (aligned : unit.AlignedWith lib marks) (tree : lib.spaces.IsTree) {space : SpaceId} :
    space ∈ unit.spaces ↔
      ∃ range path, Mark.space range path ∈ marks ∧ lib.spaces.PathTo path space := by
  rw [aligned.spaces_eq, mem_addAllNew, List.mem_filterMap]
  simp only [List.not_mem_nil, false_or]
  have htraced := aligned.traced
  generalize unit.skeleton.occurrences = occurrences at htraced
  clear aligned
  -- Occurrences and marks run in step, so the induction is on the two lists at once.
  induction htraced with
  | nil => simp
  | @cons occurrence mark occurrences marks h _ ih =>
    rw [List.exists_mem_cons_iff]
    refine (or_congr_right ih).trans ?_
    simp only [List.mem_cons]
    cases mark with
    | space range path =>
      obtain ⟨id, rfl, hpath⟩ := h
      constructor
      · rintro (hid | ⟨range', path', hmem, hp⟩)
        · obtain rfl : id = space := Option.some.inj hid
          exact ⟨range, path, Or.inl rfl, hpath⟩
        · exact ⟨range', path', Or.inr hmem, hp⟩
      · rintro ⟨range', path', heq | hmem, hp⟩
        · cases heq
          exact Or.inl (congrArg some (hpath.id_unique tree hp))
        · exact Or.inr ⟨range', path', hmem, hp⟩
    | declaration path node =>
      obtain ⟨id, space', entry, rfl, -⟩ := h
      simp [Target.space?]

namespace Session

/-- Right after a rebuild in any run: the record at any place is the one that its identity finds,
and no two places hold records of one identity; the group of a name in a namespace lists, once each,
the declarations with that name that stand there, no member is listed and no group is empty; and the
namespaces of the project below the root are those that its documents open, each with the paths of
these documents.  A document opens the namespaces that its tree names. -/
theorem identities_names_agree (manifest : Manifest) (sources : Sources) :
    ∃ initial, Session.start manifest sources = .ok initial ∧ ∀ requests : List Request,
      let session := (initial.run requests).rebuild.1
      let set := session.libraries
      (∀ place record, set.recordAt? place = some record → set.find? record.id = some record) ∧
      (∀ place place' record record', set.recordAt? place = some record →
        set.recordAt? place' = some record' → record.id = record'.id → place = place') ∧
      (∀ library lib, set.get? library = some lib → ∀ space name decl,
        (∃ node, lib.spaces.get? space = some node ∧ decl ∈ node.group name) ↔
          ∃ category index entry, set.recordAt? ⟨library, category, index, none⟩ = some entry ∧
            entry.id = decl ∧ entry.name = name ∧ entry.space = space) ∧
      (∀ library lib, set.get? library = some lib → ∀ space node,
        lib.spaces.get? space = some node → ∀ name, (node.group name).Nodup ∧
          node.groups.at? name ≠ some [] ∧
          ∀ place record, place.member ≠ none → set.recordAt? place = some record →
            record.id ∉ node.group name) ∧
      (∀ space, space ≠ Arena.root → ((∃ node, set.project.spaces.get? space = some node) ↔
        ∃ unit ∈ session.files, space ∈ unit.spaces)) ∧
      (∀ space node, set.project.spaces.get? space = some node → ∀ document,
        document ∈ node.documents ↔
          ∃ unit ∈ session.files, unit.path = document ∧ space ∈ unit.spaces) ∧
      ∀ unit ∈ session.files, ∀ space, space ∈ unit.spaces ↔
        ∃ range path, Mark.space range path ∈ unit.tree.root.marks [] ∧
          set.project.spaces.PathTo path space := by
  obtain ⟨initial, hstart, hrun⟩ := arranged_run manifest sources
  refine ⟨initial, hstart, fun requests => ?_⟩
  obtain ⟨sound, arranged⟩ := hrun requests
  have hsound := sound.perform .rebuild
  have harranged := sound.arranged_rebuild arranged
  rw [Session.perform] at hsound
  generalize (initial.run requests).rebuild.1 = session at hsound harranged ⊢
  refine ⟨fun _ _ => harranged.find?_id, fun _ _ _ _ => harranged.place_unique, ?_, ?_, ?_, ?_, ?_⟩
  · intro library lib hlib space name decl
    simp only [LibrarySet.recordAt?_slot]
    exact harranged.settled.mem_group_iff hlib space name decl
  · intro library lib hlib space node hnode name
    have coherent := (harranged.settled.hosts hlib).coherent
    exact ⟨coherent.group_nodup hnode name, coherent.group_ne_nil hnode name,
      fun _ _ => harranged.member_notMem_group hlib hnode name⟩
  · intro space hroot
    constructor
    · rintro ⟨node, hnode⟩
      exact hsound.hosts.spaces_opened hnode hroot
    · rintro ⟨unit, hunit, hspace⟩
      exact (hsound.hosts.spaces_live hunit hspace).2
  · exact fun space node hnode document => hsound.hosts.mem_documents hnode
  · intro unit hunit space
    have hproject : session.libraries.get? unit.library = some session.libraries.project := by
      rw [hsound.files_library unit hunit]
      rfl
    exact (hsound.settled.aligned (List.mem_append_left _ hunit) hproject).mem_spaces
      hsound.hosts.coherent.tree

end Session

end SymbolGraph
