import SymbolGraph.Proofs.Linking.ForeignLibraries
import SymbolGraph.Proofs.Session.Runs

/-!
# Clearing the project

A rebuild first clears the project: some documents are torn down, the others unlinked.  What is left
(`Spared`) are the records of the other libraries, with the references among them, and a project
without references of its own whose declarations have the bodies of their first day.  Tidying adds
more of the same, so the session that is about to be linked again (`Readied`) shows nothing of what
linking found out before.
-/

namespace SymbolGraph

/-- What disposing of one document keeps holds after disposing of several, since documents of the
project differ in their paths. -/
lemma Linkages.dispose_induction (P : LibrarySet → List SourceUnit → Prop)
    (Q : SourceUnit → Prop)
    (hstep : ∀ {set unit others}, P set (unit :: others) → unit.library = .project → Q unit →
      (∀ u ∈ others, u.library = unit.library → u.path ≠ unit.path) →
      P (Linkage.dispose ⟨set, unit⟩).libraries others)
    {set : LibrarySet} {torn units : List SourceUnit} (h : P set (torn ++ units))
    (htorn : ∀ unit ∈ torn, unit.library = .project ∧ Q unit)
    (hpaths : ((torn ++ units.filter fun u => u.library = .project).map SourceUnit.path).Nodup) :
    P (each Linkage.dispose set torn).libraries units := by
  induction torn generalizing set with
  | nil => exact h
  | cons unit rest ih =>
    obtain ⟨hproject, hunit⟩ := htorn unit (List.mem_cons_self ..)
    rw [List.cons_append, List.map_cons, List.nodup_cons] at hpaths
    refine ih (hstep h hproject hunit ?_) (fun u hu => htorn u (List.mem_cons_of_mem _ hu)) hpaths.2
    intro u hu hsame hpath
    refine hpaths.1 (hpath ▸ List.mem_map_of_mem ?_)
    rcases List.mem_append.1 hu with hu | hu
    · exact List.mem_append_left _ hu
    · exact List.mem_append_right _ (List.mem_filter.2 ⟨hu, by simpa [hproject] using hsame⟩)

namespace LibrarySet

variable {set set' origin : LibrarySet} {units others : List SourceUnit} {unit : SourceUnit}

/-! ## Tearing documents down -/

lemma Arranged.detach (arranged : set.Arranged (unit :: others)) :
    (Linkage.detach ⟨set, unit⟩).libraries.Arranged
      ((Linkage.detach ⟨set, unit⟩).unit :: others) := by
  have same := SameTags.foldl unit.declarations
    (fun _ orderly id _ => sameTags_stripRelations orderly id) arranged.orderly
  have hskeleton := skeleton_foldl skeleton_stripRelations unit.declarations set
  have hstripped := arranged.step hskeleton rfl (fun h => h) (same.keepsOrder arranged.orderly)
  exact hstripped.unlink

lemma Sheds.tags? {library : LibraryId} {lib : Library} {decls : List DeclId}
    (sheds : set.Sheds library decls set') (hloaded : set.get? library = some lib)
    {id : LibraryId} {category : Category} {index : Nat} {tags : Tags}
    (h : set'.tags? id category index = some tags) : set.tags? id category index = some tags := by
  by_cases heq : id = library
  · subst heq
    obtain ⟨lib', hlib', hshed⟩ := sheds.shed hloaded
    obtain ⟨entry, hentry, rfl⟩ := Option.map_eq_some_iff.1 h
    rw [slot?_of_get? hlib', hshed.slot?_eq] at hentry
    split at hentry
    · cases hentry
    · exact tags?_of_slot? (by rw [slot?_of_get? hloaded, hentry])
  · rwa [LibrarySet.tags?, slot?, sheds.other heq] at h

lemma Arranged.dispose (arranged : set.Arranged (unit :: others))
    (hpath : ∀ u ∈ others, u.library = unit.library → u.path ≠ unit.path) :
    (Linkage.dispose ⟨set, unit⟩).libraries.Arranged others := by
  obtain ⟨lib, hloaded⟩ := arranged.settled.loaded (List.mem_cons_self ..)
  obtain ⟨settled, sheds⟩ := arranged.settled.dispose hpath
  refine ⟨settled, ⟨fun _ _ => settled.id_eq, fun h =>
    arranged.orderly.tags (sheds.tags? hloaded h)⟩, ?_⟩
  intro other id hother undeclared hid tags htags
  exact arranged.bare (List.mem_cons_of_mem _ hother) undeclared hid tags
    (sheds.tags? hloaded htags)

/-- Marking a document of the project. -/
lemma Booked.detach (booked : set.Booked (unit :: others)) (hproject : unit.library = .project) :
    (Linkage.detach ⟨set, unit⟩).libraries.Booked ((Linkage.detach ⟨set, unit⟩).unit :: others) ∧
      set.Outlives (Linkage.detach ⟨set, unit⟩).libraries := by
  have same := SameTags.foldl unit.declarations
    (fun _ orderly id _ => sameTags_stripRelations orderly id) booked.orderly
  have hskeleton := skeleton_foldl skeleton_stripRelations unit.declarations set
  have hstripped := booked.of_sameTags hskeleton same ⟨rfl, fun _ h => h⟩ rfl
    (booked.faithful (List.mem_cons_self ..))
  obtain ⟨hbooked, houtlives⟩ := hstripped.unlink hproject
  exact ⟨hbooked, (same.outlives booked.orderly.identified).trans houtlives⟩

lemma Sheds.narrows {library : LibraryId} {lib : Library} {decls : List DeclId}
    (sheds : set.Sheds library decls set') (hloaded : set.get? library = some lib)
    (hid : set.Identified) (hid' : set'.Identified) : set.Narrows set' := by
  intro target refs _ hrefs
  cases target with
  | declaration id =>
    rw [references?_declaration hid'] at hrefs
    rw [references?_declaration hid]
    cases htags : set'.tags? id.library id.seat.1 id.seat.2 with
    | none => simp [htags] at hrefs
    | some tags => rwa [sheds.tags? hloaded htags, ← htags]
  | space ref =>
    obtain ⟨space', hspace', rfl⟩ := Option.map_eq_some_iff.1 hrefs
    by_cases heq : ref.library = library
    · obtain ⟨lib', hlib', hshed⟩ := sheds.shed hloaded
      rw [space?, heq, hlib', Option.bind_some] at hspace'
      obtain ⟨space, hspace, -, hreferences⟩ := hshed.space_of hspace'
      rw [references?, space?, heq, hloaded, Option.bind_some, hspace, Option.map_some,
        hreferences]
    · rw [space?, sheds.other heq] at hspace'
      rw [references?, space?, hspace', Option.map_some]

/-- Disposing of a document that refers to nothing any more. -/
lemma Booked.dispose (booked : set.Booked (unit :: others)) (hproject : unit.library = .project)
    (hreferences : unit.references = [])
    (hpath : ∀ u ∈ others, u.library = unit.library → u.path ≠ unit.path) :
    (Linkage.dispose ⟨set, unit⟩).libraries.Booked others ∧
      set.Outlives (Linkage.dispose ⟨set, unit⟩).libraries ∧
      SameCores (fun id => id.library = .project) set (Linkage.dispose ⟨set, unit⟩).libraries := by
  obtain ⟨lib, hloaded⟩ := booked.settled.loaded (List.mem_cons_self ..)
  obtain ⟨-, sheds⟩ := booked.settled.dispose hpath
  have arranged := booked.toArranged.dispose hpath
  generalize (Linkage.dispose ⟨set, unit⟩).libraries = set' at arranged sheds ⊢
  have hid := booked.orderly.identified
  have orderly := arranged.orderly
  have hid' : set'.Identified := orderly.identified
  have hbooked : set'.Booked others :=
    ⟨arranged, (booked.ledger.narrows (sheds.narrows hloaded hid hid')).of_cons hreferences,
      fun h => booked.faithful (List.mem_cons_of_mem _ h)⟩
  refine ⟨hbooked, ?_, hid', ?_⟩
  · intro target proper lasting hrefs
    rcases lasting with hlibrary | rfl
    · obtain ⟨refs, hrefs⟩ := hrefs
      refine ⟨refs, ?_⟩
      cases target with
      | declaration id =>
        have hother : set'.get? id.library = set.get? id.library :=
          sheds.other fun h => hlibrary (h.trans hproject)
        rw [references?_declaration hid, tags?, slot?] at hrefs
        rw [references?_declaration hid', tags?, slot?, hother]
        exact hrefs
      | space ref =>
        have hother : set'.get? ref.library = set.get? ref.library :=
          sheds.other fun h => hlibrary (h.trans hproject)
        rw [references?, space?] at hrefs
        rw [references?, space?, hother]
        exact hrefs
    · -- The root of the project is never pruned.
      have hroot := @Legible.finds_root set' (fun _ => True) hbooked.legible .project _ rfl trivial
      exact ((orderly.live_iff _).1 hroot.1).2
  · intro library category index hlibrary
    rw [core?, core?, slot?, slot?, sheds.other fun h => hlibrary (h.trans hproject)]

/-- What clearing the project keeps: the books, what other libraries refer to, and the cores of
their records. -/
structure Spared (origin set : LibrarySet) (units : List SourceUnit) : Prop where
  booked : set.Booked units
  abroad : set.Abroad units
  cores : SameCores (fun id => id.library = .project) origin set
  names : set.names = origin.names

lemma Spared.perm (spared : Spared origin set units) (h : units.Perm others) :
    Spared origin set others :=
  ⟨spared.booked.perm h, fun unit hunit => spared.abroad unit (h.mem_iff.2 hunit), spared.cores,
    spared.names⟩

/-- A step over a document of the project. -/
lemma Spared.step (spared : Spared origin set (unit :: others)) {unit' : SourceUnit}
    (hproject : unit'.library = .project) (hbooked : set'.Booked (unit' :: others))
    (houtlives : set.Outlives set') (hcores : SameCores (fun id => id.library = .project) set set')
    (hskeleton : set'.skeleton = set.skeleton) : Spared origin set' (unit' :: others) := by
  refine ⟨hbooked, ?_, spared.cores.trans hcores,
    (names_of_skeleton_eq hskeleton).trans spared.names⟩
  have habroad := spared.abroad.outlives spared.booked.ledger houtlives
  intro other hother hlibrary
  rcases List.mem_cons.1 hother with rfl | hother
  · exact absurd hproject hlibrary
  · exact habroad other (List.mem_cons_of_mem _ hother) hlibrary

/-- The seats of the declarations of a document of the project. -/
lemma Booked.project_seat (booked : set.Booked (unit :: others))
    (hproject : unit.library = .project) {id : DeclId} (hid : id ∈ unit.declarations) :
    id.library = .project := by
  obtain ⟨heq, -⟩ := booked.settled.declared (List.mem_cons_self ..) hid
  exact (congrArg DeclId.library heq).trans hproject

lemma Spared.unlink (spared : Spared origin set (unit :: others))
    (hproject : unit.library = .project) : Spared origin (Linkage.unlink ⟨set, unit⟩).libraries
      ((Linkage.unlink ⟨set, unit⟩).unit :: others) := by
  obtain ⟨hbooked, houtlives⟩ := spared.booked.unlink hproject
  refine spared.step hproject hbooked houtlives ?_ (Linkage.sameSkeleton_unlink ⟨set, unit⟩).1
  have hown : ∀ id ∈ unit.declarations, id.library = .project :=
    fun _ hid => spared.booked.project_seat hproject hid
  exact @Linkage.sameCores_unlink ⟨set, unit⟩ _ spared.booked.orderly.identified hown

lemma Spared.detach (spared : Spared origin set (unit :: others))
    (hproject : unit.library = .project) : Spared origin (Linkage.detach ⟨set, unit⟩).libraries
      ((Linkage.detach ⟨set, unit⟩).unit :: others) := by
  obtain ⟨hbooked, houtlives⟩ := spared.booked.detach hproject
  have hid := spared.booked.orderly.identified
  have hstrip := SameCores.foldl unit.declarations
    (fun _ hid id _ => @sameCores_stripRelations _ (fun id => id.library = .project) hid id) hid
  have hown : ∀ id ∈ unit.declarations, id.library = .project :=
    fun _ hid => spared.booked.project_seat hproject hid
  exact spared.step hproject hbooked houtlives
    (hstrip.trans (@Linkage.sameCores_unlink ⟨_, unit⟩ _ hstrip.identified hown))
    (Linkage.sameSkeleton_detach ⟨set, unit⟩).1

lemma Spared.disposeAll {torn : List SourceUnit} (spared : Spared origin set (torn ++ units))
    (htorn : ∀ unit ∈ torn, unit.library = .project ∧ unit.references = [])
    (hpaths : ((torn ++ units.filter fun u => u.library = .project).map SourceUnit.path).Nodup) :
    Spared origin (Linkages.each Linkage.dispose set torn).libraries units := by
  refine Linkages.dispose_induction (Spared origin) (fun unit => unit.references = []) ?_ spared
    htorn hpaths
  intro set unit others spared hproject hreferences hdistinct
  obtain ⟨hbooked, houtlives, hcores⟩ := spared.booked.dispose hproject hreferences hdistinct
  have habroad := spared.abroad.outlives spared.booked.ledger houtlives
  refine ⟨hbooked, fun other hother => habroad other (List.mem_cons_of_mem _ hother),
    spared.cores.trans hcores, ?_⟩
  rw [← spared.names]
  exact (spared.booked.settled.dispose hdistinct).2.names_eq

end LibrarySet

/-! ## Blank declarations -/

/-- Bodies as they are before linking have no members. -/
lemma Body.overMembers_fresh (category member : Category) {f : List Member → List Member}
    (h : f [] = []) : (Body.fresh category).overMembers member f = Body.fresh category := by
  cases category <;> cases member <;> simp [Body.fresh, Body.overMembers, h]

/-- A declaration that has the body of its category. -/
def Entry.Blank (entry : Entry) : Prop := entry.body = Body.fresh entry.id.category

lemma Entry.Blank.atSeat {entry : Entry} (blank : entry.Blank) {edit : Edit}
    (hedit : (edit.onEntry entry).Blank) (target : DeclId) : (edit.atSeat target entry).Blank := by
  unfold Edit.atSeat
  split
  · exact hedit
  · rw [Entry.Blank, Symbol.body_map, Symbol.id_map, blank, Body.overMembers_fresh]
    exact List.modify_nil ..

namespace LibrarySet

variable {set : LibrarySet}

/-- The identity is that of a blank declaration. -/
def Blank (set : LibrarySet) (id : DeclId) : Prop :=
  ∃ entry, set.slot? id.library id.category id.index = some entry ∧ entry.Blank

lemma Blank.edit {id : DeclId} (blank : set.Blank id) (hid : set.Identified) (target : DeclId)
    {edit : Edit} (hedit : ∀ entry : Entry, entry.Blank → (edit.onEntry entry).Blank) :
    (set.edit target edit).Blank id := by
  obtain ⟨entry, hslot, hblank⟩ := blank
  unfold Blank
  rw [slot?_edit hid]
  split
  · exact ⟨_, by rw [hslot, Option.map_some], hblank.atSeat (hedit entry hblank) target⟩
  · exact ⟨entry, hslot, hblank⟩

lemma Blank.dropLink {id : DeclId} (blank : set.Blank id) (hid : set.Identified)
    (link : BackLink) : (Linkage.dropLink set link).Blank id := by
  cases link with
  | reference target location =>
    cases target with
    | declaration other => exact blank.edit hid other fun _ h => h
    | space ref =>
      obtain ⟨entry, hslot, hblank⟩ := blank
      exact ⟨entry, by rw [Linkage.dropLink, overReferences, slot?_adjustSpace, hslot], hblank⟩
  | implementor base heir =>
    refine blank.edit hid base fun entry h => ?_
    rw [Entry.Blank, Edit.body, Symbol.body_map, Symbol.id_map, h]
    cases entry.id.category <;> rfl

/-- Resetting declarations makes them blank, and leaves blank those that are. -/
lemma blank_resets (decls : List DeclId) (hid : set.Identified) {id : DeclId}
    (h : id ∈ decls ∧ id.category.isMember = false ∧
        (∃ entry, set.slot? id.library id.category id.index = some entry) ∨ set.Blank id) :
    (decls.foldl (fun set id => set.edit id .reset) set).Blank id := by
  induction decls generalizing set with
  | nil =>
    rcases h with ⟨h, -⟩ | h
    · simp at h
    · exact h
  | cons first rest ih =>
    refine ih (hid.edit first .reset) ?_
    rcases h with ⟨hmem, htop, entry, hslot⟩ | h
    · by_cases heq : id = first
      · subst heq
        refine Or.inr ⟨Edit.atSeat .reset id entry, ?_, ?_⟩
        · rw [slot?_edit hid, if_pos ⟨rfl, DeclId.seat_of_top htop⟩, hslot, Option.map_some]
        · rw [Edit.atSeat, DeclId.owner?_of_top htop]
          rfl
      · refine Or.inl ⟨(List.mem_cons.1 hmem).resolve_left heq, htop, ?_⟩
        rw [slot?_edit hid, hslot]
        split <;> exact ⟨_, rfl⟩
    · exact Or.inr (h.edit hid first fun _ _ => rfl)

/-- Unlinking a document makes its declarations blank, and leaves blank those that are. -/
lemma Booked.blank_unlink {unit : SourceUnit} {others : List SourceUnit}
    (booked : set.Booked (unit :: others)) {id : DeclId}
    (h : id ∈ unit.declarations ∨ set.Blank id) :
    (Linkage.unlink ⟨set, unit⟩).libraries.Blank id := by
  have hlinks : ∀ (links : List BackLink) (set : LibrarySet), set.Identified → set.Blank id →
      (links.foldl Linkage.dropLink set).Blank id := by
    intro links
    induction links with
    | nil => exact fun _ _ h => h
    | cons link rest ih =>
      intro set hid hblank
      have hcores := @sameCores_dropLink set (fun _ => False) hid link
      exact ih _ hcores.identified (hblank.dropLink hid link)
  have hid := booked.orderly.identified
  have hcores := SameCores.foldl unit.links
    (fun _ hid link _ => @sameCores_dropLink _ (fun _ => False) hid link) hid
  refine blank_resets unit.declarations hcores.identified ?_
  rcases h with h | h
  · obtain ⟨heq, htop, entry, hslot, -⟩ := booked.settled.declared (List.mem_cons_self ..) h
    have hlibrary : id.library = unit.library := congrArg DeclId.library heq
    have hcore := hcores.cores id.library id.category id.index fun h => h
    rw [core?, core?, hlibrary, hslot, Option.map_some] at hcore
    obtain ⟨entry', hslot', -⟩ := Option.map_eq_some_iff.1 hcore
    exact Or.inl ⟨h, htop, entry', by rw [hlibrary, hslot']⟩
  · exact Or.inr (hlinks unit.links set hid h)

/-- Every declaration of the project is blank. -/
def ProjectBlank (set : LibrarySet) : Prop :=
  ∀ category index entry, set.slot? .project category index = some entry → entry.Blank

end LibrarySet

/-- But for what checking has reported, the document is as tidying left it. -/
def SourceUnit.Unlinked (unit : SourceUnit) : Prop :=
  { unit with diagnostics := unit.diagnostics.clear .check } = unit.skeleton

namespace SourceUnit.Unlinked

variable {unit : SourceUnit}

lemma of_skeleton_eq (h : unit.skeleton = unit) : unit.Unlinked := by
  rw [Unlinked, ← h]
  simp [skeleton, Diagnostics.clear, Diagnostics.changePhase]

lemma unlink (state : Linkage) : state.unlink.unit.Unlinked := by
  simp [Unlinked, Linkage.unlink, skeleton, Diagnostics.clear, Diagnostics.changePhase]

lemma undeclared (unlinked : unit.Unlinked) : unit.Undeclared := by
  intro occurrence hoccurrence hlinked
  unfold Unlinked at unlinked
  have heq := congrArg SourceUnit.occurrences unlinked
  rw [heq] at hoccurrence
  have hunlinked := (List.mem_filter.1 hoccurrence).2
  simp [hlinked] at hunlinked

lemma references_eq (unlinked : unit.Unlinked) : unit.references = [] := by
  unfold Unlinked at unlinked
  have hlinks := congrArg SourceUnit.links unlinked
  rw [references, hlinks]
  rfl

end SourceUnit.Unlinked

/-! ## Clearing the project -/

namespace Session

variable {session : Session}

/-- The documents of other libraries refer to targets that outlast every rebuild. -/
def Lasting (session : Session) : Prop :=
  ∀ unit ∈ session.foreign.values.flatten, ∀ reference ∈ unit.references, reference.1.Lasting

lemma Sound.spared_cleared (sound : session.Sound)
    (booked : Linkages.Booked session.libraries session.units) (lasting : session.Lasting)
    {torn : List SourceUnit} (hperm : (torn ++ session.untouched).Perm session.files)
    (pool : IndexPool) :
    LibrarySet.Spared session.libraries (session.cleared torn pool).libraries
        (session.cleared torn pool).units ∧
      ∀ unit ∈ (session.cleared torn pool).files, unit.Unlinked ∧
        ∀ id ∈ unit.declarations, (session.cleared torn pool).libraries.Blank id := by
  have hfiles : ∀ unit ∈ torn ++ session.untouched, unit.library = .project :=
    fun unit hunit => sound.files_library unit (hperm.mem_iff.1 hunit)
  have hspared : LibrarySet.Spared session.libraries session.libraries
      (torn ++ (session.untouched ++ session.foreign.values.flatten)) := by
    refine LibrarySet.Spared.perm ⟨booked.1, ?_, .refl booked.1.orderly.identified, rfl⟩
      (units_perm hperm)
    intro unit hunit hlibrary reference hreference
    refine ⟨?_, booked.2 unit hunit reference hreference⟩
    rcases List.mem_append.1 hunit with h | h
    · exact absurd (sound.files_library unit h) hlibrary
    · exact lasting unit h reference hreference
  -- Marking, disposing and unlinking each spare other libraries and what is blank.
  obtain ⟨hdetached, htorn⟩ := Linkages.each_induction Linkage.detach
    (LibrarySet.Spared session.libraries) (fun unit => unit.library = .project)
    (fun unit => unit.library = .project ∧ unit.references = []) LibrarySet.Spared.perm
    (fun h hunit => ⟨h.detach hunit, hunit, rfl⟩) hspared
    (fun unit hunit => hfiles unit (List.mem_append_left _ hunit))
  have hdisposed := hdetached.disposeAll htorn (sound.nodup_paths hperm)
  obtain ⟨hunlinked, hbare, -⟩ := Linkages.each_established Linkage.unlink
    (LibrarySet.Spared session.libraries) (fun _ unit => unit.library = .project)
    (fun set unit => unit.Unlinked ∧ ∀ id ∈ unit.declarations, set.Blank id)
    LibrarySet.Spared.perm
    (fun h hunit => ⟨h.unlink hunit,
      ⟨.unlink _, fun id hid => h.booked.blank_unlink (Or.inl hid)⟩,
      fun other _ => ⟨fun hother => hother, fun hother => ⟨hother.1,
        fun id hid => h.booked.blank_unlink (Or.inr (hother.2 id hid))⟩⟩⟩) hdisposed
    (fun unit hunit => hfiles unit (List.mem_append_right _ hunit))
  exact ⟨hunlinked, hbare⟩

/-- The session right before it is linked again: everything of the project is cleared or newly
tidied, and the other libraries are as they were. -/
structure Readied (before after : Session) : Prop where
  sound : after.Sound
  booked : Linkages.Booked after.libraries after.units
  unlinked : ∀ unit ∈ after.files, unit.Unlinked
  blank : after.libraries.ProjectBlank
  cores : LibrarySet.SameCores (fun id => id.library = .project) before.libraries after.libraries
  names : after.libraries.names = before.libraries.names
  foreign : after.foreign = before.foreign
  manifest : after.manifest = before.manifest

lemma Sound.readied_tidied (sound : session.Sound)
    (booked : Linkages.Booked session.libraries session.units) (lasting : session.Lasting)
    {torn : List SourceUnit} (hperm : (torn ++ session.untouched).Perm session.files)
    {pool : IndexPool} {tidied : Session} (hcleared : (session.cleared torn pool).Sound)
    (hsound : tidied.Sound)
    (htidied : Tidied { session.cleared torn pool with dirty := [] } tidied session.pendingTrees) :
    Readied session tidied := by
  obtain ⟨spared, hfiles⟩ := sound.spared_cleared booked lasting hperm pool
  have hforeign : (session.cleared torn pool).foreign = session.foreign := rfl
  have hmanifest : (session.cleared torn pool).manifest = session.manifest := rfl
  generalize session.cleared torn pool = cleared at *
  obtain ⟨fresh, hfresh, -, hself, -⟩ := htidied.files_perm
  have hproject : cleared.libraries.get? .project = some cleared.libraries.project := rfl
  have hforeign' : tidied.foreign = cleared.foreign := htidied.foreign_eq
  have hunits : (fresh ++ cleared.units).Perm tidied.units := by
    rw [Session.units, Session.units, hforeign', ← List.append_assoc]
    exact hfresh.append_right _
  have anchored : cleared.libraries.Anchored cleared.units := by
    intro unit hunit reference hreference
    rcases List.mem_append.1 hunit with h | h
    · simp [(hfiles unit h).1.references_eq] at hreference
    · exact (spared.abroad unit hunit (hcleared.foreign_library unit h) reference hreference).2
  have hbooked := spared.booked.tidy anchored hproject (hsound.settled.perm hunits.symm)
    htidied.grows hself
  -- A record of the project is declared in a file, and the files have been blanked.
  have hblank : cleared.libraries.ProjectBlank := by
    intro category index entry hslot
    obtain ⟨unit, hunit, hdecl⟩ := @LibrarySet.Settled.exists_unit _ _ spared.booked.settled
      ⟨.project, category, index, none⟩ entry hslot rfl
    rcases List.mem_append.1 hunit with h | h
    · obtain ⟨entry', hslot', hblank⟩ := (hfiles unit h).2 _ hdecl
      obtain rfl : entry = entry' := by simpa [hslot] using hslot'
      exact hblank
    · obtain ⟨heq, -⟩ := spared.booked.settled.declared hunit hdecl
      exact absurd (congrArg DeclId.library heq).symm (hcleared.foreign_library unit h)
  refine ⟨hsound, Linkages.Booked.perm hbooked hunits, ?_, ?_, ?_, ?_, hforeign'.trans hforeign, ?_⟩
  · intro unit hunit
    rcases List.mem_append.1 (hfresh.mem_iff.2 hunit) with h | h
    · exact .of_skeleton_eq (hself unit h)
    · exact (hfiles unit h).1
  · intro category index entry hslot
    rcases htidied.grows.slot_only hproject hslot with hkept | ⟨-, hnew⟩
    · exact hblank category index entry hkept
    · rw [← hnew]
      rfl
  · refine spared.cores.trans ⟨fun _ _ => hsound.settled.id_eq, fun library category index h => ?_⟩
    rw [LibrarySet.core?, LibrarySet.core?, LibrarySet.slot?, LibrarySet.slot?,
      htidied.grows.other h]
  · exact htidied.grows.names_eq.trans spared.names
  · exact htidied.manifest_eq.trans hmanifest

lemma Sound.readied_groundwork (sound : session.Sound)
    (booked : Linkages.Booked session.libraries session.units) (lasting : session.Lasting) :
    ∃ tidied report, session.groundwork? = some tidied ∧
      session.rebuild = (tidied.relink, .ok report) ∧ Readied session tidied := by
  obtain ⟨torn, pool, tidied, report, hperm, hcleared, hsound, htidied, hgroundwork, hrebuild⟩ :=
    sound.groundwork_eq
  exact ⟨tidied, report, hgroundwork, hrebuild,
    sound.readied_tidied booked lasting hperm hcleared hsound htidied⟩

theorem Sound.readied (sound : session.Sound)
    (booked : Linkages.Booked session.libraries session.units) (lasting : session.Lasting) :
    ∃ tidied report, session.rebuild = (tidied.relink, .ok report) ∧ Readied session tidied := by
  obtain ⟨tidied, report, -, hrebuild, readied⟩ := sound.readied_groundwork booked lasting
  exact ⟨tidied, report, hrebuild, readied⟩

end Session

end SymbolGraph
