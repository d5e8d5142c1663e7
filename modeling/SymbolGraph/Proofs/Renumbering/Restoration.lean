import SymbolGraph.Proofs.Renumbering.SessionBasis
import SymbolGraph.Proofs.Session.IdleRebuilds

/-!
# What stays of the start of a session

A session whose manifest declares no imports never loads anything after its kernel.  Rebuilds write
references and heirs into the kernel and take them out again.  All the rest of the kernel stays as
it was at the start, and so do the heirs that are left when linking of the project is undone
(`Session.RestsOn`).

For heirs this needs an argument of its own.  A document that is torn down is unlinked before its
declarations are disposed of, another one after that; but what unlinking does to the kernel depends
on nothing but the kernel, so the order makes no difference to it
(`Session.Sound.sameHeirs_cleared`).
-/

namespace SymbolGraph

/-! ## Heirs outside of the project -/

/-- The heirs in the record of a slot, if it keeps such a list. -/
def Library.heirs? (lib : Library) (category : Category) (index : Nat) : Option (List DeclId) :=
  (lib.slot? category index).bind fun entry => entry.body.implementors?

/-- Two states of a library whose records have the same heirs. -/
structure Library.SameHeirs (lib lib' : Library) : Prop where
  id_eq : lib'.id = lib.id
  heirs : ∀ category index, lib'.heirs? category index = lib.heirs? category index

/-- How an edit changes heirs, if it does so by a map. -/
def Edit.OnHeirs (edit : Edit) (id : DeclId) (f : List DeclId → List DeclId) : Prop :=
  ∀ entry : Entry, (edit.atSeat id entry).body.implementors? = entry.body.implementors?.map f

namespace Edit

lemma implementors?_overMembers (body : Body) (category : Category)
    (f : List Member → List Member) :
    (body.overMembers category f).implementors? = body.implementors? := by
  rw [← Body.implementors?_kin, Body.kin_overMembers, Body.implementors?_kin]

lemma onHeirs_overImplementors (id : DeclId) (f : List DeclId → List DeclId) :
    ∃ g, (body (Body.overImplementors f)).OnHeirs id g := by
  cases howner : id.owner? with
  | none =>
    refine ⟨f, fun entry => ?_⟩
    simp only [atSeat, howner]
    exact Body.implementors?_overImplementors f entry.body
  | some owner =>
    refine ⟨fun heirs => heirs, fun entry => ?_⟩
    simp only [atSeat, howner, Option.map_id']
    exact implementors?_overMembers _ _ _

lemma onHeirs_of_onEntry {edit : Edit}
    (h : ∀ entry, (edit.onEntry entry).body.implementors? = entry.body.implementors?)
    (id : DeclId) :
    edit.OnHeirs id fun heirs => heirs := by
  intro entry
  rw [Option.map_id']
  cases howner : id.owner? with
  | none =>
    simp only [atSeat, howner]
    exact h entry
  | some owner =>
    simp only [atSeat, howner]
    exact implementors?_overMembers _ _ _

lemma onHeirs_callable (f : Callable → Callable) (id : DeclId) :
    (callable f).OnHeirs id fun heirs => heirs := by
  refine onHeirs_of_onEntry (fun entry => ?_) id
  simp only [callable, Symbol.body_map]
  cases entry.body <;> rfl

end Edit

namespace Library

variable {lib lib' : Library}

lemma heirs?_edit (lib : Library) {id : DeclId} {edit : Edit} {f : List DeclId → List DeclId}
    (h : edit.OnHeirs id f) (category : Category) (index : Nat) :
    (lib.edit id edit).heirs? category index = if id.library = lib.id ∧ id.seat = (category, index)
      then (lib.heirs? category index).map f else lib.heirs? category index := by
  rw [heirs?, slot?_edit, heirs?]
  split
  · cases lib.slot? category index with
    | none => rfl
    | some entry => exact h entry
  · rfl

lemma SameHeirs.edit (same : lib.SameHeirs lib') {id : DeclId} {edit : Edit}
    {f : List DeclId → List DeclId} (h : edit.OnHeirs id f) :
    (lib.edit id edit).SameHeirs (lib'.edit id edit) := by
  refine ⟨by rw [id_edit, id_edit, same.id_eq], fun category index => ?_⟩
  rw [lib'.heirs?_edit h, lib.heirs?_edit h, same.heirs, same.id_eq]

lemma sameHeirs_edit (lib : Library) {id : DeclId} {edit : Edit}
    (h : edit.OnHeirs id fun heirs => heirs) : lib.SameHeirs (lib.edit id edit) := by
  refine ⟨lib.id_edit _ _, fun category index => ?_⟩
  rw [lib.heirs?_edit h, Option.map_id', ite_self]

end Library

namespace LibrarySet

variable {set set' set'' : LibrarySet}

/-- Two states of the model in which everything outside of the project has the same heirs. -/
def SameHeirs (set set' : LibrarySet) : Prop :=
  ∀ library, library ≠ .project → Option.Rel Library.SameHeirs
    (set.get? library) (set'.get? library)

lemma SameHeirs.refl (set : LibrarySet) : set.SameHeirs set := fun library _ => by
  cases set.get? library with
  | none => exact .none
  | some lib => exact .some ⟨rfl, fun _ _ => rfl⟩

lemma SameHeirs.trans (h : set.SameHeirs set') (k : set'.SameHeirs set'') :
    set.SameHeirs set'' := by
  intro library hlibrary
  obtain ⟨hnone, hnone'⟩ | ⟨lib, lib', hlib, hlib', hfirst⟩ := rel_cases (h library hlibrary)
  · obtain ⟨-, hnone''⟩ | ⟨_, _, hlib, -, -⟩ := rel_cases (k library hlibrary)
    · rw [hnone, hnone'']
      exact .none
    · rw [hnone'] at hlib
      cases hlib
  · obtain ⟨hnone, -⟩ | ⟨mid, lib'', hmid, hlib'', hsecond⟩ := rel_cases (k library hlibrary)
    · rw [hnone] at hlib'
      cases hlib'
    · obtain rfl : lib' = mid := by simpa [hlib'] using hmid
      rw [hlib, hlib'']
      exact .some ⟨hsecond.id_eq.trans hfirst.id_eq, fun category index =>
        (hsecond.heirs category index).trans (hfirst.heirs category index)⟩

lemma SameHeirs.heirs?_eq (h : set.SameHeirs set') {base : DeclId}
    (hbase : base.library ≠ .project) :
    set'.heirs? base = set.heirs? base := by
  rw [LibrarySet.heirs?_eq, LibrarySet.heirs?_eq, slot?, slot?]
  obtain ⟨hnone, hnone'⟩ | ⟨lib, lib', hlib, hlib', same⟩ := rel_cases (h base.library hbase)
  · rw [hnone, hnone']
  · rw [hlib, hlib']
    exact same.heirs base.category base.index

/-- A change that respects heirs, made on both sides. -/
lemma SameHeirs.adjust (h : set.SameHeirs set') (library : LibraryId) {f : Library → Library}
    (hf : library ≠ .project → ∀ lib lib', lib.SameHeirs lib' → (f lib).SameHeirs (f lib')) :
    (set.adjust library f).SameHeirs (set'.adjust library f) := by
  intro other hother
  rw [get?_adjust, get?_adjust]
  split
  · next heq =>
    subst heq
    obtain ⟨hnone, hnone'⟩ | ⟨lib, lib', hlib, hlib', same⟩ := rel_cases (h library hother)
    · rw [hnone, hnone']
      exact .none
    · rw [hlib, hlib']
      exact .some (hf hother lib lib' same)
  · exact h other hother

/-- A change that keeps heirs, made on one side. -/
lemma sameHeirs_adjust (set : LibrarySet) (library : LibraryId) {f : Library → Library}
    (hf : library ≠ .project → ∀ lib : Library, lib.SameHeirs (f lib)) :
    set.SameHeirs (set.adjust library f) := by
  intro other hother
  rw [get?_adjust]
  split
  · next heq =>
    subst heq
    cases set.get? library with
    | none => exact .none
    | some lib => exact .some (hf hother lib)
  · exact SameHeirs.refl set other hother

lemma SameHeirs.dropLink (h : set.SameHeirs set') (link : BackLink) :
    (Linkage.dropLink set link).SameHeirs (Linkage.dropLink set' link) := by
  cases link with
  | reference target location =>
    cases target with
    | declaration id =>
      exact h.adjust id.library fun _ _ _ same =>
        same.edit (Edit.onHeirs_of_onEntry (fun _ => rfl) id)
    | space ref =>
      exact h.adjust ref.library fun _ _ _ same => ⟨same.id_eq, same.heirs⟩
  | implementor base heir =>
    obtain ⟨f, hf⟩ := Edit.onHeirs_overImplementors base (·.filter (· ≠ heir))
    exact h.adjust base.library fun _ _ _ same => same.edit hf

/-- Undoing what linking did for a document of the project. -/
lemma SameHeirs.undo (h : set.SameHeirs set') {unit : SourceUnit}
    (hunit : ∀ id ∈ unit.declarations, id.library = .project) :
    (unit.undo set).SameHeirs (unit.undo set') := by
  have hlinks : ∀ (links : List BackLink) {set set' : LibrarySet}, set.SameHeirs set' →
      (links.foldl Linkage.dropLink set).SameHeirs (links.foldl Linkage.dropLink set') := by
    intro links
    induction links with
    | nil => exact fun h => h
    | cons link rest ih => exact fun h => ih (h.dropLink link)
  have hresets : ∀ (decls : List DeclId), (∀ id ∈ decls, id.library = .project) →
      ∀ {set set' : LibrarySet}, set.SameHeirs set' →
        (decls.foldl (·.edit · .reset) set).SameHeirs (decls.foldl (·.edit · .reset) set') := by
    intro decls
    induction decls with
    | nil => exact fun _ _ _ h => h
    | cons id rest ih =>
      intro hdecls set set' h
      refine ih (fun other hother => hdecls other (List.mem_cons_of_mem _ hother))
        (h.adjust id.library ?_)
      exact fun hlibrary => absurd (hdecls id List.mem_cons_self) hlibrary
  exact hresets unit.declarations hunit (hlinks unit.links h)

lemma SameHeirs.undoAll (h : set.SameHeirs set') (units : List SourceUnit)
    (hunits : ∀ unit ∈ units, ∀ id ∈ unit.declarations, id.library = .project) :
    (Linkages.undo units set).SameHeirs (Linkages.undo units set') := by
  induction units generalizing set set' with
  | nil => exact h
  | cons unit rest ih =>
    exact ih (h.undo (hunits unit List.mem_cons_self)) fun other hother =>
      hunits other (List.mem_cons_of_mem _ hother)

/-- Marking documents of the project does to heirs elsewhere what undoing their links does. -/
lemma SameHeirs.detachAll (h : set.SameHeirs set') (units : List SourceUnit)
    (hunits : ∀ unit ∈ units, ∀ id ∈ unit.declarations, id.library = .project) :
    (Linkages.undo units set).SameHeirs (Linkages.each Linkage.detach set' units).libraries := by
  have hstrip (set : LibrarySet) (id : DeclId) : set.SameHeirs (set.stripRelations id) := by
    rw [stripRelations]
    generalize set.relatedPairs id = pairs
    induction pairs generalizing set with
    | nil => exact .refl set
    | cons pair rest ih =>
      refine SameHeirs.trans ?_ (ih (set.dropRelation pair))
      exact sameHeirs_adjust set pair.1.library fun _ lib =>
        lib.sameHeirs_edit (Edit.onHeirs_callable _ pair.1)
  have hstrips : ∀ (decls : List DeclId) (set : LibrarySet),
      set.SameHeirs (decls.foldl stripRelations set) := by
    intro decls
    induction decls with
    | nil => exact .refl
    | cons id rest ih => exact fun set => (hstrip set id).trans (ih _)
  induction units generalizing set set' with
  | nil => exact h
  | cons unit rest ih =>
    refine ih ?_ fun other hother => hunits other (List.mem_cons_of_mem _ hother)
    exact (h.trans (hstrips unit.declarations set')).undo (hunits unit List.mem_cons_self)

lemma sameHeirs_disposeAll (set : LibrarySet) (units : List SourceUnit)
    (hunits : ∀ unit ∈ units, unit.library = .project) :
    set.SameHeirs (Linkages.each Linkage.dispose set units).libraries := by
  induction units generalizing set with
  | nil => exact .refl set
  | cons unit rest ih =>
    refine SameHeirs.trans ?_ (ih _ fun other hother =>
      hunits other (List.mem_cons_of_mem _ hother))
    simp only [Linkage.dispose]
    split
    · exact .refl set
    · exact sameHeirs_adjust set unit.library fun hlibrary =>
        absurd (hunits unit List.mem_cons_self) hlibrary

/-- The bonds of a declaration name functions of the project on their right. -/
lemma Addressed.mem_bonds (addressed : set.Addressed) {category : Category} {index : Nat}
    {pair : DeclId × DeclId} (h : pair ∈ set.bonds category index) :
    pair.2.Proper ∧ pair.2.library = .project := by
  rw [bonds] at h
  cases hslot : set.slot? .project category index with
  | none =>
    rw [hslot] at h
    cases h
  | some entry =>
    rw [hslot] at h
    obtain ⟨_, hbonds, hpair⟩ := List.mem_flatten.1 h
    obtain ⟨f, hf, rfl⟩ := List.mem_map.1 hbonds
    obtain ⟨c, _, j, -, howner, -, -, hid, -⟩ := addressed.id_function hslot hf
    rw [Member.bonds] at hpair
    split at hpair
    · obtain ⟨other, -, rfl⟩ := List.mem_map.1 hpair
      rw [hid]
      exact ⟨DeclId.proper_member _ _ _ howner, rfl⟩
    · cases hpair

end LibrarySet

namespace Session

variable {session : Session}

open LibrarySet (SameContents)

/-- Clearing the project does to heirs elsewhere what undoing all its links does. -/
theorem Sound.sameHeirs_cleared (sound : session.Sound) {torn : List SourceUnit}
    (hperm : (torn ++ session.untouched).Perm session.files) (pool : IndexPool) :
    (Linkages.undo session.files session.libraries).SameHeirs
      (session.cleared torn pool).libraries := by
  have hfiles : ∀ unit ∈ torn ++ session.untouched, unit.library = .project ∧
      ∀ id ∈ unit.declarations, id.library = .project := by
    intro unit hunit
    have hmem := hperm.mem_iff.1 hunit
    refine ⟨sound.files_library unit hmem, fun id hid => ?_⟩
    exact congrArg DeclId.library (sound.settled.declared_project (List.mem_append_left _ hmem)
      (sound.files_library unit hmem) hid).1
  have htorn : ∀ unit ∈ torn, ∀ id ∈ unit.declarations, id.library = .project :=
    fun unit hunit => (hfiles unit (List.mem_append_left _ hunit)).2
  have huntouched : ∀ unit ∈ session.untouched, ∀ id ∈ unit.declarations, id.library = .project :=
    fun unit hunit => (hfiles unit (List.mem_append_right _ hunit)).2
  have hdetached := (LibrarySet.SameHeirs.refl session.libraries).detachAll torn htorn
  have hdisposed := LibrarySet.sameHeirs_disposeAll
    (Linkages.each Linkage.detach session.libraries torn).libraries
    (Linkages.each Linkage.detach session.libraries torn).units (sound.settled_detached hperm).2
  have hundone := (hdetached.trans hdisposed).undoAll session.untouched huntouched
  have hcleared : (session.cleared torn pool).libraries = _ :=
    Linkages.libraries_unlink _ session.untouched
  rw [hcleared, ← Linkages.undo_perm hperm, Linkages.undo, List.foldl_append]
  exact hundone

/-! ## Sessions over a bedrock -/

/-- What a session has kept of the session that it started as: the kernel, its documents and the
name of the project.  The kernel may have got new references and heirs, but none that are not on
record in documents of the project. -/
structure RestsOn (initial session : Session) : Prop where
  sound : session.Sound
  booked : Linkages.Booked session.libraries session.units
  noted : session.libraries.Noted session.units
  manifest : session.manifest = initial.manifest
  foreign : session.foreign = initial.foreign
  names : session.libraries.names = initial.libraries.names
  contents : SameContents (· ≠ .project) initial.libraries session.libraries
  heirs : initial.libraries.SameHeirs (Linkages.undo session.files session.libraries)
  root : ∀ space, session.libraries.project.spaces.get? Arena.root = some space →
    space.name = initial.manifest.name

/-- The project has been tidied, and nothing of it is linked. -/
structure Blank (session : Session) : Prop where
  records : session.libraries.ProjectBlank
  unlinked : ∀ unit ∈ session.files, unit.Unlinked

variable {initial session : Session}

lemma Bedrock.restsOn (bedrock : initial.Bedrock) : RestsOn initial initial where
  sound := bedrock.sound
  booked := bedrock.booked
  noted := bedrock.noted
  manifest := rfl
  foreign := rfl
  names := rfl
  contents := .refl _
  heirs := by
    rw [bedrock.files]
    exact .refl _
  root space hspace := by
    have hskeleton : (Library.new .project initial.manifest.name).spaces.get? Arena.root
        = some space.skeleton := by
      rw [← bedrock.project, Library.spaces_skeleton, Arena.get?_skeleton, hspace, Option.map_some]
    exact (congrArg Namespace.name (Option.some.inj hskeleton)).symm

/-- What waits for the next rebuild does not matter. -/
lemma RestsOn.congr (rests : RestsOn initial session) {session' : Session} (sound : session'.Sound)
    (hlibraries : session'.libraries = session.libraries) (hfiles : session'.files = session.files)
    (hforeign : session'.foreign = session.foreign)
    (hmanifest : session'.manifest = session.manifest) :
    RestsOn initial session' := by
  obtain ⟨-, booked, noted, manifest, foreign, names, contents, heirs, root⟩ := rests
  rw [units, ← hfiles, ← hforeign, ← hlibraries] at booked noted
  rw [← hforeign] at foreign
  rw [← hmanifest] at manifest
  rw [← hlibraries] at names contents root
  rw [← hfiles, ← hlibraries] at heirs
  exact ⟨sound, booked, noted, manifest, foreign, names, contents, heirs, root⟩

lemma RestsOn.lasting (rests : RestsOn initial session) (bedrock : initial.Bedrock) :
    session.Lasting := by
  rw [Lasting, rests.foreign]
  exact bedrock.lasting

/-- The kernel is tied to no function of the project, so tearing down the project strikes
nothing. -/
lemma RestsOn.contents_cleared (rests : RestsOn initial session) (bedrock : initial.Bedrock)
    {torn : List SourceUnit} (hperm : (torn ++ session.untouched).Perm session.files)
    (pool : IndexPool) :
    SameContents (· ≠ .project) initial.libraries (session.cleared torn pool).libraries := by
  intro library hlibrary
  have hcontents := rests.contents library hlibrary
  rw [rests.sound.contents_cleared rests.booked.1.toArranged hperm pool hlibrary, hcontents]
  cases hlib : initial.libraries.get? library with
  | none => rw [LibrarySet.contents?, hlib, Option.map_none, Option.map_none]
  | some lib =>
    rw [LibrarySet.contents?, hlib, Option.map_some, Option.map_some]
    refine congrArg some ((Library.dropRelations_eq_self_iff _
      _).2 fun pair hpair relations hrelations => ?_)
    obtain ⟨unit, hunit, hpair⟩ := List.mem_flatMap.1 hpair
    obtain ⟨id, -, hpair⟩ := List.mem_flatMap.1 hpair
    obtain ⟨hproper, hproject⟩ := rests.booked.1.addressed.mem_bonds hpair
    rw [Library.relations?_contents] at hrelations
    have hfirst : pair.1.library = library := by
      obtain ⟨record, hfind, -⟩ := Option.bind_eq_some_iff.1 hrelations
      rw [Library.find?_eq] at hfind
      split at hfind
      · next heq => exact heq.trans (bedrock.sound.settled.id_eq hlib)
      · cases hfind
    have hrelations' : initial.libraries.relations? pair.1 = some relations := by
      rw [LibrarySet.relations?_eq, hfirst, hlib, Option.bind_some, hrelations]
    exact fun hmem => bedrock.unrelated (hfirst ▸ hlibrary) hrelations' hmem hproper hproject

lemma RestsOn.tidied (rests : RestsOn initial session) (bedrock : initial.Bedrock)
    {torn : List SourceUnit} (hperm : (torn ++ session.untouched).Perm session.files)
    {pool : IndexPool}
    {tidied : Session} (hcleared : (session.cleared torn pool).Sound) (hsound : tidied.Sound)
    (htidied : Tidied { session.cleared torn pool with dirty := [] } tidied session.pendingTrees) :
    RestsOn initial tidied ∧ tidied.Blank := by
  have readied := rests.sound.readied_tidied rests.booked (rests.lasting bedrock) hperm hcleared
    hsound htidied
  obtain ⟨noted, -⟩ := rests.sound.noted_of_tidied rests.booked.1.toArranged
    rests.noted hperm htidied
  have blank : tidied.Blank := ⟨readied.blank, readied.unlinked⟩
  have hother {library : LibraryId} (hlibrary : library ≠ .project) :
      tidied.libraries.get? library = (session.cleared torn pool).libraries.get? library :=
    htidied.grows.other hlibrary
  refine ⟨⟨hsound, readied.booked, noted, readied.manifest.trans rests.manifest,
    readied.foreign.trans rests.foreign, readied.names.trans rests.names,
    fun library hlibrary => ?_,
    ?_, fun space hspace => ?_⟩, blank⟩
  · -- Abroad, clearing restores the initial contents and heirs and tidying adds nothing.
    rw [← rests.contents_cleared bedrock hperm pool library hlibrary, LibrarySet.contents?,
      hother hlibrary, LibrarySet.contents?]
  · rw [hsound.undo_of_blank blank.records blank.unlinked]
    intro library hlibrary
    rw [hother hlibrary]
    exact rests.heirs.trans (rests.sound.sameHeirs_cleared hperm pool) library hlibrary
  · -- The root keeps its name through every step of the clearing.
    have hroot : ∀ space, (session.cleared torn pool).libraries.project.spaces.get? Arena.root
        = some space → space.name = initial.manifest.name := by
      refine rests.sound.cleared_induction hperm pool (P := fun lib => ∀ space,
        lib.spaces.get? Arena.root = some space → space.name
          = initial.manifest.name) ?_ ?_ rests.root
      · intro lib lib' hskeleton hlib space hspace
        obtain ⟨space', hspace', heq⟩ := Library.space?_of_skeleton_eq hskeleton hspace
        exact (congrArg Namespace.name heq).trans (hlib space' hspace')
      · intro lib lib' unit others _ _ _ hsheds hlib space hspace
        obtain ⟨space', hspace', hname, -⟩ := hsheds.space_of hspace
        rw [hname, hlib space' hspace']
    obtain ⟨lib, hlib, grown⟩ := htidied.grows.grown
      (show (session.cleared torn pool).libraries.get? .project = some _ from rfl)
    obtain rfl : tidied.libraries.project = lib := Option.some.inj hlib
    obtain ⟨old, hold, -⟩ := hcleared.hosts.coherent.tree.root_live
    obtain ⟨space', hspace', -, hname, -⟩ := grown.space_keep hold
    obtain rfl : space = space' := by simpa [hspace] using hspace'
    rw [hname, hroot old hold]

lemma RestsOn.linked (rests : RestsOn initial session) (blank : session.Blank)
    (options : LinkOptions) : RestsOn initial
    (session.overFiles (·.link options)).checkProject := by
  have hundeclared : ∀ unit ∈ session.files, unit.Undeclared :=
    fun unit hunit => (blank.unlinked unit hunit).undeclared
  have arranged : session.libraries.Arranged (session.files ++ session.foreign.values.flatten) :=
    rests.booked.1.toArranged
  have harranged : (Linkages.link ⟨session.libraries, session.files⟩ options).libraries.Arranged
      ((Linkages.link ⟨session.libraries, session.files⟩ options).units
        ++ session.foreign.values.flatten) := Linkages.arranged_link arranged hundeclared options
  have hskeleton : (session.overFiles (·.link options)).checkProject.libraries.skeleton
      = session.libraries.skeleton := by
    rw [libraries_checkProject, LibrarySet.skeleton_check]
    exact (Linkages.skeleton_link ⟨session.libraries, session.files⟩ options).1
  have hundone := rests.sound.unlinkAll_linked arranged rests.noted blank.records
    blank.unlinked options
  obtain ⟨hforeign, hmanifest⟩ := (session.overFiles (·.link options)).foreign_checkProject
  refine ⟨(rests.sound.overFiles_link options).checkProject,
    booked_checkProject (Linkages.Booked.link rests.booked hundeclared options),
    noted_checkProject harranged (Linkages.noted_link arranged rests.noted hundeclared options),
    hmanifest.trans rests.manifest, hforeign.trans rests.foreign, ?_, ?_, ?_,
    fun space hspace => ?_⟩
  · rw [← LibrarySet.names_skeleton, hskeleton, LibrarySet.names_skeleton, rests.names]
  · have hlinked : SameContents (· ≠ .project) session.libraries
        (session.overFiles (·.link options)).libraries :=
      arranged.sameContents_link hundeclared
        (fun unit hunit hne => hne (rests.sound.files_library unit hunit)) options
    rw [libraries_checkProject]
    exact (rests.contents.trans hlinked).trans (harranged.orderly.sameContents_check (by simp))
  · rw [unchecked_unlinkAll] at hundone
    rw [show Linkages.undo _ _ = session.libraries from congrArg Session.libraries hundone,
      ← rests.sound.undo_of_blank blank.records blank.unlinked]
    exact rests.heirs
  · obtain ⟨space', hspace', heq⟩ := Library.space?_of_skeleton_eq
      (congrArg LibrarySet.project hskeleton) hspace
    exact (congrArg Namespace.name heq).trans (rests.root space' hspace')

/-- Nothing is loaded if the manifest declares no imports. -/
lemma loadImports_of_no_imports (hlibraries : session.manifest.libraries = [])
    (names : List String) :
    session.loadImports names = session :=
  loadImports_eq_self fun name _ hwants => by
    simp [wants, Manifest.declares, hlibraries] at hwants

/-- A rebuild tidies the documents that have been edited, and then links and checks all of them. -/
lemma RestsOn.rebuild (rests : RestsOn initial session) (bedrock : initial.Bedrock)
    (hlibraries : initial.manifest.libraries = []) : ∃ tidied report,
      session.rebuild = ((tidied.overFiles (·.link initial.options)).checkProject, .ok report) ∧
      RestsOn initial tidied ∧ tidied.Blank ∧
      session.rebuild.1.files.map SourceUnit.tree = tidied.files.map SourceUnit.tree ∧
      (tidied.files.map SourceUnit.tree).Perm
        (session.pendingTrees ++ session.untouched.map SourceUnit.tree) := by
  obtain ⟨torn, pool, tidied, report, hperm, hcleared, hsound, htidied, -, hrebuild⟩ :=
    rests.sound.groundwork_eq
  obtain ⟨rests', blank⟩ := rests.tidied bedrock hperm hcleared hsound htidied
  have hloads : tidied.loadImports (importNames tidied.files) = tidied :=
    loadImports_of_no_imports (rests'.manifest ▸ hlibraries) _
  have htrees {units units' : List SourceUnit}
      (h : units'.map SourceUnit.skeleton = units.map SourceUnit.skeleton) :
      units'.map SourceUnit.tree = units.map SourceUnit.tree := by
    have hmap := congrArg (List.map SourceUnit.tree) h
    rwa [List.map_map, List.map_map] at hmap
  refine ⟨tidied, report, ?_, rests', blank, ?_, ?_⟩
  · rw [hrebuild, relink, hloads, options, rests'.manifest, ← options]
  · rw [hrebuild]
    exact htrees hsound.skeleton_relink
  · obtain ⟨fresh, hfresh, hpending, -⟩ := htidied.files_perm
    rw [← hpending, ← htrees (session.skeleton_cleared torn pool), ← List.map_append]
    exact (hfresh.map SourceUnit.tree).symm

theorem RestsOn.perform (rests : RestsOn initial session) (bedrock : initial.Bedrock)
    (hlibraries : initial.manifest.libraries = []) (request : Request) :
    RestsOn initial (session.perform request) := by
  have sound := rests.sound.perform request
  cases request with
  | insert _ | erase _ | insertLibrary _ _ | changed _ | dropped _ =>
    exact rests.congr sound rfl rfl rfl rfl
  | rebuild =>
    obtain ⟨tidied, report, hrebuild, rests', blank, -⟩ := rests.rebuild bedrock hlibraries
    rw [Session.perform, hrebuild]
    exact rests'.linked blank initial.options
  | load name =>
    have hsame : (session.loadLibrary name).1 = session := by
      rcases session.loadLibrary_fst name with h | h
      · exact h
      · rw [h, rests.manifest, hlibraries]
        rfl
    rw [Session.perform, hsame]
    exact rests

theorem Bedrock.restsOn_run (bedrock : initial.Bedrock)
    (hlibraries : initial.manifest.libraries = [])
    (requests : List Request) : RestsOn initial (initial.run requests) :=
  run_induction bedrock.restsOn (fun _ request rests =>
    rests.perform bedrock hlibraries request) requests

end Session

end SymbolGraph
