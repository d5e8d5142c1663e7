import Mathlib.Data.List.Induction
import SymbolGraph.Proofs.Session.LoadedLibraries
import SymbolGraph.Proofs.Session.LoadedSupport

/-!
# Libraries that name the project

A library is linked once, when it is loaded, and may name declarations and namespaces of the
project.  At that moment it is on firm ground (`LibrarySet.Grounded`).  Afterwards the project is
rebuilt again and again, and the library is not: its names and types keep saying what was found at
first.

What they say can go out of date in one way.  A declaration or namespace of the project goes on to
exist as long as a document that holds it is left alone (`Session.Outlasts`), since neither loads
nor link passes take anything away; and everything outside the project is there for good.  So a
library dangles only where all documents that held a target have been torn down since the load
(`Session.libraries_outlast_untouched_documents`).
-/

namespace SymbolGraph

/-! ## What is enough to exist -/

/-- The header of a declaration and its rolls say under which identities it and its members
stand. -/
lemma DeclId.id_part? (id : DeclId) {entry entry' : Entry} (h : entry'.front = entry.front) :
    (id.part? entry').map Symbol.id = (id.part? entry).map Symbol.id := by
  obtain ⟨hskeleton, hrolls⟩ := Prod.mk.inj h
  unfold DeclId.part?
  split
  · have hid := congrArg Symbol.id hskeleton
    exact congrArg some hid
  · have hroll (entry : Entry) : ((entry.body.members? id.category).bind fun list =>
        (list[id.index]?).map Member.toEntry).map Symbol.id
          = (entry.roll id.category).bind fun list => (list[id.index]?).map Symbol.id := by
      rw [Entry.roll]
      cases entry.body.members? id.category with
      | none => rfl
      | some list =>
        simp only [Option.bind_some, Option.map_some, List.getElem?_map, Option.map_map]
        rfl
    rw [hroll, hroll, hrolls]

namespace LibrarySet

variable {set set' : LibrarySet}

lemma live_declaration (hid : set.Identified) (id : DeclId) :
    set.Live (.declaration id) ↔
      ((set.slot? id.library id.seat.1 id.seat.2).bind fun entry =>
        (id.part? entry).map Symbol.id) = some id := by
  have hfind : ((set.slot? id.library id.seat.1 id.seat.2).bind fun entry =>
      (id.part? entry).map Symbol.id) = (set.find? id).map Symbol.id := by
    rw [find?_eq hid, Option.map_bind]
    rfl
  rw [hfind, Option.map_eq_some_iff]
  rfl

/-- Whether a declaration exists is up to the headers in its slot. -/
lemma live_of_front (hid : set.Identified) (hid' : set'.Identified) {id : DeclId}
    (hfront : set'.front? id.library id.seat.1 id.seat.2
      = set.front? id.library id.seat.1 id.seat.2) (hlive : set.Live (.declaration id)) :
    set'.Live (.declaration id) := by
  rw [live_declaration hid] at hlive
  rw [live_declaration hid', ← hlive]
  rw [front?, front?] at hfront
  cases hslot : set.slot? id.library id.seat.1 id.seat.2 with
  | none =>
    rw [hslot, Option.map_none, Option.map_eq_none_iff] at hfront
    rw [hfront]
  | some entry =>
    rw [hslot, Option.map_some] at hfront
    obtain ⟨entry', hslot', heq⟩ := Option.map_eq_some_iff.1 hfront
    rw [hslot', Option.bind_some, Option.bind_some, id.id_part? heq]

lemma core?_of_cores {library : LibraryId} {lib lib' : Library}
    (hlib : set.get? library = some lib) (hlib' : set'.get? library = some lib')
    (hcores : lib'.cores = lib.cores) (category : Category) (index : Nat) :
    set'.core? library category index = set.core? library category index := by
  rw [core?, core?, slot?, slot?, hlib, hlib', Option.bind_some, Option.bind_some,
    ← Library.slot?_view, ← Library.slot?_view]
  exact congrArg (fun lib : Library => lib.slot? category index) hcores

/-- What exists is in a library that is loaded. -/
lemma exists_library {target : Target} (hlive : set.Live target) :
    ∃ lib, set.get? target.library = some lib := by
  cases target with
  | declaration id =>
    obtain ⟨entry, hfind, -⟩ := hlive
    obtain ⟨lib, hlib, -⟩ := Option.bind_eq_some_iff.1 hfind
    exact ⟨lib, hlib⟩
  | space ref =>
    obtain ⟨space, hspace⟩ := hlive
    obtain ⟨lib, hlib, -⟩ := Option.bind_eq_some_iff.1 hspace
    exact ⟨lib, hlib⟩

/-- What exists in a library goes on to exist as long as the cores of the library stay. -/
lemma live_of_cores (hid : set.Identified) (hid' : set'.Identified) {target : Target}
    {lib lib' : Library} (hlib : set.get? target.library = some lib)
    (hlib' : set'.get? target.library = some lib') (hcores : lib'.cores = lib.cores)
    (hlive : set.Live target) : set'.Live target := by
  cases target with
  | declaration id =>
    refine live_of_front hid hid' ?_ hlive
    have hcore := core?_of_cores hlib hlib' hcores id.seat.1 id.seat.2
    have hfront (set : LibrarySet) : set.front? id.library id.seat.1 id.seat.2
        = (set.core? id.library id.seat.1 id.seat.2).map Entry.front := by
      rw [front?, core?, Option.map_map]
      exact congrArg (Option.map · _) (funext fun entry => entry.front_core.symm)
    rw [hfront, hfront]
    exact congrArg _ hcore
  | space ref =>
    obtain ⟨space, hspace⟩ := hlive
    have hlib : set.get? ref.library = some lib := hlib
    have hlib' : set'.get? ref.library = some lib' := hlib'
    have hget : (lib'.spaces.get? ref.space).map Namespace.skeleton
        = (lib.spaces.get? ref.space).map Namespace.skeleton := by
      rw [← Arena.get?_skeleton, ← Arena.get?_skeleton]
      exact congrArg (fun lib : Library => lib.spaces.get? ref.space) hcores
    rw [space?, hlib, Option.bind_some] at hspace
    rw [hspace, Option.map_some] at hget
    obtain ⟨space', hspace', -⟩ := Option.map_eq_some_iff.1 hget
    exact ⟨space', by rw [space?, hlib', Option.bind_some, hspace']⟩

end LibrarySet

/-! ## Documents and what they hold -/

/-- The document declares the target, or the owner of the target, or opens it. -/
def SourceUnit.Holds (unit : SourceUnit) : Target → Prop
  | .declaration id => id.holder ∈ unit.declarations
  | .space ref => ref.library = unit.library ∧ ref.space ∈ unit.spaces

lemma SourceUnit.Holds.of_skeleton {unit unit' : SourceUnit} {target : Target}
    (holds : unit.Holds target) (h : unit'.skeleton = unit.skeleton) : unit'.Holds target := by
  cases target with
  | declaration id =>
    rw [Holds, SourceUnit.declarations_of_skeleton_eq h]
    exact holds
  | space ref =>
    have hlibrary : unit'.library = unit.library := congrArg (·.library) h
    have hspaces : unit'.spaces = unit.spaces := congrArg (·.spaces) h
    exact ⟨hlibrary.symm ▸ holds.1, hspaces.symm ▸ holds.2⟩

lemma DeclId.Proper.holder_eq {id : DeclId} (proper : id.Proper) :
    id.holder = ⟨id.library, id.seat.1, id.seat.2, none⟩ := by
  refine DeclId.holder_eq ?_
  cases hmember : id.category.isMember with
  | false =>
    rw [holder, owner?_of_top hmember, Option.getD_none]
    exact proper.define_of_top hmember
  | true =>
    obtain ⟨category, index, -, -, howner, -⟩ := proper.exists_owner hmember
    rw [holder, howner, Option.getD_some]

/-- What exists is held by a document, the roots apart. -/
lemma LibrarySet.Arranged.exists_holder {set : LibrarySet} {units : List SourceUnit}
    (arranged : set.Arranged units) {target : Target} (hlive : set.Live target) :
    (∃ library, target = .space ⟨library, Arena.root⟩) ∨ ∃ unit ∈ units, unit.Holds target := by
  cases target with
  | declaration id =>
    right
    obtain ⟨proper, -⟩ := (arranged.orderly.live_iff _).1 hlive
    obtain ⟨entry, hfind, -⟩ := hlive
    rw [find?_eq arranged.orderly.identified] at hfind
    obtain ⟨top, htop, -⟩ := Option.bind_eq_some_iff.1 hfind
    obtain ⟨lib, hlib, hslot⟩ := Option.bind_eq_some_iff.1 htop
    have hosts := arranged.settled.hosts hlib
    -- A member is held by the document that declares its owner.
    have hid : id.holder = top.id := by
      rw [proper.holder_eq, hosts.coherent.id_eq hslot, arranged.settled.id_eq hlib]
    have hholder : id.holder ∈ (units.filter fun unit => unit.library = id.library).flatMap
        SourceUnit.declarations :=
      hosts.mem_declarations.2 ⟨top, by rw [proper.holder_eq]; exact hslot, hid.symm⟩
    obtain ⟨unit, hunit, hmem⟩ := List.mem_flatMap.1 hholder
    exact ⟨unit, List.mem_of_mem_filter hunit, hmem⟩
  | space ref =>
    obtain ⟨space, hspace⟩ := hlive
    obtain ⟨lib, hlib, hget⟩ := Option.bind_eq_some_iff.1 hspace
    by_cases hroot : ref.space = Arena.root
    · exact Or.inl ⟨ref.library, by rw [← hroot]⟩
    · obtain ⟨unit, hunit, hopen⟩ := (arranged.settled.hosts hlib).spaces_opened hget hroot
      obtain ⟨hunit, hlibrary⟩ := List.mem_filter.1 hunit
      exact Or.inr ⟨unit, hunit, (of_decide_eq_true hlibrary).symm, hopen⟩

/-- A document holds what is in its library. -/
lemma LibrarySet.Settled.library_eq_of_holds {set : LibrarySet} {units : List SourceUnit}
    (settled : set.Settled units) {unit : SourceUnit} (hunit : unit ∈ units) {target : Target}
    (holds : unit.Holds target) : unit.library = target.library := by
  cases target with
  | declaration id =>
    have hdeclared : id.holder.library = unit.library :=
      congrArg DeclId.library (settled.declared hunit holds).1
    have hholder : id.holder.library = id.library := by
      rw [DeclId.holder]
      cases howner : id.owner? with
      | none => rfl
      | some owner => exact DeclId.library_of_owner? howner
    exact hdeclared.symm.trans hholder
  | space ref => exact holds.1.symm

namespace Session

variable {session : Session}

/-- What exists in the project is held by a document, the root apart. -/
lemma Sound.exists_holder (sound : session.Sound)
    (arranged : session.libraries.Arranged session.units) {target : Target}
    (hlive : session.libraries.Live target) (hproject : target.library = .project) :
    target = .space ⟨.project, Arena.root⟩ ∨ ∃ unit ∈ session.files, unit.Holds target := by
  rcases arranged.exists_holder hlive with ⟨library, rfl⟩ | ⟨unit, hunit, holds⟩
  · obtain rfl : library = .project := hproject
    exact Or.inl rfl
  · refine Or.inr ⟨unit, (List.mem_append.1 hunit).resolve_right fun hforeign => ?_, holds⟩
    exact sound.foreign_library unit hforeign
      ((arranged.settled.library_eq_of_holds hunit holds).trans hproject)

/-- What a document holds goes on to exist through a rebuild that leaves the document alone. -/
lemma Sound.live_rebuild_of_holds (sound : session.Sound)
    (arranged : session.libraries.Arranged session.units) (enrolled : session.Enrolled)
    {unit : SourceUnit} (hunit : unit ∈ session.untouched) {target : Target}
    (holds : unit.Holds target) (hlive : session.libraries.Live target) :
    session.rebuild.1.libraries.Live target := by
  have hfile : unit ∈ session.files := List.mem_of_mem_filter hunit
  have hproject := sound.files_library unit hfile
  -- The headers and rolls of an untouched document stay, and so do the paths to its namespaces.
  cases target with
  | declaration id =>
    obtain ⟨proper, -⟩ := (arranged.orderly.live_iff _).1 hlive
    have hholder := DeclId.Proper.holder_eq proper
    obtain ⟨entry, entry', hslot, hslot', hfront⟩ :=
      sound.front_rebuild arranged enrolled hunit holds
    have hlibrary : id.library = .project := by
      have hdeclared := (sound.settled.declared_project (List.mem_append_left _ hfile) hproject
        holds).1
      rw [hholder] at hdeclared
      exact congrArg DeclId.library hdeclared
    refine LibrarySet.live_of_front arranged.orderly.identified
      (sound.arranged_rebuild arranged).orderly.identified ?_ hlive
    rw [hholder] at hslot hslot'
    rw [LibrarySet.front?, LibrarySet.front?, hlibrary, hslot, hslot', Option.map_some,
      Option.map_some, hfront]
  | space ref =>
    obtain ⟨library, space⟩ := ref
    obtain ⟨hlibrary, hspace⟩ := holds
    obtain rfl : library = .project := hlibrary.trans hproject
    obtain ⟨node, hnode⟩ := hlive
    obtain ⟨hstays, -⟩ := sound.stays_rebuild arranged hunit
    obtain ⟨path, hpath⟩ := sound.hosts.coherent.tree.located hnode
    exact (hstays.pathTo hspace hpath).live

/-! ## What outlasts a run -/

/-- The paths of the documents that a request tears down. -/
def tornBy (session : Session) : Request → List String
  | .rebuild => session.doomed
  | _ => []

/-- The paths of the documents that some requests tear down. -/
def tornDuring (session : Session) : List Request → List String
  | [] => []
  | request :: rest => session.tornBy request ++ (session.perform request).tornDuring rest

lemma run_append (session : Session) (earlier later : List Request) :
    session.run (earlier ++ later) = (session.run earlier).run later := List.foldl_append

lemma run_concat (session : Session) (requests : List Request) (request : Request) :
    session.run (requests ++ [request]) = (session.run requests).perform request :=
  session.run_append requests [request]

lemma tornDuring_concat (session : Session) (requests : List Request) (request : Request) :
    session.tornDuring (requests ++ [request])
      = session.tornDuring requests ++ (session.run requests).tornBy request := by
  induction requests generalizing session with
  | nil => simp [tornDuring]
  | cons first rest ih =>
    rw [List.cons_append, tornDuring, tornDuring, ih, List.append_assoc, run_cons]

/-- A request rebuilds the project, loads a library, or leaves the model alone. -/
lemma perform_cases (session : Session) (request : Request) :
    request = .rebuild ∨ (∃ name, request = .load name) ∨
      (session.perform request).libraries = session.libraries ∧
        (session.perform request).files = session.files ∧
        (session.perform request).foreign = session.foreign ∧ session.tornBy request = [] := by
  cases request with
  | rebuild => exact Or.inl rfl
  | load name => exact Or.inr (Or.inl ⟨name, rfl⟩)
  | _ => exact Or.inr (Or.inr ⟨rfl, rfl, rfl, rfl⟩)

/-- A load adds to what there is. -/
lemma Sound.admits_load (sound : session.Sound)
    (arranged : session.libraries.Arranged session.units) (name : String) :
    (session.loadLibrary name).1.files = session.files ∧
      session.libraries.Admits session.units
        (fun library => ∃ lib, session.libraries.get? library = some lib)
        (session.loadLibrary name).1.libraries (session.loadLibrary name).1.units := by
  rcases session.loadLibrary_fst name with h | h
  · rw [h]
    exact ⟨rfl, .refl arranged.orderly _ _⟩
  · obtain ⟨after, hload, keeps, loaded, -⟩ :=
      (sound.keeps ⟨⟨arranged, sound.pool⟩, .refl arranged.orderly _ _⟩).load
        (loadInvariant_admits arranged.legible ⟨_, rfl⟩ fun _ h => h)
        session.manifest.libraries.length name
    rw [h, hload]
    exact ⟨loaded.files_eq, keeps.holds.2⟩

lemma grounded_checkProject (orderly : session.libraries.Orderly) {library : LibraryId}
    (grounded : session.libraries.Grounded session.units library) :
    session.checkProject.libraries.Grounded session.checkProject.units library := by
  rw [libraries_checkProject]
  refine (grounded.check orderly .project).congr ?_
  have hrecord := congrArg (List.map fun record => (record.1, record.2.1))
    session.record_checkProject
  rwa [List.map_map, List.map_map] at hrecord

/-- Linking the project anew adds to what there is. -/
lemma Sound.admits_relink (sound : session.Sound)
    (arranged : session.libraries.Arranged session.units)
    (hundeclared : ∀ unit ∈ session.files, unit.Undeclared) :
    session.libraries.Admits session.units
      (fun library => ∃ lib, session.libraries.get? library = some lib)
      session.relink.libraries session.relink.units := by
  -- Loading grounds, linking the project retains, and the check writes nothing of either.
  obtain ⟨keeps, loaded⟩ :=
    (sound.keeps ⟨⟨arranged, sound.pool⟩, .refl arranged.orderly _ _⟩).loadImports
      (loadInvariant_admits arranged.legible ⟨_, rfl⟩ fun _ h => h) (importNames session.files)
  have hfiles := sound.relink.files_library
  unfold Session.relink at hfiles ⊢
  generalize session.loadImports (importNames session.files) = mid at keeps loaded hfiles ⊢
  have hmid : mid.libraries.Arranged mid.units := keeps.holds.1.1
  have admits : session.libraries.Admits session.units _ mid.libraries mid.units := keeps.holds.2
  have hundeclared' : ∀ unit ∈ mid.files, unit.Undeclared := loaded.files_eq ▸ hundeclared
  have hlinked := Linkages.arranged_link hmid hundeclared' mid.options
  obtain ⟨retains, grounded⟩ := Linkages.grounded_link hmid hundeclared' admits.grounded mid.options
  have hcheck := (LibrarySet.sameTags_check hlinked.orderly .project).retains hlinked.orderly
  refine ⟨?_, fun library hfirm => ?_, fun unit hunit habroad hold => ?_⟩
  · rw [libraries_checkProject]
    exact admits.retains.trans (retains.trans hcheck)
  · exact @grounded_checkProject (mid.overFiles (·.link mid.options)) hlinked.orderly library
      (grounded library hfirm)
  · rcases List.mem_append.1 hunit with hfile | hforeign
    · exact absurd (hfiles unit hfile) habroad
    · rw [(mid.overFiles (·.link mid.options)).foreign_checkProject.1] at hforeign
      exact admits.documents unit (List.mem_append_right _ hforeign) habroad hold

/-- A rebuild leaves what it loads on firm ground, and gives no documents to what was there. -/
theorem Sound.admits_rebuild (sound : session.Sound)
    (arranged : session.libraries.Arranged session.units) :
    (∀ library, session.libraries.get? library = none →
      session.rebuild.1.libraries.Grounded session.rebuild.1.units library) ∧
    ∀ unit ∈ session.rebuild.1.units, unit.library ≠ .project →
      (∃ lib, session.libraries.get? unit.library = some lib) → unit ∈ session.units := by
  obtain ⟨torn, pool, tidied, report, hperm, -, hsound, htidied, hrebuild⟩ := sound.rebuild_eq
  obtain ⟨harranged, hundeclared⟩ := sound.arranged_tidied arranged hperm hsound htidied
  have admits := hsound.admits_relink harranged hundeclared
  -- Up to relinking, a library that is not the project has at most lost relations.
  have hcontents {library : LibraryId} (h : library ≠ .project) :
      tidied.libraries.contents? library = (session.libraries.contents? library).map
        fun lib => (session.bondsOf torn).foldl Library.dropRelation lib := by
    rw [← sound.contents_cleared arranged hperm pool h, LibrarySet.contents?,
      LibrarySet.contents?, htidied.grows.other h]
  have hforeign : tidied.foreign = session.foreign := htidied.foreign_eq
  rw [hrebuild]
  refine ⟨fun library hnone => ?_, fun unit hunit habroad hloaded => ?_⟩
  · refine admits.grounded library (harranged.settled.grounded_of_unloaded ?_)
    have hlibrary : library ≠ .project := by
      rintro rfl
      cases hnone
    have heq := hcontents hlibrary
    rwa [LibrarySet.contents?, LibrarySet.contents?, hnone, Option.map_none, Option.map_none,
      Option.map_eq_none_iff] at heq
  · obtain ⟨lib, hlib⟩ := hloaded
    have heq := hcontents habroad
    rw [LibrarySet.contents?, LibrarySet.contents?, hlib, Option.map_some, Option.map_some] at heq
    obtain ⟨lib', hlib', -⟩ := Option.map_eq_some_iff.1 heq
    have hknown := admits.documents unit hunit habroad ⟨lib', hlib'⟩
    rcases List.mem_append.1 hknown with hfile | hmem
    · exact absurd (hsound.files_library unit hfile) habroad
    · exact List.mem_append_right _ (hforeign ▸ hmem)

/-! ## One request -/

/-- A library that is loaded by a request is on firm ground after it. -/
lemma Sound.grounded_perform_new (sound : session.Sound)
    (arranged : session.libraries.Arranged session.units) (request : Request) {library : LibraryId}
    (hnone : session.libraries.get? library = none) :
    (session.perform request).libraries.Grounded (session.perform request).units library := by
  have hgrounded := arranged.settled.grounded_of_unloaded hnone
  rcases session.perform_cases request with rfl | ⟨name, rfl⟩ | ⟨hset, hfiles, hforeign, -⟩
  · exact (sound.admits_rebuild arranged).1 library hnone
  · exact (sound.admits_load arranged name).2.grounded library hgrounded
  · rwa [hset, Session.units, hfiles, hforeign]

/-- As long as nothing is rebuilt, all that is on firm ground stays there. -/
lemma Sound.grounded_perform (sound : session.Sound)
    (arranged : session.libraries.Arranged session.units) {request : Request}
    (hrequest : request ≠ .rebuild) {library : LibraryId}
    (grounded : session.libraries.Grounded session.units library) :
    (session.perform request).libraries.Grounded (session.perform request).units library := by
  rcases session.perform_cases request with rfl | ⟨name, rfl⟩ | ⟨hset, hfiles, hforeign, -⟩
  · exact absurd rfl hrequest
  · exact (sound.admits_load arranged name).2.grounded library grounded
  · rwa [hset, Session.units, hfiles, hforeign]

/-- A request keeps the cores of a library that is loaded. -/
lemma Sound.cores_perform (sound : session.Sound)
    (arranged : session.libraries.Arranged session.units) (request : Request) {library : LibraryId}
    {lib : Library} (hlibrary : library ≠ .project)
    (hlib : session.libraries.get? library = some lib) :
    ∃ lib', (session.perform request).libraries.get? library = some lib' ∧
      lib'.cores = lib.cores := by
  rcases session.perform_cases request with rfl | ⟨name, rfl⟩ | ⟨hset, -⟩
  · exact sound.cores_rebuild arranged hlibrary hlib
  · obtain ⟨lib', hlib', hcontents, -⟩ := sound.contents_load arranged name hlib
    refine ⟨lib', hlib', ?_⟩
    rw [← Library.cores_contents, hcontents, Library.cores_contents]
  · exact ⟨lib, hset ▸ hlib, rfl⟩

/-- A library names a target: in one of its documents, or as the declaration of a type that a record
of it has.  The only type without a declaration is the invalid one. -/
inductive PointsTo (session : Session) (library : LibraryId) : Target → Prop
  | occurrence {unit : SourceUnit} {occurrence : Occurrence} (hunit : unit ∈ session.units)
      (hlibrary : unit.library = library) (hmem : occurrence ∈ unit.occurrences) :
      PointsTo session library occurrence.target
  | type {category : Category} {index : Nat} {entry : Entry} {ty : Ty} {id : DeclId}
      (hslot : session.libraries.slot? library category index = some entry)
      (hty : ty ∈ entry.body.types) (hid : ty.declaration? = some id) :
      PointsTo session library (.declaration id)

lemma PointsTo.live {library : LibraryId} {target : Target}
    (grounded : session.libraries.Grounded session.units library)
    (h : session.PointsTo library target) : session.libraries.Live target := by
  cases h with
  | occurrence hunit hlibrary hmem => exact grounded.occurrences _ hunit hlibrary _ hmem
  | type hslot hty hid => exact grounded.types _ _ _ hslot _ hty _ hid

/-- A library that is loaded names nothing new after a request. -/
lemma Sound.pointsTo_of_perform (sound : session.Sound)
    (arranged : session.libraries.Arranged session.units) {request : Request} {library : LibraryId}
    {lib : Library} (hlibrary : library ≠ .project)
    (hlib : session.libraries.get? library = some lib) {target : Target}
    (h : (session.perform request).PointsTo library target) : session.PointsTo library target := by
  cases h with
  | @occurrence unit occurrence hunit hmine hmem =>
    refine .occurrence ?_ hmine hmem
    have habroad : unit.library ≠ .project := hmine ▸ hlibrary
    have hloaded : ∃ lib, session.libraries.get? unit.library = some lib := ⟨lib, hmine ▸ hlib⟩
    rcases session.perform_cases request with rfl | ⟨name, rfl⟩ | ⟨-, hfiles, hforeign, -⟩
    · exact (sound.admits_rebuild arranged).2 unit hunit habroad hloaded
    · exact (sound.admits_load arranged name).2.documents unit hunit habroad hloaded
    · rwa [Session.units, hfiles, hforeign] at hunit
  | @type category index entry ty id hslot hty hid =>
    obtain ⟨lib', hlib', hcores⟩ := sound.cores_perform arranged request hlibrary hlib
    have hall : session.libraries.AllTypes (fun ty => ∀ id, ty.declaration? = some id →
        session.PointsTo library (.declaration id)) library :=
      fun category index entry hslot ty hty id hid => .type hslot hty hid
    exact hall.of_core (LibrarySet.core?_of_cores hlib hlib' hcores) category index entry hslot
      ty hty id hid

/-- All documents of the session that hold the target are at these paths, and there is one. -/
def HeldAt (session : Session) (paths : List String) (target : Target) : Prop :=
  (∃ unit ∈ session.files, unit.Holds target) ∧
    ∀ unit ∈ session.files, unit.Holds target → unit.path ∈ paths

/-- What is left of a session when documents at some paths have been torn down: the documents at
other paths, and all that existed, unless it was held by documents at these paths only. -/
structure Outlasts (session : Session) (paths : List String) (after : Session) : Prop where
  documents : ∀ unit ∈ session.files, unit.path ∉ paths →
    ∃ unit' ∈ after.files, unit'.skeleton = unit.skeleton
  live : ∀ target, session.libraries.Live target →
    after.libraries.Live target ∨ target.library = .project ∧ session.HeldAt paths target

lemma Outlasts.refl (session : Session) : session.Outlasts [] session :=
  ⟨fun unit hunit _ => ⟨unit, hunit, rfl⟩, fun _ hlive => Or.inl hlive⟩

lemma Sound.live_root (sound : session.Sound) :
    session.libraries.Live (.space ⟨.project, Arena.root⟩) := by
  obtain ⟨space, hspace, -⟩ := sound.hosts.coherent.tree.root_live
  exact ⟨space, hspace⟩

/-- A step that loses no documents and nothing that exists. -/
lemma Outlasts.step {after next : Session} {paths : List String}
    (outlasts : session.Outlasts paths after) (hfiles : next.files = after.files)
    (hlive : ∀ {target}, after.libraries.Live target → next.libraries.Live target) :
    session.Outlasts paths next :=
  ⟨hfiles ▸ outlasts.documents, fun target h => (outlasts.live target h).imp_left hlive⟩

lemma Outlasts.rebuild {after : Session} {paths : List String}
    (outlasts : session.Outlasts paths after) (sound : session.Sound)
    (arranged : session.libraries.Arranged session.units) (hsound : after.Sound)
    (harranged : after.libraries.Arranged after.units) (henrolled : after.Enrolled) :
    session.Outlasts (paths ++ after.doomed) after.rebuild.1 := by
  have huntouched {unit : SourceUnit} (hunit : unit ∈ session.files)
      (hpath : unit.path ∉ paths ++ after.doomed) :
      ∃ unit' ∈ after.untouched, unit'.skeleton = unit.skeleton := by
    obtain ⟨hspared, hkept⟩ := not_or.1 (List.mem_append.not.1 hpath)
    obtain ⟨unit', hunit', hskeleton⟩ := outlasts.documents unit hunit hspared
    have hsame : unit'.path = unit.path :=
      congrArg FileTree.path (SourceUnit.tree_of_skeleton_eq hskeleton)
    exact ⟨unit', List.mem_filter.2 ⟨hunit', by simpa [hsame] using hkept⟩, hskeleton⟩
  refine ⟨fun unit hunit hpath => ?_, fun target hlive => ?_⟩
  · obtain ⟨unit', hunit', hskeleton⟩ := huntouched hunit hpath
    obtain ⟨-, last, hlast, hlast'⟩ := hsound.stays_rebuild harranged hunit'
    exact ⟨last, hlast, hlast'.trans hskeleton⟩
  · rcases outlasts.live target hlive with hafter | ⟨hproject, holder, hheld⟩
    · by_cases hproject : target.library = .project
      · rcases sound.exists_holder arranged hlive hproject with rfl | holder
        · exact Or.inl (hsound.perform .rebuild).live_root
        refine or_iff_not_imp_left.2 fun hlost => ⟨hproject, holder, fun unit hunit holds => ?_⟩
        by_contra hpath
        obtain ⟨unit', hunit', hskeleton⟩ := huntouched hunit hpath
        exact hlost (hsound.live_rebuild_of_holds harranged henrolled hunit'
          (holds.of_skeleton hskeleton) hafter)
      · obtain ⟨lib, hlib⟩ := LibrarySet.exists_library hafter
        obtain ⟨lib', hlib', hcores⟩ := hsound.cores_rebuild harranged hproject hlib
        exact Or.inl (LibrarySet.live_of_cores harranged.orderly.identified
          (hsound.arranged_rebuild harranged).orderly.identified hlib hlib' hcores hafter)
    · exact Or.inr ⟨hproject, holder, fun unit hunit holds =>
        List.mem_append_left _ (hheld unit hunit holds)⟩

theorem Outlasts.perform {after : Session} {paths : List String}
    (outlasts : session.Outlasts paths after) (sound : session.Sound)
    (arranged : session.libraries.Arranged session.units) (hsound : after.Sound)
    (harranged : after.libraries.Arranged after.units) (henrolled : after.Enrolled)
    (request : Request) :
    session.Outlasts (paths ++ after.tornBy request) (after.perform request) := by
  rcases after.perform_cases request with rfl | ⟨name, rfl⟩ | ⟨hset, hfiles, -, htorn⟩
  · exact outlasts.rebuild sound arranged hsound harranged henrolled
  · obtain ⟨hfiles, admits⟩ := hsound.admits_load harranged name
    have htorn : after.tornBy (.load name) = [] := rfl
    rw [htorn, List.append_nil]
    exact outlasts.step hfiles admits.retains.live
  · rw [htorn, List.append_nil]
    exact outlasts.step hfiles fun h => hset ▸ h

/-! ## Runs -/

/-- The last of the requests has the library loaded; if there are none, it is there from the
start. -/
structure Loads (initial : Session) (requests : List Request) (library : LibraryId) : Prop where
  loaded : ∃ lib, (initial.run requests).libraries.get? library = some lib
  unloaded : ∀ before request, requests = before ++ [request] →
    (initial.run before).libraries.get? library = none

/-- All that is loaded at the start of a session is on firm ground. -/
lemma grounded_start (manifest : Manifest) (sources : Sources) :
    ∃ initial, Session.start manifest sources = .ok initial ∧
      ∀ library, initial.libraries.Grounded initial.units library := by
  have arranged := LibrarySet.arranged_new manifest.name manifest.kernel
  have hproject : ∀ library, library = .project →
      ∃ lib, (LibrarySet.new manifest.name manifest.kernel).get? library = some lib := by
    rintro library rfl
    exact ⟨_, rfl⟩
  obtain ⟨initial, hstart, keeps, -⟩ := Keeps.start
    (@loadInvariant_admits _ [] _ arranged.legible rfl hproject) manifest sources
    ⟨⟨arranged, IndexPool.matches_new manifest.name⟩, .refl arranged.orderly _ _⟩
  refine ⟨initial, hstart, fun library => keeps.holds.2.grounded library ?_⟩
  refine LibrarySet.grounded_of_empty (fun category index => ?_) (by simp)
  exact Option.map_eq_none_iff.1 (LibrarySet.tags?_new manifest.name manifest.kernel ..)

/-- How a library that is loaded after some requests came to be what it is: one of the requests has
it loaded, and leaves it on firm ground; it names nothing but what it named then; and what it named
then is there unless all documents that held it have been torn down since. -/
lemma exists_load (manifest : Manifest) (sources : Sources) :
    ∃ initial, Session.start manifest sources = .ok initial ∧
      ∀ (requests : List Request) (library : LibraryId) (lib : Library), library ≠ .project →
        (initial.run requests).libraries.get? library = some lib →
        ∃ earlier later, requests = earlier ++ later ∧ initial.Loads earlier library ∧
          (initial.run earlier).libraries.Grounded (initial.run earlier).units library ∧
          (initial.run earlier).Outlasts ((initial.run earlier).tornDuring later)
            (initial.run requests) ∧
          (∀ target, (initial.run requests).PointsTo library target →
            (initial.run earlier).PointsTo library target) ∧
          (.rebuild ∉ later →
            (initial.run requests).libraries.Grounded (initial.run requests).units library) := by
  obtain ⟨initial, hstart, hrun⟩ := enrolled_run manifest sources
  obtain ⟨other, hother, hinitial⟩ := grounded_start manifest sources
  obtain rfl : initial = other := Except.ok.inj (hstart.symm.trans hother)
  refine ⟨initial, hstart, fun requests => ?_⟩
  -- The induction adds requests at the end. The last of them loads the library, or the library was
  -- there before it and only has to outlast it.
  induction requests using List.reverseRecOn with
  | nil =>
    intro library lib hlibrary hlib
    refine ⟨[], [], rfl, ⟨⟨lib, hlib⟩, by simp⟩, hinitial library, .refl _, fun _ h => h,
      fun _ => hinitial library⟩
  | append_singleton requests request ih =>
    intro library lib hlibrary hlib
    obtain ⟨sound, arranged, enrolled⟩ := hrun requests
    cases hbefore : (initial.run requests).libraries.get? library with
    | none =>
      have grounded := sound.grounded_perform_new arranged request hbefore
      rw [← run_concat] at grounded
      refine ⟨requests ++ [request], [], (List.append_nil _).symm, ⟨⟨lib, hlib⟩, ?_⟩, grounded,
        .refl _, fun _ h => h, fun _ => grounded⟩
      intro before last heq
      obtain ⟨rfl, -⟩ := List.append_inj' heq rfl
      exact hbefore
    | some before =>
      obtain ⟨earlier, later, rfl, loads, grounded, outlasts, hpoints, hkept⟩ :=
        ih library before hlibrary hbefore
      obtain ⟨hsound, harranged, -⟩ := hrun earlier
      refine ⟨earlier, later ++ [request], List.append_assoc .., loads, grounded, ?_, ?_, ?_⟩
      · rw [run_concat, tornDuring_concat, ← run_append]
        exact outlasts.perform hsound harranged sound arranged enrolled request
      · intro target h
        rw [run_concat] at h
        exact hpoints target (sound.pointsTo_of_perform arranged hlibrary hbefore h)
      · intro hlater
        obtain ⟨hspared, hrequest⟩ := not_or.1 (List.mem_append.not.1 hlater)
        rw [run_concat]
        refine sound.grounded_perform arranged ?_ (hkept hspared)
        rintro rfl
        exact hrequest List.mem_cons_self

/-- In every state of every run, a library other than the project that is loaded has been loaded by
one of the requests, or at the start.  Right after it was loaded, all its names and types meant
something that existed.  They still do, except for those that point into the project and were held
only by documents that have been torn down since.  And until the next rebuild after the load,
every class or interface of the library is among the heirs of each of its bases. -/
theorem libraries_outlast_untouched_documents (manifest : Manifest) (sources : Sources) :
    ∃ initial, Session.start manifest sources = .ok initial ∧
      ∀ (requests : List Request) (library : LibraryId) (lib : Library),
        let session := initial.run requests
        library ≠ .project → session.libraries.get? library = some lib →
        ∃ earlier later, requests = earlier ++ later ∧ initial.Loads earlier library ∧
          let loaded := initial.run earlier
          (∀ target, session.PointsTo library target →
            loaded.libraries.Live target ∧ (session.libraries.Live target ∨
              target.library = .project ∧ loaded.HeldAt (loaded.tornDuring later) target)) ∧
          (.rebuild ∉ later → ∀ category index heir,
            session.libraries.slot? library category index = some heir →
            ∀ base ∈ heir.body.bases, session.libraries.Lists base heir.id) := by
  obtain ⟨initial, hstart, hload⟩ := exists_load manifest sources
  obtain ⟨other, hother, hrun⟩ := arranged_run manifest sources
  obtain rfl : initial = other := Except.ok.inj (hstart.symm.trans hother)
  refine ⟨initial, hstart, fun requests library lib hlibrary hlib => ?_⟩
  obtain ⟨earlier, later, hsplit, loads, grounded, outlasts, hpoints, hkept⟩ :=
    hload requests library lib hlibrary hlib
  refine ⟨earlier, later, hsplit, loads, fun target h => ?_, fun hlater category index heir => ?_⟩
  · have hlive := (hpoints target h).live grounded
    exact ⟨hlive, outlasts.live target hlive⟩
  · intro hslot base hbase
    obtain ⟨hid, -⟩ := (hrun requests).2.legible.finds_slot hslot
    -- Without a rebuild since the load the library is still grounded, so its heirs are listed.
    refine (hkept hlater).listed heir.id heir.body.kin (by rw [hid]) (by rw [hid]) ?_ base
      (by rwa [Body.bases_kin])
    rw [LibrarySet.kin?, hid, hslot, Option.map_some]

/-! ## An orphan

The class `C` of a library inherits `A` of the project.  A rebuild makes `A` forget `C`, although
nothing has been edited; and when the document of `A` is dropped, `C` has a parent that is gone. -/

def orphanSources : Sources :=
  { libraries := [("kernel", []), ("lib", [classTree "lib.rk" ["app"] [classAt 1 "C" ["A"] []]])] }

def orphanRequests : List Request :=
  [.insert (classTree "a.rk" [] [classAt 1 "A" [] []]), .changed "a.rk", .rebuild, .load "lib",
    .rebuild]

/-- The requests that drop the document of `A`. -/
def dropRequests : List Request := [.erase "a.rk", .dropped "a.rk", .rebuild]

/-- The types and the bases of `C`, and what there is of `A`: its identity and its heirs. -/
def kinship (session : Session) :
    Option (List Ty × List DeclId) × Option DeclId × Option (List DeclId) :=
  ((session.libraries.slot? (.ofSlot 0) .class 0).map fun entry =>
      (entry.body.types, entry.body.bases),
    (session.libraries.find? ⟨.project, .class, 0, none⟩).map Symbol.id,
    session.libraries.heirs? ⟨.project, .class, 0, none⟩)

set_option maxRecDepth 20000 in
lemma kinship_orphan :
    (Session.start knotManifest orphanSources).toOption.map (fun initial =>
      let session := initial.run orphanRequests
      (session.kinship, (session.run dropRequests).kinship))
      = some ((some ([⟨.project, .handle, 0, 0⟩], [⟨.project, .class, 0, none⟩]),
          some ⟨.project, .class, 0, none⟩, some []),
        (some ([⟨.project, .handle, 0, 0⟩], [⟨.project, .class, 0, none⟩]), none, none)) := by
  cbv

lemma dangles_of_kinship {bases : List DeclId} {heirs : Option (List DeclId)}
    (h : session.kinship = (some ([⟨.project, .handle, 0, 0⟩], bases), none, heirs)) :
    (∃ lib, session.libraries.get? (.ofSlot 0) = some lib) ∧
      session.PointsTo (.ofSlot 0) (.declaration ⟨.project, .class, 0, none⟩) ∧
      ¬ session.libraries.Live (.declaration ⟨.project, .class, 0, none⟩) := by
  obtain ⟨hkin, hrest⟩ := Prod.mk.inj h
  obtain ⟨hgone, -⟩ := Prod.mk.inj hrest
  obtain ⟨entry, hslot, heq⟩ := Option.map_eq_some_iff.1 hkin
  obtain ⟨htypes, -⟩ := Prod.mk.inj heq
  obtain ⟨lib, hlib, -⟩ := Option.bind_eq_some_iff.1 hslot
  have hty : (⟨.project, .handle, 0, 0⟩ : Ty) ∈ entry.body.types := by
    rw [htypes]
    exact List.mem_singleton_self _
  refine ⟨⟨lib, hlib⟩, .type hslot hty rfl, ?_⟩
  rintro ⟨record, hrecord, -⟩
  rw [hrecord] at hgone
  cases hgone

/-- After a rebuild, the parent of `C` is there and has lost its heir; after another one, the parent
is gone, and `C` still names it. -/
theorem library_dangles_orphan :
    ∃ initial, Session.start knotManifest orphanSources = .ok initial ∧
      let session := initial.run orphanRequests
      let dropped := session.run dropRequests
      let parent : DeclId := ⟨.project, .class, 0, none⟩
      (∃ heir, session.libraries.slot? (.ofSlot 0) .class 0 = some heir ∧
        parent ∈ heir.body.bases ∧ session.libraries.Live (.declaration parent) ∧
        ¬ session.libraries.Lists parent heir.id) ∧
      dropped.PointsTo (.ofSlot 0) (.declaration parent) ∧
        ¬ dropped.libraries.Live (.declaration parent) := by
  obtain ⟨initial, hstart, -⟩ := arranged_run knotManifest orphanSources
  have hkinship := kinship_orphan
  rw [hstart] at hkinship
  obtain ⟨hbefore, hafter⟩ := Prod.mk.inj (Option.some.inj hkinship)
  refine ⟨initial, hstart, ?_, (dangles_of_kinship hafter).2⟩
  obtain ⟨hkin, hrest⟩ := Prod.mk.inj hbefore
  obtain ⟨hfound, hheirs⟩ := Prod.mk.inj hrest
  obtain ⟨heir, hslot, heq⟩ := Option.map_eq_some_iff.1 hkin
  obtain ⟨-, hbases⟩ := Prod.mk.inj heq
  refine ⟨heir, hslot, by simp [hbases], Option.map_eq_some_iff.1 hfound, ?_⟩
  rintro ⟨list, hlist, hmem⟩
  obtain rfl : [] = list := Option.some.inj (hheirs.symm.trans hlist)
  cases hmem

/-- The parent of `C` existed when the library was loaded, and its document has been torn down. -/
theorem libraries_outlast_untouched_documents_orphan :
    ∃ initial, Session.start knotManifest orphanSources = .ok initial ∧
      ∃ earlier later, orphanRequests ++ dropRequests = earlier ++ later ∧
        initial.Loads earlier (.ofSlot 0) ∧
        let loaded := initial.run earlier
        let parent : DeclId := ⟨.project, .class, 0, none⟩
        loaded.libraries.Live (.declaration parent) ∧
          loaded.HeldAt (loaded.tornDuring later) (.declaration parent) := by
  obtain ⟨initial, hstart, houtlast⟩ :=
    libraries_outlast_untouched_documents knotManifest orphanSources
  refine ⟨initial, hstart, ?_⟩
  have hkinship := kinship_orphan
  rw [hstart] at hkinship
  obtain ⟨-, hafter⟩ := Prod.mk.inj (Option.some.inj hkinship)
  rw [← run_append] at hafter
  obtain ⟨⟨lib, hlib⟩, hpoints, hdead⟩ := dangles_of_kinship hafter
  obtain ⟨earlier, later, hsplit, loads, htargets, -⟩ :=
    houtlast (orphanRequests ++ dropRequests) (.ofSlot 0) lib (by decide) hlib
  obtain ⟨hlive, hkept | ⟨-, held⟩⟩ := htargets _ hpoints
  · exact absurd hkept hdead
  · exact ⟨earlier, later, hsplit, loads, hlive, held⟩

end Session

end SymbolGraph
