import SymbolGraph.Proofs.Session.DanglingTargets

/-!
# Where declarations are announced

A record keeps the document and the range of the name that declared it, and the document keeps an
occurrence of the name that is marked as a definition.  The two are written at different times: for
a top-level declaration when its document is tidied, for a member when it is linked.  In between,
and ever after, documents are linked and unlinked, other libraries are loaded, and records are
edited by checks.

A document *announces* its members if every member of its records has such an occurrence in it
(`SourceUnit.Announces`).  A document whose members have not been declared does so, since its
records have no members; declaring a member writes both sides; and what else happens to a record
leaves the headers of its members alone.  Hence every live declaration, in every state of every run,
is announced where its record says (`Session.announced_run`).
-/

namespace SymbolGraph

open LibrarySet

/-- Every member of the document's records is the target of a definition in the document, at the
range that the record gives. -/
def SourceUnit.Announces (unit : SourceUnit) (set : LibrarySet) : Prop :=
  ∀ id ∈ unit.declarations, ∀ entry,
    set.slot? id.library id.category id.index = some entry →
    ∀ category list, entry.roll category = some list → ∀ m ∈ list,
      m.document = unit.path ∧ ⟨m.nameRange, .declaration m.id, true, true⟩ ∈ unit.occurrences

/-- A document may gain occurrences, as long as the headers of its members stay. -/
lemma SourceUnit.Announces.congr {set set' : LibrarySet} {unit unit' : SourceUnit}
    (announces : unit.Announces set) (hskeleton : unit'.skeleton = unit.skeleton)
    (hoccurrences : unit.occurrences ⊆ unit'.occurrences)
    (hfront : ∀ id ∈ unit.declarations, set'.front? id.library id.category id.index
      = set.front? id.library id.category id.index) : unit'.Announces set' := by
  intro id hid entry' hslot' category list hlist m hm
  rw [declarations_of_skeleton_eq hskeleton] at hid
  have heq := hfront id hid
  rw [LibrarySet.front?, LibrarySet.front?, hslot', Option.map_some] at heq
  obtain ⟨entry, hslot, hsame⟩ := Option.map_eq_some_iff.1 heq.symm
  have hroll : entry.roll category = some list := by
    rw [(Prod.mk.inj hsame).2, hlist]
  obtain ⟨hdocument, hmem⟩ := announces id hid entry hslot category list hroll m hm
  rw [path, tree_of_skeleton_eq hskeleton]
  exact ⟨hdocument, hoccurrences hmem⟩

/-- A declaration without members has nothing to announce. -/
lemma Entry.roll_of_bare {entry : Entry} (bare : entry.tags.Bare) {category : Category}
    {list : List Member} (h : entry.roll category = some list) : list = [] := by
  obtain ⟨members, hmembers, rfl⟩ := Option.map_eq_some_iff.1 h
  have htags : entry.tags.members category = some (members.map fun m => (m.id, m.references)) := by
    simp [Entry.tags, Body.tags, hmembers]
  rw [List.map_eq_nil_iff.1 (bare htags), List.map_nil]

/-- A document whose members have not been declared has none. -/
lemma LibrarySet.Arranged.announces {set : LibrarySet} {units : List SourceUnit}
    (arranged : set.Arranged units) {unit : SourceUnit} (hunit : unit ∈ units)
    (undeclared : unit.Undeclared) : unit.Announces set := by
  intro id hid entry hslot category list hlist m hm
  have bare : entry.tags.Bare := arranged.bare hunit undeclared hid _ (tags?_of_slot? hslot)
  rw [Entry.roll_of_bare bare hlist] at hm
  cases hm

namespace Linkage

variable {state : Linkage} {others : List SourceUnit}

/-- Declaring the members of a declaration that has none announces them. -/
lemma announces_declareFor (arranged : state.libraries.Arranged (state.unit :: others))
    {id : DeclId} {node : DeclNode} (hid : id ∈ state.unit.declarations)
    (bare : state.libraries.BareAt id) (announces : state.unit.Announces state.libraries) :
    (LinkMembers.declareFor state (id, node)).unit.Announces
      (LinkMembers.declareFor state (id, node)).libraries := by
  obtain ⟨heq, htop, -⟩ := arranged.settled.declared List.mem_cons_self hid
  simp only [LinkMembers.declareFor]
  split
  · exact announces
  · next owner howner =>
    intro other hother entry hslot category list hlist m hm
    rw [slot?_edit arranged.orderly.identified, DeclId.seat_of_top htop] at hslot
    split at hslot
    · next hseat =>
      obtain ⟨old, hold, rfl⟩ := Option.map_eq_some_iff.1 hslot
      have hbare : old.tags.Bare := by
        refine bare _ (tags?_of_slot? ?_)
        rw [hseat.1, (Prod.mk.inj hseat.2).1, (Prod.mk.inj hseat.2).2]
        exact hold
      rw [Edit.atSeat, DeclId.owner?_of_top htop] at hlist
      obtain ⟨members, hmembers, rfl⟩ := Option.map_eq_some_iff.1 hlist
      obtain ⟨m, hmem, rfl⟩ := List.mem_map.1 hm
      have hnew : m ∈ node.memberNodes.map (LinkMembers.member state.unit.path id owner) := by
        simp only [Edit.body, Symbol.map, LinkMembers.members?_addMembers,
          Option.map_eq_some_iff] at hmembers
        obtain ⟨before, hbefore, rfl⟩ := hmembers
        have hnil : before.map Member.header = [] :=
          Entry.roll_of_bare hbare (Option.map_eq_some_iff.2 ⟨before, hbefore, rfl⟩)
        rw [List.map_eq_nil_iff.1 hnil, List.nil_append] at hmem
        exact List.mem_of_mem_filter hmem
      obtain ⟨written, -, hwritten⟩ := List.mem_map.1 hnew
      refine ⟨?_, List.mem_append_right _ (List.mem_map.2 ⟨m, hnew, rfl⟩)⟩
      rw [← hwritten]
      rfl
    · obtain ⟨hdocument, hmem⟩ := announces other hother entry hslot category list hlist m hm
      exact ⟨hdocument, List.mem_append_left _ hmem⟩

lemma announces_declareMembers (arranged : state.libraries.Arranged (state.unit :: others))
    (undeclared : state.unit.Undeclared) :
    state.declareMembers.unit.Announces state.declareMembers.libraries :=
  (declareMembers_induction
    (P := fun mid : Linkage => mid.libraries.Arranged (mid.unit :: others) ∧
      mid.unit.Announces mid.libraries) (fun h => h.1)
    (fun {_ _ node} h hid bare => ⟨arranged_declareFor h.1 node hid bare,
      announces_declareFor h.1 hid bare h.2⟩)
    ⟨arranged, arranged.announces List.mem_cons_self undeclared⟩ undeclared).2

/-- Declaring the members of a document leaves those of the others alone. -/
lemma announces_declareMembers_other
    (arranged : state.libraries.Arranged (state.unit :: others)) {other : SourceUnit}
    (hother : other ∈ others) (announces : other.Announces state.libraries) :
    other.Announces state.declareMembers.libraries :=
  announces.congr rfl (fun _ h => h) fun _ hid => front?_declareMembers_other arranged hother hid

/-- Writing findings down adds occurrences, and changes no header. -/
lemma announces_apply (arranged : state.libraries.Arranged (state.unit :: others))
    {near : LibraryId → Prop} {found : Findings} {own : List DeclId}
    (among : found.Among state.libraries near state.unit.path own)
    (announces : ∀ unit ∈ state.unit :: others, unit.Announces state.libraries) :
    ∀ unit ∈ (state.apply found).unit :: others,
      unit.Announces (state.apply found).libraries := by
  have hfront := front?_apply arranged among
  obtain ⟨after, hafter, hsub⟩ := state.apply_unit found
    (P := fun unit => state.unit.occurrences ⊆ unit.occurrences) (fun _ h => h)
    (fun _ h _ hmem => List.mem_append_left _ (h hmem)) (fun h => h)
  intro unit hunit
  rcases List.mem_cons.1 hunit with rfl | hunit
  · refine (announces _ List.mem_cons_self).congr (sameSkeleton_apply state found).2 ?_
      fun id _ => hfront _ _ _
    rw [hafter]
    exact hsub
  · exact (announces unit (List.mem_cons_of_mem _ hunit)).congr rfl (fun _ h => h)
      fun id _ => hfront _ _ _

lemma announces_linkImports (arranged : state.libraries.Arranged (state.unit :: others))
    (announces : ∀ unit ∈ state.unit :: others, unit.Announces state.libraries) :
    ∀ unit ∈ state.linkImports.unit :: others, unit.Announces state.linkImports.libraries := by
  obtain ⟨hamong, -⟩ := state.among_everywhere.imported arranged.legible
  have hscopes : state.libraries.Arranged
      ({ state.unit with scopes := state.imported.1 } :: others) :=
    arranged.step rfl rfl (fun h => h) (.refl arranged.orderly)
  rw [linkImports_eq arranged.settled]
  refine @announces_apply ⟨state.libraries, { state.unit with scopes := state.imported.1 }⟩ _
    hscopes _ _ _ hamong fun unit hunit => ?_
  rcases List.mem_cons.1 hunit with rfl | hunit
  · exact announces state.unit List.mem_cons_self
  · exact announces unit (List.mem_cons_of_mem _ hunit)

end Linkage

/-- Documents that are linked announce their members. -/
lemma Linkages.announces_link {set : LibrarySet} {batch others : List SourceUnit}
    (arranged : set.Arranged (batch ++ others)) (hbatch : ∀ unit ∈ batch, unit.Undeclared)
    (announces : ∀ unit ∈ batch ++ others, unit.Announces set) (options : LinkOptions) :
    ∀ unit ∈ (Linkages.link ⟨set, batch⟩ options).units ++ others,
      unit.Announces (Linkages.link ⟨set, batch⟩ options).libraries := by
  refine (Linkages.link_each options (fun current units => current.Arranged units ∧
      ∀ unit ∈ units, unit.Announces current) SourceUnit.Undeclared (fun _ => True)
      ?_ ?_ ?_ ?_ ?_ ⟨arranged, announces⟩ hbatch).2
  · exact fun h hperm => ⟨h.1.perm hperm, fun unit hunit => h.2 unit (hperm.mem_iff.2 hunit)⟩
  · rintro state others ⟨arranged, announces⟩ undeclared
    exact ⟨⟨Linkage.arranged_linkImports arranged,
      Linkage.announces_linkImports arranged announces⟩, Linkage.undeclared_linkImports undeclared⟩
  · rintro state others ⟨arranged, announces⟩ undeclared
    refine ⟨⟨Linkage.arranged_declareMembers arranged undeclared, fun unit hunit => ?_⟩, trivial⟩
    rcases List.mem_cons.1 hunit with rfl | hunit
    · exact Linkage.announces_declareMembers arranged undeclared
    · exact Linkage.announces_declareMembers_other arranged hunit
        (announces unit (List.mem_cons_of_mem _ hunit))
  · rintro state others ⟨arranged, announces⟩ -
    have among := state.among_everywhere.foundBases arranged options
    exact ⟨⟨Linkage.arranged_apply arranged among,
      Linkage.announces_apply arranged among announces⟩, trivial⟩
  · rintro state others ⟨arranged, announces⟩ -
    have among := state.among_everywhere.foundSignatures arranged options
    exact ⟨⟨Linkage.arranged_apply arranged among,
      Linkage.announces_apply arranged among announces⟩, trivial⟩

/-- Checking changes no header, and reports add no occurrence. -/
lemma LibrarySet.announces_check {set : LibrarySet} {units units' : List SourceUnit}
    (hid : set.Identified) (library : LibraryId)
    (announces : ∀ unit ∈ units, unit.Announces set)
    (h : units'.map (fun unit => (unit.skeleton, unit.occurrences))
      = units.map fun unit => (unit.skeleton, unit.occurrences)) :
    ∀ unit ∈ units', unit.Announces (set.check library).1 := by
  have hcores := @sameCores_check set (fun _ => False) hid library
  intro unit hunit
  have hmem : (unit.skeleton, unit.occurrences)
      ∈ units.map fun unit => (unit.skeleton, unit.occurrences) := h ▸ List.mem_map_of_mem hunit
  obtain ⟨old, hold, heq⟩ := List.mem_map.1 hmem
  obtain ⟨hskeleton, hoccurrences⟩ := Prod.mk.inj heq
  exact (announces old hold).congr hskeleton.symm (hoccurrences ▸ fun _ h => h)
    fun id _ => hcores.front? fun h => h

/-- Loading keeps all documents announcing their members. -/
theorem loadInvariant_announces : LoadInvariant fun set pool units =>
    (set.Arranged units ∧ pool.Matches set.project []) ∧ ∀ unit ∈ units, unit.Announces set where
  settled h := loadInvariant_arranged.settled h.1
  pool h := loadInvariant_arranged.pool h.1
  perm h hperm := ⟨loadInvariant_arranged.perm h.1 hperm,
    fun unit hunit => h.2 unit (hperm.mem_iff.2 hunit)⟩
  addImport := by
    intro set pool units name h
    refine ⟨loadInvariant_arranged.addImport name h.1, fun unit hunit =>
      (h.2 unit hunit).congr rfl (fun _ h => h) fun id _ => ?_⟩
    rw [front?, slot?_addImport, ← front?]
  tidy := by
    intro set pool units library lib tree bench h hproject hloaded htidy
    have hnext := loadInvariant_arranged.tidy h.1 hproject hloaded htidy
    obtain ⟨bench', htidy', -, -, hgrows, -, -, hfresh⟩ := h.1.1.settled.tidy hloaded h.1.2 tree
    obtain rfl : bench = bench' := by simpa [htidy] using htidy'
    refine ⟨hnext, fun unit hunit => ?_⟩
    -- The unit just tidied is arranged and has no members yet; the others keep their slots, since
    -- tidying only fills holes.
    rcases List.mem_cons.1 hunit with rfl | hunit
    · exact hnext.1.announces List.mem_cons_self (undeclared_of_skeleton_eq hfresh)
    · refine (h.2 unit hunit).congr rfl (fun _ h => h) fun id hid => ?_
      obtain ⟨heq, -, entry, hslot, -⟩ := h.1.1.settled.declared hunit hid
      rw [front?, front?, congrArg DeclId.library heq, hslot, hgrows.slot_keep hloaded hslot]
  finish := by
    intro set pool units batch library options h hproject hbatch
    have hundeclared : ∀ unit ∈ batch, unit.Undeclared :=
      fun unit hunit => undeclared_of_skeleton_eq (hbatch unit hunit).2
    have hlinked := Linkages.arranged_link h.1.1 hundeclared options
    refine ⟨loadInvariant_arranged.finish options h.1 hproject hbatch,
      announces_check hlinked.orderly.identified library
        (Linkages.announces_link h.1.1 hundeclared h.2 options) ?_⟩
    rw [List.map_append, List.map_append]
    exact congrArg (· ++ _) (occurrences_handOut _ _)

/-! ## Declarations and their announcements -/

/-- The document has a definition of the declaration where its record says. -/
def SourceUnit.Declares (unit : SourceUnit) (entry : Entry) : Prop :=
  unit.path = entry.document ∧ ∃ occurrence ∈ unit.occurrences,
    occurrence.range = entry.nameRange ∧ occurrence.target = .declaration entry.id ∧
      occurrence.definition = true

namespace LibrarySet

variable {set : LibrarySet} {units : List SourceUnit}

/-- A top-level declaration is defined in the document that lists it. -/
lemma Settled.declares (settled : set.Settled units) {unit : SourceUnit} (hunit : unit ∈ units)
    {id : DeclId} (hid : id ∈ unit.declarations) {entry : Entry}
    (hslot : set.slot? id.library id.category id.index = some entry) : unit.Declares entry := by
  obtain ⟨lib, hlib⟩ := settled.loaded hunit
  have aligned := settled.aligned hunit hlib
  rw [aligned.declarations_eq] at hid
  obtain ⟨occurrence, hoccurrence, htarget⟩ := List.mem_filterMap.1 hid
  obtain ⟨mark, hmark⟩ := forall_mem_of_forall₂ aligned.traced.flip
    (Q := fun occurrence => ∃ mark : Mark, mark.Traced unit.path lib occurrence)
    (fun mark _ h => ⟨mark, h⟩) occurrence hoccurrence
  -- The occurrence of a declaration mark is the one that declares the entry.
  cases mark with
  | space range path =>
    obtain ⟨space, rfl, -⟩ := hmark
    cases htarget
  | declaration path node =>
    obtain ⟨own, space, entry', rfl, -, -, hslot', hskeleton⟩ := hmark
    obtain rfl : own = id := Option.some.inj htarget
    have hlibrary : own.library = unit.library := by
      have hmem : own ∈ unit.declarations := by
        rw [aligned.declarations_eq]
        exact hid
      exact congrArg DeclId.library (settled.declared hunit hmem).1
    rw [hlibrary, slot?_of_get? hlib, hslot'] at hslot
    obtain rfl := Option.some.inj hslot
    have hdocument : entry'.document = unit.path := congrArg Symbol.document hskeleton
    have hrange : entry'.nameRange = node.name.range := congrArg Symbol.nameRange hskeleton
    have hentry : entry'.id = own := congrArg Symbol.id hskeleton
    exact ⟨hdocument.symm, _, List.mem_of_mem_filter hoccurrence, hrange.symm, by rw [hentry], rfl⟩

/-- Every declaration that exists is defined where its record says, if the documents announce their
members. -/
lemma Arranged.exists_declares (arranged : set.Arranged units)
    (announces : ∀ unit ∈ units, unit.Announces set) {id : DeclId} {entry : Entry}
    (hfind : set.find? id = some entry) (hid : entry.id = id) :
      ∃ unit ∈ units, unit.Declares entry := by
  have legible := arranged.legible
  rw [find?_eq legible.orderly.identified] at hfind
  obtain ⟨top, htop, hpart⟩ := Option.bind_eq_some_iff.1 hfind
  obtain ⟨unit, hunit, hmine⟩ :=
    @Settled.exists_unit _ _ arranged.settled ⟨id.library, id.seat.1, id.seat.2, none⟩ top htop rfl
  refine ⟨unit, hunit, ?_⟩
  unfold DeclId.part? at hpart
  split at hpart
  · rw [← Option.some.inj hpart]
    exact arranged.settled.declares hunit hmine htop
  · obtain ⟨list, hlist, hget⟩ := Option.bind_eq_some_iff.1 hpart
    obtain ⟨m, hm, rfl⟩ := Option.map_eq_some_iff.1 hget
    obtain ⟨hdocument, hmem⟩ := announces unit hunit _ hmine top htop id.category
      (list.map Member.header) (by rw [Entry.roll, hlist, Option.map_some]) m.header
      (List.mem_map_of_mem (List.mem_of_getElem? hm))
    exact ⟨hdocument.symm, _, hmem, rfl, rfl, rfl⟩

end LibrarySet

/-! ## Runs -/

namespace Session

variable {session : Session}

/-- Clearing the project leaves the headers of other libraries alone. -/
lemma Sound.front?_cleared (sound : session.Sound)
    (arranged : session.libraries.Arranged session.units) {torn : List SourceUnit}
    (hperm : (torn ++ session.untouched).Perm session.files) (pool : IndexPool)
    {library : LibraryId} (hlibrary : library ≠ .project) (category : Category) (index : Nat) :
    (session.cleared torn pool).libraries.front? library category index
      = session.libraries.front? library category index := by
  have hcontents := sound.contents_cleared arranged hperm pool hlibrary
  have hfront (set : LibrarySet) : set.front? library category index
      = ((set.contents? library).bind fun lib => lib.cores.slot? category index).map
        Entry.front := by
    rw [front?, slot?, contents?, Option.bind_map, Option.map_bind, Option.map_bind]
    refine congrArg _ (funext fun lib => ?_)
    simp only [Function.comp_def, Library.cores_contents]
    rw [Library.cores, Library.slot?_view, Option.map_map]
    exact congrArg (Option.map · _) (funext fun entry => entry.front_core.symm)
  rw [hfront, hfront, hcontents, Option.bind_map]
  simp only [Function.comp_def, Library.cores_dropRelations]

/-- The documents of a session announce their members. -/
def Announced (session : Session) : Prop :=
  ∀ unit ∈ session.units, unit.Announces session.libraries

lemma Sound.announced_relink (sound : session.Sound)
    (arranged : session.libraries.Arranged session.units)
    (hundeclared : ∀ unit ∈ session.files, unit.Undeclared) (announced : session.Announced) :
    session.relink.Announced := by
  obtain ⟨keeps, loaded⟩ := (sound.keeps ⟨⟨arranged, sound.pool⟩, announced⟩).loadImports
    loadInvariant_announces (importNames session.files)
  unfold Session.relink
  generalize session.loadImports (importNames session.files) = mid at keeps loaded ⊢
  have hmid : mid.libraries.Arranged mid.units := keeps.holds.1.1
  have hundeclared' : ∀ unit ∈ mid.files, unit.Undeclared := loaded.files_eq ▸ hundeclared
  have hlinked := Linkages.arranged_link hmid hundeclared' mid.options
  have hrecord := congrArg (List.map fun record => (record.1, record.2.1))
    (mid.overFiles (·.link mid.options)).record_checkProject
  rw [List.map_map, List.map_map] at hrecord
  rw [Announced, libraries_checkProject]
  exact announces_check hlinked.orderly.identified .project
    (Linkages.announces_link hmid hundeclared' keeps.holds.2 mid.options) hrecord

theorem Sound.announced_rebuild (sound : session.Sound)
    (arranged : session.libraries.Arranged session.units) (announced : session.Announced) :
    session.rebuild.1.Announced := by
  obtain ⟨torn, pool, tidied, report, hperm, -, hsound, htidied, hrebuild⟩ := sound.rebuild_eq
  obtain ⟨harranged, hundeclared⟩ := sound.arranged_tidied arranged hperm hsound htidied
  rw [hrebuild]
  refine hsound.announced_relink harranged hundeclared fun unit hunit => ?_
  rcases List.mem_append.1 hunit with hfile | hforeign
  · exact harranged.announces hunit (hundeclared unit hfile)
  · rw [htidied.foreign_eq] at hforeign
    have hmem : unit ∈ session.units := List.mem_append_right _ hforeign
    have habroad := sound.foreign_library unit hforeign
    refine (announced unit hmem).congr rfl (fun _ h => h) fun id hid => ?_
    rw [congrArg DeclId.library (sound.settled.declared hmem hid).1,
      ← sound.front?_cleared arranged hperm pool habroad, front?, front?, slot?, slot?,
      htidied.grows.other habroad]

lemma Sound.announced_perform (sound : session.Sound)
    (arranged : session.libraries.Arranged session.units) (announced : session.Announced)
    (request : Request) : (session.perform request).Announced := by
  rcases session.perform_cases request with rfl | ⟨name, rfl⟩ | ⟨hset, hfiles, hforeign, -⟩
  · exact sound.announced_rebuild arranged announced
  · rcases session.loadLibrary_fst name with h | h
    · rwa [Session.perform, h]
    · obtain ⟨after, hload, keeps, -⟩ := (sound.keeps ⟨⟨arranged, sound.pool⟩, announced⟩).load
        loadInvariant_announces session.manifest.libraries.length name
      rw [Session.perform, h, hload]
      exact keeps.holds.2
  · rwa [Announced, hset, Session.units, hfiles, hforeign]

/-- In every state of every run, every declaration that exists is defined where its record says. -/
theorem announced_run (manifest : Manifest) (sources : Sources) :
    ∃ initial, Session.start manifest sources = .ok initial ∧ ∀ requests : List Request,
      let session := initial.run requests
      session.libraries.Arranged session.units ∧ ∀ id entry,
        session.libraries.find? id = some entry → entry.id = id →
          ∃ unit ∈ session.units, unit.Declares entry := by
  obtain ⟨initial, hstart, hrun⟩ := arranged_run manifest sources
  obtain ⟨initial', hstart', keeps, -⟩ := Keeps.start loadInvariant_announces manifest sources
    ⟨⟨arranged_new .., IndexPool.matches_new manifest.name⟩, by simp⟩
  obtain rfl : initial = initial' := by simpa [hstart] using hstart'
  have hall := run_induction (P := fun session => session.Sound ∧
      session.libraries.Arranged session.units ∧ session.Announced)
    ⟨(hrun []).1, (hrun []).2, keeps.holds.2⟩ fun session request h =>
      ⟨h.1.perform request, h.1.arranged_perform h.2.1 request,
        h.1.announced_perform h.2.1 h.2.2 request⟩
  refine ⟨initial, hstart, fun requests => ?_⟩
  obtain ⟨-, arranged, announced⟩ := hall requests
  exact ⟨arranged, fun id entry hfind hid => arranged.exists_declares announced hfind hid⟩

end Session

end SymbolGraph
