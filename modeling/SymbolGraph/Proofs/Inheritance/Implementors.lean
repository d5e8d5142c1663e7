import SymbolGraph.Proofs.Inheritance.Bases

/-!
# Heirs on record

An heir is written down twice, in the record of the base and as a back-link in the document of the
heir.  `set.Noted units` says that every heir in a list is on record in its own document, and it
holds in every state of every run: heirs come with their back-links, and everything else makes the
lists shorter at most (`LibrarySet.Thins`).

So the project is out of all lists once its documents are unlinked.
-/

namespace SymbolGraph

namespace LibrarySet

variable {set set' set'' : LibrarySet} {unit : SourceUnit} {units units' others : List SourceUnit}

/-- The heirs in the record of a base, if it keeps such a list. -/
def heirs? (set : LibrarySet) (base : DeclId) : Option (List DeclId) :=
  (set.kin? base).bind Body.implementors?

/-- The heir is in the list of the base. -/
def Lists (set : LibrarySet) (base heir : DeclId) : Prop :=
  ∃ list, set.heirs? base = some list ∧ heir ∈ list

/-- Every heir in a list is on record in the document that declares it. -/
def Noted (set : LibrarySet) (units : List SourceUnit) : Prop :=
  ∀ base heir : DeclId, base.define = none → set.Lists base heir →
    ∃ unit ∈ units, heir ∈ unit.declarations ∧ (base, heir) ∈ unit.heirs

lemma Noted.perm (noted : set.Noted units) (h : units.Perm units') : set.Noted units' := by
  intro base heir hdefine hlists
  obtain ⟨unit, hunit, hrest⟩ := noted base heir hdefine hlists
  exact ⟨unit, h.mem_iff.1 hunit, hrest⟩

/-- No list has got a new heir. -/
def Thins (set set' : LibrarySet) : Prop :=
  ∀ base heir : DeclId, base.define = none → set'.Lists base heir → set.Lists base heir

lemma Thins.refl (set : LibrarySet) : set.Thins set := fun _ _ _ h => h

lemma Thins.trans (h : set.Thins set') (k : set'.Thins set'') : set.Thins set'' :=
  fun base heir hdefine hlists => h base heir hdefine (k base heir hdefine hlists)

lemma SameKin.heirs?_eq (same : SameKin set set') (base : DeclId) :
    set'.heirs? base = set.heirs? base := by
  rw [heirs?, same.kin, heirs?]

lemma SameKin.thins (same : SameKin set set') : set.Thins set' := by
  intro base heir _ h
  rwa [Lists, same.heirs?_eq] at h

/-- Where lists get shorter and documents keep their records, all stays noted. -/
lemma Noted.thin (noted : set.Noted units) (thins : set.Thins set')
    (hunits : ∀ unit ∈ units, ∃ unit' ∈ units', unit'.declarations = unit.declarations ∧
      unit'.heirs = unit.heirs) : set'.Noted units' := by
  intro base heir hdefine hlists
  obtain ⟨unit, hunit, hdecl, hpair⟩ := noted base heir hdefine (thins base heir hdefine hlists)
  obtain ⟨unit', hunit', hdecls, hheirs⟩ := hunits unit hunit
  exact ⟨unit', hunit', hdecls ▸ hdecl, hheirs ▸ hpair⟩

/-- Of the documents, the declarations and the back-links matter. -/
lemma Noted.congr (noted : set.Noted units)
    (h : units'.map (fun unit => (unit.declarations, unit.links))
      = units.map fun unit => (unit.declarations, unit.links)) : set.Noted units' := by
  refine noted.thin (.refl set) fun unit hunit => ?_
  have hmem := List.mem_map_of_mem (f := fun unit : SourceUnit =>
    (unit.declarations, unit.links)) hunit
  rw [← h] at hmem
  obtain ⟨unit', hunit', heq⟩ := List.mem_map.1 hmem
  obtain ⟨hdecls, hlinks⟩ := Prod.mk.inj heq
  exact ⟨unit', hunit', hdecls, congrArg (List.filterMap BackLink.heir?) hlinks⟩

end LibrarySet

/-! ## Linking -/

lemma Update.implementors?_onKin (id : DeclId) (updates : List Update) (kin : Body) :
    (updates.foldl (Update.onKin id) kin).implementors? = kin.implementors? := by
  induction updates generalizing kin with
  | nil => rfl
  | cons update rest ih =>
    rw [List.foldl_cons, ih]
    cases update with
    | inheritance target parent inherits =>
      simp only [onKin]
      split
      · exact Body.implementors?_setBases parent inherits kin
      · rfl
    | _ => rfl

namespace Linkage

variable {state : Linkage} {others : List SourceUnit} {near : LibraryId → Prop}

/-- The declarations of a document are on the top level. -/
lemma define_declarations (settled : state.libraries.Settled (state.unit :: others)) :
    ∀ id ∈ state.unit.declarations, id.define = none := fun _ hid =>
  congrArg DeclId.define (settled.declared (List.mem_cons_self ..) hid).1

/-- Writing findings down adds the heirs that were found to the lists. -/
lemma heirs?_apply (arranged : state.libraries.Arranged (state.unit :: others)) {found : Findings}
    (among : found.Among state.libraries near state.unit.path state.unit.declarations)
    {base : DeclId} (hdefine : base.define = none) :
    (state.apply found).libraries.heirs? base
      = (state.libraries.heirs? base).map (addAllNew · (found.heirsOf base)) := by
  obtain ⟨hkin, -, -⟩ := kin?_apply arranged.orderly among (define_declarations arranged.settled)
  rw [LibrarySet.heirs?, LibrarySet.heirs?, hkin base hdefine]
  cases state.libraries.kin? base with
  | none => rfl
  | some kin =>
    simp [Body.implementors?_overImplementors, Update.implementors?_onKin]

/-- Heirs come with their back-links. -/
lemma noted_apply (arranged : state.libraries.Arranged (state.unit :: others)) {found : Findings}
    (among : found.Among state.libraries near state.unit.path state.unit.declarations)
    (noted : state.libraries.Noted (state.unit :: others)) :
    (state.apply found).libraries.Noted ((state.apply found).unit :: others) := by
  obtain ⟨-, hkeep, hnew⟩ := kin?_apply arranged.orderly among
    (define_declarations arranged.settled)
  have hskeleton := (sameSkeleton_apply state found).2
  have hdecls : (state.apply found).unit.skeleton.declarations
      = state.unit.skeleton.declarations := by rw [hskeleton]
  intro base heir hdefine hlists
  obtain ⟨list, hlist, hheir⟩ := hlists
  have hbefore := hlist
  rw [heirs?_apply arranged among hdefine] at hbefore
  obtain ⟨old, hold, rfl⟩ := Option.map_eq_some_iff.1 hbefore
  rcases (mem_addAllNew _ _ _).1 hheir with h | h
  · obtain ⟨unit, hunit, hdecl, hpair⟩ := noted base heir hdefine ⟨old, hold, h⟩
    rcases List.mem_cons.1 hunit with rfl | hunit
    · exact ⟨_, List.mem_cons_self .., hdecls.symm ▸ hdecl, hkeep _ hpair⟩
    · exact ⟨unit, List.mem_cons_of_mem _ hunit, hdecl, hpair⟩
  · obtain ⟨pair, hpair, rfl⟩ := List.mem_map.1 h
    obtain ⟨hmem, hbase⟩ := List.mem_filter.1 hpair
    obtain rfl : pair.1 = base := by simpa using hbase
    obtain ⟨kin, hkin, hkept⟩ := Option.bind_eq_some_iff.1 hlist
    exact ⟨_, List.mem_cons_self .., hdecls.symm ▸ (among.heirs hmem).2,
      hnew pair hmem kin _ hdefine hkin hkept⟩

lemma noted_linkImports (arranged : state.libraries.Arranged (state.unit :: others))
    (noted : state.libraries.Noted (state.unit :: others)) :
    state.linkImports.libraries.Noted (state.linkImports.unit :: others) := by
  obtain ⟨hamong, -⟩ := state.among_everywhere.imported arranged.legible
  rw [linkImports_eq arranged.settled]
  have hscopes : state.libraries.Arranged
      ({ state.unit with scopes := state.imported.1 } :: others) :=
    arranged.step rfl rfl (fun h => h) (.refl arranged.orderly)
  exact @noted_apply ⟨state.libraries, _⟩ _ _ hscopes _ hamong (noted.congr rfl)

lemma noted_declareMembers (arranged : state.libraries.Arranged (state.unit :: others))
    (noted : state.libraries.Noted (state.unit :: others)) :
    state.declareMembers.libraries.Noted (state.declareMembers.unit :: others) := by
  have hsame := sameKin_declareMembers arranged.orderly.identified
  have hskeleton := (sameSkeleton_declareMembers state).2
  have hdecls : state.declareMembers.unit.skeleton.declarations
      = state.unit.skeleton.declarations := by rw [hskeleton]
  refine LibrarySet.Noted.congr (noted.thin hsame.thins fun unit hunit =>
    ⟨unit, hunit, rfl, rfl⟩) ?_
  rw [List.map_cons, List.map_cons, (linked_declareMembers state).2]
  exact congrArg (fun decls => (decls, _) :: _) hdecls

end Linkage

/-- Linking documents that have not been linked keeps all heirs on record. -/
lemma Linkages.noted_link {set : LibrarySet} {batch others : List SourceUnit}
    (arranged : set.Arranged (batch ++ others)) (noted : set.Noted (batch ++ others))
    (hbatch : ∀ unit ∈ batch, unit.Undeclared) (options : LinkOptions) :
    (Linkages.link ⟨set, batch⟩ options).libraries.Noted
      ((Linkages.link ⟨set, batch⟩ options).units ++ others) := by
  refine (link_each options (fun set units => set.Arranged units ∧ set.Noted units)
    SourceUnit.Undeclared (fun _ => True) (fun h hperm => ⟨h.1.perm hperm, h.2.perm hperm⟩)
    ?_ ?_ ?_ ?_ ⟨arranged, noted⟩ hbatch).2
  · exact fun h undeclared =>
      ⟨⟨Linkage.arranged_linkImports h.1, Linkage.noted_linkImports h.1 h.2⟩,
        Linkage.undeclared_linkImports undeclared⟩
  · exact fun h undeclared => ⟨⟨Linkage.arranged_declareMembers h.1 undeclared,
      Linkage.noted_declareMembers h.1 h.2⟩, trivial⟩
  · intro state others h _
    have hamong := state.among_everywhere.foundBases h.1 options
    exact ⟨⟨Linkage.arranged_apply h.1 hamong, Linkage.noted_apply h.1 hamong h.2⟩, trivial⟩
  · intro state others h _
    have hamong := state.among_everywhere.foundSignatures h.1 options
    exact ⟨⟨Linkage.arranged_apply h.1 hamong, Linkage.noted_apply h.1 hamong h.2⟩, trivial⟩

/-! ## Growth and checks -/

namespace LibrarySet

variable {set set' : LibrarySet} {unit : SourceUnit} {units fresh others : List SourceUnit}

/-- What is new in a library has no heirs. -/
lemma Grows.thins {library : LibraryId} {lib : Library} (grows : set.Grows library set')
    (hloaded : set.get? library = some lib) : set.Thins set' := by
  intro base heir _ hlists
  obtain ⟨list, hlist, hheir⟩ := hlists
  obtain ⟨kin, hkin, himplementors⟩ := Option.bind_eq_some_iff.1 hlist
  obtain ⟨entry, hslot, rfl⟩ := Option.map_eq_some_iff.1 hkin
  rcases grows.slot_only hloaded hslot with hkept | ⟨-, hnew⟩
  · refine ⟨list, ?_, hheir⟩
    rw [heirs?, kin?, hkept]
    exact himplementors
  · rw [Body.implementors?_kin, ← hnew] at himplementors
    rw [Body.implementors?_fresh himplementors] at hheir
    cases hheir

lemma thins_addImport (set : LibrarySet) (name : String) : set.Thins (set.addImport name).2 := by
  intro base heir _ hlists
  obtain ⟨list, hlist, hheir⟩ := hlists
  refine ⟨list, ?_, hheir⟩
  rwa [heirs?, kin?, slot?_addImport] at hlist

/-- Tidying new documents. -/
lemma Noted.tidy (noted : set.Noted units) {library : LibraryId} {lib : Library}
    (hloaded : set.get? library = some lib) (grows : set.Grows library set') :
    set'.Noted (fresh ++ units) :=
  noted.thin (grows.thins hloaded) fun unit hunit =>
    ⟨unit, List.mem_append_right _ hunit, rfl, rfl⟩

lemma Noted.check (noted : set.Noted units) (hid : set.Identified) (library : LibraryId) :
    (set.check library).1.Noted units :=
  noted.thin (sameKin_check hid library).thins fun unit hunit => ⟨unit, hunit, rfl, rfl⟩

end LibrarySet

lemma links_handOut (report : Report) (units : List SourceUnit) :
    (handOut report units).map (fun unit => (unit.declarations, unit.links))
      = units.map fun unit => (unit.declarations, unit.links) := by
  induction units generalizing report with
  | nil => rfl
  | cons unit rest ih =>
    rw [handOut, List.map_cons, List.map_cons, ih]
    rfl

/-- Loading keeps all heirs on record. -/
theorem loadInvariant_noted : LoadInvariant fun set pool units =>
    (set.Arranged units ∧ pool.Matches set.project []) ∧ set.Noted units where
  settled h := loadInvariant_arranged.settled h.1
  pool h := loadInvariant_arranged.pool h.1
  perm h hperm := ⟨loadInvariant_arranged.perm h.1 hperm, h.2.perm hperm⟩
  addImport name h := ⟨loadInvariant_arranged.addImport name h.1,
    h.2.thin (LibrarySet.thins_addImport _ name) fun unit hunit => ⟨unit, hunit, rfl, rfl⟩⟩
  tidy := by
    intro set pool units library lib tree bench h hlibrary hloaded htidy
    refine ⟨loadInvariant_arranged.tidy h.1 hlibrary hloaded htidy, ?_⟩
    obtain ⟨bench', htidy', -, -, hgrows, -⟩ := h.1.1.settled.tidy hloaded h.1.2 tree
    rw [htidy] at htidy'
    obtain rfl : bench = bench' := by simpa using htidy'
    exact @LibrarySet.Noted.tidy set _ units [bench.unit] h.2 library lib hloaded hgrows
  finish := by
    intro set pool units batch library options h hlibrary hbatch
    refine ⟨loadInvariant_arranged.finish options h.1 hlibrary hbatch, ?_⟩
    have hundeclared := fun unit hunit => undeclared_of_skeleton_eq (hbatch unit hunit).2
    have harranged := Linkages.arranged_link h.1.1 hundeclared options
    have hlinked := Linkages.noted_link h.1.1 h.2 hundeclared options
    refine (hlinked.check harranged.orderly.identified library).congr ?_
    rw [List.map_append, List.map_append]
    exact congrArg (· ++ _) (links_handOut _ _)

/-! ## Teardown -/

namespace LibrarySet

variable {set set' : LibrarySet} {unit : SourceUnit} {others : List SourceUnit}

/-- An edit that adds no heir to the list of the declaration it is made on. -/
lemma thins_edit (hid : set.Identified) (target : DeclId) {edit : Edit}
    (h : ∀ entry list, (edit.onEntry entry).body.implementors? = some list → ∀ heir ∈ list,
      ∃ old, entry.body.implementors? = some old ∧ heir ∈ old) :
        set.Thins (set.edit target edit) := by
  intro base heir _ hlists
  obtain ⟨list, hlist, hheir⟩ := hlists
  obtain ⟨kin, hkin, himplementors⟩ := Option.bind_eq_some_iff.1 hlist
  rw [kin?, slot?_edit hid] at hkin
  obtain ⟨entry', hentry', rfl⟩ := Option.map_eq_some_iff.1 hkin
  rw [Body.implementors?_kin] at himplementors
  rw [Lists, heirs?, kin?]
  split at hentry'
  · obtain ⟨entry, hentry, rfl⟩ := Option.map_eq_some_iff.1 hentry'
    rw [hentry]
    simp only [Option.map_some, Option.bind_some, Body.implementors?_kin]
    unfold Edit.atSeat at himplementors
    split at himplementors
    · exact h entry list himplementors heir hheir
    · rw [Symbol.body_map, ← Body.implementors?_kin, Body.kin_overMembers,
        Body.implementors?_kin] at himplementors
      exact ⟨list, himplementors, hheir⟩
  · rw [hentry']
    exact ⟨list, by simpa using himplementors, hheir⟩

/-- Resetting declarations leaves their lists empty. -/
lemma thins_resets (decls : List DeclId) (hid : set.Identified) :
    set.Thins (decls.foldl (fun set id => set.edit id .reset) set) := by
  induction decls generalizing set with
  | nil => exact .refl set
  | cons id rest ih =>
    refine (thins_edit hid id fun entry list hlist heir hheir => ?_).trans (ih (hid.edit id _))
    rw [Body.implementors?_fresh hlist] at hheir
    cases hheir

/-- Dropping a back-link takes the heir that it records out of the list of its base. -/
lemma lists_dropLink (hid : set.Identified) (link : BackLink) {base heir : DeclId}
    (hdefine : base.define = none) (h : (Linkage.dropLink set link).Lists base heir) :
    set.Lists base heir ∧ link.heir? ≠ some (base, heir) := by
  cases link with
  | reference target location =>
    exact ⟨(sameKin_overReferences hid _ target).thins base heir hdefine h,
      by simp [BackLink.heir?]⟩
  | implementor target gone =>
    refine ⟨thins_edit hid target (fun entry list hlist heir hheir => ?_) base heir hdefine h, ?_⟩
    · simp only [Edit.body, Symbol.body_map, Body.implementors?_overImplementors] at hlist
      obtain ⟨old, hold, rfl⟩ := Option.map_eq_some_iff.1 hlist
      exact ⟨old, hold, List.mem_of_mem_filter hheir⟩
    · intro heq
      obtain ⟨rfl, rfl⟩ : target = base ∧ gone = heir := by simpa [BackLink.heir?] using heq
      obtain ⟨list, hlist, hheir⟩ := h
      rw [Linkage.dropLink, overImplementors, heirs?, kin?_editBody hid hdefine hdefine
        (Body.kin_overImplementors _), if_pos rfl] at hlist
      obtain ⟨kin, hkin, himplementors⟩ := Option.bind_eq_some_iff.1 hlist
      obtain ⟨old, -, rfl⟩ := Option.map_eq_some_iff.1 hkin
      rw [Body.implementors?_overImplementors] at himplementors
      obtain ⟨old, -, rfl⟩ := Option.map_eq_some_iff.1 himplementors
      simp at hheir

lemma lists_dropLinks (links : List BackLink) (hid : set.Identified) :
    (links.foldl Linkage.dropLink set).Identified ∧ ∀ base heir : DeclId, base.define = none →
      (links.foldl Linkage.dropLink set).Lists base heir →
      set.Lists base heir ∧ (base, heir) ∉ links.filterMap BackLink.heir? := by
  induction links generalizing set with
  | nil => exact ⟨hid, fun _ _ _ h => ⟨h, by simp⟩⟩
  | cons link rest ih =>
    have hfirst : SameCores (fun _ => True) set (Linkage.dropLink set link) :=
      sameCores_dropLink hid link
    obtain ⟨hid', hrest⟩ := ih hfirst.identified
    refine ⟨hid', fun base heir hdefine hlists => ?_⟩
    obtain ⟨hmid, hnot⟩ := hrest base heir hdefine hlists
    obtain ⟨hbefore, hne⟩ := lists_dropLink hid link hdefine hmid
    refine ⟨hbefore, fun hmem => ?_⟩
    obtain ⟨other, hother, heq⟩ := List.mem_filterMap.1 hmem
    rcases List.mem_cons.1 hother with rfl | hother
    · exact hne heq
    · exact hnot (List.mem_filterMap.2 ⟨other, hother, heq⟩)

/-- After a document is unlinked, its heirs are in no list. -/
lemma Noted.unlink (noted : set.Noted (unit :: others)) (hid : set.Identified) :
    (Linkage.unlink ⟨set, unit⟩).libraries.Noted ((Linkage.unlink ⟨set, unit⟩).unit :: others) := by
  intro base heir hdefine hlists
  obtain ⟨hid', hdropped⟩ := lists_dropLinks unit.links hid
  obtain ⟨hbefore, hgone⟩ := hdropped base heir hdefine
    (thins_resets unit.declarations hid' base heir hdefine hlists)
  obtain ⟨other, hother, hdecl, hpair⟩ := noted base heir hdefine hbefore
  rcases List.mem_cons.1 hother with rfl | hother
  · exact absurd hpair hgone
  · exact ⟨other, List.mem_cons_of_mem _ hother, hdecl, hpair⟩

lemma Noted.detach (noted : set.Noted (unit :: others)) (hid : set.Identified) :
    (Linkage.detach ⟨set, unit⟩).libraries.Noted ((Linkage.detach ⟨set, unit⟩).unit :: others) := by
  have hstrip := SameKin.foldl unit.declarations
    (fun _ hid id _ => sameKin_stripRelations hid id) hid
  exact (noted.thin hstrip.thins fun unit hunit => ⟨unit, hunit, rfl, rfl⟩).unlink hstrip.identified

/-- Disposing of a document that records no heirs. -/
lemma Noted.dispose (noted : set.Noted (unit :: others)) (settled : set.Settled (unit :: others))
    (hheirs : unit.heirs = [])
    (hpath : ∀ u ∈ others, u.library = unit.library → u.path ≠ unit.path) :
    (Linkage.dispose ⟨set, unit⟩).libraries.Noted others := by
  obtain ⟨-, sheds⟩ := settled.dispose hpath
  obtain ⟨lib, hlib⟩ := settled.loaded (List.mem_cons_self ..)
  obtain ⟨lib', hlib', shed⟩ := sheds.shed hlib
  have hthin : set.Thins (Linkage.dispose ⟨set, unit⟩).libraries := by
    intro base heir _ hlists
    obtain ⟨list, hlist, hheir⟩ := hlists
    refine ⟨list, ?_, hheir⟩
    rw [heirs?, kin?, slot?] at hlist ⊢
    by_cases hlibrary : base.library = unit.library
    · rw [hlibrary, hlib', Option.bind_some, shed.slot?_eq] at hlist
      rw [hlibrary, hlib, Option.bind_some]
      split at hlist
      · cases hlist
      · exact hlist
    · rwa [sheds.other hlibrary] at hlist
  intro base heir hdefine hlists
  obtain ⟨other, hother, hdecl, hpair⟩ := noted base heir hdefine (hthin base heir hdefine hlists)
  rcases List.mem_cons.1 hother with rfl | hother
  · simp [hheirs] at hpair
  · exact ⟨other, hother, hdecl, hpair⟩

end LibrarySet

/-! ## Runs -/

namespace Session

variable {session : Session}

/-- Clearing the project leaves all heirs on record, and none in the documents of the project. -/
lemma Sound.noted_cleared (sound : session.Sound)
    (arranged : session.libraries.Arranged session.units)
    (noted : session.libraries.Noted session.units) {torn : List SourceUnit}
    (hperm : (torn ++ session.untouched).Perm session.files) (pool : IndexPool) :
    (session.cleared torn pool).libraries.Noted (session.cleared torn pool).units ∧
      ∀ unit ∈ (session.cleared torn pool).files, unit.heirs = [] := by
  have hfiles : ∀ unit ∈ torn ++ session.untouched, unit.library = .project :=
    fun unit hunit => sound.files_library unit (hperm.mem_iff.1 hunit)
  let P (set : LibrarySet) (units : List SourceUnit) : Prop := set.Arranged units ∧ set.Noted units
  have hpermP : ∀ {set units units'}, P set units → units.Perm units' → P set units' :=
    fun h hperm => ⟨h.1.perm hperm, h.2.perm hperm⟩
  have hshuffled : P session.libraries
      (torn ++ (session.untouched ++ session.foreign.values.flatten)) :=
    @hpermP _ session.units _ ⟨arranged, noted⟩ (units_perm hperm)
  obtain ⟨hdetached, htorn⟩ := Linkages.each_induction Linkage.detach P
    (fun unit => unit.library = .project) (fun unit => unit.library = .project ∧ unit.heirs = [])
    hpermP (fun h hunit => ⟨⟨h.1.detach, h.2.detach h.1.orderly.identified⟩, hunit, rfl⟩) hshuffled
    (fun unit hunit => hfiles unit (List.mem_append_left _ hunit))
  have hdisposed := Linkages.dispose_induction P (fun unit => unit.heirs = [])
    (fun h _ hheirs hdistinct => ⟨h.1.dispose hdistinct, h.2.dispose h.1.settled hheirs hdistinct⟩)
    hdetached htorn (sound.nodup_paths hperm)
  obtain ⟨hunlinked, hheirs⟩ := Linkages.each_induction Linkage.unlink P (fun _ => True)
    (fun unit => unit.heirs = []) hpermP
    (fun h _ => ⟨⟨h.1.unlink, h.2.unlink h.1.orderly.identified⟩, rfl⟩) hdisposed
    (fun _ _ => trivial)
  exact ⟨hunlinked.2, hheirs⟩

lemma noted_checkProject (arranged : session.libraries.Arranged session.units)
    (noted : session.libraries.Noted session.units) :
    session.checkProject.libraries.Noted session.checkProject.units := by
  refine (noted.check arranged.orderly.identified .project).congr ?_
  simp only [Session.units, checkProject, List.map_append, List.map_map]
  rfl

/-- Linking the project again, once none of its documents has heirs on record. -/
lemma Sound.noted_relink (sound : session.Sound)
    (arranged : session.libraries.Arranged session.units)
    (noted : session.libraries.Noted session.units)
    (hundeclared : ∀ unit ∈ session.files, unit.Undeclared) :
    session.relink.libraries.Noted session.relink.units := by
  obtain ⟨keeps, loaded⟩ := (sound.keeps ⟨⟨arranged, sound.pool⟩, noted⟩).loadImports
    loadInvariant_noted (importNames session.files)
  unfold Session.relink
  generalize session.loadImports (importNames session.files) = mid at keeps loaded ⊢
  have hmid : mid.libraries.Arranged (mid.files ++ mid.foreign.values.flatten) := keeps.holds.1.1
  have hnoted : mid.libraries.Noted (mid.files ++ mid.foreign.values.flatten) := keeps.holds.2
  have hbatch := loaded.files_eq ▸ hundeclared
  exact noted_checkProject (Linkages.arranged_link hmid hbatch mid.options)
    (Linkages.noted_link hmid hnoted hbatch mid.options)

/-- The session right before it is linked again: all heirs are on record, and none in the documents
of the project. -/
lemma Sound.noted_of_tidied (sound : session.Sound)
    (arranged : session.libraries.Arranged session.units)
    (noted : session.libraries.Noted session.units) {torn : List SourceUnit}
    (hperm : (torn ++ session.untouched).Perm session.files) {pool : IndexPool} {tidied : Session}
    (htidied : Tidied { session.cleared torn pool with dirty := [] } tidied session.pendingTrees) :
    tidied.libraries.Noted tidied.units ∧ ∀ unit ∈ tidied.files, unit.heirs = [] := by
  obtain ⟨hnoted, hheirs⟩ := sound.noted_cleared arranged noted hperm pool
  generalize session.cleared torn pool = cleared at *
  obtain ⟨fresh, hfresh, -, hself, -⟩ := htidied.files_perm
  have hunits : (fresh ++ cleared.units).Perm tidied.units := by
    rw [Session.units, Session.units, htidied.foreign_eq, ← List.append_assoc]
    exact hfresh.append_right _
  have hproject : cleared.libraries.get? .project = some cleared.libraries.project := rfl
  refine ⟨(hnoted.tidy hproject htidied.grows).perm hunits, fun unit hunit => ?_⟩
  rcases List.mem_append.1 (hfresh.mem_iff.2 hunit) with h | h
  · rw [← hself unit h]
    rfl
  · exact hheirs unit h

lemma Sound.noted_tidied (sound : session.Sound)
    (arranged : session.libraries.Arranged session.units)
    (noted : session.libraries.Noted session.units) :
    ∃ (tidied : Session) (report : RebuildReport),
      session.rebuild = (tidied.relink, .ok report) ∧ tidied.Sound ∧
      tidied.libraries.Arranged tidied.units ∧ tidied.libraries.Noted tidied.units ∧
      ∀ unit ∈ tidied.files, unit.Undeclared ∧ unit.heirs = [] := by
  obtain ⟨torn, pool, tidied, report, hperm, -, hsound, htidied, hrebuild⟩ := sound.rebuild_eq
  obtain ⟨harranged, hundeclared⟩ := sound.arranged_tidied arranged hperm hsound htidied
  obtain ⟨hnoted, hheirs⟩ := sound.noted_of_tidied arranged noted hperm htidied
  exact ⟨tidied, report, hrebuild, hsound, harranged, hnoted,
    fun unit hunit => ⟨hundeclared unit hunit, hheirs unit hunit⟩⟩

lemma noted_new (projectName kernelName : String) :
    (LibrarySet.new projectName kernelName).Noted [] := by
  intro base heir _ hlists
  obtain ⟨list, hlist, -⟩ := hlists
  have htags := LibrarySet.tags?_new projectName kernelName base.library base.category base.index
  rw [LibrarySet.tags?, Option.map_eq_none_iff] at htags
  simp [LibrarySet.heirs?, LibrarySet.kin?, htags] at hlist

/-- Every run keeps all heirs on record. -/
theorem noted_run (manifest : Manifest) (sources : Sources) :
    ∃ initial, Session.start manifest sources = .ok initial ∧ ∀ requests : List Request,
      (initial.run requests).Sound ∧
        (initial.run requests).libraries.Arranged (initial.run requests).units ∧
        (initial.run requests).libraries.Noted (initial.run requests).units := by
  obtain ⟨initial, hstart, hsound, -⟩ := Sound.start manifest sources
  obtain ⟨initial', hstart', keeps, -⟩ := Keeps.start loadInvariant_noted manifest sources
    ⟨⟨LibrarySet.arranged_new manifest.name manifest.kernel, IndexPool.matches_new manifest.name⟩,
      noted_new manifest.name manifest.kernel⟩
  obtain rfl : initial = initial' := by simpa [hstart] using hstart'
  refine ⟨initial, hstart, run_induction (P := fun session => session.Sound ∧
    session.libraries.Arranged session.units ∧ session.libraries.Noted session.units)
    ⟨hsound, keeps.holds.1.1, keeps.holds.2⟩ ?_⟩
  rintro session request ⟨sound, arranged, noted⟩
  refine ⟨sound.perform request, ?_⟩
  -- Only a rebuild and a load change the libraries.
  cases request with
  | rebuild =>
    obtain ⟨tidied, report, hrebuild, hsound, harranged, hnoted, hfiles⟩ :=
      sound.noted_tidied arranged noted
    rw [Session.perform, hrebuild]
    exact ⟨hsound.arranged_relink harranged fun unit hunit => (hfiles unit hunit).1,
      hsound.noted_relink harranged hnoted fun unit hunit => (hfiles unit hunit).1⟩
  | load name =>
    rw [Session.perform]
    rcases session.loadLibrary_fst name with hload | hload
    · rw [hload]
      exact ⟨arranged, noted⟩
    · obtain ⟨after, hafter, keeps, -⟩ := (sound.keeps ⟨⟨arranged, sound.pool⟩, noted⟩).load
        loadInvariant_noted session.manifest.libraries.length name
      rw [hload, hafter]
      exact ⟨keeps.holds.1.1, keeps.holds.2⟩
  | insert tree => exact ⟨arranged, noted⟩
  | erase path => exact ⟨arranged, noted⟩
  | insertLibrary name trees => exact ⟨arranged, noted⟩
  | changed path => exact ⟨arranged, noted⟩
  | dropped path => exact ⟨arranged, noted⟩

end Session

end SymbolGraph
