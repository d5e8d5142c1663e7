import SymbolGraph.Proofs.Linking.LinkInvariants

/-!
# Records stay under their identities

The model is arranged if every record sits in the slot and at the position that its identity says,
and a document whose members have not been declared has none.  Nothing that happens to a model ever
disturbs this, whatever refers to what: linking changes the bodies of records and not their
identities, growth adds bare records, and teardown takes members away before it takes records.

References and back-links are left out of account here, so the results hold of every history, also
of those in which other libraries name the project.
-/

namespace SymbolGraph

namespace LibrarySet

lemma tags?_new (projectName kernelName : String) (library : LibraryId) (category : Category)
    (index : Nat) : (new projectName kernelName).tags? library category index = none := by
  rw [tags?, slot?]
  cases hlib : (new projectName kernelName).get? library with
  | none => rfl
  | some lib =>
    obtain ⟨name, rfl⟩ := get?_new hlib
    rw [Option.bind_some, Library.slot?_new, Option.map_none]

lemma arranged_new (projectName kernelName : String) :
    (new projectName kernelName).Arranged [] :=
  have settled := settled_new projectName kernelName
  ⟨settled, ⟨fun _ _ => settled.id_eq, by simp [tags?_new]⟩, by simp⟩

end LibrarySet

/-! ## Linking -/

namespace Linkage

variable {state : Linkage} {others : List SourceUnit} {near : LibraryId → Prop}

lemma keepsOrder_addReference (orderly : state.libraries.Orderly) (found : Target × Location) :
    state.libraries.KeepsOrder (state.addReference found).libraries := by
  obtain ⟨target, location⟩ := found
  simp only [addReference]
  split
  · exact .refl orderly
  · split
    · exact .refl orderly
    · exact LibrarySet.keepsOrder_overReferences orderly _ target

lemma keepsOrder_addHeir (orderly : state.libraries.Orderly) (found : DeclId × DeclId) :
    state.libraries.KeepsOrder (state.addHeir found).libraries := by
  obtain ⟨base, heir⟩ := found
  simp only [addHeir]
  split
  · exact .refl orderly
  · exact (LibrarySet.sameTags_overImplementors orderly.identified base _).keepsOrder orderly

lemma keepsOrder_foldl {α : Type} {step : Linkage → α → Linkage}
    (hstep : ∀ (state : Linkage) (x : α), state.libraries.Orderly →
      state.libraries.KeepsOrder (step state x).libraries) (xs : List α)
    (orderly : state.libraries.Orderly) :
    state.libraries.KeepsOrder (xs.foldl step state).libraries := by
  induction xs generalizing state with
  | nil => exact .refl orderly
  | cons x rest ih =>
    have hfirst := hstep state x orderly
    exact hfirst.trans (ih hfirst.orderly)

lemma keepsOrder_apply (orderly : state.libraries.Orderly) {found : Findings}
    (hfits : ∀ update ∈ found.updates, update.Fits) :
    state.libraries.KeepsOrder (state.apply found).libraries := by
  have hupdates := LibrarySet.KeepsOrder.foldl found.updates (fun _ orderly update hupdate =>
    (LibrarySet.sameTags_update orderly (hfits update hupdate)).keepsOrder orderly) orderly
  have hreferences := @keepsOrder_foldl ⟨_, state.unit⟩ _ addReference
    (fun _ reference orderly => keepsOrder_addReference orderly reference) found.references
    hupdates.orderly
  exact (hupdates.trans hreferences).trans
    (keepsOrder_foldl (fun _ heir orderly => keepsOrder_addHeir orderly heir) found.heirs
      hreferences.orderly)

/-- Writing findings down loses no occurrence. -/
lemma occurrences_apply (state : Linkage) (found : Findings) :
    ∀ occurrence ∈ state.unit.occurrences, occurrence ∈ (state.apply found).unit.occurrences := by
  obtain ⟨unit, hunit, h⟩ := state.apply_unit found
    (P := fun unit => ∀ occurrence ∈ state.unit.occurrences, occurrence ∈ unit.occurrences)
    (fun _ h => h) (fun _ h occurrence hoccurrence => List.mem_append_left _ (h _ hoccurrence))
    (fun h => h)
  rw [hunit]
  exact h

lemma arranged_apply (arranged : state.libraries.Arranged (state.unit :: others))
    {found : Findings} {own : List DeclId}
    (among : found.Among state.libraries near state.unit.path own) :
    (state.apply found).libraries.Arranged ((state.apply found).unit :: others) := by
  have hskeleton := sameSkeleton_apply state found
  have becomes : state.unit.Becomes (state.apply found).unit :=
    ⟨hskeleton.2, state.occurrences_apply found⟩
  exact arranged.step hskeleton.1 hskeleton.2 becomes.undeclared
    (keepsOrder_apply arranged.orderly fun update h => (among.updates h).1)

lemma arranged_linkImports (arranged : state.libraries.Arranged (state.unit :: others)) :
    state.linkImports.libraries.Arranged (state.linkImports.unit :: others) := by
  obtain ⟨hamong, -⟩ := state.among_everywhere.imported arranged.legible
  rw [linkImports_eq arranged.settled]
  have hscopes : state.libraries.Arranged
      ({ state.unit with scopes := state.imported.1 } :: others) :=
    arranged.step rfl rfl (fun h => h) (.refl arranged.orderly)
  exact @arranged_apply ⟨state.libraries, _⟩ _ _ hscopes _ _ hamong

lemma arranged_declareMembers (arranged : state.libraries.Arranged (state.unit :: others))
    (undeclared : state.unit.Undeclared) :
    state.declareMembers.libraries.Arranged (state.declareMembers.unit :: others) :=
  declareMembers_induction (P := fun mid => mid.libraries.Arranged (mid.unit :: others))
    (fun arranged => arranged) (fun arranged hid bare => arranged_declareFor arranged _ hid bare)
    arranged undeclared

/-- Declaring the members of a document adds targets without references. -/
lemma widens_declareMembers (arranged : state.libraries.Arranged (state.unit :: others))
    (undeclared : state.unit.Undeclared) :
    state.libraries.Widens state.declareMembers.libraries := by
  refine (declareMembers_induction (P := fun mid => mid.libraries.Arranged (mid.unit :: others) ∧
    state.libraries.Widens mid.libraries) And.left ?_ ⟨arranged, .refl _⟩ undeclared).2
  rintro mid id node ⟨hmid, hwidens⟩ hid bare
  refine ⟨arranged_declareFor hmid node hid bare, hwidens.trans ?_⟩
  rcases declareFor_cases hmid node hid bare with heq | ⟨owner, declares, -⟩
  · rw [heq]
    exact .refl _
  · exact declares.widens hmid.orderly bare

end Linkage

/-- Linking documents that have not been linked keeps the records under their identities. -/
lemma Linkages.arranged_link {set : LibrarySet} {batch others : List SourceUnit}
    (arranged : set.Arranged (batch ++ others)) (hbatch : ∀ unit ∈ batch, unit.Undeclared)
    (options : LinkOptions) :
    (Linkages.link ⟨set, batch⟩ options).libraries.Arranged
      ((Linkages.link ⟨set, batch⟩ options).units ++ others) := by
  refine link_each options LibrarySet.Arranged SourceUnit.Undeclared (fun _ => True)
    LibrarySet.Arranged.perm ?_ ?_ ?_ ?_ arranged hbatch
  · exact fun arranged undeclared =>
      ⟨Linkage.arranged_linkImports arranged, Linkage.undeclared_linkImports undeclared⟩
  · exact fun arranged undeclared =>
      ⟨Linkage.arranged_declareMembers arranged undeclared, trivial⟩
  · exact fun {state _} arranged _ => ⟨Linkage.arranged_apply arranged
      (state.among_everywhere.foundBases arranged options), trivial⟩
  · exact fun {state _} arranged _ => ⟨Linkage.arranged_apply arranged
      (state.among_everywhere.foundSignatures arranged options), trivial⟩

namespace LibrarySet

variable {set set' : LibrarySet} {units : List SourceUnit}

/-! ## Growth -/

/-- Targets that exist keep their tags and references, and new ones are bare and unreferenced. -/
structure Extends (set set' : LibrarySet) : Prop where
  orderly : set'.Orderly
  tags_keep : ∀ {library category index tags}, set.tags? library category index = some tags →
    set'.tags? library category index = some tags
  tags_only : ∀ {library category index tags}, set'.tags? library category index = some tags →
    set.tags? library category index = some tags ∨
      set.tags? library category index = none ∧ tags.references = [] ∧ tags.Bare
  spaces_keep : ∀ {ref space}, set.space? ref = some space →
    ∃ space', set'.space? ref = some space' ∧ space'.references = space.references
  spaces_only : ∀ {ref space'}, set'.space? ref = some space' →
    (∃ space, set.space? ref = some space) ∨ set.space? ref = none ∧ space'.references = []

lemma Extends.widens (h : set.Extends set') (hid : set.Identified) : set.Widens set' := by
  refine ⟨?_, ?_⟩
  · intro target refs _ hrefs
    cases target with
    | declaration id =>
      rw [references?_declaration hid] at hrefs
      rw [references?_declaration h.orderly.identified]
      cases htags : set.tags? id.library id.seat.1 id.seat.2 with
      | none => simp [htags] at hrefs
      | some tags => rwa [h.tags_keep htags, ← htags]
    | space ref =>
      obtain ⟨space, hspace, rfl⟩ := Option.map_eq_some_iff.1 hrefs
      obtain ⟨space', hspace', hreferences⟩ := h.spaces_keep hspace
      rw [references?, hspace', Option.map_some, hreferences]
  · intro target refs _ hrefs
    cases target with
    | declaration id =>
      rw [references?_declaration h.orderly.identified] at hrefs
      rw [references?_declaration hid]
      obtain ⟨tag, htag, rfl⟩ := Option.map_eq_some_iff.1 hrefs
      obtain ⟨tags, htags, hpart⟩ := Option.bind_eq_some_iff.1 htag
      rcases h.tags_only htags with hold | ⟨hnone, hnil, hbare⟩
      · exact Or.inl (by rw [hold, Option.bind_some, hpart, Option.map_some])
      · refine Or.inr ⟨by rw [hnone]; rfl, ?_⟩
        unfold Tags.part? at hpart
        split at hpart
        · rw [← Option.some.inj hpart, hnil]
        · obtain ⟨list, hlist, hget⟩ := Option.bind_eq_some_iff.1 hpart
          rw [hbare hlist] at hget
          simp at hget
    | space ref =>
      obtain ⟨space', hspace', rfl⟩ := Option.map_eq_some_iff.1 hrefs
      rcases h.spaces_only hspace' with ⟨space, hspace⟩ | ⟨hnone, hnil⟩
      · obtain ⟨kept, hkept, hreferences⟩ := h.spaces_keep hspace
        obtain rfl : space' = kept := by simpa [hspace'] using hkept
        exact Or.inl (by rw [references?, hspace, Option.map_some, hreferences])
      · exact Or.inr ⟨by rw [references?, hnone, Option.map_none], hnil⟩

lemma Extends.bareAt (h : set.Extends set') {id : DeclId} (hbare : set.BareAt id) :
    set'.BareAt id := by
  intro tags htags
  rcases h.tags_only htags with hold | ⟨-, -, hnew⟩
  · exact hbare tags hold
  · exact hnew

/-- A new entry is bare and has no references. -/
lemma Entry.tags_of_skeleton_eq {entry : Entry} (h : entry.skeleton = entry) :
    entry.tags.references = [] ∧ entry.tags.Bare := by
  rw [← h]
  refine ⟨rfl, ?_⟩
  exact Tags.bare_bare entry.tags entry.id.category

lemma Entry.orderly_of_skeleton_eq {entry : Entry} (h : entry.skeleton = entry)
    {library : LibraryId} {category : Category} {index : Nat}
    (hid : entry.id = ⟨library, category, index, none⟩) (htop : category.isMember = false) :
    entry.tags.Orderly library category index := by
  have hbare := @Tags.orderly_bare ⟨entry.id, [], fun _ => none⟩ library category index hid htop
  rw [← h]
  simpa [Tags.bare, Entry.tags, Entry.skeleton, hid] using hbare

/-- Growth keeps every record. -/
lemma Grows.slot_keep {library : LibraryId} {lib : Library} (grows : set.Grows library set')
    (hloaded : set.get? library = some lib) {id : LibraryId} {category : Category} {index : Nat}
    {entry : Entry} (hslot : set.slot? id category index = some entry) :
    set'.slot? id category index = some entry := by
  by_cases h : id = library
  · subst h
    obtain ⟨lib', hlib', hgrown⟩ := grows.grown hloaded
    rw [slot?_of_get? hloaded] at hslot
    rw [slot?_of_get? hlib', hgrown.slot_keep hslot]
  · rwa [slot?, grows.other h]

/-- Growth adds blank records only. -/
lemma Grows.slot_only {library : LibraryId} {lib : Library} (grows : set.Grows library set')
    (hloaded : set.get? library = some lib) {id : LibraryId} {category : Category} {index : Nat}
    {entry : Entry} (hslot : set'.slot? id category index = some entry) :
    set.slot? id category index = some entry ∨
      set.slot? id category index = none ∧ entry.skeleton = entry := by
  by_cases h : id = library
  · subst h
    obtain ⟨lib', hlib', hgrown⟩ := grows.grown hloaded
    rw [slot?_of_get? hlib'] at hslot
    rw [slot?_of_get? hloaded]
    exact hgrown.slot_only hslot
  · rw [slot?, grows.other h] at hslot
    exact Or.inl hslot

lemma Grows.extends {library : LibraryId} {lib : Library} (grows : set.Grows library set')
    (hloaded : set.get? library = some lib) (orderly : set.Orderly)
    (settled : set'.Settled units) : set.Extends set' := by
  obtain ⟨lib', hlib', hgrown⟩ := grows.grown hloaded
  -- A namespace is in the library that grows, or nothing has changed about it.
  have hspace (ref : SpaceRef) :
      (set.space? ref = set'.space? ref) ∨ set.space? ref = lib.spaces.get? ref.space ∧
          set'.space? ref = lib'.spaces.get? ref.space := by
    by_cases h : ref.library = library
    · exact Or.inr ⟨by rw [space?, h, hloaded, Option.bind_some],
        by rw [space?, h, hlib', Option.bind_some]⟩
    · exact Or.inl (by rw [space?, space?, grows.other h])
  refine ⟨⟨fun _ _ => settled.id_eq, ?_⟩, ?_, ?_, ?_, ?_⟩
  · intro id category index tags htags
    obtain ⟨entry, hentry, rfl⟩ := Option.map_eq_some_iff.1 htags
    rcases grows.slot_only hloaded hentry with hkept | ⟨-, hfresh⟩
    · exact orderly.tags (by rw [tags?, hkept, Option.map_some])
    · obtain ⟨lib, hlib, hslot⟩ := Option.bind_eq_some_iff.1 hentry
      have coherent := (settled.hosts hlib).coherent
      have hentryId := coherent.id_eq hslot
      rw [settled.id_eq hlib] at hentryId
      exact Entry.orderly_of_skeleton_eq hfresh hentryId (coherent.top_level hslot)
  · intro id category index tags htags
    obtain ⟨entry, hentry, rfl⟩ := Option.map_eq_some_iff.1 htags
    rw [tags?, grows.slot_keep hloaded hentry, Option.map_some]
  · intro id category index tags htags
    obtain ⟨entry, hentry, rfl⟩ := Option.map_eq_some_iff.1 htags
    rcases grows.slot_only hloaded hentry with hkept | ⟨hnone, hfresh⟩
    · exact Or.inl (by rw [tags?, hkept, Option.map_some])
    · exact Or.inr ⟨by rw [tags?, hnone, Option.map_none], Entry.tags_of_skeleton_eq hfresh⟩
  · intro ref space h
    rcases hspace ref with heq | ⟨hold, hnew⟩
    · exact ⟨space, heq ▸ h, rfl⟩
    · rw [hold] at h
      obtain ⟨space', hs', -, -, hreferences⟩ := hgrown.space_keep h
      exact ⟨space', hnew.trans hs', hreferences⟩
  · intro ref space' h
    rcases hspace ref with heq | ⟨hold, hnew⟩
    · exact Or.inl ⟨space', heq.trans h⟩
    · rw [hnew] at h
      rw [hold]
      exact hgrown.space_only h

/-- A library that is registered has no records. -/
lemma slot?_addImport (set : LibrarySet) (name : String) (id : LibraryId) (category : Category)
    (index : Nat) : (set.addImport name).2.slot? id category index
      = set.slot? id category index := by
  rw [slot?, get?_addImport]
  split
  · next heq => rw [slot?, heq, get?_addImport_fst, Option.bind_some, Library.slot?_new,
      Option.bind_none]
  · rfl

lemma extends_addImport (orderly : set.Orderly) (name : String) :
    set.Extends (set.addImport name).2 := by
  have hnone := set.get?_addImport_fst name
  have hget (library : LibraryId) : (set.addImport name).2.get? library = set.get? library ∨
      set.get? library = none ∧
        (set.addImport name).2.get? library = some (.new library name) := by
    rw [get?_addImport]
    split
    · next heq => exact Or.inr ⟨heq ▸ hnone, rfl⟩
    · exact Or.inl rfl
  refine ⟨⟨?_, ?_⟩, ?_, ?_, ?_, ?_⟩
  · intro library lib hlib
    rcases hget library with h | ⟨-, h⟩
    · exact orderly.identified library lib (h ▸ hlib)
    · rw [h] at hlib
      rw [← Option.some.inj hlib]
      rfl
  · intro library category index tags htags
    rw [tags?, slot?_addImport] at htags
    exact orderly.tags htags
  · intro library category index tags htags
    rwa [tags?, slot?_addImport]
  · intro library category index tags htags
    rw [tags?, slot?_addImport] at htags
    exact Or.inl htags
  · intro ref space hspace
    rcases hget ref.library with h | ⟨h, -⟩
    · exact ⟨space, by rw [space?, h]; exact hspace, rfl⟩
    · simp [space?, h] at hspace
  · intro ref space' hspace
    rcases hget ref.library with h | ⟨hnone, h⟩
    · rw [space?, h] at hspace
      exact Or.inl ⟨space', hspace⟩
    · rw [space?, h, Option.bind_some] at hspace
      exact Or.inr ⟨by simp [space?, hnone], (Library.space_new hspace).2.2⟩

/-- A declaration in its slot is one of some document. -/
lemma Settled.exists_unit (settled : set.Settled units) {id : DeclId} {entry : Entry}
    (hslot : set.slot? id.library id.category id.index = some entry) (hdefine : id.define = none) :
    ∃ unit ∈ units, id ∈ unit.declarations := by
  obtain ⟨lib, hlib, hentry⟩ := Option.bind_eq_some_iff.1 hslot
  have hid := (settled.hosts hlib).coherent.id_eq hentry
  rw [settled.id_eq hlib] at hid
  have heq : entry.id = id := by
    rw [hid]
    obtain ⟨l, c, i, d⟩ := id
    obtain rfl : d = none := hdefine
    rfl
  have hmem := (settled.hosts hlib).mem_declarations.2 ⟨entry, hentry, heq⟩
  obtain ⟨unit, hunit, hdecl⟩ := List.mem_flatMap.1 hmem
  exact ⟨unit, List.mem_of_mem_filter hunit, hdecl⟩

lemma Extends.arranged (h : set.Extends set') (arranged : set.Arranged units)
    (settled : set'.Settled units) : set'.Arranged units :=
  ⟨settled, h.orderly, fun hunit undeclared hid => h.bareAt (arranged.bare hunit undeclared hid)⟩

/-- Tidying new documents. -/
lemma Arranged.tidy (arranged : set.Arranged units) {library : LibraryId} {lib : Library}
    (hloaded : set.get? library = some lib) {fresh : List SourceUnit}
    (settled : set'.Settled (fresh ++ units)) (grows : set.Grows library set') :
    set'.Arranged (fresh ++ units) := by
  have hextends := grows.extends hloaded arranged.orderly settled
  refine ⟨settled, hextends.orderly, ?_⟩
  intro unit id hunit undeclared hid
  rcases List.mem_append.1 hunit with hnew | hold
  · -- The declarations of a new document were not there before.
    intro tags htags
    rcases hextends.tags_only htags with hold | ⟨-, -, hbare⟩
    · obtain ⟨entry, hentry, -⟩ := Option.map_eq_some_iff.1 hold
      have hdefine : id.define = none := congrArg DeclId.define (settled.declared hunit hid).1
      obtain ⟨owner, howner, hmine⟩ := arranged.settled.exists_unit hentry hdefine
      obtain ⟨before, after, hsplit⟩ := List.append_of_mem hnew
      have hshuffled : set'.Settled (unit :: (before ++ after ++ units)) := by
        refine settled.perm ?_
        rw [hsplit, List.append_assoc, List.cons_append, List.append_assoc]
        exact List.perm_middle
      exact (hshuffled.disjoint (List.mem_append_right _ howner) hid hmine).elim
    · exact hbare
  · exact hextends.bareAt (arranged.bare hold undeclared hid)

lemma Arranged.check (arranged : set.Arranged units) (library : LibraryId) :
    (set.check library).1.Arranged units := by
  have keeps := (sameTags_check arranged.orderly library).keepsOrder arranged.orderly
  exact ⟨arranged.settled.of_skeleton_eq (set.skeleton_check library) rfl, keeps.orderly,
    fun hunit undeclared hid => keeps.bare (arranged.bare hunit undeclared hid)⟩

/-- Of documents, only the skeletons and the occurrences matter. -/
lemma Arranged.congr {units' : List SourceUnit} (arranged : set.Arranged units)
    (h : units'.map (fun unit => (unit.skeleton, unit.occurrences))
      = units.map fun unit => (unit.skeleton, unit.occurrences)) : set.Arranged units' := by
  have hskeletons : units'.map SourceUnit.skeleton = units.map SourceUnit.skeleton := by
    have hfst := congrArg (List.map Prod.fst) h
    rwa [List.map_map, List.map_map] at hfst
  refine ⟨arranged.settled.of_skeleton_eq rfl hskeletons, arranged.orderly, ?_⟩
  intro unit' id hunit' undeclared hid
  have hmem := List.mem_map_of_mem (f := fun unit : SourceUnit => (unit.skeleton, unit.occurrences))
    hunit'
  rw [h] at hmem
  obtain ⟨unit, hunit, heq⟩ := List.mem_map.1 hmem
  obtain ⟨hskeleton, hoccurrences⟩ := Prod.mk.inj heq
  refine arranged.bare hunit ?_ (SourceUnit.declarations_of_skeleton_eq hskeleton ▸ hid)
  unfold SourceUnit.Undeclared
  rw [hoccurrences]
  exact undeclared

end LibrarySet

lemma undeclared_of_skeleton_eq {unit : SourceUnit} (h : unit.skeleton = unit) :
    unit.Undeclared := by
  intro occurrence hoccurrence hlinked
  rw [← h] at hoccurrence
  have hunlinked := (List.mem_filter.1 hoccurrence).2
  simp [hlinked] at hunlinked

lemma occurrences_handOut (report : Report) (units : List SourceUnit) :
    (handOut report units).map (fun unit => (unit.skeleton, unit.occurrences))
      = units.map fun unit => (unit.skeleton, unit.occurrences) := by
  induction units generalizing report with
  | nil => rfl
  | cons unit rest ih =>
    rw [handOut, List.map_cons, List.map_cons, ih]
    rfl

/-- Loading keeps the records under their identities. -/
theorem loadInvariant_arranged : LoadInvariant fun set pool units =>
    set.Arranged units ∧ pool.Matches set.project [] where
  settled h := h.1.settled
  pool h := h.2
  perm h hperm := ⟨h.1.perm hperm, h.2⟩
  addImport name h := ⟨(LibrarySet.extends_addImport h.1.orderly name).arranged h.1
    (h.1.settled.addImport name), h.2⟩
  tidy := by
    intro set pool units library lib tree bench h _ hloaded htidy
    obtain ⟨bench', htidy', hsettled, hpool, hgrows, -⟩ := h.1.settled.tidy hloaded h.2 tree
    rw [htidy] at htidy'
    obtain rfl : bench = bench' := by simpa using htidy'
    exact ⟨@LibrarySet.Arranged.tidy set _ units h.1 library lib hloaded [bench.unit] hsettled
      hgrows, hpool⟩
  finish := by
    intro set pool units batch library options h _ hbatch
    obtain ⟨hset, -⟩ := Linkages.skeleton_finish ⟨set, batch⟩ options library
    have hlinked := Linkages.arranged_link h.1
      (fun unit hunit => undeclared_of_skeleton_eq (hbatch unit hunit).2) options
    refine ⟨(hlinked.check library).congr ?_, h.2.of_skeleton_eq (congrArg LibrarySet.project hset)⟩
    rw [List.map_append, List.map_append]
    exact congrArg (· ++ _) (occurrences_handOut _ _)

/-! ## Teardown -/

namespace LibrarySet

variable {set set' : LibrarySet} {others : List SourceUnit} {unit : SourceUnit}

lemma keepsOrder_dropLink (orderly : set.Orderly) (link : BackLink) :
    set.KeepsOrder (Linkage.dropLink set link) := by
  cases link with
  | reference target location => exact keepsOrder_overReferences orderly _ target
  | implementor base heir =>
    exact (sameTags_overImplementors orderly.identified base _).keepsOrder orderly

/-- Resetting a declaration leaves it bare. -/
lemma keepsOrder_reset (orderly : set.Orderly) {id : DeclId}
    (htop : id.category.isMember = false) :
    set.KeepsOrder (set.edit id .reset) ∧ (set.edit id .reset).BareAt id := by
  have htags := tags?_reset orderly htop
  refine ⟨⟨⟨orderly.identified.edit id Edit.reset, ?_⟩, ?_⟩, ?_⟩
  · intro library category index tags h
    rw [htags] at h
    split at h
    · obtain ⟨old, hold, rfl⟩ := Option.map_eq_some_iff.1 h
      exact Tags.orderly_bare (orderly.tags hold).id_eq (orderly.tags hold).top_level
    · exact orderly.tags h
  · intro other hbare tags h
    rw [htags] at h
    split at h
    · obtain ⟨old, -, rfl⟩ := Option.map_eq_some_iff.1 h
      exact old.bare_bare _
    · exact hbare tags h
  · intro tags h
    rw [htags, if_pos ⟨rfl, rfl⟩] at h
    obtain ⟨old, -, rfl⟩ := Option.map_eq_some_iff.1 h
    exact old.bare_bare _

lemma keepsOrder_resetAll (decls : List DeclId) (orderly : set.Orderly)
    (htop : ∀ id ∈ decls, id.category.isMember = false) :
    set.KeepsOrder (decls.foldl (fun set id => set.edit id .reset) set) ∧
      ∀ id ∈ decls, (decls.foldl (fun set id => set.edit id .reset) set).BareAt id := by
  induction decls generalizing set with
  | nil => exact ⟨.refl orderly, by simp⟩
  | cons id rest ih =>
    obtain ⟨hfirst, hself⟩ := keepsOrder_reset orderly (htop id (List.mem_cons_self ..))
    obtain ⟨hrest, hothers⟩ := ih hfirst.orderly fun other h =>
      htop other (List.mem_cons_of_mem _ h)
    refine ⟨hfirst.trans hrest, fun other hother => ?_⟩
    rcases List.mem_cons.1 hother with rfl | hother
    · exact hrest.bare hself
    · exact hothers other hother

/-- Unlinking a document leaves its declarations without members. -/
theorem Arranged.unlink (arranged : set.Arranged (unit :: others)) :
    (Linkage.unlink ⟨set, unit⟩).libraries.Arranged
      ((Linkage.unlink ⟨set, unit⟩).unit :: others) := by
  have hlinks := KeepsOrder.foldl unit.links
    (fun _ orderly link _ => keepsOrder_dropLink orderly link) arranged.orderly
  obtain ⟨hresets, hself⟩ := keepsOrder_resetAll unit.declarations hlinks.orderly fun id hid =>
    (arranged.settled.declared (List.mem_cons_self ..) hid).2.1
  have hskeleton := Linkage.sameSkeleton_unlink ⟨set, unit⟩
  refine ⟨arranged.settled_cons hskeleton.1 hskeleton.2, hresets.orderly, ?_⟩
  intro other id hother undeclared hid
  rcases List.mem_cons.1 hother with rfl | hother
  · exact hself id hid
  · exact hresets.bare (hlinks.bare
      (arranged.bare (List.mem_cons_of_mem _ hother) undeclared hid))

end LibrarySet

end SymbolGraph
