import SymbolGraph.Proofs.Linking.ReferenceBalance

/-!
# Linking keeps the books

Each of the four link passes reads the model, finds live targets, and writes them down in both
places.  Declaring members brings new targets into being, at positions that nothing could point to
before.  So every pass over a document keeps the records of the whole model, and by induction over
the documents so does linking a group of them.
-/

namespace SymbolGraph

namespace LibrarySet.Settled

variable {set : LibrarySet} {unit : SourceUnit} {units : List SourceUnit}

/-- A declaration of a document, with the library that holds it. -/
lemma declared (settled : set.Settled units) (hunit : unit ∈ units) {id : DeclId}
    (hid : id ∈ unit.declarations) :
    id = ⟨unit.library, id.category, id.index, none⟩ ∧ id.category.isMember = false ∧
      ∃ entry, set.slot? unit.library id.category id.index = some entry ∧ entry.id = id := by
  obtain ⟨lib, hlib⟩ := settled.loaded hunit
  have hmine : unit ∈ units.filter fun u => u.library = unit.library :=
    List.mem_filter.2 ⟨hunit, by simp⟩
  obtain ⟨heq, htop, entry, hentry, hentryId⟩ :=
    (settled.hosts hlib).declared (List.mem_flatMap.2 ⟨unit, hmine, hid⟩)
  rw [settled.id_eq hlib] at heq
  exact ⟨heq, htop, entry, by rw [slot?_of_get? hlib, hentry], hentryId⟩

/-- The identities of a document of the project. -/
lemma declared_project (settled : set.Settled units) (hunit : unit ∈ units)
    (hproject : unit.library = .project) {id : DeclId} (hid : id ∈ unit.declarations) :
    id = ⟨.project, id.category, id.index, none⟩ ∧ id.category.isMember = false := by
  obtain ⟨heq, htop, -⟩ := settled.declared hunit hid
  exact ⟨hproject ▸ heq, htop⟩

lemma nodup_declarations (settled : set.Settled units) (hunit : unit ∈ units) :
    unit.declarations.Nodup := by
  obtain ⟨lib, hlib⟩ := settled.loaded hunit
  have hmine : unit ∈ units.filter fun u => u.library = unit.library :=
    List.mem_filter.2 ⟨hunit, by simp⟩
  obtain ⟨before, after, hsplit⟩ := List.append_of_mem hmine
  have hnodup := (settled.hosts hlib).declarations_nodup
  rw [hsplit, List.flatMap_append, List.flatMap_cons, List.nodup_append,
    List.nodup_append] at hnodup
  exact hnodup.2.1.1

/-- No declaration belongs to two documents. -/
lemma disjoint (settled : set.Settled (unit :: units)) {other : SourceUnit} (hother : other ∈ units)
    {id : DeclId} (hid : id ∈ unit.declarations) : id ∉ other.declarations := by
  intro hboth
  have hlibrary : other.library = unit.library := by
    have h₁ := (settled.declared (List.mem_cons_self ..) hid).1
    have h₂ := (settled.declared (List.mem_cons_of_mem _ hother) hboth).1
    exact (congrArg DeclId.library h₂).symm.trans (congrArg DeclId.library h₁)
  obtain ⟨lib, hlib⟩ := settled.loaded (List.mem_cons_self ..)
  have hnodup := (settled.hosts hlib).declarations_nodup
  rw [List.filter_cons_of_pos (by simp), List.flatMap_cons, List.nodup_append] at hnodup
  refine hnodup.2.2 id hid id (List.mem_flatMap.2 ⟨other, ?_, hboth⟩) rfl
  exact List.mem_filter.2 ⟨hother, by simpa using hlibrary⟩

/-- A declaration of a document and the node that declares it. -/
lemma paired (settled : set.Settled units) (hunit : unit ∈ units) {id : DeclId} {node : DeclNode}
    (h : (id, node) ∈ unit.declarations.zip unit.nodes) :
    id.category = node.category ∧ id.define = none ∧ id.library = unit.library ∧
      id ∈ unit.declarations ∧ node ∈ unit.nodes := by
  obtain ⟨lib, hlib⟩ := settled.loaded hunit
  have hnodes : unit.nodes = (unit.tree.root.marks []).filterMap Mark.node? :=
    (SpaceNode.filterMap_node?_marks [] unit.tree.root).symm
  have hdeclared := (settled.aligned hunit hlib).declared
  rw [← hnodes] at hdeclared
  obtain ⟨hid, hnode⟩ := List.of_mem_zip h
  obtain ⟨-, -, -, hcategory, -⟩ := (List.forall₂_iff_zip.1 hdeclared).2 h
  have heq := (settled.declared hunit hid).1
  exact ⟨hcategory, congrArg DeclId.define heq, congrArg DeclId.library heq, hid, hnode⟩

/-- Every declaration of a document has a node of its tree. -/
lemma exists_node (settled : set.Settled units) (hunit : unit ∈ units) {id : DeclId}
    (hid : id ∈ unit.declarations) : ∃ node, (id, node) ∈ unit.declarations.zip unit.nodes := by
  obtain ⟨lib, hlib⟩ := settled.loaded hunit
  have hdeclared := (settled.aligned hunit hlib).declared
  rw [SpaceNode.filterMap_node?_marks] at hdeclared
  obtain ⟨position, hlt, rfl⟩ := List.mem_iff_getElem.1 hid
  have hlt' : position < unit.nodes.length := hdeclared.length_eq ▸ hlt
  refine ⟨unit.nodes[position], List.mem_iff_getElem.2 ⟨position, ?_, List.getElem_zip⟩⟩
  rw [List.length_zip]
  exact Nat.lt_min.2 ⟨hlt, hlt'⟩

end LibrarySet.Settled

namespace Linkage

variable {state : Linkage} {others : List SourceUnit} {near : LibraryId → Prop}

lemma Booked.settled (booked : state.Booked others) :
    state.libraries.Settled (state.unit :: others) := booked.books.settled

lemma Booked.arranged (booked : state.Booked others) :
    state.libraries.Arranged (state.unit :: others) := booked.books.toArranged

lemma Keeps.path_eq {before after : Linkage} (keeps : Keeps others before after) :
    after.unit.path = before.unit.path :=
  congrArg FileTree.path (SourceUnit.tree_of_skeleton_eq keeps.becomes.skeleton_eq)

/-! ## Findings -/

lemma keeps_apply (booked : state.Booked others) {found : Findings} {own : List DeclId}
    (among : found.Among state.libraries near state.unit.path own) :
    Keeps others state (state.apply found) := by
  have hupdates := keeps_updates booked found.updates fun update h => (among.updates h).1
  have hreferences := keeps_foldl
    (fun (state : Linkage) (reference : Target × Location) =>
      state.libraries.Live reference.1 ∧ reference.2.document = state.unit.path)
    found.references hupdates.booked
    (fun state reference _ booked hgood => keeps_addReference booked hgood.1 hgood.2)
    (fun before after reference keeps hgood =>
      ⟨keeps.live hgood.1, hgood.2.trans keeps.path_eq.symm⟩)
    (fun reference h => ⟨hupdates.live (among.references h).1.1, (among.references h).2⟩)
  have hheirs := keeps_foldl (fun _ _ => True) found.heirs hreferences.booked
    (fun state heir _ booked _ => keeps_addHeir booked heir) (fun _ _ _ _ h => h)
    (fun _ _ => trivial)
  have hall := (hupdates.trans hreferences).trans hheirs
  exact hall.trans (keeps_unit hall.booked rfl rfl rfl)

/-! ## What the passes find for a document -/

/-- All that the document at hand can name lies in the libraries `near`. -/
structure Among (state : Linkage) (near : LibraryId → Prop) : Prop where
  library : near state.unit.library
  kernel : near .kernel
  scopes : ∀ scope ∈ state.unit.scopes, ∀ imported ∈ scope.imports, near imported.library
  parents : ∀ {id parent}, near id.library → parent ∈ state.libraries.parents id →
    near parent.library
  words : state.unit.tree.Keeps state.libraries near

lemma among_everywhere (state : Linkage) : state.Among fun _ => True :=
  ⟨trivial, trivial, fun _ _ _ _ => trivial, fun _ _ => trivial,
    ⟨fun _ _ _ _ => trivial, fun _ _ _ _ _ _ _ _ => trivial⟩⟩

/-- The scopes of a document's declarations, and what its directives are found to mean. -/
def imported (state : Linkage) : List DeclScope × Findings :=
  LinkImports.block state.libraries state.unit.library state.unit.path Arena.root []
    state.unit.tree.root

/-- What a pass finds for the declarations of a document. -/
def found (state : Linkage) (options : LinkOptions)
    (find : Context → DeclId → DeclNode → Findings) : Findings :=
  .join <| ((state.unit.declarations.zip state.unit.nodes).zip state.unit.scopes).map
    fun ((id, node), scope) => find (state.context options scope) id node

lemma linkImports_eq (settled : state.libraries.Settled (state.unit :: others)) :
    state.linkImports = apply { state with unit := { state.unit with scopes := state.imported.1 } }
      state.imported.2 := by
  obtain ⟨lib, hlib⟩ := settled.loaded (List.mem_cons_self ..)
  simp only [linkImports, hlib]
  rfl

lemma linkEach_eq (state : Linkage) (options : LinkOptions)
    (find : Context → DeclId → DeclNode → Findings) :
    state.linkEach options find = state.apply (state.found options find) := rfl

lemma Among.imported (among : state.Among near) (legible : state.libraries.Legible) :
    state.imported.2.Among state.libraries near state.unit.path state.unit.declarations ∧
      ∀ scope ∈ state.imported.1, ∀ imported ∈ scope.imports, near imported.library :=
  LinkImports.among_block legible among.library among.kernel _ _ _ (fun _ h => by simp at h) _
    among.words.imports

lemma Among.context (among : state.Among near) (options : LinkOptions) {scope : DeclScope}
    (hscope : scope ∈ state.unit.scopes) : (state.context options scope).Among near :=
  ⟨among.library, among.scopes scope hscope, among.kernel, by simp [Linkage.context], among.parents⟩

lemma Among.found (among : state.Among near)
    (settled : state.libraries.Settled (state.unit :: others)) (options : LinkOptions)
    {find : Context → DeclId → DeclNode → Findings}
    (hfind : ∀ (ctx : Context) (id : DeclId) (node : DeclNode), ctx.libraries = state.libraries →
      ctx.document = state.unit.path → ctx.Among near → id ∈ state.unit.declarations →
      id.category = node.category → id.define = none → near id.library →
      (∀ ty ∈ node.types, state.libraries.Leads near ty.path) →
      (find ctx id node).Among state.libraries near state.unit.path state.unit.declarations) :
    (state.found options find).Among state.libraries near state.unit.path
      state.unit.declarations := by
  refine Findings.among_join fun found hfound => ?_
  obtain ⟨⟨⟨id, node⟩, scope⟩, hmem, rfl⟩ := List.mem_map.1 hfound
  obtain ⟨hpair, hscope⟩ := List.of_mem_zip hmem
  obtain ⟨hcategory, hdefine, hlibrary, hid, hnode⟩ :=
    settled.paired (List.mem_cons_self ..) hpair
  refine hfind _ id node rfl rfl (among.context options hscope) hid hcategory hdefine
    (hlibrary ▸ among.library) ?_
  exact fun ty hty => among.words.types ty (List.mem_flatMap.2 ⟨node, hnode, hty⟩)

lemma Among.foundBases (among : state.Among near)
    (arranged : state.libraries.Arranged (state.unit :: others)) (options : LinkOptions) :
      (state.found options LinkBases.findings).Among state.libraries near
      state.unit.path state.unit.declarations := by
  refine among.found arranged.settled options ?_
  intro ctx id node hset hdocument hctx hid hcategory hdefine hnear hleads
  rw [← hset] at hleads ⊢
  rw [← hdocument]
  exact LinkBases.among_findings hctx (hset ▸ arranged.legible) hid
    (DeclId.owner?_of_top (by rw [hcategory]; simp)) hleads

lemma Among.foundSignatures (among : state.Among near)
    (arranged : state.libraries.Arranged (state.unit :: others)) (options : LinkOptions) :
      (state.found options LinkSignatures.findings).Among state.libraries
      near state.unit.path state.unit.declarations := by
  refine among.found arranged.settled options ?_
  intro ctx id node hset hdocument hctx hid hcategory hdefine hnear hleads
  rw [← hset] at hleads ⊢
  rw [← hdocument]
  exact LinkSignatures.among_findings hctx (hset ▸ arranged.legible) hid hdefine hcategory
    hnear hleads

/-! ## Passes -/

lemma keeps_linkImports (booked : state.Booked others) : Keeps others state state.linkImports := by
  obtain ⟨hamong, -⟩ := state.among_everywhere.imported booked.books.legible
  rw [linkImports_eq booked.settled]
  have hscopes : Keeps others state
      { state with unit := { state.unit with scopes := state.imported.1 } } :=
    keeps_unit booked rfl rfl rfl
  exact hscopes.trans (keeps_apply hscopes.booked hamong)

lemma keeps_linkBases (booked : state.Booked others) (options : LinkOptions) :
    Keeps others state (state.linkBases options) :=
  keeps_apply booked (state.among_everywhere.foundBases booked.arranged options)

lemma keeps_linkSignatures (booked : state.Booked others) (options : LinkOptions) :
    Keeps others state (state.linkSignatures options) :=
  keeps_apply booked (state.among_everywhere.foundSignatures booked.arranged options)

end Linkage

/-! ## Members -/

/-- The tags with the members that a node declares. -/
def Tags.declare (tags : Tags) (id : DeclId) (node : DeclNode) : Tags :=
  { tags with
    members := fun c => (tags.members c).map fun _ =>
      (node.memberNodes.filter fun m => m.category = c).map fun m =>
        (LinkMembers.memberId id m, []) }

lemma Tags.Orderly.declare {tags : Tags} {library : LibraryId} {category : Category} {index : Nat}
    (orderly : tags.Orderly library category index) {id : DeclId}
    (hid : id = ⟨library, category, index, none⟩) (node : DeclNode) :
    (tags.declare id node).Orderly library category index := by
  refine ⟨orderly.id_eq, orderly.top_level, ?_, ?_, ?_⟩
  · intro c list h
    obtain ⟨old, hold, -⟩ := Option.map_eq_some_iff.1 h
    exact orderly.owned hold
  · intro c hc
    obtain ⟨list, hlist⟩ := orderly.complete hc
    exact ⟨_, Option.map_eq_some_iff.2 ⟨list, hlist, rfl⟩⟩
  · intro c list j m h hj
    obtain ⟨old, -, rfl⟩ := Option.map_eq_some_iff.1 h
    rw [List.getElem?_map] at hj
    obtain ⟨member, hmember, rfl⟩ := Option.map_eq_some_iff.1 hj
    obtain ⟨hcategory, hposition⟩ := node.position_memberNodes c hmember
    simp only [LinkMembers.memberId, hcategory, hposition, hid]

namespace LibrarySet

variable {set : LibrarySet}

/-- The model after the members of a bare declaration have been declared. -/
structure Declares (set : LibrarySet) (id : DeclId) (node : DeclNode) (set' : LibrarySet) :
    Prop where
  identified : set'.Identified
  spaces : ∀ ref, set'.space? ref = set.space? ref
  tags : ∀ library category index, set'.tags? library category index =
    if id = ⟨library, category, index, none⟩ then
      (set.tags? library category index).map fun tags => tags.declare id node
    else set.tags? library category index

lemma Orderly.declares_edit (orderly : set.Orderly) {id : DeclId}
    (htop : id.category.isMember = false) (hdefine : id.define = none) (bare : set.BareAt id)
    (document : String) (owner : Entry) (node : DeclNode) :
    set.Declares id node (set.edit id (.body fun body =>
      (node.memberNodes.map (LinkMembers.member document id owner)).foldl
        (fun body m => LinkMembers.addMember m body) body)) := by
  refine ⟨orderly.identified.edit id _, fun ref => space?_edit .., ?_⟩
  intro library category index
  rw [tags?, tags?, slot?_edit orderly.identified, DeclId.seat_of_top htop]
  have hiff : (id.library = library ∧ (id.category, id.index) = (category, index)) ↔
      id = ⟨library, category, index, none⟩ := by
    obtain ⟨l, c, i, d⟩ := id
    obtain rfl : d = none := hdefine
    simp
  by_cases heq : id = ⟨library, category, index, none⟩
  · rw [if_pos (hiff.2 heq), if_pos heq]
    cases hslot : set.slot? library category index with
    | none => rfl
    | some entry =>
      have hbare : entry.tags.Bare := bare _ (by rw [heq]; exact tags?_of_slot? hslot)
      have hseat : (Edit.body fun body =>
          (node.memberNodes.map (LinkMembers.member document id owner)).foldl
            (fun body m => LinkMembers.addMember m body) body).atSeat id entry
          = entry.map fun body => (node.memberNodes.map
            (LinkMembers.member document id owner)).foldl
            (fun body m => LinkMembers.addMember m body) body := by
        rw [Edit.atSeat, DeclId.owner?_of_top htop]
        rfl
      rw [Option.map_some, Option.map_some, hseat]
      simp only [Entry.tags, Tags.declare, Symbol.map, Option.map_some, Option.some.injEq,
        Tags.mk.injEq, true_and]
      funext c
      exact Body.tags_declared hbare document id owner node c
  · rw [if_neg fun h => heq (hiff.1 h), if_neg heq]

lemma Declares.orderly {set' : LibrarySet} {id : DeclId} {node : DeclNode}
    (declares : set.Declares id node set') (orderly : set.Orderly) : set'.Orderly := by
  refine ⟨declares.identified, ?_⟩
  intro library category index tags htags
  rw [declares.tags] at htags
  split at htags
  · next heq =>
    obtain ⟨old, hold, rfl⟩ := Option.map_eq_some_iff.1 htags
    exact (orderly.tags hold).declare heq node
  · exact orderly.tags htags

/-- New members have no references, and everything else stays as it is. -/
lemma Declares.widens {set' : LibrarySet} {id : DeclId} {node : DeclNode}
    (declares : set.Declares id node set') (orderly : set.Orderly) (bare : set.BareAt id) :
    set.Widens set' := by
  have hview (other : DeclId) :
      set'.references? (.declaration other) = set.references? (.declaration other) ∨
        set.references? (.declaration other) = none ∧
          ∀ refs, set'.references? (.declaration other) = some refs → refs = [] := by
    rw [references?_declaration orderly.identified, references?_declaration declares.identified,
      declares.tags]
    split
    · next heq =>
      cases hold : set.tags? other.library other.seat.1 other.seat.2 with
      | none => exact Or.inl rfl
      | some tags =>
        have hbare : tags.Bare := bare tags (by rw [heq]; exact hold)
        simp only [Option.map_some, Option.bind_some, Tags.part?]
        cases howner : other.owner? with
        | none => exact Or.inl rfl
        | some owner =>
          cases hmembers : tags.members other.category with
          | none => exact Or.inl (by simp [Tags.declare, hmembers])
          | some list =>
            obtain rfl : list = [] := hbare hmembers
            refine Or.inr ⟨by simp, fun refs hrefs => ?_⟩
            simp only [Tags.declare, hmembers, Option.map_some, Option.bind_some,
              List.getElem?_map, Option.map_map, Option.map_eq_some_iff] at hrefs
            obtain ⟨m, -, rfl⟩ := hrefs
            rfl
    · exact Or.inl rfl
  refine ⟨?_, ?_⟩
  · intro target refs _ hrefs
    cases target with
    | declaration other =>
      rcases hview other with h | ⟨hnone, -⟩
      · rw [h, hrefs]
      · simp [hnone] at hrefs
    | space ref => rwa [references?, declares.spaces]
  · intro target refs _ hrefs
    cases target with
    | declaration other =>
      rcases hview other with h | ⟨hnone, hnil⟩
      · exact Or.inl (h ▸ hrefs)
      · exact Or.inr ⟨hnone, hnil refs hrefs⟩
    | space ref =>
      rw [references?, declares.spaces] at hrefs
      exact Or.inl hrefs

lemma Declares.bareAt {set' : LibrarySet} {id other : DeclId} {node : DeclNode}
    (declares : set.Declares id node set') (hother : other ≠ id) (hdefine : other.define = none)
    (bare : set.BareAt other) : set'.BareAt other := by
  intro tags htags
  rw [declares.tags, if_neg] at htags
  · exact bare tags htags
  · rintro heq
    apply hother
    obtain ⟨l, c, i, d⟩ := other
    obtain rfl : d = none := hdefine
    exact heq.symm

end LibrarySet

namespace Linkage

variable {state : Linkage} {others : List SourceUnit}

/-- What declaring the members of one declaration changes. -/
lemma declareFor_cases (arranged : state.libraries.Arranged (state.unit :: others)) {id : DeclId}
    (node : DeclNode) (hid : id ∈ state.unit.declarations) (bare : state.libraries.BareAt id) :
    LinkMembers.declareFor state (id, node) = state ∨ ∃ owner,
      state.libraries.Declares id node (LinkMembers.declareFor state (id, node)).libraries ∧
        (LinkMembers.declareFor state (id, node)).unit.links = state.unit.links ∧
        (LinkMembers.declareFor state (id, node)).unit.path = state.unit.path ∧
        (LinkMembers.declareFor state (id, node)).unit.occurrences = state.unit.occurrences ++
          (node.memberNodes.map (LinkMembers.member state.unit.path id owner)).map
            fun m => ⟨m.nameRange, .declaration m.id, true, true⟩ := by
  obtain ⟨heq, htop, -⟩ := arranged.settled.declared (List.mem_cons_self ..) hid
  have hdefine : id.define = none := congrArg DeclId.define heq
  simp only [LinkMembers.declareFor]
  split
  · exact Or.inl rfl
  · next owner howner =>
    refine Or.inr ⟨owner, ?_, rfl, rfl, rfl⟩
    exact arranged.orderly.declares_edit htop hdefine bare state.unit.path owner node

/-- Declaring the members of one declaration leaves the others bare. -/
lemma bareAt_declareFor (arranged : state.libraries.Arranged (state.unit :: others)) {id : DeclId}
    (node : DeclNode) (hid : id ∈ state.unit.declarations) (bare : state.libraries.BareAt id) :
    ∀ unit ∈ state.unit :: others, ∀ other ∈ unit.declarations, other ≠ id →
      state.libraries.BareAt other →
      (LinkMembers.declareFor state (id, node)).libraries.BareAt other := by
  intro unit hunit other hother hne h
  rcases declareFor_cases arranged node hid bare with heq | ⟨owner, declares, -⟩
  · rwa [heq]
  · exact declares.bareAt hne (congrArg DeclId.define (arranged.settled.declared hunit hother).1) h

/-- Declaring the members of one declaration of the document. -/
lemma arranged_declareFor (arranged : state.libraries.Arranged (state.unit :: others))
    {id : DeclId} (node : DeclNode) (hid : id ∈ state.unit.declarations)
    (bare : state.libraries.BareAt id) : (LinkMembers.declareFor state
      (id, node)).libraries.Arranged
      ((LinkMembers.declareFor state (id, node)).unit :: others) := by
  have hskeleton := sameSkeleton_declareFor state (id, node)
  have hothers := bareAt_declareFor arranged node hid bare
  rcases declareFor_cases arranged node hid bare with
    heq | ⟨owner, declares, -, -, hoccurrences⟩
  · rwa [heq]
  generalize LinkMembers.declareFor state (id, node) = after
    at hskeleton hothers declares hoccurrences ⊢
  refine ⟨arranged.settled_cons hskeleton.1 hskeleton.2, declares.orderly arranged.orderly, ?_⟩
  intro unit other hunit undeclared hother
  rcases List.mem_cons.1 hunit with rfl | hunit
  · -- Either the node has members, and then the document is not undeclared, or nothing changes.
    have hnil : node.memberNodes = [] := by
      cases hnodes : node.memberNodes with
      | nil => rfl
      | cons m rest =>
        have hmem : (⟨m.name.range, .declaration (LinkMembers.memberId id m), true, true⟩ :
            Occurrence) ∈ after.unit.occurrences := by
          rw [hoccurrences, hnodes]
          simp [LinkMembers.member, Member.new, Symbol.declare]
        have hfalse := undeclared _ hmem rfl
        simp at hfalse
    have hbefore : state.unit.Undeclared := by
      intro occurrence hoccurrence
      exact undeclared occurrence (hoccurrences ▸ List.mem_append_left _ hoccurrence)
    rw [SourceUnit.declarations_of_skeleton_eq hskeleton.2] at hother
    have hold := arranged.bare (List.mem_cons_self ..) hbefore hother
    intro tags htags
    rw [declares.tags] at htags
    split at htags
    · obtain ⟨old, hold', rfl⟩ := Option.map_eq_some_iff.1 htags
      intro c list hlist
      obtain ⟨-, -, rfl⟩ := Option.map_eq_some_iff.1 hlist
      simp [hnil]
    · exact hold tags htags
  · refine hothers unit (List.mem_cons_of_mem _ hunit) other hother ?_
      (arranged.bare (List.mem_cons_of_mem _ hunit) undeclared hother)
    rintro rfl
    exact arranged.settled.disjoint hunit hid hother

lemma keeps_declareFor (booked : state.Booked others) {id : DeclId} {node : DeclNode}
    (hid : id ∈ state.unit.declarations) (bare : state.libraries.BareAt id) :
    Keeps others state (LinkMembers.declareFor state (id, node)) := by
  have orderly := booked.books.orderly
  have hskeleton := sameSkeleton_declareFor state (id, node)
  have arranged := arranged_declareFor booked.arranged node hid bare
  rcases declareFor_cases booked.arranged node hid bare with
    heq | ⟨owner, declares, hlinks, hpath, hoccurrences⟩
  · rw [heq]
    exact .refl booked
  -- Only the tags and the occurrences get more, and no reference is added.
  generalize LinkMembers.declareFor state (id, node) = after at *
  have hreferences : after.unit.references = state.unit.references := by
    rw [SourceUnit.references, hlinks, SourceUnit.references]
  have hfaithful : after.unit.Faithful := by
    have hold := faithful_unit booked
    unfold SourceUnit.Faithful at hold ⊢
    rw [hreferences, hoccurrences, hpath, List.filter_append, List.map_append, hold]
    simp [List.filter_map, Function.comp_def]
  have becomes : state.unit.Becomes after.unit :=
    ⟨hskeleton.2, fun o ho => by rw [hoccurrences]; exact List.mem_append_left _ ho⟩
  have widens := declares.widens orderly bare
  obtain ⟨ledger, anchored⟩ := booked.books.ledger.widens booked.anchored widens
  refine ⟨⟨⟨arranged, ledger.congr hreferences, booked.books.faithful_cons hfaithful⟩,
    anchored.congr hreferences⟩, becomes, ?_⟩
  intro target hlive
  obtain ⟨proper, refs, hrefs⟩ := (orderly.live_iff target).1 hlive
  exact (arranged.orderly.live_iff target).2 ⟨proper, refs, widens.keep proper hrefs⟩

/-- What declaring the members of one bare declaration keeps holds after declaring those of all. -/
lemma declareMembers_induction {P : Linkage → Prop}
    (harranged : ∀ {mid}, P mid → mid.libraries.Arranged (mid.unit :: others))
    (hstep : ∀ {mid id node}, P mid → id ∈ mid.unit.declarations → mid.libraries.BareAt id →
      P (LinkMembers.declareFor mid (id, node)))
    (h : P state) (undeclared : state.unit.Undeclared) : P state.declareMembers := by
  have hnodup := (harranged h).settled.nodup_declarations (List.mem_cons_self ..)
  have hbare : ∀ id ∈ state.unit.declarations, state.libraries.BareAt id :=
    fun id hid => (harranged h).bare (List.mem_cons_self ..) undeclared hid
  -- On the declarations still to come, which are bare because none comes twice.
  have hall : ∀ (decls : List DeclId) (nodes : List DeclNode) (mid : Linkage), P mid →
      (∀ id ∈ decls, id ∈ mid.unit.declarations ∧ mid.libraries.BareAt id) → decls.Nodup →
      P ((decls.zip nodes).foldl LinkMembers.declareFor mid) := by
    intro decls
    induction decls with
    | nil => exact fun _ _ hmid _ _ => hmid
    | cons id rest ih =>
      intro nodes mid hmid hgood hnodup
      cases nodes with
      | nil => exact hmid
      | cons node nodes =>
        obtain ⟨hid, hbareId⟩ := hgood id (List.mem_cons_self ..)
        obtain ⟨hfresh, hnodup⟩ := List.nodup_cons.1 hnodup
        refine ih nodes _ (hstep hmid hid hbareId) ?_ hnodup
        intro other hother
        obtain ⟨hmine, hbareOther⟩ := hgood other (List.mem_cons_of_mem _ hother)
        rw [SourceUnit.declarations_of_skeleton_eq (sameSkeleton_declareFor mid (id, node)).2]
        refine ⟨hmine, bareAt_declareFor (harranged hmid) node hid hbareId mid.unit
          (List.mem_cons_self ..) other hmine ?_ hbareOther⟩
        rintro rfl
        exact hfresh hother
  exact hall _ _ state h (fun id hid => ⟨hid, hbare id hid⟩) hnodup

lemma keeps_declareMembers (booked : state.Booked others) (undeclared : state.unit.Undeclared) :
    Keeps others state state.declareMembers :=
  declareMembers_induction (P := Keeps others state) (fun keeps => keeps.booked.arranged)
    (fun keeps hid bare => keeps.trans (keeps_declareFor keeps.booked hid bare)) (.refl booked)
    undeclared

/-! ## Documents without members -/

/-- What holds of a document however references and heirs are recorded in it holds of it after
findings are written down, but for the report. -/
lemma apply_unit (state : Linkage) (found : Findings) {P : SourceUnit → Prop}
    (hunit : P state.unit)
    (hreference : ∀ {unit : SourceUnit} {target location}, (target, location) ∈ found.references →
      P unit → P { unit.occur location.range target false true with
        links := unit.links ++ [.reference target location] })
    (hheir : ∀ {unit : SourceUnit} {base heir}, P unit →
      P { unit with links := unit.links ++ [.implementor base heir] }) :
    ∃ unit : SourceUnit,
      (state.apply found).unit = unit.report .link found.diagnostics ∧ P unit := by
  have hheirs (heirs : List (DeclId × DeclId)) (state : Linkage) (h : P state.unit) :
      P (heirs.foldl addHeir state).unit := by
    induction heirs generalizing state with
    | nil => exact h
    | cons found rest ih =>
      refine ih _ ?_
      obtain ⟨base, heir⟩ := found
      simp only [addHeir]
      split
      · exact h
      · exact hheir h
  have hreferences (references : List (Target × Location)) (state : Linkage) (h : P state.unit)
      (hsub : ∀ reference ∈ references, reference ∈ found.references) :
      P (references.foldl addReference state).unit := by
    induction references generalizing state with
    | nil => exact h
    | cons first rest ih =>
      refine ih _ ?_ fun reference hmem => hsub reference (List.mem_cons_of_mem _ hmem)
      obtain ⟨target, location⟩ := first
      simp only [addReference]
      split
      · exact h
      · split
        · exact h
        · exact hreference (hsub _ (List.mem_cons_self ..)) h
  exact ⟨_, rfl, hheirs _ _ (hreferences found.references
    ⟨found.updates.foldl Update.apply state.libraries, state.unit⟩ hunit fun _ h => h)⟩

lemma undeclared_apply (undeclared : state.unit.Undeclared) (found : Findings) :
    (state.apply found).unit.Undeclared := by
  obtain ⟨unit, hunit, h⟩ := state.apply_unit found (P := SourceUnit.Undeclared) undeclared
    (fun _ h occurrence hoccurrence hlinked => by
      rcases List.mem_append.1 hoccurrence with hold | hnew
      · exact h occurrence hold hlinked
      · rw [List.mem_singleton.1 hnew])
    (fun h => h)
  rw [hunit]
  exact h

lemma undeclared_linkImports (undeclared : state.unit.Undeclared) :
    state.linkImports.unit.Undeclared := by
  have hscopes (scopes : List DeclScope) :
      ({ state with unit := { state.unit with scopes } } : Linkage).unit.Undeclared := undeclared
  unfold linkImports
  dsimp only
  split
  · exact undeclared_apply (hscopes _) _
  · exact undeclared_apply (hscopes []) _

end Linkage

/-! ## Groups of documents -/

namespace Linkages

/-- What a pass establishes for the document at hand, and keeps for the others, holds of each
document after the pass over several. -/
lemma each_established (pass : Linkage → Linkage) (P : LibrarySet → List SourceUnit → Prop)
    (Q R : LibrarySet → SourceUnit → Prop)
    (hperm : ∀ {set units units'}, P set units → units.Perm units' → P set units')
    (hstep : ∀ {set unit others}, P set (unit :: others) → Q set unit →
      P (pass ⟨set, unit⟩).libraries ((pass ⟨set, unit⟩).unit :: others) ∧
        R (pass ⟨set, unit⟩).libraries (pass ⟨set, unit⟩).unit ∧
        ∀ other ∈ others, (Q set other → Q (pass ⟨set, unit⟩).libraries other) ∧
          (R set other → R (pass ⟨set, unit⟩).libraries other))
    {set : LibrarySet} {units others : List SourceUnit} (h : P set (units ++ others))
    (hunits : ∀ unit ∈ units, Q set unit) :
    P (each pass set units).libraries ((each pass set units).units ++ others) ∧
      (∀ unit ∈ (each pass set units).units, R (each pass set units).libraries unit) ∧
      ∀ other ∈ others, R set other → R (each pass set units).libraries other := by
  induction units generalizing set others with
  | nil => exact ⟨h, by simp [each], fun _ _ h => h⟩
  | cons unit rest ih =>
    obtain ⟨hfirst, hunit, hkeep⟩ := hstep h (hunits unit (List.mem_cons_self ..))
    -- The document that is done joins the others, and the rest is linked in front of them.
    have hshuffled := hperm hfirst (List.perm_middle.symm :
      ((pass ⟨set, unit⟩).unit :: (rest ++ others)).Perm
        (rest ++ (pass ⟨set, unit⟩).unit :: others))
    obtain ⟨hrest, hall, hothers⟩ := ih hshuffled fun other hother =>
      (hkeep other (List.mem_append_left _ hother)).1 (hunits other (List.mem_cons_of_mem _ hother))
    refine ⟨hperm hrest List.perm_middle, ?_, ?_⟩
    · intro other hother
      rcases List.mem_cons.1 hother with rfl | hother
      · exact hothers _ (List.mem_cons_self ..) hunit
      · exact hall other hother
    · intro other hother hR
      exact hothers other (List.mem_cons_of_mem _ hother)
        ((hkeep other (List.mem_append_right _ hother)).2 hR)

/-- What a pass over one document keeps holds after the pass over several. -/
lemma each_induction (pass : Linkage → Linkage) (P : LibrarySet → List SourceUnit → Prop)
    (Q Q' : SourceUnit → Prop)
    (hperm : ∀ {set units units'}, P set units → units.Perm units' → P set units')
    (hstep : ∀ {set unit others}, P set (unit :: others) → Q unit →
      P (pass ⟨set, unit⟩).libraries ((pass ⟨set, unit⟩).unit :: others) ∧
        Q' (pass ⟨set, unit⟩).unit)
    {set : LibrarySet} {units others : List SourceUnit} (h : P set (units ++ others))
    (hunits : ∀ unit ∈ units, Q unit) :
    P (each pass set units).libraries ((each pass set units).units ++ others) ∧
      ∀ unit ∈ (each pass set units).units, Q' unit := by
  obtain ⟨hall, hunits', -⟩ := each_established pass P (fun _ => Q) (fun _ => Q') hperm
    (fun h hunit => ⟨(hstep h hunit).1, (hstep h hunit).2, fun _ _ => ⟨fun h => h, fun h => h⟩⟩)
    h hunits
  exact ⟨hall, hunits'⟩

/-- What each of the four passes keeps over one document holds after linking several.  Declaring the
members takes the documents from `Q` to `Q'`. -/
lemma link_each (options : LinkOptions) (P : LibrarySet → List SourceUnit → Prop)
    (Q Q' : SourceUnit → Prop)
    (hperm : ∀ {set units units'}, P set units → units.Perm units' → P set units')
    (himports : ∀ {state : Linkage} {others}, P state.libraries (state.unit :: others) →
      Q state.unit → P state.linkImports.libraries (state.linkImports.unit :: others) ∧
        Q state.linkImports.unit)
    (hmembers : ∀ {state : Linkage} {others}, P state.libraries (state.unit :: others) →
      Q state.unit → P state.declareMembers.libraries (state.declareMembers.unit :: others) ∧
        Q' state.declareMembers.unit)
    (hbases : ∀ {state : Linkage} {others}, P state.libraries (state.unit :: others) →
      Q' state.unit → P (state.linkBases options).libraries
        ((state.linkBases options).unit :: others) ∧ Q' (state.linkBases options).unit)
    (hsignatures : ∀ {state : Linkage} {others}, P state.libraries (state.unit :: others) →
      Q' state.unit → P (state.linkSignatures options).libraries
        ((state.linkSignatures options).unit :: others) ∧ Q' (state.linkSignatures options).unit)
    {set : LibrarySet} {batch others : List SourceUnit} (h : P set (batch ++ others))
    (hbatch : ∀ unit ∈ batch, Q unit) :
    P (Linkages.link ⟨set, batch⟩ options).libraries
      ((Linkages.link ⟨set, batch⟩ options).units ++ others) := by
  have k₁ := each_induction Linkage.linkImports P Q Q hperm (fun h => @himports ⟨_, _⟩ _ h) h hbatch
  have k₂ := each_induction Linkage.declareMembers P Q Q' hperm
    (fun h => @hmembers ⟨_, _⟩ _ h) k₁.1 k₁.2
  have k₃ := each_induction (·.linkBases options) P Q' Q' hperm
    (fun h => @hbases ⟨_, _⟩ _ h) k₂.1 k₂.2
  have k₄ := each_induction (·.linkSignatures options) P Q' Q' hperm
    (fun h => @hsignatures ⟨_, _⟩ _ h)
    k₃.1 k₃.2
  exact k₄.1

/-- The records of all documents, those of a group among them. -/
def Booked (set : LibrarySet) (units : List SourceUnit) : Prop :=
  set.Booked units ∧ set.Anchored units

lemma Booked.perm {set : LibrarySet} {units units' : List SourceUnit} (booked : Booked set units)
    (h : units.Perm units') : Booked set units' :=
  ⟨booked.1.perm h, booked.2.perm h⟩

/-- What each of the four passes keeps, besides the books, holds after linking. -/
lemma Booked.link_induction (options : LinkOptions) (P : LibrarySet → List SourceUnit → Prop)
    (Q : SourceUnit → Prop)
    (hperm : ∀ {set units units'}, P set units → units.Perm units' → P set units')
    (himports : ∀ {state : Linkage} {others}, state.Booked others →
      P state.libraries (state.unit :: others) → Q state.unit →
      P state.linkImports.libraries (state.linkImports.unit :: others) ∧ Q state.linkImports.unit)
    (hmembers : ∀ {state : Linkage} {others}, state.Booked others →
      P state.libraries (state.unit :: others) → Q state.unit →
      P state.declareMembers.libraries (state.declareMembers.unit :: others) ∧
        Q state.declareMembers.unit)
    (hbases : ∀ {state : Linkage} {others}, state.Booked others →
      P state.libraries (state.unit :: others) → Q state.unit →
      P (state.linkBases options).libraries ((state.linkBases options).unit :: others) ∧
        Q (state.linkBases options).unit)
    (hsignatures : ∀ {state : Linkage} {others}, state.Booked others →
      P state.libraries (state.unit :: others) → Q state.unit →
      P (state.linkSignatures options).libraries ((state.linkSignatures options).unit :: others) ∧
        Q (state.linkSignatures options).unit)
    {set : LibrarySet} {batch others : List SourceUnit} (booked : Booked set (batch ++ others))
    (h : P set (batch ++ others)) (hbatch : ∀ unit ∈ batch, unit.Undeclared ∧ Q unit) :
    Booked (Linkages.link ⟨set, batch⟩ options).libraries
        ((Linkages.link ⟨set, batch⟩ options).units ++ others) ∧
      P (Linkages.link ⟨set, batch⟩ options).libraries
        ((Linkages.link ⟨set, batch⟩ options).units ++ others) := by
  -- Each pass keeps the model booked, so this can be assumed beside the property.
  have hkeep {before after : Linkage} {others : List SourceUnit}
      (keeps : Linkage.Keeps others before after)
      (h : P after.libraries (after.unit :: others) ∧ Q after.unit) :
      (Booked after.libraries (after.unit :: others) ∧ P after.libraries (after.unit :: others)) ∧
        Q after.unit :=
    ⟨⟨⟨keeps.booked.books, keeps.booked.anchored⟩, h.1⟩, h.2⟩
  refine link_each options (fun set units => Booked set units ∧ P set units)
    (fun unit => unit.Undeclared ∧ Q unit) Q
    (fun h hunits => ⟨h.1.perm hunits, hperm h.2 hunits⟩) ?_ ?_ ?_ ?_ ⟨booked, h⟩ hbatch
  · intro state others h hunit
    have booked : state.Booked others := ⟨h.1.1, h.1.2⟩
    obtain ⟨hafter, hQ⟩ := hkeep (Linkage.keeps_linkImports booked) (himports booked h.2 hunit.2)
    exact ⟨hafter, Linkage.undeclared_linkImports hunit.1, hQ⟩
  · intro state others h hunit
    have booked : state.Booked others := ⟨h.1.1, h.1.2⟩
    exact hkeep (Linkage.keeps_declareMembers booked hunit.1) (hmembers booked h.2 hunit.2)
  · intro state others h hunit
    have booked : state.Booked others := ⟨h.1.1, h.1.2⟩
    exact hkeep (Linkage.keeps_linkBases booked options) (hbases booked h.2 hunit)
  · intro state others h hunit
    have booked : state.Booked others := ⟨h.1.1, h.1.2⟩
    exact hkeep (Linkage.keeps_linkSignatures booked options) (hsignatures booked h.2 hunit)

/-- Linking documents that have not been linked keeps the books. -/
theorem Booked.link {set : LibrarySet} {batch others : List SourceUnit}
    (booked : Booked set (batch ++ others)) (hbatch : ∀ unit ∈ batch, unit.Undeclared)
    (options : LinkOptions) :
    Booked (Linkages.link ⟨set, batch⟩ options).libraries
      ((Linkages.link ⟨set, batch⟩ options).units ++ others) :=
  (link_induction options (fun _ _ => True) (fun _ => True) (fun _ _ => trivial)
    (fun _ _ _ => ⟨trivial, trivial⟩) (fun _ _ _ => ⟨trivial, trivial⟩)
    (fun _ _ _ => ⟨trivial, trivial⟩) (fun _ _ _ => ⟨trivial, trivial⟩) booked trivial
    fun unit hunit => ⟨hbatch unit hunit, trivial⟩).1

end Linkages

end SymbolGraph
