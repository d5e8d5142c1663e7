import SymbolGraph.Proofs.Renumbering.Copies
import SymbolGraph.Proofs.Session.LoadedSupport

/-!
# Linking under other numbers

Linking a document asks for some names only: those in its import directives, and those with which
its dotted types begin.  A document *keeps within* an area if these names are known there
(`SourceUnit.Within`), and a model encloses an area if inheritance does not lead out of it
(`LibrarySet.Encloses`).  Then all that a link pass reads lies in the area, so in two models that
match there it finds the same things under the new numbers, and writing them down makes the models
match again.

Hence linking several documents and linking matching ones, in the same order, leads to models that
match (`Linkages.matches_link`).  Linking copies of documents leads to copies in the same way
(`Linkages.copies_link`).
-/

namespace SymbolGraph

/-! ## What a document asks for -/

/-- The document lies in the area and asks for names that are known there. -/
structure SourceUnit.Within (area : Area) (unit : SourceUnit) : Prop where
  library : area.near unit.library
  scopes : ∀ scope ∈ unit.scopes, ∀ imported ∈ scope.imports, area.near imported.library
  imports : ∀ name ∈ unit.tree.root.importRoots, area.known name
  types : ∀ ty ∈ unit.tree.types, area.Covers ty.path

lemma SourceUnit.within_all (unit : SourceUnit) : unit.Within .all :=
  ⟨trivial, fun _ _ _ _ => trivial, fun _ _ => trivial, fun ty _ => Area.covers_all ty.path⟩

/-- What a document asks for was settled when it was tidied, but for its scopes. -/
lemma SourceUnit.Within.of_skeleton_eq {area : Area} {unit unit' : SourceUnit}
    (within : unit.Within area) (h : unit'.skeleton = unit.skeleton)
    (hscopes : ∀ scope ∈ unit'.scopes,
      ∀ imported ∈ scope.imports, area.near imported.library) : unit'.Within area := by
  have htree : unit'.tree = unit.tree := SourceUnit.tree_of_skeleton_eq h
  have hlibrary : unit'.library = unit.library := congrArg (·.library) h
  exact ⟨hlibrary ▸ within.library, hscopes, htree ▸ within.imports, htree ▸ within.types⟩

lemma Body.mem_bases_of_superInterfaces {body : Body} {base : DeclId}
    (h : base ∈ body.superInterfaces) : base ∈ body.bases := by
  cases body with
  | interface info => exact h
  | _ => exact absurd h List.not_mem_nil

namespace LibrarySet

variable {set set' : LibrarySet} {near : LibraryId → Prop}

/-- Inheritance does not lead out of the libraries `near`. -/
def Encloses (set : LibrarySet) (near : LibraryId → Prop) : Prop :=
  ∀ id kin, near id.library → set.kin? id = some kin → ∀ base ∈ kin.bases, near base.library

lemma encloses_everything (set : LibrarySet) : set.Encloses fun _ => True :=
  fun _ _ _ _ _ _ => trivial

lemma Encloses.of_kin_eq (encloses : set.Encloses near)
    (h : ∀ id, near id.library → set'.kin? id = set.kin? id) : set'.Encloses near :=
  fun id kin hnear hkin => encloses id kin hnear (h id hnear ▸ hkin)

lemma Encloses.slot (encloses : set.Encloses near) {library : LibraryId} (hnear : near library)
    {category : Category} {index : Nat} {entry : Entry}
    (hslot : set.slot? library category index = some entry) :
    ∀ base ∈ entry.body.bases, near base.library := by
  rw [← Body.bases_kin]
  exact encloses ⟨library, category, index, none⟩ _ hnear (by rw [kin?, hslot]; rfl)

lemma Encloses.parents (encloses : set.Encloses near) (hid : set.Identified) {id parent : DeclId}
    (hnear : near id.library) (hparent : parent ∈ set.parents id) : near parent.library := by
  obtain ⟨-, entry, hslot, hentry⟩ := (mem_parents hid).1 hparent
  refine encloses.slot hnear hslot parent ?_
  cases hbody : entry.body with
  | «class» info =>
    rw [hbody] at hentry
    obtain ⟨ty, hty, hdeclaration⟩ := Option.bind_eq_some_iff.1 hentry
    exact List.mem_filterMap.2 ⟨ty, List.mem_append_left _ (Option.mem_toList.2 hty), hdeclaration⟩
  | _ => rw [hbody] at hentry; cases hentry

lemma Encloses.superInterfaces (encloses : set.Encloses near) (hid : set.Identified)
    {id base : DeclId} (hnear : near id.library) (hbase : base ∈ set.superInterfaces id) :
    near base.library := by
  cases hfind : set.find? id with
  | none => simp [LibrarySet.superInterfaces, hfind] at hbase
  | some record =>
    rw [superInterfaces_eq hfind] at hbase
    rw [find?_eq hid] at hfind
    obtain ⟨entry, hslot, hpart⟩ := Option.bind_eq_some_iff.1 hfind
    unfold DeclId.part? at hpart
    split at hpart
    · rw [← Option.some.inj hpart] at hbase
      exact encloses.slot hnear hslot base (Body.mem_bases_of_superInterfaces hbase)
    · -- members do not inherit
      obtain ⟨members, -, hmember⟩ := Option.bind_eq_some_iff.1 hpart
      obtain ⟨member, -, rfl⟩ := Option.map_eq_some_iff.1 hmember
      exact absurd hbase List.not_mem_nil

end LibrarySet

/-! ## What corresponding documents find -/

namespace Linkage

variable {r : Renumbering} {area : Area} {state state' : Linkage} {others others' : List SourceUnit}

/-- All that the document can name lies in the area. -/
lemma Matches.among (h : Matches r area state state') (within : state.unit.Within area)
    (encloses : state.libraries.Encloses area.near) : state.Among area.near where
  library := within.library
  kernel := h.libraries.kernel
  scopes := within.scopes
  parents := encloses.parents h.libraries.identified
  words :=
    ⟨fun name hname => h.libraries.near name (within.imports name hname),
      fun ty hty first rest hpath hrest =>
        h.libraries.near first.name (within.types ty hty first rest hpath hrest)⟩

lemma Matches.imported (h : Matches r area state state') (within : state.unit.Within area) :
    state'.imported.1 = state.imported.1.map (r.scope state.unit.library) ∧
      state.imported.2.Renumbered r state'.imported.2 := by
  have hblock := LinkImports.renumbered_block h.libraries within.library
    state.unit.path Arena.root []
    state.unit.tree.root within.imports
  rw [h.libraries.place_root, List.map_nil] at hblock
  rwa [Linkage.imported, Linkage.imported, h.unit.library, h.unit.path, h.unit.tree]

/-- The contexts in which a declaration and the corresponding one are linked. -/
lemma Matches.context (h : Matches r area state state') (options : LinkOptions)
    (scope : DeclScope) :
    (state.context options scope).Matches r
      (state'.context options (r.scope state.unit.library scope)) where
  document := h.unit.path
  space := by
    simp only [Linkage.context, h.unit.library]
    rfl
  imports := rfl
  within := rfl

/-- What a pass finds for the declarations of a document corresponds if it does for each of them. -/
lemma Matches.found (h : Matches r area state state') (options : LinkOptions)
    {find : Context → DeclId → DeclNode → Findings}
    (hfind : ∀ scope ∈ state.unit.scopes, ∀ id node,
      (id, node) ∈ state.unit.declarations.zip state.unit.nodes →
      (find (state.context options scope) id node).Renumbered r
        (find (state'.context options (r.scope state.unit.library scope)) (r.decl id) node)) :
    (state.found options find).Renumbered r (state'.found options find) := by
  unfold Linkage.found
  rw [h.unit.declarations, h.unit.nodes, h.unit.scopes, List.zip_map_left, List.zip_map,
    List.map_map]
  refine .join_map fun x hx => ?_
  obtain ⟨hpair, hscope⟩ := List.of_mem_zip hx
  exact hfind x.2 hscope x.1.1 x.1.2 hpair

lemma Matches.foundBases (h : Matches r area state state') (within : state.unit.Within area)
    (encloses : state.libraries.Encloses area.near)
    (arranged : state.libraries.Arranged (state.unit :: others)) (options : LinkOptions) :
    (state.found options LinkBases.findings).Renumbered r
      (state'.found options LinkBases.findings) := by
  refine h.found options fun scope hscope id node hpair => ?_
  obtain ⟨-, -, -, -, hnode⟩ := arranged.settled.paired List.mem_cons_self hpair
  refine LinkBases.renumbered_findings ?_ id fun ty hty =>
    within.types ty (List.mem_flatMap.2 ⟨node, hnode, hty⟩)
  exact (h.context options scope).parallel_outside h.libraries
    ((h.among within encloses).context options hscope) (fun _ => rfl) arranged.legible rfl

lemma Matches.foundSignatures (h : Matches r area state state') (within : state.unit.Within area)
    (encloses : state.libraries.Encloses area.near)
    (arranged : state.libraries.Arranged (state.unit :: others)) (options : LinkOptions) :
    (state.found options LinkSignatures.findings).Renumbered r
      (state'.found options LinkSignatures.findings) := by
  refine h.found options fun scope hscope id node hpair => ?_
  obtain ⟨-, -, hlibrary, -, hnode⟩ := arranged.settled.paired List.mem_cons_self hpair
  exact LinkSignatures.renumbered_findings (h.libraries.mono Entry.shape_content r.shape_entry)
    (h.context options scope) ((h.among within encloses).context options hscope) arranged.legible
    (hlibrary ▸ within.library) fun ty hty =>
      within.types ty (List.mem_flatMap.2 ⟨node, hnode, hty⟩)

end Linkage

/-! ## Members -/

namespace LinkMembers

variable (r : Renumbering)

lemma memberId_decl {id : DeclId} (htop : id.category.isMember = false) {m : MemberNode}
    (hm : m.category.owner? = some id.category) :
    memberId (r.decl id) m = r.decl (memberId id m) := by
  obtain ⟨library, category, index, define⟩ := id
  have howner : category.owner? = none := by simpa [Category.isMember] using htop
  rw [memberId, memberId, r.decl_member library m.position index hm]
  simp [Renumbering.decl, howner]

lemma member_decl (document : String) {id : DeclId} (htop : id.category.isMember = false)
    {entry : Entry} (hid : entry.id = id) {m : MemberNode}
    (hm : m.category.owner? = some id.category) :
    member document (r.decl id) (r.entry entry) m = r.member (member document id entry m) := by
  subst hid
  simp only [member, Member.new, Symbol.declare, memberId_decl r htop hm, Renumbering.member,
    Renumbering.symbol, Symbol.map, r.category_decl, r.leaf_fresh]
  rfl

lemma foldl_addMember_map (members : List Member) (body : Body) :
    (members.map r.member).foldl (fun body m => addMember m body) (r.body body)
      = r.body (members.foldl (fun body m => addMember m body) body) := by
  induction members generalizing body with
  | nil => rfl
  | cons m rest ih =>
    have hadd : addMember (r.member m) (r.body body) = r.body (addMember m body) := by
      have hcategory : (r.member m).category = m.category := r.category_decl m.id
      rw [addMember, addMember, hcategory]
      exact (r.body_overMembers body _ fun list => by simp).symm
    rw [List.map_cons, List.foldl_cons, List.foldl_cons, hadd, ih]

end LinkMembers

lemma Edit.atSeat_declare (r : Renumbering) (document : String) {id : DeclId}
    (htop : id.category.isMember = false) {node : DeclNode} (hnode : id.category = node.category)
    {entry : Entry} (hid : entry.id = id) :
    (Edit.declare document (r.decl id) node).atSeat (r.decl id) (r.entry entry)
      = r.entry ((Edit.declare document id node).atSeat id entry) := by
  have hmembers : node.memberNodes.map (LinkMembers.member document (r.decl id) (r.entry entry))
      = (node.memberNodes.map (LinkMembers.member document id entry)).map r.member := by
    rw [List.map_map]
    exact List.map_congr_left fun m hm => LinkMembers.member_decl r document htop hid
      (hnode ▸ (DeclNode.position_lt hm).1)
  have howner : id.owner? = none := DeclId.owner?_of_top htop
  have howner' : (r.decl id).owner? = none := by rw [r.owner?_decl, howner]; rfl
  simp only [Edit.atSeat, howner, howner', Edit.declare, hmembers]
  have hbody := LinkMembers.foldl_addMember_map r
    (node.memberNodes.map (LinkMembers.member document id entry)) entry.body
  simp only [Renumbering.entry, Renumbering.symbol, Symbol.map] at hbody ⊢
  rw [hbody]

namespace Linkage

variable {r : Renumbering} {area : Area} {state state' : Linkage}
  {others others' units : List SourceUnit}

/-- Members are made from the identity, the name and the namespace of their owner. -/
lemma matches_declareFor (settled : state.libraries.Settled units) {unit : SourceUnit}
    (hunit : unit ∈ units) {pair : DeclId × DeclNode}
    (hpair : pair ∈ unit.declarations.zip unit.nodes)
    (hnear : area.near unit.library) (h : Matches r area state state') :
    Matches r area (LinkMembers.declareFor state pair)
        (LinkMembers.declareFor state' (r.decl pair.1, pair.2)) ∧
      ∃ occurrences, (LinkMembers.declareFor state pair).unit.occurrences
          = state.unit.occurrences ++ occurrences ∧
        (LinkMembers.declareFor state' (r.decl pair.1, pair.2)).unit.occurrences
          = state'.unit.occurrences ++ occurrences.map r.occurrence := by
  obtain ⟨id, node⟩ := pair
  obtain ⟨hnode, -, -, hdecl, -⟩ := settled.paired hunit hpair
  obtain ⟨heq, htop, record, hrecord, hid⟩ := settled.declared hunit hdecl
  have hlibrary : id.library = unit.library := congrArg DeclId.library heq
  have howner : id.owner? = none := DeclId.owner?_of_top htop
  have howner' : (r.decl id).owner? = none := by rw [r.owner?_decl, howner]; rfl
  rw [← hlibrary] at hrecord hnear
  have hfind : state.libraries.find? id = some record := by
    rw [LibrarySet.find?_eq h.libraries.identified, DeclId.seat_of_top htop, hrecord,
      Option.bind_some, DeclId.part?, howner]
  have hfind' := h.libraries.find?_top hnear howner
  rw [hfind, Option.map_some] at hfind'
  obtain ⟨record', hrecord', hcontent⟩ := Option.map_eq_some_iff.1 hfind'
  -- A member is built from the owner's content, which is renumbered, and from the node.
  have hmember (m : MemberNode) (hm : m ∈ node.memberNodes) :
      LinkMembers.member state'.unit.path (r.decl id) record' m
        = r.member (LinkMembers.member state.unit.path id record m) := by
    rw [h.unit.path]
    exact (congrArg (LinkMembers.member state.unit.path (r.decl id) · m) hcontent).trans
      (@LinkMembers.member_decl r state.unit.path id htop record.content hid m
        (hnode ▸ (DeclNode.position_lt hm).1))
  have hproblem : LinkMembers.nameProblem? record' = LinkMembers.nameProblem? record := by
    have hname := congrArg Symbol.name hcontent
    change record'.name = record.name at hname
    funext m
    rw [LinkMembers.nameProblem?, LinkMembers.nameProblem?, hname]
  refine ⟨⟨?_, ?_⟩, ?_⟩
  · rw [libraries_declareFor state howner, libraries_declareFor state' howner', h.unit.path]
    refine h.libraries.edit_content (fun _ => rfl) (fun _ => rfl) (Edit.onContents_declare ..)
      (Edit.onContents_declare ..) fun entry hentry => ?_
    rw [DeclId.seat_of_top htop, hrecord] at hentry
    obtain rfl := Option.some.inj hentry
    exact @Edit.atSeat_declare r state.unit.path id htop node hnode record.content hid
  · simp only [LinkMembers.declareFor, hfind, hrecord', hproblem]
    exact { h.unit with marks := Diagnostics.marks_append h.unit.marks .link rfl }
  · simp only [LinkMembers.declareFor, hfind, hrecord']
    refine ⟨_, rfl, ?_⟩
    rw [List.map_congr_left hmember, List.map_map, List.map_map, List.map_map]
    rfl

/-- What declaring the members of one declaration makes of related states it also makes of them
for all declarations of a document. -/
lemma declareMembers_related {R : Linkage → Linkage → Prop}
    (hunit : state.unit.Matches r state'.unit)
    (settled : state.libraries.Settled (state.unit :: others)) (h : R state state')
    (hstep : ∀ {mid mid' : Linkage} {pair}, mid.libraries.Settled (state.unit :: others) →
      pair ∈ state.unit.declarations.zip state.unit.nodes → R mid mid' →
      R (LinkMembers.declareFor mid pair) (LinkMembers.declareFor mid' (r.decl pair.1, pair.2))) :
    R state.declareMembers state'.declareMembers := by
  have hall (pairs : List (DeclId × DeclNode)) (mid mid' : Linkage)
      (settled : mid.libraries.Settled (state.unit :: others))
      (hpairs : ∀ pair ∈ pairs, pair ∈ state.unit.declarations.zip state.unit.nodes)
      (h : R mid mid') : R (pairs.foldl LinkMembers.declareFor mid)
        ((pairs.map fun pair => (r.decl pair.1, pair.2)).foldl LinkMembers.declareFor mid') := by
    induction pairs generalizing mid mid' with
    | nil => exact h
    | cons pair rest ih =>
      exact ih _ _ (settled.of_skeleton_eq (sameSkeleton_declareFor mid pair).1 rfl)
        (fun p hp => hpairs p (List.mem_cons_of_mem _ hp))
        (hstep settled (hpairs pair List.mem_cons_self) h)
  have hpairs : state'.unit.declarations.zip state'.unit.nodes
      = (state.unit.declarations.zip state.unit.nodes).map fun pair => (r.decl pair.1, pair.2) := by
    rw [hunit.declarations, hunit.nodes, List.zip_map_left]
    rfl
  unfold declareMembers
  rw [hpairs]
  exact hall _ state state' settled (fun _ hpair => hpair) h

end Linkage

/-! ## Passes -/

/-- Over documents with the property `Q`, the pass keeps models and documents related. -/
def Linkage.Preserves (Q : SourceUnit → Prop) (S : LibrarySet → LibrarySet → Prop)
    (U : SourceUnit → SourceUnit → Prop) (pass : Linkage → Linkage) : Prop :=
  ∀ {state state' others others'}, state.libraries.Arranged (state.unit :: others) →
    state'.libraries.Arranged (state'.unit :: others') → Q state.unit → Q state'.unit →
    S state.libraries state'.libraries → U state.unit state'.unit →
    S (pass state).libraries (pass state').libraries ∧ U (pass state).unit (pass state').unit

namespace Linkages

variable {Q Q' : SourceUnit → Prop} {S : LibrarySet → LibrarySet → Prop}
  {U : SourceUnit → SourceUnit → Prop} {pass : Linkage → Linkage} {others others' : List SourceUnit}
  {state state' : Linkages}

/-- Related documents, with the property `Q`, in related well-formed models. -/
structure Related (Q : SourceUnit → Prop) (S : LibrarySet → LibrarySet → Prop)
    (U : SourceUnit → SourceUnit → Prop) (others others' : List SourceUnit)
    (state state' : Linkages) : Prop where
  arranged : state.libraries.Arranged (state.units ++ others)
  arranged' : state'.libraries.Arranged (state'.units ++ others')
  ready : ∀ unit ∈ state.units, Q unit
  ready' : ∀ unit ∈ state'.units, Q unit
  libraries : S state.libraries state'.libraries
  units : List.Forall₂ U state.units state'.units

lemma Related.applyPass (related : Related Q S U others others' state state')
    (preserves : Linkage.Preserves Q S U pass)
    (hpass : ∀ {state : Linkage} {others}, state.libraries.Arranged (state.unit :: others) →
      Q state.unit → (pass state).libraries.Arranged ((pass state).unit :: others) ∧
        Q' (pass state).unit) :
    Related Q' S U others others' (state.applyPass pass) (state'.applyPass pass) := by
  obtain ⟨set, units⟩ := state
  obtain ⟨set', units'⟩ := state'
  obtain ⟨arranged, arranged', ready, ready', hset, hunits⟩ := related
  dsimp only at arranged arranged' ready ready' hset hunits
  have hafter {set : LibrarySet} {units others : List SourceUnit}
      (arranged : set.Arranged (units ++ others)) (ready : ∀ unit ∈ units, Q unit) :=
    each_induction pass LibrarySet.Arranged Q Q' LibrarySet.Arranged.perm
      (fun arranged hunit => hpass arranged hunit) arranged ready
  obtain ⟨harranged, hready⟩ := hafter arranged ready
  obtain ⟨harranged', hready'⟩ := hafter arranged' ready'
  suffices hrelated : S (each pass set units).libraries (each pass set' units').libraries ∧
      List.Forall₂ U (each pass set units).units (each pass set' units').units from
    ⟨harranged, harranged', hready, hready', hrelated.1, hrelated.2⟩
  clear harranged harranged' hready hready'
  -- Unit by unit: a unit that is done moves over to the others, which the arrangement covers.
  induction hunits generalizing set set' others others' with
  | nil => exact ⟨hset, .nil⟩
  | @cons unit unit' rest rest' hunit _ ih =>
    have hfirst := ready unit List.mem_cons_self
    have hfirst' := ready' unit' List.mem_cons_self
    obtain ⟨hlibraries, hunit⟩ := @preserves ⟨set, unit⟩ ⟨set', unit'⟩ _ _ arranged arranged' hfirst
      hfirst' hset hunit
    obtain ⟨hlibraries, hrest⟩ := ih _ _
      ((hpass arranged hfirst).1.perm List.perm_middle.symm)
      ((hpass arranged' hfirst').1.perm List.perm_middle.symm)
      (fun other hother => ready other (List.mem_cons_of_mem _ hother))
      (fun other hother => ready' other (List.mem_cons_of_mem _ hother)) hlibraries
    exact ⟨hlibraries, .cons hunit hrest⟩

/-- What the four passes keep related is related after linking. -/
lemma Related.link (related : Related SourceUnit.Undeclared S U others others' state state')
    (options : LinkOptions) (himports : Linkage.Preserves (fun _ => True) S U Linkage.linkImports)
    (hmembers : Linkage.Preserves SourceUnit.Undeclared S U Linkage.declareMembers)
    (hbases : Linkage.Preserves (fun _ => True) S U (·.linkBases options))
    (hsignatures : Linkage.Preserves (fun _ => True) S U (·.linkSignatures options)) :
    Related (fun _ => True) S U others others' (state.link options) (state'.link options) := by
  have k₁ : Related SourceUnit.Undeclared S U others others'
      (state.applyPass Linkage.linkImports) (state'.applyPass Linkage.linkImports) :=
    related.applyPass (fun arranged arranged' _ _ => himports arranged arranged' trivial trivial)
      fun arranged undeclared =>
        ⟨Linkage.writesFindings_linkImports.indifferent.arranged arranged trivial,
          Linkage.undeclared_linkImports undeclared⟩
  have k₂ := @Related.applyPass _ (fun _ => True) _ _ _ _ _ _ _ k₁ hmembers
    fun arranged undeclared =>
      ⟨Linkage.indifferent_declareMembers.arranged arranged undeclared, trivial⟩
  have k₃ := @Related.applyPass _ (fun _ => True) _ _ _ _ _ _ _ k₂ hbases fun arranged _ =>
    ⟨(Linkage.writesFindings_linkBases options).indifferent.arranged arranged trivial, trivial⟩
  exact k₃.applyPass hsignatures fun arranged _ =>
    ⟨(Linkage.writesFindings_linkSignatures options).indifferent.arranged arranged trivial, trivial⟩

end Linkages

/-! ## Linking documents that match -/

namespace Linkage

variable {r : Renumbering} {area : Area} {state state' : Linkage} {others others' : List SourceUnit}
  {near : LibraryId → Prop}

/-- A document becomes the heir of what it inherits, so if it finds what is near only, its bases are
near. -/
lemma encloses_apply (arranged : state.libraries.Arranged (state.unit :: others)) {found : Findings}
    (among : found.Among state.libraries near state.unit.path state.unit.declarations)
    (paired : found.Paired) (encloses : state.libraries.Encloses near) :
    (state.apply found).libraries.Encloses near := by
  obtain ⟨hkins, -, -⟩ := kin?_apply arranged.orderly among (define_declarations arranged.settled)
  intro id kin hnear hkin base hbase
  rw [show (state.apply found).libraries.kin? id = _ from
    hkins ⟨id.library, id.category, id.index, none⟩ rfl] at hkin
  obtain ⟨old, hold, rfl⟩ := Option.map_eq_some_iff.1 hkin
  rw [Body.bases_overImplementors] at hbase
  rcases Update.mem_bases_onKin hbase with hbase | ⟨update, hupdate, -, hmine⟩
  · exact encloses id old hnear hold base hbase
  · exact (among.heirs (paired update hupdate base hmine).1).1.2

/-- What is found for matching documents, written down in matching models. -/
lemma preserves_apply (arranged : state.libraries.Arranged (state.unit :: others))
    (h : Matches r area state state') (within : state.unit.Within area)
    (encloses : state.libraries.Encloses area.near) {found found' : Findings}
    (among : found.Among state.libraries area.near state.unit.path state.unit.declarations)
    (paired : found.Paired) (hfound : found.Renumbered r found') :
    ((state.apply found).libraries.Matches Entry.content r area (state'.apply found').libraries ∧
        (state.apply found).libraries.Encloses area.near) ∧
      (state.apply found).unit.Matches r (state'.apply found').unit ∧
        (state.apply found).unit.Within area := by
  obtain ⟨hlibraries, hunit⟩ := matches_apply h hfound
  refine ⟨⟨hlibraries, encloses_apply arranged among paired encloses⟩, hunit,
    within.of_skeleton_eq (sameSkeleton_apply state found).2 ?_⟩
  rw [scopes_apply]
  exact within.scopes

/-- Contents that match in an area that the model encloses. -/
abbrev Contents (r : Renumbering) (area : Area) (set set' : LibrarySet) : Prop :=
  set.Matches Entry.content r area set' ∧ set.Encloses area.near

/-- Documents that match and keep within an area. -/
abbrev Documents (r : Renumbering) (area : Area) (unit unit' : SourceUnit) : Prop :=
  unit.Matches r unit' ∧ unit.Within area

lemma preserves_linkImports :
    Preserves (fun _ => True) (Contents r area) (Documents r area) linkImports := by
  rintro state state' others others' arranged arranged' - - ⟨hset, encloses⟩ ⟨hunit, within⟩
  have h : Matches r area state state' := ⟨hset, hunit⟩
  obtain ⟨hscopes, hfound⟩ := h.imported within
  obtain ⟨among, hnear⟩ := (h.among within encloses).imported arranged.legible
  obtain ⟨-, hupdates⟩ := imported_idle arranged.legible
  have hready : state.libraries.Arranged
      ({ state.unit with scopes := state.imported.1 } :: others) :=
    arranged.step rfl rfl (fun h => h) (.refl arranged.orderly)
  rw [linkImports_eq arranged.settled, linkImports_eq arranged'.settled]
  exact @preserves_apply r area { state with unit :=
    { state.unit with scopes := state.imported.1 } }
    { state' with unit := { state'.unit with scopes := state'.imported.1 } } _ hready
    ⟨hset, { hunit with scopes := hscopes }⟩ { within with scopes := hnear } encloses _ _ among
    (by simp [Findings.Paired, hupdates]) hfound

lemma preserves_declareMembers :
    Preserves SourceUnit.Undeclared (Contents r area) (Documents r area) declareMembers := by
  rintro state state' others others' arranged - - - ⟨hset, encloses⟩ ⟨hunit, within⟩
  have h : Matches r area state.declareMembers state'.declareMembers :=
    declareMembers_related hunit arranged.settled ⟨hset, hunit⟩ fun settled hpair h =>
      (matches_declareFor settled List.mem_cons_self hpair within.library h).1
  refine ⟨⟨h.libraries, encloses.of_kin_eq fun id _ =>
    (sameKin_declareMembers arranged.orderly.identified).kin id⟩, h.unit,
    within.of_skeleton_eq (sameSkeleton_declareMembers state).2 ?_⟩
  rw [(linked_declareMembers state).1]
  exact within.scopes

lemma preserves_linkBases (options : LinkOptions) :
    Preserves (fun _ => True) (Contents r area) (Documents r area) (·.linkBases options) := by
  rintro state state' others others' arranged - - - ⟨hset, encloses⟩ ⟨hunit, within⟩
  have h : Matches r area state state' := ⟨hset, hunit⟩
  exact preserves_apply arranged h within encloses
    ((h.among within encloses).foundBases arranged options) (state.paired_foundBases options)
    (h.foundBases within encloses arranged options)

lemma preserves_linkSignatures (options : LinkOptions) :
    Preserves (fun _ => True) (Contents r area) (Documents r area) (·.linkSignatures options) := by
  rintro state state' others others' arranged - - - ⟨hset, encloses⟩ ⟨hunit, within⟩
  have h : Matches r area state state' := ⟨hset, hunit⟩
  exact preserves_apply arranged h within encloses
    ((h.among within encloses).foundSignatures arranged options)
    (state.paired_foundSignatures options) (h.foundSignatures within encloses arranged options)

end Linkage

/-- Linking matching documents into models that match. -/
theorem Linkages.matches_link {r : Renumbering} {area : Area} {others others' : List SourceUnit}
    {state state' : Linkages} (related : Related SourceUnit.Undeclared (Linkage.Contents r area)
      (Linkage.Documents r area) others others' state state') (options : LinkOptions) :
    Related (fun _ => True) (Linkage.Contents r area) (Linkage.Documents r area) others others'
      (state.link options) (state'.link options) :=
  related.link options Linkage.preserves_linkImports Linkage.preserves_declareMembers
    (Linkage.preserves_linkBases options) (Linkage.preserves_linkSignatures options)

/-! ## Linking copies -/

namespace Linkage

variable {r : Renumbering} {state state' : Linkage} {others others' : List SourceUnit}

/-- What the contents of a model and the document at hand are copied to, they match. -/
lemma Copies.matches (copies : Copies r state state') : Matches r .all state state' :=
  ⟨copies.libraries.contents, copies.unit.toMatches⟩

lemma copies_linkImports : Preserves (fun _ => True) (LibrarySet.Copies r) (SourceUnit.Copies r)
    linkImports := by
  rintro state state' others others' arranged arranged' - - hset hunit
  have copies : Copies r state state' := ⟨arranged.orderly, arranged'.orderly, hset, hunit⟩
  obtain ⟨hscopes, hfound⟩ := copies.matches.imported state.unit.within_all
  obtain ⟨hamong, -⟩ := state.among_everywhere.imported arranged.legible
  obtain ⟨hamong', -⟩ := state'.among_everywhere.imported arranged'.legible
  have hready : state.libraries.Arranged
      ({ state.unit with scopes := state.imported.1 } :: others) :=
    arranged.step rfl rfl (fun h => h) (.refl arranged.orderly)
  have hready' : state'.libraries.Arranged
      ({ state'.unit with scopes := state'.imported.1 } :: others') :=
    arranged'.step rfl rfl (fun h => h) (.refl arranged'.orderly)
  rw [linkImports_eq arranged.settled, linkImports_eq arranged'.settled]
  have hafter := @copies_apply r ⟨_, { state.unit with scopes := state.imported.1 }⟩
    ⟨_, { state'.unit with scopes := state'.imported.1 }⟩ _ _ _ _
    ⟨copies.orderly, copies.orderly', copies.libraries, { copies.unit with scopes := hscopes }⟩
    hready hready' _ _ hamong hamong' hfound
  exact ⟨hafter.libraries, hafter.unit⟩

/-- What a pass finds for the declarations of a document and of its copy, written down. -/
lemma copies_found {find : Context → DeclId → DeclNode → Findings} {options : LinkOptions}
    (hamong : ∀ {state : Linkage} {others}, state.libraries.Arranged (state.unit :: others) →
      (state.found options find).Among state.libraries (fun _ => True) state.unit.path
        state.unit.declarations)
    (hfound : ∀ {state state' : Linkage} {others}, state.libraries.Arranged (state.unit :: others) →
      Matches r .all state state' →
      (state.found options find).Renumbered r (state'.found options find)) :
    Preserves (fun _ => True) (LibrarySet.Copies r) (SourceUnit.Copies r)
      (·.linkEach options find) := by
  rintro state state' others others' arranged arranged' - - hset hunit
  have copies : Copies r state state' := ⟨arranged.orderly, arranged'.orderly, hset, hunit⟩
  have hafter := copies_apply copies arranged arranged' (hamong arranged) (hamong arranged')
    (hfound arranged copies.matches)
  exact ⟨hafter.libraries, hafter.unit⟩

lemma copies_linkBases (options : LinkOptions) :
    Preserves (fun _ => True) (LibrarySet.Copies r) (SourceUnit.Copies r) (·.linkBases options) :=
  copies_found (fun {state _} arranged => state.among_everywhere.foundBases arranged options)
    fun {state _ _} arranged h => h.foundBases state.unit.within_all
      state.libraries.encloses_everything arranged options

lemma copies_linkSignatures (options : LinkOptions) :
    Preserves (fun _ => True) (LibrarySet.Copies r) (SourceUnit.Copies r)
      (·.linkSignatures options) :=
  copies_found (fun {state _} arranged => state.among_everywhere.foundSignatures arranged options)
    fun {state _ _} arranged h => h.foundSignatures state.unit.within_all
      state.libraries.encloses_everything arranged options

lemma unit_declareFor (state : Linkage) (pair : DeclId × DeclNode) :
    ∃ occurrences diagnostics, (LinkMembers.declareFor state pair).unit
      = { state.unit with occurrences, diagnostics } := by
  obtain ⟨id, node⟩ := pair
  simp only [LinkMembers.declareFor]
  split <;> exact ⟨_, _, rfl⟩

/-- Members are made from what corresponds, and go to the declarations of their own document. -/
lemma copies_declareMembers : Preserves SourceUnit.Undeclared (LibrarySet.Copies r)
    (SourceUnit.Copies r) declareMembers := by
  rintro state state' others others' arranged arranged' undeclared undeclared' hset hunit
  obtain ⟨hcontents, hafter⟩ := @declareMembers_related r state state' others
    (fun state state' => state.libraries.Matches Entry.content r .all state'.libraries ∧
      state.unit.Copies r state'.unit) hunit.toMatches arranged.settled ⟨hset.contents, hunit⟩
    fun {mid mid' pair} settled hpair h => by
      obtain ⟨hmatches, occurrences, hnew, hnew'⟩ :=
        matches_declareFor settled List.mem_cons_self hpair
        (trivial : Area.all.near state.unit.library) ⟨h.1, h.2.toMatches⟩
      obtain ⟨_, _, hunit⟩ := unit_declareFor mid pair
      obtain ⟨_, _, hunit'⟩ := unit_declareFor mid' (r.decl pair.1, pair.2)
      refine ⟨hmatches.libraries, hmatches.unit, ?_, ?_, ?_⟩
      · rw [hunit', hunit]
        exact h.2.spaces
      · rw [hnew, hnew', h.2.occurrences, List.map_append]
      · rw [hunit', hunit]
        exact h.2.links
  exact ⟨hset.widen (widens_declareMembers arranged undeclared)
    (widens_declareMembers arranged' undeclared')
    (sameKin_declareMembers arranged.orderly.identified)
    (sameKin_declareMembers arranged'.orderly.identified) hcontents, hafter⟩

end Linkage

/-- Linking documents and linking copies of them. -/
theorem Linkages.copies_link {r : Renumbering} {others others' : List SourceUnit}
    {state state' : Linkages} (related : Related SourceUnit.Undeclared (LibrarySet.Copies r)
      (SourceUnit.Copies r) others others' state state') (options : LinkOptions) :
    Related (fun _ => True) (LibrarySet.Copies r) (SourceUnit.Copies r) others others'
      (state.link options) (state'.link options) :=
  related.link options Linkage.copies_linkImports Linkage.copies_declareMembers
    (Linkage.copies_linkBases options) (Linkage.copies_linkSignatures options)

end SymbolGraph
