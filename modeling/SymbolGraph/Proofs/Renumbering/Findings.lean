import SymbolGraph.Proofs.Inheritance.Rebuilds
import SymbolGraph.Proofs.Renumbering.Correspondence

/-!
# What linking finds, under other numbers

In matching states the link passes find the same things for a declaration, under the new numbers
(`Findings.Renumbered`): the same references, heirs and updates, in the same order, and reports with
the same marks.  Only what the reports say may differ, since they list what a name could mean.
-/

namespace SymbolGraph

/-! ## Single types -/

lemma TypeRef.citation?_perm (r : Renumbering) (ty : TypeRef) {ids ids' : List DeclId}
    (h : ids'.Perm (ids.map r.decl)) :
    ty.citation? ids' = (ty.citation? ids).map fun cited => (cited.1, r.decl cited.2) := by
  match ids, ids', h with
  | [], ids', h => rw [List.perm_nil.1 h]; rfl
  | [id], ids', h =>
    rw [List.perm_singleton.1 h]
    simp [TypeRef.citation?, Function.comp_def]
  | _ :: _ :: _, [], h => simp at h
  | _ :: _ :: _, [_], h => simpa using h.length_eq
  | _ :: _ :: _, _ :: _ :: _, _ => rfl

namespace Findings

/-- The same references, heirs and updates under the new numbers, and reports with the same
marks. -/
structure Renumbered (r : Renumbering) (found found' : Findings) : Prop where
  references : found'.references = found.references.map fun pair => (r.target pair.1, pair.2)
  heirs : found'.heirs = found.heirs.map fun pair => (r.decl pair.1, r.decl pair.2)
  updates : found'.updates = found.updates.map r.update
  marks : found'.diagnostics.map Diagnostic.mark = found.diagnostics.map Diagnostic.mark

namespace Renumbered

variable {r : Renumbering}

lemma empty : Renumbered r {} {} := ⟨rfl, rfl, rfl, rfl⟩

lemma ofUpdate (update : Update) : Renumbered r (.ofUpdate update) (.ofUpdate (r.update update)) :=
  ⟨rfl, rfl, rfl, rfl⟩

lemma ofDiagnostic {d d' : Diagnostic} (h : d'.mark = d.mark) :
    Renumbered r (.ofDiagnostic d) (.ofDiagnostic d') :=
  ⟨rfl, rfl, rfl, congrArg (fun mark => [mark]) h⟩

lemma append {a b a' b' : Findings} (h : Renumbered r a a') (k : Renumbered r b b') :
    Renumbered r (a ++ b) (a' ++ b') := by
  refine ⟨?_, ?_, ?_, ?_⟩
  · simp [h.references, k.references]
  · simp [h.heirs, k.heirs]
  · simp [h.updates, k.updates]
  · simp [h.marks, k.marks]

lemma join {all all' : List Findings} (h : List.Forall₂ (Renumbered r) all all') :
    Renumbered r (Findings.join all) (Findings.join all') := by
  induction h with
  | nil => exact empty
  | cons h _ ih => exact h.append ih

/-- Findings collected over one list. -/
lemma join_map {α : Type} {xs : List α} {f f' : α → Findings}
    (h : ∀ x ∈ xs, Renumbered r (f x) (f' x)) :
    Renumbered r (Findings.join (xs.map f)) (Findings.join (xs.map f')) := by
  refine join ?_
  rw [List.forall₂_map_left_iff, List.forall₂_map_right_iff]
  exact List.forall₂_same.2 h

end Renumbered

end Findings

namespace Context.Parallel

variable {r : Renumbering} {area : Area} {ctx ctx' : Context}
  (parallel : Parallel r.decl r.ref area ctx ctx')

include parallel

lemma resolveType {ty : TypeRef} (hty : area.Covers ty.path) :
    (ctx.resolveType ty).found.Renumbered r (ctx'.resolveType ty).found := by
  have hlocate : ctx'.locate = ctx.locate := by
    funext range
    rw [Context.locate, parallel.document]
    rfl
  have like := parallel.findPath hty
  refine ⟨?_, ?_, ?_, ?_⟩
  · rw [Context.references_resolveType, Context.references_resolveType, like.spaces,
      ty.citation?_perm r like.declarations, hlocate]
    simp [Renumbering.target, Option.toList_map, Function.comp_def]
  · rw [Context.heirs_resolveType, Context.heirs_resolveType]
    rfl
  · rw [Context.updates_resolveType, Context.updates_resolveType]
    rfl
  · rw [Context.marks_resolveType, Context.marks_resolveType, like.marks,
      ty.complaint_perm r like.declarations]

lemma resolveTypes {types : List TypeRef} (htypes : ∀ ty ∈ types, area.Covers ty.path) :
    (ctx'.resolveTypes types).value = (ctx.resolveTypes types).value.map r.ty ∧
      (ctx.resolveTypes types).found.Renumbered r (ctx'.resolveTypes types).found := by
  simp only [Context.resolveTypes, List.map_map]
  exact ⟨List.map_congr_left fun ty hty => parallel.value_resolveType (htypes ty hty),
    .join_map fun ty hty => parallel.resolveType (htypes ty hty)⟩

lemma resolveParams {params : List ParamNode}
    (hparams : ∀ param ∈ params, area.Covers param.ty.path) :
    (ctx'.resolveParams params).value = (ctx.resolveParams params).value.map r.parameter ∧
      (ctx.resolveParams params).found.Renumbered r (ctx'.resolveParams params).found := by
  simp only [Context.resolveParams, List.map_map]
  refine ⟨List.map_congr_left fun param hparam => ?_,
    .join_map fun param hparam => parallel.resolveType (hparams param hparam)⟩
  simp [parallel.value_resolveType (hparams param hparam), Renumbering.parameter]

end Context.Parallel

/-! ## Bases -/

namespace LinkBases

variable {r : Renumbering}

/-- The same inherited type under the new numbers. -/
structure Base.Renumbered (r : Renumbering) (base base' : Base) : Prop where
  written : base'.written = base.written
  role : base'.role = base.role
  value : base'.resolved.value = r.ty base.resolved.value
  found : base.resolved.found.Renumbered r base'.resolved.found

lemma Base.Renumbered.parent? {base base' : Base} (h : base.Renumbered r base') :
    base'.parent? = base.parent?.map r.ty := by
  unfold Base.parent?
  rw [h.role, h.value]
  cases base.role <;> rfl

lemma Base.Renumbered.interface? {base base' : Base} (h : base.Renumbered r base') :
    base'.interface? = base.interface?.map r.ty := by
  unfold Base.interface?
  rw [h.role, h.value]
  cases base.role <;> rfl

lemma Base.Renumbered.findings {base base' : Base} (h : base.Renumbered r base') (heir : DeclId) :
    (Base.findings heir base).Renumbered r (Base.findings (r.decl heir) base') := by
  unfold Base.findings
  refine h.found.append ?_
  rw [h.written, h.role, h.value]
  cases base.role with
  | unresolved => exact .empty
  | refused message => exact .ofDiagnostic rfl
  | parent =>
    exact ⟨rfl, by simp [r.declaration?_ty, Option.toList_map, Function.comp_def], rfl, rfl⟩
  | interface =>
    exact ⟨rfl, by simp [r.declaration?_ty, Option.toList_map, Function.comp_def], rfl, rfl⟩

lemma Base.Renumbered.findingsOf {bases bases' : List Base}
    (h : List.Forall₂ (Base.Renumbered r) bases bases') (id : DeclId) :
    (LinkBases.findingsOf id bases).Renumbered r (LinkBases.findingsOf (r.decl id) bases') := by
  have hparent : bases'.findSome? Base.parent? = (bases.findSome? Base.parent?).map r.ty := by
    induction h with
    | nil => rfl
    | cons h _ ih =>
      rw [List.findSome?_cons, List.findSome?_cons, h.parent?, ih]
      cases Base.parent? _ <;> rfl
  have hinherits : bases'.filterMap Base.interface?
      = (bases.filterMap Base.interface?).map r.ty := by
    clear hparent
    induction h with
    | nil => rfl
    | cons h _ ih =>
      rw [List.filterMap_cons, List.filterMap_cons, h.interface?]
      cases Base.interface? _ <;> simp [ih]
  unfold LinkBases.findingsOf
  rw [hparent, hinherits]
  refine .append (.join ?_) (.ofUpdate _)
  rw [List.forall₂_map_left_iff, List.forall₂_map_right_iff]
  exact h.imp fun _ _ h => h.findings id

lemma roleForInterface_ty (r : Renumbering) (written : TypeRef) (ty : Ty) :
    roleForInterface written (r.ty ty) = roleForInterface written ty := rfl

lemma roleForClass_ty (r : Renumbering) (position : Nat) (written : TypeRef) (ty : Ty) :
    roleForClass position written (r.ty ty) = roleForClass position written ty := rfl

variable {area : Area} {ctx ctx' : Context}

/-- Where names mean corresponding things, the bases that are found correspond. -/
lemma renumbered_findings (parallel : ctx.Parallel r.decl r.ref area ctx') (id : DeclId)
    {node : DeclNode} (hnode : ∀ ty ∈ node.types, area.Covers ty.path) :
    (findings ctx id node).Renumbered r (findings ctx' (r.decl id) node) := by
  have hbases {α : Type} (xs : List α) (written : α → TypeRef) (role : α → Ty → Role)
      (hwritten : ∀ x ∈ xs, area.Covers (written x).path)
      (hrole : ∀ x ty, role x (r.ty ty) = role x ty) :
      List.Forall₂ (Base.Renumbered r)
        (xs.map fun x => ⟨written x, ctx.resolveType (written x),
          role x (ctx.resolveType (written x)).value⟩)
        (xs.map fun x => ⟨written x, ctx'.resolveType (written x),
          role x (ctx'.resolveType (written x)).value⟩) := by
    rw [List.forall₂_map_left_iff, List.forall₂_map_right_iff]
    refine List.forall₂_same.2 fun x hx => ⟨rfl, ?_, parallel.value_resolveType (hwritten x hx),
      parallel.resolveType (hwritten x hx)⟩
    rw [parallel.value_resolveType (hwritten x hx), hrole]
  cases node with
  | interface node =>
    refine Base.Renumbered.findingsOf (hbases node.inherits (fun ref => ref) roleForInterface
      (fun ty hty => hnode ty ?_) (roleForInterface_ty r)) id
    simp [DeclNode.types, hty]
  | «class» node =>
    refine Base.Renumbered.findingsOf (hbases node.inherits.zipIdx Prod.fst
      (fun x => roleForClass x.2 x.1) (fun x hx => hnode x.1 ?_) fun x =>
        roleForClass_ty r x.2 x.1) id
    have hmem : x.1 ∈ node.inherits.zipIdx.map Prod.fst := List.mem_map_of_mem hx
    rw [List.zipIdx_map_fst] at hmem
    simp [DeclNode.types, hmem]
  | _ => exact .empty

end LinkBases

/-! ## Signatures -/

namespace LinkSignatures

variable {r : Renumbering} {area : Area} {ctx ctx' : Context}

lemma renumbered_ofVariable (parallel : ctx.Parallel r.decl r.ref area ctx') (target : DeclId)
    {node : VariableNode} (hnode : area.Covers node.ty.path) :
    (ofVariable ctx target node).Renumbered r (ofVariable ctx' (r.decl target) node) := by
  unfold ofVariable
  dsimp only
  rw [parallel.value_resolveType hnode]
  exact (parallel.resolveType hnode).append (.ofUpdate _)

lemma renumbered_ofCallable (parallel : ctx.Parallel r.decl r.ref area ctx') (target : DeclId)
    {params : List ParamNode} {returns : List TypeRef}
    (htypes : ∀ ty ∈ params.map ParamNode.ty ++ returns, area.Covers ty.path) :
    (ofCallable ctx target params returns).Renumbered r
      (ofCallable ctx' (r.decl target) params returns) := by
  obtain ⟨hparams, hparamsFound⟩ := parallel.resolveParams fun param hparam =>
    htypes param.ty (List.mem_append_left _ (List.mem_map_of_mem hparam))
  obtain ⟨hreturns, hreturnsFound⟩ := parallel.resolveTypes fun ty hty =>
    htypes ty (List.mem_append_right _ hty)
  unfold ofCallable
  dsimp only
  rw [hparams, hreturns]
  exact (hparamsFound.append hreturnsFound).append (.ofUpdate _)

variable (h : ctx.libraries.Matches Entry.shape r area ctx'.libraries)

include h

lemma memberIds_decl {owner : DeclId} (hnear : area.near owner.library) (category : Category) :
    memberIds ctx' (r.decl owner) category = (memberIds ctx owner category).map r.decl := by
  have hread (ctx : Context) (owner : DeclId) : memberIds ctx owner category
      = ((((ctx.libraries.find? owner).map Entry.shape).bind fun entry =>
          entry.body.members? category).getD []).map Symbol.id := by
    unfold memberIds
    cases ctx.libraries.find? owner with
    | none => rfl
    | some entry =>
      have hlist : entry.shape.body.members? category
          = (entry.body.members? category).map (List.map Member.header) :=
        entry.body.members?_shape _
      simp only [Option.map_some, Option.bind_some, hlist]
      cases entry.body.members? category with
      | none => rfl
      | some list => simp [Member.header, Function.comp_def]
  rw [hread ctx', hread ctx, h.find?_shape hnear]
  cases ctx.libraries.find? owner with
  | none => rfl
  | some entry =>
    simp only [Option.map_some, Option.bind_some, r.body_entry, r.members?_body]
    cases entry.shape.body.members? category with
    | none => rfl
    | some list => simp [Function.comp_def]

lemma renumbered_ofMembers {α : Type} {owner : DeclId} (hnear : area.near owner.library)
    (category : Category) {nodes : List α} {find find' : DeclId → α → Findings}
    (hfind : ∀ id, ∀ node ∈ nodes, (find id node).Renumbered r (find' (r.decl id) node)) :
    (ofMembers ctx owner category nodes find).Renumbered r
      (ofMembers ctx' (r.decl owner) category nodes find') := by
  unfold ofMembers
  rw [memberIds_decl h hnear, List.zip_map_right, List.map_map]
  exact .join_map fun pair hpair => hfind pair.2 pair.1 (List.of_mem_zip hpair).1

/-- In matching states the signatures that are found for a declaration correspond. -/
lemma renumbered_findings (m : ctx.Matches r ctx') (among : ctx.Among area.near)
    (legible : ctx.libraries.Legible) {id : DeclId} (hnear : area.near id.library) {node : DeclNode}
    (hnode : ∀ ty ∈ node.types, area.Covers ty.path) :
    (findings ctx id node).Renumbered r (findings ctx' (r.decl id) node) := by
  have outer : ctx.Parallel r.decl r.ref area ctx' := m.parallel h among legible
  have inner : Context.Parallel r.decl r.ref area { ctx with within := some id }
      { ctx' with within := some (r.decl id) } :=
    Context.Matches.parallel h ⟨m.document, m.space, m.imports, rfl⟩ (among.inside hnear) legible
  -- Members resolve their types inside the record, hence the second context; every type of the node
  -- is covered since it stands in one of its lists.
  unfold findings
  cases node with
  | «variable» node => exact renumbered_ofVariable outer id (hnode _ (by simp [DeclNode.types]))
  | function node | native node => exact renumbered_ofCallable outer id hnode
  | delegate node => exact renumbered_ofCallable outer id hnode
  | task node =>
    obtain ⟨hvalue, hfound⟩ := @Context.Parallel.resolveTypes _ _ _ _ outer node.returns hnode
    dsimp only
    rw [hvalue]
    exact hfound.append (.ofUpdate _)
  | enum node => exact .empty
  | struct node =>
    refine .append (renumbered_ofMembers h hnear _ fun id field hfield =>
        renumbered_ofVariable inner id (hnode _ ?_))
      (renumbered_ofMembers h hnear _ fun id function hfunction =>
        renumbered_ofCallable inner id fun ty hty => hnode ty ?_)
    · exact List.mem_append_left _ (List.mem_map_of_mem hfield)
    · exact List.mem_append_right _ (List.mem_flatMap.2 ⟨function, hfunction, hty⟩)
  | interface node =>
    refine renumbered_ofMembers h hnear _ fun id function hfunction =>
      renumbered_ofCallable inner id fun ty hty => hnode ty ?_
    exact List.mem_append_right _ (List.mem_flatMap.2 ⟨function, hfunction, hty⟩)
  | «class» node =>
    refine .append (.append (renumbered_ofMembers h hnear _ fun id field hfield =>
        renumbered_ofVariable inner id (hnode _ ?_))
      (renumbered_ofMembers h hnear _ fun id constructor hconstructor =>
        renumbered_ofCallable inner id fun ty hty => hnode ty ?_))
      (renumbered_ofMembers h hnear _ fun id function hfunction =>
        renumbered_ofCallable inner id fun ty hty => hnode ty ?_)
    · simp only [DeclNode.types, List.mem_append, List.mem_map]
      exact .inl (.inl (.inr ⟨field, hfield, rfl⟩))
    · simp only [DeclNode.types, List.mem_append, List.mem_flatMap]
      exact .inl (.inr ⟨constructor, hconstructor, by simpa using hty⟩)
    · simp only [DeclNode.types, List.mem_append, List.mem_flatMap]
      exact .inr ⟨function, hfunction, hty⟩

end LinkSignatures

/-! ## Import directives -/

/-- A scope under the new numbers. -/
def Renumbering.scope (r : Renumbering) (library : LibraryId) (scope : DeclScope) : DeclScope :=
  ⟨r.place library scope.space, scope.imports.map r.ref⟩

namespace LinkImports

variable {v : Entry → Entry} {r : Renumbering} {area : Area} {set set' : LibrarySet}
  (h : set.Matches v r area set')

include h

lemma descend_ref (path : List Ident) {space : SpaceRef} (hnear : area.near space.library) :
    descend set' (r.ref space) path
      = (descend set space path).map (List.map fun step => (step.1, r.ref step.2)) ∧
    ∀ steps, descend set space path = some steps → ∀ step ∈ steps, area.near step.2.library := by
  induction path generalizing space with
  | nil =>
    refine ⟨rfl, fun steps hsteps => ?_⟩
    rw [← Option.some.inj hsteps]
    simp
  | cons segment rest ih =>
    simp only [descend, h.child? hnear]
    cases hchild : set.child? space segment.name with
    | none => exact ⟨rfl, fun steps hsteps => by cases hsteps⟩
    | some child =>
      have hbelow : area.near child.library := Context.library_child? hchild ▸ hnear
      obtain ⟨heq, hrest⟩ := ih hbelow
      simp only [Option.map_some, Option.bind_eq_bind, Option.bind_some, heq]
      cases hsteps : descend set child rest with
      | none => exact ⟨rfl, fun steps hsteps => by cases hsteps⟩
      | some more =>
        refine ⟨rfl, fun steps heq step hstep => ?_⟩
        rw [← Option.some.inj heq] at hstep
        rcases List.mem_cons.1 hstep with rfl | hstep
        · exact hbelow
        · exact hrest more hsteps step hstep

variable {library : LibraryId} (hlibrary : area.near library)

include hlibrary

lemma start?_ref {name : String} (hname : area.known name) :
    start? set' (r.library library) name = (start? set library name).map r.ref ∧
      ∀ start, start? set library name = some start → area.near start.library := by
  have hkernel : set'.child? LibrarySet.kernelRoot name
      = (set.child? LibrarySet.kernelRoot name).map r.ref := by
    have hchild (parent : SpaceRef) (hparent : area.near parent.library) :
        set'.child? (r.ref parent) name = (set.child? parent name).map r.ref :=
          h.child? hparent name
    have hroot := hchild LibrarySet.kernelRoot h.kernel
    rwa [r.kernelRoot_ref] at hroot
  have hroot {library : LibraryId} {root : SpaceRef} (hroot : set.root? library = some root) :
      root.library = library := by
    obtain ⟨_, -, rfl⟩ := Option.map_eq_some_iff.1 hroot
    rfl
  have hown : ((set'.root? (r.library library)).bind fun root => set'.child? root name)
      = ((set.root? library).bind fun root => set.child? root name).map r.ref := by
    rw [h.root? hlibrary]
    cases hlib : set.root? library with
    | none => rfl
    | some root => exact h.child? (hroot hlib ▸ hlibrary) name
  unfold start?
  rw [h.root?_named hname, hown, hkernel]
  cases hfirst : (set.named? name).bind set.root? with
  | some root =>
    refine ⟨rfl, fun start hstart => ?_⟩
    obtain ⟨named, hnamed, hfound⟩ := Option.bind_eq_some_iff.1 hfirst
    rw [← Option.some.inj hstart, hroot hfound]
    exact h.near name hname named hnamed
  | none =>
    cases hsecond : (set.root? library).bind fun root => set.child? root name with
    | some child =>
      refine ⟨rfl, fun start hstart => ?_⟩
      obtain ⟨root, hfound, hchild⟩ := Option.bind_eq_some_iff.1 hsecond
      rw [← Option.some.inj hstart, Context.library_child? hchild, hroot hfound]
      exact hlibrary
    | none =>
      refine ⟨rfl, fun start hstart => ?_⟩
      have hchild : set.child? LibrarySet.kernelRoot name = some start := by simpa using hstart
      rw [Context.library_child? hchild]
      exact h.kernel

variable {directive : ImportNode}
  (hdirective : ∀ name, directive.path.head?.map Ident.name = some name → area.known name)

include hdirective

lemma resolve?_ref : resolve? set' (r.library library) directive
    = (resolve? set library directive).map (List.map fun step => (step.1, r.ref step.2)) := by
  unfold resolve?
  cases hpath : directive.path with
  | nil => rfl
  | cons first rest =>
    obtain ⟨heq, hnear⟩ := start?_ref h hlibrary (hdirective first.name (by simp [hpath]))
    simp only [heq]
    cases hstart : start? set library first.name with
    | none => rfl
    | some start =>
      simp only [Option.map_some, Option.bind_eq_bind, Option.bind_some,
        (descend_ref h rest (hnear start hstart)).1]
      cases descend set start rest <;> rfl

lemma renumbered_directive (document : String) :
    (findings set library document directive).Renumbered r
      (findings set' (r.library library) document directive) := by
  unfold findings
  rw [resolve?_ref h hlibrary hdirective]
  cases resolve? set library directive with
  | none => exact .ofDiagnostic rfl
  | some steps => exact ⟨by simp [Renumbering.target, Function.comp_def], rfl, rfl, rfl⟩

lemma imported?_ref : imported? set' (r.library library) directive
    = (imported? set library directive).map r.ref := by
  unfold imported?
  rw [resolve?_ref h hlibrary hdirective]
  cases resolve? set library directive with
  | none => rfl
  | some steps => simp [List.getLast?_map, Function.comp_def]

omit hdirective

lemma inEffect_ref (outer : List SpaceRef) {directives : List ImportNode}
    (hdirectives : ∀ name ∈ directives.filterMap (fun node => node.path.head?.map Ident.name),
      area.known name) :
    inEffect set' (r.library library) (outer.map r.ref) directives
      = (inEffect set library outer directives).map r.ref := by
  unfold inEffect
  rw [← addAllNew_map r.ref_injective, List.map_filterMap]
  refine congrArg _ (List.filterMap_congr fun directive hmem => imported?_ref h hlibrary
    fun name hname => hdirectives name (List.mem_filterMap.2 ⟨directive, hmem, hname⟩))

lemma blockSpace?_place (space : SpaceId) (name : Option Ident) :
    blockSpace? set' (r.library library) (r.place library space) name
      = (blockSpace? set library space name).map (r.place library) := by
  cases name with
  | none => rfl
  | some name =>
    have hread (set : LibrarySet) (library : LibraryId) (space : SpaceId) :
        blockSpace? set library space (some name)
          = (set.child? ⟨library, space⟩ name.name).map SpaceRef.space := by
      unfold blockSpace? LibrarySet.child?
      cases set.get? library with
      | none => rfl
      | some lib => cases hchild : lib.spaces.child? space name.name <;> simp [hchild]
    have hchild (parent : SpaceRef) (hparent : area.near parent.library) :
        set'.child? (r.ref parent) name.name = (set.child? parent name.name).map r.ref :=
      h.child? hparent name.name
    rw [hread set', hread set,
      show SpaceRef.mk (r.library library) (r.place library space)
        = r.ref ⟨library, space⟩ from rfl,
      hchild ⟨library, space⟩ hlibrary]
    cases hfound : set.child? ⟨library, space⟩ name.name with
    | none => rfl
    | some child => simp [Renumbering.ref, Context.library_child? hfound]

mutual

/-- In matching states the directives of a block mean corresponding namespaces. -/
theorem renumbered_block (document : String) (space : SpaceId) (outer : List SpaceRef) :
    (node : SpaceNode) → (∀ name ∈ node.importRoots, area.known name) →
      (block set' (r.library library) document (r.place library space) (outer.map r.ref) node).1
          = (block set library document space outer node).1.map (r.scope library) ∧
        (block set library document space outer node).2.Renumbered r
          (block set' (r.library library) document (r.place library space) (outer.map r.ref) node).2
  | ⟨_, imports, children, declarations⟩, hknown => by
    rw [SpaceNode.importRoots] at hknown
    have himports := fun name hname => hknown name (List.mem_append_left _ hname)
    obtain ⟨hscopes, hfound⟩ := renumbered_blocks document space
      (inEffect set library outer imports) children
      fun name hname => hknown name (List.mem_append_right _ hname)
    simp only [block, inEffect_ref h hlibrary outer himports]
    refine ⟨?_, ?_⟩
    · rw [hscopes, List.map_append, List.map_map]
      rfl
    · refine .append (.join_map fun directive hmem => ?_) hfound
      exact renumbered_directive h hlibrary (fun name hname =>
        himports name (List.mem_filterMap.2 ⟨directive, hmem, hname⟩)) document

theorem renumbered_blocks (document : String) (space : SpaceId) (outer : List SpaceRef) :
    (children : List SpaceNode) → (∀ name ∈ SpaceNode.importRootsOf children, area.known name) →
      (blocks set' (r.library library) document (r.place library space)
        (outer.map r.ref) children).1
          = (blocks set library document space outer children).1.map (r.scope library) ∧
        (blocks set library document space outer children).2.Renumbered r
          (blocks set' (r.library library) document (r.place library space) (outer.map r.ref)
            children).2
  | [], _ => ⟨rfl, .empty⟩
  | child :: rest, hknown => by
    rw [SpaceNode.importRootsOf] at hknown
    obtain ⟨hscopes, hfound⟩ := renumbered_blocks document space outer rest
      fun name hname => hknown name (List.mem_append_right _ hname)
    simp only [blocks, blockSpace?_place h hlibrary]
    cases blockSpace? set library space child.name with
    | none =>
      simp only [Option.map_none]
      exact ⟨by rw [hscopes]; rfl, .append .empty hfound⟩
    | some id =>
      obtain ⟨hfirst, hfirstFound⟩ := renumbered_block document id outer child
        fun name hname => hknown name (List.mem_append_left _ hname)
      simp only [Option.map_some]
      exact ⟨by rw [hfirst, hscopes, List.map_append], hfirstFound.append hfound⟩

end

end LinkImports

end SymbolGraph
