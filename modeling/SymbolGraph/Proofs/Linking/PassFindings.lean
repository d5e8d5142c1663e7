import SymbolGraph.Proofs.Lookup.Soundness

/-!
# What the link passes find

The three passes that resolve names read the model, so what they find is among live targets of the
libraries that their document can name.  The document's own words decide which these are:
`FileTree.Keeps` says that no import directive and no dotted type of a tree begins with a library
outside `near`.  Members are met under the identities that their owner's lists give them, so every
update goes to a declaration of the document itself.
-/

namespace SymbolGraph

/-! ## The words of a tree -/

/-- The types written in a function. -/
def FunctionNode.types (node : FunctionNode) : List TypeRef :=
  node.params.map ParamNode.ty ++ node.returns

/-- The types written in a declaration and its members. -/
def DeclNode.types : DeclNode → List TypeRef
  | .variable node => [node.ty]
  | .function node | .native node => node.types
  | .enum _ => []
  | .struct node => node.fields.map VariableNode.ty ++ node.functions.flatMap FunctionNode.types
  | .interface node => node.inherits ++ node.functions.flatMap FunctionNode.types
  | .class node =>
    node.inherits ++ node.fields.map VariableNode.ty ++
      node.constructors.flatMap (fun c => c.params.map ParamNode.ty) ++
      node.functions.flatMap FunctionNode.types
  | .delegate node => node.params.map ParamNode.ty ++ node.returns
  | .task node => node.returns

/-- All types written in a document. -/
def FileTree.types (tree : FileTree) : List TypeRef := tree.root.nodes.flatMap DeclNode.types

/-- No import directive and no dotted type begins with a library outside `near`. -/
structure FileTree.Keeps (tree : FileTree) (set : LibrarySet) (near : LibraryId → Prop) : Prop where
  imports : ∀ name ∈ tree.root.importRoots, ∀ library, set.named? name = some library →
    near library
  types : ∀ ty ∈ tree.types, set.Leads near ty.path

/-! ## Import directives -/

namespace LinkImports

variable {set : LibrarySet} {near : LibraryId → Prop} {library : LibraryId}

lemma finds_descend (legible : set.Legible) {space : SpaceRef} (hnear : near space.library)
    (path : List Ident) {steps : List (Range × SpaceRef)}
    (h : descend set space path = some steps) :
    ∀ step ∈ steps, set.Finds near (.space step.2) := by
  induction path generalizing space steps with
  | nil =>
    obtain rfl : [] = steps := by simpa [descend] using h
    simp
  | cons segment rest ih =>
    simp only [descend, Option.bind_eq_bind, Option.bind_eq_some_iff, Option.pure_def,
      Option.some.injEq] at h
    obtain ⟨child, hchild, more, hmore, rfl⟩ := h
    have hfinds : set.Finds near (.space child) := legible.finds_child hchild hnear
    intro step hstep
    rcases List.mem_cons.1 hstep with rfl | hstep
    · exact hfinds
    · exact ih hfinds.2 hmore step hstep

/-- The namespaces along a directive. -/
lemma finds_resolve? (legible : set.Legible) (hlibrary : near library) (hkernel : near .kernel)
    {directive : ImportNode}
    (hnamed : ∀ name, directive.path.head?.map Ident.name = some name →
      ∀ library, set.named? name = some library → near library)
    {steps : List (Range × SpaceRef)} (h : resolve? set library directive = some steps) :
    ∀ step ∈ steps, set.Finds near (.space step.2) := by
  unfold resolve? at h
  split at h
  · simp at h
  · next first rest hpath =>
    simp only [Option.bind_eq_bind, Option.bind_eq_some_iff, Option.pure_def,
      Option.some.injEq] at h
    obtain ⟨start, hstart, more, hmore, rfl⟩ := h
    -- A directive starts at a library of this name, at a namespace of its own library, or in the
    -- kernel.
    have hfinds : set.Finds near (.space start) := by
      unfold start? at hstart
      cases hfirst : (set.named? first.name).bind set.root? with
      | some root =>
        obtain rfl : root = start := by simpa [hfirst] using hstart
        obtain ⟨named, hname, hroot⟩ := Option.bind_eq_some_iff.1 hfirst
        exact legible.finds_root hroot (hnamed first.name (by simp [hpath]) named hname)
      | none =>
        cases hsecond : (set.root? library).bind fun root => set.child? root first.name with
        | some child =>
          obtain rfl : child = start := by simpa [hfirst, hsecond] using hstart
          obtain ⟨root, hroot, hchild⟩ := Option.bind_eq_some_iff.1 hsecond
          exact legible.finds_child hchild (legible.finds_root hroot hlibrary).2
        | none =>
          have hthird : set.child? LibrarySet.kernelRoot first.name = some start := by
            simpa [hfirst, hsecond] using hstart
          exact legible.finds_child hthird hkernel
    intro step hstep
    rcases List.mem_cons.1 hstep with rfl | hstep
    · exact hfinds
    · exact finds_descend legible hfinds.2 rest hmore step hstep

lemma among_findings (legible : set.Legible) (hlibrary : near library) (hkernel : near .kernel)
    {directive : ImportNode}
    (hnamed : ∀ name, directive.path.head?.map Ident.name = some name →
      ∀ library, set.named? name = some library → near library)
    (document : String) (own : List DeclId) :
    (findings set library document directive).Among set near document own := by
  unfold findings
  split
  · next steps hsteps =>
    refine ⟨?_, by simp, by simp⟩
    intro target location h
    obtain ⟨step, hstep, heq⟩ := List.mem_map.1 h
    obtain ⟨rfl, rfl⟩ := Prod.mk.inj heq
    exact ⟨finds_resolve? legible hlibrary hkernel hnamed hsteps step hstep, rfl⟩
  · exact Findings.among_diagnostic _

lemma near_inEffect (legible : set.Legible) (hlibrary : near library) (hkernel : near .kernel)
    {directives : List ImportNode}
    (hnamed : ∀ name ∈ directives.filterMap (fun node => node.path.head?.map Ident.name),
      ∀ library, set.named? name = some library → near library)
    {outer : List SpaceRef} (houter : ∀ scope ∈ outer, near scope.library) :
    ∀ scope ∈ inEffect set library outer directives, near scope.library := by
  intro scope hscope
  rcases (mem_addAllNew _ _ _).1 hscope with h | h
  · exact houter scope h
  · obtain ⟨directive, hdirective, himported⟩ := List.mem_filterMap.1 h
    obtain ⟨steps, hsteps, hlast⟩ := Option.bind_eq_some_iff.1 himported
    obtain ⟨step, hstep, rfl⟩ := Option.map_eq_some_iff.1 hlast
    have hname : ∀ name, directive.path.head?.map Ident.name = some name →
        ∀ library, set.named? name = some library → near library :=
      fun name h => hnamed name (List.mem_filterMap.2 ⟨directive, hdirective, h⟩)
    exact (finds_resolve? legible hlibrary hkernel hname hsteps step (List.mem_of_getLast? hstep)).2

mutual

/-- The findings for the directives of a block, and the imports of its scopes. -/
theorem among_block (legible : set.Legible) (hlibrary : near library) (hkernel : near .kernel)
    (document : String) (own : List DeclId) (space : SpaceId) {outer : List SpaceRef}
    (houter : ∀ scope ∈ outer, near scope.library) : (node : SpaceNode) →
    (∀ name ∈ node.importRoots, ∀ library, set.named? name = some library → near library) →
    (block set library document space outer node).2.Among set near document own ∧
      ∀ scope ∈ (block set library document space outer node).1,
        ∀ imported ∈ scope.imports, near imported.library
  | ⟨_, imports, children, declarations⟩, hnamed => by
    rw [SpaceNode.importRoots] at hnamed
    have hinner := near_inEffect legible hlibrary hkernel
      (fun name h => hnamed name (List.mem_append_left _ h)) houter
    obtain ⟨hnested, hscopes⟩ := among_blocks legible hlibrary hkernel document own space hinner
      children fun name h => hnamed name (List.mem_append_right _ h)
    rw [block]
    refine ⟨Findings.Among.append ?_ hnested, ?_⟩
    · refine Findings.among_join fun found hfound => ?_
      obtain ⟨directive, hdirective, rfl⟩ := List.mem_map.1 hfound
      exact among_findings legible hlibrary hkernel (fun name h => hnamed name
        (List.mem_append_left _ (List.mem_filterMap.2 ⟨directive, hdirective, h⟩))) document own
    · intro scope hscope
      rcases List.mem_append.1 hscope with h | h
      · exact hscopes scope h
      · obtain ⟨-, -, rfl⟩ := List.mem_map.1 h
        exact hinner

theorem among_blocks (legible : set.Legible) (hlibrary : near library) (hkernel : near .kernel)
    (document : String) (own : List DeclId) (space : SpaceId) {outer : List SpaceRef}
    (houter : ∀ scope ∈ outer, near scope.library) : (children : List SpaceNode) →
    (∀ name ∈ SpaceNode.importRootsOf children, ∀ library, set.named? name = some library →
      near library) →
    (blocks set library document space outer children).2.Among set near document own ∧
      ∀ scope ∈ (blocks set library document space outer children).1,
        ∀ imported ∈ scope.imports, near imported.library
  | [], _ => ⟨Findings.among_empty, by simp [blocks]⟩
  | child :: rest, hnamed => by
    rw [SpaceNode.importRootsOf] at hnamed
    obtain ⟨hothers, hscopes⟩ := among_blocks legible hlibrary hkernel document own space houter
      rest fun name h => hnamed name (List.mem_append_right _ h)
    rw [blocks]
    cases hblock : blockSpace? set library space child.name with
    | none => exact ⟨Findings.among_empty.append hothers, by simpa [hblock] using hscopes⟩
    | some id =>
      obtain ⟨hfirst, hown⟩ := among_block legible hlibrary hkernel document own id houter child
        fun name h => hnamed name (List.mem_append_left _ h)
      refine ⟨hfirst.append hothers, ?_⟩
      intro scope hscope
      rcases List.mem_append.1 hscope with h | h
      · exact hown scope h
      · exact hscopes scope h

end

end LinkImports

/-! ## Bases -/

namespace LinkBases

variable {ctx : Context} {near : LibraryId → Prop} {own : List DeclId}

lemma among_base (among : ctx.Among near) (legible : ctx.libraries.Legible) {id : DeclId}
    (hown : id ∈ own) {written : TypeRef} (hleads : ctx.libraries.Leads near written.path)
    (role : Role) : (Base.findings id ⟨written, ctx.resolveType written, role⟩).Among
      ctx.libraries near ctx.document own := by
  obtain ⟨hfound, hdeclaration⟩ := among.resolveType legible own hleads
  refine hfound.append ?_
  have hheirs : Findings.Among
      { heirs := (ctx.resolveType written).value.declaration?.toList.map fun base => (base, id) }
      ctx.libraries near ctx.document own := by
    refine ⟨by simp, ?_, by simp⟩
    intro base heir h
    obtain ⟨base', hbase, heq⟩ := List.mem_map.1 h
    obtain ⟨rfl, rfl⟩ := Prod.mk.inj heq
    exact ⟨hdeclaration base' (by simpa using hbase), hown⟩
  cases role with
  | parent => exact hheirs
  | interface => exact hheirs
  | unresolved => exact Findings.among_empty
  | refused message => exact Findings.among_diagnostic _

lemma among_findingsOf (among : ctx.Among near) (legible : ctx.libraries.Legible) {id : DeclId}
    (hown : id ∈ own) (htop : id.owner? = none) {bases : List Base}
    (hbases : ∀ base ∈ bases, base.resolved = ctx.resolveType base.written ∧
      ctx.libraries.Leads near base.written.path) :
    (findingsOf id bases).Among ctx.libraries near ctx.document own := by
  refine Findings.Among.append (Findings.among_join fun found hfound => ?_) ?_
  · obtain ⟨base, hbase, rfl⟩ := List.mem_map.1 hfound
    obtain ⟨written, resolved, role⟩ := base
    obtain ⟨hresolved, hleads⟩ := hbases _ hbase
    obtain rfl : resolved = ctx.resolveType written := hresolved
    exact among_base among legible hown hleads role
  · refine Findings.among_update trivial (by simpa [Update.target, DeclId.holder, htop]) ?_
    intro parent hparent
    obtain ⟨ty, hty, hdeclaration⟩ := Option.bind_eq_some_iff.1 hparent
    obtain ⟨base, hbase, hrole⟩ := List.exists_of_findSome?_eq_some hty
    obtain ⟨hresolved, hleads⟩ := hbases base hbase
    have hvalue : base.resolved.value = ty := by
      unfold Base.parent? at hrole
      split at hrole
      · exact Option.some.inj hrole
      · simp at hrole
    rw [← hvalue, hresolved] at hdeclaration
    exact ((among.resolveType legible own hleads).2 parent hdeclaration).2

lemma among_findings (among : ctx.Among near) (legible : ctx.libraries.Legible) {id : DeclId}
    (hown : id ∈ own) (htop : id.owner? = none) {node : DeclNode}
    (hleads : ∀ ty ∈ node.types, ctx.libraries.Leads near ty.path) :
    (findings ctx id node).Among ctx.libraries near ctx.document own := by
  cases node with
  | interface node =>
    refine among_findingsOf among legible hown htop fun base hbase => ?_
    obtain ⟨ref, href, rfl⟩ := List.mem_map.1 hbase
    exact ⟨rfl, hleads ref (List.mem_append_left _ href)⟩
  | «class» node =>
    refine among_findingsOf among legible hown htop fun base hbase => ?_
    obtain ⟨⟨ref, position⟩, href, rfl⟩ := List.mem_map.1 hbase
    have hmem : ref ∈ node.inherits := List.fst_mem_of_mem_zipIdx href
    refine ⟨rfl, hleads ref ?_⟩
    simp [DeclNode.types, hmem]
  | _ => exact Findings.among_empty

end LinkBases

/-! ## Signatures -/

namespace LinkSignatures

variable {ctx : Context} {near : LibraryId → Prop} {own : List DeclId}

lemma among_variable (among : ctx.Among near) (legible : ctx.libraries.Legible) {target : DeclId}
    (hown : target.holder ∈ own) (hfits : target.category.OwnsNothing) {node : VariableNode}
    (hleads : ctx.libraries.Leads near node.ty.path) :
    (ofVariable ctx target node).Among ctx.libraries near ctx.document own :=
  (among.resolveType legible own hleads).1.append
    (Findings.among_update hfits hown (by simp [Update.parent?]))

lemma among_callable (among : ctx.Among near) (legible : ctx.libraries.Legible) {target : DeclId}
    (hown : target.holder ∈ own) {params : List ParamNode} {returns : List TypeRef}
    (hparams : ∀ param ∈ params, ctx.libraries.Leads near param.ty.path)
    (hreturns : ∀ ty ∈ returns, ctx.libraries.Leads near ty.path) :
    (ofCallable ctx target params returns).Among ctx.libraries near ctx.document own :=
  ((among.resolveParams legible own hparams).append
    (among.resolveTypes legible own hreturns)).append
    (Findings.among_update trivial hown (by simp [Update.parent?]))

lemma among_function (among : ctx.Among near) (legible : ctx.libraries.Legible) {target : DeclId}
    (hown : target.holder ∈ own) {node : FunctionNode}
    (hleads : ∀ ty ∈ node.types, ctx.libraries.Leads near ty.path) :
    (ofFunction ctx target node).Among ctx.libraries near ctx.document own :=
  among_callable among legible hown
    (fun _ hparam => hleads _ (List.mem_append_left _ (List.mem_map_of_mem hparam)))
    (fun ty hty => hleads ty (List.mem_append_right _ hty))

/-- The members of a declaration under their identities. -/
lemma memberIds_spec (legible : ctx.libraries.Legible) {owner member : DeclId}
    (htop : owner.owner? = none) (hdefine : owner.define = none) {category : Category}
    (h : member ∈ memberIds ctx owner category) :
    member.category = category ∧ member.holder = owner := by
  unfold memberIds at h
  obtain ⟨m, hm, rfl⟩ := List.mem_map.1 h
  cases hfind : ctx.libraries.find? owner with
  | none => simp [hfind] at hm
  | some entry =>
    rw [hfind, Option.bind_some] at hm
    cases hlist : entry.body.members? category with
    | none => simp [hlist] at hm
    | some list =>
      rw [hlist, Option.getD_some] at hm
      obtain ⟨j, hj⟩ := List.mem_iff_getElem?.1 hm
      rcases legible.find?_cases hfind with hslot | ⟨other, rfl⟩
      · obtain ⟨howner, hid, -⟩ := legible.find?_member hslot hlist hj
        refine ⟨by rw [hid], ?_⟩
        obtain ⟨library, category', index, define⟩ := owner
        obtain rfl : define = none := hdefine
        simp only [DeclId.seat, htop] at howner hid
        simp [DeclId.holder, DeclId.owner?, hid, howner]
      · simp [Member.toEntry, Body.members?] at hlist

lemma among_members {α : Type} (legible : ctx.libraries.Legible) {owner : DeclId}
    (htop : owner.owner? = none) (hdefine : owner.define = none) (hown : owner ∈ own)
    {category : Category} {nodes : List α} {find : DeclId → α → Findings}
    (hfind : ∀ member node, member.category = category → member.holder ∈ own → node ∈ nodes →
      (find member node).Among ctx.libraries near ctx.document own) :
    (ofMembers ctx owner category nodes find).Among ctx.libraries near ctx.document own := by
  refine Findings.among_join fun found hfound => ?_
  obtain ⟨⟨node, member⟩, hpair, rfl⟩ := List.mem_map.1 hfound
  obtain ⟨hcategory, hholder⟩ := memberIds_spec legible htop hdefine (List.of_mem_zip hpair).2
  exact hfind member node hcategory (hholder ▸ hown) (List.of_mem_zip hpair).1

/-- The types of fields are looked up inside the declaration that has them. -/
lemma among_fields (among : ctx.Among near) (legible : ctx.libraries.Legible) {id : DeclId}
    (hown : id ∈ own) (htop : id.owner? = none) (hdefine : id.define = none)
    (hnear : near id.library) {category : Category} (hfits : category.OwnsNothing)
    {fields : List VariableNode}
    (hleads : ∀ field ∈ fields, ctx.libraries.Leads near field.ty.path) :
    (ofMembers ctx id category fields (ofVariable { ctx with within := some id })).Among
      ctx.libraries near ctx.document own := by
  refine among_members legible htop hdefine hown fun member field hmember hmine hfield => ?_
  rw [← hmember] at hfits
  exact among_variable (among.inside hnear) legible hmine hfits (hleads field hfield)

/-- So are those of functions. -/
lemma among_functions (among : ctx.Among near) (legible : ctx.libraries.Legible) {id : DeclId}
    (hown : id ∈ own) (htop : id.owner? = none) (hdefine : id.define = none)
    (hnear : near id.library) {category : Category} {functions : List FunctionNode}
    (hleads : ∀ ty ∈ functions.flatMap FunctionNode.types, ctx.libraries.Leads near ty.path) :
    (ofMembers ctx id category functions (ofFunction { ctx with within := some id })).Among
      ctx.libraries near ctx.document own := by
  refine among_members legible htop hdefine hown fun member function _ hmine hfunction => ?_
  exact among_function (among.inside hnear) legible hmine fun ty hty =>
    hleads ty (List.mem_flatMap.2 ⟨function, hfunction, hty⟩)

lemma among_findings (among : ctx.Among near) (legible : ctx.libraries.Legible) {id : DeclId}
    (hown : id ∈ own) (hdefine : id.define = none) {node : DeclNode}
    (hcategory : id.category = node.category) (hnear : near id.library)
    (hleads : ∀ ty ∈ node.types, ctx.libraries.Leads near ty.path) :
    (findings ctx id node).Among ctx.libraries near ctx.document own := by
  have htop : id.owner? = none := DeclId.owner?_of_top (by rw [hcategory]; simp)
  have hholder : id.holder ∈ own := by simpa [DeclId.holder, htop] using hown
  -- An update of these categories writes a leaf, and no record with members is overwritten by one.
  have hfits : ∀ c ∈ [Category.variable, .structVariable, .classVariable, .task],
      c.OwnsNothing := by
    intro c hc m
    cases m <;> revert hc <;> cases c <;> simp [Category.owner?]
  -- What is found for a node is put together from what is found for its types.
  cases node with
  | «variable» node =>
    refine among_variable among legible hholder (hfits _ ?_) (hleads _ (by simp [DeclNode.types]))
    simp [hcategory, DeclNode.category]
  | function node => exact among_function among legible hholder hleads
  | native node => exact among_function among legible hholder hleads
  | delegate node =>
    exact among_callable among legible hholder
      (fun _ hparam => hleads _ (List.mem_append_left _ (List.mem_map_of_mem hparam)))
      (fun ty hty => hleads ty (List.mem_append_right _ hty))
  | task node =>
    refine (among.resolveTypes legible own hleads).append
      (Findings.among_update (hfits _ ?_) hholder (by simp [Update.parent?]))
    simp [hcategory, DeclNode.category]
  | enum node => exact Findings.among_empty
  | struct node =>
    exact (among_fields among legible hown htop hdefine hnear (hfits .structVariable (by simp))
        fun field hfield => hleads _ (List.mem_append_left _ (List.mem_map_of_mem hfield))).append
      (among_functions among legible hown htop hdefine hnear fun ty hty =>
        hleads ty (List.mem_append_right _ hty))
  | interface node =>
    exact among_functions among legible hown htop hdefine hnear fun ty hty =>
      hleads ty (List.mem_append_right _ hty)
  | «class» node =>
    refine Findings.Among.append (Findings.Among.append
      (among_fields among legible hown htop hdefine
      hnear (hfits .classVariable (by simp)) fun field hfield => hleads _ ?_)
      (among_members legible htop hdefine hown ?_))
      (among_functions among legible hown htop hdefine hnear fun ty hty =>
        hleads ty (List.mem_append_right _ hty))
    · have hty : field.ty ∈ node.fields.map VariableNode.ty := List.mem_map_of_mem hfield
      simp [DeclNode.types, hty]
    · intro member constructor hmember hmine hconstructor
      refine among_callable (among.inside hnear) legible hmine (fun param hparam => hleads _ ?_)
        (by simp)
      have hty : param.ty ∈ node.constructors.flatMap fun c => c.params.map ParamNode.ty :=
        List.mem_flatMap.2 ⟨constructor, hconstructor, List.mem_map_of_mem hparam⟩
      simp only [DeclNode.types, List.mem_append, hty, true_or, or_true]

end LinkSignatures

end SymbolGraph
