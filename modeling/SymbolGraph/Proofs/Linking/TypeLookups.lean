import SymbolGraph.Proofs.Linking.SimilarModels
import SymbolGraph.Proofs.Session.UntouchedDocuments

/-!
# The types that linking looks up

Linking looks every type that is written in a document up once: inherited types in the pass over
bases, all others in the pass over signatures, those of members from inside their declaration.  An
`Inquiry` is such a type with the context that it is looked up in, and `Linkages.inquiries` lists
them document by document, each in the state of the model that the pass meets there.

The references that a pass finds are those of its inquiries (`Linkage.references_foundBases`,
`Linkage.references_foundSignatures`).  So when documents have been linked, every inquiry that led
to one declaration alone has its place among the references of that declaration
(`Linkages.answers_link`).  Which document has recorded the place is another matter: a location is
written once, and it names a path, not a library.
-/

namespace SymbolGraph

/-! ## Inquiries -/

/-- A written type with the context that it is looked up in. -/
structure Inquiry where
  context : Context
  ty : TypeRef

namespace Inquiry

/-- The declarations that the type's name leads to. -/
def declarations (inquiry : Inquiry) : List DeclId :=
  (inquiry.context.findPath inquiry.ty.path).1.declarations

/-- The references that looking the type up comes to. -/
def references (inquiry : Inquiry) : List (Target × Location) :=
  (inquiry.context.resolveType inquiry.ty).found.references

/-- A name that leads to one declaration refers to it, with its last segment. -/
lemma cites {inquiry : Inquiry} {id : DeclId} (h : inquiry.declarations = [id]) :
    ∃ name, inquiry.ty.name? = some name ∧
      (.declaration id, inquiry.context.locate name.range) ∈ inquiry.references := by
  have hdeclarations : (inquiry.context.findPath inquiry.ty.path).1.declarations = [id] := h
  cases hname : inquiry.ty.name? with
  | none =>
    have hlast : inquiry.ty.path.getLast? = none := hname
    rw [Context.findPath, hlast] at hdeclarations
    cases hdeclarations
  | some name =>
    refine ⟨name, rfl, ?_⟩
    rw [references, Context.references_resolveType, hdeclarations]
    simp [TypeRef.citation?, hname]

end Inquiry

namespace DeclNode

/-- The types that a declaration inherits. -/
def inherited : DeclNode → List TypeRef
  | .interface node => node.inherits
  | .class node => node.inherits
  | _ => []

/-- The types of a declaration without members. -/
def ownTypes : DeclNode → List TypeRef
  | .variable node => [node.ty]
  | .function node | .native node => node.types
  | .delegate node => node.params.map ParamNode.ty ++ node.returns
  | .task node => node.returns
  | _ => []

/-- The types of the members of a declaration. -/
def memberTypes : DeclNode → List TypeRef
  | .struct node => node.fields.map VariableNode.ty ++ node.functions.flatMap FunctionNode.types
  | .interface node => node.functions.flatMap FunctionNode.types
  | .class node =>
    node.fields.map VariableNode.ty ++
      node.constructors.flatMap (fun c => c.params.map ParamNode.ty) ++
      node.functions.flatMap FunctionNode.types
  | _ => []

lemma types_eq (node : DeclNode) :
    node.types = node.inherited ++ (node.ownTypes ++ node.memberTypes) := by
  cases node <;> simp [types, inherited, ownTypes, memberTypes]

/-- What the pass over bases looks up for a declaration. -/
def baseInquiries (ctx : Context) (_ : DeclId) (node : DeclNode) : List Inquiry :=
  node.inherited.map (Inquiry.mk ctx)

lemma types_baseInquiries (ctx : Context) (id : DeclId) (node : DeclNode) :
    (node.baseInquiries ctx id).map Inquiry.ty = node.inherited := by
  rw [baseInquiries, List.map_map]
  exact List.map_id _

/-- What the pass over signatures looks up for a declaration: the types of members are looked up
from inside. -/
def signatureInquiries (ctx : Context) (id : DeclId) (node : DeclNode) : List Inquiry :=
  node.ownTypes.map (Inquiry.mk ctx) ++
    node.memberTypes.map (Inquiry.mk { ctx with within := some id })

lemma types_signatureInquiries (ctx : Context) (id : DeclId) (node : DeclNode) :
    (node.signatureInquiries ctx id).map Inquiry.ty = node.ownTypes ++ node.memberTypes := by
  simp [signatureInquiries, Function.comp_def]

end DeclNode

@[simp] lemma DeclNode.length_membersOf {α : Type} (category : Category) (name : α → Ident)
    (visibility : α → Visibility) (nodes : List α) :
    (membersOf category name visibility nodes).length = nodes.length := by
  rw [membersOf, List.length_map, List.length_zipIdx]

/-! ## References by inquiries -/

lemma LinkBases.references_findings (ctx : Context) (id : DeclId) (node : DeclNode) :
    (findings ctx id node).references
      = (node.baseInquiries ctx id).flatMap Inquiry.references := by
  have hbase (base : Base) : (base.findings id).references = base.resolved.found.references := by
    cases hrole : base.role <;> simp [Base.findings, hrole, Findings.ofDiagnostic]
  -- A base gives the references of its type, whichever role it plays.
  have hbases (bases : List Base) (written : List TypeRef)
      (h : bases.map Base.resolved = written.map ctx.resolveType) :
      (findingsOf id bases).references
        = (written.map (Inquiry.mk ctx)).flatMap Inquiry.references := by
    have hfound : (bases.map (Base.findings id)).flatMap Findings.references
        = (bases.map Base.resolved).flatMap fun resolved => resolved.found.references := by
      simp only [List.flatMap_map, hbase]
    simp only [findingsOf, Findings.references_append, Findings.references_join, hfound, h,
      List.flatMap_map, Findings.ofUpdate, List.append_nil]
    rfl
  cases node with
  | interface node =>
    refine hbases _ _ ?_
    rw [interfaceBases, List.map_map]
    rfl
  | «class» node =>
    refine hbases _ _ ?_
    have hfst : node.inherits.zipIdx.map Prod.fst = node.inherits := List.zipIdx_map_fst 0 _
    rw [classBases, List.map_map, DeclNode.inherited]
    conv_rhs => rw [← hfst, List.map_map]
    rfl
  | _ => rfl

namespace LinkSignatures

variable {ctx : Context}

lemma references_ofVariable (target : DeclId) (node : VariableNode) :
    (ofVariable ctx target node).references = Inquiry.references ⟨ctx, node.ty⟩ := by
  simp [ofVariable, Findings.ofUpdate, Inquiry.references]

lemma references_resolveTypes (types : List TypeRef) :
    (ctx.resolveTypes types).found.references
      = (types.map (Inquiry.mk ctx)).flatMap Inquiry.references := by
  simp only [Context.resolveTypes, Findings.references_join, List.flatMap_map]
  rfl

lemma references_ofCallable (target : DeclId) (params : List ParamNode) (returns : List TypeRef) :
    (ofCallable ctx target params returns).references
      = ((params.map ParamNode.ty ++ returns).map (Inquiry.mk ctx)).flatMap Inquiry.references := by
  have hparams : (ctx.resolveParams params).found.references
      = ((params.map ParamNode.ty).map (Inquiry.mk ctx)).flatMap Inquiry.references := by
    simp only [Context.resolveParams, Findings.references_join, List.flatMap_map, List.map_map]
    rfl
  simp only [ofCallable, Findings.references_append, hparams, references_resolveTypes,
    Findings.ofUpdate, List.append_nil, List.map_append, List.flatMap_append]

/-- Where every node has its member, the references of members are those of their types. -/
lemma references_ofMembers {α : Type} {owner : DeclId} {category : Category} {nodes : List α}
    (hlength : (memberIds ctx owner category).length = nodes.length) {find : DeclId → α → Findings}
    {inner : Context} {types : α → List TypeRef}
    (hfind : ∀ target node, (find target node).references
      = ((types node).map (Inquiry.mk inner)).flatMap Inquiry.references) :
    (ofMembers ctx owner category nodes find).references
      = ((nodes.flatMap types).map (Inquiry.mk inner)).flatMap Inquiry.references := by
  have hnodes : (nodes.zip (memberIds ctx owner category)).map Prod.fst = nodes :=
    List.map_fst_zip (le_of_eq hlength.symm)
  conv_rhs => rw [← hnodes]
  simp only [ofMembers, Findings.references_join, List.flatMap_map, hfind, List.map_flatMap,
    List.flatMap_assoc]

lemma length_memberIds (legible : ctx.libraries.Legible) {id : DeclId} {document : String}
    {node : DeclNode} (hdefine : id.define = none) (hcategory : id.category = node.category)
    {entry : Entry} (hslot : ctx.libraries.slot? id.library id.category id.index = some entry)
    (hroll : entry.roll = node.roll document entry) {category : Category}
    (howner : category.owner? = some node.category) :
    (memberIds ctx id category).length
      = (node.memberNodes.filter fun m => m.category = category).length := by
  obtain ⟨hid, hfind⟩ := legible.finds_slot hslot
  have heq : entry.id = id := by rw [hid, ← hdefine]
  have hlist : (entry.body.members? category).map (List.map Member.header)
      = some ((node.memberNodes.filter fun m => m.category = category).map fun m =>
        (LinkMembers.member document entry.id entry m).header) := by
    rw [← Entry.roll, hroll, DeclNode.roll, if_pos]
    rw [howner, heq, hcategory]
  obtain ⟨list, hmembers, hheaders⟩ := Option.map_eq_some_iff.1 hlist
  have hlength := congrArg List.length hheaders
  rw [List.length_map, List.length_map] at hlength
  rw [memberIds, ← heq, hfind, Option.bind_some, hmembers, Option.getD_some,
    List.length_map, hlength]

/-- The references of fields are those of their types. -/
lemma references_ofFields {id : DeclId} {category : Category} {nodes : List VariableNode}
    {inner : Context} (hlength : (memberIds ctx id category).length = nodes.length) :
    (ofMembers ctx id category nodes (ofVariable inner)).references
      = ((nodes.flatMap fun node => [node.ty]).map (Inquiry.mk inner)).flatMap
        Inquiry.references :=
  references_ofMembers hlength fun target node => by simp [references_ofVariable]

lemma references_ofFunctions {id : DeclId} {category : Category} {nodes : List FunctionNode}
    {inner : Context} (hlength : (memberIds ctx id category).length = nodes.length) :
    (ofMembers ctx id category nodes (ofFunction inner)).references
      = ((nodes.flatMap FunctionNode.types).map (Inquiry.mk inner)).flatMap Inquiry.references :=
  references_ofMembers hlength fun target node =>
    references_ofCallable target node.params node.returns

lemma references_ofConstructors {id : DeclId} {category : Category}
    {nodes : List ConstructorNode} {inner : Context}
    (hlength : (memberIds ctx id category).length = nodes.length) :
    (ofMembers ctx id category nodes fun target node =>
        ofCallable inner target node.params []).references
      = ((nodes.flatMap fun node => node.params.map ParamNode.ty).map
        (Inquiry.mk inner)).flatMap Inquiry.references :=
  references_ofMembers hlength fun target node => by
    rw [references_ofCallable, List.append_nil]

/-- Where every node has its member, the pass over signatures finds the references of its
inquiries. -/
lemma references_findings (legible : ctx.libraries.Legible) {id : DeclId} {document : String}
    {node : DeclNode} (hdefine : id.define = none) (hcategory : id.category = node.category)
    {entry : Entry} (hslot : ctx.libraries.slot? id.library id.category id.index = some entry)
    (hroll : entry.roll = node.roll document entry) :
    (findings ctx id node).references
      = (node.signatureInquiries ctx id).flatMap Inquiry.references := by
  let inner : Context := { ctx with within := some id }
  have hown {types : List TypeRef} {found : Findings}
      (h : found.references = (types.map (Inquiry.mk ctx)).flatMap Inquiry.references) :
      found.references = (types.map (Inquiry.mk ctx) ++
        ([] : List TypeRef).map (Inquiry.mk inner)).flatMap Inquiry.references := by
    rw [List.map_nil, List.append_nil, h]
  have hlength {α : Type} (category : Category) (nodes : List α)
      (howner : category.owner? = some node.category)
      (hnodes : (node.memberNodes.filter fun m => m.category = category).length = nodes.length) :
      (memberIds ctx id category).length = nodes.length := by
    rw [length_memberIds legible hdefine hcategory hslot hroll howner, hnodes]
  have hfields (nodes : List VariableNode) :
      nodes.flatMap (fun node => [node.ty]) = nodes.map VariableNode.ty := List.map_eq_flatMap.symm
  -- Kind by kind; the types of members are looked up from inside the declaration.
  cases node with
  | «variable» node =>
    refine @hown [node.ty] _ ?_
    rw [List.map_singleton, List.flatMap_singleton]
    exact references_ofVariable id node
  | function node => exact hown (references_ofCallable id node.params node.returns)
  | native node => exact hown (references_ofCallable id node.params node.returns)
  | delegate node => exact hown (references_ofCallable id node.params node.returns)
  | task node =>
    refine hown ?_
    rw [← references_resolveTypes]
    exact List.append_nil _
  | enum node => rfl
  | struct node =>
    have hvariables := @references_ofFields ctx id _ _ inner (hlength .structVariable node.fields
      rfl (by simp [DeclNode.memberNodes, DeclNode.filter_membersOf]))
    have hfunctions := @references_ofFunctions ctx id _ _ inner (hlength .structFunction
      node.functions rfl (by simp [DeclNode.memberNodes, DeclNode.filter_membersOf]))
    refine (congrArg₂ (· ++ ·) hvariables hfunctions).trans ?_
    simp only [← List.flatMap_append, ← List.map_append, hfields]
    rfl
  | interface node =>
    exact references_ofFunctions (hlength .interfaceFunction node.functions rfl
      (by simp [DeclNode.memberNodes, DeclNode.filter_membersOf]))
  | «class» node =>
    have hvariables := @references_ofFields ctx id _ _ inner (hlength .classVariable node.fields
      rfl (by simp [DeclNode.memberNodes, DeclNode.filter_membersOf]))
    have hconstructors := @references_ofConstructors ctx id _ _ inner (hlength .constructor
      node.constructors rfl (by simp [DeclNode.memberNodes, DeclNode.filter_membersOf]))
    have hfunctions := @references_ofFunctions ctx id _ _ inner (hlength .classFunction
      node.functions rfl (by simp [DeclNode.memberNodes, DeclNode.filter_membersOf]))
    refine (congrArg₂ (· ++ ·) (congrArg₂ (· ++ ·) hvariables hconstructors) hfunctions).trans ?_
    simp only [← List.flatMap_append, ← List.map_append, hfields]
    rfl

end LinkSignatures

/-! ## Passes over one document -/

namespace LibrarySet

variable {set set' : LibrarySet}

/-- The place is among the references of the target. -/
def Cites (set : LibrarySet) (target : Target) (location : Location) : Prop :=
  target.Proper ∧ ∃ refs, set.references? target = some refs ∧ location ∈ refs

/-- If the type leads to one declaration, then its last segment in the document is among the
references of the declaration. -/
def Answers (set : LibrarySet) (path : String) (inquiry : Inquiry) : Prop :=
  ∀ id, inquiry.declarations = [id] → ∃ name, inquiry.ty.name? = some name ∧
    set.Cites (.declaration id) ⟨path, name.range⟩

lemma Answers.mono {path : String} {inquiry : Inquiry} (answers : set.Answers path inquiry)
    (h : ∀ target location, set.Cites target location → set'.Cites target location) :
    set'.Answers path inquiry := by
  intro id hid
  obtain ⟨name, hname, hcites⟩ := answers id hid
  exact ⟨name, hname, h _ _ hcites⟩

lemma Settled.length_declarations {units : List SourceUnit} (settled : set.Settled units)
    {unit : SourceUnit} (hunit : unit ∈ units) : unit.declarations.length = unit.nodes.length := by
  obtain ⟨lib, hlib⟩ := settled.loaded hunit
  have hdeclared := (settled.aligned hunit hlib).declared
  rw [SpaceNode.filterMap_node?_marks] at hdeclared
  exact hdeclared.length_eq

end LibrarySet

namespace Linkage

variable {state : Linkage} {others : List SourceUnit}

/-- What a pass looks up for the declarations of a document. -/
def inquiries (state : Linkage) (options : LinkOptions)
    (inquire : Context → DeclId → DeclNode → List Inquiry) : List Inquiry :=
  ((state.unit.declarations.zip state.unit.nodes).zip state.unit.scopes).flatMap
    fun ((id, node), scope) => inquire (state.context options scope) id node

/-- Where every declaration has its scope, no node is left out. -/
lemma types_inquiries (state : Linkage)
    (hlength : state.unit.declarations.length = state.unit.nodes.length)
    (hscopes : state.unit.scopes.length = state.unit.nodes.length) (options : LinkOptions)
    {inquire : Context → DeclId → DeclNode → List Inquiry} {types : DeclNode → List TypeRef}
    (h : ∀ ctx id node, (inquire ctx id node).map Inquiry.ty = types node) :
    (state.inquiries options inquire).map Inquiry.ty = state.unit.nodes.flatMap types := by
  have hnodes : ((state.unit.declarations.zip state.unit.nodes).zip state.unit.scopes).map
      (fun triple => triple.1.2) = state.unit.nodes := by
    show List.map (Prod.snd ∘ Prod.fst) _ = _
    rw [← List.map_map, List.map_fst_zip, List.map_snd_zip]
    · exact le_of_eq hlength.symm
    · rw [List.length_zip, hlength, min_self, hscopes]
  conv_rhs => rw [← hnodes, List.flatMap_map]
  simp only [inquiries, List.map_flatMap, h]

lemma references_found (state : Linkage) (options : LinkOptions)
    {find : Context → DeclId → DeclNode → Findings}
    {inquire : Context → DeclId → DeclNode → List Inquiry}
    (h : ∀ id node scope, (id, node) ∈ state.unit.declarations.zip state.unit.nodes →
      (find (state.context options scope) id node).references
        = (inquire (state.context options scope) id node).flatMap Inquiry.references) :
    (state.found options find).references
      = (state.inquiries options inquire).flatMap Inquiry.references := by
  rw [found, Findings.references_join, List.flatMap_map, inquiries, List.flatMap_assoc]
  exact List.flatMap_congr fun triple htriple => h _ _ _ (List.of_mem_zip htriple).1

/-- The references that the pass over bases finds are those of its inquiries. -/
theorem references_foundBases (state : Linkage) (options : LinkOptions) :
    (state.found options LinkBases.findings).references
      = (state.inquiries options DeclNode.baseInquiries).flatMap Inquiry.references :=
  state.references_found options fun id node _ _ => LinkBases.references_findings _ id node

/-- The references that the pass over signatures finds are those of its inquiries, once the members
have been declared. -/
theorem references_foundSignatures (arranged : state.libraries.Arranged (state.unit :: others))
    (enrolled : state.unit.Enrolled state.libraries) (options : LinkOptions) :
    (state.found options LinkSignatures.findings).references
      = (state.inquiries options DeclNode.signatureInquiries).flatMap Inquiry.references := by
  refine state.references_found options fun id node scope hpair => ?_
  obtain ⟨hcategory, hdefine, -⟩ := arranged.settled.paired List.mem_cons_self hpair
  obtain ⟨entry, hslot, hroll⟩ := enrolled id node hpair
  exact LinkSignatures.references_findings arranged.legible hdefine hcategory hslot hroll

/-- What is among the references of a target stays there when findings are written down. -/
lemma cites_apply (arranged : state.libraries.Arranged (state.unit :: others)) {found : Findings}
    {near : LibraryId → Prop} {own : List DeclId}
    (among : found.Among state.libraries near state.unit.path own) {target : Target}
    {location : Location} (h : state.libraries.Cites target location) :
    (state.apply found).libraries.Cites target location := by
  obtain ⟨proper, refs, hrefs, hmem⟩ := h
  refine ⟨proper, _, by rw [references?_apply arranged.orderly among proper, hrefs,
    Option.map_some], ?_⟩
  rw [mem_addAllNew]
  exact Or.inl hmem

/-- Writing down the references of inquiries answers them. -/
lemma answers_apply (arranged : state.libraries.Arranged (state.unit :: others)) {found : Findings}
    {near : LibraryId → Prop} {own : List DeclId}
    (among : found.Among state.libraries near state.unit.path own) {inquiries : List Inquiry}
    (hreferences : found.references = inquiries.flatMap Inquiry.references) {inquiry : Inquiry}
    (hinquiry : inquiry ∈ inquiries) :
    (state.apply found).libraries.Answers state.unit.path inquiry := by
  intro id hid
  obtain ⟨name, hname, hcites⟩ := inquiry.cites hid
  have hfound : (Target.declaration id, inquiry.context.locate name.range) ∈ found.references := by
    rw [hreferences]
    exact List.mem_flatMap_of_mem hinquiry hcites
  obtain ⟨⟨hlive, -⟩, hdocument⟩ := among.references hfound
  obtain ⟨proper, refs, hrefs⟩ := (arranged.orderly.live_iff _).1 hlive
  refine ⟨name, hname, proper, _,
    by rw [references?_apply arranged.orderly among proper, hrefs, Option.map_some], ?_⟩
  rw [mem_addAllNew, ← hdocument]
  exact Or.inr (List.mem_map.2 ⟨_, List.mem_filter.2 ⟨hfound, by simp⟩, rfl⟩)

end Linkage

/-! ## Passes over several documents -/

/-- The document is ready to have its types looked up: its members are declared, and each of its
declarations has a scope. -/
def SourceUnit.Prepared (unit : SourceUnit) (set : LibrarySet) : Prop :=
  unit.Enrolled set ∧ unit.scopes.length = unit.nodes.length

namespace Linkages

/-- What a pass is given for each document in turn. -/
def met (pass : Linkage → Linkage) : LibrarySet → List SourceUnit → List Linkage
  | _, [] => []
  | libraries, unit :: rest =>
    ⟨libraries, unit⟩ :: met pass (pass ⟨libraries, unit⟩).libraries rest

/-- A pass meets every document as it stood before the pass. -/
lemma map_unit_met (pass : Linkage → Linkage) (set : LibrarySet) (units : List SourceUnit) :
    (met pass set units).map Linkage.unit = units := by
  induction units generalizing set with
  | nil => rfl
  | cons unit rest ih => rw [met, List.map_cons, ih]

/-- A pass that answers the inquiries of the document at hand and takes no reference away has
answered the inquiries of all documents when it is over. -/
lemma answers_each (pass : Linkage → Linkage) (inquiries : Linkage → List Inquiry)
    (Q : LibrarySet → SourceUnit → Prop)
    (hstep : ∀ {set unit others}, set.Arranged (unit :: others) → Q set unit →
      (pass ⟨set, unit⟩).libraries.Arranged ((pass ⟨set, unit⟩).unit :: others) ∧
        (∀ other ∈ others, Q set other → Q (pass ⟨set, unit⟩).libraries other) ∧
        (∀ inquiry ∈ inquiries ⟨set, unit⟩,
          (pass ⟨set, unit⟩).libraries.Answers unit.path inquiry) ∧
        ∀ target location, set.Cites target location →
          (pass ⟨set, unit⟩).libraries.Cites target location)
    {set : LibrarySet} {units others : List SourceUnit} (h : set.Arranged (units ++ others))
    (hunits : ∀ unit ∈ units, Q set unit) :
    (∀ state ∈ met pass set units, ∀ inquiry ∈ inquiries state,
      (each pass set units).libraries.Answers state.unit.path inquiry) ∧
    ∀ target location, set.Cites target location →
      (each pass set units).libraries.Cites target location := by
  induction units generalizing set others with
  | nil => exact ⟨by simp [met], fun _ _ h => h⟩
  | cons unit rest ih =>
    obtain ⟨hfirst, hkeep, hanswers, hcites⟩ := hstep h (hunits unit List.mem_cons_self)
    -- An inquiry that has been answered stays answered, since references are only added.
    have hshuffled := hfirst.perm (List.perm_middle.symm :
      ((pass ⟨set, unit⟩).unit :: (rest ++ others)).Perm
        (rest ++ (pass ⟨set, unit⟩).unit :: others))
    obtain ⟨hrest, hkept⟩ := ih hshuffled fun other hother =>
      hkeep other (List.mem_append_left _ hother) (hunits other (List.mem_cons_of_mem _ hother))
    refine ⟨fun state hstate inquiry hinquiry => ?_, fun target location h =>
      hkept _ _ (hcites _ _ h)⟩
    rcases List.mem_cons.1 hstate with rfl | hstate
    · exact (hanswers inquiry hinquiry).mono hkept
    · exact hrest state hstate inquiry hinquiry

/-- What linking looks up for each of several documents. -/
def inquiries (state : Linkages) (options : LinkOptions) : List (List Inquiry) :=
  let declared := (state.applyPass Linkage.linkImports).applyPass Linkage.declareMembers
  let based := declared.applyPass (·.linkBases options)
  List.zipWith (· ++ ·)
    ((met (·.linkBases options) declared.libraries declared.units).map
      (·.inquiries options DeclNode.baseInquiries))
    ((met (·.linkSignatures options) based.libraries based.units).map
      (·.inquiries options DeclNode.signatureInquiries))

/-- The first two passes prepare all documents. -/
lemma prepared_declared {set : LibrarySet} {batch others : List SourceUnit}
    (arranged : set.Arranged (batch ++ others)) (hbatch : ∀ unit ∈ batch, unit.Undeclared) :
    let declared := (Linkages.applyPass ⟨set, batch⟩ Linkage.linkImports).applyPass
      Linkage.declareMembers
    declared.libraries.Arranged (declared.units ++ others) ∧
      (∀ unit ∈ declared.units, unit.Prepared declared.libraries) ∧
      declared.units.map SourceUnit.skeleton = batch.map SourceUnit.skeleton := by
  -- The first pass gives every block its scope, the second one enrolls the members.
  obtain ⟨harranged, hunits⟩ := each_induction Linkage.linkImports LibrarySet.Arranged
    SourceUnit.Undeclared (fun unit => unit.Undeclared ∧ unit.scopes.length = unit.nodes.length)
    LibrarySet.Arranged.perm
    (fun {set unit others} arranged undeclared =>
      ⟨@Linkage.arranged_linkImports ⟨set, unit⟩ others arranged,
        @Linkage.undeclared_linkImports ⟨set, unit⟩ undeclared,
        @Linkage.length_scopes ⟨set, unit⟩ others arranged⟩) arranged hbatch
  obtain ⟨harranged', hunits', -⟩ := each_established Linkage.declareMembers LibrarySet.Arranged
    (fun _ unit => unit.Undeclared ∧ unit.scopes.length = unit.nodes.length)
    (fun set unit => unit.Prepared set) LibrarySet.Arranged.perm
    (fun {set unit others} arranged h => by
      refine ⟨@Linkage.arranged_declareMembers ⟨set, unit⟩ others arranged h.1,
        ⟨@Linkage.enrolled_declareMembers ⟨set, unit⟩ others arranged h.1, ?_⟩,
        fun other hother => ⟨fun h => h, fun prepared =>
          ⟨@Linkage.enrolled_declareMembers_other ⟨set, unit⟩ others arranged other hother
            prepared.1, prepared.2⟩⟩⟩
      have hskeleton := (Linkage.sameSkeleton_declareMembers ⟨set, unit⟩).2
      rw [(Linkage.linked_declareMembers ⟨set, unit⟩).1, SourceUnit.nodes,
        SourceUnit.tree_of_skeleton_eq hskeleton]
      exact h.2) harranged hunits
  exact ⟨harranged', hunits',
    (skeleton_each Linkage.sameSkeleton_declareMembers _ _).2.trans
      (skeleton_each Linkage.sameSkeleton_linkImports set batch).2⟩

/-- A pass that resolves types answers its inquiries, and leaves the documents prepared. -/
lemma answers_linkEach (options : LinkOptions) (find : Context → DeclId → DeclNode → Findings)
    (inquire : Context → DeclId → DeclNode → List Inquiry)
    (hamong : ∀ {state : Linkage} {others}, state.libraries.Arranged (state.unit :: others) →
      (state.found options find).Among state.libraries (fun _ => True) state.unit.path
        state.unit.declarations)
    (hreferences : ∀ {state : Linkage} {others}, state.libraries.Arranged (state.unit :: others) →
      state.unit.Enrolled state.libraries → (state.found options find).references
        = (state.inquiries options inquire).flatMap Inquiry.references)
    {types : DeclNode → List TypeRef}
    (htypes : ∀ ctx id node, (inquire ctx id node).map Inquiry.ty = types node)
    {set : LibrarySet} {units others : List SourceUnit} (arranged : set.Arranged (units ++ others))
    (hunits : ∀ unit ∈ units, unit.Prepared set) :
    let after := each (·.linkEach options find) set units
    (after.libraries.Arranged (after.units ++ others) ∧
        ∀ unit ∈ after.units, unit.Prepared after.libraries) ∧
      (∀ (i : Nat) (unit : SourceUnit), units[i]? = some unit → ∃ inquiries,
        ((met (·.linkEach options find) set units).map (·.inquiries options inquire))[i]?
          = some inquiries ∧ inquiries.map Inquiry.ty = unit.nodes.flatMap types ∧
        ∀ inquiry ∈ inquiries, after.libraries.Answers unit.path inquiry) ∧
      ∀ target location, set.Cites target location → after.libraries.Cites target location := by
  -- A pass leaves all documents prepared, so that the next document meets what it needs.
  have hstep {set : LibrarySet} {unit : SourceUnit} {others : List SourceUnit}
      (arranged : set.Arranged (unit :: others)) (prepared : unit.Prepared set) :
      let after := Linkage.linkEach ⟨set, unit⟩ options find
      after.libraries.Arranged (after.unit :: others) ∧ after.unit.Prepared after.libraries ∧
        ∀ other : SourceUnit, other.Prepared set → other.Prepared after.libraries := by
    obtain ⟨harranged, henrolled, hothers⟩ := @Linkage.enrolled_apply ⟨set, unit⟩ others arranged
      _ _ _ (@hamong ⟨set, unit⟩ others arranged) prepared.1
    have hskeleton := (Linkage.sameSkeleton_linkEach ⟨set, unit⟩ options find).2
    refine ⟨harranged, ⟨henrolled, ?_⟩, fun other h => ⟨hothers other h.1, h.2⟩⟩
    rw [SourceUnit.nodes, SourceUnit.tree_of_skeleton_eq hskeleton, Linkage.linkEach_eq,
      Linkage.scopes_apply]
    exact prepared.2
  obtain ⟨hall, hprepared, -⟩ := each_established (·.linkEach options find) LibrarySet.Arranged
    (fun set unit => unit.Prepared set) (fun set unit => unit.Prepared set)
    LibrarySet.Arranged.perm (fun arranged h =>
      ⟨(hstep arranged h).1, (hstep arranged h).2.1, fun other _ =>
        ⟨(hstep arranged h).2.2 other, (hstep arranged h).2.2 other⟩⟩) arranged hunits
  obtain ⟨hanswers, hcites⟩ := answers_each (·.linkEach options find) (·.inquiries options inquire)
    (fun set unit => unit.Prepared set) (fun {set unit others} arranged h => ⟨(hstep arranged h).1,
      fun other _ => (hstep arranged h).2.2 other, fun inquiry hinquiry =>
        @Linkage.answers_apply ⟨set, unit⟩ others arranged _ _ _
          (@hamong ⟨set, unit⟩ others arranged)
          _ (@hreferences ⟨set, unit⟩ others arranged h.1) inquiry hinquiry,
      fun target location => @Linkage.cites_apply ⟨set, unit⟩ others arranged _ _ _
        (@hamong ⟨set, unit⟩ others arranged) target location⟩) arranged hunits
  refine ⟨⟨hall, hprepared⟩, fun i unit hunit => ?_, hcites⟩
  have hmem := List.mem_of_getElem? hunit
  rw [← map_unit_met (·.linkEach options find) set units, List.getElem?_map] at hunit
  obtain ⟨state, hstate, rfl⟩ := Option.map_eq_some_iff.1 hunit
  refine ⟨_, by rw [List.getElem?_map, hstate, Option.map_some], ?_,
    hanswers state (List.mem_of_getElem? hstate)⟩
  exact state.types_inquiries (arranged.settled.length_declarations (List.mem_append_left _ hmem))
    (hunits _ hmem).2 options htypes

/-- Linking documents looks up every type that is written in them, and puts the place of each that
leads to one declaration among the references of that declaration. -/
theorem answers_link {set : LibrarySet} {batch others : List SourceUnit}
    (arranged : set.Arranged (batch ++ others)) (hbatch : ∀ unit ∈ batch, unit.Undeclared)
    (options : LinkOptions) {i : Nat} {unit : SourceUnit} (hunit : batch[i]? = some unit) :
    ∃ inquiries, (Linkages.inquiries ⟨set, batch⟩ options)[i]? = some inquiries ∧
      (inquiries.map Inquiry.ty).Perm unit.tree.types ∧ ∀ inquiry ∈ inquiries,
        (Linkages.link ⟨set, batch⟩ options).libraries.Answers unit.path inquiry := by
  obtain ⟨harranged, hprepared, hskeletons⟩ := prepared_declared arranged hbatch
  unfold Linkages.inquiries Linkages.link
  generalize (Linkages.applyPass ⟨set, batch⟩ Linkage.linkImports).applyPass
    Linkage.declareMembers = declared at harranged hprepared hskeletons ⊢
  obtain ⟨⟨harranged', hprepared'⟩, hbases, -⟩ := answers_linkEach options
    LinkBases.findings DeclNode.baseInquiries
    (fun {state others} arranged => state.among_everywhere.foundBases arranged options)
    (fun {state others} _ _ => state.references_foundBases options)
    DeclNode.types_baseInquiries
    harranged hprepared
  have hskeletons' := (skeleton_each (fun state => Linkage.sameSkeleton_linkEach state options
    LinkBases.findings) declared.libraries declared.units).2.trans hskeletons
  obtain ⟨-, hsignatures, hcites⟩ := answers_linkEach options
    LinkSignatures.findings DeclNode.signatureInquiries
    (fun {state others} arranged => state.among_everywhere.foundSignatures arranged options)
    (fun {state others} arranged enrolled => state.references_foundSignatures
      arranged enrolled options)
    DeclNode.types_signatureInquiries
    harranged' hprepared'
  -- The passes change no tree, so positions and types can be read off the batch.
  have htree {units : List SourceUnit}
      (h : units.map SourceUnit.skeleton = batch.map SourceUnit.skeleton) :
      ∃ unit', units[i]? = some unit' ∧ unit'.tree = unit.tree := by
    have hget := congrArg (·[i]?) h
    simp only [List.getElem?_map, hunit, Option.map_some] at hget
    obtain ⟨unit', hunit', heq⟩ := Option.map_eq_some_iff.1 hget
    exact ⟨unit', hunit', SourceUnit.tree_of_skeleton_eq heq⟩
  obtain ⟨unit₂, hunit₂, htree₂⟩ := htree hskeletons
  obtain ⟨unit₃, hunit₃, htree₃⟩ := htree hskeletons'
  obtain ⟨first, hfirst, htypes₂, hanswers₂⟩ := hbases i unit₂ hunit₂
  obtain ⟨second, hsecond, htypes₃, hanswers₃⟩ := hsignatures i unit₃ hunit₃
  refine ⟨first ++ second, ?_, ?_, fun inquiry hinquiry => ?_⟩
  · exact List.getElem?_zipWith_eq_some.2 ⟨first, second, hfirst, hsecond, rfl⟩
  · rw [List.map_append, htypes₂, htypes₃, FileTree.types, SourceUnit.nodes, SourceUnit.nodes,
      htree₂, htree₃, funext DeclNode.types_eq]
    -- Bases and signatures are looked up in two passes, so the types come in another order.
    exact List.flatMap_append_perm ..
  · have hpath₂ : unit₂.path = unit.path := congrArg FileTree.path htree₂
    have hpath₃ : unit₃.path = unit.path := congrArg FileTree.path htree₃
    rcases List.mem_append.1 hinquiry with h | h
    · exact hpath₂ ▸ (hanswers₂ inquiry h).mono hcites
    · exact hpath₃ ▸ hanswers₃ inquiry h

end Linkages

end SymbolGraph
