import SymbolGraph.Proofs.Renumbering.Findings
import SymbolGraph.Proofs.Session.UntouchedDocuments

/-!
# What the link passes read

Lookups read the names of namespaces, their children and groups, and the headers of declarations;
inside of a declaration they also read members and the chain of parents.  Two contexts that show the
same of these *agree* (`Context.Agrees`), and then every name leads to the same declarations and
every pass finds the same, in the same order.

One thing is not covered: a report on an ambiguous namespace points to the first place that names
each candidate, and that is a matter of which document was linked first.  So reports are compared
without the places that they point to (`Diagnostic.plain`).
-/

namespace SymbolGraph

/-! ## Namespaces -/

namespace Arena

variable (arena : Arena)

lemma chain_skeleton (id : SpaceId) : arena.skeleton.chain id = arena.chain id := by
  have hparents : arena.skeleton.parents = arena.parents := by
    funext id
    simp only [parents, get?_skeleton]
    cases arena.get? id <;> rfl
  have hlive : arena.skeleton.live.map Prod.fst = arena.live.map Prod.fst := by
    simp only [live, skeleton, List.zipIdx_map, List.filterMap_map, List.map_filterMap]
    refine List.filterMap_congr fun slot _ => ?_
    obtain ⟨slot, id⟩ := slot
    cases slot <;> rfl
  rw [chain, chain, hparents, hlive]

lemma ancestors_skeleton (id : SpaceId) : arena.skeleton.ancestors id = arena.ancestors id := by
  simp only [ancestors, chain_skeleton, get?_skeleton, Option.map_map]
  rfl

lemma child?_skeleton (parent : SpaceId) (name : String) :
    arena.skeleton.child? parent name = arena.child? parent name := by
  simp only [child?, get?_skeleton]
  cases arena.get? parent <;> rfl

lemma fullName_skeleton (id : SpaceId) : arena.skeleton.fullName id = arena.fullName id := by
  simp only [fullName, ancestors_skeleton, get?_skeleton, Option.map_map]
  rfl

end Arena

namespace LibrarySet

variable (set : LibrarySet)

lemma space?_skeleton (ref : SpaceRef) :
    set.skeleton.space? ref = (set.space? ref).map Namespace.skeleton := by
  simp only [space?, get?_skeleton]
  cases set.get? ref.library with
  | none => rfl
  | some lib => exact lib.spaces.get?_skeleton ref.space

lemma child?_skeleton (parent : SpaceRef) (name : String) :
    set.skeleton.child? parent name = set.child? parent name := by
  simp only [child?, get?_skeleton]
  cases set.get? parent.library with
  | none => rfl
  | some lib => simp [Arena.child?_skeleton]

lemma root?_skeleton (library : LibraryId) : set.skeleton.root? library = set.root? library := by
  simp only [root?, get?_skeleton]
  cases set.get? library <;> rfl

end LibrarySet

/-! ## Import directives -/

namespace LinkImports

variable (set : LibrarySet) (library : LibraryId)

lemma descend_skeleton (path : List Ident) (space : SpaceRef) :
    descend set.skeleton space path = descend set space path := by
  induction path generalizing space with
  | nil => rfl
  | cons segment rest ih => simp only [descend, set.child?_skeleton, ih]

lemma resolve?_skeleton (directive : ImportNode) :
    resolve? set.skeleton library directive = resolve? set library directive := by
  have hstart (name : String) : start? set.skeleton library name = start? set library name := by
    have hroot : set.skeleton.root? = set.root? := funext set.root?_skeleton
    have hchild : set.skeleton.child? = set.child? :=
      funext fun parent => funext (set.child?_skeleton parent)
    unfold start?
    rw [hroot, hchild]
    rfl
  simp only [resolve?, hstart, descend_skeleton]

lemma findings_skeleton (document : String) :
    findings set.skeleton library document = findings set library document := by
  funext directive
  simp only [findings, resolve?_skeleton]

lemma inEffect_skeleton (outer : List SpaceRef) (directives : List ImportNode) :
    inEffect set.skeleton library outer directives = inEffect set library outer directives := by
  have himported : imported? set.skeleton library = imported? set library := by
    funext directive
    simp only [imported?, resolve?_skeleton]
  rw [inEffect, inEffect, himported]

lemma blockSpace?_skeleton (space : SpaceId) (name : Option Ident) :
    blockSpace? set.skeleton library space name = blockSpace? set library space name := by
  cases name with
  | none => rfl
  | some name =>
    simp only [blockSpace?, LibrarySet.get?_skeleton]
    cases set.get? library with
    | none => rfl
    | some lib => exact lib.spaces.child?_skeleton space name.name

mutual

/-- Import directives are resolved by the namespace tree alone. -/
theorem block_skeleton (document : String) (space : SpaceId) (outer : List SpaceRef) :
    (node : SpaceNode) → block set.skeleton library document space outer node
      = block set library document space outer node
  | ⟨_, imports, children, declarations⟩ => by
    simp only [block, inEffect_skeleton, findings_skeleton,
      blocks_skeleton document space _ children]

theorem blocks_skeleton (document : String) (space : SpaceId) (outer : List SpaceRef) :
    (children : List SpaceNode) → blocks set.skeleton library document space outer children
      = blocks set library document space outer children
  | [] => rfl
  | child :: rest => by
    simp only [blocks, blockSpace?_skeleton, blocks_skeleton document space outer rest]
    cases blockSpace? set library space child.name with
    | none => rfl
    | some id => simp only [block_skeleton document id outer child]

end

end LinkImports

/-- The scopes of a document are given by its tree, its library and the skeleton of the model. -/
lemma Linkage.imported_congr {state state' : Linkage}
    (hskeleton : state'.libraries.skeleton = state.libraries.skeleton)
    (htree : state'.unit.tree = state.unit.tree)
    (hlibrary : state'.unit.library = state.unit.library) : state'.imported = state.imported := by
  rw [imported, ← LinkImports.block_skeleton, hskeleton, LinkImports.block_skeleton, hlibrary,
    SourceUnit.path, htree]
  rfl

/-! ## Reports without related places -/

/-- The report without the places that it points to. -/
def Diagnostic.plain (diagnostic : Diagnostic) : Diagnostic := { diagnostic with related := [] }

namespace Findings

/-- Findings with plain reports. -/
def plain (found : Findings) : Findings :=
  { found with diagnostics := found.diagnostics.map Diagnostic.plain }

lemma plain_append (a b : Findings) : (a ++ b).plain = a.plain ++ b.plain :=
  congrArg (fun diagnostics => Findings.mk diagnostics _ _ _) List.map_append

lemma plain_join (all : List Findings) : (join all).plain = join (all.map plain) := by
  induction all with
  | nil => rfl
  | cons found rest ih =>
    rw [List.map_cons, join, List.foldr_cons, plain_append]
    exact congrArg (found.plain ++ ·) ih

/-- Findings collected over one list are compared one by one. -/
lemma plain_join_map {α : Type} {xs : List α} {f f' : α → Findings}
    (h : ∀ x ∈ xs, (f' x).plain = (f x).plain) :
    (join (xs.map f')).plain = (join (xs.map f)).plain := by
  rw [plain_join, plain_join, List.map_map, List.map_map]
  exact congrArg join (List.map_congr_left h)

end Findings

/-- The document with plain reports of linking. -/
def SourceUnit.plain (unit : SourceUnit) : SourceUnit :=
  { unit with diagnostics := unit.diagnostics.changePhase .link (List.map Diagnostic.plain) }

/-- What was worked out, with plain reports. -/
def Resolved.plain {α : Type} (resolved : Resolved α) : Resolved α :=
  { resolved with found := resolved.found.plain }

/-! ## Contexts that agree -/

namespace Context

/-- The two contexts show the same to a lookup. -/
structure Agrees (ctx ctx' : Context) : Prop where
  document : ctx'.document = ctx.document
  imports : ctx'.imports = ctx.imports
  suggestions : ctx'.suggestions = ctx.suggestions
  space : ctx'.space = ctx.space
  skeleton : ctx'.libraries.skeleton = ctx.libraries.skeleton
  visible : ∀ id, ctx'.isVisible id = ctx.isVisible id
  member : ∀ name, ctx'.findMember name = ctx.findMember name

namespace Agrees

variable {ctx ctx' : Context} (agrees : ctx.Agrees ctx')

include agrees

lemma child (parent : SpaceRef) (name : String) :
    ctx'.libraries.child? parent name = ctx.libraries.child? parent name := by
  rw [← LibrarySet.child?_skeleton, agrees.skeleton, LibrarySet.child?_skeleton]

lemma named (name : String) : (ctx'.libraries.named? name).bind ctx'.libraries.root?
    = (ctx.libraries.named? name).bind ctx.libraries.root? := by
  have hnames : ctx'.libraries.skeleton.names = ctx.libraries.skeleton.names := by
    rw [agrees.skeleton]
  have hroot : ctx'.libraries.root? = ctx.libraries.root? := by
    funext library
    rw [← LibrarySet.root?_skeleton, agrees.skeleton, LibrarySet.root?_skeleton]
  rw [hroot, LibrarySet.named?, show ctx'.libraries.names = ctx.libraries.names from hnames]
  rfl

lemma enclosing : ctx'.enclosing = ctx.enclosing := by
  have hread (ctx : Context) : ctx.enclosing
      = (ctx.libraries.skeleton.get? ctx.space.library).elim [] fun lib =>
        (lib.spaces.ancestors ctx.space.space).map fun id => ⟨ctx.space.library, id⟩ := by
    rw [LibrarySet.get?_skeleton, Context.enclosing]
    cases ctx.libraries.get? ctx.space.library with
    | none => rfl
    | some lib => simp [Arena.ancestors_skeleton]
  rw [hread ctx', hread ctx, agrees.skeleton, agrees.space]

/-- The declarations of every name in a namespace. -/
lemma groups (scope : SpaceRef) : (ctx'.libraries.space? scope).map Namespace.groups
    = (ctx.libraries.space? scope).map Namespace.groups := by
  have hread (set : LibrarySet) : (set.space? scope).map Namespace.groups
      = (set.skeleton.space? scope).map Namespace.groups := by
    rw [set.space?_skeleton, Option.map_map]
    rfl
  rw [hread, agrees.skeleton, ← hread]

lemma groupIn (name : String) (scope : SpaceRef) :
    ctx'.groupIn name scope = ctx.groupIn name scope := by
  have hread (ctx : Context) : ctx.groupIn name scope
      = (((ctx.libraries.space? scope).map Namespace.groups).map fun groups =>
          (groups.at? name).getD []).getD [] := by
    rw [Context.groupIn, Option.map_map]
    rfl
  rw [hread ctx', agrees.groups, ← hread]

lemma visible_eq : ctx'.visible = ctx.visible := by
  funext group
  exact List.filter_congr fun id _ => agrees.visible id

lemma searchScopes : ctx'.searchScopes = ctx.searchScopes := by
  rw [Context.searchScopes, Context.searchScopes, agrees.enclosing, importScopes, agrees.imports]
  rfl

lemma namesInScope : ctx'.namesInScope = ctx.namesInScope := by
  unfold Context.namesInScope
  rw [agrees.searchScopes]
  congr 1
  funext names scope
  have hgroups := agrees.groups scope
  cases hspace : ctx.libraries.space? scope with
  | none =>
    rw [hspace, Option.map_none, Option.map_eq_none_iff] at hgroups
    rw [hgroups]
  | some space =>
    rw [hspace] at hgroups
    obtain ⟨space', hspace', heq⟩ := Option.map_eq_some_iff.1 hgroups
    simp only [hspace', heq, agrees.visible_eq]

lemma find (name : Ident) : ctx'.find name = ctx.find name := by
  have hscopes : ctx'.findInScopes name.name = ctx.findInScopes name.name := by
    rw [findInScopes, findInScopes, agrees.searchScopes]
    simp only [agrees.visible_eq, agrees.groupIn]
  have hmissing : ctx'.reportMissing name = ctx.reportMissing name := by
    simp only [reportMissing, agrees.searchScopes, agrees.groupIn, agrees.suggestions,
      agrees.namesInScope]
  simp only [Context.find, agrees.member, hscopes, hmissing]

lemma describeSpace (space : SpaceRef) :
    (ctx'.describeSpace space).1 = (ctx.describeSpace space).1 := by
  have hread (ctx : Context) : (ctx.describeSpace space).1
      = (ctx.libraries.skeleton.get? space.library).elim "" fun lib =>
          let full := lib.spaces.fullName space.space
          if full.isEmpty then lib.name else s!"{lib.name}.{full}" := by
    rw [LibrarySet.get?_skeleton, Context.describeSpace]
    cases ctx.libraries.get? space.library with
    | none => rfl
    | some lib => simp [Arena.fullName_skeleton]
  rw [hread ctx', hread ctx, agrees.skeleton]

lemma findSpace (name : Ident) : (ctx'.findSpace name).1 = (ctx.findSpace name).1 ∧
    (ctx'.findSpace name).2.map Diagnostic.plain = (ctx.findSpace name).2.map Diagnostic.plain := by
  have hcandidates : ctx'.spaceCandidates name.name = ctx.spaceCandidates name.name := by
    simp only [spaceCandidates, agrees.imports, agrees.child, agrees.named]
  have hreport (candidates : List SpaceRef) :
      (Message.ambiguousSpace name (candidates.map ctx'.describeSpace)).plain
        = (Message.ambiguousSpace name (candidates.map ctx.describeSpace)).plain := by
    have hfirst : ((candidates.map ctx'.describeSpace).head?.map Prod.fst)
        = (candidates.map ctx.describeSpace).head?.map Prod.fst := by
      cases candidates with
      | nil => rfl
      | cons space rest => exact congrArg some (agrees.describeSpace space)
    simp only [Message.ambiguousSpace, Diagnostic.plain, Diagnostic.relatedTo,
      hfirst, List.length_map]
  simp only [Context.findSpace, agrees.enclosing, agrees.child, hcandidates]
  cases ctx.enclosing.findSome? fun scope => ctx.libraries.child? scope name.name with
  | some found => exact ⟨rfl, rfl⟩
  | none =>
    refine ⟨rfl, ?_⟩
    dsimp only
    split
    · exact congrArg (fun d => [d]) (hreport _)
    · rfl

lemma descend (path : List Ident) (space : SpaceRef) :
    ctx'.descend space path = ctx.descend space path := by
  induction path generalizing space with
  | nil => rfl
  | cons segment rest ih => simp only [Context.descend, agrees.child, ih]

/-- A dotted name leads to the same declarations, with the same reports. -/
lemma findPath (path : List Ident) : (ctx'.findPath path).1 = (ctx.findPath path).1 ∧
    (ctx'.findPath path).2.map Diagnostic.plain = (ctx.findPath path).2.map Diagnostic.plain := by
  have hin (space : SpaceRef) (name : Ident) : ctx'.findIn space name = ctx.findIn space name := by
    simp only [Context.findIn, agrees.groupIn, agrees.visible_eq]
  unfold Context.findPath
  cases path.getLast? with
  | none => exact ⟨rfl, rfl⟩
  | some last =>
    -- The steps of the walk agree one by one; reports agree up to the places that they point to.
    cases path.dropLast with
    | nil =>
      dsimp only
      rw [agrees.find]
      exact ⟨rfl, rfl⟩
    | cons first rest =>
      obtain ⟨hspace, hnotes⟩ := agrees.findSpace first
      simp only [Context.findBehind]
      generalize ctx'.findSpace first = found' at hspace hnotes ⊢
      generalize ctx.findSpace first = found at hspace hnotes ⊢
      obtain ⟨space, notes⟩ := found
      obtain ⟨space', notes'⟩ := found'
      dsimp only at hspace hnotes
      subst hspace
      cases space' with
      | none => simp [hnotes]
      | some space =>
        simp only [agrees.descend, hin]
        generalize ctx.descend space rest = below
        obtain ⟨spaces, outcome⟩ := below
        cases outcome <;> simp [hnotes]

lemma resolveType (ty : TypeRef) : (ctx'.resolveType ty).plain = (ctx.resolveType ty).plain := by
  have hlocate : ctx'.locate = ctx.locate := by
    funext range
    rw [Context.locate, agrees.document]
    rfl
  -- Of several declarations a report names the places, and the plain report forgets them.
  have hseveral (ids : List DeclId) :
      (ctx'.severalMatches ty ids).plain = (ctx.severalMatches ty ids).plain := rfl
  obtain ⟨hfound, hnotes⟩ := agrees.findPath ty.path
  unfold Context.resolveType
  generalize ctx'.findPath ty.path = found' at hfound hnotes ⊢
  generalize ctx.findPath ty.path = found at hfound hnotes ⊢
  obtain ⟨resolution, notes⟩ := found
  obtain ⟨resolution', notes'⟩ := found'
  dsimp only at hfound hnotes
  subst hfound
  dsimp only
  rw [hlocate]
  cases ty.name? with
  | none => simp [Resolved.plain, Findings.plain, hnotes]
  | some name =>
    rcases resolution'.declarations with - | ⟨id, - | ⟨other, more⟩⟩
    · simp [Resolved.plain, Findings.plain, hnotes]
    · dsimp only
      split
      · simp [Resolved.plain, Findings.plain, hnotes]
      · simp [Resolved.plain, Findings.plain, hnotes]
    · simp [Resolved.plain, Findings.plain, Findings.ofDiagnostic, hnotes, hseveral]

lemma value_resolveType (ty : TypeRef) :
    (ctx'.resolveType ty).value = (ctx.resolveType ty).value := by
  have hvalue := congrArg Resolved.value (agrees.resolveType ty)
  exact hvalue

lemma found_resolveType (ty : TypeRef) :
    (ctx'.resolveType ty).found.plain = (ctx.resolveType ty).found.plain := by
  have hfound := congrArg Resolved.found (agrees.resolveType ty)
  exact hfound

lemma resolveTypes (types : List TypeRef) :
    (ctx'.resolveTypes types).value = (ctx.resolveTypes types).value ∧
      (ctx'.resolveTypes types).found.plain = (ctx.resolveTypes types).found.plain := by
  simp only [Context.resolveTypes, List.map_map]
  exact ⟨List.map_congr_left fun ty _ => agrees.value_resolveType ty,
    Findings.plain_join_map fun ty _ => agrees.found_resolveType ty⟩

lemma resolveParams (params : List ParamNode) :
    (ctx'.resolveParams params).value = (ctx.resolveParams params).value ∧
      (ctx'.resolveParams params).found.plain = (ctx.resolveParams params).found.plain := by
  simp only [Context.resolveParams, List.map_map]
  refine ⟨List.map_congr_left fun param _ => ?_,
    Findings.plain_join_map fun param _ => agrees.found_resolveType param.ty⟩
  simp [agrees.value_resolveType]

end Agrees

end Context

/-! ## Findings -/

namespace LinkBases

variable {ctx ctx' : Context}

/-- In contexts that agree, the same bases are found. -/
lemma plain_findings (agrees : ctx.Agrees ctx') (id : DeclId) (node : DeclNode) :
    (findings ctx' id node).plain = (findings ctx id node).plain := by
  have hof {α : Type} (xs : List α) (written : α → TypeRef) (role : α → Ty → Role) :
      (findingsOf id (xs.map fun x => ⟨written x, ctx'.resolveType (written x),
          role x (ctx'.resolveType (written x)).value⟩)).plain
        = (findingsOf id (xs.map fun x => ⟨written x, ctx.resolveType (written x),
          role x (ctx.resolveType (written x)).value⟩)).plain := by
    unfold findingsOf
    rw [Findings.plain_append, Findings.plain_append, List.map_map, List.map_map]
    refine congr (congrArg _ (Findings.plain_join_map fun x _ => ?_)) ?_
    · simp only [Function.comp_apply, Base.findings, Findings.plain_append,
        agrees.found_resolveType, agrees.value_resolveType]
    · simp only [List.findSome?_map, List.filterMap_map, Function.comp_def, Base.parent?,
        Base.interface?, agrees.value_resolveType]
  cases node with
  | interface node => exact hof node.inherits (fun ref => ref) roleForInterface
  | «class» node => exact hof node.inherits.zipIdx Prod.fst fun x => roleForClass x.2 x.1
  | _ => rfl

end LinkBases

namespace LinkSignatures

variable {ctx ctx' : Context}

lemma plain_ofVariable (agrees : ctx.Agrees ctx') (target : DeclId) (node : VariableNode) :
    (ofVariable ctx' target node).plain = (ofVariable ctx target node).plain := by
  simp only [ofVariable, Findings.plain_append, agrees.found_resolveType, agrees.value_resolveType]

lemma plain_ofCallable (agrees : ctx.Agrees ctx') (target : DeclId) (params : List ParamNode)
    (returns : List TypeRef) :
    (ofCallable ctx' target params returns).plain
      = (ofCallable ctx target params returns).plain := by
  obtain ⟨hparams, hparamsFound⟩ := agrees.resolveParams params
  obtain ⟨hreturns, hreturnsFound⟩ := agrees.resolveTypes returns
  simp only [ofCallable, Findings.plain_append, hparams, hparamsFound, hreturns, hreturnsFound]

lemma plain_ofFunction (agrees : ctx.Agrees ctx') (target : DeclId) (node : FunctionNode) :
    (ofFunction ctx' target node).plain = (ofFunction ctx target node).plain :=
  plain_ofCallable agrees target node.params node.returns

lemma plain_ofMembers {α : Type} {owner : DeclId} {category : Category}
    (hids : memberIds ctx' owner category = memberIds ctx owner category) (nodes : List α)
    {find find' : DeclId → α → Findings} (hfind : ∀ id node, (find' id node).plain =
      (find id node).plain) :
    (ofMembers ctx' owner category nodes find').plain
      = (ofMembers ctx owner category nodes find).plain := by
  unfold ofMembers
  rw [hids]
  exact Findings.plain_join_map fun pair _ => hfind pair.2 pair.1

/-- In contexts that agree outside and inside of a declaration, the same signatures are found. -/
lemma plain_findings {id : DeclId} (outer : ctx.Agrees ctx')
    (inner : Context.Agrees { ctx with within := some id } { ctx' with within := some id })
    (hids : ∀ category, memberIds ctx' id category = memberIds ctx id category) (node : DeclNode) :
    (findings ctx' id node).plain = (findings ctx id node).plain := by
  unfold findings
  cases node with
  | «variable» node => exact plain_ofVariable outer id node
  | function node => exact plain_ofFunction outer id node
  | native node => exact plain_ofFunction outer id node
  | delegate node => exact plain_ofCallable outer id node.params node.returns
  | task node =>
    obtain ⟨hvalue, hfound⟩ := outer.resolveTypes node.returns
    simp only [Findings.plain_append, hvalue, hfound]
  | enum node => rfl
  | struct node =>
    simp only [Findings.plain_append]
    rw [plain_ofMembers (hids _) node.fields (plain_ofVariable inner),
      plain_ofMembers (hids _) node.functions (plain_ofFunction inner)]
  | interface node =>
    exact plain_ofMembers (hids _) node.functions (plain_ofFunction inner)
  | «class» node =>
    simp only [Findings.plain_append]
    rw [plain_ofMembers (hids _) node.fields (plain_ofVariable inner),
      plain_ofMembers (hids _) node.constructors fun id (node : ConstructorNode) =>
        plain_ofCallable inner id node.params [],
      plain_ofMembers (hids _) node.functions (plain_ofFunction inner)]

end LinkSignatures

/-! ## Where contexts agree -/

lemma Body.shape_of_kin {body body' : Body} (hkin : body'.kin = body.kin)
    (hlists : ∀ category, (body'.members? category).map (List.map Member.header)
      = (body.members? category).map (List.map Member.header)) : body'.shape = body.shape := by
  have helements := hlists .enumElement
  have hfields := hlists .structVariable
  have hfunctions := hlists .structFunction
  have hinterface := hlists .interfaceFunction
  have hclassFields := hlists .classVariable
  have hconstructors := hlists .constructor
  have hclassFunctions := hlists .classFunction
  clear hlists
  cases body' <;> cases body <;> simp_all [Body.kin, Body.shape, Body.members?]

/-- Header, members and kin make up the shape. -/
lemma Entry.shape_of_front_kin {entry entry' : Entry} (hfront : entry'.front = entry.front)
    (hkin : entry'.body.kin = entry.body.kin) : entry'.shape = entry.shape := by
  obtain ⟨hskeleton, hroll⟩ := Prod.mk.inj hfront
  have hbody : entry'.body.shape = entry.body.shape := Body.shape_of_kin hkin (congrFun hroll)
  have hshape : entry'.shape = { entry'.skeleton with body := entry'.body.shape } := rfl
  rw [hshape, hbody, hskeleton]
  rfl

namespace LibrarySet

variable {set set' : LibrarySet}

/-- The two models have the same namespaces, and in every slot the same header with the same members
in front. -/
structure SameFronts (set set' : LibrarySet) : Prop where
  skeleton : set'.skeleton = set.skeleton
  front : ∀ library category index, set'.front? library category index
    = set.front? library category index

/-- The two models have the same namespaces, and in every slot the same shape. -/
structure SameShapes (set set' : LibrarySet) : Prop where
  skeleton : set'.skeleton = set.skeleton
  shape : ∀ library category index, (set'.slot? library category index).map Entry.shape
    = (set.slot? library category index).map Entry.shape

lemma SameShapes.of_front_kin (hskeleton : set'.skeleton = set.skeleton)
    (hfront : ∀ library category index, set'.front? library category index
      = set.front? library category index)
    (hkin : ∀ id, set'.kin? id = set.kin? id) : SameShapes set set' := by
  refine ⟨hskeleton, fun library category index => ?_⟩
  have hfront := hfront library category index
  have hkin := hkin ⟨library, category, index, none⟩
  rw [front?, front?] at hfront
  rw [kin?, kin?] at hkin
  cases hslot : set.slot? library category index with
  | none =>
    rw [hslot, Option.map_none, Option.map_eq_none_iff] at hfront
    rw [hfront]
  | some entry =>
    rw [hslot] at hfront hkin
    obtain ⟨entry', hslot', heq⟩ := Option.map_eq_some_iff.1 hfront
    rw [hslot', Option.map_some, Option.map_some, Option.some.injEq] at hkin
    rw [hslot', Option.map_some, Option.map_some, Entry.shape_of_front_kin heq hkin]

lemma SameShapes.matches (same : SameShapes set set') (hid : set.Identified) :
    set.Matches Entry.shape .refl .all set' := by
  refine { Matches.of_skeleton_eq hid same.skeleton with
    slots := fun library category index _ => ?_ }
  simpa using same.shape library category index

/-- The header of any declaration, top-level or member. -/
lemma SameFronts.find?_skeleton (same : SameFronts set set') (hid : set.Identified)
    (hid' : set'.Identified) (id : DeclId) :
    (set'.find? id).map Entry.skeleton = (set.find? id).map Entry.skeleton := by
  have hpart (entry : Entry) : (id.part? entry).map Entry.skeleton
      = id.owner?.elim (some entry.front.1) fun _ => (entry.front.2 id.category).bind fun list =>
          list[id.index]?.map fun m => m.toEntry.skeleton := by
    unfold DeclId.part?
    cases id.owner? with
    | none => rfl
    | some owner =>
      simp only [Entry.front, Entry.roll]
      cases entry.body.members? id.category with
      | none => rfl
      | some list =>
        simp only [Option.bind_some, Option.map_some, List.getElem?_map, Option.map_map]
        rfl
  have hfront := same.front id.library id.seat.1 id.seat.2
  rw [find?_eq hid', find?_eq hid]
  rw [front?, front?] at hfront
  cases hslot : set.slot? id.library id.seat.1 id.seat.2 with
  | none =>
    rw [hslot, Option.map_none, Option.map_eq_none_iff] at hfront
    rw [hfront]
  | some entry =>
    rw [hslot] at hfront
    obtain ⟨entry', hslot', heq⟩ := Option.map_eq_some_iff.1 hfront
    rw [hslot', Option.bind_some, Option.bind_some, hpart, hpart, heq]

end LibrarySet

namespace Linkage

variable {state state' : Linkage} (hunit : state'.unit.plain = state.unit.plain)
  (options : LinkOptions)

include hunit

lemma plain_found {find : Context → DeclId → DeclNode → Findings}
    (hfind : ∀ scope id node, (find (state'.context options scope) id node).plain
      = (find (state.context options scope) id node).plain) :
    (state'.found options find).plain = (state.found options find).plain := by
  have hdecls : state'.unit.declarations = state.unit.declarations :=
    congrArg (·.declarations) hunit
  have htree : state'.unit.tree = state.unit.tree := congrArg (·.tree) hunit
  have hscopes : state'.unit.scopes = state.unit.scopes := congrArg (·.scopes) hunit
  rw [found, found, hdecls, hscopes, SourceUnit.nodes, htree]
  exact Findings.plain_join_map fun x _ => hfind x.2 x.1.1 x.1.2

lemma context_matches (scope : DeclScope) :
    (state.context options scope).Matches .refl (state'.context options scope) := by
  have htree : state'.unit.tree = state.unit.tree := congrArg (·.tree) hunit
  have hlibrary : state'.unit.library = state.unit.library := congrArg (·.library) hunit
  refine ⟨?_, ?_, ?_, ?_⟩ <;> simp [context, SourceUnit.path, htree, hlibrary]

/-- The bases that are found depend on headers only. -/
lemma plain_foundBases (hid : state.libraries.Identified) (hid' : state'.libraries.Identified)
    (same : state.libraries.SameFronts state'.libraries) :
    (state'.found options LinkBases.findings).plain
      = (state.found options LinkBases.findings).plain := by
  refine plain_found hunit options fun scope id node => LinkBases.plain_findings ?_ id node
  have m := context_matches hunit options scope
  refine ⟨m.document, by simpa using m.imports, rfl, by simpa using m.space, same.skeleton,
    fun id => ?_, fun _ => rfl⟩
  have hfind (id : DeclId) :
      (state'.libraries.find? (Renumbering.refl.decl id)).map Entry.skeleton
        = (state.libraries.find? id).map fun entry => Renumbering.refl.entry entry.skeleton := by
    simpa using same.find?_skeleton hid hid' id
  have hvisible := m.isVisible_of (.of_skeleton_eq hid same.skeleton)
    (state.context options scope).among_everywhere (hfind id)
    (fun owner _ => hfind owner) fun _ _ => rfl
  simpa using hvisible

/-- The signatures that are found depend on shapes only. -/
lemma plain_foundSignatures (hid : state.libraries.Identified)
    (same : state.libraries.SameShapes state'.libraries) :
    (state'.found options LinkSignatures.findings).plain
      = (state.found options LinkSignatures.findings).plain := by
  have hagrees {ctx ctx' : Context} (hset : ctx.libraries = state.libraries)
      (hset' : ctx'.libraries = state'.libraries) (m : ctx.Matches .refl ctx')
      (hsuggestions : ctx'.suggestions = ctx.suggestions) : ctx.Agrees ctx' := by
    have hshape : ctx.libraries.Matches Entry.shape .refl .all ctx'.libraries := by
      rw [hset, hset']
      exact same.matches hid
    refine ⟨m.document, by simpa using m.imports, hsuggestions, by simpa using m.space, ?_,
      fun id => by
        simpa using @Context.Matches.isVisible _ _ _ _ hshape m ctx.among_everywhere id trivial,
      fun name => by
        simpa using m.findMember_eq hshape ctx.among_everywhere (fun _ _ _ _ => trivial) name⟩
    rw [hset, hset']
    exact same.skeleton
  refine plain_found hunit options fun scope id node => ?_
  have m := context_matches hunit options scope
  refine LinkSignatures.plain_findings (hagrees rfl rfl m rfl)
    (hagrees rfl rfl ⟨m.document, m.space, m.imports, by simp⟩ rfl) (fun category => ?_) node
  have hids := @LinkSignatures.memberIds_decl .refl .all (state.context options scope)
    (state'.context options scope) (same.matches hid) id trivial category
  simpa using hids

end Linkage

end SymbolGraph
