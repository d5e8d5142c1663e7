import SymbolGraph.Proofs.Linking.ForeignLibraries
import SymbolGraph.Proofs.Linking.WrittenTypes

/-!
# How linking realizes records

A record starts blank.  Declaring members gives it the form of its node (`Criteria.form`), linking
bases accounts for what it inherits (`Criteria.based`), and linking signatures gives every part its
type, at which point the node is realized.

Each pass over a document takes the document's own records one step further.  It leaves the cores of
all other records alone, and targets stay live, so what other documents have reached they keep
(`Durable`); `Linkages.realized_link` runs through the four passes.
-/

namespace SymbolGraph

/-! ## Criteria -/

/-- The form of a record, with nothing asked of types. -/
def Criteria.form : Criteria where
  ofVariable _ _ := True
  ofCallable _ _ part := ∃ info, part = .callable info
  ofTask _ _ := True
  ofBases _ _ _ := True

/-- The form of a record whose bases have been linked. -/
def Criteria.based (set : LibrarySet) (reports : List Diagnostic) : Criteria :=
  { Criteria.form with ofBases := Based set reports }

lemma Members.imp {α : Type} {name : α → Ident} {P Q : α → Leaf → Prop} {nodes : List α}
    {list list' : List Member} (h : Members name P nodes list)
    (hcore : list'.map Member.core = list.map Member.core)
    (hP : ∀ node part part', Leaf.core part' = Leaf.core part → P node part → Q node part') :
    Members name Q nodes list' := by
  induction h generalizing list' with
  | nil =>
    obtain rfl : list' = [] := by simpa using hcore
    exact .nil
  | @cons node m nodes list hm _ ih =>
    cases list' with
    | nil => simp at hcore
    | cons m' rest =>
      rw [List.map_cons, List.map_cons, List.cons.injEq] at hcore
      have hname : m'.core.name = m.core.name := by rw [hcore.1]
      have hbody : m'.core.body = m.core.body := by rw [hcore.1]
      exact .cons ⟨hname.trans hm.1, hP node _ _ hbody hm.2⟩ (ih hcore.2)

/-- Criteria are met by all records of one core, and they can be weakened part by part. -/
lemma DeclNode.Meets.imp {asked asked' : Criteria} {node : DeclNode} {body body' : Body}
    (h : node.Meets asked body) (hcore : body'.core = body.core)
    (hvariable : ∀ node part part', Leaf.core part' = Leaf.core part →
      asked.ofVariable node part → asked'.ofVariable node part')
    (hcallable : ∀ params returns part part', Leaf.core part' = Leaf.core part →
      asked.ofCallable params returns part → asked'.ofCallable params returns part')
    (htask : ∀ written returns, asked.ofTask written returns → asked'.ofTask written returns)
    (hbases : ∀ written parent inherits, asked.ofBases written parent inherits →
      asked'.ofBases written parent inherits) : node.Meets asked' body' := by
  have hfunction (node : FunctionNode) (part part' : Leaf) (hpart : part'.core = part.core)
      (h : asked.ofFunction node part) : asked'.ofFunction node part' :=
    hcallable _ _ _ _ hpart h
  have hconstructor (node : ConstructorNode) (part part' : Leaf) (hpart : part'.core = part.core)
      (h : asked.ofCallable node.params [] part) : asked'.ofCallable node.params [] part' :=
    hcallable _ _ _ _ hpart h
  -- A node meets its criteria only in a body of its kind, and cores keep the kind.
  cases node <;> cases body <;> try exact h.elim
  all_goals cases body' <;> try (simp [Body.core] at hcore; done)
  case variable.leaf.leaf node part part' =>
    exact hvariable node part part' (by simpa [Body.core] using hcore) h
  case function.leaf.leaf node part part' =>
    exact hfunction node part part' (by simpa [Body.core] using hcore) h
  case native.leaf.leaf node part part' =>
    exact hfunction node part part' (by simpa [Body.core] using hcore) h
  case delegate.leaf.leaf node part part' =>
    exact hcallable _ _ part part' (by simpa [Body.core] using hcore) h
  case task.task.task node returns returns' =>
    obtain rfl : returns' = returns := by simpa [Body.core] using hcore
    exact htask _ _ h
  case enum.enum.enum node elements elements' =>
    have helements : Members (fun element => element) (fun _ part => part = .element)
      node.elements elements := h
    refine helements.imp (Q := fun _ part => part = .element) (by simpa [Body.core] using hcore) ?_
    rintro _ part part' hpart rfl
    cases part' <;> simp [Leaf.core, Leaf.overCallable] at hpart ⊢
  case struct.struct.struct node fields functions fields' functions' =>
    simp only [Body.core, Body.struct.injEq] at hcore
    exact ⟨h.1.imp hcore.1 hvariable, h.2.imp hcore.2 hfunction⟩
  case interface.interface.interface node info info' =>
    simp only [Body.core, Body.interface.injEq, InterfaceInfo.mk.injEq] at hcore
    obtain ⟨hinherits, hfunctions, -⟩ := hcore
    refine ⟨h.1.imp hfunctions hfunction, ?_⟩
    rw [hinherits]
    exact hbases _ _ _ h.2
  case class.class.class node info info' =>
    simp only [Body.core, Body.class.injEq, ClassInfo.mk.injEq] at hcore
    obtain ⟨hparent, hinherits, hfields, hconstructors, hfunctions, -⟩ := hcore
    refine ⟨h.1.imp hfields hvariable, h.2.1.imp hconstructors hconstructor,
      h.2.2.1.imp hfunctions hfunction, ?_⟩
    rw [hparent, hinherits]
    exact hbases _ _ _ h.2.2.2

/-- `E` survives when targets stay live, reports are added and traces change. -/
structure Durable (E : LibrarySet → List Diagnostic → DeclNode → Body → Prop) : Prop where
  keep : ∀ {set set' : LibrarySet} {reports reports' : List Diagnostic} {node : DeclNode}
    {body body' : Body}, (∀ {target}, set.Live target → set'.Live target) →
    (∀ d ∈ reports, d ∈ reports') → body'.core = body.core → E set reports node body →
    E set' reports' node body'

lemma Based.mono {set set' : LibrarySet} {reports reports' : List Diagnostic}
    {written : List TypeRef} {parent : Option Ty} {inherits : List Ty}
    (h : Based set reports written parent inherits)
    (hlive : ∀ {target}, set.Live target → set'.Live target)
    (hsub : ∀ d ∈ reports, d ∈ reports') : Based set' reports' written parent inherits := by
  obtain ⟨stored, hstored, heq⟩ := h.accounted
  refine ⟨h.parent_code, h.inherits_code, stored, hstored.imp fun base slot hslot => ?_, heq⟩
  cases slot with
  | none => exact hslot.mono hsub
  | some ty => exact ⟨hslot.1.mono hlive, hslot.2⟩

lemma Leaf.exists_callable {part part' : Leaf} (hcore : part'.core = part.core)
    (h : ∃ info, part = .callable info) : ∃ info, part' = .callable info := by
  obtain ⟨info, rfl⟩ := h
  cases part' with
  | callable info' => exact ⟨info', rfl⟩
  | «variable» _ => simp [Leaf.core, Leaf.overCallable] at hcore
  | element => simp [Leaf.core, Leaf.overCallable] at hcore

lemma durable_form : Durable fun _ _ => DeclNode.Meets Criteria.form where
  keep _ _ hcore h := h.imp hcore (fun _ _ _ _ _ => trivial)
    (fun _ _ _ _ => Leaf.exists_callable) (fun _ _ _ => trivial) fun _ _ _ _ => trivial

lemma durable_based : Durable fun set reports =>
    DeclNode.Meets (Criteria.based set reports) where
  keep hlive hsub hcore h := h.imp hcore (fun _ _ _ _ _ => trivial)
    (fun _ _ _ _ => Leaf.exists_callable) (fun _ _ _ => trivial)
    fun _ _ _ h => h.mono hlive hsub

lemma durable_realized : Durable DeclNode.Realized := by
  refine ⟨fun {set set' reports reports' node body body'} hlive hsub hcore h => ?_⟩
  have htyped : ∀ written ty, Typed set reports written ty → Typed set' reports' written ty :=
    fun _ _ h => h.mono hlive hsub
  refine DeclNode.Meets.imp h hcore ?_ ?_ (fun _ _ h => h.imp htyped)
    fun _ _ _ h => h.mono hlive hsub
  · intro node part part' hpart hvariable
    cases part <;> try exact hvariable.elim
    cases part' <;> simp [Leaf.core, Leaf.overCallable] at hpart
    rw [hpart]
    exact ⟨hvariable.1, htyped _ _ hvariable.2⟩
  · intro params returns part part' hpart hcallable
    cases part <;> try exact hcallable.elim
    cases part' <;> simp [Leaf.core, Leaf.overCallable] at hpart
    refine ⟨?_, ?_⟩
    · rw [hpart.1]
      exact hcallable.1.imp fun written param h => ⟨h.1, htyped _ _ h.2⟩
    · rw [hpart.2]
      exact hcallable.2.imp htyped

/-! ## Members -/

/-- The members that are declared for the nodes of one list. -/
lemma members_declared {α : Type} {name : α → Ident} {visibility : α → Visibility}
    {P : α → Leaf → Prop} {category : Category} (h : ∀ node, P node (.fresh category))
    (document : String) (id : DeclId) (owner : Entry) (nodes : List α) :
    Members name P nodes ((DeclNode.membersOf category name visibility nodes).map
      (LinkMembers.member document id owner)) := by
  have hall : ∀ k, Members name P nodes (((nodes.zipIdx k).map fun entry =>
      MemberNode.mk category entry.2 (name entry.1) (visibility entry.1)).map
        (LinkMembers.member document id owner)) := by
    induction nodes with
    | nil => exact fun _ => .nil
    | cons node rest ih =>
      intro k
      rw [List.zipIdx_cons, List.map_cons, List.map_cons]
      exact .cons ⟨rfl, h node⟩ (ih (k + 1))
  exact hall 0

/-- Each member list of a blank record gets the members of its category. -/
lemma DeclNode.members?_declared {node : DeclNode} {body : Body}
    (hblank : body.core = Body.fresh node.category) (document : String) (id : DeclId)
    (owner : Entry) {c : Category} (hempty : (Body.fresh node.category).members? c = some []) :
    ((node.memberNodes.map (LinkMembers.member document id owner)).foldl
        (fun body m => LinkMembers.addMember m body) body).members? c
      = some ((node.memberNodes.filter fun m => m.category = c).map
          (LinkMembers.member document id owner)) := by
  have hnone : body.members? c = some [] := by
    have hlist := body.members?_core c
    rw [hblank, hempty] at hlist
    obtain ⟨list, hlist, hnil⟩ := Option.map_eq_some_iff.1 hlist.symm
    rw [hlist, List.map_eq_nil_iff.1 hnil]
  rw [LinkMembers.members?_addMembers, hnone, Option.map_some, List.nil_append,
    LinkMembers.filter_members]

lemma Body.exists_callable {body : Body} (h : body.core = .leaf (.callable {})) :
    ∃ part, body = .leaf part ∧ ∃ info, part = .callable info := by
  cases body <;> simp only [Body.core, reduceCtorEq, Body.leaf.injEq] at h
  next part => exact ⟨part, rfl, @Leaf.exists_callable (.callable {}) part h ⟨_, rfl⟩⟩

/-- A struct has the form of its node if its lists are those that the node declares. -/
lemma DeclNode.form_struct {node : StructNode} {body : Body} {document : String} {id : DeclId}
    {owner : Entry} (hmembers : ∀ c, (Body.fresh .struct).members? c = some [] →
      body.members? c = some (((DeclNode.struct node).memberNodes.filter fun m =>
        m.category = c).map
        (LinkMembers.member document id owner))) : (DeclNode.struct node).Meets .form body := by
  have hfields := hmembers .structVariable rfl
  have hfunctions := hmembers .structFunction rfl
  cases body <;> simp only [Body.members?, reduceCtorEq, Option.some.injEq] at hfields hfunctions
  rw [hfields, hfunctions]
  simp only [memberNodes, List.filter_append, filter_membersOf, if_true, reduceCtorEq, if_false,
    List.append_nil, List.nil_append]
  exact ⟨members_declared (fun _ => trivial) .., members_declared (fun _ => ⟨_, rfl⟩) ..⟩

/-- So has a class. -/
lemma DeclNode.form_class {node : ClassNode} {body : Body} {document : String} {id : DeclId}
    {owner : Entry} (hmembers : ∀ c, (Body.fresh .class).members? c = some [] →
      body.members? c = some (((DeclNode.class node).memberNodes.filter fun m => m.category = c).map
        (LinkMembers.member document id owner))) : (DeclNode.class node).Meets .form body := by
  have hfields := hmembers .classVariable rfl
  have hconstructors := hmembers .constructor rfl
  have hfunctions := hmembers .classFunction rfl
  cases body <;> simp only [Body.members?, reduceCtorEq, Option.some.injEq]
    at hfields hconstructors hfunctions
  simp only [memberNodes, List.filter_append, filter_membersOf, if_true, reduceCtorEq, if_false,
    List.append_nil, List.nil_append] at hfields hconstructors hfunctions
  refine ⟨?_, ?_, ?_, trivial⟩
  · rw [hfields]
    exact members_declared (fun _ => trivial) ..
  · rw [hconstructors]
    exact members_declared (fun _ => ⟨_, rfl⟩) ..
  · rw [hfunctions]
    exact members_declared (fun _ => ⟨_, rfl⟩) ..

/-- A blank record gets the form of its node when its members are declared. -/
theorem DeclNode.form_declared {node : DeclNode} {body : Body}
    (hblank : body.core = Body.fresh node.category) (document : String) (id : DeclId)
    (owner : Entry) : node.Meets .form ((node.memberNodes.map
      (LinkMembers.member document id owner)).foldl
        (fun body m => LinkMembers.addMember m body) body) := by
  have hmembers (c : Category) := @members?_declared node body hblank document id owner c
  generalize hbody : (node.memberNodes.map (LinkMembers.member document id owner)).foldl
    (fun body m => LinkMembers.addMember m body) body = body' at hmembers
  have hkept (h : node.memberNodes = []) : body'.core = Body.fresh node.category := by
    rw [← hbody, h, List.map_nil, List.foldl_nil, hblank]
  cases node with
  | «variable» node =>
    have hcore := hkept rfl
    cases body' <;> simp only [Body.core, Body.fresh, category, reduceCtorEq] at hcore
    trivial
  | function node =>
    obtain ⟨part, rfl, h⟩ := Body.exists_callable (hkept rfl)
    exact h
  | native node =>
    obtain ⟨part, rfl, h⟩ := Body.exists_callable (hkept rfl)
    exact h
  | delegate node =>
    obtain ⟨part, rfl, h⟩ := Body.exists_callable (hkept rfl)
    exact h
  | task node =>
    have hcore := hkept rfl
    cases body' <;> simp only [Body.core, Body.fresh, category, reduceCtorEq] at hcore
    trivial
  | enum node =>
    have helements := hmembers .enumElement rfl
    cases body' <;> simp only [Body.members?, reduceCtorEq, Option.some.injEq] at helements
    rw [helements]
    simp only [memberNodes, filter_membersOf, if_true]
    exact members_declared (P := fun _ part => part = .element) (fun _ => rfl) ..
  | struct node => exact form_struct hmembers
  | interface node =>
    have hfunctions := hmembers .interfaceFunction rfl
    cases body' <;> simp only [Body.members?, reduceCtorEq, Option.some.injEq] at hfunctions
    refine ⟨?_, trivial⟩
    rw [hfunctions]
    simp only [memberNodes, filter_membersOf, if_true]
    exact members_declared (fun _ => ⟨_, rfl⟩) ..
  | «class» node => exact form_class hmembers

/-! ## Updates -/

/-- An update as an edit of its target. -/
def Update.edit : Update → Edit
  | .variable _ info => .setLeaf (.variable info)
  | .callable _ params returns => .callable fun c => { c with params, returns }
  | .task _ returns => .body fun _ => .task returns
  | .inheritance _ parent inherits => .body (setBases parent inherits)

lemma Update.apply_eq (set : LibrarySet) (update : Update) :
    update.apply set = set.edit update.target update.edit := by
  cases update <;> rfl

/-- What updates make of the entry at their seat. -/
def Entry.revise (entry : Entry) (updates : List Update) : Entry :=
  updates.foldl (fun entry update => update.edit.atSeat update.target entry) entry

lemma Entry.revise_append (entry : Entry) (first second : List Update) :
    entry.revise (first ++ second) = (entry.revise first).revise second := List.foldl_append

/-- A single update of the declaration itself. -/
lemma Entry.revise_top (entry : Entry) {update : Update} (htop : update.target.owner? = none) :
    entry.revise [update] = update.edit.onEntry entry := by
  rw [revise, List.foldl_cons, List.foldl_nil, Edit.atSeat, htop]

lemma Findings.updates_join (all : List Findings) :
    (join all).updates = all.flatMap Findings.updates := by
  induction all with
  | nil => rfl
  | cons a rest ih => simpa [join] using ih

lemma Context.updates_resolveType (ctx : Context) (ty : TypeRef) :
    (ctx.resolveType ty).found.updates = [] := by
  unfold resolveType
  dsimp only
  split
  · split <;> rfl
  · rfl
  · rfl

/-! ## Bases -/

namespace LinkBases

/-- The role fits the type that it is given to. -/
def Role.Fits (ty : Ty) : Role → Prop
  | .parent => ty.isInvalid = false ∧ ty.code = .handle
  | .interface => ty.isInvalid = false ∧ ty.code = .interface
  | .unresolved => ty.isInvalid = true
  | .refused _ => True

lemma fits_roleForInterface (written : TypeRef) (ty : Ty) :
    (roleForInterface written ty).Fits ty := by
  unfold roleForInterface
  split
  · next hinvalid => exact hinvalid
  · next hvalid =>
    split
    · next hcode => exact ⟨by simpa using hvalid, hcode.1⟩
    · trivial

lemma fits_roleForClass (position : Nat) (written : TypeRef) (ty : Ty) :
    (roleForClass position written ty).Fits ty := by
  unfold roleForClass
  split
  · next hinvalid => exact hinvalid
  · next hvalid =>
    have hvalid : ty.isInvalid = false := by simpa using hvalid
    split
    · trivial
    · split
      · next hcode =>
        split
        · exact ⟨hvalid, hcode⟩
        · trivial
      · split
        · next hcode => exact ⟨hvalid, hcode⟩
        · trivial

/-- The type that is stored for an inherited type. -/
def Base.stored? (base : Base) : Option Ty :=
  match base.role with
  | .parent | .interface => some base.resolved.value
  | _ => none

variable {ctx : Context}

/-- What an inherited type comes to. -/
structure Base.Linked (ctx : Context) (written : TypeRef) (base : Base) : Prop where
  path_ne : written.path ≠ []
  written_eq : base.written = written
  resolved_eq : base.resolved = ctx.resolveType written
  fits : base.role.Fits base.resolved.value

lemma Base.Linked.accounted {written : TypeRef} {base : Base} (linked : base.Linked ctx written)
    (legible : ctx.libraries.Legible) (heir : DeclId) : match base.stored? with
      | some ty => ty.Denotes ctx.libraries ∧ ty.dimension = written.dimension
      | none => written.Reported (base.findings heir).diagnostics := by
  have htyped := Context.typed_resolveType legible linked.path_ne
  rw [← linked.resolved_eq] at htyped
  have hfits := linked.fits
  -- A base that is not stored has an error about it or about its type.
  cases hrole : base.role with
  | parent =>
    rw [hrole] at hfits
    simp only [stored?, hrole]
    exact htyped.denotes hfits.1
  | interface =>
    rw [hrole] at hfits
    simp only [stored?, hrole]
    exact htyped.denotes hfits.1
  | unresolved =>
    rw [hrole] at hfits
    simp only [stored?, hrole]
    refine (htyped.reported hfits).mono fun d hd => ?_
    simp [findings, hd]
  | refused message =>
    simp only [stored?, hrole]
    refine ⟨.error base.written.range .invalidInheritance message, ?_, rfl, Or.inl ?_⟩
    · simp [findings, hrole, Findings.ofDiagnostic]
    · exact congrArg TypeRef.range linked.written_eq

/-- What is stored for inherited types, if only the first of them can be a parent class. -/
lemma stored_bases {bases : List Base} (hfirst : ∀ base ∈ bases.tail, base.parent? = none) :
    (bases.findSome? Base.parent?).toList ++ bases.filterMap Base.interface?
      = bases.filterMap Base.stored? := by
  cases bases with
  | nil => rfl
  | cons base rest =>
    have hnone : rest.findSome? Base.parent? = none := List.findSome?_eq_none_iff.2 hfirst
    have hrest : rest.filterMap Base.stored? = rest.filterMap Base.interface? := by
      refine List.filterMap_congr fun other hother => ?_
      have hparent := hfirst other hother
      cases hrole : other.role <;>
        simp_all [Base.stored?, Base.parent?, Base.interface?]
    rw [List.findSome?_cons, hnone, List.filterMap_cons, List.filterMap_cons, hrest]
    cases hrole : base.role <;> simp [Base.stored?, Base.parent?, Base.interface?, hrole]

/-- Inherited types are accounted for, if only the first of them can be a parent class. -/
lemma based_findingsOf (legible : ctx.libraries.Legible) {written : List TypeRef}
    {bases : List Base} (hlinked : List.Forall₂ (Base.Linked ctx) written bases)
    (hfirst : ∀ base ∈ bases.tail, base.parent? = none) (heir : DeclId) :
    Based ctx.libraries (findingsOf heir bases).diagnostics written
      (bases.findSome? Base.parent?) (bases.filterMap Base.interface?) := by
  have hfits := forall_mem_of_forall₂ hlinked (Q := fun base => base.role.Fits base.resolved.value)
    fun _ _ h => h.fits
  refine ⟨?_, ?_, bases.map Base.stored?, ?_, ?_⟩
  · intro ty hty
    obtain ⟨base, hbase, hparent⟩ := List.exists_of_findSome?_eq_some hty
    have hbase := hfits base hbase
    cases hrole : base.role <;> simp only [Base.parent?, hrole, reduceCtorEq, Option.some.injEq]
      at hparent
    rw [hrole] at hbase
    rw [← hparent]
    exact hbase.2
  · intro ty hty
    obtain ⟨base, hbase, hinterface⟩ := List.mem_filterMap.1 hty
    have hbase := hfits base hbase
    cases hrole : base.role <;> simp only [Base.interface?, hrole, reduceCtorEq, Option.some.injEq]
      at hinterface
    rw [hrole] at hbase
    rw [← hinterface]
    exact hbase.2
  · -- The errors of a base are among those of the whole list, where the criteria look for them.
    have hreports : ∀ base ∈ bases, ∀ d ∈ (base.findings heir).diagnostics,
        d ∈ (findingsOf heir bases).diagnostics := by
      intro base hbase d hd
      simp only [findingsOf, Findings.diagnostics_append, Findings.diagnostics_join,
        List.flatMap_map, List.mem_append, List.mem_flatMap]
      exact Or.inl ⟨base, hbase, hd⟩
    generalize (findingsOf heir bases).diagnostics = reports at hreports
    clear hfits hfirst
    induction hlinked with
    | nil => exact .nil
    | @cons ref base written bases hbase _ ih =>
      refine .cons ?_ (ih fun other hother => hreports other (List.mem_cons_of_mem _ hother))
      have haccounted := hbase.accounted legible heir
      cases hstored : base.stored? with
      | some ty => simpa only [hstored] using haccounted
      | none =>
        simp only [hstored] at haccounted
        exact haccounted.mono (hreports base (List.mem_cons_self ..))
  · rw [stored_bases hfirst, List.filterMap_map]
    rfl

lemma linked_interfaceBases {written : List TypeRef} (hpaths : ∀ ref ∈ written, ref.path ≠ []) :
    List.Forall₂ (Base.Linked ctx) written (interfaceBases ctx written) := by
  refine List.forall₂_map_right_iff.2 (List.forall₂_same.2 fun ref href => ?_)
  exact ⟨hpaths ref href, rfl, rfl, fits_roleForInterface ref _⟩

lemma linked_classBases {written : List TypeRef} (hpaths : ∀ ref ∈ written, ref.path ≠ []) :
    List.Forall₂ (Base.Linked ctx) written (classBases ctx written) := by
  have hall : ∀ k, List.Forall₂ (Base.Linked ctx) written
      ((written.zipIdx k).map fun entry => ⟨entry.1, ctx.resolveType entry.1,
        roleForClass entry.2 entry.1 (ctx.resolveType entry.1).value⟩) := by
    induction written with
    | nil => exact fun _ => .nil
    | cons ref rest ih =>
      intro k
      rw [List.zipIdx_cons, List.map_cons]
      refine .cons ⟨hpaths ref (List.mem_cons_self ..), rfl, rfl, fits_roleForClass k ref _⟩ ?_
      exact ih (fun other hother => hpaths other (List.mem_cons_of_mem _ hother)) (k + 1)
  exact hall 0

lemma parent?_interfaceBases (written : List TypeRef) :
    ∀ base ∈ interfaceBases ctx written, base.parent? = none := by
  intro base hbase
  obtain ⟨ref, -, rfl⟩ := List.mem_map.1 hbase
  unfold Base.parent? roleForInterface
  dsimp only
  split_ifs <;> rfl

lemma parent?_classBases (written : List TypeRef) :
    ∀ base ∈ (classBases ctx written).tail, base.parent? = none := by
  cases written with
  | nil => simp [classBases]
  | cons first rest =>
    rw [classBases, List.zipIdx_cons, List.map_cons, List.tail_cons]
    intro base hbase
    obtain ⟨⟨ref, position⟩, hmem, rfl⟩ := List.mem_map.1 hbase
    have hposition : position ≠ 0 := by
      have := List.le_snd_of_mem_zipIdx hmem
      simp only at this
      omega
    simp only [Base.parent?, roleForClass]
    split_ifs <;> rfl

lemma updates_findingsOf (id : DeclId) {bases : List Base}
    (hbases : ∀ base ∈ bases, base.resolved.found.updates = []) :
    (findingsOf id bases).updates
      = [.inheritance id (bases.findSome? Base.parent?) (bases.filterMap Base.interface?)] := by
  have hnone : (bases.map (Base.findings id)).flatMap Findings.updates = [] := by
    refine List.flatMap_eq_nil_iff.2 fun found hfound => ?_
    obtain ⟨base, hbase, rfl⟩ := List.mem_map.1 hfound
    have hfound := hbases base hbase
    cases hrole : base.role <;>
      simp [Base.findings, hrole, hfound, Findings.ofDiagnostic]
  rw [findingsOf, Findings.updates_append, Findings.updates_join, hnone]
  rfl

/-- Linking the bases of a record accounts for them. -/
lemma based_revise (legible : ctx.libraries.Legible) {id : DeclId} (htop : id.owner? = none)
    {node : DeclNode} (hpaths : ∀ ref ∈ node.types, ref.path ≠ []) {entry : Entry}
    (h : node.Meets .form entry.body) :
    node.Meets (.based ctx.libraries (findings ctx id node).diagnostics)
      (entry.revise (findings ctx id node).updates).body := by
  obtain ⟨_, _, _, _, _, _, _, _, body⟩ := entry
  dsimp only at h
  cases node with
  | interface node =>
    cases body <;> try exact h.elim
    next info =>
    have hpaths : ∀ ref ∈ node.inherits, ref.path ≠ [] :=
      fun ref href => hpaths ref (List.mem_append_left _ href)
    have hparent := @parent?_interfaceBases ctx node.inherits
    have hbased := based_findingsOf legible (linked_interfaceBases hpaths)
      (fun base hbase => hparent base (List.mem_of_mem_tail hbase)) id
    rw [List.findSome?_eq_none_iff.2 hparent] at hbased
    rw [findings, updates_findingsOf id fun base hbase => ?_, Entry.revise_top _ (by exact htop)]
    · exact ⟨h.1, hbased⟩
    · obtain ⟨ref, -, rfl⟩ := List.mem_map.1 hbase
      exact ctx.updates_resolveType ref
  | «class» node =>
    cases body <;> try exact h.elim
    next info =>
    have hpaths : ∀ ref ∈ node.inherits, ref.path ≠ [] :=
      fun ref href => hpaths ref (by simp [DeclNode.types, href])
    have hbased := based_findingsOf legible (linked_classBases hpaths)
      (parent?_classBases node.inherits) id
    rw [findings, updates_findingsOf id fun base hbase => ?_, Entry.revise_top _ (by exact htop)]
    · exact ⟨h.1, h.2.1, h.2.2.1, hbased⟩
    · obtain ⟨⟨ref, position⟩, -, rfl⟩ := List.mem_map.1 hbase
      exact ctx.updates_resolveType ref
  | _ =>
    cases body <;> first | exact h.elim | exact h

end LinkBases

/-! ## Signatures -/

/-- Changing the elements of a list one after the other is changing them all at once. -/
lemma foldl_modify {α β : Type} (g : α → β → β) (nodes : List α) (list : List β)
    (hlength : nodes.length = list.length) :
    nodes.zipIdx.foldl (fun list (node, position) => list.modify position (g node)) list
      = List.zipWith g nodes list := by
  -- Generalised to start behind some elements that are done already.
  have hall : ∀ (done : List β), (nodes.zipIdx done.length).foldl
      (fun list (node, position) => list.modify position (g node)) (done ++ list)
        = done ++ List.zipWith g nodes list := by
    induction nodes generalizing list with
    | nil =>
      obtain rfl : list = [] := List.length_eq_zero_iff.1 hlength.symm
      simp
    | cons node rest ih =>
      cases list with
      | nil => simp at hlength
      | cons x xs =>
        intro done
        have hmodify : (done ++ x :: xs).modify done.length (g node)
            = (done ++ [g node x]) ++ xs := by
          induction done with
          | nil => simp
          | cons y ys ihys => simpa using ihys
        have hrest := ih xs (by simpa using hlength) (done ++ [g node x])
        rw [List.length_append, List.length_singleton] at hrest
        rw [List.zipIdx_cons, List.foldl_cons]
        dsimp only
        rw [hmodify, hrest]
        simp
  simpa using hall []

lemma Members.zipWith {α : Type} {name : α → Ident} {P Q : α → Leaf → Prop} {nodes : List α}
    {list : List Member} (h : Members name P nodes list) {g : α → Member → Member}
    (hname : ∀ node m, (g node m).name = m.name)
    (hg : ∀ node ∈ nodes, ∀ m : Member, P node m.body → Q node (g node m).body) :
    Members name Q nodes (List.zipWith g nodes list) := by
  induction h with
  | nil => exact .nil
  | @cons node m nodes list hm _ ih =>
    refine .cons ⟨(hname node m).trans hm.1, hg node (List.mem_cons_self ..) m hm.2⟩ ?_
    exact ih fun other hother => hg other (List.mem_cons_of_mem _ hother)

lemma Body.overMembers_overMembers (body : Body) (category : Category)
    (f g : List Member → List Member) : (body.overMembers category f).overMembers category g
      = body.overMembers category fun list => g (f list) := by
  cases body <;> cases category <;> rfl

lemma Body.overMembers_congr {body : Body} {category : Category} {list : List Member}
    (hlist : body.members? category = some list) {f g : List Member → List Member}
    (h : f list = g list) : body.overMembers category f = body.overMembers category g := by
  cases body <;> cases category <;> simp_all [members?, overMembers]

/-- Updates of the members of one category, in the order of their positions. -/
lemma Entry.revise_members {α : Type} (entry : Entry) {owner : DeclId} {category : Category}
    (hmember : category.isMember = true) {update : α → DeclId → Update} {g : α → Member → Member}
    (htarget : ∀ node id, (update node id).target = id)
    (hedit : ∀ node id, (update node id).edit.onMember = g node)
    (nodes : List (α × Nat)) : entry.revise (nodes.map fun (node, position) =>
        update node ⟨owner.library, category, position, some owner.index⟩)
      = entry.map (Body.overMembers category fun list =>
          nodes.foldl (fun list (node, position) => list.modify position (g node)) list) := by
  induction nodes generalizing entry with
  | nil =>
    have hid : entry.body.overMembers category (fun list => list) = entry.body := by
      cases entry.body <;> cases category <;> rfl
    simp only [List.map_nil, revise, List.foldl_nil, Symbol.map, hid]
  | cons node rest ih =>
    obtain ⟨node, position⟩ := node
    have howner :
        (⟨owner.library, category, position, some owner.index⟩ : DeclId).owner? ≠ none := by
      cases category <;> simp [Category.isMember, Category.owner?, DeclId.owner?] at hmember ⊢
    have hfirst : (update node ⟨owner.library, category, position, some owner.index⟩).edit.atSeat
        (update node ⟨owner.library, category, position, some owner.index⟩).target entry
          = entry.map (Body.overMembers category fun list => list.modify position (g node)) := by
      rw [htarget, Edit.atSeat, hedit]
      split
      · next hnone => exact absurd hnone howner
      · rfl
    have hrest := ih (entry.map (Body.overMembers category fun list =>
      list.modify position (g node)))
    rw [List.map_cons, revise, List.foldl_cons, hfirst]
    rw [revise] at hrest
    rw [hrest]
    simp only [Symbol.map, Body.overMembers_overMembers, List.foldl_cons]

namespace Context

variable {ctx : Context}

lemma typed_resolveTypes (legible : ctx.libraries.Legible) {types : List TypeRef}
    (hpaths : ∀ ty ∈ types, ty.path ≠ []) {reports : List Diagnostic}
    (hsub : ∀ d ∈ (ctx.resolveTypes types).found.diagnostics, d ∈ reports) :
    List.Forall₂ (Typed ctx.libraries reports) types (ctx.resolveTypes types).value := by
  simp only [resolveTypes, List.map_map] at hsub ⊢
  refine List.forall₂_map_right_iff.2 (List.forall₂_same.2 fun ty hty => ?_)
  refine (typed_resolveType legible (hpaths ty hty)).mono (fun h => h) fun d hd => hsub d ?_
  rw [Findings.diagnostics_join, List.flatMap_map]
  exact List.mem_flatMap_of_mem hty hd

lemma typed_resolveParams (legible : ctx.libraries.Legible) {params : List ParamNode}
    (hpaths : ∀ param ∈ params, param.ty.path ≠ []) {reports : List Diagnostic}
    (hsub : ∀ d ∈ (ctx.resolveParams params).found.diagnostics, d ∈ reports) :
    List.Forall₂ (fun written param => param.name = written.name.map Ident.name ∧
      Typed ctx.libraries reports written.ty param.ty) params (ctx.resolveParams params).value := by
  simp only [resolveParams, List.map_map] at hsub ⊢
  refine List.forall₂_map_right_iff.2 (List.forall₂_same.2 fun param hparam => ⟨rfl, ?_⟩)
  refine (typed_resolveType legible (hpaths param hparam)).mono (fun h => h) fun d hd => hsub d ?_
  rw [Findings.diagnostics_join, List.flatMap_map]
  exact List.mem_flatMap_of_mem hparam hd

lemma updates_resolveTypes (ctx : Context) (types : List TypeRef) :
    (ctx.resolveTypes types).found.updates = [] := by
  simp [resolveTypes, Findings.updates_join, List.flatMap_map, updates_resolveType]

lemma updates_resolveParams (ctx : Context) (params : List ParamNode) :
    (ctx.resolveParams params).found.updates = [] := by
  simp [resolveParams, Findings.updates_join, List.flatMap_map, updates_resolveType]

end Context

/-- What is asked of the types of a function is asked of its parameters and of its returns. -/
lemma FunctionNode.forall_mem_types {node : FunctionNode} {P : TypeRef → Prop} :
    (∀ ref ∈ node.types, P ref) ↔
      (∀ param ∈ node.params, P param.ty) ∧ ∀ ref ∈ node.returns, P ref := by
  simp only [types, List.forall_mem_append, List.forall_mem_map]

namespace LinkSignatures

variable {ctx : Context} {reports : List Diagnostic}

/-- The update for a variable. -/
def variableUpdate (ctx : Context) (node : VariableNode) (target : DeclId) : Update :=
  .variable target ⟨(ctx.resolveType node.ty).value, node.constant⟩

/-- The update for something with parameters. -/
def callableUpdate (ctx : Context) (params : List ParamNode) (returns : List TypeRef)
    (target : DeclId) : Update :=
  .callable target (ctx.resolveParams params).value (ctx.resolveTypes returns).value

lemma updates_ofVariable (target : DeclId) (node : VariableNode) :
    (ofVariable ctx target node).updates = [variableUpdate ctx node target] := by
  rw [ofVariable, Findings.updates_append, ctx.updates_resolveType]
  rfl

lemma updates_ofCallable (target : DeclId) (params : List ParamNode) (returns : List TypeRef) :
    (ofCallable ctx target params returns).updates
      = [callableUpdate ctx params returns target] := by
  rw [ofCallable, Findings.updates_append, Findings.updates_append, ctx.updates_resolveParams,
    ctx.updates_resolveTypes]
  rfl

lemma isVariable (legible : ctx.libraries.Legible) {target : DeclId} {node : VariableNode}
    (hpath : node.ty.path ≠ []) (hsub : ∀ d ∈
      (ofVariable ctx target node).diagnostics, d ∈ reports) :
    Leaf.IsVariable ctx.libraries reports node
      (.variable ⟨(ctx.resolveType node.ty).value, node.constant⟩) := by
  refine ⟨rfl, (Context.typed_resolveType legible hpath).mono (fun h => h) fun d hd => hsub d ?_⟩
  simp [ofVariable, hd]

lemma isCallable (legible : ctx.libraries.Legible) {target : DeclId} {params : List ParamNode}
    {returns : List TypeRef} (hparams : ∀ param ∈ params, param.ty.path ≠ [])
    (hreturns : ∀ ty ∈ returns, ty.path ≠ [])
    (hsub : ∀ d ∈ (ofCallable ctx target params returns).diagnostics, d ∈ reports)
    (info : Callable) : Leaf.IsCallable ctx.libraries reports params returns
      (.callable { info with
        params := (ctx.resolveParams params).value
        returns := (ctx.resolveTypes returns).value }) := by
  refine ⟨Context.typed_resolveParams legible hparams fun d hd => hsub d ?_,
    Context.typed_resolveTypes legible hreturns fun d hd => hsub d ?_⟩
  · simp [ofCallable, hd]
  · simp [ofCallable, hd]

/-- Linking something with parameters that is a declaration of its own. -/
lemma revise_callable (legible : ctx.libraries.Legible) {id : DeclId} (htop : id.owner? = none)
    {params : List ParamNode} {returns : List TypeRef}
    (hparams : ∀ param ∈ params, param.ty.path ≠ []) (hreturns : ∀ ty ∈ returns, ty.path ≠ [])
    (hsub : ∀ d ∈ (ofCallable ctx id params returns).diagnostics, d ∈ reports) {entry : Entry}
    {info : Callable} (hbody : entry.body = .leaf (.callable info)) :
    ∃ part, (entry.revise (ofCallable ctx id params returns).updates).body = .leaf part ∧
      part.IsCallable ctx.libraries reports params returns := by
  refine ⟨_, ?_, isCallable legible hparams hreturns hsub info⟩
  rw [updates_ofCallable, Entry.revise_top _ (by exact htop)]
  simp only [callableUpdate, Update.edit, Edit.callable, Symbol.body_map, hbody]
  rfl

/-- Members are paired with the identities of their positions. -/
lemma zip_memberIds {α : Type} (legible : ctx.libraries.Legible) {owner : DeclId}
    (hdefine : owner.define = none) {entry : Entry}
    (hslot : ctx.libraries.slot? owner.library owner.category owner.index = some entry)
    {category : Category} {list : List Member} (hlist : entry.body.members? category = some list)
    {nodes : List α} (hlength : nodes.length = list.length) :
    nodes.zip (memberIds ctx owner category) = nodes.zipIdx.map fun (node, position) =>
      (node, ⟨owner.library, category, position, some owner.index⟩) := by
  have howner : owner = ⟨owner.library, owner.category, owner.index, none⟩ := by
    rw [← hdefine]
  have hfind : ctx.libraries.find? owner = some entry := by
    obtain ⟨hid, hfind⟩ := legible.finds_slot hslot
    rw [hid, ← howner] at hfind
    exact hfind
  -- The identities of the members of a kind are numbered along the list.
  have hids : memberIds ctx owner category = (List.range nodes.length).map fun position =>
      ⟨owner.library, category, position, some owner.index⟩ := by
    rw [memberIds, hfind, Option.bind_some, hlist, Option.getD_some]
    refine List.ext_getElem? fun j => ?_
    rw [List.getElem?_map, List.getElem?_map, hlength]
    cases hm : list[j]? with
    | none =>
      rw [List.getElem?_eq_none (by simpa using hm)]
      rfl
    | some m =>
      have hj : j < list.length := (List.getElem?_eq_some_iff.1 hm).1
      rw [List.getElem?_range hj, Option.map_some, Option.map_some,
        (legible.find?_member hslot hlist hm).2.1]
  rw [hids, List.zip_map_right, List.zipIdx_eq_zip_range', ← List.range_eq_range']
  rfl

/-- Linking the members of one category. -/
lemma revise_ofMembers {α : Type} (legible : ctx.libraries.Legible) {owner : DeclId}
    (hdefine : owner.define = none) {entry : Entry}
    (hslot : ctx.libraries.slot? owner.library owner.category owner.index = some entry)
    {category : Category} (hmember : category.isMember = true) {list : List Member}
    (hlist : entry.body.members? category = some list) {name : α → Ident}
    {P Q : α → Leaf → Prop} {nodes : List α} (hmembers : Members name P nodes list)
    {find : DeclId → α → Findings} {update : α → DeclId → Update} {f : α → Leaf → Leaf}
    (hupdates : ∀ target node, (find target node).updates = [update node target])
    (htarget : ∀ node target, (update node target).target = target)
    (hedit : ∀ node target, (update node target).edit.onMember = fun m => m.map (f node))
    (hsub : ∀ d ∈ (ofMembers ctx owner category nodes find).diagnostics, d ∈ reports)
    (hf : ∀ node ∈ nodes, ∀ target, (∀ d ∈ (find target node).diagnostics, d ∈ reports) →
      ∀ part, P node part → Q node (f node part)) :
    ∃ list', Members name Q nodes list' ∧ ∀ entry' : Entry,
      entry'.body.members? category = some list →
      entry'.revise (ofMembers ctx owner category nodes find).updates
        = entry'.map (Body.overMembers category fun _ => list') := by
  have hlength : nodes.length = list.length := hmembers.length_eq
  have hzip := zip_memberIds legible hdefine hslot hlist hlength
  refine ⟨List.zipWith (fun node m => m.map (f node)) nodes list, ?_, ?_⟩
  · refine hmembers.zipWith (fun _ _ => rfl) fun node hnode m hm => ?_
    obtain ⟨position, hposition⟩ : ∃ position, (node, position) ∈ nodes.zipIdx := by
      obtain ⟨position, hlt, hget⟩ := List.mem_iff_getElem.1 hnode
      exact ⟨position, List.mem_zipIdx_iff_getElem?.2 (by simp [hget, hlt])⟩
    refine hf node hnode ⟨owner.library, category, position, some owner.index⟩ ?_ m.body hm
    intro d hd
    refine hsub d ?_
    rw [ofMembers, hzip, Findings.diagnostics_join, List.map_map, List.flatMap_map]
    exact List.mem_flatMap_of_mem hposition hd
  · intro entry' hlist'
    have hall : (ofMembers ctx owner category nodes find).updates
        = nodes.zipIdx.map fun (node, position) =>
          update node ⟨owner.library, category, position, some owner.index⟩ := by
      rw [ofMembers, hzip, Findings.updates_join, List.map_map, List.flatMap_map]
      simp only [Function.comp_apply, hupdates]
      rw [← List.map_eq_flatMap]
    rw [hall, Entry.revise_members entry' hmember htarget hedit]
    simp only [Symbol.map]
    congr 1
    refine Body.overMembers_congr hlist' ?_
    exact foldl_modify (fun node (m : Member) => m.map (f node)) nodes list hlength

section Record

variable (legible : ctx.libraries.Legible) {id : DeclId} (hdefine : id.define = none)
  {entry : Entry} (hslot : ctx.libraries.slot? id.library id.category id.index = some entry)
include legible hdefine hslot

/-- Linking the variables of a struct or class. -/
lemma revise_fields {category : Category} (hmember : category.isMember = true)
    {list : List Member} (hlist : entry.body.members? category = some list)
    {nodes : List VariableNode} (hpaths : ∀ node ∈ nodes, node.ty.path ≠ [])
    {P : VariableNode → Leaf → Prop} (hmembers : Members VariableNode.name P nodes list)
    (hsub : ∀ d ∈ (ofMembers ctx id category nodes
      (ofVariable { ctx with within := some id })).diagnostics, d ∈ reports) :
    ∃ list', Members VariableNode.name (fun node part => part.IsVariable ctx.libraries reports node)
        nodes list' ∧ ∀ entry' : Entry, entry'.body.members? category = some list →
      entry'.revise (ofMembers ctx id category nodes
          (ofVariable { ctx with within := some id })).updates
        = entry'.map (Body.overMembers category fun _ => list') := by
  let inner : Context := { ctx with within := some id }
  refine revise_ofMembers legible hdefine hslot hmember hlist hmembers
    (f := fun node _ => .variable ⟨(inner.resolveType node.ty).value, node.constant⟩)
    (fun target node => @updates_ofVariable inner target node) (fun _ _ => rfl)
    (fun _ _ => rfl) hsub ?_
  intro node hnode target hreports part _
  exact @isVariable inner _ legible _ _ (hpaths node hnode) hreports

/-- Linking the functions or constructors of a declaration. -/
lemma revise_callables {α : Type} {category : Category} (hmember : category.isMember = true)
    (params : α → List ParamNode) (returns : α → List TypeRef) {list : List Member}
    (hlist : entry.body.members? category = some list) {nodes : List α} {name : α → Ident}
    (hparams : ∀ node ∈ nodes, ∀ param ∈ params node, param.ty.path ≠ [])
    (hreturns : ∀ node ∈ nodes, ∀ ty ∈ returns node, ty.path ≠ [])
    (hmembers : Members name (fun _ part => ∃ info, part = .callable info) nodes list)
    (hsub : ∀ d ∈ (ofMembers ctx id category nodes fun target node =>
      ofCallable { ctx with within := some id } target (params node) (returns node)).diagnostics,
        d ∈ reports) :
    ∃ list', Members name (fun node part =>
        part.IsCallable ctx.libraries reports (params node) (returns node)) nodes list' ∧
      ∀ entry' : Entry, entry'.body.members? category = some list →
      entry'.revise (ofMembers ctx id category nodes fun target node =>
          ofCallable { ctx with within := some id } target (params node) (returns node)).updates
        = entry'.map (Body.overMembers category fun _ => list') := by
  let inner : Context := { ctx with within := some id }
  refine revise_ofMembers legible hdefine hslot hmember hlist hmembers
    (f := fun node => Leaf.overCallable fun c => { c with
      params := (inner.resolveParams (params node)).value
      returns := (inner.resolveTypes (returns node)).value })
    (fun target node => @updates_ofCallable inner target (params node) (returns node))
    (fun _ _ => rfl) (fun _ _ => rfl) hsub ?_
  rintro node hnode target hreports part ⟨info, rfl⟩
  exact @isCallable inner _ legible _ _ _ (hparams node hnode) (hreturns node hnode) hreports info

/-- Linking the functions of a struct, interface or class. -/
lemma revise_functions {category : Category} (hmember : category.isMember = true)
    {list : List Member} (hlist : entry.body.members? category = some list)
    {nodes : List FunctionNode} (hpaths : ∀ ref ∈ nodes.flatMap FunctionNode.types, ref.path ≠ [])
    (hmembers : Members FunctionNode.name (fun _ part => ∃ info, part = .callable info) nodes list)
    (hsub : ∀ d ∈ (ofMembers ctx id category nodes
      (ofFunction { ctx with within := some id })).diagnostics, d ∈ reports) :
    ∃ list', Members FunctionNode.name (fun node part =>
        part.IsCallable ctx.libraries reports node.params node.returns) nodes list' ∧
      ∀ entry' : Entry, entry'.body.members? category = some list →
      entry'.revise (ofMembers ctx id category nodes
          (ofFunction { ctx with within := some id })).updates
        = entry'.map (Body.overMembers category fun _ => list') := by
  have hwritten (node : FunctionNode) (hmem : node ∈ nodes) :=
    FunctionNode.forall_mem_types.1 fun ref href => hpaths ref (List.mem_flatMap_of_mem hmem href)
  exact revise_callables legible hdefine hslot hmember FunctionNode.params FunctionNode.returns
    hlist (fun node hmem => (hwritten node hmem).1) (fun node hmem => (hwritten node hmem).2)
    hmembers hsub

/-! The records with members, one lemma for each kind: every list of members is linked for itself,
and the lists of the body do not meet. -/

lemma realized_struct {node : StructNode} {fields functions : List Member}
    (hbody : entry.body = .struct fields functions)
    (hpaths : ∀ ref ∈ (DeclNode.struct node).types, ref.path ≠ [])
    (hsub : ∀ d ∈ (findings ctx id (.struct node)).diagnostics, d ∈ reports)
    (h : (DeclNode.struct node).Meets (.based ctx.libraries reports) (.struct fields functions)) :
    (DeclNode.struct node).Realized ctx.libraries reports
      (entry.revise (findings ctx id (.struct node)).updates).body := by
  have hfields (field : VariableNode) (hmem : field ∈ node.fields) : field.ty.path ≠ [] :=
    hpaths _ (List.mem_append_left _ (List.mem_map_of_mem hmem))
  have hfunctions (ref : TypeRef) (href : ref ∈ node.functions.flatMap FunctionNode.types) :
      ref.path ≠ [] := hpaths _ (List.mem_append_right _ href)
  obtain ⟨fields', hfields', hrevise⟩ := revise_fields legible hdefine hslot rfl
    (by rw [hbody]; rfl) hfields h.1 fun d hd => hsub d (List.mem_append_left _ hd)
  obtain ⟨functions', hfunctions', hrevise'⟩ := revise_functions legible hdefine hslot rfl
    (by rw [hbody]; rfl) hfunctions h.2 fun d hd => hsub d (List.mem_append_right _ hd)
  have hrevised : (entry.revise (findings ctx id (.struct node)).updates).body
      = .struct fields' functions' := by
    simp only [findings, Findings.updates_append, Entry.revise_append]
    rw [hrevise entry (by rw [hbody]; rfl)]
    refine (congrArg Symbol.body (hrevise' _ ?_)).trans ?_ <;>
      simp only [Symbol.body_map, hbody] <;> rfl
  rw [hrevised]
  exact ⟨hfields', hfunctions'⟩

lemma realized_interface {node : InterfaceNode} {info : InterfaceInfo}
    (hbody : entry.body = .interface info)
    (hpaths : ∀ ref ∈ (DeclNode.interface node).types, ref.path ≠ [])
    (hsub : ∀ d ∈ (findings ctx id (.interface node)).diagnostics, d ∈ reports)
    (h : (DeclNode.interface node).Meets (.based ctx.libraries reports) (.interface info)) :
    (DeclNode.interface node).Realized ctx.libraries reports
      (entry.revise (findings ctx id (.interface node)).updates).body := by
  have hfunctions (ref : TypeRef) (href : ref ∈ node.functions.flatMap FunctionNode.types) :
      ref.path ≠ [] := hpaths _ (List.mem_append_right _ href)
  obtain ⟨functions', hfunctions', hrevise⟩ := revise_functions legible hdefine hslot rfl
    (by rw [hbody]; rfl) hfunctions h.1 hsub
  have hrevised : (entry.revise (findings ctx id (.interface node)).updates).body
      = .interface { info with functions := functions' } := by
    refine (congrArg Symbol.body (hrevise entry (by rw [hbody]; rfl))).trans ?_
    simp only [Symbol.body_map, hbody]
    rfl
  rw [hrevised]
  exact ⟨hfunctions', h.2⟩

lemma realized_class {node : ClassNode} {info : ClassInfo} (hbody : entry.body = .class info)
    (hpaths : ∀ ref ∈ (DeclNode.class node).types, ref.path ≠ [])
    (hsub : ∀ d ∈ (findings ctx id (.class node)).diagnostics, d ∈ reports)
    (h : (DeclNode.class node).Meets (.based ctx.libraries reports) (.class info)) :
    (DeclNode.class node).Realized ctx.libraries reports
      (entry.revise (findings ctx id (.class node)).updates).body := by
  simp only [DeclNode.types, List.forall_mem_append, List.forall_mem_map] at hpaths
  obtain ⟨⟨⟨-, hfields⟩, hconstructors⟩, hfunctions⟩ := hpaths
  have hparams (constructor : ConstructorNode) (hmem : constructor ∈ node.constructors)
      (param : ParamNode) (hparam : param ∈ constructor.params) : param.ty.path ≠ [] :=
    hconstructors _ (List.mem_flatMap_of_mem hmem (List.mem_map_of_mem hparam))
  -- List by list; each time the reports are a part of those of the whole class.
  obtain ⟨fields', hfields', hrevise⟩ := revise_fields legible hdefine hslot rfl
    (by rw [hbody]; rfl) hfields h.1
    fun d hd => hsub d (List.mem_append_left _ (List.mem_append_left _ hd))
  obtain ⟨constructors', hconstructors', hrevise'⟩ := revise_callables legible hdefine hslot rfl
    ConstructorNode.params (fun _ => []) (by rw [hbody]; rfl) hparams
    (fun _ _ ty hty => by simp at hty) h.2.1
    fun d hd => hsub d (List.mem_append_left _ (List.mem_append_right _ hd))
  obtain ⟨functions', hfunctions', hrevise''⟩ := revise_functions legible hdefine hslot rfl
    (by rw [hbody]; rfl) hfunctions h.2.2.1 fun d hd => hsub d (List.mem_append_right _ hd)
  have hrevised : (entry.revise (findings ctx id (.class node)).updates).body
      = .class { info with
        fields := fields', constructors := constructors', functions := functions' } := by
    simp only [findings, Findings.updates_append, Entry.revise_append]
    rw [hrevise entry (by rw [hbody]; rfl), hrevise' _ (by simp only [Symbol.body_map, hbody]; rfl)]
    refine (congrArg Symbol.body (hrevise'' _ ?_)).trans ?_ <;>
      simp only [Symbol.body_map, hbody] <;> rfl
  rw [hrevised]
  exact ⟨hfields', hconstructors', hfunctions', h.2.2.2⟩

omit hdefine hslot in
/-- The signature of a variable, a function or a delegate is its own. -/
lemma realized_leaf (htop : id.owner? = none) {node : DeclNode} {part : Leaf}
    (hbody : entry.body = .leaf part) (hpaths : ∀ ref ∈ node.types, ref.path ≠ [])
    (hsub : ∀ d ∈ (findings ctx id node).diagnostics, d ∈ reports)
    (h : node.Meets (.based ctx.libraries reports) (.leaf part)) :
    node.Realized ctx.libraries reports (entry.revise (findings ctx id node).updates).body := by
  have hcallable {params : List ParamNode} {returns : List TypeRef} {part : Leaf}
      (hparams : ∀ param ∈ params, param.ty.path ≠ []) (hreturns : ∀ ty ∈ returns, ty.path ≠ [])
      (hsub : ∀ d ∈ (ofCallable ctx id params returns).diagnostics, d ∈ reports)
      (hbody : entry.body = .leaf part) (hform : ∃ info, part = .callable info) :
      ∃ part', (entry.revise (ofCallable ctx id params returns).updates).body = .leaf part' ∧
        part'.IsCallable ctx.libraries reports params returns := by
    obtain ⟨info, rfl⟩ := hform
    exact revise_callable legible htop hparams hreturns hsub hbody
  -- Functions, natives and delegates differ only in where their types are written.
  cases node <;> try exact h.elim
  case «variable» node =>
    have hvariable := isVariable legible (hpaths node.ty (List.mem_singleton_self _)) hsub
    rw [findings, updates_ofVariable, Entry.revise_top _ (by exact htop)]
    exact hvariable
  case function node | native node =>
    obtain ⟨hparams, hreturns⟩ := FunctionNode.forall_mem_types.1 hpaths
    obtain ⟨part', hbody', hpart⟩ := hcallable hparams hreturns hsub hbody h
    rw [findings, ofFunction, hbody']
    exact hpart
  case delegate node =>
    simp only [DeclNode.types, List.forall_mem_append, List.forall_mem_map] at hpaths
    obtain ⟨part', hbody', hpart⟩ := hcallable hpaths.1 hpaths.2 hsub hbody h
    rw [findings, hbody']
    exact hpart

/-- Linking the signatures of a record whose bases are linked realizes it. -/
theorem realized_revise (htop : id.owner? = none) {node : DeclNode}
    (hpaths : ∀ ref ∈ node.types, ref.path ≠ [])
    (hsub : ∀ d ∈ (findings ctx id node).diagnostics, d ∈ reports)
    (h : node.Meets (.based ctx.libraries reports) entry.body) :
    node.Realized ctx.libraries reports (entry.revise (findings ctx id node).updates).body := by
  cases hbody : entry.body with
  | leaf part =>
    rw [hbody] at h
    exact realized_leaf legible htop hbody hpaths hsub h
  | task returns =>
    rw [hbody] at h
    cases node <;> try exact h.elim
    next node =>
    have htyped := Context.typed_resolveTypes legible hpaths
      fun d hd => hsub d (List.mem_append_left _ hd)
    simp only [findings, Findings.updates_append, ctx.updates_resolveTypes, List.nil_append,
      Findings.ofUpdate]
    rw [Entry.revise_top _ (by exact htop)]
    exact htyped
  | enum elements =>
    rw [hbody] at h
    cases node <;> try exact h.elim
    next node =>
    show DeclNode.Meets _ _ entry.body
    rw [hbody]
    exact h
  | struct fields functions =>
    rw [hbody] at h
    cases node <;> try exact h.elim
    exact realized_struct legible hdefine hslot hbody hpaths hsub h
  | interface info =>
    rw [hbody] at h
    cases node <;> try exact h.elim
    exact realized_interface legible hdefine hslot hbody hpaths hsub h
  | «class» info =>
    rw [hbody] at h
    cases node <;> try exact h.elim
    exact realized_class legible hdefine hslot hbody hpaths hsub h
  | invalid =>
    rw [hbody] at h
    cases node <;> exact h.elim

end Record

end LinkSignatures

end SymbolGraph
