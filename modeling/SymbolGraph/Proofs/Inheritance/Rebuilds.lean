import Mathlib.Data.List.Nodup
import SymbolGraph.Proofs.Inheritance.Implementors
import SymbolGraph.Proofs.Renumbering.Correspondence
import SymbolGraph.Proofs.Session.Types

/-!
# Inheritance after every rebuild

Linking the bases of a document gives its classes and interfaces the bases that they are written
with (`DeclNode.Inherits`), and enters them into the lists of these bases.  None of them stands in
any list before that, since the project is out of all lists when it is linked again.  So after a
rebuild the lists are the exact inverse of the bases.

A base is looked up outside of declarations.  What is found there depends on the skeleton of the
model alone, and so the bases are still those that the names mean when the rebuild is over.
-/

namespace SymbolGraph

/-! ## Lists -/

/-- How often an element occurs after some are added that are new. -/
lemma count_addAllNew {α : Type} [DecidableEq α] (xs ys : List α) (x : α) :
    (addAllNew xs ys).count x = if x ∈ xs then xs.count x else if x ∈ ys then 1 else 0 := by
  have hnew (xs : List α) (y : α) :
      (addNew xs y).count x = if x ∈ xs then xs.count x else if x = y then 1 else 0 := by
    unfold addNew
    by_cases hx : x ∈ xs <;> by_cases heq : x = y <;> grind [List.count_eq_zero_of_not_mem]
  induction ys generalizing xs with
  | nil => grind [addAllNew]
  | cons y ys ih =>
    have hstep : addAllNew xs (y :: ys) = addAllNew (addNew xs y) ys := rfl
    rw [hstep, ih, hnew]
    simp only [mem_addNew, List.mem_cons]
    grind

/-! ## Bases as written -/

lemma Findings.heirs_join (all : List Findings) :
    (join all).heirs = all.flatMap Findings.heirs := by
  induction all with
  | nil => rfl
  | cons a rest ih => simpa [join] using ih

lemma Context.heirs_resolveType (ctx : Context) (ty : TypeRef) :
    (ctx.resolveType ty).found.heirs = [] := by
  unfold resolveType
  dsimp only
  split
  · split <;> rfl
  · rfl
  · rfl

/-- The inherited types of a declaration, with their roles. -/
def DeclNode.bases (ctx : Context) : DeclNode → List LinkBases.Base
  | .interface node => LinkBases.interfaceBases ctx node.inherits
  | .class node => LinkBases.classBases ctx node.inherits
  | _ => []

/-- Classes and interfaces have bases and heirs. -/
def Category.Inherits (category : Category) : Prop := category = .class ∨ category = .interface

/-- The body has the bases that its node gives it. -/
def DeclNode.Inherits (ctx : Context) (node : DeclNode) : Body → Prop
  | .interface info => node.category = .interface ∧
      info.inherits = (node.bases ctx).filterMap LinkBases.Base.interface?
  | .class info => node.category = .class ∧
      info.parent = (node.bases ctx).findSome? LinkBases.Base.parent? ∧
      info.inherits = (node.bases ctx).filterMap LinkBases.Base.interface?
  | _ => False

namespace DeclNode

variable {ctx ctx' : Context} {node : DeclNode}

lemma Inherits.overImplementors {body : Body} (h : node.Inherits ctx body)
    (f : List DeclId → List DeclId) : node.Inherits ctx (body.overImplementors f) := by
  cases body <;> exact h

lemma inherits_kin {body : Body} : node.Inherits ctx body.kin ↔ node.Inherits ctx body := by
  cases body <;> exact Iff.rfl

lemma findings_eq (hnode : node.category.Inherits) (id : DeclId) :
    LinkBases.findings ctx id node = LinkBases.findingsOf id (node.bases ctx) := by
  cases node <;> first | rfl | simp [Category.Inherits, category] at hnode

lemma findings_eq_empty (hnode : ¬ node.category.Inherits) (id : DeclId) :
    LinkBases.findings ctx id node = {} := by
  cases node <;> first | rfl | simp [Category.Inherits, category] at hnode

lemma resolved_bases {base : LinkBases.Base} (hbase : base ∈ node.bases ctx) :
    ∃ ref, base.resolved = ctx.resolveType ref := by
  cases node with
  | interface node =>
    obtain ⟨ref, -, rfl⟩ := List.mem_map.1 hbase
    exact ⟨ref, rfl⟩
  | «class» node =>
    obtain ⟨⟨ref, position⟩, -, rfl⟩ := List.mem_map.1 hbase
    exact ⟨ref, rfl⟩
  | _ => cases hbase

/-- Only the first inherited type can be a parent class. -/
lemma parent?_tail : ∀ base ∈ (node.bases ctx).tail, base.parent? = none := by
  cases node with
  | interface node =>
    exact fun base hbase => LinkBases.parent?_interfaceBases node.inherits base
      (List.mem_of_mem_tail hbase)
  | «class» node => exact LinkBases.parent?_classBases node.inherits
  | _ => exact fun base hbase => by cases hbase

lemma updates_bases (hnode : node.category.Inherits) (id : DeclId) :
    (LinkBases.findings ctx id node).updates = [.inheritance id
      ((node.bases ctx).findSome? LinkBases.Base.parent?)
      ((node.bases ctx).filterMap LinkBases.Base.interface?)] := by
  rw [findings_eq hnode]
  refine LinkBases.updates_findingsOf id fun base hbase => ?_
  obtain ⟨ref, href⟩ := resolved_bases hbase
  rw [href]
  exact ctx.updates_resolveType ref

/-- The declarations that the inherited types of a node come to. -/
lemma Inherits.bases_eq {body : Body} (h : node.Inherits ctx body) :
    body.bases = ((node.bases ctx).filterMap LinkBases.Base.stored?).filterMap Ty.declaration? := by
  rw [← LinkBases.stored_bases parent?_tail]
  cases body with
  | interface info =>
    obtain ⟨hcategory, hinherits⟩ := h
    have hparent : (node.bases ctx).findSome? LinkBases.Base.parent? = none := by
      cases node <;> first
        | exact List.findSome?_eq_none_iff.2 (LinkBases.parent?_interfaceBases _)
        | cases hcategory
    rw [hparent, ← hinherits]
    rfl
  | «class» info =>
    obtain ⟨-, hparent, hinherits⟩ := h
    rw [← hparent, ← hinherits]
    rfl
  | _ => exact h.elim

lemma mem_heirs_bases (hnode : node.category.Inherits) {id base heir : DeclId} :
    (base, heir) ∈ (LinkBases.findings ctx id node).heirs ↔ heir = id ∧
      base ∈ ((node.bases ctx).filterMap LinkBases.Base.stored?).filterMap Ty.declaration? := by
  have hfound : ∀ entry ∈ node.bases ctx, (LinkBases.Base.findings id entry).heirs
      = (entry.stored?.bind Ty.declaration?).toList.map fun base => (base, id) := by
    intro entry hentry
    obtain ⟨ref, href⟩ := resolved_bases hentry
    have hnone := ctx.heirs_resolveType ref
    rw [← href] at hnone
    cases hrole : entry.role <;>
      simp [LinkBases.Base.findings, LinkBases.Base.stored?, hrole, hnone, Findings.ofDiagnostic]
  rw [findings_eq hnode, LinkBases.findingsOf, Findings.heirs_append, Findings.heirs_join,
    List.flatMap_map]
  simp only [Findings.ofUpdate, List.append_nil, List.mem_flatMap, List.mem_filterMap]
  constructor
  · rintro ⟨entry, hentry, hmem⟩
    rw [hfound entry hentry] at hmem
    obtain ⟨other, hother, heq⟩ := List.mem_map.1 hmem
    obtain ⟨rfl, rfl⟩ := Prod.mk.inj heq
    obtain ⟨ty, hty, hdecl⟩ := Option.bind_eq_some_iff.1 (Option.mem_toList.1 hother)
    exact ⟨rfl, ty, ⟨entry, hentry, hty⟩, hdecl⟩
  · rintro ⟨rfl, ty, ⟨entry, hentry, hty⟩, hdecl⟩
    refine ⟨entry, hentry, ?_⟩
    rw [hfound entry hentry, hty, Option.bind_some, hdecl]
    simp

/-- A base is a class or an interface, and no array. -/
lemma plain_bases {base : LinkBases.Base} (hbase : base ∈ node.bases ctx) {ty : Ty} :
    (base.parent? = some ty → ty.code = .handle ∧ ty.isArray = false) ∧
      (base.interface? = some ty → ty.code = .interface ∧ ty.isArray = false) := by
  cases node with
  | interface node =>
    obtain ⟨ref, -, rfl⟩ := List.mem_map.1 hbase
    simp only [LinkBases.Base.parent?, LinkBases.Base.interface?, LinkBases.roleForInterface]
    split_ifs <;> grind
  | «class» node =>
    obtain ⟨⟨ref, position⟩, -, rfl⟩ := List.mem_map.1 hbase
    simp only [LinkBases.Base.parent?, LinkBases.Base.interface?, LinkBases.roleForClass]
    split_ifs <;> grind
  | _ => cases hbase

/-- The parent of a class is what its first inherited type means. -/
lemma parent_eq {node : ClassNode} {ty : Ty}
    (h : ((DeclNode.class node).bases ctx).findSome? LinkBases.Base.parent? = some ty) :
    ∃ first rest, node.inherits = first :: rest ∧ ty = (ctx.resolveType first).value := by
  cases hwritten : node.inherits with
  | nil => simp [bases, LinkBases.classBases, hwritten] at h
  | cons first rest =>
    refine ⟨first, rest, rfl, ?_⟩
    obtain ⟨base, hbase, hparent⟩ := List.exists_of_findSome?_eq_some h
    have htail := @parent?_tail ctx (.class node)
    simp only [bases, LinkBases.classBases, hwritten, List.zipIdx_cons, List.map_cons,
      List.tail_cons] at hbase htail
    rcases List.mem_cons.1 hbase with rfl | hrest
    · simp only [LinkBases.Base.parent?] at hparent
      split at hparent
      · exact (Option.some.inj hparent).symm
      · cases hparent
    · rw [htail base hrest] at hparent
      cases hparent

/-- The bases of a node are those that the names mean, whenever they are looked up. -/
lemma Inherits.of_skeleton {body : Body} (h : node.Inherits ctx body)
    (hvalue : ∀ ref, (ctx'.resolveType ref).value = (ctx.resolveType ref).value) :
    node.Inherits ctx' body := by
  have hroles : (node.bases ctx').map (fun base => (base.parent?, base.interface?))
      = (node.bases ctx).map fun base => (base.parent?, base.interface?) := by
    cases node <;> simp only [bases, LinkBases.interfaceBases, LinkBases.classBases, List.map_map,
      Function.comp_def, LinkBases.Base.parent?, LinkBases.Base.interface?, hvalue, List.map_nil]
  have hparent : (node.bases ctx').findSome? LinkBases.Base.parent?
      = (node.bases ctx).findSome? LinkBases.Base.parent? := by
    have hread (entries : List LinkBases.Base) : entries.findSome? LinkBases.Base.parent?
        = (entries.map fun base => (base.parent?, base.interface?)).findSome? Prod.fst := by
      rw [List.findSome?_map]
      rfl
    rw [hread, hroles, ← hread]
  have hinterface : (node.bases ctx').filterMap LinkBases.Base.interface?
      = (node.bases ctx).filterMap LinkBases.Base.interface? := by
    have hread (entries : List LinkBases.Base) : entries.filterMap LinkBases.Base.interface?
        = (entries.map fun base => (base.parent?, base.interface?)).filterMap Prod.snd := by
      rw [List.filterMap_map]
      rfl
    rw [hread, hroles, ← hread]
  cases body with
  | interface info => exact ⟨h.1, h.2.trans hinterface.symm⟩
  | «class» info => exact ⟨h.1, h.2.1.trans hparent.symm, h.2.2.trans hinterface.symm⟩
  | _ => exact h.elim

end DeclNode

/-! ## Linking bases -/

/-- Updates of other declarations leave the kin alone. -/
lemma Update.foldl_onKin {id : DeclId} (hdefine : id.define = none) (updates : List Update)
    (kin : Body) : updates.foldl (Update.onKin id) kin = (updates.filter fun update =>
      update.target.library = id.library ∧ update.target.seat = (id.category, id.index)).foldl
        (Update.onKin id) kin := by
  induction updates generalizing kin with
  | nil => rfl
  | cons update rest ih =>
    rw [List.foldl_cons, List.filter_cons]
    split
    · rw [List.foldl_cons, ih]
    · next hother =>
      have hkin : update.onKin id kin = kin := by
        cases update with
        | inheritance target parent inherits =>
          simp only [onKin]
          refine if_neg ?_
          rintro rfl
          have howner : target.owner? = none := by
            unfold DeclId.owner?
            rw [hdefine]
            split <;> simp_all
          simp [Update.target, DeclId.seat, howner] at hother
        | _ => rfl
      rw [hkin, ih]

namespace LibrarySet

variable {set set' : LibrarySet}

/-- Classes have the bodies of classes, and interfaces those of interfaces. -/
lemma Orderly.inherits_setBases (orderly : set.Orderly) {id : DeclId} {entry : Entry}
    (hslot : set.slot? id.library id.category id.index = some entry) {node : DeclNode}
    (hcategory : id.category = node.category) (hnode : node.category.Inherits) (ctx : Context) :
    node.Inherits ctx (Update.setBases ((node.bases ctx).findSome? LinkBases.Base.parent?)
      ((node.bases ctx).filterMap LinkBases.Base.interface?) entry.body.kin) := by
  have complete := fun {c} => @Tags.Orderly.complete _ _ _ _ (orderly.tags (tags?_of_slot? hslot)) c
  rw [hcategory] at complete
  rcases hnode with hclass | hinterface
  · obtain ⟨list, hlist⟩ := complete (c := .classFunction) (by rw [hclass]; rfl)
    cases hbody : entry.body <;>
      simp_all [Entry.tags, Body.tags, Body.members?, Body.kin, Update.setBases, DeclNode.Inherits]
  · obtain ⟨list, hlist⟩ := complete (c := .interfaceFunction) (by rw [hinterface]; rfl)
    cases hbody : entry.body <;>
      simp_all [Entry.tags, Body.tags, Body.members?, Body.kin, Update.setBases, DeclNode.Inherits]

/-- Classes and interfaces keep lists of their heirs. -/
lemma Orderly.exists_heirs (orderly : set.Orderly) {library : LibraryId} {category : Category}
    {index : Nat} {entry : Entry} (hslot : set.slot? library category index = some entry)
    (hcategory : category.Inherits) : ∃ heirs, entry.body.implementors? = some heirs := by
  have complete := fun {c} => @Tags.Orderly.complete _ _ _ _ (orderly.tags (tags?_of_slot? hslot)) c
  rcases hcategory with rfl | rfl
  · obtain ⟨list, hlist⟩ := complete (c := .classFunction) rfl
    cases hbody : entry.body <;> simp_all [Entry.tags, Body.tags, Body.members?, Body.implementors?]
  · obtain ⟨list, hlist⟩ := complete (c := .interfaceFunction) rfl
    cases hbody : entry.body <;> simp_all [Entry.tags, Body.tags, Body.members?, Body.implementors?]

/-- The declaration stands, once, in the lists of these bases and in no others. -/
def Mirrors (set : LibrarySet) (id : DeclId) (bases : List DeclId) : Prop :=
  ∀ base list, base.define = none → set.heirs? base = some list →
    list.count id = if base ∈ bases then 1 else 0

end LibrarySet

/-- The classes and interfaces of the document have the bases that they are written with, and stand
in their lists. -/
def SourceUnit.Derived (options : LinkOptions) (set : LibrarySet) (unit : SourceUnit) : Prop :=
  ∀ id node scope, ((id, node), scope) ∈ (unit.declarations.zip unit.nodes).zip unit.scopes →
    node.category.Inherits → ∃ kin, set.kin? id = some kin ∧
      node.Inherits (Linkage.context ⟨set, unit⟩ options scope) kin ∧ set.Mirrors id kin.bases

/-- No declaration of the document stands in a list. -/
def SourceUnit.Unlisted (set : LibrarySet) (unit : SourceUnit) : Prop :=
  ∀ id ∈ unit.declarations, ∀ base : DeclId, base.define = none → ¬ set.Lists base id

namespace Linkage

variable {state : Linkage} {others : List SourceUnit}

/-- A type means the same before and after linking. -/
lemma value_of_sameSkeleton {state' : Linkage} (same : SameSkeleton state state')
    (legible : state.libraries.Legible) (options : LinkOptions)
    (scope : DeclScope) (ref : TypeRef) :
    ((state'.context options scope).resolveType ref).value
      = ((state.context options scope).resolveType ref).value := by
  obtain ⟨hset, hunit⟩ := same
  have hlibrary : state'.unit.skeleton.library = state.unit.skeleton.library := by rw [hunit]
  have hpath : state'.unit.skeleton.path = state.unit.skeleton.path := by rw [hunit]
  have matching : (state.context options scope).Matches .refl (state'.context options scope) := by
    refine ⟨hpath, ?_, by simp [context], rfl⟩
    simpa [context, SourceUnit.skeleton] using hlibrary
  simpa using (Context.parallel_of_skeleton legible hset matching rfl).value_resolveType
    (Area.covers_all ref.path)

/-- A pass enters a declaration into the lists that are found for it. -/
lemma mem_heirs_found (settled : state.libraries.Settled (state.unit :: others))
    (options : LinkOptions) {id : DeclId} {node : DeclNode} {scope : DeclScope}
    (hmem : ((id, node), scope) ∈ (state.unit.declarations.zip state.unit.nodes).zip
      state.unit.scopes) {base : DeclId} :
    (base, id) ∈ (state.found options LinkBases.findings).heirs ↔
      (base, id) ∈ (LinkBases.findings (state.context options scope) id node).heirs := by
  rw [found, Findings.heirs_join, List.flatMap_map, List.mem_flatMap]
  constructor
  · rintro ⟨⟨⟨other, node'⟩, scope'⟩, hother, hpair⟩
    by_cases hnode : node'.category.Inherits
    · obtain ⟨rfl, -⟩ := (DeclNode.mem_heirs_bases hnode).1 hpair
      have heq := List.inj_on_of_nodup_map (nodup_linked settled) hmem hother rfl
      simp only [Prod.mk.injEq, true_and] at heq
      obtain ⟨rfl, rfl⟩ := heq
      exact hpair
    · simp [DeclNode.findings_eq_empty hnode] at hpair
  · exact fun hpair => ⟨_, hmem, hpair⟩

/-- Linking the bases of a document that stands in no list. -/
lemma derived_linkBases (arranged : state.libraries.Arranged (state.unit :: others))
    (options : LinkOptions) (unlisted : state.unit.Unlisted state.libraries) :
    (state.linkBases options).unit.Derived options (state.linkBases options).libraries := by
  have hamong := state.among_everywhere.foundBases arranged options
  obtain ⟨hkin, -, -⟩ := kin?_apply arranged.orderly hamong (define_declarations arranged.settled)
  have hsame := sameSkeleton_apply state (state.found options LinkBases.findings)
  have hunit := hsame.2
  have hscopes := state.scopes_apply (state.found options LinkBases.findings)
  intro id node scope hmem hnode
  rw [linkBases, linkEach_eq] at hmem ⊢
  rw [SourceUnit.declarations_of_skeleton_eq hunit, SourceUnit.nodes,
    SourceUnit.tree_of_skeleton_eq hunit, hscopes] at hmem
  obtain ⟨hcategory, hdefine, hlibrary, hdecl, -⟩ := arranged.settled.paired
    (List.mem_cons_self ..) (List.of_mem_zip hmem).1
  obtain ⟨-, -, entry, hslot, -⟩ := arranged.settled.declared (List.mem_cons_self ..) hdecl
  rw [← hlibrary] at hslot
  have hbefore : state.libraries.kin? id = some entry.body.kin := by
    rw [LibrarySet.kin?, hslot]; rfl
  have hinherits := arranged.orderly.inherits_setBases hslot hcategory hnode
    (state.context options scope)
  have hupdated : (state.found options LinkBases.findings).updates.foldl (Update.onKin id)
      entry.body.kin = Update.setBases
        ((node.bases (state.context options scope)).findSome? LinkBases.Base.parent?)
        ((node.bases (state.context options scope)).filterMap LinkBases.Base.interface?)
        entry.body.kin := by
    rw [Update.foldl_onKin hdefine, filter_found arranged.settled options
      (fun ctx id node hctx _ hcategory => holder_of_bases (hctx ▸ arranged.legible)
        hcategory) hmem,
      DeclNode.updates_bases hnode]
    simp [Update.onKin]
  refine ⟨_, by rw [hkin id hdefine, hbefore, Option.map_some, hupdated], ?_, ?_⟩
  · exact (hinherits.overImplementors _).of_skeleton
      (value_of_sameSkeleton hsame arranged.legible options scope)
  · intro base list hbase hlist
    rw [Body.bases_overImplementors, hinherits.bases_eq]
    rw [heirs?_apply arranged hamong hbase] at hlist
    obtain ⟨old, hold, rfl⟩ := Option.map_eq_some_iff.1 hlist
    -- Before the pass the declaration is listed as an heir nowhere.
    have hnew : id ∉ old := fun hmem => unlisted id hdecl base hbase ⟨old, hold, hmem⟩
    have hfound : id ∈ (state.found options LinkBases.findings).heirsOf base ↔
        (base, id) ∈ (state.found options LinkBases.findings).heirs := by
      simp [Findings.heirsOf]
    rw [count_addAllNew, if_neg hnew]
    simp only [hfound, mem_heirs_found arranged.settled options hmem,
      DeclNode.mem_heirs_bases hnode, true_and]

end Linkage

/-! ## The other passes -/

/-- The findings say nothing about inheritance. -/
structure Findings.Kinless (found : Findings) : Prop where
  heirs : found.heirs = []
  updates : ∀ update ∈ found.updates, ∀ id kin, update.onKin id kin = kin

namespace Findings.Kinless

lemma append {a b : Findings} (ha : a.Kinless) (hb : b.Kinless) : (a ++ b).Kinless := by
  refine ⟨by rw [heirs_append, ha.heirs, hb.heirs, List.append_nil], fun update hupdate => ?_⟩
  rcases List.mem_append.1 hupdate with h | h
  · exact ha.updates update h
  · exact hb.updates update h

lemma join {all : List Findings} (h : ∀ found ∈ all, found.Kinless) :
    (Findings.join all).Kinless := by
  induction all with
  | nil => exact ⟨rfl, by simp [Findings.join]⟩
  | cons first rest ih =>
    exact (h first (List.mem_cons_self ..)).append
      (ih fun found hfound => h found (List.mem_cons_of_mem _ hfound))

lemma resolveType (ctx : Context) (ty : TypeRef) : (ctx.resolveType ty).found.Kinless :=
  ⟨ctx.heirs_resolveType ty, by simp [ctx.updates_resolveType ty]⟩

lemma resolveTypes (ctx : Context) (types : List TypeRef) :
    (ctx.resolveTypes types).found.Kinless := by
  refine join fun found hfound => ?_
  obtain ⟨resolved, hresolved, rfl⟩ := List.mem_map.1 hfound
  obtain ⟨ty, -, rfl⟩ := List.mem_map.1 hresolved
  exact resolveType ctx ty

lemma resolveParams (ctx : Context) (params : List ParamNode) :
    (ctx.resolveParams params).found.Kinless := by
  refine join fun found hfound => ?_
  obtain ⟨resolved, hresolved, rfl⟩ := List.mem_map.1 hfound
  obtain ⟨param, -, rfl⟩ := List.mem_map.1 hresolved
  exact resolveType ctx param.ty

lemma ofUpdate {update : Update} (h : ∀ id kin, update.onKin id kin = kin) :
    (Findings.ofUpdate update).Kinless :=
  ⟨rfl, fun _ hmem => List.mem_singleton.1 hmem ▸ h⟩

lemma ofVariable (ctx : Context) (target : DeclId) (node : VariableNode) :
    (LinkSignatures.ofVariable ctx target node).Kinless :=
  (resolveType ctx node.ty).append (ofUpdate fun _ _ => rfl)

lemma ofCallable (ctx : Context) (target : DeclId) (params : List ParamNode)
    (returns : List TypeRef) : (LinkSignatures.ofCallable ctx target params returns).Kinless :=
  ((resolveParams ctx params).append (resolveTypes ctx returns)).append (ofUpdate fun _ _ => rfl)

lemma ofFunction (ctx : Context) (target : DeclId) (node : FunctionNode) :
    (LinkSignatures.ofFunction ctx target node).Kinless :=
  ofCallable ctx target node.params node.returns

lemma ofMembers {α : Type} (ctx : Context) (owner : DeclId) (category : Category) (nodes : List α)
    {find : DeclId → α → Findings} (h : ∀ id node, (find id node).Kinless) :
    (LinkSignatures.ofMembers ctx owner category nodes find).Kinless := by
  refine join fun found hfound => ?_
  obtain ⟨⟨node, id⟩, -, rfl⟩ := List.mem_map.1 hfound
  exact h id node

/-- Signatures say nothing about inheritance. -/
lemma signatures (ctx : Context) (id : DeclId) (node : DeclNode) :
    (LinkSignatures.findings ctx id node).Kinless := by
  let inner := { ctx with within := some id }
  cases node with
  | «variable» node => exact ofVariable ctx id node
  | function node => exact ofFunction ctx id node
  | native node => exact ofFunction ctx id node
  | delegate node => exact ofCallable ctx id node.params node.returns
  | task node => exact (resolveTypes ctx node.returns).append (ofUpdate fun _ _ => rfl)
  | enum node => exact ⟨rfl, by simp [LinkSignatures.findings]⟩
  | struct node =>
    exact (ofMembers ctx id .structVariable node.fields (ofVariable inner)).append
      (ofMembers ctx id .structFunction node.functions (ofFunction inner))
  | interface node => exact ofMembers ctx id .interfaceFunction node.functions (ofFunction inner)
  | «class» node =>
    exact ((ofMembers ctx id .classVariable node.fields (ofVariable inner)).append
      (ofMembers ctx id .constructor node.constructors
        fun target node => ofCallable inner target node.params [])).append
      (ofMembers ctx id .classFunction node.functions (ofFunction inner))

end Findings.Kinless

namespace Linkage

variable {state : Linkage} {others : List SourceUnit} {near : LibraryId → Prop}

lemma sameKin_apply (arranged : state.libraries.Arranged (state.unit :: others)) {found : Findings}
    (among : found.Among state.libraries near state.unit.path state.unit.declarations)
    (kinless : found.Kinless) :
    LibrarySet.SameKin state.libraries (state.apply found).libraries := by
  have hupdates (id : DeclId) (kin : Body) : found.updates.foldl (Update.onKin id) kin = kin := by
    have hall := kinless.updates
    generalize found.updates = updates at hall
    induction updates with
    | nil => rfl
    | cons update rest ih =>
      rw [List.foldl_cons, hall update (List.mem_cons_self ..)]
      exact ih fun u hu => hall u (List.mem_cons_of_mem _ hu)
  have hid_over (body : Body) : body.overImplementors (fun list => list) = body := by
    cases body <;> rfl
  obtain ⟨hkin, -, -⟩ := kin?_apply arranged.orderly among (define_declarations arranged.settled)
  have ordered := keepsOrder_apply arranged.orderly fun update h => (among.updates h).1
  refine ⟨ordered.orderly.identified, fun id => ?_⟩
  refine (hkin ⟨id.library, id.category, id.index, none⟩ rfl).trans ?_
  simp only [hupdates, Findings.heirsOf, kinless.heirs, List.filter_nil, List.map_nil, addAllNew,
    List.foldl_nil, hid_over, Option.map_id']
  rfl

/-- Import directives are found to mean namespaces, and nothing else. -/
lemma imported_idle (legible : state.libraries.Legible) :
    state.imported.2.heirs = [] ∧ state.imported.2.updates = [] := by
  have hnone : state.imported.2.Among state.libraries (fun _ => True) state.unit.path [] :=
    (LinkImports.among_block legible trivial trivial _ _ _ (fun _ _ => trivial) _
      fun _ _ _ _ => trivial).1
  refine ⟨List.eq_nil_iff_forall_not_mem.2 fun pair hpair => ?_,
    List.eq_nil_iff_forall_not_mem.2 fun update hupdate => ?_⟩
  · exact absurd (hnone.heirs hpair).2 List.not_mem_nil
  · exact absurd (hnone.updates hupdate).2.1 List.not_mem_nil

/-- Linking import directives changes no kin. -/
lemma sameKin_linkImports (arranged : state.libraries.Arranged (state.unit :: others)) :
    LibrarySet.SameKin state.libraries state.linkImports.libraries := by
  obtain ⟨hheirs, hupdates⟩ := imported_idle arranged.legible
  have kinless : state.imported.2.Kinless := ⟨hheirs, by simp [hupdates]⟩
  obtain ⟨hamong, -⟩ := state.among_everywhere.imported arranged.legible
  rw [linkImports_eq arranged.settled]
  have hscopes : state.libraries.Arranged
      ({ state.unit with scopes := state.imported.1 } :: others) :=
    arranged.step rfl rfl (fun h => h) (.refl arranged.orderly)
  exact @sameKin_apply ⟨state.libraries, { state.unit with scopes := state.imported.1 }⟩ _ _ hscopes
    _ hamong kinless

/-- Linking signatures changes no kin. -/
lemma sameKin_linkSignatures (arranged : state.libraries.Arranged (state.unit :: others))
    (options : LinkOptions) :
    LibrarySet.SameKin state.libraries (state.linkSignatures options).libraries := by
  refine sameKin_apply arranged (state.among_everywhere.foundSignatures arranged options) ?_
  refine .join fun found hfound => ?_
  obtain ⟨⟨⟨id, node⟩, scope⟩, -, rfl⟩ := List.mem_map.1 hfound
  exact .signatures _ id node

end Linkage

/-! ## Linking the project -/

namespace SourceUnit

variable {options : LinkOptions} {set set' : LibrarySet} {unit unit' : SourceUnit}

/-- A document keeps what it has derived while nobody else enters it into a list. -/
lemma Derived.keep (derived : unit.Derived options set) (legible : set.Legible)
    (same : Linkage.SameSkeleton ⟨set, unit⟩ ⟨set', unit'⟩) (hscopes : unit'.scopes = unit.scopes)
    (hkin : ∀ id ∈ unit.declarations, ∃ f, set'.kin? id = (set.kin? id).map
      (Body.overImplementors f))
    (hheirs : ∀ id ∈ unit.declarations, ∀ base : DeclId, base.define = none →
      ∀ list', set'.heirs? base = some list' →
        ∃ list, set.heirs? base = some list ∧ list'.count id = list.count id) :
    unit'.Derived options set' := by
  intro id node scope hmem hnode
  rw [declarations_of_skeleton_eq same.2, nodes, tree_of_skeleton_eq same.2, hscopes] at hmem
  have hdecl : id ∈ unit.declarations := (List.of_mem_zip (List.of_mem_zip hmem).1).1
  obtain ⟨kin, hbefore, hinherits, hmirrors⟩ := derived id node scope hmem hnode
  obtain ⟨f, hafter⟩ := hkin id hdecl
  refine ⟨kin.overImplementors f, by rw [hafter, hbefore, Option.map_some], ?_, ?_⟩
  · exact (hinherits.overImplementors f).of_skeleton
      (Linkage.value_of_sameSkeleton same legible options scope)
  · intro base list' hbase hlist'
    obtain ⟨list, hlist, hcount⟩ := hheirs id hdecl base hbase list' hlist'
    rw [hcount, Body.bases_overImplementors]
    exact hmirrors base list hbase hlist

lemma Derived.of_sameKin (derived : unit.Derived options set) (legible : set.Legible)
    (same : Linkage.SameSkeleton ⟨set, unit⟩ ⟨set', unit'⟩) (hscopes : unit'.scopes = unit.scopes)
    (kin : LibrarySet.SameKin set set') : unit'.Derived options set' := by
  refine derived.keep legible same hscopes (fun id _ => ⟨fun list => list, ?_⟩) ?_
  · have hid_over (body : Body) : body.overImplementors (fun list => list) = body := by
      cases body <;> rfl
    rw [kin.kin]
    cases set.kin? id <;> simp [hid_over]
  · exact fun id _ base _ list' hlist' => ⟨list', kin.heirs?_eq base ▸ hlist', rfl⟩

lemma Unlisted.of_thins (unlisted : unit.Unlisted set) (thins : set.Thins set')
    (hskeleton : unit'.skeleton = unit.skeleton) : unit'.Unlisted set' := by
  intro id hid base hbase hlists
  rw [declarations_of_skeleton_eq hskeleton] at hid
  exact unlisted id hid base hbase (thins base id hbase hlists)

end SourceUnit

namespace Linkage

variable {state : Linkage} {others : List SourceUnit}

/-- Linking the bases of a document enters no declaration of another into a list. -/
lemma linkBases_other (arranged : state.libraries.Arranged (state.unit :: others))
    (options : LinkOptions) {other : SourceUnit} (hother : other ∈ others) :
    (other.Unlisted state.libraries → other.Unlisted (state.linkBases options).libraries) ∧
      (other.Derived options state.libraries →
        other.Derived options (state.linkBases options).libraries) := by
  have hamong := state.among_everywhere.foundBases arranged options
  obtain ⟨hkin, -, -⟩ := kin?_apply arranged.orderly hamong (define_declarations arranged.settled)
  -- The heirs that are found are declared in the document at hand, and so in no other.
  have hforeign : ∀ id ∈ other.declarations, ∀ base,
      id ∉ (state.found options LinkBases.findings).heirsOf base := by
    intro id hid base hmem
    obtain ⟨pair, hpair, rfl⟩ := List.mem_map.1 hmem
    exact arranged.settled.disjoint hother (hamong.heirs (List.mem_filter.1 hpair).1).2 hid
  refine ⟨fun unlisted id hid base hbase hlists => ?_, fun derived => ?_⟩
  · obtain ⟨list, hlist, hmem⟩ := hlists
    rw [linkBases, linkEach_eq, heirs?_apply arranged hamong hbase] at hlist
    obtain ⟨old, hold, rfl⟩ := Option.map_eq_some_iff.1 hlist
    rcases (mem_addAllNew _ _ _).1 hmem with h | h
    · exact unlisted id hid base hbase ⟨old, hold, h⟩
    · exact hforeign id hid base h
  · have hset := (sameSkeleton_apply state (state.found options LinkBases.findings)).1
    refine derived.keep arranged.legible ⟨hset, rfl⟩ rfl (fun id hid => ?_) ?_
    · obtain ⟨heq, -⟩ := arranged.settled.declared (List.mem_cons_of_mem _ hother) hid
      have hdefine : id.define = none := congrArg DeclId.define heq
      refine ⟨(addAllNew · ((state.found options LinkBases.findings).heirsOf id)),
        (hkin id hdefine).trans (Option.map_congr fun kin _ => ?_)⟩
      -- The holder of a target is declared here, so not in the other document.
      have hnone : (state.found options LinkBases.findings).updates.filter (fun update =>
          update.target.library = id.library ∧
          update.target.seat = (id.category, id.index)) = [] := by
        refine List.filter_eq_nil_iff.2 fun update hupdate hkey => ?_
        obtain ⟨hlibrary, hseat⟩ : update.target.library = id.library ∧
          update.target.seat = (id.category, id.index) := by simpa using hkey
        obtain ⟨-, hholder, -⟩ := hamong.updates hupdate
        have htarget := define_declarations arranged.settled _ hholder
        rw [DeclId.holder_eq htarget, hlibrary, hseat] at hholder
        exact arranged.settled.disjoint hother hholder (by
          obtain ⟨_, _, _, _⟩ := id
          simp_all)
      rw [Update.foldl_onKin hdefine, hnone, List.foldl_nil]
    · intro id hid base hbase list' hlist'
      rw [linkBases, linkEach_eq, heirs?_apply arranged hamong hbase] at hlist'
      obtain ⟨old, hold, rfl⟩ := Option.map_eq_some_iff.1 hlist'
      refine ⟨old, hold, ?_⟩
      rw [count_addAllNew, if_neg (hforeign id hid base)]
      split
      · rfl
      · next hnot => exact (List.count_eq_zero_of_not_mem hnot).symm

/-! Each pass takes the document at hand from one stage to the next, and leaves the others at
theirs. -/

lemma stage_linkImports (arranged : state.libraries.Arranged (state.unit :: others))
    (h : state.unit.Undeclared ∧ state.unit.Unlisted state.libraries) :
    state.linkImports.libraries.Arranged (state.linkImports.unit :: others) ∧
      (state.linkImports.unit.Undeclared ∧
        state.linkImports.unit.Unlisted state.linkImports.libraries ∧
        state.linkImports.unit.scopes.length = state.linkImports.unit.nodes.length) ∧
      ∀ other : SourceUnit, other.Unlisted state.libraries →
        other.Unlisted state.linkImports.libraries := by
  have hthins := (sameKin_linkImports arranged).thins
  refine ⟨arranged_linkImports arranged, ⟨undeclared_linkImports h.1, ?_, length_scopes arranged⟩,
    fun other hother => hother.of_thins hthins rfl⟩
  exact h.2.of_thins hthins (sameSkeleton_linkImports state).2

lemma stage_declareMembers (arranged : state.libraries.Arranged (state.unit :: others))
    (h : state.unit.Undeclared ∧ state.unit.Unlisted state.libraries ∧
      state.unit.scopes.length = state.unit.nodes.length) :
    state.declareMembers.libraries.Arranged (state.declareMembers.unit :: others) ∧
      (state.declareMembers.unit.Unlisted state.declareMembers.libraries ∧
        state.declareMembers.unit.scopes.length = state.declareMembers.unit.nodes.length) ∧
      ∀ other : SourceUnit, other.Unlisted state.libraries →
        other.Unlisted state.declareMembers.libraries := by
  have hthins := (sameKin_declareMembers arranged.orderly.identified).thins
  have hskeleton := (sameSkeleton_declareMembers state).2
  refine ⟨arranged_declareMembers arranged h.1, ⟨h.2.1.of_thins hthins hskeleton, ?_⟩,
    fun other hother => hother.of_thins hthins rfl⟩
  rw [(linked_declareMembers state).1, SourceUnit.nodes, SourceUnit.tree_of_skeleton_eq hskeleton]
  exact h.2.2

lemma stage_linkBases (arranged : state.libraries.Arranged (state.unit :: others))
    (options : LinkOptions) (h : state.unit.Unlisted state.libraries ∧
      state.unit.scopes.length = state.unit.nodes.length) :
    (state.linkBases options).libraries.Arranged ((state.linkBases options).unit :: others) ∧
      (state.linkBases options).unit.Derived options (state.linkBases options).libraries ∧
      (state.linkBases options).unit.scopes.length
        = (state.linkBases options).unit.nodes.length := by
  have hskeleton := (sameSkeleton_linkEach state options LinkBases.findings).2
  refine ⟨arranged_apply arranged (state.among_everywhere.foundBases arranged options),
    derived_linkBases arranged options h.1, ?_⟩
  rw [linkBases, SourceUnit.nodes, SourceUnit.tree_of_skeleton_eq hskeleton,
    linkEach_eq, scopes_apply]
  exact h.2

lemma stage_linkSignatures (arranged : state.libraries.Arranged (state.unit :: others))
    (options : LinkOptions) (h : state.unit.Derived options state.libraries ∧
      state.unit.scopes.length = state.unit.nodes.length) :
    (state.linkSignatures options).libraries.Arranged
        ((state.linkSignatures options).unit :: others) ∧
      ((state.linkSignatures options).unit.Derived options
          (state.linkSignatures options).libraries ∧
        (state.linkSignatures options).unit.scopes.length
          = (state.linkSignatures options).unit.nodes.length) ∧
      ∀ other : SourceUnit, other.Derived options state.libraries →
        other.Derived options (state.linkSignatures options).libraries := by
  have hsame := sameSkeleton_linkEach state options LinkSignatures.findings
  have hkin := sameKin_linkSignatures arranged options
  have hscopes : (state.linkSignatures options).unit.scopes = state.unit.scopes := by
    rw [linkSignatures, linkEach_eq, scopes_apply]
  refine ⟨arranged_apply arranged (state.among_everywhere.foundSignatures arranged options),
    ⟨h.1.of_sameKin arranged.legible hsame hscopes hkin, ?_⟩,
    fun other hother => hother.of_sameKin arranged.legible ⟨hsame.1, rfl⟩ rfl hkin⟩
  rw [hscopes, linkSignatures, SourceUnit.nodes, SourceUnit.tree_of_skeleton_eq hsame.2]
  exact h.2

end Linkage

namespace Linkages

/-- Linking documents that stand in no list derives all of their classes and interfaces. -/
lemma derived_link {set : LibrarySet} {batch others : List SourceUnit}
    (arranged : set.Arranged (batch ++ others))
    (hbatch : ∀ unit ∈ batch, unit.Undeclared ∧ unit.Unlisted set) (options : LinkOptions) :
    ∀ unit ∈ (Linkages.link ⟨set, batch⟩ options).units,
      unit.Derived options (Linkages.link ⟨set, batch⟩ options).libraries ∧
        unit.scopes.length = unit.nodes.length := by
  -- Pass by pass: what a pass establishes for the document at hand, and that it spoils nothing for
  -- the others.
  obtain ⟨harranged₁, hunits₁, -⟩ := each_established Linkage.linkImports LibrarySet.Arranged
    (fun set unit => unit.Undeclared ∧ unit.Unlisted set)
    (fun set unit => unit.Undeclared ∧ unit.Unlisted set ∧ unit.scopes.length = unit.nodes.length)
    LibrarySet.Arranged.perm (fun {set unit _} arranged h => by
      obtain ⟨harranged, hunit, hother⟩ := @Linkage.stage_linkImports ⟨set, unit⟩ _ arranged h
      exact ⟨harranged, hunit, fun other _ => ⟨fun h => ⟨h.1, hother other h.2⟩,
        fun h => ⟨h.1, hother other h.2.1, h.2.2⟩⟩⟩) arranged hbatch
  obtain ⟨harranged₂, hunits₂, -⟩ := each_established Linkage.declareMembers LibrarySet.Arranged
    (fun set unit => unit.Undeclared ∧ unit.Unlisted set ∧ unit.scopes.length = unit.nodes.length)
    (fun set unit => unit.Unlisted set ∧ unit.scopes.length = unit.nodes.length)
    LibrarySet.Arranged.perm (fun {set unit _} arranged h => by
      obtain ⟨harranged, hunit, hother⟩ := @Linkage.stage_declareMembers ⟨set, unit⟩ _ arranged h
      exact ⟨harranged, hunit, fun other _ => ⟨fun h => ⟨h.1, hother other h.2.1, h.2.2⟩,
        fun h => ⟨hother other h.1, h.2⟩⟩⟩) harranged₁ hunits₁
  obtain ⟨harranged₃, hunits₃, -⟩ := each_established (·.linkBases options) LibrarySet.Arranged
    (fun set unit => unit.Unlisted set ∧ unit.scopes.length = unit.nodes.length)
    (fun set unit => unit.Derived options set ∧ unit.scopes.length = unit.nodes.length)
    LibrarySet.Arranged.perm (fun {set unit _} arranged h => by
      obtain ⟨harranged, hunit⟩ := @Linkage.stage_linkBases ⟨set, unit⟩ _ arranged options h
      refine ⟨harranged, hunit, fun other hother => ?_⟩
      obtain ⟨hunlisted, hderived⟩ := @Linkage.linkBases_other ⟨set, unit⟩ _
        arranged options other hother
      exact ⟨fun h => ⟨hunlisted h.1, h.2⟩, fun h => ⟨hderived h.1, h.2⟩⟩) harranged₂ hunits₂
  exact (each_established (·.linkSignatures options) LibrarySet.Arranged
    (fun set unit => unit.Derived options set ∧ unit.scopes.length = unit.nodes.length)
    (fun set unit => unit.Derived options set ∧ unit.scopes.length = unit.nodes.length)
    LibrarySet.Arranged.perm (fun {set unit _} arranged h => by
      obtain ⟨harranged, hunit, hother⟩ := @Linkage.stage_linkSignatures
        ⟨set, unit⟩ _ arranged options h
      exact ⟨harranged, hunit, fun other _ => ⟨fun h => ⟨hother other h.1, h.2⟩,
        fun h => ⟨hother other h.1, h.2⟩⟩⟩) harranged₃ hunits₃).2.1

end Linkages

/-! ## Rebuilds -/

namespace Session

variable {session : Session}

lemma derived_checkProject (arranged : session.libraries.Arranged session.units)
    (h : ∀ unit ∈ session.files, unit.Derived session.options session.libraries ∧
      unit.scopes.length = unit.nodes.length) :
    ∀ unit ∈ session.checkProject.files,
      unit.Derived session.checkProject.options session.checkProject.libraries ∧
        unit.scopes.length = unit.nodes.length := by
  intro unit hunit
  simp only [checkProject, List.mem_map] at hunit
  obtain ⟨unit', hunit', rfl⟩ := hunit
  obtain ⟨derived, hscopes⟩ := h unit' hunit'
  refine ⟨?_, hscopes⟩
  have hkin := LibrarySet.sameKin_check arranged.orderly.identified .project
  have hskeleton := LibrarySet.skeleton_check session.libraries .project
  simp only [checkProject, options] at derived ⊢
  generalize session.libraries.check .project = checked at hkin hskeleton ⊢
  refine derived.of_sameKin arranged.legible ⟨hskeleton, ?_⟩ rfl hkin
  simp [SourceUnit.skeleton, Diagnostics.clear, Diagnostics.append, Diagnostics.changePhase]

/-- No declaration of the project stands in a list while its documents have no heirs on record. -/
lemma Sound.unlisted (sound : session.Sound) (noted : session.libraries.Noted session.units)
    (hheirs : ∀ unit ∈ session.files, unit.heirs = []) :
    ∀ unit ∈ session.files, unit.Unlisted session.libraries := by
  intro unit hunit id hid base hbase hlists
  obtain ⟨other, hother, hdecl, hpair⟩ := noted base id hbase hlists
  rcases List.mem_append.1 hother with h | h
  · simp [hheirs other h] at hpair
  · have hother := (sound.settled.declared hother hdecl).1
    have hown := (sound.settled.declared (List.mem_append_left _ hunit) hid).1
    refine sound.foreign_library other h ?_
    rw [← sound.files_library unit hunit]
    exact (congrArg DeclId.library hother).symm.trans (congrArg DeclId.library hown)

/-- Linking the project again, once none of its documents has heirs on record. -/
lemma Sound.derived_relink (sound : session.Sound)
    (arranged : session.libraries.Arranged session.units)
    (noted : session.libraries.Noted session.units)
    (hfiles : ∀ unit ∈ session.files, unit.Undeclared ∧ unit.heirs = []) :
    ∀ unit ∈ session.relink.files,
      unit.Derived session.relink.options session.relink.libraries ∧
        unit.scopes.length = unit.nodes.length := by
  obtain ⟨keeps, loaded⟩ := (sound.keeps ⟨⟨arranged, sound.pool⟩, noted⟩).loadImports
    loadInvariant_noted (importNames session.files)
  obtain ⟨hsound, -⟩ := sound.loadImports (importNames session.files)
  unfold Session.relink
  generalize session.loadImports (importNames session.files) = mid at keeps loaded hsound ⊢
  have hmid : mid.libraries.Arranged (mid.files ++ mid.foreign.values.flatten) := keeps.holds.1.1
  have hbatch := loaded.files_eq ▸ hfiles
  have hunlisted := hsound.unlisted keeps.holds.2 fun unit hunit => (hbatch unit hunit).2
  refine @derived_checkProject (mid.overFiles (·.link mid.options)) ?_ ?_
  · exact Linkages.arranged_link hmid (fun unit hunit => (hbatch unit hunit).1) mid.options
  · exact Linkages.derived_link hmid
      (fun unit hunit => ⟨(hbatch unit hunit).1, hunlisted unit hunit⟩) mid.options

/-- A class or interface of the project among those that a document has derived. -/
lemma Sound.exists_derived (sound : session.Sound)
    (hfiles : ∀ unit ∈ session.files, unit.Derived session.options session.libraries ∧
      unit.scopes.length = unit.nodes.length) {category : Category} {index : Nat} {entry : Entry}
    (hslot : session.libraries.slot? .project category index = some entry)
    (hcategory : category.Inherits) :
    ∃ unit ∈ session.files, ∃ node scope,
      ((entry.id, node), scope) ∈ (unit.declarations.zip unit.nodes).zip unit.scopes ∧
      node.category = category ∧
      node.Inherits (Linkage.context ⟨session.libraries, unit⟩ session.options scope) entry.body ∧
      session.libraries.Mirrors entry.id entry.body.bases := by
  obtain ⟨hid, unit, hunit, -, node, hpair⟩ := sound.exists_owner hslot
  obtain ⟨derived, hscopes⟩ := hfiles unit hunit
  obtain ⟨scope, hmem⟩ := SourceUnit.exists_scope hscopes hpair
  obtain ⟨hnode, -⟩ := sound.settled.paired (List.mem_append_left _ hunit) hpair
  rw [hid] at hnode
  have hkin : session.libraries.kin? entry.id = some entry.body.kin := by
    rw [LibrarySet.kin?, hid, hslot]
    rfl
  obtain ⟨kin, hkin', hinherits, hmirrors⟩ := derived entry.id node scope hmem (hnode ▸ hcategory)
  obtain rfl : entry.body.kin = kin := by simpa [hkin] using hkin'
  exact ⟨unit, hunit, node, scope, hmem, hnode.symm, DeclNode.inherits_kin.1 hinherits,
    Body.bases_kin entry.body ▸ hmirrors⟩

/-- What a class of derived documents inherits: its parent comes from its first inherited type. -/
lemma Sound.class_derived (sound : session.Sound)
    (hfiles : ∀ unit ∈ session.files, unit.Derived session.options session.libraries ∧
      unit.scopes.length = unit.nodes.length) {index : Nat} {entry : Entry}
    (hslot : session.libraries.slot? .project .class index = some entry) :
    ∃ unit ∈ session.files, ∃ node scope info,
      ((entry.id, .class node), scope) ∈ (unit.declarations.zip unit.nodes).zip unit.scopes ∧
      entry.body = .class info ∧
      (∀ ty ∈ info.parent, ty.code = .handle ∧ ty.isArray = false ∧
        ∃ first rest, node.inherits = first :: rest ∧ ty = ((Linkage.context
          ⟨session.libraries, unit⟩ session.options scope).resolveType first).value) ∧
      ∀ ty ∈ info.inherits, ty.code = .interface ∧ ty.isArray = false := by
  obtain ⟨unit, hunit, node, scope, hmem, hnode, hinherits, -⟩ :=
    sound.exists_derived hfiles hslot (Or.inl rfl)
  cases node with
  | «class» node =>
    cases hbody : entry.body with
    | «class» info =>
      rw [hbody] at hinherits
      obtain ⟨-, hparent, hinterfaces⟩ := hinherits
      refine ⟨unit, hunit, node, scope, info, hmem, rfl, fun ty hty => ?_, fun ty hty => ?_⟩
      · -- Only the first base in the header can be the parent.
        rw [hparent] at hty
        obtain ⟨base, hbase, hrole⟩ := List.exists_of_findSome?_eq_some hty
        obtain ⟨hcode, harray⟩ := (DeclNode.plain_bases hbase).1 hrole
        exact ⟨hcode, harray, DeclNode.parent_eq hty⟩
      · rw [hinterfaces] at hty
        obtain ⟨base, hbase, hrole⟩ := List.mem_filterMap.1 hty
        exact (DeclNode.plain_bases hbase).2 hrole
    | _ => simp [hbody, DeclNode.Inherits, DeclNode.category] at hinherits
  | _ => cases hnode

lemma Sound.interface_derived (sound : session.Sound)
    (hfiles : ∀ unit ∈ session.files, unit.Derived session.options session.libraries ∧
      unit.scopes.length = unit.nodes.length) {index : Nat} {entry : Entry}
    (hslot : session.libraries.slot? .project .interface index = some entry) :
    ∃ info, entry.body = .interface info ∧
      ∀ ty ∈ info.inherits, ty.code = .interface ∧ ty.isArray = false := by
  obtain ⟨unit, hunit, node, scope, -, hnode, hinherits, -⟩ :=
    sound.exists_derived hfiles hslot (Or.inr rfl)
  cases hbody : entry.body with
  | interface info =>
    rw [hbody] at hinherits
    refine ⟨info, rfl, fun ty hty => ?_⟩
    rw [hinherits.2] at hty
    obtain ⟨base, hbase, hrole⟩ := List.mem_filterMap.1 hty
    exact (DeclNode.plain_bases hbase).2 hrole
  | _ => simp [hbody, DeclNode.Inherits, hnode] at hinherits

/-- An heir of derived documents stands once in the lists of its bases, and in no other list. -/
lemma Sound.count_derived (sound : session.Sound)
    (hfiles : ∀ unit ∈ session.files, unit.Derived session.options session.libraries ∧
      unit.scopes.length = unit.nodes.length) (orderly : session.libraries.Orderly)
    {library : LibraryId} {category : Category} {index : Nat} {base : Entry}
    (hslot : session.libraries.slot? library category index = some base)
    {heirs : List DeclId} (hheirs : base.body.implementors? = some heirs)
    {category' : Category} {index' : Nat} {heir : Entry} (hcategory' : category'.Inherits)
    (hheir : session.libraries.slot? .project category' index' = some heir) :
    heirs.count heir.id = if base.id ∈ heir.body.bases then 1 else 0 := by
  obtain ⟨unit, hunit, node, scope, -, -, -, hmirrors⟩ :=
    sound.exists_derived hfiles hheir hcategory'
  have hid : base.id = ⟨library, category, index, none⟩ :=
    (orderly.tags (LibrarySet.tags?_of_slot? hslot)).id_eq
  refine hmirrors base.id heirs (by rw [hid]) ?_
  rw [LibrarySet.heirs?, LibrarySet.kin?, hid, hslot, Option.map_some, Option.bind_some,
    Body.implementors?_kin, hheirs]

/-- Right after a rebuild in any run: the parent of a class of the project is a class and no array,
and what its first inherited type means; all that classes and interfaces inherit besides are
interfaces and no arrays; and a class or interface of the project stands, once, in the lists of its
bases and in no other list of any library. -/
theorem inheritance_mirrored (manifest : Manifest) (sources : Sources) :
    ∃ initial, Session.start manifest sources = .ok initial ∧ ∀ requests : List Request,
      let session := (initial.run requests).rebuild.1
      (∀ index entry, session.libraries.slot? .project .class index = some entry →
        ∃ unit ∈ session.files, ∃ node scope info,
          ((entry.id, .class node), scope) ∈ (unit.declarations.zip unit.nodes).zip unit.scopes ∧
          entry.body = .class info ∧
          (∀ ty ∈ info.parent, ty.code = .handle ∧ ty.isArray = false ∧
            ∃ first rest, node.inherits = first :: rest ∧ ty = ((Linkage.context
              ⟨session.libraries, unit⟩ session.options scope).resolveType first).value) ∧
          ∀ ty ∈ info.inherits, ty.code = .interface ∧ ty.isArray = false) ∧
      (∀ index entry, session.libraries.slot? .project .interface index = some entry →
        ∃ info, entry.body = .interface info ∧
          ∀ ty ∈ info.inherits, ty.code = .interface ∧ ty.isArray = false) ∧
      ∀ library category index base, category.Inherits →
        session.libraries.slot? library category index = some base →
        ∃ heirs, base.body.implementors? = some heirs ∧
          ∀ category' index' heir, category'.Inherits →
            session.libraries.slot? .project category' index' = some heir →
            heirs.count heir.id = if base.id ∈ heir.body.bases then 1 else 0 := by
  obtain ⟨initial, hstart, hrun⟩ := noted_run manifest sources
  refine ⟨initial, hstart, fun requests => ?_⟩
  obtain ⟨sound, arranged, noted⟩ := hrun requests
  obtain ⟨tidied, report, hrebuild, htidied, harranged, hnoted, hfiles⟩ :=
    sound.noted_tidied arranged noted
  have hsound : (initial.run requests).rebuild.1.Sound := sound.perform .rebuild
  have harranged' := sound.arranged_rebuild arranged
  have hderived := htidied.derived_relink harranged hnoted hfiles
  have hrelink : (initial.run requests).rebuild.1 = tidied.relink := congrArg Prod.fst hrebuild
  rw [← hrelink] at hderived
  generalize (initial.run requests).rebuild.1 = session at hsound harranged' hderived ⊢
  refine ⟨fun index entry => hsound.class_derived hderived,
    fun index entry => hsound.interface_derived hderived,
    fun library category index base hcategory hslot => ?_⟩
  obtain ⟨heirs, hheirs⟩ := harranged'.orderly.exists_heirs hslot hcategory
  exact ⟨heirs, hheirs, fun category' index' heir =>
    hsound.count_derived hderived harranged'.orderly hslot hheirs⟩

end Session

end SymbolGraph
