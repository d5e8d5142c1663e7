import SymbolGraph.Proofs.Inheritance.Rebuilds
import SymbolGraph.Proofs.Session.Types
import SymbolGraph.Proofs.Session.UntouchedDocuments

/-!
# What a library rests on when it has been loaded

Linking finds what exists, and takes nothing away: members are added, references and heirs are
written down.  So whatever the names and types of a document were found to mean goes on to exist
while other documents are linked (`LibrarySet.Retains`).  A library is *grounded* if all its names
and types mean something that exists, and its classes and interfaces stand in the lists of their
bases.  A library without documents is grounded, and so is one whose documents have not been linked;
every pass over a document, of whichever library, keeps it so.

So do loads (`LibrarySet.Admits`).  Nothing is assumed of what the libraries name: all of this holds
also where they name the project.
-/

namespace SymbolGraph

/-! ## Targets that stay -/

namespace LibrarySet

variable {set set' set'' : LibrarySet}

/-- Everything that exists goes on to exist. -/
structure Retains (set set' : LibrarySet) : Prop where
  orderly : set'.Orderly
  live : ∀ {target}, set.Live target → set'.Live target

lemma Retains.refl (orderly : set.Orderly) : set.Retains set := ⟨orderly, fun h => h⟩

lemma Retains.trans (h : set.Retains set') (k : set'.Retains set'') : set.Retains set'' :=
  ⟨k.orderly, fun hlive => k.live (h.live hlive)⟩

lemma SameTags.retains (same : SameTags set set') (orderly : set.Orderly) : set.Retains set' :=
  ⟨same.orderly orderly, same.live orderly⟩

lemma Widens.retains (widens : set.Widens set') (orderly : set.Orderly)
    (orderly' : set'.Orderly) : set.Retains set' := by
  refine ⟨orderly', fun {target} hlive => ?_⟩
  obtain ⟨proper, refs, hrefs⟩ := (orderly.live_iff target).1 hlive
  exact (orderly'.live_iff target).2 ⟨proper, refs, widens.keep proper hrefs⟩

lemma Extends.retains (h : set.Extends set') (orderly : set.Orderly) : set.Retains set' :=
  (h.widens orderly.identified).retains orderly h.orderly

/-- Writing a reference to something that exists. -/
lemma Orderly.retains_overReferences (orderly : set.Orderly)
    (f : List Location → List Location) {target : Target} (hlive : set.Live target) :
    set.Retains (set.overReferences f target) := by
  obtain ⟨htarget, -⟩ := (orderly.live_iff target).1 hlive
  refine ⟨orderly.overReferences f target, fun {other} hother => ?_⟩
  obtain ⟨proper, refs, hrefs⟩ := (orderly.live_iff other).1 hother
  refine ((orderly.overReferences f target).live_iff other).2 ⟨proper, ?_⟩
  rw [orderly.references?_overReferences f htarget proper, hrefs]
  split <;> exact ⟨_, rfl⟩

end LibrarySet

open LibrarySet

namespace Linkage

variable {state : Linkage} {others : List SourceUnit} {near : LibraryId → Prop}

lemma retains_addReference (orderly : state.libraries.Orderly) {found : Target × Location}
    (hlive : state.libraries.Live found.1) :
    state.libraries.Retains (state.addReference found).libraries := by
  unfold addReference
  dsimp only
  split
  · exact .refl orderly
  · split
    · exact .refl orderly
    · exact orderly.retains_overReferences _ hlive

lemma retains_addHeir (orderly : state.libraries.Orderly) (found : DeclId × DeclId) :
    state.libraries.Retains (state.addHeir found).libraries := by
  unfold addHeir
  dsimp only
  split
  · exact .refl orderly
  · exact (sameTags_overImplementors orderly.identified found.1 _).retains orderly

/-- Writing down what has been found of things that exist. -/
lemma retains_apply (orderly : state.libraries.Orderly) {found : Findings} {document : String}
    {own : List DeclId} (among : found.Among state.libraries near document own) :
    state.libraries.Retains (state.apply found).libraries := by
  have hupdates : state.libraries.Retains (found.updates.foldl Update.apply state.libraries) :=
    (SameTags.foldl found.updates (fun _ orderly update hupdate =>
      sameTags_update orderly (among.updates hupdate).1) orderly).retains orderly
  have hreferences := List.foldlRecOn
    (motive := fun mid : Linkage => state.libraries.Retains mid.libraries)
    found.references addReference (b := ⟨_, state.unit⟩) hupdates fun mid hmid reference h =>
      hmid.trans (retains_addReference hmid.orderly (hmid.live (among.references h).1.1))
  exact List.foldlRecOn (motive := fun mid : Linkage => state.libraries.Retains mid.libraries)
    found.heirs addHeir hreferences fun mid hmid pair _ =>
      hmid.trans (retains_addHeir hmid.orderly pair)

lemma retains_linkImports (arranged : state.libraries.Arranged (state.unit :: others)) :
    state.libraries.Retains state.linkImports.libraries := by
  obtain ⟨hamong, -⟩ := state.among_everywhere.imported arranged.legible
  rw [linkImports_eq arranged.settled]
  exact @retains_apply { state with unit := { state.unit with scopes := state.imported.1 } } _
    arranged.orderly _ _ _ hamong

lemma retains_declareMembers (arranged : state.libraries.Arranged (state.unit :: others))
    (undeclared : state.unit.Undeclared) :
    state.libraries.Retains state.declareMembers.libraries :=
  (widens_declareMembers arranged undeclared).retains arranged.orderly
    (arranged_declareMembers arranged undeclared).orderly

end Linkage

/-! ## Types -/

/-- The types that an update writes down. -/
def Update.types : Update → List Ty
  | .variable _ info => [info.ty]
  | .callable _ params returns => params.map Parameter.ty ++ returns
  | .task _ returns => returns
  | .inheritance _ parent inherits => parent.toList ++ inherits

lemma Leaf.types_core (leaf : Leaf) : leaf.core.types = leaf.types := by
  cases leaf <;> rfl

lemma Body.types_core (body : Body) : body.core.types = body.types := by
  have hmembers (list : List Member) : (list.map Member.core).flatMap (fun m => m.body.types)
      = list.flatMap fun m => m.body.types := by
    rw [List.flatMap_map]
    exact congrArg (List.flatMap · list) (funext fun m => m.body.types_core)
  cases body <;> simp only [core, types, Leaf.types_core, ← List.map_append, hmembers]

/-- Changing a member list brings in no types but those of the new members. -/
lemma Body.mem_types_overMembers {body : Body} {category : Category}
    {f : List Member → List Member} {ty : Ty} (h : ty ∈ (body.overMembers category f).types) :
    ty ∈ body.types ∨ ∃ list m, body.members? category = some list ∧ m ∈ f list ∧
      ty ∈ m.body.types := by
  cases body <;> cases category <;>
    simp only [overMembers, types, members?, List.flatMap_append, List.mem_append,
      List.mem_flatMap] at h ⊢ <;> grind

/-- The types of a member are among those of its owner. -/
lemma Body.mem_types_of_member {body : Body} {category : Category} {list : List Member}
    (hlist : body.members? category = some list) {m : Member} (hm : m ∈ list) {ty : Ty}
    (hty : ty ∈ m.body.types) : ty ∈ body.types := by
  cases body <;> cases category <;>
    simp only [members?, types, List.flatMap_append, List.mem_append,
      List.mem_flatMap, reduceCtorEq, Option.some.injEq] at hlist ⊢ <;> grind

lemma Leaf.types_fresh {category : Category} {ty : Ty} (h : ty ∈ (Leaf.fresh category).types) :
    ty.declaration? = none := by
  cases category <;> simp [fresh, types] at h <;> simp [h] <;> rfl

lemma Body.types_fresh {category : Category} {ty : Ty} (h : ty ∈ (Body.fresh category).types) :
    ty.declaration? = none := by
  cases category <;> simp [fresh, types] at h
  all_goals exact Leaf.types_fresh h

lemma Body.forall_types_addMembers {P : Ty → Prop} {members : List Member} {body : Body}
    (hmembers : ∀ m ∈ members, ∀ ty ∈ m.body.types, P ty) (hbody : ∀ ty ∈ body.types, P ty) :
    ∀ ty ∈ (members.foldl (fun body m => LinkMembers.addMember m body) body).types, P ty := by
  refine List.foldlRecOn (motive := fun body : Body => ∀ ty ∈ body.types, P ty) members _ hbody
    fun body hbody m hm ty hty => ?_
  rcases Body.mem_types_overMembers hty with hty | ⟨list, other, hlist, hother, hty⟩
  · exact hbody ty hty
  · rcases List.mem_append.1 hother with hother | hother
    · exact hbody ty (Body.mem_types_of_member hlist hother hty)
    · rw [List.mem_singleton.1 hother] at hty
      exact hmembers m hm ty hty

namespace LibrarySet

variable {set set' : LibrarySet} {P : Ty → Prop} {library : LibraryId}

/-- All types that are stored in the library have the property. -/
def AllTypes (P : Ty → Prop) (set : LibrarySet) (library : LibraryId) : Prop :=
  ∀ category index entry, set.slot? library category index = some entry →
    ∀ ty ∈ entry.body.types, P ty

lemma AllTypes.imp {Q : Ty → Prop} (h : set.AllTypes P library) (himp : ∀ ty, P ty → Q ty) :
    set.AllTypes Q library :=
  fun category index entry hslot ty hty => himp ty (h category index entry hslot ty hty)

/-- The types of a declaration belong to its core. -/
lemma AllTypes.of_core (h : set.AllTypes P library)
    (hcore : ∀ category index,
      set'.core? library category index = set.core? library category index) :
    set'.AllTypes P library := by
  intro category index entry hslot ty hty
  have hsame : (set.slot? library category index).map Entry.core = some entry.core := by
    rw [← core?, ← hcore, core?, hslot, Option.map_some]
  obtain ⟨old, hold, heq⟩ := Option.map_eq_some_iff.1 hsame
  refine h category index old hold ty ?_
  have hbody : old.body.core = entry.body.core := congrArg Symbol.body heq
  rwa [← Body.types_core, hbody, Body.types_core]

lemma AllTypes.edit (h : set.AllTypes P library) (hid : set.Identified) {id : DeclId}
    {edit : Edit}
    (hentry : ∀ entry : Entry, (∀ ty ∈ entry.body.types, P ty) →
      ∀ ty ∈ (edit.onEntry entry).body.types, P ty)
    (hmember : ∀ m : Member, (∀ ty ∈ m.body.types, P ty) →
      ∀ ty ∈ (edit.onMember m).body.types, P ty) : (set.edit id edit).AllTypes P library := by
  intro category index entry hslot ty hty
  rw [slot?_edit hid] at hslot
  split at hslot
  · obtain ⟨old, hold, rfl⟩ := Option.map_eq_some_iff.1 hslot
    have htypes := h category index old hold
    unfold Edit.atSeat at hty
    split at hty
    · exact hentry old htypes ty hty
    · rcases Body.mem_types_overMembers hty with hty | ⟨list, m, hlist, hm, hty⟩
      · exact htypes ty hty
      · have hmembers : ∀ m ∈ list, ∀ ty ∈ m.body.types, P ty :=
          fun m hm ty hty => htypes ty (Body.mem_types_of_member hlist hm hty)
        obtain ⟨i, hi⟩ := List.getElem?_of_mem hm
        rw [List.getElem?_modify] at hi
        obtain ⟨old, hold, rfl⟩ := Option.map_eq_some_iff.1 hi
        split at hty
        · exact hmember old (hmembers old (List.mem_of_getElem? hold)) ty hty
        · exact hmembers old (List.mem_of_getElem? hold) ty hty
  · exact h category index entry hslot ty hty

lemma AllTypes.update (h : set.AllTypes P library) (hid : set.Identified) {update : Update}
    (hupdate : ∀ ty ∈ update.types, P ty) : (update.apply set).AllTypes P library := by
  -- An update replaces some types by its own, and the others are those of the record.
  cases update with
  | «variable» target info =>
    exact h.edit hid (fun entry _ ty hty => hupdate ty hty) fun m _ ty hty => hupdate ty hty
  | callable target params returns =>
    have hleaf {part : Leaf} (hpart : ∀ ty ∈ part.types, P ty) :
        ∀ ty ∈ (part.overCallable fun c => { c with params, returns }).types, P ty := by
      cases part with
      | callable info => exact hupdate
      | «variable» info => exact hpart
      | element => exact hpart
    refine h.edit hid (fun entry hentry ty hty => ?_) fun m hm ty hty => hleaf hm ty hty
    rw [Edit.callable, Symbol.body_map] at hty
    split at hty
    · next part hbody => exact hleaf (fun ty hty => hentry ty (hbody ▸ hty)) ty hty
    · exact hentry ty hty
  | task target returns => exact h.edit hid (fun entry _ ty hty => hupdate ty hty) fun m hm => hm
  | inheritance target parent inherits =>
    refine h.edit hid (fun entry hentry ty hty => ?_) fun m hm => hm
    change ty ∈ (Update.setBases parent inherits entry.body).types at hty
    generalize entry.body = body at hentry hty
    unfold Update.setBases at hty
    split at hty
    · next info =>
      rcases List.mem_append.1 hty with hty | hty
      · exact hupdate ty hty
      · exact hentry ty (List.mem_append_right _ hty)
    · next info =>
      rcases List.mem_append.1 hty with hty | hty
      · exact hupdate ty (List.mem_append_right _ hty)
      · exact hentry ty (List.mem_append_right _ hty)
    · exact hentry ty hty

end LibrarySet

/-- All types that are found have the property. -/
def Findings.AllTypes (P : Ty → Prop) (found : Findings) : Prop :=
  ∀ update ∈ found.updates, ∀ ty ∈ update.types, P ty

namespace Findings.AllTypes

variable {P : Ty → Prop}

lemma empty : Findings.AllTypes P {} := by simp [Findings.AllTypes]

lemma append {a b : Findings} (ha : a.AllTypes P) (hb : b.AllTypes P) : (a ++ b).AllTypes P := by
  intro update hupdate
  rcases List.mem_append.1 hupdate with h | h
  · exact ha update h
  · exact hb update h

lemma join {all : List Findings} (h : ∀ found ∈ all, found.AllTypes P) :
    (Findings.join all).AllTypes P := by
  intro update hupdate
  rw [updates_join] at hupdate
  obtain ⟨found, hfound, hupdate⟩ := List.mem_flatMap.1 hupdate
  exact h found hfound update hupdate

lemma ofUpdates {found : Findings} {updates : List Update} (hfound : found.updates = updates)
    (h : ∀ update ∈ updates, ∀ ty ∈ update.types, P ty) : found.AllTypes P := by
  rw [Findings.AllTypes, hfound]
  exact h

lemma ofMembers {α : Type} (ctx : Context) (owner : DeclId) (category : Category)
    (nodes : List α) {find : DeclId → α → Findings} (h : ∀ id node, (find id node).AllTypes P) :
    (LinkSignatures.ofMembers ctx owner category nodes find).AllTypes P := by
  refine join fun found hfound => ?_
  obtain ⟨⟨node, id⟩, -, rfl⟩ := List.mem_map.1 hfound
  exact h id node

section Contexts

variable {ctx : Context} (h : ∀ ref, P (ctx.resolveType ref).value)

include h

lemma ofVariable (target : DeclId) (node : VariableNode) :
    (LinkSignatures.ofVariable ctx target node).AllTypes P := by
  refine ofUpdates (LinkSignatures.updates_ofVariable target node) fun update hupdate ty hty => ?_
  rw [List.mem_singleton.1 hupdate] at hty
  rw [List.mem_singleton.1 hty]
  exact h node.ty

lemma ofCallable (target : DeclId) (params : List ParamNode) (returns : List TypeRef) :
    (LinkSignatures.ofCallable ctx target params returns).AllTypes P := by
  refine ofUpdates (LinkSignatures.updates_ofCallable target params returns)
    fun update hupdate ty hty => ?_
  rw [List.mem_singleton.1 hupdate] at hty
  rcases List.mem_append.1 hty with hty | hty
  · obtain ⟨param, hparam, rfl⟩ := List.mem_map.1 hty
    obtain ⟨resolved, hresolved, rfl⟩ := List.mem_map.1 hparam
    obtain ⟨written, -, rfl⟩ := List.mem_map.1 hresolved
    exact h written.ty
  · obtain ⟨resolved, hresolved, rfl⟩ := List.mem_map.1 hty
    obtain ⟨ref, -, rfl⟩ := List.mem_map.1 hresolved
    exact h ref

end Contexts

/-- The types that are found for the signatures of a declaration. -/
lemma signatures {ctx : Context} {id : DeclId} (h : ∀ ref, P (ctx.resolveType ref).value)
    (hinner : ∀ ref, P (({ ctx with within := some id } : Context).resolveType ref).value)
    (node : DeclNode) : (LinkSignatures.findings ctx id node).AllTypes P := by
  -- Every kind of node puts the types of its parts together; those of members are resolved from
  -- inside.
  cases node with
  | «variable» node => exact ofVariable h id node
  | function node => exact ofCallable h id node.params node.returns
  | native node => exact ofCallable h id node.params node.returns
  | delegate node => exact ofCallable h id node.params node.returns
  | task node =>
    refine append (ofUpdates (ctx.updates_resolveTypes node.returns) (by simp)) ?_
    intro update hupdate ty hty
    rw [List.mem_singleton.1 hupdate] at hty
    obtain ⟨resolved, hresolved, rfl⟩ := List.mem_map.1 hty
    obtain ⟨ref, -, rfl⟩ := List.mem_map.1 hresolved
    exact h ref
  | enum node => exact empty
  | struct node =>
    exact (ofMembers ctx id .structVariable node.fields (ofVariable hinner)).append
      (ofMembers ctx id .structFunction node.functions fun target node =>
        ofCallable hinner target node.params node.returns)
  | interface node =>
    exact ofMembers ctx id .interfaceFunction node.functions fun target node =>
      ofCallable hinner target node.params node.returns
  | «class» node =>
    exact ((ofMembers ctx id .classVariable node.fields (ofVariable hinner)).append
      (ofMembers ctx id .constructor node.constructors
        fun target node => ofCallable hinner target node.params [])).append
      (ofMembers ctx id .classFunction node.functions fun target node =>
        ofCallable hinner target node.params node.returns)

/-- The types that are found for the bases of a declaration. -/
lemma bases {ctx : Context} {id : DeclId} (h : ∀ ref, P (ctx.resolveType ref).value)
    (node : DeclNode) : (LinkBases.findings ctx id node).AllTypes P := by
  by_cases hnode : node.category.Inherits
  · refine ofUpdates (DeclNode.updates_bases hnode id) fun update hupdate ty hty => ?_
    rw [List.mem_singleton.1 hupdate] at hty
    have hbase : ∃ base ∈ node.bases ctx, ty = base.resolved.value := by
      rcases List.mem_append.1 hty with hty | hty
      · obtain ⟨base, hbase, hparent⟩ := List.exists_of_findSome?_eq_some
          (Option.mem_toList.1 hty)
        refine ⟨base, hbase, ?_⟩
        unfold LinkBases.Base.parent? at hparent
        split at hparent
        · exact (Option.some.inj hparent).symm
        · cases hparent
      · obtain ⟨base, hbase, hinterface⟩ := List.mem_filterMap.1 hty
        refine ⟨base, hbase, ?_⟩
        unfold LinkBases.Base.interface? at hinterface
        split at hinterface
        · exact (Option.some.inj hinterface).symm
        · cases hinterface
    obtain ⟨base, hbase, rfl⟩ := hbase
    obtain ⟨ref, href⟩ := DeclNode.resolved_bases hbase
    rw [href]
    exact h ref
  · rw [DeclNode.findings_eq_empty hnode]
    exact empty

end Findings.AllTypes

/-- The declaration that the type means exists. -/
def Ty.Rests (set : LibrarySet) (ty : Ty) : Prop :=
  ∀ id, ty.declaration? = some id → set.Live (.declaration id)

lemma Ty.Rests.mono {set set' : LibrarySet} {ty : Ty} (h : ty.Rests set)
    (retains : set.Retains set') : ty.Rests set' := fun id hid => retains.live (h id hid)

lemma Context.rests_resolveType (ctx : Context) (legible : ctx.libraries.Legible)
    (ref : TypeRef) : (ctx.resolveType ref).value.Rests ctx.libraries := by
  obtain ⟨-, hlive⟩ := ctx.among_everywhere.resolveType legible []
    (fun _ _ _ _ _ _ => trivial : ctx.libraries.Leads (fun _ => True) ref.path)
  exact fun id hid => (hlive id hid).1

/-! ## Heirs -/

/-- The declarations that an update makes bases of its target. -/
def Update.bases : Update → List DeclId
  | .inheritance _ parent inherits => (parent.toList ++ inherits).filterMap Ty.declaration?
  | _ => []

/-- Bases are found together with the declarations that inherit them. -/
def Findings.Paired (found : Findings) : Prop :=
  ∀ update ∈ found.updates, ∀ base ∈ update.bases,
    (base, update.target) ∈ found.heirs ∧ base.category.Inherits

namespace Findings.Paired

lemma join {all : List Findings} (h : ∀ found ∈ all, found.Paired) :
    (Findings.join all).Paired := by
  intro update hupdate base hbase
  rw [updates_join] at hupdate
  obtain ⟨found, hfound, hupdate⟩ := List.mem_flatMap.1 hupdate
  obtain ⟨hheir, hcategory⟩ := h found hfound update hupdate base hbase
  rw [heirs_join]
  exact ⟨List.mem_flatMap.2 ⟨found, hfound, hheir⟩, hcategory⟩

lemma of_kinless {found : Findings} (kinless : found.Kinless) : found.Paired := by
  intro update hupdate base hbase
  cases update with
  | inheritance target parent inherits =>
    have h := kinless.updates _ hupdate target (.class {})
    simp only [Update.onKin, if_true, Update.setBases, Body.class.injEq, ClassInfo.mk.injEq] at h
    simp [Update.bases, h] at hbase
  | _ => exact absurd hbase List.not_mem_nil

/-- Linking the bases of a declaration makes it an heir of each of them. -/
lemma bases (ctx : Context) (id : DeclId) (node : DeclNode) :
    (LinkBases.findings ctx id node).Paired := by
  by_cases hnode : node.category.Inherits
  · intro update hupdate base hbase
    rw [DeclNode.updates_bases hnode, List.mem_singleton] at hupdate
    subst hupdate
    refine ⟨(DeclNode.mem_heirs_bases hnode).2 ⟨rfl, ?_⟩, ?_⟩
    · rwa [Update.bases, LinkBases.stored_bases DeclNode.parent?_tail] at hbase
    · obtain ⟨ty, hty, hdeclaration⟩ := List.mem_filterMap.1 hbase
      obtain ⟨category, hcategory, rfl⟩ := Option.map_eq_some_iff.1 hdeclaration
      rcases List.mem_append.1 hty with hty | hty
      · obtain ⟨written, hwritten, hparent⟩ := List.exists_of_findSome?_eq_some
          (Option.mem_toList.1 hty)
        rw [((DeclNode.plain_bases hwritten).1 hparent).1] at hcategory
        exact Or.inl (Option.some.inj hcategory).symm
      · obtain ⟨written, hwritten, hinterface⟩ := List.mem_filterMap.1 hty
        rw [((DeclNode.plain_bases hwritten).2 hinterface).1] at hcategory
        exact Or.inr (Option.some.inj hcategory).symm
  · rw [DeclNode.findings_eq_empty hnode]
    simp [Findings.Paired]

end Findings.Paired

lemma Body.define_bases {body : Body} {base : DeclId} (h : base ∈ body.bases) :
    base.define = none := by
  have hdeclaration {types : List Ty} (h : base ∈ types.filterMap Ty.declaration?) :
      base.define = none := by
    obtain ⟨ty, -, hty⟩ := List.mem_filterMap.1 h
    obtain ⟨category, -, rfl⟩ := Option.map_eq_some_iff.1 hty
    rfl
  unfold Body.bases at h
  split at h
  · exact hdeclaration h
  · exact hdeclaration h
  · cases h

/-- Updates give a declaration no bases but their own. -/
lemma Update.mem_bases_onKin {id base : DeclId} {updates : List Update} {kin : Body}
    (h : base ∈ (updates.foldl (Update.onKin id) kin).bases) :
    base ∈ kin.bases ∨ ∃ update ∈ updates, update.target = id ∧ base ∈ update.bases := by
  induction updates generalizing kin with
  | nil => exact Or.inl h
  | cons update rest ih =>
    rcases ih h with hkin | ⟨other, hother, htarget⟩
    · cases update with
      | inheritance target parent inherits =>
        simp only [Update.onKin] at hkin
        split at hkin
        · next heq =>
          cases kin with
          | «class» info => exact Or.inr ⟨_, List.mem_cons_self, heq, hkin⟩
          | interface info =>
            refine Or.inr ⟨_, List.mem_cons_self, heq, ?_⟩
            rw [Update.bases, List.filterMap_append]
            exact List.mem_append_right _ hkin
          | _ => exact absurd hkin List.not_mem_nil
        · exact Or.inl hkin
      | _ => exact Or.inl hkin
    · exact Or.inr ⟨other, List.mem_cons_of_mem _ hother, htarget⟩

namespace LibrarySet

variable {set set' set'' : LibrarySet} {library : LibraryId}

/-- Every class or interface of the library stands in the lists of its bases. -/
def Listed (set : LibrarySet) (library : LibraryId) : Prop :=
  ∀ id kin, id.library = library → id.define = none → set.kin? id = some kin →
    ∀ base ∈ kin.bases, set.Lists base id

lemma Listed.of_sameKin (listed : set.Listed library) (same : SameKin set set') :
    set'.Listed library := by
  intro id kin hlibrary hdefine hkin base hbase
  rw [same.kin] at hkin
  obtain ⟨list, hlist, hmem⟩ := listed id kin hlibrary hdefine hkin base hbase
  exact ⟨list, (same.heirs?_eq base).trans hlist, hmem⟩

/-- A class or interface that exists has a list of heirs. -/
lemma Orderly.exists_heirs? (orderly : set.Orderly) {base : DeclId}
    (hlive : set.Live (.declaration base)) (hcategory : base.category.Inherits) :
    ∃ list, set.heirs? base = some list := by
  have htop : base.category.isMember = false := by
    rcases hcategory with h | h <;> rw [h] <;> rfl
  obtain ⟨entry, hentry, -⟩ := hlive
  rw [find?_eq orderly.identified, DeclId.seat_of_top htop] at hentry
  obtain ⟨owner, hslot, -⟩ := Option.bind_eq_some_iff.1 hentry
  obtain ⟨list, hlist⟩ := orderly.exists_heirs hslot hcategory
  refine ⟨list, ?_⟩
  rw [heirs?, kin?, hslot, Option.map_some, Option.bind_some, Body.implementors?_kin, hlist]

end LibrarySet

lemma Linkage.listed_apply {state : Linkage} {others : List SourceUnit} {near : LibraryId → Prop}
    (arranged : state.libraries.Arranged (state.unit :: others)) {found : Findings}
    (among : found.Among state.libraries near state.unit.path state.unit.declarations)
    (paired : found.Paired) {library : LibraryId} (listed : state.libraries.Listed library) :
    (state.apply found).libraries.Listed library := by
  have hheirs {base : DeclId} (hdefine : base.define = none) :=
    heirs?_apply arranged among hdefine
  obtain ⟨hkins, -, -⟩ := kin?_apply arranged.orderly among (define_declarations arranged.settled)
  intro id kin hlibrary hdefine hkin base hbase
  have hbase_define := Body.define_bases hbase
  rw [hkins id hdefine] at hkin
  obtain ⟨old, hold, rfl⟩ := Option.map_eq_some_iff.1 hkin
  rw [Body.bases_overImplementors] at hbase
  rcases Update.mem_bases_onKin hbase with hbase | ⟨update, hupdate, rfl, hmine⟩
  · obtain ⟨list, hlist, hmem⟩ := listed id old hlibrary hdefine hold base hbase
    exact ⟨_, (hheirs hbase_define).trans (congrArg _ hlist), (mem_addAllNew _ _ _).2 (Or.inl hmem)⟩
  · obtain ⟨hheir, hcategory⟩ := paired update hupdate base hmine
    obtain ⟨list, hlist⟩ := arranged.orderly.exists_heirs? (among.heirs hheir).1.1 hcategory
    refine ⟨_, (hheirs hbase_define).trans (congrArg _ hlist), (mem_addAllNew _ _ _).2 (Or.inr ?_)⟩
    exact List.mem_map.2 ⟨_, List.mem_filter.2 ⟨hheir, by simp⟩, rfl⟩

/-! ## Linking -/

/-- The library rests on what exists: its documents name nothing else, nor do the types in its
records, and its classes and interfaces stand in the lists of their bases. -/
structure LibrarySet.Grounded (set : LibrarySet) (units : List SourceUnit) (library : LibraryId) :
    Prop where
  types : set.AllTypes (Ty.Rests set) library
  occurrences : ∀ unit ∈ units, unit.library = library → ∀ occurrence ∈ unit.occurrences,
    set.Live occurrence.target
  listed : set.Listed library

lemma LibrarySet.Grounded.perm {set : LibrarySet} {units units' : List SourceUnit}
    {library : LibraryId} (grounded : set.Grounded units library) (h : units.Perm units') :
    set.Grounded units' library :=
  ⟨grounded.types, fun unit hunit => grounded.occurrences unit (h.mem_iff.2 hunit),
    grounded.listed⟩

namespace Linkage

variable {state : Linkage} {others : List SourceUnit} {near : LibraryId → Prop}
  {library : LibraryId}

lemma allTypes_found {P : Ty → Prop} (options : LinkOptions)
    {find : Context → DeclId → DeclNode → Findings}
    (hfind : ∀ (ctx : Context) (id : DeclId) (node : DeclNode), ctx.libraries = state.libraries →
      (find ctx id node).AllTypes P) : (state.found options find).AllTypes P := by
  refine Findings.AllTypes.join fun found hfound => ?_
  obtain ⟨⟨⟨id, node⟩, scope⟩, -, rfl⟩ := List.mem_map.1 hfound
  exact hfind _ id node rfl

lemma rests_foundBases (legible : state.libraries.Legible) (options : LinkOptions) :
    (state.found options LinkBases.findings).AllTypes (Ty.Rests state.libraries) := by
  refine allTypes_found options fun ctx id node hctx => ?_
  rw [← hctx] at legible ⊢
  exact .bases (ctx.rests_resolveType legible) node

lemma rests_foundSignatures (legible : state.libraries.Legible) (options : LinkOptions) :
    (state.found options LinkSignatures.findings).AllTypes (Ty.Rests state.libraries) := by
  refine allTypes_found options fun ctx id node hctx => ?_
  rw [← hctx] at legible ⊢
  exact .signatures (ctx.rests_resolveType legible)
    (({ ctx with within := some id } : Context).rests_resolveType legible) node

lemma paired_foundBases (state : Linkage) (options : LinkOptions) :
    (state.found options LinkBases.findings).Paired := by
  refine Findings.Paired.join fun found hfound => ?_
  obtain ⟨⟨⟨id, node⟩, scope⟩, -, rfl⟩ := List.mem_map.1 hfound
  exact .bases _ id node

lemma paired_foundSignatures (state : Linkage) (options : LinkOptions) :
    (state.found options LinkSignatures.findings).Paired := by
  refine Findings.Paired.join fun found hfound => ?_
  obtain ⟨⟨⟨id, node⟩, scope⟩, -, rfl⟩ := List.mem_map.1 hfound
  exact .of_kinless (.signatures _ id node)

lemma grounded_apply (arranged : state.libraries.Arranged (state.unit :: others))
    {found : Findings}
    (among : found.Among state.libraries near state.unit.path state.unit.declarations)
    (htypes : found.AllTypes (Ty.Rests state.libraries)) (paired : found.Paired)
    (grounded : state.libraries.Grounded (state.unit :: others) library) :
    (state.apply found).libraries.Grounded ((state.apply found).unit :: others) library := by
  have retains := retains_apply arranged.orderly among
  refine ⟨?_, ?_, listed_apply arranged among paired grounded.listed⟩
  · -- The types of the model come from the updates, and each of these rests on the model.
    have hupdates : (found.updates.foldl Update.apply state.libraries).AllTypes
        (Ty.Rests state.libraries) library ∧
        (found.updates.foldl Update.apply state.libraries).Identified :=
      List.foldlRecOn (motive := fun set : LibrarySet =>
        set.AllTypes (Ty.Rests state.libraries) library ∧ set.Identified) found.updates Update.apply
        ⟨grounded.types, arranged.orderly.identified⟩ fun set hset update hupdate =>
          ⟨hset.1.update hset.2 (htypes update hupdate), by
            rw [Update.apply_eq]
            exact hset.2.edit _ _⟩
    have hcores := @sameCores_traces state (fun _ => False) found hupdates.2
    exact (hupdates.1.of_core fun category index =>
      hcores.cores library category index fun h => h).imp fun ty hty => hty.mono retains
  · obtain ⟨unit, hunit, hoccurrences⟩ := state.apply_unit found
      (P := fun unit => unit.library = state.unit.library ∧ (state.unit.library = library →
        ∀ occurrence ∈ unit.occurrences, (state.apply found).libraries.Live occurrence.target))
      ⟨rfl, fun hlibrary occurrence hoccurrence => retains.live
        (grounded.occurrences state.unit List.mem_cons_self hlibrary occurrence hoccurrence)⟩
      (fun hreference h => ⟨h.1, fun hlibrary occurrence hoccurrence => by
        rcases List.mem_append.1 hoccurrence with hold | hnew
        · exact h.2 hlibrary occurrence hold
        · rw [List.mem_singleton.1 hnew]
          exact retains.live (among.references hreference).1.1⟩)
      (fun h => h)
    intro other hother hlibrary occurrence hoccurrence
    rcases List.mem_cons.1 hother with rfl | hother
    · rw [hunit] at hlibrary hoccurrence
      exact hoccurrences.2 (hoccurrences.1.symm.trans hlibrary) occurrence hoccurrence
    · exact retains.live (grounded.occurrences other (List.mem_cons_of_mem _ hother) hlibrary
        occurrence hoccurrence)

lemma grounded_linkImports (arranged : state.libraries.Arranged (state.unit :: others))
    (grounded : state.libraries.Grounded (state.unit :: others) library) :
    state.linkImports.libraries.Grounded (state.linkImports.unit :: others) library := by
  obtain ⟨hamong, -⟩ := state.among_everywhere.imported arranged.legible
  obtain ⟨-, hupdates⟩ := imported_idle arranged.legible
  have hscopes : state.libraries.Arranged
      ({ state.unit with scopes := state.imported.1 } :: others) :=
    arranged.step rfl rfl (fun h => h) (.refl arranged.orderly)
  rw [linkImports_eq arranged.settled]
  refine @grounded_apply ⟨state.libraries, { state.unit with scopes := state.imported.1 }⟩ _ _ _
    hscopes _ hamong (.ofUpdates hupdates (by simp)) (by simp [Findings.Paired, hupdates])
    ⟨grounded.types, fun unit hunit => ?_, grounded.listed⟩
  rcases List.mem_cons.1 hunit with rfl | hunit
  · exact grounded.occurrences state.unit List.mem_cons_self
  · exact grounded.occurrences unit (List.mem_cons_of_mem _ hunit)

end Linkage

/-- A member of a node is counted among those of its category. -/
lemma DeclNode.position_lt {node : DeclNode} {m : MemberNode} (hm : m ∈ node.memberNodes) :
    m.category.owner? = some node.category ∧
      m.position < (node.memberNodes.filter fun other => other.category = m.category).length := by
  -- A list of members of one kind is a part of all members, and the position counts along it.
  have hpart {α : Type} {category : Category} {name : α → Ident} {visibility : α → Visibility}
      {nodes : List α} (hm : m ∈ membersOf category name visibility nodes)
      (howner : category.owner? = some node.category)
      (hsub : (membersOf category name visibility nodes).Sublist node.memberNodes) :
      m.category.owner? = some node.category ∧
        m.position < (node.memberNodes.filter fun other => other.category = m.category).length := by
    obtain ⟨⟨first, position⟩, hmem, rfl⟩ := List.mem_map.1 hm
    refine ⟨howner, lt_of_lt_of_le ?_ (hsub.filter _).length_le⟩
    rw [filter_membersOf, if_pos rfl, membersOf, List.length_map, List.length_zipIdx]
    exact List.snd_lt_of_mem_zipIdx hmem
  cases node with
  | enum node =>
    rw [memberNodes] at hm
    exact hpart hm rfl (List.Sublist.refl _)
  | interface node =>
    rw [memberNodes] at hm
    exact hpart hm rfl (List.Sublist.refl _)
  | struct node =>
    rcases List.mem_append.1 hm with hm | hm
    · exact hpart hm rfl (List.sublist_append_left _ _)
    · exact hpart hm rfl (List.sublist_append_right _ _)
  | «class» node =>
    rcases List.mem_append.1 hm with hm | hm
    · rcases List.mem_append.1 hm with hm | hm
      · exact hpart hm rfl ((List.sublist_append_left _ _).trans (List.sublist_append_left _ _))
      · exact hpart hm rfl ((List.sublist_append_right _ _).trans (List.sublist_append_left _ _))
    · exact hpart hm rfl (List.sublist_append_right _ _)
  | _ => exact absurd hm List.not_mem_nil

/-- A document of which the members have been declared has all members of its nodes. -/
lemma SourceUnit.Enrolled.live_member {set : LibrarySet} {unit : SourceUnit}
    (enrolled : unit.Enrolled set) (legible : set.Legible) {id : DeclId} {node : DeclNode}
    (hpair : (id, node) ∈ unit.declarations.zip unit.nodes)
    (hcategory : id.category = node.category) {m : MemberNode} (hm : m ∈ node.memberNodes) :
    set.Live (.declaration (LinkMembers.memberId id m)) := by
  obtain ⟨entry, hslot, hroll⟩ := enrolled id node hpair
  obtain ⟨hid, -⟩ := legible.finds_slot hslot
  obtain ⟨howner, hlt⟩ := DeclNode.position_lt hm
  have hroll : (entry.body.members? m.category).map (List.map Member.header)
      = some ((node.memberNodes.filter fun other => other.category = m.category).map fun other =>
        (LinkMembers.member unit.path entry.id entry other).header) := by
    rw [← Entry.roll, hroll, DeclNode.roll, if_pos]
    rw [howner, hid, hcategory]
  obtain ⟨list, hlist, hheaders⟩ := Option.map_eq_some_iff.1 hroll
  have hlength : m.position < list.length := by
    rw [← List.length_map (f := Member.header), hheaders, List.length_map]
    exact hlt
  obtain ⟨-, hmember, hfind⟩ := legible.find?_member hslot hlist (List.getElem?_eq_getElem hlength)
  rw [LinkMembers.memberId, ← hmember]
  exact ⟨_, hfind, rfl⟩

namespace Linkage

variable {state : Linkage} {others : List SourceUnit} {library : LibraryId}

/-- Declaring members gives a record no types that mean anything. -/
lemma allTypes_declareMembers (hid : state.libraries.Identified) {P : Ty → Prop}
    (hP : ∀ ty : Ty, ty.declaration? = none → P ty) (h : state.libraries.AllTypes P library) :
    state.declareMembers.libraries.AllTypes P library := by
  refine (List.foldlRecOn (motive := fun mid : Linkage => mid.libraries.AllTypes P library ∧
    mid.libraries.Identified) _ LinkMembers.declareFor ⟨h, hid⟩ ?_).1
  rintro mid ⟨hmid, hid⟩ ⟨id, node⟩ -
  unfold LinkMembers.declareFor
  dsimp only
  split
  · exact ⟨hmid, hid⟩
  · next owner howner =>
    refine ⟨hmid.edit hid (fun entry hentry => ?_) fun m hm => hm, hid.edit _ _⟩
    refine Body.forall_types_addMembers (fun member hmember ty hty => ?_) hentry
    obtain ⟨m, -, rfl⟩ := List.mem_map.1 hmember
    exact hP ty (Leaf.types_fresh hty)

lemma grounded_declareMembers (arranged : state.libraries.Arranged (state.unit :: others))
    (undeclared : state.unit.Undeclared)
    (grounded : state.libraries.Grounded (state.unit :: others) library) :
    state.declareMembers.libraries.Grounded (state.declareMembers.unit :: others) library := by
  have retains := retains_declareMembers arranged undeclared
  have hskeleton := (sameSkeleton_declareMembers state).2
  have harranged := arranged_declareMembers arranged undeclared
  refine ⟨?_, fun unit hunit hlibrary occurrence hoccurrence => ?_,
    grounded.listed.of_sameKin (sameKin_declareMembers arranged.orderly.identified)⟩
  · refine (allTypes_declareMembers arranged.orderly.identified ?_ grounded.types).imp
      fun ty hty => hty.mono retains
    intro ty hty id hid
    rw [hty] at hid
    cases hid
  rcases List.mem_cons.1 hunit with rfl | hunit
  · rcases state.occurrences_declareMembers occurrence hoccurrence with
      hold | ⟨id, node, m, hpair, hm, htarget⟩
    · have hsame : state.declareMembers.unit.library = state.unit.library :=
        congrArg (·.library) hskeleton
      exact retains.live (grounded.occurrences state.unit List.mem_cons_self
        (hsame.symm.trans hlibrary) occurrence hold)
    · obtain ⟨hcategory, -⟩ := arranged.settled.paired List.mem_cons_self hpair
      rw [htarget]
      refine (enrolled_declareMembers arranged undeclared).live_member harranged.legible ?_
        hcategory hm
      rwa [SourceUnit.declarations_of_skeleton_eq hskeleton, SourceUnit.nodes,
        SourceUnit.tree_of_skeleton_eq hskeleton]
  · exact retains.live (grounded.occurrences unit (List.mem_cons_of_mem _ hunit) hlibrary
      occurrence hoccurrence)

end Linkage

/-- Linking documents leaves libraries on firm ground, and loses nothing. -/
lemma Linkages.grounded_link {set : LibrarySet} {batch others : List SourceUnit}
    (arranged : set.Arranged (batch ++ others)) (hbatch : ∀ unit ∈ batch, unit.Undeclared)
    {new : LibraryId → Prop}
    (grounded : ∀ library, new library → set.Grounded (batch ++ others) library)
    (options : LinkOptions) :
    set.Retains (Linkages.link ⟨set, batch⟩ options).libraries ∧
      ∀ library, new library → (Linkages.link ⟨set, batch⟩ options).libraries.Grounded
        ((Linkages.link ⟨set, batch⟩ options).units ++ others) library := by
  -- Every pass retains what others rest on, so all new libraries stay grounded together.
  refine (Linkages.link_each options (fun current units => current.Arranged units ∧
      set.Retains current ∧ ∀ library, new library → current.Grounded units library)
    SourceUnit.Undeclared (fun _ => True) ?_ ?_ ?_ ?_ ?_
    ⟨arranged, .refl arranged.orderly, grounded⟩ hbatch).2
  · intro set units units' h hperm
    exact ⟨h.1.perm hperm, h.2.1, fun library hnew => (h.2.2 library hnew).perm hperm⟩
  · rintro state others ⟨arranged, retains, grounded⟩ undeclared
    exact ⟨⟨Linkage.arranged_linkImports arranged,
      retains.trans (Linkage.retains_linkImports arranged),
      fun library hnew => Linkage.grounded_linkImports arranged (grounded library hnew)⟩,
      Linkage.undeclared_linkImports undeclared⟩
  · rintro state others ⟨arranged, retains, grounded⟩ undeclared
    exact ⟨⟨Linkage.arranged_declareMembers arranged undeclared,
      retains.trans (Linkage.retains_declareMembers arranged undeclared),
      fun library hnew => Linkage.grounded_declareMembers arranged undeclared
        (grounded library hnew)⟩, trivial⟩
  · rintro state others ⟨arranged, retains, grounded⟩ -
    have among := state.among_everywhere.foundBases arranged options
    have htypes := Linkage.rests_foundBases arranged.legible options
    exact ⟨⟨Linkage.arranged_apply arranged among,
      retains.trans (Linkage.retains_apply arranged.orderly among),
      fun library hnew => Linkage.grounded_apply arranged among htypes
        (Linkage.paired_foundBases state options) (grounded library hnew)⟩, trivial⟩
  · rintro state others ⟨arranged, retains, grounded⟩ -
    have among := state.among_everywhere.foundSignatures arranged options
    have htypes := Linkage.rests_foundSignatures arranged.legible options
    exact ⟨⟨Linkage.arranged_apply arranged among,
      retains.trans (Linkage.retains_apply arranged.orderly among),
      fun library hnew => Linkage.grounded_apply arranged among htypes
        (Linkage.paired_foundSignatures state options) (grounded library hnew)⟩, trivial⟩

/-! ## Loads -/

lemma Entry.fresh_of_skeleton_eq {entry : Entry} (h : entry.skeleton = entry) :
    entry.body = .fresh entry.id.category := by
  rw [← h]
  rfl

namespace LibrarySet

variable {set set' : LibrarySet} {units : List SourceUnit} {library : LibraryId}

/-- A library without documents and records rests on nothing. -/
lemma grounded_of_empty
    (hslot : ∀ category index, set.slot? library category index = none)
    (hunits : ∀ unit ∈ units, unit.library ≠ library) : set.Grounded units library := by
  refine ⟨fun category index entry h => ?_, fun unit hunit heq =>
    absurd heq (hunits unit hunit), ?_⟩
  · rw [hslot] at h
    cases h
  · rintro id kin rfl - hkin
    rw [kin?, hslot] at hkin
    cases hkin

lemma Settled.grounded_of_unloaded (settled : set.Settled units)
    (hlibrary : set.get? library = none) : set.Grounded units library := by
  refine grounded_of_empty (fun category index => ?_) fun unit hunit heq => ?_
  · rw [slot?, hlibrary, Option.bind_none]
  · obtain ⟨lib, hlib⟩ := settled.loaded hunit
    rw [heq, hlibrary] at hlib
    cases hlib

/-- A library stays on firm ground when blank records are added to the model. -/
lemma Grounded.widen (grounded : set.Grounded units library) (retains : set.Retains set')
    (hkeep : ∀ {id category index entry}, set.slot? id category index = some entry →
      set'.slot? id category index = some entry)
    (honly : ∀ {category index entry}, set'.slot? library category index = some entry →
      set.slot? library category index = some entry ∨
        set.slot? library category index = none ∧ entry.skeleton = entry) :
    set'.Grounded units library := by
  refine ⟨fun category index entry hslot ty hty => ?_, fun unit hunit hlibrary occurrence h =>
    retains.live (grounded.occurrences unit hunit hlibrary occurrence h), ?_⟩
  · rcases honly hslot with hold | ⟨-, hnew⟩
    · exact (grounded.types category index entry hold ty hty).mono retains
    · rw [Entry.fresh_of_skeleton_eq hnew] at hty
      intro id hid
      rw [Body.types_fresh hty] at hid
      cases hid
  · rintro id kin rfl hdefine hkin base hbase
    obtain ⟨entry, hslot, rfl⟩ := Option.map_eq_some_iff.1 hkin
    rcases honly hslot with hold | ⟨-, hnew⟩
    · have hkin : set.kin? id = some entry.body.kin := by rw [kin?, hold, Option.map_some]
      obtain ⟨list, hlist, hmem⟩ := grounded.listed id _ rfl hdefine hkin base hbase
      obtain ⟨kin, hkin, hheirs⟩ := Option.bind_eq_some_iff.1 hlist
      obtain ⟨owner, howner, rfl⟩ := Option.map_eq_some_iff.1 hkin
      refine ⟨list, ?_, hmem⟩
      rw [heirs?, kin?, hkeep howner, Option.map_some, Option.bind_some, hheirs]
    · rw [Body.bases_kin, Entry.fresh_of_skeleton_eq hnew, Body.bases_fresh] at hbase
      cases hbase

lemma Grounded.check (grounded : set.Grounded units library) (orderly : set.Orderly)
    (other : LibraryId) : (set.check other).1.Grounded units library := by
  have retains := (sameTags_check orderly other).retains orderly
  have hcores := @sameCores_check set (fun _ => False) orderly.identified other
  refine ⟨?_, fun unit hunit hlibrary occurrence h =>
    retains.live (grounded.occurrences unit hunit hlibrary occurrence h),
    grounded.listed.of_sameKin (sameKin_check orderly.identified other)⟩
  exact (grounded.types.of_core fun category index =>
    hcores.cores library category index fun h => h).imp fun ty hty => hty.mono retains

/-- Of documents, only their libraries and their occurrences matter. -/
lemma Grounded.congr {units' : List SourceUnit} (grounded : set.Grounded units library)
    (h : units'.map (fun unit => (unit.skeleton, unit.occurrences))
      = units.map fun unit => (unit.skeleton, unit.occurrences)) :
    set.Grounded units' library := by
  refine ⟨grounded.types, fun unit hunit hlibrary occurrence hoccurrence => ?_, grounded.listed⟩
  have hmem : (unit.skeleton, unit.occurrences)
      ∈ units.map fun unit => (unit.skeleton, unit.occurrences) := h ▸ List.mem_map_of_mem hunit
  obtain ⟨old, hold, heq⟩ := List.mem_map.1 hmem
  obtain ⟨hskeleton, hoccurrences⟩ := Prod.mk.inj heq
  have hsame : old.library = unit.library := congrArg (·.library) hskeleton
  exact grounded.occurrences old hold (hsame.trans hlibrary) occurrence (hoccurrences ▸ hoccurrence)

end LibrarySet

/-- What is loaded stays loaded, since its root goes on to exist. -/
lemma LibrarySet.Retains.loaded {set set' : LibrarySet} (retains : set.Retains set')
    (legible : set.Legible) {library : LibraryId} {lib : Library}
    (hlib : set.get? library = some lib) : ∃ lib', set'.get? library = some lib' := by
  have hroot : set.root? library = some ⟨library, Arena.root⟩ := by
    rw [root?, hlib, Option.map_some]
  have hlive : set.Finds (fun _ => True) (.space ⟨library, Arena.root⟩) :=
    legible.finds_root hroot trivial
  obtain ⟨space, hspace⟩ := retains.live hlive.1
  obtain ⟨lib', hlib', -⟩ := Option.bind_eq_some_iff.1 hspace
  exact ⟨lib', hlib'⟩

/-- What loads lead to, from a model with the documents `known`: nothing that exists is lost,
libraries on firm ground stay there, and the libraries that are `old` get no documents. -/
structure LibrarySet.Admits (origin : LibrarySet) (known : List SourceUnit) (old : LibraryId → Prop)
    (set : LibrarySet) (units : List SourceUnit) : Prop where
  retains : origin.Retains set
  grounded : ∀ library, origin.Grounded known library → set.Grounded units library
  documents : ∀ unit ∈ units, unit.library ≠ .project → old unit.library → unit ∈ known

lemma LibrarySet.Admits.refl {set : LibrarySet} (orderly : set.Orderly) (units : List SourceUnit)
    (old : LibraryId → Prop) : set.Admits units old set units :=
  ⟨.refl orderly, fun _ h => h, fun _ h _ _ => h⟩

/-- Tidying a document of a library that is not `old` admits what was admitted before. -/
lemma LibrarySet.Admits.tidy {origin set : LibrarySet} {known units : List SourceUnit}
    {old : LibraryId → Prop} {library : LibraryId} {lib : Library} {bench : Workbench}
    (admits : origin.Admits known old set units) (arranged : set.Arranged units)
    (hnew : ¬ old library) (hloaded : set.get? library = some lib)
    (hgrows : set.Grows library bench.libraries) (hlibrary : bench.unit.library = library)
    (hnext : bench.libraries.Arranged (bench.unit :: units))
    (hfresh : bench.unit.skeleton = bench.unit) :
    origin.Admits known old bench.libraries (bench.unit :: units) := by
  have retains := (hgrows.extends hloaded arranged.orderly hnext.settled).retains arranged.orderly
  refine ⟨admits.retains.trans retains, fun other hfirm => ?_, fun unit hunit habroad hold => ?_⟩
  · have grounded := (admits.grounded other hfirm).widen retains (hgrows.slot_keep hloaded)
      (hgrows.slot_only hloaded)
    refine ⟨grounded.types, fun unit hunit heq occurrence hoccurrence => ?_, grounded.listed⟩
    rcases List.mem_cons.1 hunit with rfl | hunit
    · -- All that a tidied document has occurrences of is what it declares.
      refine hnext.live_tidied List.mem_cons_self occurrence ?_
      rwa [hfresh]
    · exact grounded.occurrences unit hunit heq occurrence hoccurrence
  · rcases List.mem_cons.1 hunit with rfl | hunit
    · exact absurd (hlibrary ▸ hold) hnew
    · exact admits.documents unit hunit habroad hold

/-- Linking and checking a library that is not `old` admits what was admitted before. -/
lemma LibrarySet.Admits.finish {origin set : LibrarySet}
    {known batch units : List SourceUnit} {old : LibraryId → Prop} {library : LibraryId}
    (admits : origin.Admits known old set (batch ++ units))
    (arranged : set.Arranged (batch ++ units)) (hnew : ¬ old library)
    (hbatch : ∀ unit ∈ batch, unit.library = library ∧ unit.skeleton = unit)
    (options : LinkOptions) :
    origin.Admits known old (Linkages.finish ⟨set, batch⟩ options library).libraries
      ((Linkages.finish ⟨set, batch⟩ options library).units ++ units) := by
  have hundeclared : ∀ unit ∈ batch, unit.Undeclared :=
    fun unit hunit => undeclared_of_skeleton_eq (hbatch unit hunit).2
  obtain ⟨retains, grounded⟩ :=
    Linkages.grounded_link arranged hundeclared admits.grounded options
  have arranged' := Linkages.arranged_link arranged hundeclared options
  have hcheck := (sameTags_check arranged'.orderly library).retains arranged'.orderly
  refine ⟨admits.retains.trans (retains.trans hcheck), fun other hfirm => ?_,
    fun unit hunit habroad hmine => ?_⟩
  · -- Reports are handed out to the documents, and no occurrence is.
    refine ((grounded other hfirm).check arranged'.orderly library).congr ?_
    rw [List.map_append, List.map_append]
    exact congrArg (· ++ _) (occurrences_handOut _ _)
  · rcases List.mem_append.1 hunit with hunit | hunit
    · obtain ⟨-, hskeletons⟩ := Linkages.skeleton_finish ⟨set, batch⟩ options library
      obtain ⟨first, hfirst, heq⟩ := SourceUnit.exists_of_skeleton_eq hskeletons hunit
      have hlibrary : unit.library = first.library := congrArg (·.library) heq
      rw [hlibrary, (hbatch first hfirst).1] at hmine
      exact absurd hmine hnew
    · exact admits.documents unit (List.mem_append_right _ hunit) habroad hmine

theorem loadInvariant_admits {origin : LibrarySet} {known : List SourceUnit}
    {old : LibraryId → Prop} (legible : origin.Legible) (hproject : old .project)
    (hold : ∀ library, old library → ∃ lib, origin.get? library = some lib) :
    LoadInvariant (fun set pool units => (set.Arranged units ∧ pool.Matches set.project []) ∧
      origin.Admits known old set units) old where
  old_project := hproject
  old_loaded := by
    intro set pool units library h hlibrary
    obtain ⟨lib, hlib⟩ := hold library hlibrary
    exact h.2.retains.loaded legible hlib
  settled h := loadInvariant_arranged.settled h.1
  pool h := loadInvariant_arranged.pool h.1
  perm h hperm := ⟨loadInvariant_arranged.perm h.1 hperm, h.2.retains,
    fun library hfirm => (h.2.grounded library hfirm).perm hperm,
    fun unit hunit => h.2.documents unit (hperm.mem_iff.2 hunit)⟩
  addImport := by
    intro set pool units name h
    have retains := (extends_addImport h.1.1.orderly name).retains h.1.1.orderly
    refine ⟨loadInvariant_arranged.addImport name h.1, h.2.retains.trans retains,
      fun library hfirm => (h.2.grounded library hfirm).widen retains ?_ ?_, h.2.documents⟩
    · intro id category index entry hslot
      rwa [slot?_addImport]
    · intro category index entry hslot
      rw [slot?_addImport] at hslot
      exact Or.inl hslot
  tidy := by
    intro set pool units library lib tree bench h hnew hloaded htidy
    have hne : library ≠ .project := fun heq => hnew (heq ▸ hproject)
    have hnext := loadInvariant_arranged.tidy h.1 hne hloaded htidy
    obtain ⟨bench', htidy', -, -, hgrows, -, hlibrary, hfresh⟩ :=
      h.1.1.settled.tidy hloaded h.1.2 tree
    obtain rfl : bench = bench' := by simpa [htidy] using htidy'
    exact ⟨hnext, h.2.tidy h.1.1 hnew hloaded hgrows hlibrary hnext.1 hfresh⟩
  finish := by
    intro set pool units batch library options h hnew hbatch
    have hne : library ≠ .project := fun heq => hnew (heq ▸ hproject)
    exact ⟨loadInvariant_arranged.finish options h.1 hne hbatch,
      h.2.finish h.1.1 hnew hbatch options⟩

end SymbolGraph
