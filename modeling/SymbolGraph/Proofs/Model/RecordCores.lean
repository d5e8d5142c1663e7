import SymbolGraph.Proofs.Linking.PassFindings

/-!
# What a declaration is without its traces

References, heirs and relations are traces that other declarations leave in a record.  The *core*
of an entry is the rest: its name and place, its bases, its members and the types of them.  A link
pass over one document changes only the cores of the document's own declarations, and checking a
library changes none; `SameCores own set set'` says so, with `own` the declarations that are not
spoken for.
-/

namespace SymbolGraph

/-! ## Cores -/

def Leaf.core : Leaf → Leaf := overCallable fun c => { c with relations := {} }

def Member.core (member : Member) : Member := { member.map Leaf.core with references := [] }

def Body.core : Body → Body
  | .leaf part => .leaf part.core
  | .enum elements => .enum (elements.map Member.core)
  | .struct fields functions => .struct (fields.map Member.core) (functions.map Member.core)
  | .interface info =>
    .interface { info with functions := info.functions.map Member.core, implementors := [] }
  | .class info =>
    .class { info with
      fields := info.fields.map Member.core
      constructors := info.constructors.map Member.core
      functions := info.functions.map Member.core
      implementors := [] }
  | body => body

/-- A declaration without the traces of others in it. -/
def Entry.core (entry : Entry) : Entry := { entry.map Body.core with references := [] }

lemma Body.members?_core (body : Body) (category : Category) :
    body.core.members? category = (body.members? category).map (List.map Member.core) := by
  cases body <;> cases category <;> rfl

lemma Body.parent?_core (body : Body) : body.core.parent? = body.parent? := by
  cases body <;> rfl

lemma Body.superInterfaces_core (body : Body) :
    body.core.superInterfaces = body.superInterfaces := by
  cases body <;> rfl

lemma Entry.core_core (entry : Entry) : entry.core.core = entry.core := by
  have hleaf (leaf : Leaf) : leaf.core.core = leaf.core := by cases leaf <;> rfl
  have hmember (m : Member) : m.core.core = m.core := by
    simp only [Member.core, Symbol.map, hleaf]
  have hbody (body : Body) : body.core.core = body.core := by
    cases body <;> simp [Body.core, hleaf, hmember, Function.comp_def]
  simp only [Entry.core, Symbol.map, hbody]

lemma Body.parent?_overMembers (body : Body) (category : Category)
    (f : List Member → List Member) : (body.overMembers category f).parent? = body.parent? := by
  cases body <;> cases category <;> rfl

lemma Leaf.core_relations (f : Relations → Relations) (leaf : Leaf) :
    (leaf.overCallable fun c => { c with relations := f c.relations }).core = leaf.core := by
  cases leaf <;> rfl

lemma Body.core_overMembers (body : Body) (category : Category)
    {f : List Member → List Member}
    (h : ∀ list : List Member, (f list).map Member.core = list.map Member.core) :
    (body.overMembers category f).core = body.core := by
  cases body <;> cases category <;> simp [overMembers, core, h]

lemma Edit.core_atSeat {edit : Edit} {id : DeclId} {entry : Entry}
    (hentry : id.owner? = none → (edit.onEntry entry).core = entry.core)
    (hmember : ∀ m, (edit.onMember m).core = m.core) :
      (edit.atSeat id entry).core = entry.core := by
  unfold atSeat
  split
  · next hnone => exact hentry hnone
  · have hbody : (entry.body.overMembers id.category fun list =>
        list.modify id.index edit.onMember).core = entry.body.core :=
      entry.body.core_overMembers _ fun list => map_modify_of_eq hmember list _
    simp only [Entry.core, Symbol.map, hbody]

lemma Edit.core_relations (f : Relations → Relations) (id : DeclId) (entry : Entry) :
    ((Edit.callable fun c => { c with relations := f c.relations }).atSeat id entry).core
      = entry.core := by
  refine core_atSeat (fun _ => ?_) fun m => ?_
  · simp only [Edit.callable, Entry.core, Symbol.map]
    cases entry.body <;> simp [Body.core, Leaf.core_relations]
  · simp only [Edit.callable, Member.core, Symbol.map, Leaf.core_relations]

lemma Edit.core_body {f : Body → Body} (h : ∀ body, (f body).core = body.core) (id : DeclId)
    (entry : Entry) : ((Edit.body f).atSeat id entry).core = entry.core := by
  refine core_atSeat (fun _ => ?_) fun _ => rfl
  simp only [Edit.body, Entry.core, Symbol.map, h]

lemma DeclId.holder_eq {id : DeclId} (h : id.holder.define = none) :
    id.holder = ⟨id.library, id.seat.1, id.seat.2, none⟩ := by
  obtain ⟨library, category, index, define⟩ := id
  revert h
  cases category <;> cases define <;> simp [holder, seat, owner?, Category.owner?]

/-! ## Steps that keep cores -/

namespace LibrarySet

variable {set set' set'' : LibrarySet} {own : DeclId → Prop}

/-- The core of the entry in a slot. -/
def core? (set : LibrarySet) (library : LibraryId) (category : Category) (index : Nat) :
    Option Entry :=
  (set.slot? library category index).map Entry.core

/-- Two states of the model with the same cores, but for those of the declarations `own`. -/
structure SameCores (own : DeclId → Prop) (set set' : LibrarySet) : Prop where
  identified : set'.Identified
  cores : ∀ library category index, ¬ own ⟨library, category, index, none⟩ →
    set'.core? library category index = set.core? library category index

lemma SameCores.refl (hid : set.Identified) : SameCores own set set := ⟨hid, fun _ _ _ _ => rfl⟩

lemma SameCores.trans (h : SameCores own set set') (k : SameCores own set' set'') :
    SameCores own set set'' :=
  ⟨k.identified, fun l c i hi => (k.cores l c i hi).trans (h.cores l c i hi)⟩

lemma SameCores.mono {own' : DeclId → Prop} (h : SameCores own set set')
    (hown : ∀ id, own id → own' id) : SameCores own' set set' :=
  ⟨h.identified, fun l c i hi => h.cores l c i fun hown' => hi (hown _ hown')⟩

lemma SameCores.foldl {α : Type} {step : LibrarySet → α → LibrarySet} (xs : List α)
    (h : ∀ set, set.Identified → ∀ x ∈ xs, SameCores own set (step set x))
    (hid : set.Identified) : SameCores own set (xs.foldl step set) := by
  induction xs generalizing set with
  | nil => exact .refl hid
  | cons x xs ih =>
    have hfirst := h set hid x (List.mem_cons_self ..)
    exact hfirst.trans (ih (fun set hset y hy => h set hset y (List.mem_cons_of_mem _ hy))
      hfirst.identified)

/-- An edit that leaves the core of the entry at its seat alone. -/
lemma sameCores_edit (hid : set.Identified) {id : DeclId} {edit : Edit}
    (h : ∀ entry, set.slot? id.library id.seat.1 id.seat.2 = some entry →
      (edit.atSeat id entry).core = entry.core) : SameCores own set (set.edit id edit) := by
  refine ⟨hid.edit id edit, ?_⟩
  intro library category index _
  rw [core?, core?, slot?_edit hid]
  split
  · next heq =>
    obtain ⟨rfl, hseat⟩ := heq
    cases hslot : set.slot? id.library category index with
    | none => rfl
    | some entry =>
      rw [Option.map_some, Option.map_some, Option.map_some, h entry (by rw [hseat, hslot])]
  · rfl

/-- Any edit changes the core of one entry only. -/
lemma sameCores_edit_own (hid : set.Identified) {id : DeclId} (edit : Edit)
    (hown : own ⟨id.library, id.seat.1, id.seat.2, none⟩) :
      SameCores own set (set.edit id edit) := by
  refine ⟨hid.edit id edit, ?_⟩
  intro library category index hne
  rw [core?, core?, slot?_edit hid, if_neg]
  rintro ⟨rfl, hseat⟩
  rw [hseat] at hown
  exact hne hown

lemma sameCores_overReferences (hid : set.Identified) (f : List Location → List Location)
    (target : Target) : SameCores own set (set.overReferences f target) := by
  cases target with
  | declaration id =>
    exact sameCores_edit hid fun entry _ => Edit.core_atSeat (fun _ => rfl) fun _ => rfl
  | space ref =>
    refine ⟨hid.adjustSpace ref _, fun library category index _ => ?_⟩
    rw [core?, overReferences, slot?_adjustSpace, core?]

lemma sameCores_overImplementors (hid : set.Identified) (base : DeclId)
    (f : List DeclId → List DeclId) : SameCores own set (set.overImplementors base f) := by
  refine sameCores_edit hid fun entry _ => Edit.core_body (fun body => ?_) base entry
  cases body <;> rfl

lemma sameCores_dropLink (hid : set.Identified) (link : BackLink) :
    SameCores own set (Linkage.dropLink set link) := by
  cases link with
  | reference target location => exact sameCores_overReferences hid _ target
  | implementor base heir => exact sameCores_overImplementors hid base _

lemma sameCores_stripRelations (hid : set.Identified) (id : DeclId) :
    SameCores own set (set.stripRelations id) :=
  SameCores.foldl _ (fun _ hid pair _ => sameCores_edit hid fun entry _ =>
    Edit.core_relations (·.without pair.2) pair.1 entry) hid

lemma sameCores_relate (library : LibraryId) (hid : set.Identified) (function : DeclId)
    (f : Relations → Relations) : SameCores own set (relate library set function f) := by
  unfold relate
  split
  · exact sameCores_edit hid fun entry _ => Edit.core_relations f function entry
  · exact .refl hid

lemma sameCores_clearRelations (hid : set.Identified) (library : LibraryId) :
    SameCores own set (set.clearRelations library) := by
  have hclear (list : List Member) :
      (list.map fun m => m.map (Leaf.overCallable fun c => { c with relations := {} })).map
        Member.core = list.map Member.core := by
    rw [List.map_map]
    refine List.map_congr_left fun m _ => ?_
    simp only [Function.comp_apply, Member.core, Symbol.map, Leaf.core_relations fun _ => {}]
  unfold clearRelations
  split
  · exact .refl hid
  · refine SameCores.foldl _ (fun set hid owner _ => ?_) hid
    refine sameCores_edit hid fun entry _ => Edit.core_body (fun body => ?_) _ entry
    rw [Body.clearRelations, Body.core_overMembers _ _ hclear, Body.core_overMembers _ _ hclear,
      Body.core_overMembers _ _ hclear]

lemma sameCores_addOverride (library : LibraryId) (hid : set.Identified)
    (pair : DeclId × DeclId) : SameCores own set (addOverride library set pair) := by
  obtain ⟨function, base⟩ := pair
  unfold addOverride
  have hfirst : SameCores own set (relate library set function
      fun r => { r with overrides := addNew r.overrides base }) := sameCores_relate library hid _ _
  exact hfirst.trans (sameCores_relate library hfirst.identified base _)

lemma sameCores_addImplementation (library : LibraryId) (hid : set.Identified)
    (pair : DeclId × DeclId) : SameCores own set (addImplementation library set pair) := by
  obtain ⟨function, base⟩ := pair
  unfold addImplementation
  have hfirst : SameCores own set (relate library set function
      fun r => { r with implements := addNew r.implements base }) :=
        sameCores_relate library hid _ _
  exact hfirst.trans (sameCores_relate library hfirst.identified base _)

lemma sameCores_record (library : LibraryId) (hid : set.Identified) (verdict : Verdict) :
    SameCores own set (record library set verdict) := by
  have hoverrides := SameCores.foldl verdict.overrides
    (fun _ hid pair _ => @sameCores_addOverride _ own library hid pair) hid
  exact hoverrides.trans (SameCores.foldl _ (fun _ hid pair _ =>
    sameCores_addImplementation library hid pair) hoverrides.identified)

/-- Checking a library changes no core. -/
lemma sameCores_check (hid : set.Identified) (library : LibraryId) :
    SameCores own set (set.check library).1 := by
  have hclear := @sameCores_clearRelations set own hid library
  simp only [check]
  split
  · exact hclear
  · exact hclear.trans (sameCores_record library hclear.identified _)

lemma sameCores_update (hid : set.Identified) (update : Update)
    (hdefine : update.target.holder.define = none) (hown : own update.target.holder) :
    SameCores own set (update.apply set) := by
  rw [DeclId.holder_eq hdefine] at hown
  cases update <;> exact sameCores_edit_own hid _ hown

/-! ## Parents -/

/-- The parent of a declaration is read off its slot. -/
lemma mem_parents (hid : set.Identified) {id parent : DeclId} : parent ∈ set.parents id ↔
    id.owner? = none ∧ ∃ entry, set.slot? id.library id.category id.index = some entry ∧
      entry.body.parent? = some parent := by
  rw [LibrarySet.parents, find?_eq hid, DeclId.seat, Option.mem_toList]
  cases howner : id.owner? with
  | none =>
    cases set.slot? id.library id.category id.index <;> simp [DeclId.part?, howner]
  | some owner =>
    have hleaf (member : Member) : member.toEntry.body.parent? = none := rfl
    cases set.slot? id.library owner.category owner.index with
    | none => simp
    | some entry =>
      simp only [Option.bind_some, DeclId.part?, howner, reduceCtorEq, false_and, iff_false]
      cases entry.body.members? id.category with
      | none => simp
      | some members =>
        rw [Option.bind_some]
        cases members[id.index]? with
        | none => simp
        | some member => simp [hleaf]

lemma SameCores.parents (h : SameCores own set set') (hid : set.Identified) {id parent : DeclId}
    (hown : ¬ own ⟨id.library, id.category, id.index, none⟩) (hparent : parent ∈ set'.parents id) :
    parent ∈ set.parents id := by
  obtain ⟨htop, entry', hslot', hentry'⟩ := (mem_parents h.identified).1 hparent
  have hcore := h.cores _ _ _ hown
  rw [core?, core?, hslot', Option.map_some] at hcore
  obtain ⟨entry, hslot, heq⟩ := Option.map_eq_some_iff.1 hcore.symm
  refine (mem_parents hid).2 ⟨htop, entry, hslot, ?_⟩
  have hbody : entry.body.core = entry'.body.core := congrArg Symbol.body heq
  rw [← Body.parent?_core, hbody, Body.parent?_core, hentry']

/-- An edit changes no parent but that of the entry at its seat. -/
lemma parents_edit (hid : set.Identified) {target id parent : DeclId} {edit : Edit} {P : Prop}
    (hseat : ∀ entry, (edit.atSeat target entry).body.parent? = some parent →
      entry.body.parent? = some parent ∨ P)
    (hparent : parent ∈ (set.edit target edit).parents id) : parent ∈ set.parents id ∨ P := by
  obtain ⟨htop, entry, hslot, hentry⟩ := (mem_parents (hid.edit target edit)).1 hparent
  rw [slot?_edit hid] at hslot
  split at hslot
  · obtain ⟨old, hold, rfl⟩ := Option.map_eq_some_iff.1 hslot
    rcases hseat old hentry with h | h
    · exact Or.inl ((mem_parents hid).2 ⟨htop, old, hold, h⟩)
    · exact Or.inr h
  · exact Or.inl ((mem_parents hid).2 ⟨htop, entry, hslot, hentry⟩)

/-- An update gives a class no parent but its own. -/
lemma parents_update (hid : set.Identified) (update : Update) {id parent : DeclId}
    (hparent : parent ∈ (update.apply set).parents id) :
    parent ∈ set.parents id ∨ update.parent? = some parent := by
  have hleaf {body : Body} (h : body.class? = none) : body.parent? ≠ some parent := by
    simp [Body.parent?, h]
  -- Only an update of inheritance writes a parent.
  cases update with
  | «variable» target info =>
    refine parents_edit hid (fun entry h => ?_) hparent
    unfold Edit.atSeat at h
    split at h
    · exact absurd h (hleaf rfl)
    · exact Or.inl (by rwa [Symbol.body_map, Body.parent?_overMembers] at h)
  | callable target params returns =>
    refine parents_edit hid (fun entry h => Or.inl ?_) hparent
    unfold Edit.atSeat at h
    split at h
    · simp only [Edit.callable, Symbol.body_map] at h
      cases hbody : entry.body <;> rw [hbody] at h <;> exact h
    · rwa [Symbol.body_map, Body.parent?_overMembers] at h
  | task target returns =>
    refine parents_edit hid (fun entry h => ?_) hparent
    unfold Edit.atSeat at h
    split at h
    · exact absurd h (hleaf rfl)
    · exact Or.inl (by rwa [Symbol.body_map, Body.parent?_overMembers] at h)
  | inheritance target parent' inherits =>
    refine parents_edit hid (fun entry h => ?_) hparent
    unfold Edit.atSeat at h
    split at h
    · simp only [Edit.body, Symbol.body_map] at h
      cases hbody : entry.body <;> rw [hbody] at h
      case «class» info => exact Or.inr h
      all_goals exact absurd h (hleaf rfl)
    · exact Or.inl (by rwa [Symbol.body_map, Body.parent?_overMembers] at h)

lemma parents_updates (hid : set.Identified) (updates : List Update) {id parent : DeclId}
    (hparent : parent ∈ (updates.foldl Update.apply set).parents id) :
    parent ∈ set.parents id ∨ ∃ update ∈ updates, update.parent? = some parent := by
  induction updates generalizing set with
  | nil => exact Or.inl hparent
  | cons update rest ih =>
    have hid' : (update.apply set).Identified := by cases update <;> exact hid.edit _ _
    rcases ih hid' hparent with h | ⟨other, hother, h⟩
    · rcases parents_update hid update h with h | h
      · exact Or.inl h
      · exact Or.inr ⟨update, List.mem_cons_self .., h⟩
    · exact Or.inr ⟨other, List.mem_cons_of_mem _ hother, h⟩

end LibrarySet

/-! ## Passes -/

namespace Linkage

variable {state : Linkage} {own : DeclId → Prop}

open LibrarySet (SameCores)

/-- Once the updates are made, the rest of what is found leaves traces only. -/
lemma sameCores_traces (found : Findings)
    (hid : (found.updates.foldl Update.apply state.libraries).Identified) :
    SameCores own (found.updates.foldl Update.apply state.libraries)
      (state.apply found).libraries := by
  have hfold {α : Type} {step : Linkage → α → Linkage}
      (h : ∀ state x, state.libraries.Identified →
        SameCores own state.libraries (step state x).libraries)
      (xs : List α) (state : Linkage) (hid : state.libraries.Identified) :
      SameCores own state.libraries (xs.foldl step state).libraries := by
    induction xs generalizing state with
    | nil => exact .refl hid
    | cons x xs ih => exact (h state x hid).trans (ih _ (h state x hid).identified)
  have hreference (state : Linkage) (reference : Target × Location)
      (hid : state.libraries.Identified) :
      SameCores own state.libraries (state.addReference reference).libraries := by
    obtain ⟨target, location⟩ := reference
    simp only [addReference]
    split
    · exact .refl hid
    · split
      · exact .refl hid
      · exact LibrarySet.sameCores_overReferences hid _ target
  have hheir (state : Linkage) (heir : DeclId × DeclId) (hid : state.libraries.Identified) :
      SameCores own state.libraries (state.addHeir heir).libraries := by
    obtain ⟨base, heir⟩ := heir
    simp only [addHeir]
    split
    · exact .refl hid
    · exact LibrarySet.sameCores_overImplementors hid base _
  -- References and heirs are traces: neither belongs to the core of a record.
  have hreferences := hfold hreference found.references
    { state with libraries := found.updates.foldl Update.apply state.libraries } hid
  exact hreferences.trans (hfold hheir found.heirs _ hreferences.identified)

lemma sameCores_apply (hid : state.libraries.Identified) {found : Findings}
    (hown : ∀ update ∈ found.updates,
      own update.target.holder ∧ update.target.holder.define = none) :
    SameCores own state.libraries (state.apply found).libraries := by
  have hupdates := SameCores.foldl found.updates (fun _ hid update hupdate =>
    LibrarySet.sameCores_update hid update (hown update hupdate).2 (hown update hupdate).1) hid
  exact hupdates.trans (sameCores_traces found hupdates.identified)

lemma sameCores_declareFor (hid : state.libraries.Identified) (declared : DeclId × DeclNode)
    (hown : own ⟨declared.1.library, declared.1.seat.1, declared.1.seat.2, none⟩) :
    SameCores own state.libraries (LinkMembers.declareFor state declared).libraries := by
  obtain ⟨id, node⟩ := declared
  simp only [LinkMembers.declareFor]
  split
  · exact .refl hid
  · exact LibrarySet.sameCores_edit_own hid _ hown

theorem sameCores_declareMembers (hid : state.libraries.Identified)
    (hown : ∀ id ∈ state.unit.declarations, own ⟨id.library, id.seat.1, id.seat.2, none⟩) :
    SameCores own state.libraries state.declareMembers.libraries := by
  have hall : ∀ (pairs : List (DeclId × DeclNode)) (state : Linkage), state.libraries.Identified →
      (∀ pair ∈ pairs, own ⟨pair.1.library, pair.1.seat.1, pair.1.seat.2, none⟩) →
      SameCores own state.libraries (pairs.foldl LinkMembers.declareFor state).libraries := by
    intro pairs
    induction pairs with
    | nil => exact fun state hid _ => .refl hid
    | cons pair rest ih =>
      intro state hid hown
      have hfirst := sameCores_declareFor hid pair (hown pair (List.mem_cons_self ..))
      exact hfirst.trans (ih _ hfirst.identified
        fun other hother => hown other (List.mem_cons_of_mem _ hother))
  refine hall _ state hid fun pair hpair => hown pair.1 ?_
  obtain ⟨id, node⟩ := pair
  exact (List.of_mem_zip hpair).1

/-- Declaring members changes no parent. -/
lemma parents_declareMembers (hid : state.libraries.Identified) {id parent : DeclId}
    (hparent : parent ∈ state.declareMembers.libraries.parents id) :
    parent ∈ state.libraries.parents id := by
  -- Members are added to bodies whose parent stays, declaration by declaration.
  have hmembers (members : List Member) (body : Body) :
      (members.foldl (fun body m => LinkMembers.addMember m body) body).parent? = body.parent? := by
    induction members generalizing body with
    | nil => rfl
    | cons m rest ih => rw [List.foldl_cons, ih, LinkMembers.addMember, Body.parent?_overMembers]
  have hall : ∀ (pairs : List (DeclId × DeclNode)) (state : Linkage), state.libraries.Identified →
      parent ∈ (pairs.foldl LinkMembers.declareFor state).libraries.parents id →
      parent ∈ state.libraries.parents id := by
    intro pairs
    induction pairs with
    | nil => exact fun _ _ h => h
    | cons pair rest ih =>
      intro state hid h
      have hcores := @sameCores_declareFor state (fun _ => True) hid pair trivial
      have hrest := ih _ hcores.identified h
      obtain ⟨target, node⟩ := pair
      simp only [LinkMembers.declareFor] at hrest
      split at hrest
      · exact hrest
      · refine (LibrarySet.parents_edit hid (P := False)
          (fun entry hentry => ?_) hrest).resolve_right fun h => h
        unfold Edit.atSeat at hentry
        split at hentry
        · rw [Edit.body, Symbol.body_map, hmembers] at hentry
          exact Or.inl hentry
        · rw [Symbol.body_map, Body.parent?_overMembers] at hentry
          exact Or.inl hentry
  exact hall _ state hid hparent

theorem sameCores_unlink (hid : state.libraries.Identified)
    (hown : ∀ id ∈ state.unit.declarations, own ⟨id.library, id.seat.1, id.seat.2, none⟩) :
    SameCores own state.libraries state.unlink.libraries := by
  have hlinks := SameCores.foldl state.unit.links
    (fun _ hid link _ => @LibrarySet.sameCores_dropLink _ own hid link) hid
  exact hlinks.trans (SameCores.foldl state.unit.declarations
    (fun _ hid id h => LibrarySet.sameCores_edit_own hid .reset (hown id h)) hlinks.identified)

end Linkage

end SymbolGraph
