import SymbolGraph.Proofs.Linking.RecordIdentities
import SymbolGraph.Proofs.Model.RecordCores

/-!
# What a library contains

The *contents* of a library are all it holds but what referring documents leave in it: the
references to its records and namespaces, and the heirs of its classes and interfaces.  Compared
with cores, they keep the relations of member functions, and they are taken of a library as a whole,
with its tables, its groups and its namespace tree.

A link pass over documents of one library changes the contents of that library only, and so does
checking it: references and heirs are the only marks left elsewhere.  Loading therefore changes the
contents of no library that is there already (`loadInvariant_contents`).
-/

namespace SymbolGraph

/-! ## Views of a library -/

lemma Assoc.map_adjust {κ ν ν' : Type} [DecidableEq κ] (m : Assoc κ ν) (k : κ) (F : ν → ν')
    {u : ν → ν} {u' : ν' → ν'} (h : ∀ v, F (u v) = u' (F v)) :
    (m.adjust k u).map (fun entry => (entry.1, F entry.2))
      = Assoc.adjust (m.map fun entry => (entry.1, F entry.2)) k u' := by
  induction m with
  | nil => rfl
  | cons entry rest ih =>
    obtain ⟨key, value⟩ := entry
    by_cases hk : key = k
    · simp [Assoc.adjust, hk, h]
    · simp [Assoc.adjust, hk, ih]

lemma Assoc.adjust_congr {κ ν : Type} [DecidableEq κ] (m : Assoc κ ν) (k : κ) {u u' : ν → ν}
    (h : ∀ v, m.at? k = some v → u v = u' v) : m.adjust k u = m.adjust k u' := by
  induction m with
  | nil => rfl
  | cons entry rest ih =>
    obtain ⟨key, value⟩ := entry
    by_cases hk : key = k
    · simp [Assoc.adjust, hk, h value (by simp [hk])]
    · simp [Assoc.adjust, hk, ih fun v hv => h v (by simp [hk, hv])]

lemma Assoc.adjust_id {κ ν : Type} [DecidableEq κ] (m : Assoc κ ν) (k : κ) :
    (m.adjust k fun v => v) = m := by
  induction m with
  | nil => rfl
  | cons entry rest ih =>
    obtain ⟨key, value⟩ := entry
    by_cases hk : key = k <;> simp [Assoc.adjust, hk, ih]

lemma modify_congr {α : Type} {list : List α} {i : Nat} {f g : α → α}
    (h : ∀ x, list[i]? = some x → f x = g x) : list.modify i f = list.modify i g := by
  refine List.ext_getElem? fun j => ?_
  rw [List.getElem?_modify, List.getElem?_modify]
  by_cases hj : i = j
  · subst hj
    cases hx : list[i]? with
    | none => rfl
    | some x => simp [h x hx]
  · simp [hj]

lemma modify_eq_self {α : Type} {list : List α} {i : Nat} {f : α → α}
    (h : ∀ x, list[i]? = some x → f x = x) : list.modify i f = list :=
  (modify_congr h).trans (List.modify_id i list)

lemma Body.overMembers_eq_self {body : Body} {category : Category} {f : List Member → List Member}
    (h : ∀ list, body.members? category = some list → f list = list) :
    body.overMembers category f = body := by
  cases body <;> cases category <;> first | rfl | simp [overMembers, h _ rfl]

/-- An edit that does nothing to what the identity means. -/
lemma Edit.atSeat_eq_self {edit : Edit} {id : DeclId} {entry : Entry}
    (hentry : id.owner? = none → edit.onEntry entry = entry)
    (hmember : ∀ {list m}, id.owner?.isSome → entry.body.members? id.category = some list →
      list[id.index]? = some m → edit.onMember m = m) : edit.atSeat id entry = entry := by
  unfold atSeat
  cases howner : id.owner? with
  | none => exact hentry howner
  | some owner =>
    have hbody : (entry.body.overMembers id.category fun list =>
        list.modify id.index edit.onMember) = entry.body :=
      Body.overMembers_eq_self fun list hlist => modify_eq_self fun m hm =>
        hmember (by simp [howner]) hlist hm
    simp only [Symbol.map, hbody]

namespace Library

/-- A library in which each declaration is replaced by a view of it, and no namespace shows the
places that name it. -/
def view (f : Entry → Entry) (lib : Library) : Library :=
  { lib with
    spaces := lib.spaces.skeleton
    tables := lib.tables.map fun entry => (entry.1, entry.2.map (Option.map f)) }

@[simp] lemma id_view (f : Entry → Entry) (lib : Library) : (lib.view f).id = lib.id := rfl

lemma slot?_view (f : Entry → Entry) (lib : Library) (category : Category) (index : Nat) :
    (lib.view f).slot? category index = (lib.slot? category index).map f := by
  have htable : (lib.view f).table category = (lib.table category).map (Option.map f) := by
    simp only [table, view]
    induction lib.tables with
    | nil => rfl
    | cons entry rest ih =>
      obtain ⟨key, value⟩ := entry
      by_cases h : key = category
      · simp [h]
      · simpa [h] using ih
  rw [slot?, htable, List.getElem?_map, slot?]
  cases (lib.table category)[index]? <;> rfl

lemma view_adjustSlot (lib : Library) (category : Category) (index : Nat) {f g g' : Entry → Entry}
    (h : ∀ entry, f (g entry) = g' (f entry)) :
    (lib.adjustSlot category index g).view f = (lib.view f).adjustSlot category index g' := by
  have htable (table : List (Option Entry)) :
      (table.modify index (Option.map g)).map (Option.map f)
        = (table.map (Option.map f)).modify index (Option.map g') := by
    refine List.ext_getElem? fun i => ?_
    simp only [List.getElem?_map, List.getElem?_modify]
    cases table[i]? with
    | none => rfl
    | some slot =>
      cases slot with
      | none => by_cases hi : index = i <;> simp [hi]
      | some entry => by_cases hi : index = i <;> simp [hi, h]
  simp only [view, adjustSlot, Library.mk.injEq, true_and]
  exact Assoc.map_adjust lib.tables category (List.map (Option.map f)) htable

/-- Only what a change does to the declaration in its slot matters. -/
lemma adjustSlot_congr (lib : Library) (category : Category) (index : Nat) {f g : Entry → Entry}
    (h : ∀ entry, lib.slot? category index = some entry → f entry = g entry) :
    lib.adjustSlot category index f = lib.adjustSlot category index g := by
  have htables : lib.tables.adjust category (fun table => table.modify index (Option.map f))
      = lib.tables.adjust category (fun table => table.modify index (Option.map g)) := by
    refine Assoc.adjust_congr _ _ fun table htable => modify_congr fun slot hslot => ?_
    cases slot with
    | none => rfl
    | some entry =>
      have hentry : lib.slot? category index = some entry := by
        rw [slot?, Library.table, htable, Option.getD_some, hslot, Option.join_some]
      rw [Option.map_some, Option.map_some, h entry hentry]
  rw [adjustSlot, htables, adjustSlot]

/-- A change that does nothing to the declaration in its slot. -/
lemma adjustSlot_eq_self (lib : Library) (category : Category) (index : Nat) {g : Entry → Entry}
    (h : ∀ entry, lib.slot? category index = some entry → g entry = entry) :
    lib.adjustSlot category index g = lib := by
  have hid (table : List (Option Entry)) : table.modify index
      (Option.map fun entry => entry) = table :=
    modify_eq_self fun _ _ => Option.map_id'
  rw [lib.adjustSlot_congr category index h, adjustSlot]
  simp only [hid, Assoc.adjust_id]

/-- A change that a view lets through. -/
lemma view_edit (lib : Library) (id : DeclId) {f : Entry → Entry} {edit edit' : Edit}
    (h : ∀ entry, f (edit.atSeat id entry) = edit'.atSeat id (f entry)) :
    (lib.edit id edit).view f = (lib.view f).edit id edit' := by
  rw [edit_eq, edit_eq, id_view]
  split
  · exact lib.view_adjustSlot _ _ h
  · rfl

/-- A change that a view does not show. -/
lemma view_edit_eq_self (lib : Library) (id : DeclId) {f : Entry → Entry} {edit : Edit}
    (h : ∀ entry, f (edit.atSeat id entry) = f entry) :
    (lib.edit id edit).view f = lib.view f := by
  rw [edit_eq]
  split
  · have hview : (lib.adjustSlot id.seat.1 id.seat.2 (edit.atSeat id)).view f
        = (lib.view f).adjustSlot id.seat.1 id.seat.2 fun entry => entry :=
      lib.view_adjustSlot _ _ h
    rw [hview]
    exact adjustSlot_eq_self _ _ _ fun _ _ => rfl
  · rfl

end Library

/-! ## Contents -/

def Member.content (member : Member) : Member := { member with references := [] }

def Body.content : Body → Body
  | .enum elements => .enum (elements.map Member.content)
  | .struct fields functions => .struct (fields.map Member.content) (functions.map Member.content)
  | .interface info =>
    .interface { info with functions := info.functions.map Member.content, implementors := [] }
  | .class info =>
    .class { info with
      fields := info.fields.map Member.content
      constructors := info.constructors.map Member.content
      functions := info.functions.map Member.content
      implementors := [] }
  | body => body

/-- A declaration without references and heirs. -/
def Entry.content (entry : Entry) : Entry := { entry.map Body.content with references := [] }

/-- A library without references and heirs. -/
def Library.contents (lib : Library) : Library := lib.view Entry.content

/-- A library without references, heirs and relations. -/
def Library.cores (lib : Library) : Library := lib.view Entry.core

lemma Body.content_overMembers (body : Body) (category : Category)
    {f f' : List Member → List Member}
    (h : ∀ list : List Member, (f list).map Member.content = f' (list.map Member.content)) :
    (body.overMembers category f).content = body.content.overMembers category f' := by
  cases body <;> cases category <;> simp [overMembers, content, h]

lemma Body.overMembers_id (body : Body) (category : Category) :
    (body.overMembers category fun list => list) = body := by
  cases body <;> cases category <;> rfl

lemma map_modify {α β : Type} {f : α → α} {f' : β → β} {g : α → β} (h : ∀ x, g (f x) = f' (g x))
    (list : List α) (i : Nat) : (list.modify i f).map g = (list.map g).modify i f' := by
  refine List.ext_getElem? fun j => ?_
  simp only [List.getElem?_map, List.getElem?_modify]
  cases list[j]? with
  | none => rfl
  | some x => by_cases hj : i = j <;> simp [hj, h]

/-- An edit that only touches references and heirs. -/
lemma Edit.content_atSeat {edit : Edit}
    (hentry : ∀ entry, (edit.onEntry entry).content = entry.content)
    (hmember : ∀ m, (edit.onMember m).content = m.content) (id : DeclId) (entry : Entry) :
    (edit.atSeat id entry).content = entry.content := by
  unfold atSeat
  split
  · exact hentry entry
  · have hbody : (entry.body.overMembers id.category fun list =>
          list.modify id.index edit.onMember).content
        = entry.body.content.overMembers id.category fun list => list :=
      entry.body.content_overMembers id.category fun list => map_modify_of_eq hmember list _
    rw [Body.overMembers_id] at hbody
    simp only [Entry.content, Symbol.map, hbody]

/-- Relations are part of the contents. -/
lemma Edit.content_relations (f : Relations → Relations) (id : DeclId) (entry : Entry) :
    ((Edit.callable fun c => { c with relations := f c.relations }).atSeat id entry).content
      = (Edit.callable fun c => { c with relations := f c.relations }).atSeat id entry.content := by
  unfold atSeat
  split
  · simp only [Edit.callable, Entry.content, Symbol.map]
    cases entry.body <;> rfl
  · have hmember (m : Member) :
        ((Edit.callable fun c => { c with relations := f c.relations }).onMember m).content
          = (Edit.callable fun c => { c with relations := f c.relations }).onMember m.content := rfl
    have hbody := entry.body.content_overMembers id.category
      fun list => map_modify hmember list id.index
    simp only [Entry.content, Symbol.map, hbody]
    rfl

lemma Member.core_content (member : Member) : member.content.core = member.core := rfl

lemma Entry.core_content (entry : Entry) : entry.content.core = entry.core := by
  have hmembers (list : List Member) :
      (list.map Member.content).map Member.core = list.map Member.core := by
    rw [List.map_map]
    exact List.map_congr_left fun m _ => m.core_content
  simp only [core, content, Symbol.map]
  cases entry.body <;> simp [Body.core, Body.content, hmembers]

lemma Arena.skeleton_skeleton (arena : Arena) : arena.skeleton.skeleton = arena.skeleton := by
  simp only [skeleton, List.map_map, Arena.mk.injEq, and_true]
  refine List.map_congr_left fun slot _ => ?_
  cases slot <;> rfl

lemma Library.cores_contents (lib : Library) : lib.contents.cores = lib.cores := by
  have htable (table : List (Option Entry)) :
      (table.map (Option.map Entry.content)).map (Option.map Entry.core)
        = table.map (Option.map Entry.core) := by
    rw [List.map_map]
    refine List.map_congr_left fun slot _ => ?_
    cases slot with
    | none => rfl
    | some entry => exact congrArg some entry.core_content
  simp [cores, contents, view, Arena.skeleton_skeleton, htable]

/-! ## Steps that keep contents -/

namespace LibrarySet

variable {set set' set'' origin : LibrarySet} {old : LibraryId → Prop}

/-- The contents of a loaded library. -/
def contents? (set : LibrarySet) (library : LibraryId) : Option Library :=
  (set.get? library).map Library.contents

/-- Two states of the model in which the libraries `old` have the same contents. -/
def SameContents (old : LibraryId → Prop) (set set' : LibrarySet) : Prop :=
  ∀ library, old library → set'.contents? library = set.contents? library

lemma SameContents.refl (set : LibrarySet) : SameContents old set set := fun _ _ => rfl

lemma SameContents.trans (h : SameContents old set set') (k : SameContents old set' set'') :
    SameContents old set set'' := fun library hold => (k library hold).trans (h library hold)

lemma SameContents.foldl {α : Type} {step : LibrarySet → α → LibrarySet} (xs : List α)
    (h : ∀ set, ∀ x ∈ xs, SameContents old set (step set x)) (set : LibrarySet) :
    SameContents old set (xs.foldl step set) := by
  induction xs generalizing set with
  | nil => exact .refl set
  | cons x xs ih =>
    exact (h set x (List.mem_cons_self ..)).trans
      (ih (fun set y hy => h set y (List.mem_cons_of_mem _ hy)) _)

/-- A library with known contents is loaded. -/
lemma SameContents.loaded (h : SameContents old set set') {library : LibraryId}
    (hold : old library) {lib : Library} (hlib : set.get? library = some lib) :
    ∃ lib', set'.get? library = some lib' ∧ lib'.contents = lib.contents := by
  have hcontents := h library hold
  rw [contents?, contents?, hlib, Option.map_some] at hcontents
  exact Option.map_eq_some_iff.1 hcontents

lemma sameContents_adjust (set : LibrarySet) (library : LibraryId) {f : Library → Library}
    (h : ∀ lib, (f lib).contents = lib.contents) : SameContents old set (set.adjust library f) := by
  intro other _
  rw [contents?, get?_adjust, contents?]
  split
  · cases set.get? other with
    | none => rfl
    | some lib => exact congrArg some (h lib)
  · rfl

/-- A change of a library that is not spoken for. -/
lemma sameContents_adjust_new (set : LibrarySet) {library : LibraryId} (hnew : ¬ old library)
    (f : Library → Library) : SameContents old set (set.adjust library f) := by
  intro other hold
  rw [contents?, get?_adjust, if_neg, contents?]
  rintro rfl
  exact hnew hold

/-- References are no contents. -/
lemma overReferences_eq_adjust (set : LibrarySet) (f : List Location → List Location)
    (target : Target) : ∃ library change, set.overReferences f target = set.adjust library change ∧
      ∀ lib, (change lib).contents = lib.contents := by
  cases target with
  | declaration id =>
    refine ⟨id.library, _, rfl, fun lib => lib.view_edit_eq_self id fun entry => ?_⟩
    exact Edit.content_atSeat (fun _ => rfl) (fun _ => rfl) id entry
  | space ref =>
    refine ⟨ref.library, _, rfl, fun lib => ?_⟩
    have hspaces := lib.spaces.skeleton_adjust ref.space
      (f := fun node => { node with references := f node.references }) fun _ => rfl
    simp only [Library.contents, Library.view, hspaces]

/-- Heirs are no contents. -/
lemma overImplementors_eq_adjust (set : LibrarySet) (base : DeclId)
    (f : List DeclId → List DeclId) :
    ∃ library change, set.overImplementors base f = set.adjust library change ∧
      ∀ lib, (change lib).contents = lib.contents := by
  refine ⟨base.library, _, rfl, fun lib => lib.view_edit_eq_self base fun entry => ?_⟩
  refine Edit.content_atSeat (fun entry => ?_) (fun _ => rfl) base entry
  simp only [Edit.body, Entry.content, Symbol.map]
  cases entry.body <;> rfl

lemma sameContents_overReferences (set : LibrarySet) (f : List Location → List Location)
    (target : Target) : SameContents old set (set.overReferences f target) := by
  obtain ⟨library, change, heq, hcontents⟩ := set.overReferences_eq_adjust f target
  rw [heq]
  exact sameContents_adjust set library hcontents

lemma sameContents_overImplementors (set : LibrarySet) (base : DeclId)
    (f : List DeclId → List DeclId) : SameContents old set (set.overImplementors base f) := by
  obtain ⟨library, change, heq, hcontents⟩ := set.overImplementors_eq_adjust base f
  rw [heq]
  exact sameContents_adjust set library hcontents

lemma sameContents_dropLink (set : LibrarySet) (link : BackLink) :
    SameContents old set (Linkage.dropLink set link) := by
  cases link with
  | reference target location => exact sameContents_overReferences set _ target
  | implementor base heir => exact sameContents_overImplementors set base _

lemma sameContents_update (set : LibrarySet) (update : Update)
    (hnew : ¬ old update.target.library) : SameContents old set (update.apply set) := by
  cases update <;> exact sameContents_adjust_new set hnew _

lemma sameContents_relate (set : LibrarySet) {library : LibraryId} (hnew : ¬ old library)
    (function : DeclId) (f : Relations → Relations) :
    SameContents old set (relate library set function f) := by
  unfold relate
  split
  · next heq => exact sameContents_adjust_new set (heq ▸ hnew) _
  · exact .refl set

lemma sameContents_record (set : LibrarySet) {library : LibraryId} (hnew : ¬ old library)
    (verdict : Verdict) : SameContents old set (record library set verdict) := by
  have hpair (set : LibrarySet) (a b : DeclId) (f g : Relations → Relations) :
      SameContents old set (relate library (relate library set a f) b g) :=
    (sameContents_relate set hnew a f).trans (sameContents_relate _ hnew b g)
  have hoverrides : SameContents old set (verdict.overrides.foldl (addOverride library) set) := by
    refine SameContents.foldl _ (fun set pair _ => ?_) set
    unfold addOverride
    exact hpair set pair.1 pair.2 _ _
  refine hoverrides.trans (SameContents.foldl _ (fun set pair _ => ?_) _)
  unfold addImplementation
  exact hpair set pair.1 pair.2 _ _

/-- Checking a library changes the contents of no other. -/
lemma Orderly.sameContents_check (orderly : set.Orderly) {library : LibraryId}
    (hnew : ¬ old library) : SameContents old set (set.check library).1 := by
  have hclear : SameContents old set (set.clearRelations library) := by
    unfold clearRelations
    split
    · exact .refl set
    · next lib hlib =>
      refine SameContents.foldl _ (fun set' owner howner => ?_) set
      obtain ⟨category, -, hentries⟩ := List.mem_flatMap.1 howner
      obtain ⟨slot, hslot, rfl⟩ := List.mem_filterMap.1 hentries
      obtain ⟨index, hindex, heq⟩ := List.mem_iff_getElem.1 hslot
      have htags : set.tags? library category index = some owner.tags := by
        rw [tags?, slot?_of_get? hlib, Library.slot?,
          List.getElem?_eq_getElem hindex, heq]
        rfl
      have hid : owner.id.library = library :=
        congrArg DeclId.library (orderly.tags htags).id_eq
      exact sameContents_adjust_new set' (hid ▸ hnew) _
  simp only [check]
  split
  · exact hclear
  · exact hclear.trans (sameContents_record _ hnew _)

end LibrarySet

/-! ## Passes -/

namespace Linkage

variable {state : Linkage} {others : List SourceUnit} {old : LibraryId → Prop}

open LibrarySet (SameContents)

lemma sameContents_addReference (state : Linkage) (found : Target × Location) :
    SameContents old state.libraries (state.addReference found).libraries := by
  obtain ⟨target, location⟩ := found
  simp only [addReference]
  split
  · exact .refl _
  · split
    · exact .refl _
    · exact LibrarySet.sameContents_overReferences _ _ target

lemma sameContents_addHeir (state : Linkage) (found : DeclId × DeclId) :
    SameContents old state.libraries (state.addHeir found).libraries := by
  obtain ⟨base, heir⟩ := found
  simp only [addHeir]
  split
  · exact .refl _
  · exact LibrarySet.sameContents_overImplementors _ base _

lemma sameContents_foldl {α : Type} {step : Linkage → α → Linkage}
    (h : ∀ state x, SameContents old state.libraries (step state x).libraries) (xs : List α)
    (state : Linkage) : SameContents old state.libraries (xs.foldl step state).libraries := by
  induction xs generalizing state with
  | nil => exact .refl _
  | cons x xs ih => exact (h state x).trans (ih _)

/-- Findings about a document change the contents of its own library only. -/
lemma sameContents_apply (settled : state.libraries.Settled (state.unit :: others))
    (hnew : ¬ old state.unit.library) {near : LibraryId → Prop} {found : Findings}
    (among : found.Among state.libraries near state.unit.path state.unit.declarations) :
    SameContents old state.libraries (state.apply found).libraries := by
  have hupdates : SameContents old state.libraries
      (found.updates.foldl Update.apply state.libraries) := by
    refine SameContents.foldl _ (fun set update hupdate => ?_) _
    refine LibrarySet.sameContents_update set update ?_
    have hown := (among.updates hupdate).2.1
    obtain ⟨heq, -⟩ := settled.declared (List.mem_cons_self ..) hown
    have hholder : update.target.holder.library = update.target.library := by
      unfold DeclId.holder DeclId.owner?
      split <;> rfl
    rw [← hholder, congrArg DeclId.library heq]
    exact hnew
  have hreferences := hupdates.trans (sameContents_foldl sameContents_addReference
    found.references
    { state with libraries := found.updates.foldl Update.apply state.libraries })
  exact hreferences.trans (sameContents_foldl sameContents_addHeir found.heirs _)

lemma sameContents_declareMembers (settled : state.libraries.Settled (state.unit :: others))
    (hnew : ¬ old state.unit.library) :
    SameContents old state.libraries state.declareMembers.libraries := by
  have hall : ∀ (pairs : List (DeclId × DeclNode)) (state : Linkage),
      (∀ pair ∈ pairs, ¬ old pair.1.library) →
      SameContents old state.libraries
        (pairs.foldl LinkMembers.declareFor state).libraries := by
    intro pairs
    induction pairs with
    | nil => exact fun _ _ => .refl _
    | cons pair rest ih =>
      intro state hpairs
      have hfirst : SameContents old state.libraries
          (LinkMembers.declareFor state pair).libraries := by
        obtain ⟨id, node⟩ := pair
        simp only [LinkMembers.declareFor]
        split
        · exact .refl _
        · exact LibrarySet.sameContents_adjust_new _ (hpairs _ (List.mem_cons_self ..)) _
      exact hfirst.trans (ih _ fun other hother => hpairs other (List.mem_cons_of_mem _ hother))
  refine hall _ state fun pair hpair => ?_
  obtain ⟨id, node⟩ := pair
  obtain ⟨heq, -⟩ := settled.declared (List.mem_cons_self ..) (List.of_mem_zip hpair).1
  rw [congrArg DeclId.library heq]
  exact hnew

end Linkage

/-- Linking the documents of one library changes the contents of no other. -/
lemma LibrarySet.Arranged.sameContents_link {set : LibrarySet} {batch others : List SourceUnit}
    (arranged : set.Arranged (batch ++ others)) (hundeclared : ∀ unit ∈ batch, unit.Undeclared)
    {old : LibraryId → Prop} (hnew : ∀ unit ∈ batch, ¬ old unit.library) (options : LinkOptions) :
    SameContents old set (Linkages.link ⟨set, batch⟩ options).libraries := by
  have hunit {before after : Linkage} (same : Linkage.SameSkeleton before after)
      (h : ¬ old before.unit.library) : ¬ old after.unit.library := by
    have hlibrary : after.unit.library = before.unit.library := congrArg (·.library) same.2
    rwa [hlibrary]
  -- All four passes write into libraries of the documents at hand, and none of these is old.
  refine (Linkages.link_each options
    (fun current units => current.Arranged units ∧ SameContents old set current)
    (fun unit => unit.Undeclared ∧ ¬ old unit.library) (fun unit => ¬ old unit.library)
    (fun h hperm => ⟨h.1.perm hperm, h.2⟩) ?_ ?_ ?_ ?_ ⟨arranged, .refl set⟩
    fun unit hmem => ⟨hundeclared unit hmem, hnew unit hmem⟩).2
  · intro state others h hq
    obtain ⟨hfound, -⟩ := state.among_everywhere.imported h.1.legible
    refine ⟨⟨Linkage.arranged_linkImports h.1, h.2.trans ?_⟩,
      Linkage.undeclared_linkImports hq.1, hunit (Linkage.sameSkeleton_linkImports state) hq.2⟩
    rw [Linkage.linkImports_eq h.1.settled]
    exact @Linkage.sameContents_apply
      { state with unit := { state.unit with scopes := state.imported.1 } } others old
      (h.1.settled.of_skeleton_eq rfl rfl) hq.2 _ _ hfound
  · intro state others h hq
    exact ⟨⟨Linkage.arranged_declareMembers h.1 hq.1,
      h.2.trans (Linkage.sameContents_declareMembers h.1.settled hq.2)⟩,
      hunit (Linkage.sameSkeleton_declareMembers state) hq.2⟩
  · intro state others h hq
    have among := state.among_everywhere.foundBases h.1 options
    exact ⟨⟨Linkage.arranged_apply h.1 among,
      h.2.trans (Linkage.sameContents_apply h.1.settled hq among)⟩,
      hunit (Linkage.sameSkeleton_linkEach state options _) hq⟩
  · intro state others h hq
    have among := state.among_everywhere.foundSignatures h.1 options
    exact ⟨⟨Linkage.arranged_apply h.1 among,
      h.2.trans (Linkage.sameContents_apply h.1.settled hq among)⟩,
      hunit (Linkage.sameSkeleton_linkEach state options _) hq⟩

/-- Linking the documents of one library and checking it changes the contents of no other. -/
lemma LibrarySet.Arranged.sameContents_finish {set : LibrarySet} {batch others : List SourceUnit}
    (arranged : set.Arranged (batch ++ others)) {library : LibraryId}
    (hbatch : ∀ unit ∈ batch, unit.library = library ∧ unit.skeleton = unit)
    {old : LibraryId → Prop} (hnew : ¬ old library) (options : LinkOptions) :
    SameContents old set (Linkages.finish ⟨set, batch⟩ options library).libraries := by
  have hundeclared : ∀ unit ∈ batch, unit.Undeclared :=
    fun unit hunit => undeclared_of_skeleton_eq (hbatch unit hunit).2
  have hforeign : ∀ unit ∈ batch, ¬ old unit.library := by
    intro unit hunit
    rw [(hbatch unit hunit).1]
    exact hnew
  have harranged := Linkages.arranged_link arranged hundeclared options
  exact (arranged.sameContents_link hundeclared hforeign options).trans
    (harranged.orderly.sameContents_check hnew)

/-! ## Loads -/

open LibrarySet in
/-- A load changes the contents of no library that is there already. -/
theorem loadInvariant_contents (origin : LibrarySet) : LoadInvariant
    (fun set pool units => (set.Arranged units ∧ pool.Matches set.project []) ∧
      SameContents (fun library => ∃ lib, origin.get? library = some lib) origin set)
    (fun library => ∃ lib, origin.get? library = some lib) where
  old_project := ⟨_, rfl⟩
  old_loaded := by
    rintro set pool units library h ⟨lib, hlib⟩
    obtain ⟨lib', hlib', -⟩ := h.2.loaded ⟨lib, hlib⟩ hlib
    exact ⟨lib', hlib'⟩
  settled h := loadInvariant_arranged.settled h.1
  pool h := loadInvariant_arranged.pool h.1
  perm h hperm := ⟨loadInvariant_arranged.perm h.1 hperm, h.2⟩
  addImport := by
    intro set pool units name h
    refine ⟨loadInvariant_arranged.addImport name h.1, h.2.trans ?_⟩
    -- The identity of the new import was free, so no old library has it.
    rintro library ⟨lib, hlib⟩
    obtain ⟨lib', hlib', -⟩ := h.2.loaded ⟨lib, hlib⟩ hlib
    rw [contents?, get?_addImport, if_neg, contents?]
    rintro rfl
    rw [get?_addImport_fst] at hlib'
    cases hlib'
  tidy := by
    intro set pool units library lib tree bench h hnew hloaded htidy
    have hproject : library ≠ .project := fun heq => hnew (heq ▸ ⟨_, rfl⟩)
    obtain ⟨bench', htidy', -, -, hgrows, -⟩ := h.1.1.settled.tidy hloaded h.1.2 tree
    refine ⟨loadInvariant_arranged.tidy h.1 hproject hloaded htidy, h.2.trans ?_⟩
    rw [htidy] at htidy'
    obtain rfl : bench = bench' := by simpa using htidy'
    intro other hold
    rw [contents?, hgrows.other, contents?]
    rintro rfl
    exact hnew hold
  finish := by
    intro set pool units batch library options h hnew hbatch
    have hproject : library ≠ .project := fun heq => hnew (heq ▸ ⟨_, rfl⟩)
    exact ⟨loadInvariant_arranged.finish options h.1 hproject hbatch,
      h.2.trans (h.1.1.sameContents_finish hbatch hnew options)⟩

end SymbolGraph
