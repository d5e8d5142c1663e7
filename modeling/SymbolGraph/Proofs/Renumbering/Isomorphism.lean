import SymbolGraph.Proofs.Renumbering.Checking
import SymbolGraph.Proofs.Session.LoadedLibraries

/-!
# Isomorphic models

Two models are *isomorphic* under a renumbering if they have the same records and namespaces under
the new numbers, and for every record the same references, heirs and relations up to order
(`LibrarySet.Isomorphic`).

A check looks at parameter types and at the inheritance graph.  Both correspond in a model and its
copy, so a function overrides or implements another exactly if their copies do, and checking both
models makes them isomorphic (`LibrarySet.Copies.check`).
-/

namespace SymbolGraph

open Overriding

/-! ## Implementations under other numbers -/

namespace Renumbering

variable (r : Renumbering)

lemma settles_member {required own : Member} :
    Settles (r.member required) (r.member own) ↔ Settles required own := by
  have hcallable : (r.member own).body.callable?.isSome = own.body.callable?.isSome := by
    rw [show (r.member own).body = r.leaf own.body from rfl]
    cases own.body <;> rfl
  rw [Settles, Settles, r.sameSignature_member, r.isResolved_member, hcallable]
  exact Iff.rfl

lemma offer_member {functions : List Member} {required own : Member}
    (h : offer functions required = .implementation own) :
    offer (functions.map r.member) (r.member required) = .implementation (r.member own) := by
  obtain ⟨hvalid, hsame, before, after, rfl, hbefore⟩ := offer_eq_implementation_iff.1 h
  refine offer_eq_implementation_iff.2 ⟨hvalid, by rwa [r.sameSignature_member],
    before.map r.member, after.map r.member, by simp, fun f hf => ?_⟩
  obtain ⟨f₀, hf₀, rfl⟩ := List.mem_map.1 hf
  rw [r.settles_member]
  exact hbefore f₀ hf₀

end Renumbering

/-! ## Inheritance in matching models -/

namespace LibrarySet.Matches

variable {r : Renumbering} {set set' : LibrarySet} (h : set.Matches Entry.core r .all set')

include h

lemma exists_slot {library : LibraryId} {category : Category} {index : Nat} {entry : Entry}
    (hslot : set.slot? library category index = some entry) :
    ∃ entry',
      set'.slot? (r.library library) category (r.slot library category index) = some entry' ∧
      entry'.core = (r.entry entry).core := by
  have heq := h.slots library category index trivial
  rw [hslot] at heq
  obtain ⟨entry', hslot', hcore⟩ := Option.map_eq_some_iff.1 heq
  exact ⟨entry', hslot', hcore.trans (r.core_entry entry).symm⟩

lemma exists_find {id : DeclId} {record : Entry} (hfind : set.find? id = some record) :
    ∃ record', set'.find? (r.decl id) = some record' ∧ record'.core = (r.entry record).core := by
  have hpart (id : DeclId) (entry : Entry) :
      (id.part? entry).map Entry.core = (id.part? entry.core).map Entry.core := by
    rw [DeclId.part?_core, Option.map_map]
    exact congrFun (congrArg _ (funext fun entry => (Entry.core_core entry).symm)) _
  have heq : (set'.find? (r.decl id)).map Entry.core
      = (set.find? id).map fun entry => r.entry entry.core := h.find? hpart r.core_entry trivial
  rw [hfind] at heq
  obtain ⟨record', hrecord', hcore⟩ := Option.map_eq_some_iff.1 heq
  exact ⟨record', hrecord', hcore.trans (r.core_entry record).symm⟩

lemma mem_superInterfaces {id base : DeclId} (hbase : base ∈ set.superInterfaces id) :
    r.decl base ∈ set'.superInterfaces (r.decl id) := by
  cases hfind : set.find? id with
  | none => simp [LibrarySet.superInterfaces, hfind] at hbase
  | some entry =>
    obtain ⟨entry', hentry', hcore⟩ := h.exists_find hfind
    have hbody : entry'.body.core = (r.entry entry).body.core := congrArg Symbol.body hcore
    rw [superInterfaces_eq hfind] at hbase
    rw [superInterfaces_eq hentry', ← Body.superInterfaces_core, hbody, Body.superInterfaces_core,
      r.body_entry, r.superInterfaces_body]
    exact List.mem_map_of_mem hbase

lemma mem_bases {category : Category} {id base : DeclId} (hbase : base ∈ set.bases category id) :
    r.decl base ∈ set'.bases category (r.decl id) := by
  cases category with
  | «class» =>
    rw [bases, (h.mono Entry.shape_core r.shape_entry).parents trivial]
    exact List.mem_map_of_mem hbase
  | interface => exact h.mem_superInterfaces hbase
  | _ => cases hbase

lemma above {category : Category} {id base : DeclId}
    (habove : Walk.Above (set.bases category) id base) :
    Walk.Above (set'.bases category) (r.decl id) (r.decl base) :=
  ⟨r.decl_injective.ne habove.1, habove.2.lift r.decl fun _ _ => h.mem_bases⟩

lemma offers {base id : DeclId} {f f' : Member} (hf : f'.core = (r.member f).core)
    (hoffers : set.Offers base f id) : set'.Offers (r.decl base) f' (r.decl id) := by
  obtain ⟨record, hrecord, g, hg, hsame, rfl⟩ := hoffers
  obtain ⟨record', hrecord', hcore⟩ := h.exists_find hrecord
  have hmem : r.member g ∈ linkedFunctions (r.entry record).body := by
    rw [r.body_entry, r.linkedFunctions_body]
    exact List.mem_map_of_mem hg
  obtain ⟨g', hg', hgcore⟩ := exists_linkedFunction (congrArg Symbol.body hcore) hmem
  have hgid : g'.core.id = (r.member g).core.id := congrArg Symbol.id hgcore
  refine ⟨record', hrecord', g', hg', ?_, hgid⟩
  rw [← sameSignature_core, hf, hgcore, sameSignature_core, r.sameSignature_member, hsame]

lemma overrides {library : LibraryId} {function overridden : DeclId}
    (hoverrides : set.Overrides library function overridden) :
    set'.Overrides (r.library library) (r.decl function) (r.decl overridden) := by
  obtain ⟨category, index, entry, f, hslot, hvalid, hf, rfl, base, habove, hoffers⟩ := hoverrides
  obtain ⟨entry', hslot', hcore⟩ := h.exists_slot hslot
  have hmem : r.member f ∈ linkedFunctions (r.entry entry).body := by
    rw [r.body_entry, r.linkedFunctions_body]
    exact List.mem_map_of_mem hf
  obtain ⟨f', hf', hfcore⟩ := exists_linkedFunction (congrArg Symbol.body hcore) hmem
  have hvalid' : entry'.core.valid = (r.entry entry).core.valid := congrArg Symbol.valid hcore
  have hid : entry'.core.id = (r.entry entry).core.id := congrArg Symbol.id hcore
  have hfid : f'.core.id = (r.member f).core.id := congrArg Symbol.id hfcore
  refine ⟨category, _, entry', f', hslot', hvalid'.trans hvalid, hf', hfid, r.decl base, ?_,
    h.offers hfcore hoffers⟩
  rw [show entry'.id = r.decl entry.id from hid]
  exact h.above habove

lemma requires {info info' : ClassInfo} (hinherits : info'.inherits = info.inherits.map r.ty)
    {g : Member} (hg : set.Requires info g) :
    ∃ g', set'.Requires info' g' ∧ g'.core = (r.member g).core := by
  obtain ⟨root, hroot, base, hway, record, hrecord, hmem⟩ := hg
  obtain ⟨record', hrecord', hcore⟩ := h.exists_find hrecord
  have hlinked : r.member g ∈ linkedFunctions (r.entry record).body := by
    rw [r.body_entry, r.linkedFunctions_body]
    exact List.mem_map_of_mem hmem
  obtain ⟨g', hg', hgcore⟩ := exists_linkedFunction (congrArg Symbol.body hcore) hlinked
  refine ⟨g', ⟨r.decl root, ?_, r.decl base, hway.lift r.decl fun _ _ => h.mem_superInterfaces,
    record', hrecord', hg'⟩, hgcore⟩
  obtain ⟨ty, hty, hdeclaration⟩ := List.mem_filterMap.1 hroot
  rw [hinherits, List.filterMap_map]
  refine List.mem_filterMap.2 ⟨ty, hty, ?_⟩
  rw [Function.comp_apply, r.declaration?_ty, hdeclaration, Option.map_some]

lemma implements {library : LibraryId} {function implemented : DeclId}
    (himplements : set.Implements library function implemented) :
    set'.Implements (r.library library) (r.decl function) (r.decl implemented) := by
  obtain ⟨index, entry, info, own, hslot, hvalid, hbody, rfl, g, hg, hoffer, rfl⟩ := himplements
  obtain ⟨entry', hslot', hcore⟩ := h.exists_slot hslot
  have hvalid' : entry'.core.valid = (r.entry entry).core.valid := congrArg Symbol.valid hcore
  have hbody' : entry'.body.core = (r.entry entry).body.core := congrArg Symbol.body hcore
  rw [r.body_entry, hbody] at hbody'
  cases hentry' : entry'.body with
  | «class» info' =>
    rw [hentry'] at hbody'
    have hinfo := Body.class.inj hbody'
    have hfunctions : (info.functions.map r.member).map Member.core
        = info'.functions.map Member.core := (congrArg ClassInfo.functions hinfo).symm
    have hinherits : info'.inherits = info.inherits.map r.ty := (ClassInfo.mk.inj hinfo).2.1
    obtain ⟨g', hg', hgcore⟩ := h.requires hinherits (mem_required.1 hg)
    obtain ⟨own', hoffer', howncore⟩ := offer_core hfunctions hgcore (r.offer_member hoffer)
    have hownid : own'.core.id = (r.member own).core.id := congrArg Symbol.id howncore
    have hgid : g'.core.id = (r.member g).core.id := congrArg Symbol.id hgcore
    exact ⟨_, entry', info', own', hslot', hvalid'.trans hvalid, hentry', hownid, g',
      mem_required.2 hg', hoffer', hgid⟩
  | _ => rw [hentry'] at hbody'; cases hbody'

/-- A function overrides another exactly if the one that it corresponds to does. -/
lemma overrides_iff {library : LibraryId} {function overridden : DeclId} :
    set'.Overrides (r.library library) (r.decl function) (r.decl overridden)
      ↔ set.Overrides library function overridden :=
  ⟨fun hoverrides => by simpa using h.symm.overrides hoverrides, h.overrides⟩

lemma implements_iff {library : LibraryId} {function implemented : DeclId} :
    set'.Implements (r.library library) (r.decl function) (r.decl implemented)
      ↔ set.Implements library function implemented :=
  ⟨fun himplements => by simpa using h.symm.implements himplements, h.implements⟩

end LibrarySet.Matches

/-! ## Relations -/

/-- The same relations under the new numbers, up to order. -/
structure Relations.Isomorphic (r : Renumbering) (relations relations' : Relations) : Prop where
  overrides : relations'.overrides.Perm (relations.overrides.map r.decl)
  overriddenBy : relations'.overriddenBy.Perm (relations.overriddenBy.map r.decl)
  implements : relations'.implements.Perm (relations.implements.map r.decl)
  implementedBy : relations'.implementedBy.Perm (relations.implementedBy.map r.decl)

/-- Verdicts with corresponding pairs tie functions alike. -/
lemma Relations.isomorphic_tied {r : Renumbering} {verdict verdict' : Verdict}
    (hoverrides : ∀ a b, (r.decl a, r.decl b) ∈ verdict'.overrides ↔ (a, b) ∈ verdict.overrides)
    (himplements : ∀ a b, (r.decl a, r.decl b) ∈ verdict'.implements ↔ (a, b) ∈ verdict.implements)
    (id : DeclId) : Isomorphic r (tied id verdict) (tied (r.decl id) verdict') := by
  have hperm {list list' : List DeclId} (h : ∀ other, r.decl other ∈ list' ↔ other ∈ list) :
      (addAllNew [] list').Perm ((addAllNew [] list).map r.decl) := by
    refine (List.perm_ext_iff_of_nodup (nodup_addAllNew .nil _)
      ((nodup_addAllNew .nil _).map r.decl_injective)).2 fun other' => ?_
    obtain ⟨other, rfl⟩ : ∃ other, r.decl other = other' := ⟨_, r.decl_decl_symm other'⟩
    rw [List.mem_map_of_injective r.decl_injective]
    simp [h]
  exact ⟨hperm fun other => by simp [mem_targetsOf, hoverrides],
    hperm fun other => by simp [mem_sourcesOf, hoverrides],
    hperm fun other => by simp [mem_targetsOf, himplements],
    hperm fun other => by simp [mem_sourcesOf, himplements]⟩

namespace LibrarySet

variable {r : Renumbering} {set set' : LibrarySet} {library : LibraryId} {id : DeclId}

lemma relations?_part? (hid : set.Identified) (id : DeclId) : set.relations? id
    = (set.slot? id.library id.seat.1 id.seat.2).bind fun entry =>
        (id.part? entry).bind Entry.relations? := by
  rw [relations?, find?_eq hid, Option.bind_assoc]
  rfl

/-- Records with the same contents have the same relations. -/
lemma Matches.relations? (h : set.Matches Entry.content r .all set') (id : DeclId) :
    set'.relations? (r.decl id) = (set.relations? id).map r.relations := by
  have hread (set : LibrarySet) (hid : set.Identified) (id : DeclId) : set.relations? id
      = ((set.slot? id.library id.seat.1 id.seat.2).map Entry.content).bind fun entry =>
          (id.part? entry).bind Entry.relations? := by
    rw [relations?_part? hid]
    cases set.slot? id.library id.seat.1 id.seat.2 with
    | none => rfl
    | some entry => exact (id.relations?_part?_content entry).symm
  have hentry (entry : Entry) : Entry.relations? (r.entry entry)
      = (Entry.relations? entry).map r.relations := by
    rw [Entry.relations?, r.body_entry, Entry.relations?]
    cases entry.body with
    | leaf part => cases part <;> rfl
    | _ => rfl
  rw [hread set' h.identified', r.seat_decl, r.library_decl, h.slots _ _ _ trivial,
    hread set h.identified]
  cases set.slot? id.library id.seat.1 id.seat.2 with
  | none => rfl
  | some entry =>
    simp only [Option.map_some, Option.bind_some, r.part?_entry]
    cases id.part? entry.content with
    | none => rfl
    | some part => exact hentry part

/-- An edit that changes no relations of a declaration. -/
lemma relations?_edit (hid : set.Identified) (target : DeclId) {edit : Edit}
    (h : ∀ entry, (id.part? (edit.atSeat target entry)).bind Entry.relations?
      = (id.part? entry).bind Entry.relations?) :
    (set.edit target edit).relations? id = set.relations? id := by
  rw [relations?_part? (hid.edit target edit), slot?_edit hid, relations?_part? hid]
  split
  · cases set.slot? id.library id.seat.1 id.seat.2 with
    | none => rfl
    | some entry => exact h entry
  · rfl

/-- Changes of other member lists change no relations of a declaration. -/
lemma relations?_overMembers (hfunction : id.category ≠ category) (entry : Entry)
    (f : List Member → List Member) :
    (id.part? (entry.map (Body.overMembers category f))).bind Entry.relations?
      = (id.part? entry).bind Entry.relations? := by
  unfold DeclId.part?
  cases id.owner? with
  | none =>
    simp only [Option.bind_some, Entry.relations?, Symbol.body_map, Body.callable?_overMembers]
  | some owner =>
    simp only [Symbol.body_map, Body.members?_overMembers, if_neg hfunction.symm]

lemma relations?_relate_other (hid : set.Identified) {function : DeclId}
    (howner : function.owner? ≠ none) (hcategory : id.category ≠ function.category)
    (f : Relations → Relations) :
    (relate library set function f).Identified ∧
      (relate library set function f).relations? id = set.relations? id := by
  unfold relate
  split
  · refine ⟨hid.edit function _, relations?_edit hid function fun entry => ?_⟩
    obtain ⟨owner, howner⟩ := Option.ne_none_iff_exists'.1 howner
    simp only [Edit.atSeat, howner]
    exact relations?_overMembers hcategory entry _
  · exact ⟨hid, rfl⟩

end LibrarySet

/-! ## After a check -/

lemma Category.isMember_of_isFunction {category : Category} (h : category.isFunction = true) :
    category.isMember = true := by
  cases category <;> first | rfl | cases h

lemma Body.overMembers_self (body : Body) (category : Category) :
    body.overMembers category (fun list => list) = body := by
  cases body <;> cases category <;> rfl

lemma Body.mem_functions_of_members? {body : Body} {category : Category} {list : List Member}
    (hcategory : category.isFunction = true) (hlist : body.members? category = some list)
    {f : Member} (hf : f ∈ list) : f ∈ body.functions := by
  cases body <;> cases category <;>
    simp_all [Body.members?, Body.functions, Category.isFunction]

namespace LibrarySet

variable {r : Renumbering} {set set' : LibrarySet} {library : LibraryId} {id : DeclId}

/-- A check leaves every other library alone. -/
lemma Orderly.get?_check (orderly : set.Orderly) {other : LibraryId} (h : other ≠ library) :
    (set.check library).1.get? other = set.get? other := by
  have hedit {after : LibrarySet} {target : DeclId} {edit : Edit}
    (htarget : target.library = library) :
      (after.edit target edit).get? other = after.get? other := by
    rw [LibrarySet.edit, get?_adjust, if_neg (htarget ▸ h.symm)]
  exact orderly.check_induction (P := fun after => after.get? other = set.get? other) rfl
    (fun hget htarget => (hedit htarget).trans hget)
    (fun _ hget htarget => (hedit htarget).trans hget)

section

variable (hcategory : id.category.isFunction = false)

include hcategory

/-- Forgetting the relations of member functions changes those of no other declaration. -/
lemma relations?_clear_other (hid : set.Identified) (owner : DeclId) :
    (set.edit owner (.body Body.clearRelations)).relations? id = set.relations? id := by
  have hne {category : Category} (hfunction : category.isFunction = true) :
      id.category ≠ category := by
    rintro rfl
    rw [hcategory] at hfunction
    cases hfunction
  refine relations?_edit hid owner fun entry => ?_
  cases howner : owner.owner? with
  | none =>
    simp only [Edit.atSeat, howner]
    exact (relations?_overMembers (hne rfl) _ _).trans
      ((relations?_overMembers (hne rfl) _ _).trans (relations?_overMembers (hne rfl) entry _))
  | some _ =>
    -- members are not changed by such an edit
    simp only [Edit.atSeat, howner, Edit.body, List.modify_id, Symbol.map, Body.overMembers_self]

lemma relations?_clearRelations_other (hid : set.Identified) (library : LibraryId) :
    (set.clearRelations library).relations? id = set.relations? id := by
  unfold clearRelations
  split
  · rfl
  · suffices hfold : ∀ (owners : List Entry) {after : LibrarySet}, after.Identified →
        (owners.foldl (fun set owner => set.edit owner.id (.body Body.clearRelations))
          after).relations? id
          = after.relations? id from hfold _ hid
    intro owners
    induction owners with
    | nil => exact fun _ => rfl
    | cons owner rest ih =>
      exact fun hid => (ih (hid.edit owner.id _)).trans
        (relations?_clear_other hcategory hid owner.id)

omit hcategory in
/-- Steps that keep the relations of a declaration, pair by pair. -/
lemma relations?_ties_other (id : DeclId) (step : LibrarySet → DeclId × DeclId → LibrarySet)
    (pairs : List (DeclId × DeclId))
    (hstep : ∀ set, set.Identified → ∀ pair ∈ pairs, (step set pair).Identified ∧
      (step set pair).relations? id = set.relations? id) (hid : set.Identified) :
    (pairs.foldl step set).Identified ∧ (pairs.foldl step set).relations? id =
      set.relations? id := by
  induction pairs generalizing set with
  | nil => exact ⟨hid, rfl⟩
  | cons pair rest ih =>
    obtain ⟨hmid, heq⟩ := hstep set hid pair List.mem_cons_self
    obtain ⟨hafter, heq'⟩ := ih (fun set hid pair hpair =>
      hstep set hid pair (List.mem_cons_of_mem _ hpair)) hmid
    exact ⟨hafter, heq'.trans heq⟩

lemma Addressed.relations?_record_other (addressed : set.Addressed) {lib : Library}
    (hlib : set.get? library = some lib) :
    (record library set (set.judge lib)).relations? id = set.relations? id := by
  -- Both ends of a recorded pair are member functions, and `id` is not.
  have hother {library' : LibraryId} {a : DeclId} (hties : set.Ties library' a) :
      a.owner? ≠ none ∧ id.category ≠ a.category := by
    obtain ⟨f, howns, rfl, -⟩ := hties
    refine ⟨(addressed.owner_function howns).1, fun heq => ?_⟩
    obtain ⟨category, index, entry, hslot, hf⟩ := howns
    obtain ⟨c, _, j, hfunction, -, -, -, hid, -⟩ := addressed.id_function hslot hf
    rw [heq, hid, hfunction] at hcategory
    cases hcategory
  have hrelate {library' : LibraryId} {a : DeclId} (hties : set.Ties library' a)
      (f : Relations → Relations) {after : LibrarySet} (hid : after.Identified) :
      (relate library after a f).Identified ∧
        (relate library after a f).relations? id = after.relations? id :=
    relations?_relate_other hid (hother hties).1 (hother hties).2 f
  obtain ⟨hmid, hoverrides⟩ := relations?_ties_other id (addOverride library)
    (set.judge lib).overrides (fun after hid pair hmem => by
      obtain ⟨hleft, library', hright⟩ :=
        addressed.ties_of_overrides ((addressed.mem_judge_overrides hlib).1 hmem)
      obtain ⟨hmid, heq⟩ := hrelate hleft (fun relations =>
        { relations with overrides := addNew relations.overrides pair.2 }) hid
      obtain ⟨hafter, heq'⟩ := hrelate hright (fun relations =>
        { relations with overriddenBy := addNew relations.overriddenBy pair.1 }) hmid
      exact ⟨hafter, heq'.trans heq⟩) addressed.identified
  obtain ⟨-, himplements⟩ := relations?_ties_other id (addImplementation library)
    (set.judge lib).implements (fun after hid pair hmem => by
      obtain ⟨hleft, library', hright⟩ :=
        addressed.ties_of_implements ((mem_judge_implements hlib).1 hmem)
      obtain ⟨hmid, heq⟩ := hrelate hleft (fun relations =>
        { relations with implements := addNew relations.implements pair.2 }) hid
      obtain ⟨hafter, heq'⟩ := hrelate hright (fun relations =>
        { relations with implementedBy := addNew relations.implementedBy pair.1 }) hmid
      exact ⟨hafter, heq'.trans heq⟩) hmid
  exact himplements.trans hoverrides

end

/-- A check changes the relations of the member functions of the library only. -/
lemma Addressed.relations?_check_other (addressed : set.Addressed) (orderly : set.Orderly)
    (h : ¬ (id.library = library ∧ id.category.isFunction = true)) :
    (set.check library).1.relations? id = set.relations? id := by
  by_cases hlibrary : id.library = library
  · have hcategory : id.category.isFunction = false := by simpa [hlibrary] using h
    have hclear := relations?_clearRelations_other hcategory addressed.identified library
    have cleared := (@sameCores_clearRelations set (fun _ => False) addressed.identified
      library).addressed addressed
    simp only [check]
    split
    · exact hclear
    · next lib hlib => exact (cleared.relations?_record_other hcategory hlib).trans hclear
  · rw [relations?_eq, orderly.get?_check hlibrary, ← relations?_eq]

/-- A member function is found as a function that its owner has. -/
lemma Addressed.owns_of_find? (addressed : set.Addressed) (orderly : set.Orderly) {record : Entry}
    (hfind : set.find? id = some record) (hfunction : id.category.isFunction = true) :
    ∃ f : Member, set.Owns id.library f ∧ f.id = id ∧ record = f.toEntry := by
  rw [find?_eq_recordAt? addressed.identified] at hfind
  have hplace := addressed.place_eq hfind
  rcases recordAt?_eq_some.1 hfind with ⟨hmember, hslot⟩ | ⟨c, j, entry, list, f, hmember, hslot,
    hlist, hm, rfl⟩
  · -- member functions have no slots of their own
    have howner : id.owner? = none := Option.map_eq_none_iff.1 hmember
    have hslot : set.slot? id.library id.category id.index = some record := by
      simpa only [DeclId.place, DeclId.seat, howner] using hslot
    have htags : set.tags? id.library id.category id.index = some record.tags := by
      rw [tags?, hslot]
      rfl
    have htop := (orderly.tags htags).top_level
    rw [Category.isMember_of_isFunction hfunction] at htop
    cases htop
  · have heq : id.place = ⟨id.library, id.seat.1, id.seat.2, some (c, j)⟩ := by
      rw [← hmember]
      rfl
    obtain ⟨-, hid⟩ := DeclId.eq_of_place heq
    obtain ⟨-, hfid⟩ := DeclId.eq_of_place (hplace.trans heq)
    have hc : c.isFunction = true := by rwa [hid] at hfunction
    exact ⟨f,
      ⟨_, _, entry, hslot, Body.mem_functions_of_members? hc hlist (List.mem_of_getElem? hm)⟩,
      hfid.trans hid.symm, rfl⟩

/-- What a function keeps as its relations. -/
lemma relations?_of_find? {f : Member} (hfind : set.find? id = some f.toEntry) :
    set.relations? id = f.body.callable?.map Callable.relations := by
  rw [relations?, hfind]
  rfl

end LibrarySet

lemma Relations.isomorphic_map (r : Renumbering) (relations : Relations) :
    relations.Isomorphic r (r.relations relations) :=
  ⟨.refl _, .refl _, .refl _, .refl _⟩

/-- The same model under the new numbers, up to the order of references, heirs and relations. -/
structure LibrarySet.Isomorphic (r : Renumbering) (set set' : LibrarySet) : Prop where
  cores : set.Matches Entry.core r .all set'
  citations : ∀ target : Target, target.Proper →
    set'.citations? (r.target target) = set.citations? target
  progeny : ∀ base : DeclId, base.define = none →
    set'.progeny? (r.decl base) = (set.heirs? base).map fun heirs =>
      Multiset.ofList (heirs.map r.decl)
  relations : ∀ id : DeclId,
    Option.Rel (Relations.Isomorphic r) (set.relations? id) (set'.relations? (r.decl id))

namespace LibrarySet

variable {r : Renumbering} {set set' : LibrarySet} {library : LibraryId}

/-- Whether models match up to relations depends on skeletons and cores only. -/
lemma Matches.of_sameCores (h : set.Matches Entry.core r .all set') {after after' : LibrarySet}
    (hcores : SameCores (fun _ => False) set after)
    (hcores' : SameCores (fun _ => False) set' after')
    (hskeleton : after.skeleton = set.skeleton) (hskeleton' : after'.skeleton = set'.skeleton) :
    after.Matches Entry.core r .all after' := by
  refine h.congr hcores.identified hcores'.identified hskeleton
    hskeleton' fun near category index hnear => ?_
  have hslot := hcores.cores near category index id
  have hslot' := hcores'.cores (r.library near) category (r.slot near category index) id
  rw [core?, core?] at hslot hslot'
  rw [hslot', h.slots near category index hnear]
  have hrenumbered := congrArg (Option.map r.entry) hslot
  simp only [Option.map_map] at hrenumbered
  exact hrenumbered.symm

/-- Functions of the library are tied in the same way. -/
lemma Copies.relations_check (copies : set.Copies r set') (addressed : set.Addressed)
    (addressed' : set'.Addressed) (orderly : set.Orderly) (orderly' : set'.Orderly)
    (h : (set.check library).1.Matches Entry.core r .all (set'.check (r.library library)).1)
    (id : DeclId) : Option.Rel (Relations.Isomorphic r) ((set.check library).1.relations? id)
      ((set'.check (r.library library)).1.relations? (r.decl id)) := by
  -- Only the lists of the library's functions are written, as sides of the verdicts.
  by_cases hfunction : id.library = library ∧ id.category.isFunction = true
  · obtain ⟨rfl, hfunction⟩ := hfunction
    have hcores := @sameCores_check set (fun _ => False) addressed.identified id.library
    have hcores' := @sameCores_check set' (fun _ => False) addressed'.identified
      (r.library id.library)
    have hfound : Option.Rel (Entry.Matches r) ((set.check id.library).1.find? id)
        ((set'.check (r.library id.library)).1.find? (r.decl id)) := h.find?_core trivial
    obtain ⟨hnone, hnone'⟩ | ⟨record, record', hrecord, hrecord', hmatches⟩ := rel_cases hfound
    · rw [relations?, hnone, relations?, hnone']
      exact .none
    obtain ⟨verdict, htied, hoverrides, himplements⟩ := addressed.relations_verdict id.library
    obtain ⟨verdict', htied', hoverrides', himplements'⟩ :=
      addressed'.relations_verdict (r.library id.library)
    obtain ⟨f, howns, hid, rfl⟩ := (hcores.addressed addressed).owns_of_find?
      ((sameTags_check orderly _).orderly orderly) hrecord hfunction
    obtain ⟨f', howns', hid', rfl⟩ := (hcores'.addressed addressed').owns_of_find?
      ((sameTags_check orderly' _).orderly orderly') hrecord' (by rwa [r.category_decl])
    rw [r.library_decl] at howns'
    have hsignature : f'.body.callable?.map Callable.signature
        = (f.body.callable?.map Callable.signature).map (List.map r.ty) :=
      Entry.Matches.signature hmatches
    have hties := htied f howns
    have hties' := htied' f' howns'
    rw [relations?_of_find? hrecord, relations?_of_find? hrecord']
    rw [Member.relations, hid] at hties
    rw [Member.relations, hid'] at hties'
    cases hcallable : f.body.callable? with
    | none =>
      rw [hcallable] at hsignature
      rw [Option.map_eq_none_iff.1 hsignature]
      exact .none
    | some callable =>
      rw [hcallable] at hsignature hties
      obtain ⟨callable', hcallable', -⟩ := Option.map_eq_some_iff.1 hsignature
      rw [hcallable'] at hties' ⊢
      refine .some ?_
      rw [show callable.relations = _ from hties, show callable'.relations = _ from hties']
      exact Relations.isomorphic_tied
        (fun a b => hoverrides'.trans (h.overrides_iff.trans hoverrides.symm))
        (fun a b => himplements'.trans (h.implements_iff.trans himplements.symm)) id
  · have hfunction' : ¬ ((r.decl id).library = r.library library ∧
        (r.decl id).category.isFunction = true) := by
      rwa [r.library_decl, r.library.injective.eq_iff, r.category_decl]
    rw [addressed.relations?_check_other orderly hfunction,
      addressed'.relations?_check_other orderly' hfunction', copies.contents.relations?]
    cases set.relations? id with
    | none => exact .none
    | some relations => exact .some (Relations.isomorphic_map r relations)

/-- Checking a model and its copy makes them isomorphic. -/
theorem Copies.check (copies : set.Copies r set') {units units' : List SourceUnit}
    (arranged : set.Arranged units) (arranged' : set'.Arranged units') (library : LibraryId) :
    (set.check library).1.Isomorphic r (set'.check (r.library library)).1 := by
  obtain ⟨orderly, orderly'⟩ := And.intro arranged.orderly arranged'.orderly
  have hcores := @sameCores_check set (fun _ => False) orderly.identified library
  have hcores' := @sameCores_check set' (fun _ => False) orderly'.identified (r.library library)
  have hbefore : set.Matches Entry.core r .all set' :=
    copies.contents.mono Entry.core_content r.core_entry
  have h := hbefore.of_sameCores hcores hcores' (set.skeleton_check library) (set'.skeleton_check _)
  refine ⟨h, fun target htarget => ?_, fun base hdefine => ?_,
    copies.relations_check arranged.addressed
    arranged'.addressed orderly orderly' h⟩
  · rw [citations?, citations?, (sameTags_check orderly' _).references?_eq orderly'.identified,
      (sameTags_check orderly _).references?_eq orderly.identified]
    exact copies.citations target htarget
  · rw [progeny?, (sameKin_check orderly'.identified _).heirs?_eq,
      (sameKin_check orderly.identified _).heirs?_eq]
    exact copies.progeny base hdefine

end LibrarySet

end SymbolGraph
