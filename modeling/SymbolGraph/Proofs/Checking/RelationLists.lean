import SymbolGraph.Proofs.Checking.FunctionTies
import SymbolGraph.Proofs.Inheritance.Walks

/-!
# The relations that a check leaves

Checking a library first forgets the relations of all its functions, then works out pairs of
functions that belong together, and writes each pair down at both ends.  The pairs depend on cores
only, so they can be read off the model before the check as well as after it.

In an addressed model the outcome is exact: a function overrides the functions that match it above
its declaration (`Walk.Above`), and the lists of the other end are the inverse.  Nothing is assumed
about the inheritance graph.
-/

namespace SymbolGraph

open Overriding

/-! ## Cores of functions -/

namespace Overriding

lemma sameSignature_core (a b : Member) : sameSignature a.core b.core = sameSignature a b := by
  obtain ⟨_, _, _, _, _, _, _, _, body⟩ := a
  obtain ⟨_, _, _, _, _, _, _, _, body'⟩ := b
  cases body <;> cases body' <;> rfl

lemma sameReturns_core (a b : Member) : sameReturns a.core b.core = sameReturns a b := by
  obtain ⟨_, _, _, _, _, _, _, _, body⟩ := a
  obtain ⟨_, _, _, _, _, _, _, _, body'⟩ := b
  cases body <;> cases body' <;> rfl

lemma isResolved_core (m : Member) : isResolved m.core = isResolved m := by
  obtain ⟨_, _, _, _, _, _, _, _, body⟩ := m
  cases body <;> rfl

lemma functions_core (body : Body) : body.core.functions = body.functions.map Member.core := by
  cases body <;> rfl

lemma linkedFunctions_core (body : Body) :
    linkedFunctions body.core = (linkedFunctions body).map Member.core := by
  rw [linkedFunctions, functions_core, List.filter_map, linkedFunctions]
  exact congrArg _ (List.filter_congr fun f _ => congrArg (f.valid && ·) (isResolved_core f))

lemma class?_eq_some {body : Body} {info : ClassInfo} :
    body.class? = some info ↔ body = .class info := by
  cases body <;> simp [Body.class?]

/-- Linked functions are found again in a body with the same core. -/
lemma exists_linkedFunction {body body' : Body} (hcore : body'.core = body.core) {f : Member}
    (hf : f ∈ linkedFunctions body) : ∃ f' ∈ linkedFunctions body', f'.core = f.core := by
  have hmem : f.core ∈ (linkedFunctions body).map Member.core := List.mem_map_of_mem hf
  rw [← linkedFunctions_core, ← hcore, linkedFunctions_core] at hmem
  exact List.mem_map.1 hmem

/-- A function ends the search for what implements a required one: it has the name, and its
parameter types are the same or did not resolve. -/
def Settles (required own : Member) : Prop :=
  own.name = required.name ∧ own.body.callable?.isSome = true ∧
    (isResolved own = false ∨ sameSignature own required = true)

lemma settles_of_sameSignature {required own : Member}
    (h : sameSignature own required = true) : Settles required own := by
  unfold sameSignature at h
  split at h
  · next callable _ hcallable _ =>
    simp only [Bool.and_eq_true, decide_eq_true_eq] at h
    refine ⟨h.1, by rw [hcallable]; rfl, Or.inr ?_⟩
    simp [sameSignature, *]
  · cases h

lemma settles_iff {required own : Member} : (own.name = required.name &&
    own.body.callable?.isSome && (!isResolved own || sameSignature own required)) = true ↔
      Settles required own := by
  simp [Settles, and_assoc]

/-- Nothing is offered if no function ends the search. -/
lemma offer_eq_missing_iff {functions : List Member} {required : Member} :
    offer functions required = .missing ↔ ∀ own ∈ functions, ¬ Settles required own := by
  unfold offer
  split
  · next hnone =>
    refine iff_of_true rfl fun own hown hsettles => ?_
    exact List.find?_eq_none.1 hnone own hown (settles_iff.2 hsettles)
  · next own hfound =>
    have hsettles := List.find?_some hfound
    refine iff_of_false ?_ fun hnone => hnone own (List.mem_of_find?_eq_some hfound)
      (settles_iff.1 hsettles)
    split <;> exact Offer.noConfusion

/-- What a class offers is the function at which the search ends, if that one is valid and
matches. -/
lemma offer_eq_implementation_iff {functions : List Member} {required own : Member} :
    offer functions required = .implementation own ↔
      own.valid = true ∧ sameSignature own required = true ∧
        ∃ before after, functions = before ++ own :: after ∧ ∀ f ∈ before,
        ¬ Settles required f := by
  unfold offer
  constructor
  · intro h
    split at h
    · cases h
    · next found hfound =>
      split at h
      · next hfits =>
        obtain rfl := Offer.implementation.inj h
        obtain ⟨-, before, after, hsplit, hbefore⟩ := List.find?_eq_some_iff_append.1 hfound
        refine ⟨(Bool.and_eq_true_iff.1 hfits).1, (Bool.and_eq_true_iff.1 hfits).2, before, after,
          hsplit, fun f hf => ?_⟩
        rw [← settles_iff, Bool.not_eq_true, ← Bool.not_eq_true']
        exact hbefore f hf
      · cases h
  · rintro ⟨hvalid, hsame, before, after, hsplit, hbefore⟩
    have hfound : functions.find? (fun f => f.name = required.name && f.body.callable?.isSome &&
        (!isResolved f || sameSignature f required)) = some own := by
      refine List.find?_eq_some_iff_append.2 ⟨settles_iff.2 (settles_of_sameSignature hsame),
        before, after, hsplit, fun f hf => ?_⟩
      rw [Bool.not_eq_true', ← Bool.not_eq_true, settles_iff]
      exact hbefore f hf
    rw [hfound]
    simp [hvalid, hsame]

lemma settles_core {required own : Member} :
    Settles required.core own.core ↔ Settles required own := by
  have hown : own.core.body.callable?.isSome = own.body.callable?.isSome := by
    obtain ⟨_, _, _, _, _, _, _, _, body⟩ := own
    cases body <;> rfl
  rw [Settles, Settles, sameSignature_core, hown, isResolved_core]
  exact Iff.rfl

/-- What is offered depends on cores only. -/
lemma offer_core {functions functions' : List Member} {required required' own : Member}
    (hfunctions : functions.map Member.core = functions'.map Member.core)
    (hrequired : required'.core = required.core)
    (h : offer functions required = .implementation own) :
    ∃ own', offer functions' required' = .implementation own' ∧ own'.core = own.core := by
  obtain ⟨hvalid, hsame, before, after, rfl, hbefore⟩ := offer_eq_implementation_iff.1 h
  rw [List.map_append, List.map_cons] at hfunctions
  obtain ⟨before', rest, rfl, hmap, hrest⟩ := List.map_eq_append_iff.1 hfunctions.symm
  obtain ⟨own', after', rfl, hown, -⟩ := List.map_eq_cons_iff.1 hrest
  have hvalid' : own'.core.valid = own.core.valid := congrArg Symbol.valid hown
  refine ⟨own', offer_eq_implementation_iff.2 ⟨hvalid'.trans hvalid, ?_, before', after', rfl, ?_⟩,
    hown⟩
  · rw [← sameSignature_core, hown, hrequired, sameSignature_core, hsame]
  · intro f hf hsettles
    obtain ⟨f₀, hf₀, hcore⟩ := List.mem_map.1 (hmap ▸ List.mem_map_of_mem hf)
    rw [← settles_core, hrequired, ← hcore, settles_core] at hsettles
    exact hbefore f₀ hf₀ hsettles

end Overriding

lemma DeclId.part?_core (id : DeclId) (entry : Entry) :
    id.part? entry.core = (id.part? entry).map Entry.core := by
  unfold part?
  split
  · rfl
  · have hbody : entry.core.body = entry.body.core := rfl
    rw [hbody, Body.members?_core]
    cases entry.body.members? id.category with
    | none => rfl
    | some members =>
      simp only [Option.map_some, Option.bind_some, List.getElem?_map]
      cases members[id.index]? <;> rfl

namespace LibrarySet

variable {set set' : LibrarySet}

/-- The declarations whose functions are overridden, one step further up. -/
def bases (set : LibrarySet) : Category → DeclId → List DeclId
  | .class => set.parents
  | .interface => set.superInterfaces
  | _ => fun _ => []

/-- A declaration has a linked function `id` that matches a given one. -/
def Offers (set : LibrarySet) (base : DeclId) (function : Member) (id : DeclId) : Prop :=
  ∃ record, set.find? base = some record ∧
    ∃ g ∈ linkedFunctions record.body, sameSignature function g = true ∧ g.id = id

/-- A linked function of a valid declaration of the library is matched above it. -/
def Overrides (set : LibrarySet) (library : LibraryId) (function overridden : DeclId) : Prop :=
  ∃ category index entry f, set.slot? library category index = some entry ∧ entry.valid = true ∧
    f ∈ linkedFunctions entry.body ∧ f.id = function ∧
    ∃ base, Walk.Above (set.bases category) entry.id base ∧ set.Offers base f overridden

/-- A function of a valid class of the library is what the class offers for a function that its
interfaces require. -/
def Implements (set : LibrarySet) (library : LibraryId) (function implemented : DeclId) : Prop :=
  ∃ index entry info own, set.slot? library .class index = some entry ∧ entry.valid = true ∧
    entry.body = .class info ∧ own.id = function ∧
    ∃ g ∈ required set info, offer info.functions g = .implementation own ∧ g.id = implemented

/-- Two states of the model that differ in traces only. -/
abbrev Alike (set set' : LibrarySet) : Prop := SameCores (fun _ => False) set set'

lemma SameCores.symm (h : Alike set set') (hid : set.Identified) : Alike set' set :=
  ⟨hid, fun l c i hi => (h.cores l c i hi).symm⟩

section

variable (h : Alike set set') (hid : set.Identified)

include h

lemma SameCores.slot? {library : LibraryId} {category : Category} {index : Nat} {entry' : Entry}
    (hslot : set'.slot? library category index = some entry') :
    ∃ entry, set.slot? library category index = some entry ∧ entry'.core = entry.core := by
  have hcore := h.cores library category index id
  rw [core?, hslot, Option.map_some] at hcore
  obtain ⟨entry, hentry, heq⟩ := Option.map_eq_some_iff.1 hcore.symm
  exact ⟨entry, hentry, heq.symm⟩

lemma SameCores.owns {library : LibraryId} {f' : Member} (howns : set'.Owns library f') :
    ∃ f, set.Owns library f ∧ f'.core = f.core := by
  obtain ⟨category, index, entry', hslot', hf'⟩ := howns
  obtain ⟨entry, hslot, hcore⟩ := h.slot? hslot'
  have hmem : f'.core ∈ entry'.body.functions.map Member.core := List.mem_map_of_mem hf'
  have hbody : entry'.body.core = entry.body.core := congrArg Symbol.body hcore
  rw [← functions_core, hbody, functions_core] at hmem
  obtain ⟨f, hf, heq⟩ := List.mem_map.1 hmem
  exact ⟨f, ⟨category, index, entry, hslot, hf⟩, heq.symm⟩

include hid

lemma SameCores.find?_core (id : DeclId) :
    (set'.find? id).map Entry.core = (set.find? id).map Entry.core := by
  have hpart (slot : Option Entry) : (slot.bind id.part?).map Entry.core
      = (slot.map Entry.core).bind id.part? := by
    cases slot with
    | none => rfl
    | some entry => rw [Option.bind_some, Option.map_some, Option.bind_some, DeclId.part?_core]
  rw [find?_eq h.identified, find?_eq hid, hpart, hpart]
  exact congrArg (·.bind id.part?) (h.cores _ _ _ False.elim)

lemma SameCores.bases_eq : set'.bases = set.bases := by
  have hparents : set'.parents = set.parents := by
    funext id
    have hread (found : Option Entry) : (found.bind fun entry => entry.body.parent?)
        = (found.map Entry.core).bind fun entry => entry.body.parent? := by
      cases found with
      | none => rfl
      | some entry => exact (Body.parent?_core entry.body).symm
    rw [LibrarySet.parents, LibrarySet.parents, hread (set'.find? id), hread (set.find? id),
      h.find?_core hid]
  have hinterfaces : set'.superInterfaces = set.superInterfaces := by
    funext id
    have hread (found : Option Entry) : (found.map fun entry => entry.body.superInterfaces)
        = (found.map Entry.core).map fun entry => entry.body.superInterfaces := by
      cases found with
      | none => rfl
      | some entry => exact congrArg some entry.body.superInterfaces_core.symm
    rw [superInterfaces, superInterfaces, hread (set'.find? id), hread (set.find? id),
      h.find?_core hid]
  funext category
  cases category <;> first | exact hparents | exact hinterfaces | rfl

lemma SameCores.offers {base id : DeclId} {f f' : Member} (hf : f'.core = f.core)
    (hoffers : set.Offers base f id) : set'.Offers base f' id := by
  obtain ⟨record, hrecord, g, hg, hsame, rfl⟩ := hoffers
  have hcore := h.find?_core hid base
  rw [hrecord, Option.map_some] at hcore
  obtain ⟨record', hrecord', heq⟩ := Option.map_eq_some_iff.1 hcore
  obtain ⟨g', hg', hcore'⟩ := exists_linkedFunction (congrArg Symbol.body heq) hg
  have hgid : g'.core.id = g.core.id := congrArg Symbol.id hcore'
  refine ⟨record', hrecord', g', hg', ?_, hgid⟩
  rw [← sameSignature_core, hf, hcore', sameSignature_core, hsame]

lemma SameCores.overrides {library : LibraryId} {function overridden : DeclId}
    (hoverrides : set.Overrides library function overridden) :
    set'.Overrides library function overridden := by
  obtain ⟨category, index, entry, f, hslot, hvalid, hf, rfl, base, habove, hoffers⟩ := hoverrides
  obtain ⟨entry', hslot', hcore⟩ := (h.symm hid).slot? hslot
  obtain ⟨f', hf', hfcore⟩ := exists_linkedFunction (congrArg Symbol.body hcore.symm) hf
  have hvalid' : entry.core.valid = entry'.core.valid := congrArg Symbol.valid hcore
  have hentry : entry.core.id = entry'.core.id := congrArg Symbol.id hcore
  have hfid : f'.core.id = f.core.id := congrArg Symbol.id hfcore
  refine ⟨category, index, entry', f', hslot', hvalid'.symm.trans hvalid, hf', hfid, base, ?_,
    h.offers hid hfcore hoffers⟩
  rw [h.bases_eq hid, ← show entry.id = entry'.id from hentry]
  exact habove

omit hid in
/-- Every record keeps its place as long as only traces change. -/
lemma SameCores.addressed (addressed : set.Addressed) : set'.Addressed := by
  refine ⟨h.identified, fun {place record'} hrecord' => ?_⟩
  rcases recordAt?_eq_some.1 hrecord' with ⟨hmember, hslot'⟩ | ⟨c, j, entry', list', m', hmember,
    hslot', hlist', hm', rfl⟩
  · obtain ⟨entry, hslot, hcore⟩ := h.slot? hslot'
    have heq : record'.core.id.place = entry.core.id.place := by rw [hcore]
    have hrecord : set.recordAt? place = some entry :=
      recordAt?_eq_some.2 (Or.inl ⟨hmember, hslot⟩)
    rw [← addressed.place_eq hrecord]
    exact heq
  · obtain ⟨entry, hslot, hcore⟩ := h.slot? hslot'
    have hbody : entry'.body.core = entry.body.core := congrArg Symbol.body hcore
    have hlists := congrArg (fun body : Body => body.members? c) hbody
    simp only [Body.members?_core, hlist', Option.map_some] at hlists
    obtain ⟨list, hlist, heq⟩ := Option.map_eq_some_iff.1 hlists.symm
    have hposition := congrArg (fun list : List Member => list[j]?) heq
    simp only [List.getElem?_map, hm', Option.map_some] at hposition
    obtain ⟨m, hm, hmcore⟩ := Option.map_eq_some_iff.1 hposition
    have heq : m'.core.id.place = m.core.id.place := by rw [hmcore]
    have hrecord : set.recordAt? place = some m.toEntry :=
      recordAt?_eq_some.2 (Or.inr ⟨c, j, entry, list, m, hmember, hslot, hlist, hm, rfl⟩)
    rw [← addressed.place_eq hrecord]
    exact heq

end

/-! ## What a verdict says -/

lemma mem_functionsOf {ids : List DeclId} {g : Member} : g ∈ functionsOf set ids ↔
    ∃ base ∈ ids, ∃ record, set.find? base = some record ∧ g ∈ linkedFunctions record.body := by
  simp only [functionsOf, List.mem_flatMap, List.mem_filterMap]
  constructor
  · rintro ⟨record, ⟨base, hbase, hrecord⟩, hg⟩
    exact ⟨base, hbase, record, hrecord, hg⟩
  · rintro ⟨base, hbase, record, hrecord, hg⟩
    exact ⟨record, ⟨base, hbase, hrecord⟩, hg⟩

/-- The pairs of functions with the functions of some declarations that match them. -/
lemma mem_matches {functions : List Member} {ids : List DeclId} {a b : DeclId} :
    (a, b) ∈ functions.flatMap (fun f =>
        ((functionsOf set ids).filter (sameSignature f)).map fun base => (f.id, base.id)) ↔
      ∃ f ∈ functions, f.id = a ∧ ∃ base ∈ ids, set.Offers base f b := by
  simp only [List.mem_flatMap, List.mem_map, List.mem_filter, mem_functionsOf, Prod.mk.injEq]
  constructor
  · rintro ⟨f, hf, g, ⟨⟨base, hbase, record, hrecord, hg⟩, hsame⟩, ha, hb⟩
    exact ⟨f, hf, ha, base, hbase, record, hrecord, g, hg, hsame, hb⟩
  · rintro ⟨f, hf, ha, base, hbase, record, hrecord, g, hg, hsame, hb⟩
    exact ⟨f, hf, g, ⟨⟨base, hbase, record, hrecord, hg⟩, hsame⟩, ha, hb⟩

lemma implements_judgeInterface (entry : Entry) : (judgeInterface set entry).implements = [] := by
  unfold judgeInterface
  split
  · rfl
  · rw [Verdict.implements_append, Verdict.implements_join, List.nil_append, List.flatMap_map]
    exact List.flatMap_eq_nil_iff.2 fun _ _ => rfl

/-- The linked functions of an interface override what they match in its closure. -/
lemma overrides_judgeInterface {entry : Entry} {info : InterfaceInfo}
    (hinfo : entry.body.interface? = some info) : (judgeInterface set entry).overrides =
      (linkedFunctions entry.body).flatMap fun f =>
        ((functionsOf set (set.interfaceClosure entry.body.superInterfaces (some entry.id))).filter
          (sameSignature f)).map fun base => (f.id, base.id) := by
  simp [judgeInterface, hinfo, List.flatMap_map, judgeInterfaceFunction]

/-- The linked functions of a class override what they match in its ancestors. -/
lemma overrides_judgeClass {entry : Entry} {info : ClassInfo}
    (hinfo : entry.body.class? = some info) : (judgeClass set entry).overrides =
      (linkedFunctions entry.body).flatMap fun f =>
        ((functionsOf set (set.classAncestors entry.id)).filter (sameSignature f)).map
          fun base => (f.id, base.id) := by
  have hoffers : (required set info).flatMap (fun g =>
      (judgeOffer set g (offer info.functions g)).overrides) = [] := by
    refine List.flatMap_eq_nil_iff.2 fun g _ => ?_
    cases offer info.functions g <;> rfl
  simp [judgeClass, hinfo, List.flatMap_map, judgeOverrides, hoffers]

/-- A class implements what it is offered for. -/
lemma implements_judgeClass {entry : Entry} {info : ClassInfo}
    (hinfo : entry.body.class? = some info) : (judgeClass set entry).implements =
      (required set info).flatMap fun g => (judgeOffer set g
        (offer info.functions g)).implements := by
  have hoverrides (inherited functions : List Member) :
      functions.flatMap (fun f => (judgeOverrides set inherited f).implements) = [] :=
    List.flatMap_eq_nil_iff.2 fun _ _ => rfl
  simp [judgeClass, hinfo, List.flatMap_map, hoverrides]

lemma mem_implements_judgeClass {entry : Entry} {info : ClassInfo}
    (hinfo : entry.body.class? = some info) {a b : DeclId} :
    (a, b) ∈ (judgeClass set entry).implements ↔ ∃ g ∈ required set info, ∃ own,
      offer info.functions g = .implementation own ∧ own.id = a ∧ g.id = b := by
  have hoffer (g : Member) (o : Offer) : (a, b) ∈ (judgeOffer set g o).implements ↔
      ∃ own, o = .implementation own ∧ own.id = a ∧ g.id = b := by
    cases o with
    | implementation own =>
      simp only [judgeOffer, List.mem_singleton, Prod.mk.injEq, Offer.implementation.injEq,
        exists_eq_left']
      exact and_congr eq_comm eq_comm
    | _ => simp [judgeOffer]
  simp only [implements_judgeClass hinfo, List.mem_flatMap, hoffer]

lemma mem_functions_of_linked {body : Body} {f : Member} (h : f ∈ linkedFunctions body) :
    f ∈ body.functions ∧ ∃ callable, f.body.callable? = some callable := by
  obtain ⟨hf, hlinked⟩ := List.mem_filter.1 h
  refine ⟨hf, ?_⟩
  have hresolved := (Bool.and_eq_true_iff.1 hlinked).2
  unfold isResolved at hresolved
  split at hresolved
  · next callable hcallable => exact ⟨callable, hcallable⟩
  · cases hresolved

section

variable (addressed : set.Addressed) {library : LibraryId} {index : Nat} {entry : Entry}
  {lib : Library} {a b : DeclId}

include addressed

lemma Addressed.body_of_interface {f : Member}
    (hslot : set.slot? library .interface index = some entry) (hf : f ∈ entry.body.functions) :
    ∃ info, entry.body = .interface info := by
  obtain ⟨c, list, j, -, howner, hlist, -⟩ := addressed.id_function hslot hf
  cases hbody : entry.body with
  | interface info => exact ⟨info, rfl⟩
  | _ => cases c <;> simp_all [Body.members?, Category.owner?]

lemma Addressed.body_of_class {f : Member}
    (hslot : set.slot? library .class index = some entry) (hf : f ∈ entry.body.functions) :
    ∃ info, entry.body = .class info := by
  obtain ⟨c, list, j, -, howner, hlist, -⟩ := addressed.id_function hslot hf
  cases hbody : entry.body with
  | «class» info => exact ⟨info, rfl⟩
  | _ => cases c <;> simp_all [Body.members?, Category.owner?]

lemma Addressed.mem_judgeInterface (hslot : set.slot? library .interface index = some entry) :
    (a, b) ∈ (judgeInterface set entry).overrides ↔ ∃ f ∈ linkedFunctions entry.body, f.id = a ∧
      ∃ base, Walk.Above (set.bases .interface) entry.id base ∧ set.Offers base f b := by
  cases hinfo : entry.body.interface? with
  | none =>
    rw [judgeInterface, hinfo]
    refine iff_of_false List.not_mem_nil ?_
    rintro ⟨f, hf, -⟩
    obtain ⟨info, hbody⟩ := addressed.body_of_interface hslot (mem_functions_of_linked hf).1
    simp [hbody, Body.interface?] at hinfo
  | some info =>
    rw [overrides_judgeInterface hinfo, mem_matches]
    simp only [mem_interfaceClosure_self (addressed.find?_slot hslot), bases]

lemma Addressed.mem_judgeClass (hslot : set.slot? library .class index = some entry) :
    (a, b) ∈ (judgeClass set entry).overrides ↔ ∃ f ∈ linkedFunctions entry.body, f.id = a ∧
      ∃ base, Walk.Above (set.bases .class) entry.id base ∧ set.Offers base f b := by
  cases hinfo : entry.body.class? with
  | none =>
    rw [judgeClass, hinfo]
    refine iff_of_false List.not_mem_nil ?_
    rintro ⟨f, hf, -⟩
    obtain ⟨info, hbody⟩ := addressed.body_of_class hslot (mem_functions_of_linked hf).1
    simp [hbody, Body.class?] at hinfo
  | some info =>
    rw [overrides_judgeClass hinfo, mem_matches]
    simp only [mem_classAncestors, bases]

/-- The functions that a verdict on a library ties to functions further up. -/
lemma Addressed.mem_judge_overrides (hlib : set.get? library = some lib) :
    (a, b) ∈ (set.judge lib).overrides ↔ set.Overrides library a b := by
  have hslot := slot?_of_get? hlib
  simp only [judge, Verdict.overrides_append, Verdict.overrides_join, List.mem_append,
    List.mem_flatMap, List.mem_map, exists_exists_and_eq_and, List.mem_filter, mem_entries]
  constructor
  · rintro (⟨entry, ⟨⟨index, hentry⟩, hvalid⟩, hpair⟩ | ⟨entry, ⟨⟨index, hentry⟩, hvalid⟩, hpair⟩)
    · rw [← hslot] at hentry
      obtain ⟨f, hf, ha, hrest⟩ := (addressed.mem_judgeInterface hentry).1 hpair
      exact ⟨.interface, index, entry, f, hentry, hvalid, hf, ha, hrest⟩
    · rw [← hslot] at hentry
      obtain ⟨f, hf, ha, hrest⟩ := (addressed.mem_judgeClass hentry).1 hpair
      exact ⟨.class, index, entry, f, hentry, hvalid, hf, ha, hrest⟩
  · rintro ⟨category, index, entry, f, hentry, hvalid, hf, ha, base, habove, hoffers⟩
    have hentry' := (hslot category index).symm.trans hentry
    cases category with
    | interface =>
      exact Or.inl ⟨entry, ⟨⟨index, hentry'⟩, hvalid⟩,
        (addressed.mem_judgeInterface hentry).2 ⟨f, hf, ha, base, habove, hoffers⟩⟩
    | «class» =>
      exact Or.inr ⟨entry, ⟨⟨index, hentry'⟩, hvalid⟩,
        (addressed.mem_judgeClass hentry).2 ⟨f, hf, ha, base, habove, hoffers⟩⟩
    | _ =>
      -- nothing lies above a declaration of another category
      obtain ⟨_, hstep, -⟩ := Relation.TransGen.head'_iff.1 habove.2
      cases hstep

omit addressed in
lemma offer_eq_implementation {functions : List Member} {g own : Member}
    (h : offer functions g = .implementation own) :
    own ∈ functions ∧ own.body.callable?.isSome = true := by
  obtain ⟨-, hsame, before, after, rfl, -⟩ := offer_eq_implementation_iff.1 h
  exact ⟨List.mem_append_right _ List.mem_cons_self, (settles_of_sameSignature hsame).2.1⟩

omit addressed in
/-- What a class has to offer as an implementation is a function of it. -/
lemma mem_functions_of_offer {info : ClassInfo} (hinfo : entry.body.class? = some info)
    {g own : Member} (h : offer info.functions g = .implementation own) :
    own ∈ entry.body.functions := by
  rw [class?_eq_some.1 hinfo]
  exact (offer_eq_implementation h).1

omit addressed in
/-- The functions that a verdict on a library ties to functions of interfaces. -/
lemma mem_judge_implements (hlib : set.get? library = some lib) :
    (a, b) ∈ (set.judge lib).implements ↔ set.Implements library a b := by
  have hslot := slot?_of_get? hlib
  have hclass (entry : Entry) : (a, b) ∈ (judgeClass set entry).implements ↔
      ∃ info own, entry.body = .class info ∧ own.id = a ∧
        ∃ g ∈ required set info, offer info.functions g = .implementation own ∧ g.id = b := by
    cases hinfo : entry.body.class? with
    | none =>
      rw [judgeClass, hinfo]
      refine iff_of_false List.not_mem_nil ?_
      rintro ⟨info, own, hbody, -⟩
      simp [hbody, Body.class?] at hinfo
    | some info =>
      have hbody (info' : ClassInfo) : entry.body = .class info' ↔ info' = info := by
        rw [class?_eq_some.1 hinfo, Body.class.injEq]
        exact eq_comm
      simp only [mem_implements_judgeClass hinfo, hbody]
      grind
  simp only [judge, Verdict.implements_append, Verdict.implements_join, List.mem_append,
    List.mem_flatMap, List.mem_map, exists_exists_and_eq_and, List.mem_filter, mem_entries,
    implements_judgeInterface, List.not_mem_nil, and_false, exists_false, false_or, hclass,
    Implements, hslot]
  constructor
  · rintro ⟨entry, ⟨⟨index, hentry⟩, hvalid⟩, info, own, hrest⟩
    exact ⟨index, entry, info, own, hentry, hvalid, hrest⟩
  · rintro ⟨index, entry, info, own, hentry, hvalid, hrest⟩
    exact ⟨entry, ⟨⟨index, hentry⟩, hvalid⟩, info, own, hrest⟩

/-- An offered function is one of a loaded library. -/
lemma Addressed.owns_of_mem {base : DeclId} {record : Entry} {g : Member}
    (hrecord : set.find? base = some record) (hg : g ∈ linkedFunctions record.body) :
    set.Owns base.library g := by
  have hfunctions := (mem_functions_of_linked hg).1
  rw [find?_eq addressed.identified] at hrecord
  obtain ⟨entry, hslot, hpart⟩ := Option.bind_eq_some_iff.1 hrecord
  unfold DeclId.part? at hpart
  split at hpart
  · obtain rfl := Option.some.inj hpart
    exact ⟨_, _, entry, hslot, hfunctions⟩
  · obtain ⟨members, -, hmember⟩ := Option.bind_eq_some_iff.1 hpart
    obtain ⟨member, -, rfl⟩ := Option.map_eq_some_iff.1 hmember
    simp [Member.toEntry, Body.functions] at hfunctions

end

/-- The interfaces of a class require a function: it is linked, and stands in a declaration that
they reach along inheritance. -/
def Requires (set : LibrarySet) (info : ClassInfo) (function : Member) : Prop :=
  ∃ root ∈ info.inherits.filterMap Ty.declaration?, ∃ base,
    Relation.ReflTransGen (fun a b => b ∈ set.superInterfaces a) root base ∧
    ∃ record, set.find? base = some record ∧ function ∈ linkedFunctions record.body

lemma mem_required {info : ClassInfo} {g : Member} :
    g ∈ required set info ↔ set.Requires info g := by
  simp only [required, mem_functionsOf, mem_interfaceClosure_none, Requires]
  constructor
  · rintro ⟨base, ⟨root, hroot, hway⟩, hrecord⟩
    exact ⟨root, hroot, base, hway, hrecord⟩
  · rintro ⟨root, hroot, base, hway, hrecord⟩
    exact ⟨base, ⟨root, hroot, hway⟩, hrecord⟩

lemma SameCores.requires (h : Alike set set') (hid : set.Identified) {info info' : ClassInfo}
    (hinherits : info'.inherits = info.inherits) {g : Member} (hg : set.Requires info g) :
    ∃ g', set'.Requires info' g' ∧ g'.core = g.core := by
  obtain ⟨root, hroot, base, hway, record, hrecord, hmem⟩ := hg
  have hcore := h.find?_core hid base
  rw [hrecord, Option.map_some] at hcore
  obtain ⟨record', hrecord', heq⟩ := Option.map_eq_some_iff.1 hcore
  obtain ⟨g', hg', hgcore⟩ := exists_linkedFunction (congrArg Symbol.body heq) hmem
  have hedges : set'.superInterfaces = set.superInterfaces :=
    congrFun (h.bases_eq hid) .interface
  refine ⟨g', ⟨root, ?_, base, ?_, record', hrecord', hg'⟩, hgcore⟩
  · rwa [hinherits]
  · rwa [hedges]

lemma SameCores.implements (h : Alike set set') (hid : set.Identified) {library : LibraryId}
    {function implemented : DeclId} (himplements : set.Implements library function implemented) :
    set'.Implements library function implemented := by
  obtain ⟨index, entry, info, own, hslot, hvalid, hbody, rfl, g, hg, hoffer, rfl⟩ := himplements
  obtain ⟨entry', hslot', hcore⟩ := (h.symm hid).slot? hslot
  have hvalid' : entry.core.valid = entry'.core.valid := congrArg Symbol.valid hcore
  have hbody' : entry.body.core = entry'.body.core := congrArg Symbol.body hcore
  rw [hbody] at hbody'
  cases hentry' : entry'.body with
  | «class» info' =>
    rw [hentry'] at hbody'
    have hinfo := Body.class.inj hbody'
    have hfunctions : info.functions.map Member.core = info'.functions.map Member.core :=
      congrArg ClassInfo.functions hinfo
    have hinherits : info.inherits = info'.inherits := (ClassInfo.mk.inj hinfo).2.1
    obtain ⟨g', hg', hgcore⟩ := h.requires hid hinherits.symm (mem_required.1 hg)
    obtain ⟨own', hoffer', howncore⟩ := offer_core hfunctions hgcore hoffer
    have hownid : own'.core.id = own.core.id := congrArg Symbol.id howncore
    have hgid : g'.core.id = g.core.id := congrArg Symbol.id hgcore
    exact ⟨index, entry', info', own', hslot', hvalid'.symm.trans hvalid, hentry', hownid, g',
      mem_required.2 hg', hoffer', hgid⟩
  | _ => rw [hentry'] at hbody'; cases hbody'

/-- A callable function of a library has an identity `id`. -/
def Ties (set : LibrarySet) (library : LibraryId) (id : DeclId) : Prop :=
  ∃ f, set.Owns library f ∧ f.id = id ∧ f.body.callable?.isSome = true

section

variable (addressed : set.Addressed) {library : LibraryId} {a b : DeclId}

include addressed

lemma Addressed.ties_of_overrides (h : set.Overrides library a b) :
    set.Ties library a ∧ ∃ library', set.Ties library' b := by
  obtain ⟨category, index, entry, f, hslot, -, hf, rfl, base, -, record, hrecord,
    g, hg, -, rfl⟩ := h
  obtain ⟨hmem, callable, hcallable⟩ := mem_functions_of_linked hf
  obtain ⟨-, callable', hcallable'⟩ := mem_functions_of_linked hg
  exact ⟨⟨f, ⟨category, index, entry, hslot, hmem⟩, rfl, by rw [hcallable]; rfl⟩, _, g,
    addressed.owns_of_mem hrecord hg, rfl, by rw [hcallable']; rfl⟩

lemma Addressed.ties_of_implements (h : set.Implements library a b) :
    set.Ties library a ∧ ∃ library', set.Ties library' b := by
  obtain ⟨index, entry, info, own, hslot, -, hbody, rfl, g, hg, hoffer, rfl⟩ := h
  obtain ⟨base, -, record, hrecord, hmem⟩ := mem_functionsOf.1 hg
  obtain ⟨hown, hcallable⟩ := offer_eq_implementation hoffer
  obtain ⟨-, callable', hcallable'⟩ := mem_functions_of_linked hmem
  refine ⟨⟨own, ⟨.class, index, entry, hslot, ?_⟩, rfl, hcallable⟩, _, g,
    addressed.owns_of_mem hrecord hmem, rfl, by rw [hcallable']; rfl⟩
  rw [hbody]
  exact hown

lemma Addressed.relations?_of_ties (h : set.Ties library a) :
    a.owner? ≠ none ∧ a.library = library ∧ ∃ r, set.relations? a = some r := by
  obtain ⟨f, howns, rfl, hcallable⟩ := h
  obtain ⟨howner, hlibrary⟩ := addressed.owner_function howns
  obtain ⟨category, index, entry, hslot, hf⟩ := howns
  obtain ⟨-, -, -, -, -, -, -, -, hfind⟩ := addressed.id_function hslot hf
  obtain ⟨callable, hcallable⟩ := Option.isSome_iff_exists.1 hcallable
  refine ⟨howner, hlibrary, callable.relations, ?_⟩
  rw [relations?, hfind, Option.bind_some]
  exact congrArg (Option.map Callable.relations) hcallable

end

end LibrarySet

/-! ## Forgetting relations -/

/-- No function of a body has relations. -/
def Body.Untied (body : Body) : Prop := ∀ f ∈ body.functions, f.relations = {}

lemma Body.untied_clearRelations (body : Body) : body.clearRelations.Untied := by
  have hclear (members : List Member) : ∀ f ∈ members.map fun m : Member =>
      m.map (Leaf.overCallable fun c => { c with relations := {} }), Member.relations f = {} := by
    intro f hf
    obtain ⟨m, -, rfl⟩ := List.mem_map.1 hf
    rw [Member.relations, Symbol.body_map]
    cases m.body <;> rfl
  cases body with
  | struct fields functions => exact hclear functions
  | interface info => exact hclear info.functions
  | «class» info => exact hclear info.functions
  | _ => exact fun _ hf => nomatch hf

namespace LibrarySet

variable {set : LibrarySet} {library : LibraryId} {category : Category} {index : Nat}

/-- Clearing declarations one by one unties those that are among them, and ties none. -/
lemma untied_foldl {owners : List Entry} (htop : ∀ owner ∈ owners, owner.id.owner? = none)
    (hid : set.Identified)
    (h : (∃ owner ∈ owners, owner.id.library = library ∧ owner.id.seat = (category, index)) ∨
      ∀ entry, set.slot? library category index = some entry → entry.body.Untied) {entry : Entry}
    (hslot : (owners.foldl (fun set owner => set.edit owner.id (.body Body.clearRelations))
      set).slot? library category index = some entry) : entry.body.Untied := by
  induction owners generalizing set with
  | nil => exact h.elim (fun hnone => by simp at hnone) fun huntied => huntied entry hslot
  | cons owner owners ih =>
    refine ih (fun o ho => htop o (List.mem_cons_of_mem _ ho)) (hid.edit owner.id _) ?_ hslot
    by_cases hseat : owner.id.library = library ∧ owner.id.seat = (category, index)
    · refine Or.inr fun entry' hentry' => ?_
      rw [slot?_edit hid, if_pos hseat] at hentry'
      obtain ⟨before, -, rfl⟩ := Option.map_eq_some_iff.1 hentry'
      simp only [Edit.atSeat, htop owner (List.mem_cons_self ..), Edit.body, Symbol.body_map]
      exact before.body.untied_clearRelations
    · rcases h with ⟨o, ho, heq⟩ | huntied
      · rcases List.mem_cons.1 ho with rfl | ho
        · exact absurd heq hseat
        · exact Or.inl ⟨o, ho, heq⟩
      · refine Or.inr fun entry' hentry' => ?_
        rw [slot?_edit hid, if_neg hseat] at hentry'
        exact huntied entry' hentry'

/-- After clearing, no function of the library has relations. -/
lemma Addressed.untied_clearRelations (addressed : set.Addressed) {f : Member}
    (howns : (set.clearRelations library).Owns library f) : f.relations = {} := by
  obtain ⟨category, index, entry, hslot, hf⟩ := howns
  -- The entry that holds `f` came from an entry of `set` at the same slot, so the fold that clears
  -- visited its identity.
  have hcores := @sameCores_clearRelations set (fun _ => False) addressed.identified library
  obtain ⟨before, hbefore, -⟩ := hcores.slot? hslot
  obtain ⟨c, -, -, hc, howner, -⟩ := (hcores.addressed addressed).id_function hslot hf
  have hcategory : category ∈ [Category.struct, .interface, .class] := by
    revert hc howner
    cases c <;> simp [Category.isFunction, Category.owner?] <;> rintro rfl <;> simp
  unfold clearRelations at hslot
  split at hslot
  · next hnone =>
    rw [LibrarySet.slot?, hnone] at hbefore
    cases hbefore
  · next lib hlib =>
    have hplace {c : Category} {i : Nat} {o : Entry} (ho : lib.slot? c i = some o) :
        o.id.place = ⟨library, c, i, none⟩ := by
      refine addressed.place_eq ((recordAt?_slot ..).trans ?_)
      rw [LibrarySet.slot?_of_get? hlib, ho]
    rw [LibrarySet.slot?_of_get? hlib] at hbefore
    -- Entries are top-level records, so clearing them never falls on a member.
    refine untied_foldl (fun owner ho => ?_) addressed.identified
      (Or.inl ⟨before, ?_, ?_⟩) hslot f hf
    · obtain ⟨c, -, ho⟩ := List.mem_flatMap.1 ho
      obtain ⟨i, hi⟩ := mem_entries.1 ho
      exact Option.map_eq_none_iff.1 (congrArg Place.member (hplace hi))
    · exact List.mem_flatMap.2 ⟨category, hcategory, mem_entries.2 ⟨index, hbefore⟩⟩
    · exact ⟨congrArg Place.library (hplace hbefore), Prod.ext
        (congrArg Place.category (hplace hbefore)) (congrArg Place.index (hplace hbefore))⟩

/-! ## After a check -/

lemma targetsOf_eq_nil {id : DeclId} {pairs : List (DeclId × DeclId)}
    (h : ∀ pair ∈ pairs, pair.1 ≠ id) : targetsOf id pairs = [] :=
  List.map_eq_nil_iff.2 (List.filter_eq_nil_iff.2 fun pair hpair => by simpa using h pair hpair)

lemma sourcesOf_eq_nil {id : DeclId} {pairs : List (DeclId × DeclId)}
    (h : ∀ pair ∈ pairs, pair.2 ≠ id) : sourcesOf id pairs = [] :=
  List.map_eq_nil_iff.2 (List.filter_eq_nil_iff.2 fun pair hpair => by simpa using h pair hpair)

/-- Writing the verdict on a library down, where nothing is tied before. -/
lemma Addressed.relations_record (addressed : set.Addressed) {lib : Library}
    (hlib : set.get? library = some lib) (huntied : ∀ f, set.Owns library f → f.relations = {})
    {f : Member} (howns : (record library set (set.judge lib)).Owns library f) :
    f.relations = Relations.tied f.id (set.judge lib) := by
  have hrecord := @sameCores_record set (fun _ => False) library
    addressed.identified (set.judge lib)
  have hoverrides (pair : DeclId × DeclId) (hpair : pair ∈ (set.judge lib).overrides) :=
    addressed.ties_of_overrides ((addressed.mem_judge_overrides hlib).1 hpair)
  have himplements (pair : DeclId × DeclId) (hpair : pair ∈ (set.judge lib).implements) :=
    addressed.ties_of_implements ((mem_judge_implements hlib).1 hpair)
  have howner {pair : DeclId × DeclId} (hties : set.Ties library pair.1 ∧
      ∃ library', set.Ties library' pair.2) : pair.1.owner? ≠ none ∧ pair.2.owner? ≠ none := by
    obtain ⟨hleft, library', hright⟩ := hties
    exact ⟨(addressed.relations?_of_ties hleft).1, (addressed.relations?_of_ties hright).1⟩
  have after := hrecord.addressed addressed
  obtain ⟨f₀, howns₀, hcore⟩ := hrecord.owns howns
  have hid : f.core.id = f₀.core.id := congrArg Symbol.id hcore
  have hempty (r : Relations) (hr : set.relations? f.id = some r) : r = {} := by
    have hnone := huntied f₀ howns₀
    obtain ⟨category, index, entry, hslot, hf₀⟩ := howns₀
    rwa [addressed.relations_eq hslot hf₀, ← show f.id = f₀.id from hid, hr] at hnone
  have htied := relations?_record addressed.identified (after.owner_function howns).1
    (after.owner_function howns).2 (fun pair hpair => howner (hoverrides pair hpair))
    (fun pair hpair => howner (himplements pair hpair)) hempty
  obtain ⟨category, index, entry, hslot, hf⟩ := howns
  rw [after.relations_eq hslot hf, htied]
  cases hfound : set.relations? f.id with
  | some r => rfl
  | none =>
    -- no pair has an end that keeps no relations
    have hne {id : DeclId} (hties : ∃ library', set.Ties library' id) : id ≠ f.id := by
      rintro rfl
      obtain ⟨library', hties⟩ := hties
      obtain ⟨-, -, r, hr⟩ := addressed.relations?_of_ties hties
      rw [hfound] at hr
      cases hr
    rw [Relations.tied, targetsOf_eq_nil fun pair hpair => hne ⟨_, (hoverrides pair hpair).1⟩,
      sourcesOf_eq_nil fun pair hpair => hne (hoverrides pair hpair).2,
      targetsOf_eq_nil fun pair hpair => hne ⟨_, (himplements pair hpair).1⟩,
      sourcesOf_eq_nil fun pair hpair => hne (himplements pair hpair).2]
    rfl

/-- A check ties the functions of the library as one verdict says, which is that on the model after
the check. -/
lemma Addressed.relations_verdict (addressed : set.Addressed) (library : LibraryId) :
    ∃ verdict : Verdict,
      (∀ f, (set.check library).1.Owns library f → f.relations = Relations.tied f.id verdict) ∧
      (∀ {a b}, (a, b) ∈ verdict.overrides ↔ (set.check library).1.Overrides library a b) ∧
      ∀ {a b}, (a, b) ∈ verdict.implements ↔ (set.check library).1.Implements library a b := by
  have hclear := @sameCores_clearRelations set (fun _ => False) addressed.identified library
  have cleared := hclear.addressed addressed
  simp only [check]
  cases hlib : (set.clearRelations library).get? library with
  | none =>
    have hnone {category : Category} {index : Nat} :
        (set.clearRelations library).slot? library category index = none := by
      rw [LibrarySet.slot?, hlib, Option.bind_none]
    refine ⟨{}, fun f => ?_, iff_of_false List.not_mem_nil ?_, iff_of_false List.not_mem_nil ?_⟩
    · rintro ⟨category, index, entry, hslot, -⟩
      rw [hnone] at hslot
      cases hslot
    · rintro ⟨category, index, entry, f, hslot, -⟩
      rw [hnone] at hslot
      cases hslot
    · rintro ⟨index, entry, info, own, hslot, -⟩
      rw [hnone] at hslot
      cases hslot
  | some lib =>
    -- Recording the verdict changes relation lists only, so what overrides and implements what may
    -- be read before or after it.
    have hrecord := @sameCores_record (set.clearRelations library) (fun _ => False) library
      cleared.identified ((set.clearRelations library).judge lib)
    have hback := hrecord.symm cleared.identified
    refine ⟨_, fun f howns => cleared.relations_record hlib
      (fun f howns => addressed.untied_clearRelations howns) howns, ?_, ?_⟩
    · intro a b
      rw [cleared.mem_judge_overrides hlib]
      exact ⟨hrecord.overrides cleared.identified, hback.overrides hrecord.identified⟩
    · intro a b
      rw [mem_judge_implements hlib]
      exact ⟨hrecord.implements cleared.identified, hback.implements hrecord.identified⟩

lemma Addressed.relations_check (addressed : set.Addressed) (library : LibraryId) :
    ∃ verdict : Verdict,
      (∀ f, (set.check library).1.Owns library f → f.relations = Relations.tied f.id verdict) ∧
      (∀ {a b}, (a, b) ∈ verdict.overrides ↔ (set.check library).1.Overrides library a b) ∧
      ∀ {a b}, (a, b) ∈ verdict.implements → (set.check library).1.Ties library a := by
  obtain ⟨verdict, htied, hoverrides, himplements⟩ := addressed.relations_verdict library
  have after := (@sameCores_check set (fun _ => False) addressed.identified
    library).addressed addressed
  exact ⟨verdict, htied, hoverrides,
    fun hpair => (after.ties_of_implements (himplements.1 hpair)).1⟩

/-- What a library's functions keep in a model is what the model says about them: overridden
functions by the inheritance graph, and the inverse lists by the lists at the other end. -/
structure Tied (set : LibrarySet) (library : LibraryId) : Prop where
  /-- A linked function of a valid class overrides the functions that match it in the classes
  above. -/
  of_class : ∀ {index entry}, set.slot? library .class index = some entry → entry.valid = true →
    ∀ f ∈ linkedFunctions entry.body, f.relations.overrides.Nodup ∧ ∀ id,
      id ∈ f.relations.overrides ↔
        ∃ base, Walk.Above set.parents entry.id base ∧ set.Offers base f id
  /-- A linked function of a valid interface overrides those that match it in the interfaces
  above. -/
  of_interface : ∀ {index entry}, set.slot? library .interface index = some entry →
    entry.valid = true → ∀ f ∈ linkedFunctions entry.body, f.relations.overrides.Nodup ∧ ∀ id,
      id ∈ f.relations.overrides ↔
        ∃ base, Walk.Above set.superInterfaces entry.id base ∧ set.Offers base f id
  /-- No other function overrides anything. -/
  of_other : ∀ {category index entry f}, set.slot? library category index = some entry →
    f ∈ entry.body.functions → ¬ ((category = .class ∨ category = .interface) ∧
      entry.valid = true ∧ f ∈ linkedFunctions entry.body) → f.relations.overrides = []
  overriddenBy : ∀ g, set.Owns library g → g.relations.overriddenBy.Nodup ∧ ∀ id,
    id ∈ g.relations.overriddenBy ↔
      ∃ f, set.Owns library f ∧ f.id = id ∧ g.id ∈ f.relations.overrides
  implementedBy : ∀ g, set.Owns library g → g.relations.implementedBy.Nodup ∧ ∀ id,
    id ∈ g.relations.implementedBy ↔
      ∃ f, set.Owns library f ∧ f.id = id ∧ g.id ∈ f.relations.implements

section

variable (addressed : set.Addressed)

include addressed

/-- What is above a function is told by the slot in which it stands. -/
lemma Addressed.overrides_iff {entry : Entry} {f : Member} {id : DeclId}
    (hslot : set.slot? library category index = some entry) (hf : f ∈ entry.body.functions) :
    set.Overrides library f.id id ↔ entry.valid = true ∧ f ∈ linkedFunctions entry.body ∧
      ∃ base, Walk.Above (set.bases category) entry.id base ∧ set.Offers base f id := by
  constructor
  · rintro ⟨category', index', entry', f', hslot', hvalid, hf', heq, hrest⟩
    obtain ⟨-, rfl, rfl, rfl, rfl⟩ := addressed.function_unique hslot'
      (mem_functions_of_linked hf').1 hslot hf heq
    exact ⟨hvalid, hf', hrest⟩
  · rintro ⟨hvalid, hlinked, hrest⟩
    exact ⟨category, index, entry, f, hslot, hvalid, hlinked, rfl, hrest⟩

/-- Checking a library changes nothing but traces, and leaves its functions tied exactly. -/
theorem Addressed.check_ties_exactly (library : LibraryId) :
    set.Alike (set.check library).1 ∧ (set.check library).1.Tied library := by
  have alike := @sameCores_check set (fun _ => False) addressed.identified library
  have after := alike.addressed addressed
  obtain ⟨verdict, htied, hoverrides, himplements⟩ := addressed.relations_check library
  -- Each of the four lists is one side of the verdict's pairs, with repetitions dropped.
  have hends {f : Member} (howns : (set.check library).1.Owns library f) (id : DeclId) :
      (id ∈ f.relations.overrides ↔ (f.id, id) ∈ verdict.overrides) ∧
      (id ∈ f.relations.overriddenBy ↔ (id, f.id) ∈ verdict.overrides) ∧
      (id ∈ f.relations.implements ↔ (f.id, id) ∈ verdict.implements) ∧
      (id ∈ f.relations.implementedBy ↔ (id, f.id) ∈ verdict.implements) := by
    simp [htied f howns, Relations.tied, mem_targetsOf, mem_sourcesOf]
  have hnodup {f : Member} (howns : (set.check library).1.Owns library f) :
      f.relations.overrides.Nodup ∧ f.relations.overriddenBy.Nodup ∧
        f.relations.implementedBy.Nodup := by
    simp [htied f howns, Relations.tied, nodup_addAllNew]
  have hslots {category : Category} {index : Nat} {entry : Entry} {f : Member}
      (hslot : (set.check library).1.slot? library category index = some entry)
      (hf : f ∈ entry.body.functions) (id : DeclId) := ((hends ⟨_, _, entry, hslot, hf⟩ id).1.trans
        hoverrides).trans (after.overrides_iff hslot hf)
  refine ⟨alike, ?_, ?_, ?_, ?_, ?_⟩
  · intro index entry hslot hvalid f hf
    have hmem := (mem_functions_of_linked hf).1
    refine ⟨(hnodup ⟨_, _, entry, hslot, hmem⟩).1, fun id => (hslots hslot hmem id).trans ?_⟩
    simp [hvalid, hf, bases]
  · intro index entry hslot hvalid f hf
    have hmem := (mem_functions_of_linked hf).1
    refine ⟨(hnodup ⟨_, _, entry, hslot, hmem⟩).1, fun id => (hslots hslot hmem id).trans ?_⟩
    simp [hvalid, hf, bases]
  · intro category index entry f hslot hf hother
    refine List.eq_nil_iff_forall_not_mem.2 fun id hid => ?_
    obtain ⟨hvalid, hlinked, base, habove, -⟩ := (hslots hslot hf id).1 hid
    refine hother ⟨?_, hvalid, hlinked⟩
    -- A first step upwards starts at a class or an interface, no other category has one.
    obtain ⟨_, hstep, -⟩ := Relation.TransGen.head'_iff.1 habove.2
    cases category with
    | «class» => exact Or.inl rfl
    | interface => exact Or.inr rfl
    | _ => cases hstep
  · intro g howns
    refine ⟨(hnodup howns).2.1, fun id => (hends howns id).2.1.trans ⟨fun hpair => ?_, ?_⟩⟩
    · obtain ⟨⟨f, hf, rfl, -⟩, -⟩ := after.ties_of_overrides (hoverrides.1 hpair)
      exact ⟨f, hf, rfl, (hends hf g.id).1.2 hpair⟩
    · rintro ⟨f, hf, rfl, hmem⟩
      exact (hends hf g.id).1.1 hmem
  · intro g howns
    refine ⟨(hnodup howns).2.2, fun id => (hends howns id).2.2.2.trans ⟨fun hpair => ?_, ?_⟩⟩
    · obtain ⟨f, hf, rfl, -⟩ := himplements hpair
      exact ⟨f, hf, rfl, (hends hf g.id).2.2.1.2 hpair⟩
    · rintro ⟨f, hf, rfl, hmem⟩
      exact (hends hf g.id).2.2.1.1 hmem

end

/-! ## Small models -/

/-- A declaration of the project has the identity of its slot, and its members have those of their
positions. -/
def StandsAt (category : Category) (index : Nat) (entry : Entry) : Prop :=
  entry.id = ⟨.project, category, index, none⟩ ∧
    ∀ (c : Category) (list : List Member) (j : Nat) (m : Member),
    entry.body.members? c = some list →
      list[j]? = some m → c.owner? = some category ∧ m.id = ⟨.project, c, j, some index⟩

/-- A project with some tables, and nothing else. -/
lemma addressed_of_tables {tables : Assoc Category (List (Option Entry))}
    (h : ∀ category table, (category, table) ∈ tables → category.isMember = false ∧
      ∀ index entry, table[index]? = some (some entry) → StandsAt category index entry) :
    ({ new "demo" "kernel" with
        project := { Library.new .project "demo" with tables := tables } } :
          LibrarySet).Addressed := by
  -- The kernel and the imports hold nothing, so every slot is one of the given tables'.
  have hslot {library : LibraryId} {category : Category} {index : Nat} {entry : Entry}
      (hslot : ({ new "demo" "kernel" with project := { Library.new .project "demo" with
        tables := tables } } : LibrarySet).slot? library category index = some entry) :
      library = .project ∧ category.isMember = false ∧ StandsAt category index entry := by
    obtain ⟨lib, hlib, hslot⟩ := Option.bind_eq_some_iff.1 hslot
    unfold get? at hlib
    split at hlib
    · next hproject =>
      obtain rfl := Option.some.inj hlib
      rw [Library.slot?, Library.table] at hslot
      cases ht : tables.at? category with
      | none => simp [ht] at hslot
      | some table =>
        obtain ⟨htop, hstands⟩ := h category table (Assoc.mem_of_at? ht)
        rw [ht, Option.getD_some, Option.join_eq_some_iff] at hslot
        exact ⟨hproject, htop, hstands index entry hslot⟩
    · split at hlib
      · obtain rfl := Option.some.inj hlib
        cases hslot
      · obtain ⟨slot, -, hslot⟩ := Option.bind_eq_some_iff.1 hlib
        cases hslot
  refine ⟨?_, fun {place record} hrecord => ?_⟩
  · intro library lib hlib
    unfold get? at hlib
    split at hlib
    · next hproject => rw [hproject, ← Option.some.inj hlib]; rfl
    · split at hlib
      · next hkernel => rw [hkernel, ← Option.some.inj hlib]; rfl
      · obtain ⟨slot, -, hslot⟩ := Option.bind_eq_some_iff.1 hlib
        cases hslot
  · obtain ⟨library, category, index, member⟩ := place
    rcases recordAt?_eq_some.1 hrecord with ⟨rfl, hentry⟩ |
      ⟨c, j, entry, list, m, rfl, hentry, hlist, hm, rfl⟩
    · obtain ⟨rfl, htop, hid, -⟩ := hslot hentry
      rw [hid, DeclId.place, DeclId.seat_of_top htop, DeclId.owner?_of_top htop]
      rfl
    · obtain ⟨rfl, -, -, hmembers⟩ := hslot hentry
      obtain ⟨howner, hid⟩ := hmembers c list j m hlist hm
      have hplace : m.id.place = ⟨.project, category, index, some (c, j)⟩ := by
        rw [hid]
        simp [DeclId.place, DeclId.seat, DeclId.owner?, howner]
      exact hplace

/-- A class of the project that has functions only. -/
lemma standsAt_class {index : Nat} {entry : Entry} {info : ClassInfo}
    (hid : entry.id = ⟨.project, .class, index, none⟩) (hbody : entry.body = .class info)
    (hfields : info.fields = []) (hconstructors : info.constructors = [])
    (hfunctions : ∀ (j : Nat) (m : Member), info.functions[j]? = some m →
      m.id = ⟨.project, .classFunction, j, some index⟩) : StandsAt .class index entry := by
  refine ⟨hid, fun c list j m hlist hm => ?_⟩
  cases c <;> simp only [hbody, Body.members?, reduceCtorEq] at hlist
  case classVariable =>
    rw [← Option.some.inj hlist, hfields] at hm
    cases hm
  case constructor =>
    rw [← Option.some.inj hlist, hconstructors] at hm
    cases hm
  case classFunction =>
    rw [← Option.some.inj hlist] at hm
    exact ⟨rfl, hfunctions j m hm⟩

lemma forall_getElem?_singleton {α : Type} {a : α} {P : Nat → α → Prop} (h : P 0 a) (j : Nat)
    (b : α) (hb : [a][j]? = some b) : P j b := by
  rcases j with _ | j
  · exact Option.some.inj hb ▸ h
  · cases hb

/-- A project with two classes and nothing else. -/
lemma addressed_of_pair {a b : Entry} (ha : StandsAt .class 0 a) (hb : StandsAt .class 1 b) :
    ({ new "demo" "kernel" with
        project := { Library.new .project "demo" with
          tables := [(.class, [some a, some b])] } } : LibrarySet).Addressed := by
  refine addressed_of_tables fun category table htable => ?_
  obtain ⟨rfl, rfl⟩ := Prod.mk.inj (List.mem_singleton.1 htable)
  refine ⟨rfl, fun index entry hentry => ?_⟩
  rcases index with _ | _ | index
  · exact Option.some.inj (Option.some.inj hentry) ▸ ha
  · exact Option.some.inj (Option.some.inj hentry) ▸ hb
  · cases hentry

/-- The function `run` of a class of the project. -/
def runner (index : Nat) : Member :=
  .new ⟨"run", ⟨⟨index, 20⟩, ⟨index, 23⟩⟩⟩ "ring.rk" Arena.root
    ⟨.project, .classFunction, 0, some index⟩ .pub

/-- A class of the project whose parent is another one, with the function `run`. -/
def heir (index parent : Nat) : Entry :=
  .declare ⟨"Heir", ⟨⟨index, 6⟩, ⟨index, 10⟩⟩⟩ "ring.rk" Arena.root
    ⟨.project, .class, index, none⟩ .pub
    (.class { parent := some ⟨.project, .handle, parent, 0⟩, functions := [runner index] })

/-- Two classes that inherit from each other. -/
def ring : LibrarySet :=
  { new "demo" "kernel" with
    project := { Library.new .project "demo" with
      tables := [(.class, [some (heir 0 1), some (heir 1 0)])] } }

lemma addressed_ring : ring.Addressed := by
  have hstands (index parent : Nat) : StandsAt .class index (heir index parent) :=
    standsAt_class rfl rfl rfl rfl (forall_getElem?_singleton rfl)
  exact addressed_of_pair (hstands 0 1) (hstands 1 0)

/-- In the ring each function overrides the other. -/
theorem ring_ties_exactly : ring.Addressed ∧ (ring.check .project).1.Tied .project ∧
    ∃ f, (ring.check .project).1.Owns .project f ∧ f.id = ⟨.project, .classFunction, 0, some 0⟩ ∧
      ⟨.project, .classFunction, 0, some 1⟩ ∈ f.relations.overrides := by
  obtain ⟨alike, tied⟩ := addressed_ring.check_ties_exactly .project
  have hid := addressed_ring.identified
  refine ⟨addressed_ring, tied, ?_⟩
  have hslot : ring.slot? .project .class 0 = some (heir 0 1) := rfl
  obtain ⟨entry, hentry, hcore⟩ := (alike.symm hid).slot? hslot
  have hrunner : runner 0 ∈ linkedFunctions (heir 0 1).body := List.mem_singleton.2 rfl
  have hbody : entry.body.core = (heir 0 1).body.core := congrArg Symbol.body hcore.symm
  obtain ⟨f, hf, hfcore⟩ := exists_linkedFunction hbody hrunner
  have hentryId : (heir 0 1).core.id = entry.core.id := congrArg Symbol.id hcore
  have hvalid : (heir 0 1).core.valid = entry.core.valid := congrArg Symbol.valid hcore
  have hfid : f.core.id = (runner 0).core.id := congrArg Symbol.id hfcore
  refine ⟨f, ⟨_, _, entry, hentry, (mem_functions_of_linked hf).1⟩, hfid, ?_⟩
  refine ((tied.of_class hentry hvalid.symm f hf).2 _).2 ⟨⟨.project, .class, 1, none⟩, ⟨?_, ?_⟩, ?_⟩
  · rw [show entry.id = (heir 0 1).id from hentryId.symm]
    decide
  · have hparents : (ring.check .project).1.parents = ring.parents :=
      congrFun (alike.bases_eq hid) .class
    rw [show entry.id = (heir 0 1).id from hentryId.symm, hparents]
    exact .single (List.mem_singleton.2 rfl)
  · exact alike.offers hid hfcore ⟨heir 1 0, rfl, runner 1, List.mem_singleton.2 rfl, rfl, rfl⟩

end LibrarySet

end SymbolGraph
