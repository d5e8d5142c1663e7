import SymbolGraph.Proofs.Checking.RelationLists

/-!
# What a class implements

The functions that the interfaces of a class require are looked for among the functions of the
class, in the order in which it declares them.  The search ends at the first function of the name
that has the same parameter types, or whose parameter types did not resolve (`Overriding.Settles`);
the class implements the required function if that one is valid and matches.

So a function that would implement the required one can be hidden by an earlier overload, and
`Addressed.implemented_iff_unobscured` says exactly when: the two ends of the link are written down
if and only if no function that ends the search stands before one that implements.
`overload_obscures_match` is the smallest model in which the order of two overloads decides.
-/

namespace SymbolGraph

open Overriding

/-- Some function of the list is valid and matches the required one, and nothing before it ends the
search. -/
def Overriding.Unobscured (functions : List Member) (required : Member) : Prop :=
  ∃ before own after, functions = before ++ own :: after ∧ own.valid = true ∧
    sameSignature own required = true ∧ ∀ f ∈ before, ¬ Settles required f

lemma Overriding.unobscured_iff {functions : List Member} {required : Member} :
    Unobscured functions required ↔ ∃ own, offer functions required = .implementation own := by
  simp only [offer_eq_implementation_iff]
  constructor
  · rintro ⟨before, own, after, hsplit, hvalid, hsame, hbefore⟩
    exact ⟨own, hvalid, hsame, before, after, hsplit, hbefore⟩
  · rintro ⟨own, hvalid, hsame, before, after, hsplit, hbefore⟩
    exact ⟨before, own, after, hsplit, hvalid, hsame, hbefore⟩

namespace LibrarySet

variable {set : LibrarySet} {library : LibraryId}

/-- After a check the lists at both ends of an implementation say the same. -/
lemma Addressed.mem_implements_check (addressed : set.Addressed) {f : Member}
    (howns : (set.check library).1.Owns library f) (id : DeclId) :
    (id ∈ f.relations.implements ↔ (set.check library).1.Implements library f.id id) ∧
      (id ∈ f.relations.implementedBy ↔ (set.check library).1.Implements library id f.id) := by
  obtain ⟨verdict, htied, -, himplements⟩ := addressed.relations_verdict library
  rw [htied f howns, ← himplements, ← himplements]
  simp [Relations.tied, mem_targetsOf, mem_sourcesOf]

/-- What a class implements is what it offers. -/
lemma Addressed.implements_iff_offer (addressed : set.Addressed) {index : Nat} {entry : Entry}
    {info : ClassInfo} (hslot : set.slot? library .class index = some entry)
    (hvalid : entry.valid = true) (hbody : entry.body = .class info) {own g : Member}
    (hown : own ∈ info.functions) (hg : set.Requires info g) :
    set.Implements library own.id g.id ↔ offer info.functions g = .implementation own := by
  have howns {info : ClassInfo} {g : Member} (hg : set.Requires info g) :
      ∃ library', set.Owns library' g := by
    obtain ⟨_, -, base, -, record, hrecord, hmem⟩ := hg
    exact ⟨base.library, addressed.owns_of_mem hrecord hmem⟩
  have hfunctions {own : Member} (hown : own ∈ info.functions) : own ∈ entry.body.functions := by
    rwa [hbody]
  constructor
  · rintro ⟨index', entry', info', own', hslot', -, hbody', hid, g', hg', hoffer, hgid⟩
    have hown' : own' ∈ entry'.body.functions := by
      rw [hbody']
      exact (offer_eq_implementation hoffer).1
    obtain ⟨-, -, -, rfl, rfl⟩ :=
      addressed.function_unique hslot' hown' hslot (hfunctions hown) hid
    obtain rfl := Body.class.inj (hbody.symm.trans hbody')
    obtain ⟨_, _, _, _, hplace, hmem⟩ := howns hg
    obtain ⟨_, _, _, _, hplace', hmem'⟩ := howns (mem_required.1 hg')
    obtain ⟨-, -, -, -, rfl⟩ := addressed.function_unique hplace' hmem' hplace hmem hgid
    exact hoffer
  · intro hoffer
    exact ⟨index, entry, info, own, hslot, hvalid, hbody, rfl, g, mem_required.2 hg, hoffer, rfl⟩

/-- After a check, a function required by the interfaces of a valid class is tied to one of
the class that matches it exactly when the class has such a function and no overload before it that
ends the search.  A check changes nothing but such ties. -/
theorem Addressed.implemented_iff_unobscured (addressed : set.Addressed) {index : Nat}
    {entry : Entry} {info : ClassInfo}
    (hslot : (set.check library).1.slot? library .class index = some entry)
    (hvalid : entry.valid = true) (hbody : entry.body = .class info) {required : Member}
    (hrequired : (set.check library).1.Requires info required) :
    set.Alike (set.check library).1 ∧
      ((∃ own ∈ info.functions, own.valid = true ∧ sameSignature own required = true ∧
          required.id ∈ own.relations.implements ∧
          (required.id.library = library → own.id ∈ required.relations.implementedBy)) ↔
        Unobscured info.functions required) := by
  have alike := @sameCores_check set (fun _ => False) addressed.identified library
  have after := alike.addressed addressed
  have howns {own : Member} (hown : own ∈ info.functions) :
      (set.check library).1.Owns library own := by
    refine ⟨_, _, entry, hslot, ?_⟩
    rwa [hbody]
  have hoffer {own : Member} (hown : own ∈ info.functions) :=
    after.implements_iff_offer hslot hvalid hbody hown hrequired
  -- Unobscured means that the search ends at a match, which is then recorded on both sides.
  refine ⟨alike, unobscured_iff.trans ?_ |>.symm⟩
  constructor
  · rintro ⟨own, hown⟩
    have hmem := (offer_eq_implementation hown).1
    obtain ⟨hvalid', hsame, -⟩ := offer_eq_implementation_iff.1 hown
    have himplements := (hoffer hmem).2 hown
    refine ⟨own, hmem, hvalid', hsame,
      (addressed.mem_implements_check (howns hmem) _).1.2 himplements, fun hlibrary => ?_⟩
    obtain ⟨_, -, base, -, record, hrecord, hlinked⟩ := hrequired
    have hother := after.owns_of_mem hrecord hlinked
    rw [← (after.owner_function hother).2, hlibrary] at hother
    exact (addressed.mem_implements_check hother _).2.2 himplements
  · rintro ⟨own, hmem, -, -, hid, -⟩
    exact ⟨own, (hoffer hmem).1 ((addressed.mem_implements_check (howns hmem) _).1.1 hid)⟩

/-! ## The order of two overloads -/

/-- A function `read` with some parameter types. -/
def reader (id : DeclId) (types : Signature) : Member :=
  .declare ⟨"read", ⟨⟨id.index, 20⟩, ⟨id.index, 24⟩⟩⟩ "shelf.rk" Arena.root id .pub
    (.callable { params := types.map (⟨none, ·⟩) })

/-- The type that the class of the project defines. -/
def shelfTy : Ty := ⟨.project, .handle, 0, 0⟩

/-- What the interface of the project requires. -/
def requiredReader : Member := reader ⟨.project, .interfaceFunction, 0, some 0⟩ [shelfTy]

def readable : Entry :=
  .declare ⟨"Readable", ⟨⟨0, 10⟩, ⟨0, 18⟩⟩⟩ "shelf.rk" Arena.root
    ⟨.project, .interface, 0, none⟩ .pub
    (.interface { functions := [requiredReader] })

/-- The overloads of `read` in the class. -/
def readers (overloads : List Signature) : List Member :=
  overloads.mapIdx fun index types => reader ⟨.project, .classFunction, index, some 0⟩ types

def shelf (overloads : List Signature) : Entry :=
  .declare ⟨"Shelf", ⟨⟨0, 6⟩, ⟨0, 11⟩⟩⟩ "shelf.rk" Arena.root ⟨.project, .class, 0, none⟩ .pub
    (.class { inherits := [⟨.project, .interface, 0, 0⟩], functions := readers overloads })

/-- A project with an interface that requires `read`, and a class that inherits it. -/
def stock (overloads : List Signature) : LibrarySet :=
  { new "demo" "kernel" with
    project := { Library.new .project "demo" with
      tables := [(.interface, [some readable]), (.class, [some (shelf overloads)])] } }

lemma addressed_stock (overloads : List Signature) : (stock overloads).Addressed := by
  have hreadable : StandsAt .interface 0 readable := by
    refine ⟨rfl, fun c list j m hlist hm => ?_⟩
    cases c <;> simp only [readable, Symbol.declare, Body.members?, reduceCtorEq] at hlist
    rw [← Option.some.inj hlist] at hm
    rcases j with _ | j
    · rw [← Option.some.inj hm]
      exact ⟨rfl, rfl⟩
    · cases hm
  have hshelf : StandsAt .class 0 (shelf overloads) := by
    refine standsAt_class rfl rfl rfl rfl fun j m hm => ?_
    rw [readers, List.getElem?_mapIdx] at hm
    obtain ⟨types, -, rfl⟩ := Option.map_eq_some_iff.1 hm
    rfl
  have hsingle {category : Category} {entry : Entry} (hstands : StandsAt category 0 entry)
      (index : Nat) (other : Entry) (hentry : [some entry][index]? = some (some other)) :
      StandsAt category index other := by
    rcases index with _ | index
    · exact Option.some.inj (Option.some.inj hentry) ▸ hstands
    · cases hentry
  refine addressed_of_tables fun category table htable => ?_
  rcases List.mem_pair.1 htable with heq | heq
  · obtain ⟨rfl, rfl⟩ := Prod.mk.inj heq
    exact ⟨rfl, hsingle hreadable⟩
  · obtain ⟨rfl, rfl⟩ := Prod.mk.inj heq
    exact ⟨rfl, hsingle hshelf⟩

/-- After a check the class is still there, with its overloads and what is required of it. -/
lemma stock_checked (overloads : List Signature) : ∃ entry info required,
    ((stock overloads).check .project).1.slot? .project .class 0 = some entry ∧
      entry.valid = true ∧ entry.body = .class info ∧
      ((stock overloads).check .project).1.Requires info required ∧
      required.core = requiredReader.core ∧
      info.functions.map Member.core = (readers overloads).map Member.core := by
  have hid := (addressed_stock overloads).identified
  have alike := @sameCores_check (stock overloads) (fun _ => False) hid .project
  have hslot : (stock overloads).slot? .project .class 0 = some (shelf overloads) := rfl
  obtain ⟨entry, hentry, hcore⟩ := (alike.symm hid).slot? hslot
  have hvalid : (shelf overloads).core.valid = entry.core.valid := congrArg Symbol.valid hcore
  have hbody : (shelf overloads).body.core = entry.body.core := congrArg Symbol.body hcore
  cases hinfo : entry.body with
  | «class» info =>
    rw [hinfo] at hbody
    have heq := ClassInfo.mk.inj (Body.class.inj hbody)
    have hrequires : (stock overloads).Requires
        { inherits := [⟨.project, .interface, 0, 0⟩] } requiredReader :=
      ⟨_, List.mem_singleton.2 rfl, _, .refl, readable, rfl, List.mem_singleton.2 rfl⟩
    obtain ⟨required, hrequired, hrequiredCore⟩ := alike.requires hid heq.2.1.symm hrequires
    exact ⟨entry, info, required, hentry, hvalid.symm, hinfo, hrequired, hrequiredCore,
      heq.2.2.2.2.1.symm⟩
  | _ => rw [hinfo] at hbody; cases hbody

/-- With the overload that does not resolve in second place, the match is found. -/
theorem match_first_implements : (stock [[shelfTy], [.invalid]]).Addressed ∧
    ∃ entry info required,
      ((stock [[shelfTy], [.invalid]]).check .project).1.slot? .project .class 0 = some entry ∧
      entry.valid = true ∧ entry.body = .class info ∧
      ((stock [[shelfTy], [.invalid]]).check .project).1.Requires info required ∧
      ∃ own ∈ info.functions, own.valid = true ∧ sameSignature own required = true ∧
        required.id ∈ own.relations.implements ∧
        (required.id.library = .project → own.id ∈ required.relations.implementedBy) := by
  have addressed := addressed_stock [[shelfTy], [.invalid]]
  obtain ⟨entry, info, required, hslot, hvalid, hbody, hrequired, hcore, hfunctions⟩ :=
    stock_checked [[shelfTy], [.invalid]]
  refine ⟨addressed, entry, info, required, hslot, hvalid, hbody, hrequired, ?_⟩
  refine (addressed.implemented_iff_unobscured hslot hvalid hbody hrequired).2.2
    (unobscured_iff.2 ?_)
  have hoffer : offer (readers [[shelfTy], [.invalid]]) requiredReader =
      .implementation (reader ⟨.project, .classFunction, 0, some 0⟩ [shelfTy]) := rfl
  obtain ⟨own, hown, -⟩ := offer_core hfunctions.symm hcore hoffer
  exact ⟨own, hown⟩

/-- With that overload in first place the class still has a valid function that matches, and none of
its functions implements what is required. -/
theorem overload_obscures_match : (stock [[.invalid], [shelfTy]]).Addressed ∧
    ∃ entry info required,
      ((stock [[.invalid], [shelfTy]]).check .project).1.slot? .project .class 0 = some entry ∧
      entry.valid = true ∧ entry.body = .class info ∧
      ((stock [[.invalid], [shelfTy]]).check .project).1.Requires info required ∧
      (∃ own ∈ info.functions, own.valid = true ∧ sameSignature own required = true) ∧
      ¬ ∃ own ∈ info.functions, own.valid = true ∧ sameSignature own required = true ∧
        required.id ∈ own.relations.implements := by
  have addressed := addressed_stock [[.invalid], [shelfTy]]
  have after := (@sameCores_check _ (fun _ => False) addressed.identified
    .project).addressed addressed
  obtain ⟨entry, info, required, hslot, hvalid, hbody, hrequired, hcore, hfunctions⟩ :=
    stock_checked [[.invalid], [shelfTy]]
  refine ⟨addressed, entry, info, required, hslot, hvalid, hbody, hrequired, ?_, ?_⟩
  · -- The second overload has the signature that is required ..
    have hmem : (reader ⟨.project, .classFunction, 1, some 0⟩ [shelfTy]).core ∈
        info.functions.map Member.core := by
      rw [hfunctions]
      exact List.mem_map_of_mem (List.mem_cons_of_mem _ (List.mem_singleton.2 rfl))
    obtain ⟨own, hown, hownCore⟩ := List.mem_map.1 hmem
    have hownValid : own.core.valid = true := congrArg Symbol.valid hownCore
    refine ⟨own, hown, hownValid, ?_⟩
    rw [← sameSignature_core, hownCore, hcore]
    rfl
  · -- .. but the search stops at the first one, whose parameter has no known type.
    rintro ⟨own, hown, -, -, hid⟩
    have howns : ((stock [[.invalid], [shelfTy]]).check .project).1.Owns .project own := by
      refine ⟨_, _, entry, hslot, ?_⟩
      rwa [hbody]
    have hoffer := (after.implements_iff_offer hslot hvalid hbody hown hrequired).1
      ((addressed.mem_implements_check howns _).1.1 hid)
    obtain ⟨own', hoffer', -⟩ := offer_core hfunctions hcore.symm hoffer
    exact Offer.noConfusion ((show Offer.unclear = _ from rfl).trans hoffer')

end LibrarySet

end SymbolGraph
