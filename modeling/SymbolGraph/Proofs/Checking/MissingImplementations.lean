import SymbolGraph.Proofs.Checking.Implementations
import SymbolGraph.Proofs.Checking.Verdicts

/-!
# What a class owes its interfaces

The interfaces that a class inherits, directly or over others, require their linked functions of it.
What the class lacks is what no function of its own settles (`LibrarySet.Lacks`): a check reports
the class once if it lacks anything, and points to each lacking function once
(`LibrarySet.Addressed.reports_lacking`).

Only names and parameter types of the class's own functions matter, and not their order.  A class
that is, against the rules, among its own interfaces does not lack its own functions, so this holds
for every inheritance graph.
-/

namespace SymbolGraph

open Relation Overriding

/-! ## Bases are top-level declarations -/

lemma Ty.define_of_mem {types : List Ty} {id : DeclId}
    (h : id ∈ types.filterMap Ty.declaration?) : id.define = none := by
  obtain ⟨ty, -, hty⟩ := List.mem_filterMap.1 h
  obtain ⟨category, -, rfl⟩ := Option.map_eq_some_iff.1 hty
  rfl

lemma Body.define_of_mem_superInterfaces {body : Body} {id : DeclId}
    (h : id ∈ body.superInterfaces) : id.define = none := by
  unfold superInterfaces at h
  split at h
  · exact Ty.define_of_mem h
  · cases h

lemma Body.define_of_parent? {body : Body} {id : DeclId} (h : body.parent? = some id) :
    id.define = none := by
  obtain ⟨ty, -, hty⟩ := Option.bind_eq_some_iff.1 h
  obtain ⟨category, -, rfl⟩ := Option.map_eq_some_iff.1 hty
  rfl

namespace LibrarySet

variable {set : LibrarySet}

lemma define_of_mem_interfaceClosure {roots : List DeclId} {start : Option DeclId} {base : DeclId}
    (hroots : ∀ root ∈ roots, root.define = none) (h : base ∈ set.interfaceClosure roots start) :
    base.define = none := by
  obtain ⟨root, hroot, -, hway⟩ := mem_interfaceClosure.1 h
  rcases ReflTransGen.cases_tail hway with rfl | ⟨near, -, hstep, -⟩
  · exact hroots _ hroot
  · unfold superInterfaces at hstep
    cases hfound : set.find? near with
    | none => simp [hfound] at hstep
    | some entry =>
      rw [hfound] at hstep
      exact Body.define_of_mem_superInterfaces hstep

lemma define_of_mem_classAncestors {id base : DeclId} (h : base ∈ set.classAncestors id) :
    base.define = none := by
  obtain ⟨near, -, hstep⟩ := TransGen.tail'_iff.1 (mem_classAncestors.1 h).2
  obtain ⟨entry, -, hparent⟩ := Option.bind_eq_some_iff.1 (Option.mem_toList.1 hstep)
  exact Body.define_of_parent? hparent

/-! ## Functions are listed once -/

section

variable (addressed : set.Addressed)

include addressed

/-- What stands in a slot has the identity of the slot. -/
lemma Addressed.seat_of_slot? {library : LibraryId} {category : Category} {index : Nat}
    {entry : Entry} (hslot : set.slot? library category index = some entry) :
    entry.id.library = library ∧ entry.id.seat = (category, index) ∧ entry.id.owner? = none := by
  have hplace := addressed.place_eq ((recordAt?_slot ..).trans hslot)
  exact ⟨congrArg Place.library hplace,
    Prod.ext (congrArg Place.category hplace) (congrArg Place.index hplace),
    Option.map_eq_none_iff.1 (congrArg Place.member hplace)⟩

/-- The functions of a declaration have identities of their own. -/
lemma Addressed.nodup_functions {library : LibraryId} {category : Category} {index : Nat}
    {entry : Entry} (hslot : set.slot? library category index = some entry) :
    (entry.body.functions.map Symbol.id).Nodup := by
  have hlist {c : Category} {list : List Member} (hc : entry.body.members? c = some list) :
      (list.map Symbol.id).Nodup := by
    refine List.pairwise_map.2 (List.pairwise_iff_getElem.2 fun i j hi hj hlt heq => ?_)
    have hid {k : Nat} (hk : k < list.length) : list[k].id.place
        = ⟨library, category, index, some (c, k)⟩ := addressed.place_eq
      (recordAt?_eq_some.2 (Or.inr ⟨c, k, entry, list, list[k], rfl, hslot, hc,
        List.getElem?_eq_getElem hk, rfl⟩))
    have hplace := hid hi
    rw [heq, hid hj, Place.mk.injEq] at hplace
    simp at hplace
    omega
  cases hbody : entry.body with
  | struct fields functions => exact hlist (c := .structFunction) (by rw [hbody]; rfl)
  | interface info => exact hlist (c := .interfaceFunction) (by rw [hbody]; rfl)
  | «class» info => exact hlist (c := .classFunction) (by rw [hbody]; rfl)
  | _ => exact List.nodup_nil

omit addressed in
/-- A linked function stands in the slot of a top-level declaration. -/
lemma slot?_of_linkedOf (hid : set.Identified) {id : DeclId} {f : Member}
    (hf : f ∈ set.linkedOf id) : ∃ entry, set.find? id = some entry ∧ id.owner? = none ∧
      set.slot? id.library id.category id.index = some entry ∧ f ∈ linkedFunctions entry.body := by
  rw [linkedOf, find?_eq hid] at hf
  rw [find?_eq hid]
  cases hslot : set.slot? id.library id.seat.1 id.seat.2 with
  | none => simp [hslot] at hf
  | some entry =>
    cases howner : id.owner? with
    | none =>
      rw [hslot, Option.bind_some, DeclId.part?, howner] at hf
      rw [Option.bind_some, DeclId.part?, howner]
      rw [DeclId.seat, howner] at hslot
      exact ⟨entry, rfl, rfl, hslot, hf⟩
    | some owner =>
      -- members have no functions
      simp only [hslot, Option.bind_some, DeclId.part?, howner] at hf
      cases hlist : entry.body.members? id.category with
      | none => simp [hlist] at hf
      | some members =>
        cases hm : members[id.index]? <;>
          simp [hlist, hm, linkedFunctions, Member.toEntry, Body.functions] at hf

/-- The functions of some declarations have identities of their own. -/
lemma Addressed.nodup_functionsOf {ids : List DeclId} (hnodup : ids.Nodup)
    (htop : ∀ id ∈ ids, id.define = none) : ((functionsOf set ids).map Symbol.id).Nodup := by
  rw [functionsOf_eq, List.map_flatMap, List.nodup_flatMap]
  refine ⟨fun id _ => ?_, List.Pairwise.imp_of_mem ?_ hnodup⟩
  · by_cases hnone : set.linkedOf id = []
    · rw [hnone]
      exact List.nodup_nil
    · obtain ⟨f, hf⟩ := List.exists_mem_of_ne_nil _ hnone
      obtain ⟨entry, hfound, -, hslot, -⟩ := slot?_of_linkedOf addressed.identified hf
      rw [linkedOf, hfound]
      exact (addressed.nodup_functions hslot).sublist (List.filter_sublist.map _)
  · intro a b ha hb hne f hfa hfb
    obtain ⟨g, hg, rfl⟩ := List.mem_map.1 hfa
    obtain ⟨g', hg', heq⟩ := List.mem_map.1 hfb
    obtain ⟨entry, -, -, hslot, hlinked⟩ := slot?_of_linkedOf addressed.identified hg
    obtain ⟨entry', -, -, hslot', hlinked'⟩ := slot?_of_linkedOf addressed.identified hg'
    obtain ⟨hlibrary, hcategory, hindex, -⟩ := addressed.function_unique hslot'
      (mem_functions_of_linked hlinked').1 hslot (mem_functions_of_linked hlinked).1 heq
    have hdefine := (htop a ha).trans (htop b hb).symm
    obtain ⟨_, _, _, _⟩ := a
    obtain ⟨_, _, _, _⟩ := b
    simp_all

end

/-! ## What is lacking -/

/-- The interfaces of a class require a function that no function of its own settles. -/
def Lacks (set : LibrarySet) (info : ClassInfo) (g : Member) : Prop :=
  set.Requires info g ∧ ∀ own ∈ info.functions, ¬ Settles g own

/-- The functions that a class lacks, in the order in which its interfaces are searched. -/
def lacking (set : LibrarySet) (info : ClassInfo) : List Member :=
  missing info.functions (required set info)

/-- The report on a class that lacks functions. -/
def unimplemented (set : LibrarySet) (entry : Entry) : Report :=
  match entry.body.class? with
  | none => []
  | some info =>
    if (set.lacking info).isEmpty then [] else [notImplemented set entry (set.lacking info)]

lemma mem_lacking {info : ClassInfo} {g : Member} : g ∈ set.lacking info ↔ set.Lacks info g := by
  rw [lacking, mem_missing, mem_required, Lacks]

lemma Addressed.nodup_lacking (addressed : set.Addressed) (info : ClassInfo) :
    ((set.lacking info).map Symbol.id).Nodup := by
  have hrequired : ((required set info).map Symbol.id).Nodup :=
    addressed.nodup_functionsOf (nodup_interfaceClosure ..) fun _ =>
      define_of_mem_interfaceClosure fun _ => Ty.define_of_mem
  exact hrequired.sublist (List.filter_sublist.map _)

/-- Of a library a check reports the valid classes that lack something, one after the other. -/
def LackingReported (set : LibrarySet) (library : LibraryId) : Prop :=
  ∀ lib, set.get? library = some lib → (set.check library).2.withCode .notImplemented =
    ((lib.entries .class).filter Symbol.valid).flatMap set.unimplemented

lemma lackingReported (hid : set.Identified) (library : LibraryId) :
    set.LackingReported library := by
  intro lib hlib
  have hinterface (entry : Entry) :
      (judgeInterface set entry).report.withCode .notImplemented = [] := by
    cases hinfo : entry.body.interface? with
    | none => rw [judgeInterface, hinfo, Report.withCode_nil]
    | some info => exact (withCode_judgeInterface hinfo).2.2
  have hclass (entry : Entry) :
      (judgeClass set entry).report.withCode .notImplemented = set.unimplemented entry := by
    cases hinfo : entry.body.class? with
    | none => rw [judgeClass, unimplemented, hinfo, Report.withCode_nil]
    | some info =>
      rw [(withCode_judgeClass hinfo).2.2, unimplemented, hinfo]
      rfl
  rw [withCode_check hid hlib (by decide), withCode_judge, List.flatMap_eq_nil_iff.2 fun entry _ =>
    hinterface entry, List.nil_append]
  exact List.flatMap_congr fun entry _ => hclass entry

/-! ## Rearranged functions -/

/-- What a class's own function is told by: its name and its parameter types. -/
def heading (f : Member) : String × Option Signature :=
  (f.name, f.body.callable?.map Callable.signature)

lemma settles_heading {g own own' : Member} (h : heading own' = heading own) :
    Settles g own' ↔ Settles g own := by
  obtain ⟨hname, hsignature⟩ := Prod.mk.inj h
  unfold Settles isResolved sameSignature
  rw [hname]
  cases hcallable : own.body.callable? <;> cases hcallable' : own'.body.callable? <;>
    cases g.body.callable? <;> simp_all

/-- Which functions of a class settle a required one does not depend on their order. -/
lemma forall_not_settles_congr {functions functions' : List Member}
    (h : (functions'.map heading).Perm (functions.map heading)) (g : Member) :
    (∀ own ∈ functions', ¬ Settles g own) ↔ ∀ own ∈ functions, ¬ Settles g own := by
  have himp {xs ys : List Member} (h : (ys.map heading).Perm (xs.map heading))
      (hxs : ∀ own ∈ xs, ¬ Settles g own) : ∀ own ∈ ys, ¬ Settles g own := by
    intro own hown hsettles
    obtain ⟨own', hown', heq⟩ := List.mem_map.1 (h.subset (List.mem_map_of_mem hown))
    exact hxs own' hown' ((settles_heading heq).2 hsettles)
  exact ⟨himp h.symm, himp h⟩

lemma settles_self {body : Body} {g : Member} (hg : g ∈ linkedFunctions body) : Settles g g := by
  obtain ⟨-, callable, hcallable⟩ := mem_functions_of_linked hg
  exact settles_of_sameSignature (by simp [sameSignature, hcallable])

/-- The model with other functions in a class. -/
def withFunctions (set : LibrarySet) (id : DeclId) (functions : List Member) : LibrarySet :=
  set.edit id (.body (Body.overMembers .classFunction fun _ => functions))

section

variable (hid : set.Identified)

include hid

/-- What is linked under an identity is linked in the slot. -/
lemma mem_of_mem_linkedOf {id : DeclId} {entry : Entry} {g : Member}
    (hslot : set.slot? id.library id.seat.1 id.seat.2 = some entry) (hg : g ∈ set.linkedOf id) :
    g ∈ linkedFunctions entry.body := by
  obtain ⟨entry', -, howner, hslot', hmem⟩ := slot?_of_linkedOf hid hg
  rw [DeclId.seat, howner] at hslot
  obtain rfl := Option.some.inj (hslot'.symm.trans hslot)
  exact hmem

/-- Nothing in the slot of a class inherits as an interface does. -/
lemma superInterfaces_of_class {id : DeclId} {entry : Entry} {info : ClassInfo}
    (hslot : set.slot? id.library id.seat.1 id.seat.2 = some entry)
    (hbody : entry.body = .class info) :
    set.superInterfaces id = [] := by
  rw [superInterfaces, find?_eq hid, hslot, Option.bind_some]
  cases hpart : id.part? entry with
  | none => rfl
  | some record =>
    unfold DeclId.part? at hpart
    split at hpart
    · obtain rfl := Option.some.inj hpart
      simp [hbody, Body.superInterfaces, Body.interface?]
    · obtain ⟨members, -, hmember⟩ := Option.bind_eq_some_iff.1 hpart
      obtain ⟨member, -, rfl⟩ := Option.map_eq_some_iff.1 hmember
      rfl

lemma find?_withFunctions {target id : DeclId} {functions : List Member}
    (h : ¬ (target.library = id.library ∧ target.seat = id.seat)) :
    (set.withFunctions target functions).find? id = set.find? id := by
  rw [find?_eq hid, withFunctions, find?_eq (hid.edit target _), slot?_edit hid, if_neg h]

end

section

variable (addressed : set.Addressed) {library : LibraryId} {index : Nat} {entry : Entry}
  {info : ClassInfo} (hslot : set.slot? library .class index = some entry)
  (hbody : entry.body = .class info) (functions : List Member)

include addressed hslot hbody

lemma Addressed.slot?_withFunctions :
    (set.withFunctions entry.id functions).slot? library .class index
      = some { entry with body := .class { info with functions := functions } } := by
  obtain ⟨hlibrary, hseat, howner⟩ := addressed.seat_of_slot? hslot
  rw [withFunctions, slot?_edit addressed.identified, if_pos ⟨hlibrary, hseat⟩, hslot,
    Option.map_some, Edit.atSeat, howner]
  simp [Edit.body, Symbol.map, hbody, Body.overMembers]

/-- With rearranged functions a class lacks the same, in the same order. -/
lemma Addressed.lacking_withFunctions
    (hheadings : (functions.map heading).Perm (info.functions.map heading)) :
    (set.withFunctions entry.id functions).lacking { info with functions := functions }
      = set.lacking info := by
  have hid := addressed.identified
  have hid' : (set.withFunctions entry.id functions).Identified := hid.edit entry.id _
  have hseat {id : DeclId} (h : entry.id.library = id.library ∧ entry.id.seat = id.seat) :
      id.library = library ∧ id.seat.1 = .class ∧ id.seat.2 = index := by
    obtain ⟨hlibrary, hseat, -⟩ := addressed.seat_of_slot? hslot
    rw [← h.1, ← h.2, hseat]
    exact ⟨hlibrary, rfl, rfl⟩
  have hslot' := addressed.slot?_withFunctions hslot hbody functions
  have hedges : (set.withFunctions entry.id functions).superInterfaces = set.superInterfaces := by
    funext id
    by_cases h : entry.id.library = id.library ∧ entry.id.seat = id.seat
    · obtain ⟨hlibrary, hcategory, hindex⟩ := hseat h
      rw [superInterfaces_of_class hid (by rw [hlibrary, hcategory, hindex, hslot]) hbody,
        superInterfaces_of_class hid' (by rw [hlibrary, hcategory, hindex, hslot']) rfl]
    · rw [superInterfaces, superInterfaces, find?_withFunctions hid h]
  -- what a class declares itself it does not lack, so only other declarations count
  have hfilter (id : DeclId) : ((set.withFunctions entry.id functions).linkedOf id).filter
        (fun g => decide (∀ own ∈ functions, ¬ Settles g own))
      = (set.linkedOf id).filter fun g => decide (∀ own ∈ info.functions, ¬ Settles g own) := by
    by_cases h : entry.id.library = id.library ∧ entry.id.seat = id.seat
    · obtain ⟨hlibrary, hcategory, hindex⟩ := hseat h
      rw [List.filter_eq_nil_iff.2, List.filter_eq_nil_iff.2]
      · intro g hg hnone
        have hmem := mem_of_mem_linkedOf hid (by rw [hlibrary, hcategory, hindex, hslot]) hg
        rw [hbody] at hmem
        exact of_decide_eq_true hnone g (mem_functions_of_linked hmem).1 (settles_self hmem)
      · intro g hg hnone
        have hmem := mem_of_mem_linkedOf hid' (by rw [hlibrary, hcategory, hindex, hslot']) hg
        exact of_decide_eq_true hnone g (mem_functions_of_linked hmem).1 (settles_self hmem)
    · rw [linkedOf, linkedOf, find?_withFunctions hid h]
      exact List.filter_congr fun g _ => decide_eq_decide.2 (forall_not_settles_congr hheadings g)
  rw [lacking, lacking, missing_eq, missing_eq, required, required, interfaceClosure_congr hedges,
    functionsOf_eq, functionsOf_eq, List.filter_flatMap, List.filter_flatMap]
  exact List.flatMap_congr fun id _ => hfilter id

/-- A function that a class lacks is declared elsewhere, and keeps its name. -/
lemma Addressed.fullName?_withFunctions {g : Member} (hg : g ∈ set.lacking info) :
    (set.withFunctions entry.id functions).fullName? g.id = set.fullName? g.id := by
  obtain ⟨hrequires, hnone⟩ := mem_lacking.1 hg
  have hrequired := mem_required.2 hrequires
  rw [required, functionsOf_eq] at hrequired
  obtain ⟨base, -, hlinked⟩ := List.mem_flatMap.1 hrequired
  obtain ⟨owner, -, -, howner, hmem⟩ := slot?_of_linkedOf addressed.identified hlinked
  obtain ⟨c, -, j, -, hc, -, -, hid, -⟩ :=
    addressed.id_function howner (mem_functions_of_linked hmem).1
  -- A function the class lacks is of another record: were it one of the replaced functions, it
  -- would settle itself.
  have helsewhere : ¬ (entry.id.library = base.library ∧
      entry.id.seat = (base.category, base.index)) := by
    rintro ⟨hlibrary, hseat⟩
    obtain ⟨hlibrary', hseat', -⟩ := addressed.seat_of_slot? hslot
    obtain ⟨hcategory, hindex⟩ := Prod.mk.inj (hseat'.symm.trans hseat)
    rw [← hlibrary', hlibrary, hcategory, hindex] at hslot
    obtain rfl := Option.some.inj (howner.symm.trans hslot)
    rw [hbody] at hmem
    exact hnone g (mem_functions_of_linked hmem).1 (settles_self hmem)
  have howner? : g.id.owner? = some ⟨base.library, base.category, base.index, none⟩ := by
    rw [hid, DeclId.owner?, hc]
  have hfind : (set.withFunctions entry.id functions).find? g.id = set.find? g.id := by
    refine find?_withFunctions addressed.identified ?_
    have hseat : g.id.seat = (base.category, base.index) := by rw [DeclId.seat, howner?]
    rwa [hseat, hid]
  have hfindOwner : (set.withFunctions entry.id functions).find?
      ⟨base.library, base.category, base.index, none⟩
        = set.find? ⟨base.library, base.category, base.index, none⟩ := by
    refine find?_withFunctions addressed.identified ?_
    have hseat : (⟨base.library, base.category, base.index, none⟩ : DeclId).seat
        = (base.category, base.index) := by
      unfold DeclId.seat DeclId.owner?
      cases base.category.owner? <;> rfl
    rwa [hseat]
  rw [fullName?_eq, fullName?_eq, hfind, withFunctions, skeleton_edit _ _ (Edit.KeepsHeader.body _)]
  simp only [howner?]
  rw [← withFunctions, hfindOwner]

/-- So the report on it is the same, to the letter. -/
lemma Addressed.unimplemented_withFunctions
    (hheadings : (functions.map heading).Perm (info.functions.map heading)) :
    (set.withFunctions entry.id functions).unimplemented
        { entry with body := .class { info with functions := functions } }
      = set.unimplemented entry := by
  have hname (g : Member) (hg : g ∈ set.lacking info) :
      displayName (set.withFunctions entry.id functions) g = displayName set g := by
    rw [displayName, displayName, addressed.fullName?_withFunctions hslot hbody functions hg]
  have hlacking := addressed.lacking_withFunctions hslot hbody functions hheadings
  have hreport : notImplemented (set.withFunctions entry.id functions)
      { entry with body := .class { info with functions := functions } } (set.lacking info)
        = notImplemented set entry (set.lacking info) := by
    have hnames := List.map_congr_left fun g hg => congrArg (fun name => s!"`{name}`") (hname g hg)
    have hhere : (set.lacking info).map (declaredHere (set.withFunctions entry.id functions))
        = (set.lacking info).map (declaredHere set) :=
      List.map_congr_left fun g hg => by rw [declaredHere, declaredHere, hname g hg]
    simp only [notImplemented, hnames, hhere]
  rw [unimplemented, unimplemented, hbody]
  simp only [Body.class?, hlacking, hreport]

end

/-- A check reports each valid class that lacks functions once, and points to each of them once.
Its report on a class stays the same when the class's functions are replaced by others with the same
headings in any order. -/
theorem Addressed.reports_lacking (addressed : set.Addressed) (library : LibraryId) :
    set.LackingReported library ∧ ∀ index entry info,
      set.slot? library .class index = some entry → entry.body = .class info →
      (∀ g, g ∈ set.lacking info ↔ set.Lacks info g) ∧
      ((set.lacking info).map Symbol.id).Nodup ∧
      (set.unimplemented entry = [] ↔ ∀ g, ¬ set.Lacks info g) ∧
      (∀ found ∈ set.unimplemented entry, set.unimplemented entry = [found] ∧
        found.1 = entry.document ∧ found.2.severity = .error ∧ found.2.code = .notImplemented ∧
        found.2.range = entry.nameRange ∧
        found.2.related.map Related.location = (set.lacking info).map Symbol.location) ∧
      ∀ functions : List Member, (functions.map heading).Perm (info.functions.map heading) →
        (set.withFunctions entry.id functions).LackingReported library ∧
        ∃ entry', (set.withFunctions entry.id functions).slot? library .class index = some entry' ∧
          entry'.body = .class { info with functions := functions } ∧
          (set.withFunctions entry.id functions).unimplemented entry'
            = set.unimplemented entry := by
  refine ⟨lackingReported addressed.identified library, fun index entry info hslot hbody => ?_⟩
  have hunimplemented : set.unimplemented entry = if (set.lacking info).isEmpty then []
      else [notImplemented set entry (set.lacking info)] := by
    rw [unimplemented, hbody]
    rfl
  refine ⟨fun _ => mem_lacking, addressed.nodup_lacking info, ?_, ?_, fun functions hheadings => ?_⟩
  · have hnone : set.lacking info = [] ↔ ∀ g, ¬ set.Lacks info g := by
      simp only [List.eq_nil_iff_forall_not_mem, mem_lacking]
    rw [← hnone, hunimplemented]
    cases set.lacking info <;> simp
  · intro found hfound
    rw [hunimplemented] at hfound ⊢
    split at hfound
    · cases hfound
    · next hsome =>
      obtain rfl := List.mem_singleton.1 hfound
      refine ⟨if_neg hsome, rfl, rfl, rfl, rfl, ?_⟩
      simp [notImplemented, Diagnostic.relatedTo, Diagnostic.error, declaredHere, Function.comp_def]
  · exact ⟨lackingReported (addressed.identified.edit entry.id _) library, _,
      addressed.slot?_withFunctions hslot hbody functions, rfl,
      addressed.unimplemented_withFunctions hslot hbody functions hheadings⟩

/-- The shelf without readers lacks what its interface requires. -/
theorem stock_reports_lacking : (stock []).Addressed ∧
    ∃ found ∈ ((stock []).check .project).2, found.1 = "shelf.rk" ∧
      found.2.code = .notImplemented ∧
      requiredReader.location ∈ found.2.related.map Related.location := by
  have addressed := addressed_stock []
  obtain ⟨hreported, hclasses⟩ := addressed.reports_lacking .project
  obtain ⟨hmem, -, hnone, hfound, -⟩ := hclasses 0 (shelf []) _ rfl rfl
  have hlacks : requiredReader ∈ (stock []).lacking
      { inherits := [⟨.project, .interface, 0, 0⟩], functions := [] } :=
    (hmem _).2 ⟨⟨_, List.mem_singleton.2 rfl, _, .refl, readable, rfl, List.mem_singleton.2 rfl⟩,
      fun own hown => nomatch hown⟩
  obtain ⟨found, hin⟩ := List.exists_mem_of_ne_nil _ fun h => hnone.1 h _ ((hmem _).1 hlacks)
  obtain ⟨-, hdocument, -, hcode, -, hrelated⟩ := hfound found hin
  refine ⟨addressed, found, ?_, hdocument, hcode, hrelated ▸ List.mem_map_of_mem hlacks⟩
  have hreport : found ∈ ((stock []).check .project).2.withCode .notImplemented := by
    rw [hreported _ rfl]
    exact List.mem_flatMap.2 ⟨shelf [], List.mem_singleton.2 rfl, hin⟩
  exact (List.mem_filter.1 hreport).1

end LibrarySet

end SymbolGraph
