import SymbolGraph.Proofs.Checking.RelationLists
import SymbolGraph.Proofs.Inheritance.Searches
import SymbolGraph.Proofs.Linking.PassInputs

/-!
# What a check reports

A verdict on a library reads names, types and inheritance, and nothing that a verdict writes down.
So on two states of the model that differ in traces only, the verdicts are equal, down to the texts
of the reports (`LibrarySet.SameCores.judge_eq`): the judge of a function cannot tell it from its
core, and a walk along inheritance is determined by the graph (`Walk.Search.unique`).

Hence what a check reports can be read off the verdict on the model as it is before
(`LibrarySet.withCode_check`), and the relations that it leaves off the one on the model as it is
afterwards (`LibrarySet.Addressed.relations_judge`).

Every part of a report has its own code (`Report.Only`), so the reports of one code can be told
apart from the rest (`Report.withCode`).
-/

namespace SymbolGraph

open Overriding

/-! ## Codes -/

namespace Report

/-- The part of a report that has a given code, in order. -/
def withCode (report : Report) (code : DiagnosticCode) : Report :=
  report.filter fun found => found.2.code = code

/-- Everything in the report has one of the codes. -/
def Only (codes : List DiagnosticCode) (report : Report) : Prop :=
  ∀ found ∈ report, found.2.code ∈ codes

variable {code : DiagnosticCode} {codes : List DiagnosticCode} {a b report : Report}

@[simp] lemma withCode_nil : withCode [] code = [] := rfl

@[simp] lemma withCode_append : withCode (a ++ b) code = withCode a code ++ withCode b code :=
  List.filter_append ..

lemma withCode_flatMap {α : Type} (xs : List α) (f : α → Report) :
    withCode (xs.flatMap f) code = xs.flatMap fun x => withCode (f x) code :=
  List.filter_flatMap ..

lemma Only.append (ha : Only codes a) (hb : Only codes b) : Only codes (a ++ b) :=
  fun found hfound => (List.mem_append.1 hfound).elim (ha found) (hb found)

lemma only_flatMap {α : Type} {xs : List α} {f : α → Report} (h : ∀ x ∈ xs, Only codes (f x)) :
    Only codes (xs.flatMap f) := by
  intro found hfound
  obtain ⟨x, hx, hmem⟩ := List.mem_flatMap.1 hfound
  exact h x hx found hmem

lemma Only.withCode_eq_nil (h : Only codes report) (hcode : code ∉ codes) :
    withCode report code = [] :=
  List.filter_eq_nil_iff.2 fun found hfound heq => hcode (of_decide_eq_true heq ▸ h found hfound)

lemma Only.withCode_eq_self (h : Only [code] report) : withCode report code = report :=
  List.filter_eq_self.2 fun found hfound => decide_eq_true (List.mem_singleton.1 (h found hfound))

end Report

namespace Duplicates

lemma only_checkGroup (records : List Entry) :
    Report.Only [.duplicateName, .invalidOverload] (checkGroup records) := by
  intro found hfound
  unfold checkGroup at hfound
  split at hfound
  · cases hfound
  · split at hfound
    · obtain ⟨⟨signed, i⟩, -, hmake⟩ := List.mem_filterMap.1 hfound
      simp only at hmake
      split at hmake
      · cases hmake
      · rw [← Option.some.inj hmake]
        exact List.mem_cons_of_mem _ List.mem_cons_self
    · obtain ⟨⟨record, i⟩, -, rfl⟩ := List.mem_map.1 hfound
      exact List.mem_cons_self

lemma only_checkDuplicates (lib : Library) :
    Report.Only [.duplicateName, .invalidOverload] lib.checkDuplicates := by
  refine Report.Only.append
    (Report.only_flatMap fun space _ => Report.only_flatMap fun group _ => ?_)
    (Report.only_flatMap fun entry _ => Report.only_flatMap fun group _ => only_checkGroup _)
  refine Report.Only.append ?_ (only_checkGroup _)
  split
  · intro found hfound
    obtain ⟨record, -, rfl⟩ := List.mem_map.1 hfound
    exact List.mem_cons_self
  · exact fun _ hfound => absurd hfound List.not_mem_nil

end Duplicates

/-! ## Verdicts read cores -/

namespace Overriding

variable {set : LibrarySet} {f g : Member} {inherited functions functions' : List Member}

instance (required own : Member) : Decidable (Settles required own) :=
  inferInstanceAs (Decidable (_ ∧ _ ∧ _))

/-- What is missing is what no function settles. -/
lemma missing_eq (functions required : List Member) : missing functions required
    = required.filter fun g => decide (∀ own ∈ functions, ¬ Settles g own) := by
  refine List.filter_congr fun g _ => ?_
  split
  · next hmissing => exact (decide_eq_true (offer_eq_missing_iff.1 hmissing)).symm
  · next hother => exact (decide_eq_false fun hnone => hother (offer_eq_missing_iff.2 hnone)).symm

lemma mem_missing {required : List Member} :
    g ∈ missing functions required ↔ g ∈ required ∧ ∀ own ∈ functions, ¬ Settles g own := by
  rw [missing_eq, List.mem_filter, decide_eq_true_eq]

lemma matching_core : (inherited.map Member.core).filter (sameSignature f.core)
    = (inherited.filter (sameSignature f)).map Member.core := by
  rw [List.filter_map]
  exact congrArg _ (List.filter_congr fun g _ => sameSignature_core f g)

lemma differing_core : (fun base => !sameReturns f.core base) ∘ Member.core
    = fun base => !sameReturns f base :=
  funext fun base => congrArg _ (sameReturns_core f base)

lemma judgeInterfaceFunction_core : judgeInterfaceFunction set (inherited.map Member.core) f.core
    = judgeInterfaceFunction set inherited f := by
  simp only [judgeInterfaceFunction, matching_core]
  rw [List.find?_map, differing_core, Option.map_map, List.map_map]
  rfl

lemma judgeOverrides_core : judgeOverrides set (inherited.map Member.core) f.core
    = judgeOverrides set inherited f := by
  simp only [judgeOverrides, matching_core]
  rw [List.filter_map, differing_core, List.map_map, List.map_map]
  rfl

lemma missing_core {required : List Member} :
    missing (functions.map Member.core) (required.map Member.core)
      = (missing functions required).map Member.core := by
  rw [missing_eq, missing_eq, List.filter_map]
  refine congrArg _ (List.filter_congr fun g _ => ?_)
  simp only [Function.comp_apply, List.forall_mem_map, settles_core]

lemma notImplemented_core (entry : Entry) (functions : List Member) :
    notImplemented set entry.core (functions.map Member.core)
      = notImplemented set entry functions := by
  simp only [notImplemented, List.map_map]
  rfl

/-- The verdict on what is offered depends on cores only. -/
lemma judgeOffer_core : judgeOffer set g.core (offer (functions.map Member.core) g.core)
    = judgeOffer set g (offer functions g) := by
  have hsettles : (fun own : Member => own.name = g.core.name && own.body.callable?.isSome &&
        (!isResolved own || sameSignature own g.core)) ∘ Member.core
      = fun own => own.name = g.name && own.body.callable?.isSome &&
        (!isResolved own || sameSignature own g) :=
    funext fun own => Bool.eq_iff_iff.2 (settles_iff.trans (settles_core.trans settles_iff.symm))
  unfold offer
  rw [List.find?_map, hsettles]
  cases functions.find? fun own => own.name = g.name && own.body.callable?.isSome &&
      (!isResolved own || sameSignature own g) with
  | none => rfl
  | some own =>
    have hvalid : own.core.valid = own.valid := rfl
    simp only [Option.map_some, hvalid, sameSignature_core]
    split
    · simp only [judgeOffer, sameReturns_core]
      rfl
    · rfl

/-- Verdicts on the functions of a body that depend on cores only depend on its core only. -/
lemma map_linkedFunctions_core {judge judge' : Member → Verdict}
    (h : ∀ f, judge' f.core = judge f) (body : Body) :
    (linkedFunctions body).map judge = (linkedFunctions body.core).map judge' := by
  rw [linkedFunctions_core, List.map_map]
  exact List.map_congr_left fun f _ => (h f).symm

end Overriding

/-- Bodies with one core are of one kind; classes inherit the same and have the same functions. -/
lemma Body.class?_of_core {body body' : Body} (hcore : body'.core = body.core) :
    (body.class? = none ∧ body'.class? = none) ∨ ∃ info info', body.class? = some info ∧
      body'.class? = some info' ∧ info'.inherits = info.inherits ∧
      info'.functions.map Member.core = info.functions.map Member.core := by
  cases body <;> cases body' <;> simp_all [Body.core, Body.class?]

namespace LibrarySet

variable {set set' : LibrarySet}

/-- The linked functions of the declaration of an identity. -/
def linkedOf (set : LibrarySet) (id : DeclId) : List Member :=
  ((set.find? id).map fun entry => linkedFunctions entry.body).getD []

lemma functionsOf_eq (ids : List DeclId) : functionsOf set ids = ids.flatMap set.linkedOf := by
  induction ids with
  | nil => rfl
  | cons id rest ih =>
    simp only [functionsOf, List.filterMap_cons, List.flatMap_cons, linkedOf] at ih ⊢
    cases set.find? id with
    | none => exact ih
    | some entry => exact congrArg (_ ++ ·) ih

/-- A dotted name is read off headers and namespaces. -/
lemma fullName?_eq (set : LibrarySet) (id : DeclId) : set.fullName? id =
    ((set.find? id).map Entry.core).bind fun entry =>
      ((set.skeleton.get? id.library).map fun lib => lib.spaces.fullName).bind fun fullName =>
        match id.owner? with
        | none => some (Library.qualify (fullName entry.space) entry.name)
        | some owner => ((set.find? owner).map Entry.core).map fun ownerEntry => Library.qualify
            (Library.qualify (fullName ownerEntry.space) ownerEntry.name) entry.name := by
  rw [fullName?, find?, get?_skeleton]
  cases hlib : set.get? id.library with
  | none => rfl
  | some lib =>
    have howner {owner : DeclId} (howner : id.owner? = some owner) :
        set.find? owner = lib.find? owner := by
      rw [find?, DeclId.library_of_owner? howner, hlib, Option.bind_some]
    rw [Option.bind_some, Option.bind_some, Library.fullName?]
    cases lib.find? id with
    | none => rfl
    | some entry =>
      simp only [Option.map_some, Option.bind_some, Library.spaces_skeleton,
        funext lib.spaces.fullName_skeleton]
      cases hmember : id.owner? with
      | none => rfl
      | some owner =>
        simp only [howner hmember]
        cases lib.find? owner <;> rfl

section

variable (h : Alike set set') (hid : set.Identified)

include h hid

lemma SameCores.functionsOf_core (ids : List DeclId) :
    (functionsOf set' ids).map Member.core = (functionsOf set ids).map Member.core := by
  have hread (found : Option Entry) :
      ((found.map fun entry => linkedFunctions entry.body).getD []).map Member.core
        = ((found.map Entry.core).map fun entry => linkedFunctions entry.body).getD [] := by
    cases found with
    | none => rfl
    | some entry => exact (linkedFunctions_core entry.body).symm
  have hlinked (id : DeclId) : (set'.linkedOf id).map Member.core
      = (set.linkedOf id).map Member.core := by
    rw [linkedOf, linkedOf, hread, hread, h.find?_core hid]
  rw [functionsOf_eq, functionsOf_eq, List.map_flatMap, List.map_flatMap]
  exact List.flatMap_congr fun id _ => hlinked id

lemma SameCores.interfaceClosure_eq (roots : List DeclId) (start : Option DeclId) :
    set'.interfaceClosure roots start = set.interfaceClosure roots start :=
  interfaceClosure_congr (congrFun (h.bases_eq hid) .interface) roots start

lemma SameCores.classAncestors_eq (id : DeclId) :
    set'.classAncestors id = set.classAncestors id := by
  have hsearch := @search_classAncestors set' id
  rw [show set'.parents = set.parents from congrFun (h.bases_eq hid) .class] at hsearch
  exact (search_classAncestors id).unique hsearch

lemma SameCores.interfaceLoops_eq (id : DeclId) (roots : List DeclId) :
    set'.interfaceLoops id roots = set.interfaceLoops id roots := by
  rw [Bool.eq_iff_iff, interfaceLoops_iff, interfaceLoops_iff,
    show set'.superInterfaces = set.superInterfaces from congrFun (h.bases_eq hid) .interface]

lemma SameCores.classLoops_eq (id : DeclId) : set'.classLoops id = set.classLoops id := by
  rw [Bool.eq_iff_iff, classLoops_iff, classLoops_iff,
    show set'.parents = set.parents from congrFun (h.bases_eq hid) .class]

variable (hskeleton : set'.skeleton = set.skeleton)

include hskeleton

lemma SameCores.fullName?_eq (id : DeclId) : set'.fullName? id = set.fullName? id := by
  rw [LibrarySet.fullName?_eq, LibrarySet.fullName?_eq, h.find?_core hid, hskeleton]
  simp only [h.find?_core hid]

lemma SameCores.displayName_eq : displayName set' = displayName set :=
  funext fun f => by rw [displayName, displayName, h.fullName?_eq hid hskeleton]

lemma SameCores.returnMismatch_eq : returnMismatch set' = returnMismatch set := by
  funext f g
  simp only [returnMismatch, declaredHere, h.displayName_eq hid hskeleton]

omit hskeleton in
/-- Verdicts on the functions of a declaration, given the functions of others. -/
lemma SameCores.verdicts_eq {judge judge' : List Member → Member → Verdict}
    (hjudge : judge' = judge)
    (hcore : ∀ inherited f, judge (inherited.map Member.core) f.core = judge inherited f)
    {body body' : Body} (hbody : body'.core = body.core) (ids : List DeclId) :
    (linkedFunctions body').map (judge' (functionsOf set' ids))
      = (linkedFunctions body).map (judge (functionsOf set ids)) := by
  rw [hjudge, map_linkedFunctions_core (fun f => hcore (functionsOf set' ids) f),
    map_linkedFunctions_core (fun f => hcore (functionsOf set ids) f), hbody,
    h.functionsOf_core hid]

lemma SameCores.judgeInterface_eq {entry entry' : Entry} (hcore : entry'.core = entry.core) :
    judgeInterface set' entry' = judgeInterface set entry := by
  have hbody : entry'.body.core = entry.body.core := congrArg Symbol.body hcore
  have hentry : entry'.id = entry.id := show entry'.core.id = entry.core.id by rw [hcore]
  have hcircular : circular entry' = circular entry :=
    show circular entry'.core = circular entry.core by rw [hcore]
  have hbases : entry'.body.superInterfaces = entry.body.superInterfaces := by
    rw [← Body.superInterfaces_core, hbody, Body.superInterfaces_core]
  have hkind : entry'.body.interface?.isSome = entry.body.interface?.isSome := by
    have hread (body : Body) : body.core.interface?.isSome = body.interface?.isSome := by
      cases body <;> rfl
    rw [← hread, hbody, hread]
  have hjudge : judgeInterfaceFunction set' = judgeInterfaceFunction set := by
    funext inherited f
    simp only [judgeInterfaceFunction, h.returnMismatch_eq hid hskeleton]
  have hverdicts := h.verdicts_eq hid hjudge (fun _ _ => judgeInterfaceFunction_core) hbody
  unfold judgeInterface
  cases hinterface : entry.body.interface? with
  | none =>
    rw [hinterface, Option.isSome_none, Option.isSome_eq_false_iff,
      Option.isNone_iff_eq_none] at hkind
    rw [hkind]
  | some info =>
    rw [hinterface, Option.isSome_some] at hkind
    obtain ⟨info', hinterface'⟩ := Option.isSome_iff_exists.1 hkind
    rw [hinterface']
    simp only [hbases, hentry, hcircular, h.interfaceLoops_eq hid, h.interfaceClosure_eq hid,
      hverdicts]

lemma SameCores.judgeClass_eq {entry entry' : Entry} (hcore : entry'.core = entry.core) :
    judgeClass set' entry' = judgeClass set entry := by
  have hbody : entry'.body.core = entry.body.core := congrArg Symbol.body hcore
  have hentry : entry'.id = entry.id := show entry'.core.id = entry.core.id by rw [hcore]
  have hcircular : circular entry' = circular entry :=
    show circular entry'.core = circular entry.core by rw [hcore]
  have hjudge : judgeOverrides set' = judgeOverrides set := by
    funext inherited f
    simp only [judgeOverrides, h.returnMismatch_eq hid hskeleton]
  have hoffers : judgeOffer set' = judgeOffer set := by
    funext g offer
    cases offer <;> simp only [judgeOffer, h.returnMismatch_eq hid hskeleton]
  have hreport : notImplemented set' = notImplemented set := by
    funext entry functions
    have hhere : declaredHere set' = declaredHere set :=
      funext fun g => by rw [declaredHere, declaredHere, h.displayName_eq hid hskeleton]
    simp only [notImplemented, h.displayName_eq hid hskeleton, hhere]
  have hverdicts := h.verdicts_eq hid hjudge (fun _ _ => judgeOverrides_core) hbody
  unfold judgeClass
  rcases Body.class?_of_core hbody with ⟨hclass, hclass'⟩ |
    ⟨info, info', hclass, hclass', hinherits, hfunctions⟩
  · rw [hclass, hclass']
  · rw [hclass, hclass']
    have hrequired : (required set' info').map Member.core
        = (required set info).map Member.core := by
      rw [required, required, hinherits, h.interfaceClosure_eq hid, h.functionsOf_core hid]
    -- Offers and missing functions are read off the cores, which the two entries share.
    have hoffered (set : LibrarySet) (functions required : List Member) :
        required.map (fun g => judgeOffer set g (offer functions g)) =
          (required.map Member.core).map fun g =>
            judgeOffer set g (offer (functions.map Member.core) g) := by
      rw [List.map_map]
      exact List.map_congr_left fun g _ => judgeOffer_core.symm
    have hlacking (entry : Entry) (functions required : List Member) :
        (if (missing functions required).isEmpty then []
          else [notImplemented set entry (missing functions required)])
        = if (missing (functions.map Member.core) (required.map Member.core)).isEmpty then []
          else [notImplemented set entry.core
            (missing (functions.map Member.core) (required.map Member.core))] := by
      rw [missing_core, notImplemented_core, List.isEmpty_map]
    simp only [hentry, hcircular, h.classLoops_eq hid, h.classAncestors_eq hid, hverdicts, hreport]
    rw [hoffers, hoffered set info'.functions, hoffered set info.functions, hlacking entry',
      hlacking entry, hrequired, hfunctions, hcore]

omit hid in
/-- The entries of a library stand in the same order. -/
lemma SameCores.entries_core {library : LibraryId} {lib lib' : Library}
    (hlib : set.get? library = some lib) (hlib' : set'.get? library = some lib')
    (category : Category) : (lib'.entries category).map Entry.core
      = (lib.entries category).map Entry.core := by
  have hskeletons : lib'.skeleton = lib.skeleton := by
    have hget := set'.get?_skeleton library
    rw [hskeleton, get?_skeleton, hlib, hlib'] at hget
    exact (Option.some.inj hget).symm
  have hlength : (lib'.table category).length = (lib.table category).length := by
    have hsize := lib'.tableSize_skeleton category
    rw [hskeletons, Library.tableSize_skeleton] at hsize
    exact hsize.symm
  have htable : (lib'.table category).map (Option.map Entry.core)
      = (lib.table category).map (Option.map Entry.core) := by
    refine List.ext_getElem (by simp [hlength]) fun index hindex hindex' => ?_
    have hslot := h.cores library category index id
    rw [core?, core?, LibrarySet.slot?, LibrarySet.slot?, hlib, hlib'] at hslot
    simp only [List.length_map] at hindex hindex'
    simpa [Library.slot?, hindex, hindex'] using hslot
  have hread (lib : Library) : (lib.entries category).map Entry.core
      = ((lib.table category).map (Option.map Entry.core)).filterMap fun slot => slot := by
    rw [Library.entries, List.map_filterMap, List.filterMap_map]
    rfl
  rw [hread, hread, htable]

/-- A verdict reads cores, names and namespaces only. -/
theorem SameCores.judge_eq {library : LibraryId} {lib lib' : Library}
    (hlib : set.get? library = some lib) (hlib' : set'.get? library = some lib') :
    set'.judge lib' = set.judge lib := by
  have hcollect {judge judge' : Entry → Verdict} (category : Category)
      (hjudge : ∀ entry entry' : Entry, entry'.core = entry.core → judge' entry' = judge entry) :
      ((lib'.entries category).filter Symbol.valid).map judge'
        = ((lib.entries category).filter Symbol.valid).map judge := by
    have hread (lib : Library) : ((lib.entries category).filter Symbol.valid).map judge
        = (((lib.entries category).map Entry.core).filter Symbol.valid).map judge := by
      rw [List.filter_map, List.map_map]
      refine List.map_congr_left fun entry _ => ?_
      rw [Function.comp_apply, ← hjudge entry entry.core entry.core_core, ← hjudge entry.core _ rfl]
    rw [show judge' = judge from funext fun entry => hjudge entry entry rfl, hread lib', hread lib,
      h.entries_core hskeleton hlib hlib']
  simp only [judge, hcollect .interface fun _ _ => h.judgeInterface_eq hid hskeleton,
    hcollect .class fun _ _ => h.judgeClass_eq hid hskeleton]

/-! ## The verdict of a check -/

end

section

variable (addressed : set.Addressed) {library : LibraryId} {lib : Library}

include addressed

/-- A check leaves the relations of its verdict, which can be read off the model as it is
afterwards. -/
theorem Addressed.relations_judge (hlib : (set.check library).1.get? library = some lib)
    {f : Member} (howns : (set.check library).1.Owns library f) :
    f.relations = Relations.tied f.id ((set.check library).1.judge lib) := by
  have cleared := (@sameCores_clearRelations set (fun _ => False) addressed.identified
    library).addressed addressed
  simp only [check] at hlib howns ⊢
  split at hlib
  · next hnone =>
    rw [hnone] at hlib
    cases hlib
  · next before hbefore =>
    have hrecord := @sameCores_record (set.clearRelations library) (fun _ => False) library
      cleared.identified ((set.clearRelations library).judge before)
    simp only [hbefore] at howns ⊢
    rw [hrecord.judge_eq cleared.identified (skeleton_record ..) hbefore hlib]
    exact cleared.relations_record hbefore (fun f => addressed.untied_clearRelations) howns

end

/-- What a check reports, duplicates apart, can be read off the model as it is before. -/
theorem withCode_check (hid : set.Identified) {library : LibraryId} {lib : Library}
    (hlib : set.get? library = some lib) {code : DiagnosticCode}
    (hcode : code ∉ [.duplicateName, .invalidOverload]) :
    (set.check library).2.withCode code = (set.judge lib).report.withCode code := by
  have hclear := @sameCores_clearRelations set (fun _ => False) hid library
  have hget := (set.clearRelations library).get?_skeleton library
  rw [skeleton_clearRelations, get?_skeleton, hlib, Option.map_some] at hget
  obtain ⟨cleared, hcleared, -⟩ := Option.map_eq_some_iff.1 hget.symm
  simp only [check, hcleared]
  rw [Report.withCode_append, (Duplicates.only_checkDuplicates _).withCode_eq_nil hcode,
    List.nil_append, hclear.judge_eq hid (set.skeleton_clearRelations library) hlib hcleared]

/-- A report on a library goes through the valid interfaces, and then through the valid classes. -/
lemma withCode_judge (lib : Library) (code : DiagnosticCode) :
    (set.judge lib).report.withCode code =
      ((lib.entries .interface).filter Symbol.valid).flatMap
        (fun entry => (judgeInterface set entry).report.withCode code) ++
      ((lib.entries .class).filter Symbol.valid).flatMap
        fun entry => (judgeClass set entry).report.withCode code := by
  rw [judge, Verdict.report_append, Verdict.report_join, Verdict.report_join,
    Report.withCode_append, Report.withCode_flatMap, Report.withCode_flatMap, List.flatMap_map,
    List.flatMap_map]

end LibrarySet

/-! ## Reports code by code -/

namespace Overriding

variable {set : LibrarySet} {entry : Entry}

lemma only_circular (loops : Bool) :
    Report.Only [.circularInheritance] (if loops then [circular entry] else []) := by
  cases loops
  · exact fun _ hfound => absurd hfound List.not_mem_nil
  · exact List.forall_mem_singleton.2 List.mem_cons_self

lemma only_notImplemented (lacking : List Member) : Report.Only [.notImplemented]
    (if lacking.isEmpty then [] else [notImplemented set entry lacking]) := by
  split
  · exact fun _ hfound => absurd hfound List.not_mem_nil
  · exact List.forall_mem_singleton.2 List.mem_cons_self

lemma only_judgeInterfaceFunction (inherited : List Member) (f : Member) :
    Report.Only [.returnTypeMismatch] (judgeInterfaceFunction set inherited f).report := by
  intro found hfound
  obtain ⟨base, -, rfl⟩ := Option.map_eq_some_iff.1 (Option.mem_toList.1 hfound)
  exact List.mem_cons_self

lemma only_judgeOverrides (inherited : List Member) (f : Member) :
    Report.Only [.returnTypeMismatch] (judgeOverrides set inherited f).report := by
  intro found hfound
  obtain ⟨base, -, rfl⟩ := List.mem_map.1 hfound
  exact List.mem_cons_self

lemma only_judgeOffer (g : Member) (offer : Offer) :
    Report.Only [.returnTypeMismatch] (judgeOffer set g offer).report := by
  cases offer with
  | implementation own =>
    simp only [judgeOffer]
    split
    · exact fun _ hfound => absurd hfound List.not_mem_nil
    · exact List.forall_mem_singleton.2 List.mem_cons_self
  | _ => exact fun _ hfound => absurd hfound List.not_mem_nil

/-- A report on an interface. -/
lemma withCode_judgeInterface {info : InterfaceInfo} (hinfo : entry.body.interface? = some info) :
    (judgeInterface set entry).report.withCode .circularInheritance =
      (if set.interfaceLoops entry.id entry.body.superInterfaces then [circular entry] else []) ∧
    (judgeInterface set entry).report.withCode .returnTypeMismatch =
      (linkedFunctions entry.body).flatMap (fun f => (judgeInterfaceFunction set (functionsOf set
        (set.interfaceClosure entry.body.superInterfaces (some entry.id))) f).report) ∧
    (judgeInterface set entry).report.withCode .notImplemented = [] := by
  have hloops := @only_circular entry (set.interfaceLoops entry.id entry.body.superInterfaces)
  have hfunctions := Report.only_flatMap fun f (_ : f ∈ linkedFunctions entry.body) =>
    @only_judgeInterfaceFunction set (functionsOf set
      (set.interfaceClosure entry.body.superInterfaces (some entry.id))) f
  have hparts : (judgeInterface set entry).report =
      (if set.interfaceLoops entry.id entry.body.superInterfaces then [circular entry] else []) ++
      (linkedFunctions entry.body).flatMap (fun f => (judgeInterfaceFunction set (functionsOf set
        (set.interfaceClosure entry.body.superInterfaces (some entry.id))) f).report) := by
    simp only [judgeInterface, hinfo, Verdict.report_append, Verdict.report_join, List.flatMap_map]
  simp only [hparts, Report.withCode_append]
  refine ⟨?_, ?_, ?_⟩
  · rw [hloops.withCode_eq_self, hfunctions.withCode_eq_nil (by decide), List.append_nil]
  · rw [hloops.withCode_eq_nil (by decide), hfunctions.withCode_eq_self, List.nil_append]
  · rw [hloops.withCode_eq_nil (by decide), hfunctions.withCode_eq_nil (by decide), List.nil_append]

/-- A report on a class. -/
lemma withCode_judgeClass {info : ClassInfo} (hinfo : entry.body.class? = some info) :
    (judgeClass set entry).report.withCode .circularInheritance =
      (if set.classLoops entry.id then [circular entry] else []) ∧
    (judgeClass set entry).report.withCode .returnTypeMismatch =
      (linkedFunctions entry.body).flatMap
        (fun f => (judgeOverrides set (functionsOf set (set.classAncestors entry.id)) f).report) ++
      (required set info).flatMap
        (fun g => (judgeOffer set g (offer info.functions g)).report) ∧
    (judgeClass set entry).report.withCode .notImplemented =
      (if (missing info.functions (required set info)).isEmpty then []
        else [notImplemented set entry (missing info.functions (required set info))]) := by
  -- Each of the four parts of the report has findings of a single code.
  have hloops := @only_circular entry (set.classLoops entry.id)
  have hoverrides := Report.only_flatMap fun f (_ : f ∈ linkedFunctions entry.body) =>
    @only_judgeOverrides set (functionsOf set (set.classAncestors entry.id)) f
  have hoffers := Report.only_flatMap fun g (_ : g ∈ required set info) =>
    @only_judgeOffer set g (offer info.functions g)
  have hlacking := @only_notImplemented set entry (missing info.functions (required set info))
  have hparts : (judgeClass set entry).report =
      (if set.classLoops entry.id then [circular entry] else []) ++
      (linkedFunctions entry.body).flatMap
        (fun f => (judgeOverrides set (functionsOf set (set.classAncestors entry.id)) f).report) ++
      (required set info).flatMap
        (fun g => (judgeOffer set g (offer info.functions g)).report) ++
      (if (missing info.functions (required set info)).isEmpty then []
        else [notImplemented set entry (missing info.functions (required set info))]) := by
    simp only [judgeClass, hinfo, Verdict.report_append, Verdict.report_join, List.flatMap_map]
  simp only [hparts, Report.withCode_append]
  refine ⟨?_, ?_, ?_⟩
  · rw [hloops.withCode_eq_self, hoverrides.withCode_eq_nil (by decide),
      hoffers.withCode_eq_nil (by decide), hlacking.withCode_eq_nil (by decide), List.append_nil,
      List.append_nil, List.append_nil]
  · rw [hloops.withCode_eq_nil (by decide), hoverrides.withCode_eq_self, hoffers.withCode_eq_self,
      hlacking.withCode_eq_nil (by decide), List.nil_append, List.append_nil]
  · rw [hloops.withCode_eq_nil (by decide), hoverrides.withCode_eq_nil (by decide),
      hoffers.withCode_eq_nil (by decide), hlacking.withCode_eq_self, List.nil_append,
      List.nil_append, List.nil_append]

end Overriding

end SymbolGraph
