import Mathlib.Data.List.Forall2
import SymbolGraph.Proofs.Checking.RelationLists
import SymbolGraph.Proofs.Renumbering.Linking

/-!
# Verdicts under other numbers

The check of a library looks at names, parameter types and the inheritance graph.  In models that
match in an area that inheritance does not leave, all of these correspond: a walk along inheritance
meets corresponding declarations in the same order, and a function has the signature of another
exactly if the functions that they correspond to agree (`Member.Matches`).

So the verdicts on a library and on the library that it corresponds to have the same pairs of
functions in the same order, under the new numbers, and reports with the same marks
(`LibrarySet.Matches.judge`).
-/

namespace SymbolGraph

open Overriding

/-! ## Lists that correspond -/

lemma forall₂_of_map_eq {α β γ : Type} {f : α → γ} {g : β → γ} {xs : List α} {ys : List β}
    (h : ys.map g = xs.map f) : List.Forall₂ (fun x y => g y = f x) xs ys := by
  have heq : List.Forall₂ (fun a b => b = a) (xs.map f) (ys.map g) := by
    rw [h]
    exact List.forall₂_same.2 fun _ _ => rfl
  rwa [List.forall₂_map_left_iff, List.forall₂_map_right_iff] at heq

lemma rel_of_map_eq {α β γ : Type} {f : α → γ} {g : β → γ} {x : Option α} {y : Option β}
    (h : y.map g = x.map f) : Option.Rel (fun a b => g b = f a) x y := by
  cases x with
  | none =>
    rw [Option.map_none, Option.map_eq_none_iff] at h
    rw [h]
    exact .none
  | some a =>
    obtain ⟨b, rfl, hb⟩ := Option.map_eq_some_iff.1 h
    exact .some hb

lemma map_eq_of_forall₂ {α β γ : Type} {R : α → β → Prop} {f : α → γ} {g : β → γ} {xs : List α}
    {ys : List β} (h : List.Forall₂ R xs ys) (hR : ∀ x y, R x y → g y = f x) :
    ys.map g = xs.map f := by
  induction h with
  | nil => rfl
  | cons h _ ih => rw [List.map_cons, List.map_cons, hR _ _ h, ih]

/-- The first elements that satisfy corresponding tests correspond. -/
lemma forall₂_find? {α β : Type} {R : α → β → Prop} {p : α → Bool} {q : β → Bool} {xs : List α}
    {ys : List β} (h : List.Forall₂ R xs ys) (hpq : ∀ x y, R x y → q y = p x) :
    Option.Rel R (xs.find? p) (ys.find? q) := by
  induction h with
  | nil => exact .none
  | @cons x y _ _ h _ ih =>
    rw [List.find?_cons, List.find?_cons, hpq x y h]
    cases p x
    · exact ih
    · exact .some h

lemma forall₂_filter {α β : Type} {R : α → β → Prop} {p : α → Bool} {q : β → Bool} {xs : List α}
    {ys : List β} (h : List.Forall₂ R xs ys) (hpq : ∀ x y, R x y → q y = p x) :
    List.Forall₂ R (xs.filter p) (ys.filter q) := by
  induction h with
  | nil => exact .nil
  | @cons x y _ _ h _ ih =>
    rw [List.filter_cons, List.filter_cons, hpq x y h]
    split
    · exact .cons h ih
    · exact ih

/-! ## Functions under other numbers -/

namespace Renumbering

variable (r : Renumbering)

lemma ty_injective : Function.Injective r.ty := Function.LeftInverse.injective r.ty_symm_ty

lemma signature_callable (params : List Parameter) :
    (params.map r.parameter).map Parameter.ty = (params.map Parameter.ty).map r.ty := by
  simp [parameter, Function.comp_def]

lemma callable?_leaf (leaf : Leaf) : (r.leaf leaf).callable?.map Callable.signature
    = (leaf.callable?.map Callable.signature).map (List.map r.ty) := by
  cases leaf with
  | callable info => exact congrArg some (r.signature_callable info.params)
  | _ => rfl

lemma sameSignature_member (a b : Member) :
    sameSignature (r.member a) (r.member b) = sameSignature a b := by
  have hread (a b : Member) : sameSignature a b
      = (a.name = b.name && (a.body.callable?.map Callable.signature).any fun x =>
          (b.body.callable?.map Callable.signature).any fun y => x = y) := by
    unfold sameSignature
    cases a.body.callable? <;> cases b.body.callable? <;> simp
  have hcallable (m : Member) : (r.member m).body.callable?.map Callable.signature
      = (m.body.callable?.map Callable.signature).map (List.map r.ty) := r.callable?_leaf m.body
  have hname (m : Member) : (r.member m).name = m.name := rfl
  rw [hread, hread a b, hcallable, hcallable, hname, hname]
  cases a.body.callable? <;> cases b.body.callable? <;>
    simp [(List.map_injective_iff.2 r.ty_injective).eq_iff]

lemma sameReturns_member (a b : Member) :
    sameReturns (r.member a) (r.member b) = sameReturns a b := by
  have hbody (m : Member) : (r.member m).body = r.leaf m.body := rfl
  unfold sameReturns
  rw [hbody, hbody]
  cases a.body <;> cases b.body <;>
    simp [Renumbering.leaf, Leaf.callable?, (List.map_injective_iff.2 r.ty_injective).eq_iff]

lemma isResolved_member (m : Member) : isResolved (r.member m) = isResolved m := by
  unfold isResolved
  rw [show (r.member m).body = r.leaf m.body from rfl]
  cases m.body with
  | callable info =>
    simp only [Renumbering.leaf, Leaf.callable?, Callable.signature, r.signature_callable,
      Signature.isResolved, List.all_map, Function.comp_def, r.isInvalid_ty]
  | _ => rfl

lemma linkedFunctions_body (body : Body) :
    linkedFunctions (r.body body) = (linkedFunctions body).map r.member := by
  rw [linkedFunctions, r.functions_body, List.filter_map, linkedFunctions]
  refine congrArg _ (List.filter_congr fun f _ => ?_)
  exact congrArg (f.valid && ·) (r.isResolved_member f)

lemma superInterfaces_body (body : Body) :
    (r.body body).superInterfaces = body.superInterfaces.map r.decl := by
  cases body with
  | interface info =>
    simp only [Body.superInterfaces, Renumbering.body, Body.interface?, List.filterMap_map,
      List.map_filterMap, Function.comp_def, r.declaration?_ty]
  | _ => rfl

end Renumbering

/-! ## Records that match -/

/-- The member is the other one under the new numbers, but for traces. -/
def Member.Matches (r : Renumbering) (m m' : Member) : Prop := m'.core = r.member m.core

/-- The record is the other one under the new numbers, but for traces. -/
def Entry.Matches (r : Renumbering) (entry entry' : Entry) :
    Prop := entry'.core = r.entry entry.core

section

variable {r : Renumbering} {a b a' b' : Member} {entry entry' : Entry}

namespace Member.Matches

lemma id (h : a.Matches r a') : a'.id = r.decl a.id := congrArg (·.id) (show a'.core = _ from h)

lemma name (h : a.Matches r a') : a'.name = a.name := congrArg (·.name) (show a'.core = _ from h)

lemma nameRange (h : a.Matches r a') : a'.nameRange = a.nameRange :=
  congrArg (·.nameRange) (show a'.core = _ from h)

lemma document (h : a.Matches r a') : a'.document = a.document :=
  congrArg (·.document) (show a'.core = _ from h)

lemma valid (h : a.Matches r a') : a'.valid = a.valid :=
  congrArg (·.valid) (show a'.core = _ from h)

lemma isResolved (h : a.Matches r a') : Overriding.isResolved a' = Overriding.isResolved a := by
  rw [← isResolved_core, show a'.core = _ from h, r.isResolved_member, isResolved_core]

lemma sameSignature (h : a.Matches r a') (k : b.Matches r b') :
    Overriding.sameSignature a' b' = Overriding.sameSignature a b := by
  rw [← sameSignature_core, show a'.core = _ from h, show b'.core = _ from k,
    r.sameSignature_member, sameSignature_core]

lemma sameReturns (h : a.Matches r a') (k : b.Matches r b') :
    Overriding.sameReturns a' b' = Overriding.sameReturns a b := by
  rw [← sameReturns_core, show a'.core = _ from h, show b'.core = _ from k, r.sameReturns_member,
    sameReturns_core]

lemma callable (h : a.Matches r a') :
    a'.body.callable?.isSome = a.body.callable?.isSome := by
  have hbody : a'.body.core = r.leaf a.body.core := congrArg (·.body) (show a'.core = _ from h)
  cases ha : a.body <;> cases ha' : a'.body <;> rw [ha, ha'] at hbody <;> first | rfl | cases hbody

end Member.Matches

namespace Entry.Matches

lemma id (h : entry.Matches r entry') : entry'.id = r.decl entry.id :=
  congrArg (·.id) (show entry'.core = _ from h)

lemma nameRange (h : entry.Matches r entry') : entry'.nameRange = entry.nameRange :=
  congrArg (·.nameRange) (show entry'.core = _ from h)

lemma document (h : entry.Matches r entry') : entry'.document = entry.document :=
  congrArg (·.document) (show entry'.core = _ from h)

lemma valid (h : entry.Matches r entry') : entry'.valid = entry.valid :=
  congrArg (·.valid) (show entry'.core = _ from h)

lemma body (h : entry.Matches r entry') : entry'.body.core = r.body entry.body.core :=
  congrArg (·.body) (show entry'.core = _ from h)

lemma linkedFunctions (h : entry.Matches r entry') : List.Forall₂ (Member.Matches r)
    (Overriding.linkedFunctions entry.body) (Overriding.linkedFunctions entry'.body) := by
  refine forall₂_of_map_eq (f := fun m : Member => r.member m.core) (g := Member.core) ?_
  rw [← linkedFunctions_core, h.body, r.linkedFunctions_body, linkedFunctions_core, List.map_map]
  rfl

lemma superInterfaces (h : entry.Matches r entry') :
    entry'.body.superInterfaces = entry.body.superInterfaces.map r.decl := by
  rw [← Body.superInterfaces_core, h.body, r.superInterfaces_body, Body.superInterfaces_core]

lemma interface? (h : entry.Matches r entry') :
    entry'.body.interface?.isSome = entry.body.interface?.isSome := by
  have hbody := h.body
  cases he : entry.body <;> cases he' : entry'.body <;> rw [he, he'] at hbody <;>
    first | rfl | cases hbody

/-- What classes that match inherit and have for functions. -/
lemma class? (h : entry.Matches r entry') : Option.Rel (fun info info' : ClassInfo =>
      info'.inherits = info.inherits.map r.ty ∧
        List.Forall₂ (Member.Matches r) info.functions info'.functions)
    entry.body.class? entry'.body.class? := by
  have hbody := h.body
  cases he : entry.body with
  | «class» info =>
    cases he' : entry'.body with
    | «class» info' =>
      rw [he, he'] at hbody
      have hinfo := Body.class.inj hbody
      refine .some ⟨(ClassInfo.mk.inj hinfo).2.1, forall₂_of_map_eq ?_⟩
      have hfunctions : info'.functions.map Member.core
          = (info.functions.map Member.core).map r.member := congrArg ClassInfo.functions hinfo
      rw [hfunctions, List.map_map]
      rfl
    | _ => rw [he, he'] at hbody; cases hbody
  | _ => cases he' : entry'.body <;> rw [he, he'] at hbody <;> first | exact .none | cases hbody

end Entry.Matches

end

/-! ## Inheritance -/

namespace LibrarySet.Matches

variable {r : Renumbering} {area : Area} {set set' : LibrarySet}
  (h : set.Matches Entry.core r area set')

include h

lemma find?_core {id : DeclId} (hnear : area.near id.library) :
    Option.Rel (Entry.Matches r) (set.find? id) (set'.find? (r.decl id)) := by
  have hpart (id : DeclId) (entry : Entry) :
      (id.part? entry).map Entry.core = (id.part? entry.core).map Entry.core := by
    rw [DeclId.part?_core, Option.map_map]
    exact congrFun (congrArg _ (funext fun entry => (Entry.core_core entry).symm)) _
  exact rel_of_map_eq (h.find? hpart r.core_entry hnear)

lemma superInterfaces {id : DeclId} (hnear : area.near id.library) :
    set'.superInterfaces (r.decl id) = (set.superInterfaces id).map r.decl := by
  unfold LibrarySet.superInterfaces
  obtain ⟨hnone, hnone'⟩ | ⟨entry, entry', hentry, hentry', hmatch⟩ :=
    rel_cases (h.find?_core hnear)
  · rw [hnone, hnone']
    rfl
  · rw [hentry, hentry']
    exact hmatch.superInterfaces

/-- The linked functions of near declarations. -/
lemma functionsOf {ids : List DeclId} (hids : ∀ id ∈ ids, area.near id.library) :
    List.Forall₂ (Member.Matches r) (functionsOf set ids) (functionsOf set' (ids.map r.decl)) := by
  have hrecords : List.Forall₂ (Entry.Matches r) (ids.filterMap set.find?)
      ((ids.map r.decl).filterMap set'.find?) := by
    induction ids with
    | nil => exact .nil
    | cons id rest ih =>
      have hrest := ih fun other hother => hids other (List.mem_cons_of_mem _ hother)
      rw [List.map_cons, List.filterMap_cons, List.filterMap_cons]
      obtain ⟨hnone, hnone'⟩ | ⟨entry, entry', hentry, hentry', hmatch⟩ :=
        rel_cases (h.find?_core (hids id List.mem_cons_self))
      · rw [hnone, hnone']
        exact hrest
      · rw [hentry, hentry']
        exact .cons hmatch hrest
  exact List.rel_flatMap hrecords fun _ _ hmatch => hmatch.linkedFunctions

section

variable (hinterfaces : area.Closed set.superInterfaces)

include hinterfaces

/-- A walk over interfaces comes to near ones only, and which other interfaces are inherited does
not matter. -/
lemma interfaceClosure {roots : List DeclId} (hroots : ∀ root ∈ roots, area.near root.library)
    (start : Option DeclId) : set'.interfaceClosure (roots.map r.decl) (start.map r.decl)
      = (set.interfaceClosure roots start).map r.decl := by
  have hsource {x : DeclId}
      (hx : x ∈ roots ∨ ∃ z : DeclId, area.near z.library ∧ x ∈ set.superInterfaces z) :
      area.near x.library := by
    rcases hx with hx | ⟨z, hz, hx⟩
    · exact hroots x hx
    · exact hinterfaces hz hx
  refine @Walk.preorder_map _ _ _ _ _ _ _ _ r.decl_injective
    (fun x => x ∈ roots ∨ ∃ z : DeclId, area.near z.library ∧ x ∈ set.superInterfaces z)
    (fun x hx y hy => .inr ⟨x, hsource hx, hy⟩) _ (fun x hx => h.superInterfaces (hsource hx)) _
    ((nodup_eraseDups _).filter _) ((nodup_eraseDups _).filter _) (fun x hx => ?_)
    fun x hx => .inl hx
  have hnode : x ∈ set.interfaceNodes roots ∧
      r.decl x ∈ set'.interfaceNodes (roots.map r.decl) := by
    rcases hx with hx | ⟨z, hz, hx⟩
    · exact ⟨List.mem_eraseDups.2 (List.mem_append_left _ hx),
        List.mem_eraseDups.2 (List.mem_append_left _ (List.mem_map_of_mem hx))⟩
    · have hx' : r.decl x ∈ set'.superInterfaces (r.decl z) := by
        rw [h.superInterfaces hz]
        exact List.mem_map_of_mem hx
      exact ⟨mem_interfaceNodes hx, mem_interfaceNodes hx'⟩
  cases start with
  | none => simp [hnode]
  | some start => simp [List.mem_filter, hnode, r.decl_injective.eq_iff]

omit h in
lemma near_interfaceClosure {roots : List DeclId} (hroots : ∀ root ∈ roots, area.near root.library)
    (start : Option DeclId) : ∀ id ∈ set.interfaceClosure roots start, area.near id.library :=
  Walk.forall_mem_preorder (P := fun id : DeclId => area.near id.library)
    (fun _ hx _ hy => hinterfaces hx hy) hroots

end

end LibrarySet.Matches

/-- Whether a walk leads back to its start does not depend on the numbers. -/
lemma LibrarySet.returnsTo_decl (r : Renumbering) {next next' : DeclId → List DeclId}
    {order : List DeclId} (hnext : ∀ id ∈ order, next' (r.decl id) = (next id).map r.decl)
    (start : DeclId) (roots : List DeclId) :
    returnsTo next' (r.decl start) (roots.map r.decl) (order.map r.decl)
      = returnsTo next start roots order := by
  have horder : (order.map r.decl).flatMap next' = (order.flatMap next).map r.decl := by
    rw [List.flatMap_map, List.map_flatMap]
    exact List.flatMap_congr hnext
  unfold returnsTo
  rw [horder, ← List.map_append]
  exact decide_eq_decide.2 (List.mem_map_of_injective r.decl_injective)

/-! ## Verdicts -/

/-- The marks of a report, with the documents they are made in. -/
def Report.marks (report : Report) : List (String × Range × Severity × DiagnosticCode) :=
  report.map fun found => (found.1, found.2.mark)

@[simp] lemma Report.marks_append (a b : Report) :
    Report.marks (a ++ b) = Report.marks a ++ Report.marks b := List.map_append

/-- The same pairs under the new numbers, and a report with the same marks. -/
structure Verdict.Renumbered (r : Renumbering) (verdict verdict' : Verdict) : Prop where
  overrides : verdict'.overrides = verdict.overrides.map (Prod.map r.decl r.decl)
  implements : verdict'.implements = verdict.implements.map (Prod.map r.decl r.decl)
  marks : verdict'.report.marks = verdict.report.marks

namespace Verdict.Renumbered

variable {r : Renumbering}

lemma empty : Renumbered r {} {} := ⟨rfl, rfl, rfl⟩

lemma ofReport {report report' : Report} (h : report'.marks = report.marks) :
    Renumbered r { report } { report := report' } := ⟨rfl, rfl, h⟩

lemma append {a b a' b' : Verdict} (h : Renumbered r a a') (k : Renumbered r b b') :
    Renumbered r (a ++ b) (a' ++ b') := by
  refine ⟨?_, ?_, ?_⟩
  · simp [h.overrides, k.overrides]
  · simp [h.implements, k.implements]
  · simp [h.marks, k.marks]

lemma join {all all' : List Verdict} (h : List.Forall₂ (Renumbered r) all all') :
    Renumbered r (Verdict.join all) (Verdict.join all') := by
  induction h with
  | nil => exact empty
  | cons h _ ih => exact h.append ih

/-- Verdicts on things that correspond. -/
lemma join_map {α β : Type} {R : α → β → Prop} {xs : List α} {ys : List β}
    (h : List.Forall₂ R xs ys) {f : α → Verdict} {g : β → Verdict}
    (hfg : ∀ x y, R x y → Renumbered r (f x) (g y)) :
    Renumbered r (Verdict.join (xs.map f)) (Verdict.join (ys.map g)) := by
  refine join ?_
  rw [List.forall₂_map_left_iff, List.forall₂_map_right_iff]
  exact h.imp fun x y hxy => hfg x y hxy

end Verdict.Renumbered

namespace Overriding

variable {r : Renumbering} {set set' : LibrarySet}

/-- The reports on several functions that correspond. -/
lemma marks_map {fs fs' : List Member} (h : List.Forall₂ (Member.Matches r) fs fs')
    {report report' : Member → String × Diagnostic}
    (hreport : ∀ f f', f.Matches r f' →
      ((report' f').1, (report' f').2.mark) = ((report f).1, (report f).2.mark)) :
    Report.marks (fs'.map report') = Report.marks (fs.map report) := by
  simp only [Report.marks, List.map_map]
  exact map_eq_of_forall₂ h hreport

lemma mark_returnMismatch {f f' : Member} (h : f.Matches r f') (base base' : Member) :
    ((returnMismatch set' f' base').1, (returnMismatch set' f' base').2.mark)
      = ((returnMismatch set f base).1, (returnMismatch set f base).2.mark) := by
  simp only [returnMismatch, Diagnostic.mark, Diagnostic.relatedTo, Diagnostic.error, h.document,
    h.nameRange]

/-- The pairs of a function with those that match it. -/
lemma pairs_map {f f' : Member} (h : f.Matches r f') {bases bases' : List Member}
    (hbases : List.Forall₂ (Member.Matches r) bases bases') :
    bases'.map (fun base => (f'.id, base.id))
      = (bases.map fun base => (f.id, base.id)).map (Prod.map r.decl r.decl) := by
  rw [List.map_map]
  exact map_eq_of_forall₂ hbases fun base base' hbase => by
    rw [h.id, hbase.id]
    rfl

section

variable {inherited inherited' : List Member}
  (hinherited : List.Forall₂ (Member.Matches r) inherited inherited') {f f' : Member}
  (h : f.Matches r f')

include hinherited h

lemma matching : List.Forall₂ (Member.Matches r) (inherited.filter (sameSignature f))
    (inherited'.filter (sameSignature f')) :=
  forall₂_filter hinherited fun _ _ hbase => h.sameSignature hbase

lemma renumbered_judgeInterfaceFunction : Verdict.Renumbered r
    (judgeInterfaceFunction set inherited f) (judgeInterfaceFunction set' inherited' f') := by
  refine ⟨pairs_map h (matching hinherited h), rfl, ?_⟩
  have hfirst := forall₂_find? (p := fun base => !sameReturns f base)
    (q := fun base => !sameReturns f' base) (matching hinherited h)
    fun _ _ hbase => congrArg _ (h.sameReturns hbase)
  simp only [judgeInterfaceFunction]
  obtain ⟨hnone, hnone'⟩ | ⟨base, base', hbase, hbase', -⟩ := rel_cases hfirst
  · rw [hnone, hnone']
    rfl
  · rw [hbase, hbase']
    exact congrArg (fun found => [found]) (mark_returnMismatch h base base')

lemma renumbered_judgeOverrides : Verdict.Renumbered r
    (judgeOverrides set inherited f) (judgeOverrides set' inherited' f') := by
  refine ⟨pairs_map h (matching hinherited h), rfl, ?_⟩
  have hdiffering := forall₂_filter (p := fun base => !sameReturns f base)
    (q := fun base => !sameReturns f' base) (matching hinherited h)
    fun _ _ hbase => congrArg _ (h.sameReturns hbase)
  exact marks_map hdiffering fun base base' _ => mark_returnMismatch h base base'

end

/-- Offers that match. -/
inductive Offer.Matches (r : Renumbering) : Offer → Offer → Prop
  | implementation {own own' : Member} : own.Matches r own' →
      Matches r (.implementation own) (.implementation own')
  | unclear : Matches r .unclear .unclear
  | missing : Matches r .missing .missing

lemma matches_offer {functions functions' : List Member}
    (hfunctions : List.Forall₂ (Member.Matches r) functions functions')
    {required required' : Member} (h : required.Matches r required') :
    (offer functions required).Matches r (offer functions' required') := by
  have hfound := forall₂_find? hfunctions
    (p := fun own => own.name = required.name && own.body.callable?.isSome &&
      (!isResolved own || sameSignature own required))
    (q := fun own => own.name = required'.name && own.body.callable?.isSome &&
      (!isResolved own || sameSignature own required'))
    fun own own' hown => by
      simp only [hown.name, h.name, hown.callable, hown.isResolved, hown.sameSignature h]
  unfold offer
  obtain ⟨hnone, hnone'⟩ | ⟨own, own', hown, hown', hmatch⟩ := rel_cases hfound
  · rw [hnone, hnone']
    exact .missing
  · rw [hown, hown']
    simp only [hmatch.valid, hmatch.sameSignature h]
    split
    · exact .implementation hmatch
    · exact .unclear

lemma renumbered_judgeOffer {required required' : Member} (h : required.Matches r required')
    {offered offered' : Offer} (hoffer : offered.Matches r offered') :
    Verdict.Renumbered r (judgeOffer set required offered)
      (judgeOffer set' required' offered') := by
  cases hoffer with
  | implementation hown =>
    refine ⟨rfl, ?_, ?_⟩
    · simp only [judgeOffer, hown.id, h.id]
      rfl
    · simp only [judgeOffer, hown.sameReturns h]
      split
      · rfl
      · exact congrArg (fun found => [found]) (mark_returnMismatch hown _ _)
  | unclear => exact .empty
  | missing => exact .empty

lemma matches_missing {functions functions' required required' : List Member}
    (hfunctions : List.Forall₂ (Member.Matches r) functions functions')
    (hrequired : List.Forall₂ (Member.Matches r) required required') :
    List.Forall₂ (Member.Matches r) (missing functions required)
      (missing functions' required') := by
  refine forall₂_filter hrequired fun f f' h => ?_
  cases hoffer : offer functions f <;> cases hoffer' : offer functions' f' <;>
    first
    | rfl
    | (have hmatches := matches_offer hfunctions h
       rw [hoffer, hoffer'] at hmatches
       cases hmatches)

lemma marks_circular {entry entry' : Entry} (h : entry.Matches r entry') {loops loops' : Bool}
    (hloops : loops' = loops) : Report.marks (if loops' then [circular entry'] else [])
      = Report.marks (if loops then [circular entry] else []) := by
  rw [hloops]
  cases loops with
  | false => rfl
  | true =>
    simp only [if_true, Report.marks, List.map_cons, List.map_nil, circular, Diagnostic.mark,
      Diagnostic.error, h.document, h.nameRange]

section

variable {area : Area} (h : set.Matches Entry.core r area set') {entry entry' : Entry}
  (hentry : entry.Matches r entry')
  (hinterfaces : area.Closed set.superInterfaces)

include h hentry hinterfaces

lemma renumbered_judgeInterface (hroots : ∀ root ∈
    entry.body.superInterfaces, area.near root.library) :
    Verdict.Renumbered r (judgeInterface set entry) (judgeInterface set' entry') := by
  have hinterface := hentry.interface?
  unfold judgeInterface
  cases hinfo : entry.body.interface? with
  | none =>
    rw [hinfo, Option.isSome_none, Option.isSome_eq_false_iff, Option.isNone_iff_eq_none]
      at hinterface
    rw [hinterface]
    exact .empty
  | some info =>
    rw [hinfo] at hinterface
    obtain ⟨info', hinfo'⟩ := Option.isSome_iff_exists.1 hinterface
    have hclosure := h.interfaceClosure hinterfaces hroots (some entry.id)
    have hnear := LibrarySet.Matches.near_interfaceClosure hinterfaces hroots (some entry.id)
    have hinherited := h.functionsOf hnear
    rw [← hclosure, Option.map_some, ← hentry.id, ← hentry.superInterfaces] at hinherited
    rw [hinfo']
    refine .append (.ofReport (marks_circular hentry ?_)) (.join_map hentry.linkedFunctions
      fun f f' hf => renumbered_judgeInterfaceFunction hinherited hf)
    unfold LibrarySet.interfaceLoops
    rw [hentry.superInterfaces, hentry.id]
    have hreturns := LibrarySet.returnsTo_decl r
      (fun id hid => h.superInterfaces (hnear id hid)) entry.id
      entry.body.superInterfaces
    exact Eq.trans (congrArg _ hclosure) hreturns

lemma renumbered_judgeClass (hparents : area.Closed set.parents)
    (hnear : area.near entry.id.library) (hroots : ∀ info, entry.body.class? = some info →
      ∀ root ∈ info.inherits.filterMap Ty.declaration?, area.near root.library) :
    Verdict.Renumbered r (judgeClass set entry) (judgeClass set' entry') := by
  unfold judgeClass
  obtain ⟨hnone, hnone'⟩ | ⟨info, info', hinfo, hinfo', hinherits, hfunctions⟩ :=
    rel_cases hentry.class?
  · rw [hnone, hnone']
    exact .empty
  · have shapes := h.mono Entry.shape_core r.shape_entry
    have hancestors := shapes.classAncestors hparents hnear
    have habove : ∀ id ∈ set.classAncestors entry.id, area.near id.library :=
      Walk.forall_mem_preorder (P := fun id : DeclId => area.near id.library)
        (fun _ hx _ hy => hparents hx hy) fun _ hx => hparents hnear hx
    have hinherited := h.functionsOf habove
    rw [← hancestors, ← hentry.id] at hinherited
    have hclosure := h.interfaceClosure hinterfaces (hroots info hinfo) none
    have hrequired : List.Forall₂ (Member.Matches r) (required set info) (required set' info') := by
      have hfunctions := h.functionsOf
        (LibrarySet.Matches.near_interfaceClosure hinterfaces (hroots info hinfo) none)
      rw [← hclosure] at hfunctions
      unfold required
      rw [hinherits, List.filterMap_map]
      simpa only [Function.comp_def, r.declaration?_ty, List.map_filterMap, Option.map_none]
        using hfunctions
    have hlacking := matches_missing hfunctions hrequired
    rw [hinfo, hinfo']
    refine .append (.append (.append (.ofReport (marks_circular hentry ?_))
      (.join_map hentry.linkedFunctions fun f f' hf => renumbered_judgeOverrides hinherited hf))
      (.join_map hrequired fun f f' hf => renumbered_judgeOffer hf (matches_offer hfunctions hf)))
      (.ofReport ?_)
    · unfold LibrarySet.classLoops
      rw [hentry.id, hancestors, shapes.parents hnear]
      exact LibrarySet.returnsTo_decl r (fun id hid => shapes.parents (habove id hid)) entry.id _
    · generalize missing info.functions (required set info) = lacking at hlacking
      generalize missing info'.functions (required set' info') = lacking' at hlacking
      cases hlacking with
      | nil => rfl
      | cons =>
        simp only [List.isEmpty_cons, Bool.false_eq_true, if_false, Report.marks, List.map_cons,
          List.map_nil, notImplemented, Diagnostic.mark, Diagnostic.relatedTo, Diagnostic.error,
          hentry.document, hentry.nameRange]

end

end Overriding

/-! ## Libraries -/

/-- Slots that correspond hold corresponding things, in the same order. -/
lemma forall₂_filterMap_id {α β : Type} {R : α → β → Prop} {xs : List (Option α)}
    {ys : List (Option β)} (h : ∀ i : Nat, Option.Rel R xs[i]?.join ys[i]?.join) :
    List.Forall₂ R (xs.filterMap fun x => x) (ys.filterMap fun y => y) := by
  have hempty {γ : Type} {zs : List (Option γ)} (h : ∀ i : Nat, zs[i]?.join = none) :
      (zs.filterMap fun z => z) = [] := by
    refine List.filterMap_eq_nil_iff.2 fun z hz => ?_
    obtain ⟨i, hi⟩ := List.mem_iff_getElem?.1 hz
    simpa [hi] using h i
  -- The tables may differ in length by trailing holes, which `hempty` drops.
  induction xs generalizing ys with
  | nil =>
    have hys (i : Nat) : ys[i]?.join = none := by
      obtain ⟨-, hnone⟩ | ⟨x, y, hx, -⟩ := rel_cases (h i)
      · exact hnone
      · simp at hx
    rw [hempty hys]
    exact .nil
  | cons x xs ih =>
    cases ys with
    | nil =>
      have hxs (i : Nat) : (x :: xs)[i]?.join = none := by
        obtain ⟨hnone, -⟩ | ⟨x, y, -, hy, -⟩ := rel_cases (h i)
        · exact hnone
        · simp at hy
      rw [hempty hxs]
      exact .nil
    | cons y ys =>
      have hrest := @ih ys fun i => by simpa using h (i + 1)
      have hfirst := h 0
      simp only [List.getElem?_cons_zero, Option.join_some] at hfirst
      cases hfirst with
      | none => exact hrest
      | some hfirst => exact .cons hfirst hrest

namespace LibrarySet.Matches

variable {r : Renumbering} {area : Area} {set set' : LibrarySet}
  (h : set.Matches Entry.core r area set') {library : LibraryId} {lib lib' : Library}
  (hnear : area.near library) (hproject : library ≠ .project) (hlib : set.get? library = some lib)
  (hlib' : set'.get? (r.library library) = some lib')

include h hnear hproject hlib hlib'

/-- Outside of the project, declarations keep their indices. -/
lemma entries (category : Category) :
    List.Forall₂ (Entry.Matches r) (lib.entries category) (lib'.entries category) := by
  refine forall₂_filterMap_id fun index => ?_
  have heq := h.slots library category index hnear
  rw [show r.slot library category index = index by simp [Renumbering.slot, hproject], slot?, slot?,
    hlib, hlib'] at heq
  exact rel_of_map_eq heq

/-- The verdicts on a library and on the one that it corresponds to. -/
theorem judge (encloses : set.Encloses area.near)
    (hown : ∀ category index entry, set.slot? library category index = some entry →
      entry.id.library = library) :
    (set.judge lib).Renumbered r (set'.judge lib') := by
  have hinterfaces : area.Closed set.superInterfaces := encloses.superInterfaces h.identified
  have hparents : area.Closed set.parents := encloses.parents h.identified
  have hvalid (category : Category) : List.Forall₂ (fun entry entry' =>
      (area.near entry.id.library ∧ ∀ base ∈ entry.body.bases, area.near base.library) ∧
        Entry.Matches r entry entry')
      ((lib.entries category).filter Symbol.valid)
      ((lib'.entries category).filter Symbol.valid) := by
    refine (List.forall₂_and_left _ _).2 ⟨fun entry hentry => ?_,
      forall₂_filter (h.entries hnear hproject hlib hlib' category) fun _ _ hentry => hentry.valid⟩
    obtain ⟨index, hslot⟩ := mem_entries.1 (List.mem_of_mem_filter hentry)
    have hseat : set.slot? library category index = some entry := by rw [slot?, hlib]; exact hslot
    exact ⟨hown _ _ _ hseat ▸ hnear, encloses.slot hnear hseat⟩
  refine .append (.join_map (hvalid .interface) fun entry entry' hentry => ?_)
    (.join_map (hvalid .class) fun entry entry' hentry => ?_)
  · exact Overriding.renumbered_judgeInterface h hentry.2 hinterfaces fun root hroot =>
      hentry.1.2 root (Body.mem_bases_of_superInterfaces hroot)
  · refine Overriding.renumbered_judgeClass h hentry.2 hinterfaces hparents hentry.1.1
      fun info hinfo root hroot => hentry.1.2 root ?_
    cases hbody : entry.body <;> rw [hbody] at hinfo <;> cases hinfo
    rw [Body.bases, List.filterMap_append]
    exact List.mem_append_right _ hroot

end LibrarySet.Matches

end SymbolGraph
