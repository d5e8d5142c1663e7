import SymbolGraph.Proofs.Renumbering.Isomorphism
import SymbolGraph.Proofs.Session.IdleRebuilds

/-!
# Functions that are tied name each other

A check writes every pair that it finds down at both ends, as far as the ends belong to the library;
nothing else brings a function into the lists of another.  So right after a rebuild, if a function
names one of the project, the latter names it too (`LibrarySet.Mutual`), and teardown finds
everything that it has to strike by looking at what it takes away.

This needs that no function of another library names one of the project (`LibrarySet.Secluded`).  A
library is tied once, when it is loaded, to what inheritance leads to; as long as its documents keep
away from the project, so does inheritance (`LibrarySet.Encloses`).
-/

namespace SymbolGraph

open Overriding

/-! ## What is tied to what -/

/-- The functions that a callable has in its lists. -/
def Leaf.tied (leaf : Leaf) : List DeclId :=
  (leaf.callable?.map fun callable => callable.relations.all).getD []

/-- The functions that a top-level callable has in its lists. -/
def Body.tied (body : Body) : List DeclId :=
  (body.callable?.map fun callable => callable.relations.all).getD []

/-- Neither a declaration with the body `body'` nor a member of it has more functions in its lists
than with the body `body`. -/
structure Body.Frees (body body' : Body) : Prop where
  own : body'.tied ⊆ body.tied
  members : ∀ {category : Category} {list' : List Member} {j : Nat} {m' : Member},
    body'.members? category = some list' → list'[j]? = some m' → m'.body.tied = [] ∨
      ∃ list m, body.members? category = some list ∧ list[j]? = some m ∧ m'.body.tied ⊆ m.body.tied

namespace Body.Frees

variable {body body' : Body}

lemma refl (body : Body) : body.Frees body :=
  ⟨List.Subset.refl _, fun hlist hm => Or.inr ⟨_, _, hlist, hm, List.Subset.refl _⟩⟩

lemma trans {body'' : Body} (h : body.Frees body') (k : body'.Frees body'') :
    body.Frees body'' := by
  refine ⟨fun id hid => h.own (k.own hid), fun hlist hm => ?_⟩
  rcases k.members hlist hm with hnone | ⟨list, m, hlist, hm, hsub⟩
  · exact Or.inl hnone
  · rcases h.members hlist hm with hnone | ⟨list, m, hlist, hm, hsub'⟩
    · exact Or.inl (List.subset_nil.1 (hnone ▸ hsub))
    · exact Or.inr ⟨list, m, hlist, hm, List.Subset.trans hsub hsub'⟩

/-- A body with the same lists of members. -/
lemma of_members?_eq (hown : body'.tied ⊆ body.tied) (h : body'.members? = body.members?) :
    body.Frees body' :=
  ⟨hown, fun hlist hm => Or.inr ⟨_, _, h ▸ hlist, hm, List.Subset.refl _⟩⟩

/-- A body without members. -/
lemma of_memberless (hown : body'.tied ⊆ body.tied)
    (h : ∀ category list, body'.members? category = some list → list = []) : body.Frees body' :=
  ⟨hown, fun hlist hm => by rw [h _ _ hlist] at hm; cases hm⟩

lemma fresh (body : Body) (category : Category) : body.Frees (.fresh category) := by
  refine of_memberless ?_ ?_
  · cases category <;> exact List.nil_subset _
  · intro other list h
    cases category <;> cases other <;> first | exact (Option.some.inj h).symm | cases h

lemma setBases (body : Body) (parent : Option Ty) (inherits : List Ty) :
    body.Frees (Update.setBases parent inherits body) := by
  refine of_members?_eq ?_ (funext fun category => ?_)
  · cases body <;> exact List.Subset.refl _
  · cases body <;> cases category <;> rfl

/-- A new member that is tied to nothing. -/
lemma addMember (body : Body) {m : Member} (hm : m.body.tied = []) :
    body.Frees (LinkMembers.addMember m body) := by
  refine ⟨?_, fun {category list' j m'} hlist hj => ?_⟩
  · rw [LinkMembers.addMember, Body.tied, Body.callable?_overMembers]
    exact List.Subset.refl _
  · rw [LinkMembers.addMember, Body.members?_overMembers] at hlist
    split at hlist
    · obtain ⟨list, hold, rfl⟩ := Option.map_eq_some_iff.1 hlist
      rw [List.getElem?_append] at hj
      split at hj
      · exact Or.inr ⟨list, m', hold, hj, List.Subset.refl _⟩
      · have hsame := List.mem_singleton.1 (List.mem_of_getElem? hj)
        exact Or.inl (hsame ▸ hm)
    · exact Or.inr ⟨list', m', hlist, hj, List.Subset.refl _⟩

lemma addMembers {members : List Member} (hmembers : ∀ m ∈ members, m.body.tied = [])
    (body : Body) :
    body.Frees (members.foldl (fun body m => LinkMembers.addMember m body) body) :=
  List.foldlRecOn (motive := fun body' : Body => body.Frees body') members _ (.refl body)
    fun body' h m hm => h.trans (addMember body' (hmembers m hm))

end Body.Frees

/-- Neither a blank record nor a member of it has anything in its lists. -/
lemma DeclId.tied_part?_fresh {id : DeclId} {entry record : Entry} {category : Category}
    (hfresh : entry.body = .fresh category) (hpart : id.part? entry = some record) :
    record.body.tied = [] := by
  have hfrees : Body.invalid.Frees entry.body := hfresh ▸ .fresh _ category
  unfold part? at hpart
  split at hpart
  · rw [← Option.some.inj hpart]
    exact List.subset_nil.1 hfrees.own
  · obtain ⟨list, hlist, hpart⟩ := Option.bind_eq_some_iff.1 hpart
    obtain ⟨m, hm, rfl⟩ := Option.map_eq_some_iff.1 hpart
    refine (hfrees.members hlist hm).resolve_right ?_
    rintro ⟨_, _, hinvalid, -⟩
    simp [Body.members?] at hinvalid

/-- Changing a callable so that it gets nothing new into its lists. -/
lemma Leaf.tied_overCallable {f : Callable → Callable}
    (h : ∀ callable, (f callable).relations.all ⊆ callable.relations.all) (leaf : Leaf) :
    (leaf.overCallable f).tied ⊆ leaf.tied := by
  cases leaf with
  | callable info => exact h info
  | «variable» info => exact List.Subset.refl _
  | element => exact List.Subset.refl _

namespace LibrarySet

variable {set set' set'' : LibrarySet} {a b : DeclId}

/-- The function `a` has `b` in one of its lists. -/
def Names (set : LibrarySet) (a b : DeclId) : Prop :=
  ∃ relations, set.relations? a = some relations ∧ b ∈ relations.all

lemma names_iff_tied :
    set.Names a b ↔ ∃ record, set.find? a = some record ∧ b ∈ record.body.tied := by
  simp only [Names, relations?]
  constructor
  · rintro ⟨r, hr, hb⟩
    obtain ⟨record, hrecord, hr⟩ := Option.bind_eq_some_iff.1 hr
    obtain ⟨callable, hcallable, rfl⟩ := Option.map_eq_some_iff.1 hr
    exact ⟨record, hrecord, by rwa [Body.tied, hcallable]⟩
  · rintro ⟨record, hrecord, hb⟩
    rw [hrecord]
    cases hcallable : record.body.callable? with
    | none => simp [Body.tied, hcallable] at hb
    | some callable =>
      refine ⟨callable.relations, ?_, by rwa [Body.tied, hcallable] at hb⟩
      rw [Option.bind_some, hcallable, Option.map_some]

/-- No function has come into the lists of another. -/
def Unties (set set' : LibrarySet) : Prop := ∀ a b, set'.Names a b → set.Names a b

lemma Unties.refl (set : LibrarySet) : set.Unties set := fun _ _ h => h

lemma Unties.trans (h : set.Unties set') (k : set'.Unties set'') : set.Unties set'' :=
  fun a b hnames => h a b (k a b hnames)

/-- Relations belong to the contents of a library. -/
lemma SameContents.relations?_eq {old : LibraryId → Prop} (h : SameContents old set set')
    (hold : old a.library) : set'.relations? a = set.relations? a := by
  have hread (set : LibrarySet) : set.relations? a
      = (set.contents? a.library).bind fun lib => lib.relations? a := by
    rw [LibrarySet.relations?_eq, contents?]
    cases set.get? a.library with
    | none => rfl
    | some lib => exact (lib.relations?_contents a).symm
  rw [hread, hread, h a.library hold]

lemma SameContents.unties (h : SameContents (fun _ => True) set set') : set.Unties set' :=
  fun _ _ ⟨r, hr, hb⟩ => ⟨r, (h.relations?_eq trivial).symm.trans hr, hb⟩

/-- An edit that brings no function into a list. -/
lemma unties_edit (hid : set.Identified) (target : DeclId) {edit : Edit}
    (hentry : ∀ entry : Entry, entry.body.Frees (edit.onEntry entry).body)
    (hmember : ∀ m : Member, (edit.onMember m).body.tied ⊆ m.body.tied) :
    set.Unties (set.edit target edit) := by
  -- What holds of the edit on an entry and on a member holds of the edit at a seat.
  have hframe (entry : Entry) : entry.body.Frees (edit.atSeat target entry).body := by
    unfold Edit.atSeat
    split
    · exact hentry entry
    · refine ⟨?_, fun {category list' j m'} hlist hj => ?_⟩
      · rw [Symbol.body_map, Body.tied, Body.callable?_overMembers]
        exact List.Subset.refl _
      · rw [Symbol.body_map, Body.members?_overMembers] at hlist
        split at hlist
        · obtain ⟨list, hold, rfl⟩ := Option.map_eq_some_iff.1 hlist
          rw [List.getElem?_modify] at hj
          obtain ⟨m, hm, rfl⟩ := Option.map_eq_some_iff.1 hj
          refine Or.inr ⟨list, m, hold, hm, ?_⟩
          split
          · exact hmember m
          · exact List.Subset.refl _
        · exact Or.inr ⟨list', m', hlist, hj, List.Subset.refl _⟩
  intro a b hnames
  obtain ⟨record, hrecord, hb⟩ := names_iff_tied.1 hnames
  refine names_iff_tied.2 ?_
  rw [find?_eq (hid.edit _ _), slot?_edit hid] at hrecord
  rw [find?_eq hid]
  split at hrecord
  · obtain ⟨entry', hslot, hpart⟩ := Option.bind_eq_some_iff.1 hrecord
    obtain ⟨entry, hentry, rfl⟩ := Option.map_eq_some_iff.1 hslot
    have hframe := hframe entry
    rw [hentry, Option.bind_some]
    unfold DeclId.part? at hpart ⊢
    split at hpart
    · rw [← Option.some.inj hpart] at hb
      exact ⟨entry, rfl, hframe.own hb⟩
    · obtain ⟨list', hlist, hpart⟩ := Option.bind_eq_some_iff.1 hpart
      obtain ⟨m', hm, rfl⟩ := Option.map_eq_some_iff.1 hpart
      have hb : b ∈ m'.body.tied := hb
      -- A member afterwards is one with no ties, or stands where one with all its ties stood.
      rcases hframe.members hlist hm with hnone | ⟨list, m, hlist, hm, hsub⟩
      · simp [hnone] at hb
      · refine ⟨m.toEntry, ?_, hsub hb⟩
        rw [hlist, Option.bind_some, hm]
        rfl
  · exact ⟨record, hrecord, hb⟩

lemma unties_callable (hid : set.Identified) (target : DeclId) {f : Callable → Callable}
    (h : ∀ callable, (f callable).relations.all ⊆ callable.relations.all) :
    set.Unties (set.edit target (.callable f)) := by
  refine unties_edit hid target (fun entry => ?_) fun m => Leaf.tied_overCallable h m.body
  obtain ⟨name, nameRange, document, space, id, visibility, references, valid, body⟩ := entry
  cases body with
  | leaf part =>
    refine .of_memberless (Leaf.tied_overCallable h part) fun category list hlist => ?_
    cases hlist
  | _ => exact .refl _

lemma unties_update (hid : set.Identified) (update : Update) : set.Unties (update.apply set) := by
  rw [Update.apply_eq]
  cases update with
  | «variable» target info =>
    exact unties_edit hid target (fun entry => .of_memberless (List.nil_subset _) nofun)
      fun m => List.nil_subset _
  | callable target params returns =>
    exact unties_callable hid target fun callable => List.Subset.refl _
  | task target returns =>
    exact unties_edit hid target (fun entry => .of_memberless (List.nil_subset _) nofun)
      fun m => List.Subset.refl _
  | inheritance target parent inherits =>
    exact unties_edit hid target (fun entry => .setBases entry.body parent inherits)
      fun m => List.Subset.refl _

end LibrarySet

/-! ## Linking -/

namespace Linkage

variable {state : Linkage} {others : List SourceUnit}

lemma unties_apply (hid : state.libraries.Identified) (found : Findings) :
    state.libraries.Unties (state.apply found).libraries := by
  have hupdates := List.foldlRecOn
    (motive := fun set : LibrarySet => set.Identified ∧ state.libraries.Unties set)
    found.updates Update.apply ⟨hid, .refl _⟩ fun set hset update _ => ⟨by
      rw [Update.apply_eq]
      exact hset.1.edit _ _, hset.2.trans (LibrarySet.unties_update hset.1 update)⟩
  have htraces : LibrarySet.SameContents (fun _ => True)
      (found.updates.foldl Update.apply state.libraries) (state.apply found).libraries :=
    (sameContents_foldl sameContents_addReference found.references ⟨_, state.unit⟩).trans
      (sameContents_foldl sameContents_addHeir found.heirs _)
  exact hupdates.2.trans htraces.unties

lemma unties_declareMembers (hid : state.libraries.Identified) :
    state.libraries.Unties state.declareMembers.libraries := by
  refine (List.foldlRecOn (motive := fun mid : Linkage => mid.libraries.Identified ∧
    state.libraries.Unties mid.libraries) _ LinkMembers.declareFor ⟨hid, .refl _⟩ ?_).2
  rintro mid ⟨hmid, hunties⟩ ⟨id, node⟩ -
  unfold LinkMembers.declareFor
  dsimp only
  split
  · exact ⟨hmid, hunties⟩
  · next owner howner =>
    refine ⟨hmid.edit _ _, hunties.trans (LibrarySet.unties_edit hmid id
      (fun entry => .addMembers (fun m hm => ?_) entry.body) fun m => List.Subset.refl _)⟩
    obtain ⟨node, -, rfl⟩ := List.mem_map.1 hm
    change (Leaf.fresh node.category).tied = []
    cases node.category <;> rfl

end Linkage

/-- Linking ties nothing. -/
lemma LibrarySet.Arranged.unties_link {set : LibrarySet} {batch others : List SourceUnit}
    (arranged : set.Arranged (batch ++ others)) (hundeclared : ∀ unit ∈ batch, unit.Undeclared)
    (options : LinkOptions) : set.Unties (Linkages.link ⟨set, batch⟩ options).libraries := by
  refine (Linkages.link_each options
    (fun current units => current.Arranged units ∧ set.Unties current) SourceUnit.Undeclared
    (fun _ => True)
    (fun h hperm => ⟨h.1.perm hperm, h.2⟩) ?_ ?_ ?_ ?_ ⟨arranged, .refl set⟩ hundeclared).2
  · rintro state others ⟨arranged, unties⟩ undeclared
    refine ⟨⟨Linkage.arranged_linkImports arranged, unties.trans ?_⟩,
      Linkage.undeclared_linkImports undeclared⟩
    rw [Linkage.linkImports_eq arranged.settled]
    exact @Linkage.unties_apply { state with unit :=
      { state.unit with scopes := state.imported.1 } }
      arranged.orderly.identified _
  · rintro state others ⟨arranged, unties⟩ undeclared
    exact ⟨⟨Linkage.arranged_declareMembers arranged undeclared,
      unties.trans (Linkage.unties_declareMembers arranged.orderly.identified)⟩, trivial⟩
  · rintro state others ⟨arranged, unties⟩ -
    exact ⟨⟨Linkage.arranged_apply arranged (state.among_everywhere.foundBases arranged options),
      unties.trans (Linkage.unties_apply arranged.orderly.identified _)⟩, trivial⟩
  · rintro state others ⟨arranged, unties⟩ -
    exact ⟨⟨Linkage.arranged_apply arranged
        (state.among_everywhere.foundSignatures arranged options),
      unties.trans (Linkage.unties_apply arranged.orderly.identified _)⟩, trivial⟩

/-- Linking documents that keep away from the project lets inheritance keep away from it. -/
lemma Insular.encloses_link {name : String} {set : LibrarySet} {batch others : List SourceUnit}
    (insular : Insular name set (batch ++ others)) (booked : Linkages.Booked set (batch ++ others))
    (hundeclared : ∀ unit ∈ batch, unit.Undeclared) (haloof : ∀ unit ∈ batch, unit.Aloof name)
    (encloses : set.Encloses (· ≠ .project)) (options : LinkOptions) :
    (Linkages.link ⟨set, batch⟩ options).libraries.Encloses (· ≠ .project) := by
  have habroad {state : Linkage} {others : List SourceUnit}
      (insular : Insular name state.libraries (state.unit :: others))
      (aloof : state.unit.Aloof name) : state.Among (· ≠ .project) :=
    Linkage.among_abroad insular aloof.library aloof.shuns aloof.scopes
  -- One goal a pass: imports, member declarations, bases, signatures. Each pass is the record of
  -- findings that stay abroad, except the member pass, which leaves the kin of every record alone.
  refine (Linkages.Booked.link_induction options
    (fun set units => Insular name set units ∧ set.Encloses (· ≠ .project)) (SourceUnit.Aloof name)
    (fun h hperm => ⟨h.1.perm hperm, h.2⟩) ?_ ?_ ?_ ?_ booked ⟨insular, encloses⟩
    fun unit hunit => ⟨hundeclared unit hunit, haloof unit hunit⟩).2.2
  · rintro state others booked ⟨insular, encloses⟩ aloof
    obtain ⟨hinsular, haloof⟩ := Linkage.aloof_linkImports insular booked aloof
    refine ⟨⟨hinsular, ?_⟩, haloof⟩
    obtain ⟨among, -⟩ := (habroad insular aloof).imported booked.books.legible
    obtain ⟨-, hupdates⟩ := Linkage.imported_idle booked.books.legible
    have hready : state.libraries.Arranged
        ({ state.unit with scopes := state.imported.1 } :: others) :=
      booked.arranged.step rfl rfl (fun h => h) (.refl booked.books.orderly)
    rw [Linkage.linkImports_eq booked.settled]
    exact @Linkage.encloses_apply ⟨state.libraries, _⟩ _ _ hready _ among
      (by simp [Findings.Paired, hupdates]) encloses
  · rintro state others booked ⟨insular, encloses⟩ aloof
    obtain ⟨hinsular, haloof⟩ := Linkage.aloof_declareMembers insular booked aloof
    exact ⟨⟨hinsular, encloses.of_kin_eq fun id _ =>
      (Linkage.sameKin_declareMembers booked.books.orderly.identified).kin id⟩, haloof⟩
  · rintro state others booked ⟨insular, encloses⟩ aloof
    have among := (habroad insular aloof).foundBases booked.arranged options
    obtain ⟨hinsular, haloof⟩ := Linkage.aloof_apply insular booked aloof among
    exact ⟨⟨hinsular, Linkage.encloses_apply booked.arranged among
      (state.paired_foundBases options) encloses⟩, haloof⟩
  · rintro state others booked ⟨insular, encloses⟩ aloof
    have among := (habroad insular aloof).foundSignatures booked.arranged options
    obtain ⟨hinsular, haloof⟩ := Linkage.aloof_apply insular booked aloof among
    exact ⟨⟨hinsular, Linkage.encloses_apply booked.arranged among
      (state.paired_foundSignatures options) encloses⟩, haloof⟩

/-! ## Checks -/

lemma Relations.mem_all_tied {a b : DeclId} {verdict : Verdict} :
    b ∈ (Relations.tied a verdict).all ↔
    (a, b) ∈ verdict.overrides ∨ (b, a) ∈ verdict.overrides ∨
      (a, b) ∈ verdict.implements ∨ (b, a) ∈ verdict.implements := by
  simp [all, tied, mem_addAllNew, mem_targetsOf, mem_sourcesOf]

namespace LibrarySet

variable {set set' : LibrarySet} {library : LibraryId} {a b : DeclId}

/-- A check of the library ties the two functions, whichever is above the other. -/
def Partners (set : LibrarySet) (library : LibraryId) (a b : DeclId) : Prop :=
  set.Overrides library a b ∨ set.Overrides library b a ∨
    set.Implements library a b ∨ set.Implements library b a

lemma Partners.symm (h : set.Partners library a b) : set.Partners library b a := by
  rcases h with h | h | h | h
  · exact Or.inr (Or.inl h)
  · exact Or.inl h
  · exact Or.inr (Or.inr (Or.inr h))
  · exact Or.inr (Or.inr (Or.inl h))

lemma Addressed.exists_ties (addressed : set.Addressed) (h : set.Partners library a b) :
    ∃ library', set.Ties library' a := by
  rcases h with h | h | h | h
  · exact ⟨_, (addressed.ties_of_overrides h).1⟩
  · exact (addressed.ties_of_overrides h).2
  · exact ⟨_, (addressed.ties_of_implements h).1⟩
  · exact (addressed.ties_of_implements h).2

/-- After a check, the member functions of the library name their partners, and other declarations
what they named before. -/
lemma Addressed.names_check (addressed : set.Addressed) (orderly : set.Orderly)
    (library : LibraryId) :
    (set.check library).1.Names a b ↔
      if a.library = library ∧ a.category.isFunction = true then
        (set.check library).1.Partners library a b
      else set.Names a b := by
  split
  · next hfunction =>
    obtain ⟨rfl, hfunction⟩ := hfunction
    have after := (@sameCores_check set (fun _ => False) addressed.identified
      a.library).addressed addressed
    have orderly' := (sameTags_check orderly a.library).orderly orderly
    obtain ⟨verdict, htied, hoverrides, himplements⟩ := addressed.relations_verdict a.library
    -- All four lists of `a` together are the partners of `a` in the verdict.
    have hmem : b ∈ (Relations.tied a verdict).all ↔
        (set.check a.library).1.Partners a.library a b := by
      rw [Relations.mem_all_tied, hoverrides, hoverrides, himplements, himplements, Partners]
    constructor
    · rintro ⟨r, hr, hb⟩
      obtain ⟨record, hrecord, -⟩ := Option.bind_eq_some_iff.1 hr
      obtain ⟨f, howns, hid, rfl⟩ := after.owns_of_find? orderly' hrecord hfunction
      have hties : r = Relations.tied a verdict := by
        rw [← hid, ← htied f howns, Member.relations, ← relations?_of_find? hrecord, hr,
          Option.getD_some]
      exact hmem.1 (hties ▸ hb)
    · intro hpartners
      obtain ⟨library', hties⟩ := after.exists_ties hpartners
      obtain ⟨-, rfl, r, hr⟩ := after.relations?_of_ties hties
      obtain ⟨f, howns, rfl, -⟩ := hties
      obtain ⟨category, index, entry, hslot, hf⟩ := id howns
      have hrelations := after.relations_eq hslot hf
      rw [hr, htied f howns, Option.getD_some] at hrelations
      exact ⟨r, hr, hrelations ▸ hmem.2 hpartners⟩
  · next hother =>
    have hsame := addressed.relations?_check_other orderly hother
    rw [Names, Names, hsame]

lemma Addressed.isFunction_of_ties (addressed : set.Addressed) (h : set.Ties library a) :
    a.category.isFunction = true := by
  obtain ⟨f, ⟨category, index, entry, hslot, hf⟩, rfl, -⟩ := h
  obtain ⟨c, -, j, hc, -, -, -, hid, -⟩ := addressed.id_function hslot hf
  rw [hid]
  exact hc

/-! ## Libraries that keep to themselves -/

section

variable {near : LibraryId → Prop} (encloses : set.Encloses near)

include encloses

lemma Encloses.bases (hid : set.Identified) {category : Category} {id base : DeclId}
    (hnear : near id.library) (h : base ∈ set.bases category id) : near base.library := by
  cases category with
  | «class» => exact encloses.parents hid hnear h
  | interface => exact encloses.superInterfaces hid hnear h
  | _ => cases h

lemma Encloses.of_sameCores {own : DeclId → Prop} (same : SameCores own set set')
    (hown : ∀ id, near id.library → ¬ own id) : set'.Encloses near := by
  intro id kin hnear hkin base hbase
  obtain ⟨entry', hslot', rfl⟩ := Option.map_eq_some_iff.1 hkin
  have hcore := same.cores id.library id.category id.index (hown ⟨_, _, _, none⟩ hnear)
  rw [core?, hslot', core?, Option.map_some] at hcore
  obtain ⟨entry, hslot, heq⟩ := Option.map_eq_some_iff.1 hcore.symm
  have hbodies : entry.body.core = entry'.body.core := congrArg Symbol.body heq
  have hcores (body : Body) : body.core.bases = body.bases := by cases body <;> rfl
  rw [Body.bases_kin, ← hcores, ← hbodies, hcores] at hbase
  exact encloses.slot hnear hslot base hbase

variable (addressed : set.Addressed)

include addressed

lemma Encloses.overrides (hnear : near library) (h : set.Overrides library a b) :
    near a.library ∧ near b.library := by
  refine ⟨?_, ?_⟩
  · rw [(addressed.relations?_of_ties (addressed.ties_of_overrides h).1).2.1]
    exact hnear
  · obtain ⟨category, index, entry, f, hslot, -, -, -, base, habove, record,
      hrecord, g, hg, -, rfl⟩ := h
    have hentry : entry.id.library = library :=
      congrArg Place.library (addressed.place_eq ((recordAt?_slot ..).trans hslot))
    have hbase : near base.library := by
      refine Relation.TransGen.head_induction_on (motive := fun id _ =>
        near id.library → near base.library)
        habove.2 (fun hstep hnear => encloses.bases addressed.identified hnear hstep)
        (fun hstep _ ih hnear => ih (encloses.bases addressed.identified hnear hstep)) ?_
      exact hentry ▸ hnear
    rw [(addressed.owner_function (addressed.owns_of_mem hrecord hg)).2]
    exact hbase

lemma Encloses.implements (hnear : near library) (h : set.Implements library a b) :
    near a.library ∧ near b.library := by
  refine ⟨?_, ?_⟩
  · rw [(addressed.relations?_of_ties (addressed.ties_of_implements h).1).2.1]
    exact hnear
  · obtain ⟨index, entry, info, own, hslot, -, hbody, -, g, hg, -, rfl⟩ := h
    obtain ⟨root, hroot, base, hway, record, hrecord, hmem⟩ := mem_required.1 hg
    have hroot : near root.library := by
      refine encloses.slot hnear hslot root ?_
      rw [hbody]
      obtain ⟨ty, hty, hdeclaration⟩ := List.mem_filterMap.1 hroot
      exact List.mem_filterMap.2 ⟨ty, List.mem_append_right _ hty, hdeclaration⟩
    have hbase : near base.library :=
      Relation.ReflTransGen.head_induction_on
        (motive := fun id _ => near id.library → near base.library) hway (fun h => h)
        (fun hstep _ ih hnear => ih (encloses.superInterfaces addressed.identified hnear hstep))
        hroot
    rw [(addressed.owner_function (addressed.owns_of_mem hrecord hmem)).2]
    exact hbase

lemma Encloses.partner (hnear : near library) (h : set.Partners library a b) : near b.library := by
  rcases h with h | h | h | h
  · exact (encloses.overrides addressed hnear h).2
  · exact (encloses.overrides addressed hnear h).1
  · exact (encloses.implements addressed hnear h).2
  · exact (encloses.implements addressed hnear h).1

end

/-- Libraries other than the project keep to themselves: inheritance does not lead from them into
the project, nor do the lists of their functions.  Only member functions have anything in their
lists. -/
structure Secluded (set : LibrarySet) : Prop where
  encloses : set.Encloses (· ≠ .project)
  functions : ∀ {a b}, set.Names a b → a.category.isFunction = true
  abroad : ∀ {a b}, set.Names a b → a.library ≠ .project → b.library ≠ .project

/-- What two functions of the project are written down as tied to is written down at both ends. -/
structure Mutual (set : LibrarySet) : Prop where
  function : ∀ {a b}, set.Names a b → a.library = .project →
    a.category.isFunction = true ∧ b.owner? ≠ none
  back : ∀ {a b}, set.Names a b → b.library = .project → set.Names b a

/-- Blank records that are added to the model name nothing and inherit nothing. -/
lemma Secluded.widen (secluded : set.Secluded) (hid : set.Identified) (hid' : set'.Identified)
    (honly : ∀ {library category index entry}, set'.slot? library category index = some entry →
      set.slot? library category index = some entry ∨ entry.skeleton = entry) : set'.Secluded := by
  have hunties : set.Unties set' := by
    intro a b hnames
    obtain ⟨record, hrecord, hb⟩ := names_iff_tied.1 hnames
    rw [find?_eq hid'] at hrecord
    obtain ⟨entry, hslot, hpart⟩ := Option.bind_eq_some_iff.1 hrecord
    rcases honly hslot with hold | hnew
    · refine names_iff_tied.2 ⟨record, ?_, hb⟩
      rw [find?_eq hid, hold, Option.bind_some, hpart]
    · rw [DeclId.tied_part?_fresh (Entry.fresh_of_skeleton_eq hnew) hpart] at hb
      cases hb
  refine ⟨fun id kin hnear hkin base hbase => ?_, fun h => secluded.functions (hunties _ _ h),
    fun h => secluded.abroad (hunties _ _ h)⟩
  obtain ⟨entry, hslot, rfl⟩ := Option.map_eq_some_iff.1 hkin
  rcases honly hslot with hold | hnew
  · exact secluded.encloses id entry.body.kin hnear (by rw [kin?, hold, Option.map_some]) base hbase
  · rw [Body.bases_kin, Entry.fresh_of_skeleton_eq hnew, Body.bases_fresh] at hbase
    cases hbase

/-- A library is tied to what inheritance leads to. -/
lemma Secluded.check (secluded : set.Secluded) (addressed : set.Addressed) (orderly : set.Orderly)
    (hlibrary : library ≠ .project) : (set.check library).1.Secluded := by
  have after := (@sameCores_check set (fun _ => False) addressed.identified
    library).addressed addressed
  have encloses : (set.check library).1.Encloses (· ≠ .project) :=
    secluded.encloses.of_kin_eq fun id _ => (sameKin_check addressed.identified library).kin id
  refine ⟨encloses, fun h => ?_, fun h habroad => ?_⟩
  · have hnames := (addressed.names_check orderly library).1 h
    split at hnames
    · next hfunction => exact hfunction.2
    · exact secluded.functions hnames
  · have hnames := (addressed.names_check orderly library).1 h
    split at hnames
    · exact encloses.partner after hlibrary hnames
    · exact secluded.abroad hnames habroad

/-- A check of a project in which nothing is tied. -/
lemma Secluded.mutual_check (secluded : set.Secluded) (addressed : set.Addressed)
    (orderly : set.Orderly) (huntied : ∀ {a b}, set.Names a b → a.library ≠ .project) :
    (set.check .project).1.Secluded ∧ (set.check .project).1.Mutual := by
  have after := (@sameCores_check set (fun _ => False) addressed.identified
    .project).addressed addressed
  have hcheck {a b : DeclId} : (set.check .project).1.Names a b ↔ _ :=
    addressed.names_check orderly .project
  refine ⟨⟨secluded.encloses.of_kin_eq
    fun id _ => (sameKin_check addressed.identified .project).kin id,
    fun h => ?_, fun h habroad => ?_⟩, ⟨fun h hproject => ?_, fun h hproject => ?_⟩⟩
  · -- A name that the check finds is a partner of a function, and partners are mutual; any other
    -- name was there before, and then its bearer is abroad.
    have hnames := hcheck.1 h
    split at hnames
    · next hfunction => exact hfunction.2
    · exact secluded.functions hnames
  · have hnames := hcheck.1 h
    rw [if_neg fun hfunction => habroad hfunction.1] at hnames
    exact secluded.abroad hnames habroad
  · have hnames := hcheck.1 h
    split at hnames
    · next hfunction =>
      obtain ⟨library, hties⟩ := after.exists_ties hnames.symm
      exact ⟨hfunction.2, (after.relations?_of_ties hties).1⟩
    · exact absurd hproject (huntied hnames)
  · have hnames := hcheck.1 h
    split at hnames
    · obtain ⟨library, hties⟩ := after.exists_ties hnames.symm
      exact hcheck.2 (by rw [if_pos ⟨hproject, after.isFunction_of_ties hties⟩]; exact hnames.symm)
    · exact absurd hproject (secluded.abroad hnames (huntied hnames))

end LibrarySet

/-- Loading keeps libraries secluded, as long as they shun the name of the project. -/
theorem loadInvariant_secluded (name : String) : LoadInvariant fun set pool units =>
    ((Linkages.Booked set units ∧ pool.Matches set.project []) ∧
      (Shunned name units → Insular name set units)) ∧ (Shunned name units → set.Secluded) where
  settled h := (loadInvariant_insular name).settled h.1
  pool h := (loadInvariant_insular name).pool h.1
  perm h hperm := ⟨(loadInvariant_insular name).perm h.1 hperm, fun shunned =>
    h.2 fun unit hunit => shunned unit (hperm.mem_iff.1 hunit)⟩
  addImport := by
    intro set pool units library h
    have hnext := (loadInvariant_insular name).addImport library h.1
    refine ⟨hnext, fun shunned => (h.2 shunned).widen h.1.1.1.1.orderly.identified
      hnext.1.1.1.orderly.identified fun {id category index entry} hslot => Or.inl ?_⟩
    rwa [LibrarySet.slot?_addImport] at hslot
  tidy := by
    intro set pool units library lib tree bench h hproject hloaded htidy
    have hnext := (loadInvariant_insular name).tidy h.1 hproject hloaded htidy
    refine ⟨hnext, fun shunned => ?_⟩
    obtain ⟨bench', htidy', -, -, hgrows, -⟩ := h.1.1.1.1.settled.tidy hloaded h.1.1.2 tree
    obtain rfl : bench = bench' := by simpa [htidy] using htidy'
    have secluded := h.2 fun unit hunit => shunned unit (List.mem_cons_of_mem _ hunit)
    exact secluded.widen h.1.1.1.1.orderly.identified hnext.1.1.1.orderly.identified
      fun hslot => (hgrows.slot_only hloaded hslot).imp (fun h => h) fun h => h.2
  finish := by
    intro set pool units batch library options h hproject hbatch
    refine ⟨(loadInvariant_insular name).finish options h.1 hproject hbatch, fun shunned => ?_⟩
    have shunned' : Shunned name (batch ++ units) := shunned.of_finish
    have hundeclared : ∀ unit ∈ batch, unit.Undeclared :=
      fun unit hunit => undeclared_of_skeleton_eq (hbatch unit hunit).2
    have secluded := h.2 shunned'
    -- Linking the new units names nobody that was not named; the check does the rest.
    have hunties := h.1.1.1.1.toArranged.unties_link hundeclared options
    have linked : (Linkages.link ⟨set, batch⟩ options).libraries.Secluded :=
      ⟨(h.1.2 shunned').encloses_link h.1.1.1 hundeclared (shunned'.aloof hproject hbatch)
        secluded.encloses options, fun h => secluded.functions (hunties _ _ h),
        fun h => secluded.abroad (hunties _ _ h)⟩
    have arranged := (h.1.1.1.link hundeclared options).1.toArranged
    exact linked.check arranged.addressed arranged.orderly hproject

/-! ## Runs -/

namespace Library

/-- Striking pairs brings no function into a list. -/
lemma relations?_dropRelations (pairs : List (DeclId × DeclId)) {lib : Library} {id : DeclId}
    {r : Relations} (h : (pairs.foldl dropRelation lib).relations? id = some r) :
    ∃ r', lib.relations? id = some r' ∧ r.all ⊆ r'.all := by
  induction pairs generalizing lib with
  | nil => exact ⟨r, h, List.Subset.refl _⟩
  | cons pair rest ih =>
    obtain ⟨r', hr', hsub⟩ := ih h
    obtain ⟨r'', hr'', heq, -⟩ := relations?_dropRelation hr'
    refine ⟨r'', hr'', List.Subset.trans hsub ?_⟩
    rcases heq with rfl | rfl
    · exact List.Subset.refl _
    · rw [Relations.all_without]
      exact List.filter_sublist.subset

end Library

namespace LibrarySet

/-- In a blank project nothing is tied. -/
lemma ProjectBlank.untied {set : LibrarySet} (blank : set.ProjectBlank) (hid : set.Identified)
    {a b : DeclId} (h : set.Names a b) : a.library ≠ .project := by
  intro hproject
  obtain ⟨record, hrecord, hb⟩ := names_iff_tied.1 h
  rw [find?_eq hid, hproject] at hrecord
  obtain ⟨entry, hslot, hpart⟩ := Option.bind_eq_some_iff.1 hrecord
  rw [DeclId.tied_part?_fresh (blank _ _ entry hslot) hpart] at hb
  cases hb

end LibrarySet

namespace Session

variable {session : Session}

/-- Tidying anew leaves other libraries secluded, and nothing in the project that is tied. -/
lemma Sound.secluded_tidied (sound : session.Sound) (balanced : session.Balanced)
    (secluded : session.libraries.Secluded) : ∃ tidied report,
      session.rebuild = (tidied.relink, .ok report) ∧ Readied session tidied ∧
        tidied.libraries.Secluded := by
  have arranged := balanced.booked.1.toArranged
  obtain ⟨torn, pool, tidied, report, hperm, hcleared, hsound, htidied, hrebuild⟩ :=
    sound.rebuild_eq
  have readied := sound.readied_tidied balanced.booked (balanced.lasting sound) hperm hcleared
    hsound htidied
  refine ⟨tidied, report, hrebuild, readied, ?_⟩
  -- Abroad, clearing the project only drops entries from relation lists and tidying leaves them be,
  -- so a name that is left was there in the session.
  have habroad {a b : DeclId} (h : tidied.libraries.Names a b) (hlibrary : a.library ≠ .project) :
      session.libraries.Names a b := by
    have hstruck := sound.contents_cleared arranged hperm pool hlibrary
    obtain ⟨r, hr, hb⟩ := h
    rw [LibrarySet.relations?_eq, htidied.grows.other hlibrary] at hr
    obtain ⟨lib', hlib', hr⟩ := Option.bind_eq_some_iff.1 hr
    have hcleared : (session.cleared torn pool).libraries.get? a.library = some lib' := hlib'
    rw [LibrarySet.contents?, hcleared, LibrarySet.contents?, Option.map_some,
      Option.map_map] at hstruck
    obtain ⟨lib, hlib, heq⟩ := Option.map_eq_some_iff.1 hstruck.symm
    rw [← Library.relations?_contents, ← heq] at hr
    obtain ⟨r', hr', hsub⟩ := Library.relations?_dropRelations _ hr
    rw [Library.relations?_contents] at hr'
    exact ⟨r', by rw [LibrarySet.relations?_eq, hlib, Option.bind_some, hr'], hsub hb⟩
  have huntied {a b : DeclId} (h : tidied.libraries.Names a b) : a.library ≠ .project :=
    readied.blank.untied readied.booked.1.orderly.identified h
  exact ⟨secluded.encloses.of_sameCores readied.cores fun _ habroad hproject => habroad hproject,
    fun h => secluded.functions (habroad h (huntied h)),
    fun h hlibrary => secluded.abroad (habroad h hlibrary) hlibrary⟩

/-- A rebuild ties the functions of the project at both ends, and leaves other libraries
secluded. -/
theorem Balanced.mutual_rebuild (balanced : session.Balanced) (sound : session.Sound)
    (secluded : session.libraries.Secluded) (quiet : session.rebuild.1.Quiet) :
    session.rebuild.1.libraries.Secluded ∧ session.rebuild.1.libraries.Mutual := by
  obtain ⟨tidied, report, hrebuild, readied, hsecluded⟩ := sound.secluded_tidied balanced secluded
  have insular := balanced.insular_readied readied
  obtain ⟨keeps, loaded⟩ := (readied.sound.keeps ⟨⟨⟨readied.booked, readied.sound.pool⟩,
    fun _ => insular⟩, fun _ => hsecluded⟩).loadImports
      (loadInvariant_secluded session.manifest.name) (importNames tidied.files)
  obtain ⟨keeps', -⟩ := (readied.sound.keeps ⟨⟨⟨readied.booked, readied.sound.pool⟩,
    fun _ => insular⟩, fun _ => rfl⟩).loadImports
      (loadInvariant_quiet session.manifest.name tidied.libraries.project)
      (importNames tidied.files)
  obtain ⟨hmid, -⟩ := readied.sound.loadImports (importNames tidied.files)
  rw [hrebuild] at quiet ⊢
  have quiet := tidied.quiet_relink.1 quiet
  rw [Session.relink, libraries_checkProject]
  generalize tidied.loadImports (importNames tidied.files) = mid at keeps loaded keeps' hmid quiet ⊢
  have shunned : Shunned session.manifest.name mid.units := by
    rw [← readied.manifest, ← loaded.manifest_eq]
    exact hmid.shunned_iff.2 quiet
  have booked : Linkages.Booked mid.libraries mid.units := keeps.holds.1.1.1
  have secluded := keeps.holds.2 shunned
  -- Loading imports does not touch the project's own entries, which tidying left without relations.
  have blank : mid.libraries.ProjectBlank := by
    intro category index entry hslot
    refine readied.blank category index entry ?_
    rw [← hslot]
    exact congrArg (fun lib : Library => lib.slot? category index) (keeps'.holds.2 shunned).symm
  have hundeclared : ∀ unit ∈ mid.files, unit.Undeclared := by
    rw [loaded.files_eq]
    exact fun unit hunit => (readied.unlinked unit hunit).undeclared
  have hunties := booked.1.toArranged.unties_link hundeclared mid.options
  have hcores := Linkages.Booked.sameCores_link booked hundeclared hmid.files_library mid.options
  have linked : (Linkages.link ⟨mid.libraries, mid.files⟩ mid.options).libraries.Secluded :=
    ⟨secluded.encloses.of_sameCores hcores fun _ habroad hproject => habroad hproject,
      fun h => secluded.functions (hunties _ _ h), fun h => secluded.abroad (hunties _ _ h)⟩
  have arranged := (booked.link hundeclared mid.options).1.toArranged
  -- After linking, nothing in the project names anything, so the lists start blank.
  exact linked.mutual_check arranged.addressed arranged.orderly fun h =>
    blank.untied booked.1.orderly.identified (hunties _ _ h)

/-- A request leaves other libraries secluded, unless it loads one that names the project. -/
lemma Balanced.secluded_perform (balanced : session.Balanced) (sound : session.Sound)
    (secluded : session.libraries.Secluded) (request : Request)
    (quiet : (session.perform request).Quiet) : (session.perform request).libraries.Secluded := by
  cases request with
  | rebuild => exact (balanced.mutual_rebuild sound secluded quiet).1
  | load name =>
    have shunned := (sound.perform (.load name)).shunned_iff.2 quiet
    rw [Session.perform] at shunned ⊢
    rcases session.loadLibrary_fst name with h | h
    · rw [h]
      exact secluded
    · obtain ⟨after, hload, keeps, loaded, -⟩ := (sound.keeps ⟨⟨⟨balanced.booked, sound.pool⟩,
        fun _ => balanced.insular⟩, fun _ => secluded⟩).load
          (loadInvariant_secluded session.manifest.name) session.manifest.libraries.length name
      rw [h, hload] at shunned ⊢
      rw [loaded.manifest_eq] at shunned
      exact keeps.holds.2 shunned
  | insert tree => exact secluded
  | erase path => exact secluded
  | insertLibrary name trees => exact secluded
  | changed path => exact secluded
  | dropped path => exact secluded

end Session

namespace LibrarySet

lemma secluded_new (projectName kernelName : String) : (new projectName kernelName).Secluded := by
  have hid : (new projectName kernelName).Identified :=
    fun _ _ => (settled_new projectName kernelName).id_eq
  have hslot {library : LibraryId} {category : Category} {index : Nat} :
      (new projectName kernelName).slot? library category index = none := by
    refine Option.eq_none_iff_forall_ne_some.2 fun entry hslot => ?_
    obtain ⟨lib, hlib, hentry⟩ := Option.bind_eq_some_iff.1 hslot
    obtain ⟨name, rfl⟩ := get?_new hlib
    simp [Library.slot?_new] at hentry
  have hnames {a b : DeclId} : ¬ (new projectName kernelName).Names a b := by
    rintro ⟨r, hr, -⟩
    rw [relations?, find?_eq hid, hslot] at hr
    cases hr
  refine ⟨fun id kin _ hkin => ?_, fun h => absurd h hnames, fun h => absurd h hnames⟩
  rw [kin?, hslot] at hkin
  cases hkin

end LibrarySet

/-- Other libraries stay secluded in every run, as long as none that it loads names the project. -/
theorem Session.secluded_run (manifest : Manifest) (sources : Sources) :
    ∃ initial, Session.start manifest sources = .ok initial ∧ ∀ requests : List Request,
      (initial.run requests).Sound ∧ ((initial.run requests).Quiet →
        (initial.run requests).Balanced ∧ (initial.run requests).libraries.Secluded) := by
  obtain ⟨initial, hstart, hrun⟩ := balanced_run manifest sources
  obtain ⟨hsound, hbalanced⟩ := hrun []
  obtain ⟨initial', hstart', keeps, -⟩ :=
    Keeps.start (loadInvariant_secluded manifest.name) manifest sources
      ⟨⟨⟨LibrarySet.booked_new .., IndexPool.matches_new manifest.name⟩,
        fun _ => LibrarySet.insular_new ..⟩, fun _ => LibrarySet.secluded_new ..⟩
  obtain rfl : initial = initial' := by simpa [hstart] using hstart'
  obtain ⟨initial'', hstart'', -, hmanifest⟩ := Sound.start manifest sources
  obtain rfl : initial = initial'' := by simpa [hstart] using hstart''
  refine ⟨initial, hstart, run_induction (P := fun session => session.Sound ∧
    (session.Quiet → session.Balanced ∧ session.libraries.Secluded))
    ⟨hsound, fun quiet => ⟨hbalanced quiet, ?_⟩⟩ ?_⟩
  · have shunned := hsound.shunned_iff.2 quiet
    rw [run, List.foldl_nil, hmanifest] at shunned
    exact keeps.holds.2 shunned
  · intro session request h
    refine ⟨h.1.perform request, fun quiet => ?_⟩
    obtain ⟨balanced, secluded⟩ := h.2 (h.1.quiet_of_perform quiet)
    exact ⟨balanced.perform h.1 request quiet, balanced.secluded_perform h.1 secluded request quiet⟩

end SymbolGraph
