import SymbolGraph.Proofs.Checking.MutualTies
import SymbolGraph.Proofs.Session.DanglingTargets

/-!
# Marked documents are out of the model

Marking a document strikes its functions from the lists of the functions that they name, takes its
back-links out of other records, and empties its own declarations.  That reaches everything that has
one of its functions in a list, as functions of the project that are tied name each other; and what
an earlier document of the batch has lost by then, it lost together with its own lists.  So marking
keeps exactly the ties among the functions that stay (`LibrarySet.Entwined.names_detaches`).
-/

namespace SymbolGraph

namespace LibrarySet

variable {set set' : LibrarySet} {a b d : DeclId} {decls : List DeclId}

/-! ## Striking functions from lists -/

lemma relations?_dropRelation (hid : set.Identified) {pair : DeclId × DeclId}
    (hpair : pair.1.owner? ≠ none) (ha : a.owner? ≠ none) : (set.dropRelation pair).relations? a =
      if pair.1 = a then (set.relations? a).map (·.without pair.2) else set.relations? a :=
  relations?_edit_callable hid hpair ha fun _ => rfl

lemma unties_dropRelation (hid : set.Identified) (pair : DeclId × DeclId) :
    set.Unties (set.dropRelation pair) :=
  unties_callable hid pair.1 fun callable => by
    rw [Relations.all_without]
    exact List.filter_sublist.subset

/-- Only members name anything. -/
def Memberly (set : LibrarySet) : Prop := ∀ {a b}, set.Names a b → a.owner? ≠ none

lemma Memberly.of_unties (memberly : set.Memberly) (h : set.Unties set') : set'.Memberly :=
  fun hnames => memberly (h _ _ hnames)

/-- Striking one function from the lists of another takes away that tie, and no other. -/
lemma names_dropRelation (hid : set.Identified) (memberly : set.Memberly) {pair : DeclId × DeclId}
    (hpair : pair.1.owner? ≠ none) :
    (set.dropRelation pair).Names a b ↔ set.Names a b ∧ (a, b) ≠ pair := by
  have hunties := unties_dropRelation hid pair
  have hread (ha : a.owner? ≠ none) := @relations?_dropRelation set a hid pair hpair ha
  constructor
  · intro hnames
    refine ⟨hunties _ _ hnames, ?_⟩
    rintro rfl
    obtain ⟨r, hr, hb⟩ := hnames
    rw [hread hpair, if_pos rfl] at hr
    obtain ⟨r', -, rfl⟩ := Option.map_eq_some_iff.1 hr
    simp at hb
  · rintro ⟨hnames, hne⟩
    obtain ⟨r, hr, hb⟩ := id hnames
    rw [Names, hread (memberly hnames), hr]
    split
    · next heq =>
      refine ⟨_, rfl, ?_⟩
      rw [Relations.all_without]
      exact List.mem_filter.2 ⟨hb, decide_eq_true fun hsame => hne (by rw [← heq, hsame])⟩
    · exact ⟨r, rfl, hb⟩

lemma names_dropRelations (hid : set.Identified) (memberly : set.Memberly)
    {pairs : List (DeclId × DeclId)} (hpairs : ∀ pair ∈ pairs, pair.1.owner? ≠ none) :
    (pairs.foldl dropRelation set).Names a b ↔ set.Names a b ∧ (a, b) ∉ pairs := by
  induction pairs generalizing set with
  | nil => simp
  | cons pair rest ih =>
    have hpair := hpairs pair (List.mem_cons_self ..)
    have hrest := @ih (set.dropRelation pair) (hid.edit _ _)
      (memberly.of_unties (unties_dropRelation hid pair))
      fun other hother => hpairs other (List.mem_cons_of_mem _ hother)
    rw [List.foldl_cons, hrest, names_dropRelation hid memberly hpair,
      List.mem_cons, not_or, and_assoc]

/-- Records stand at their places, only member functions name anything, and those of the project
name members only. -/
structure Functional (set : LibrarySet) : Prop where
  addressed : set.Addressed
  orderly : set.Orderly
  function : ∀ {a b}, set.Names a b → a.category.isFunction = true
  partner : ∀ {a b}, set.Names a b → a.library = .project → b.owner? ≠ none

namespace Functional

variable (functional : set.Functional)

include functional

lemma memberly : set.Memberly := by
  intro a b hnames
  obtain ⟨r, hr, -⟩ := id hnames
  obtain ⟨record, hfind, -⟩ := Option.bind_eq_some_iff.1 hr
  obtain ⟨f, howns, rfl, -⟩ :=
    functional.addressed.owns_of_find? functional.orderly hfind (functional.function hnames)
  exact (functional.addressed.owner_function howns).1

/-- The pairs of a declaration of the project are its functions, each with what it names. -/
lemma mem_relatedPairs (hd : d = ⟨.project, d.category, d.index, none⟩)
    (htop : d.category.isMember = false) :
    (a, b) ∈ set.relatedPairs d ↔ set.Names b a ∧ b.holder = d := by
  rw [relatedPairs, find?_project functional.orderly.identified hd htop]
  constructor
  · intro h
    cases hslot : set.slot? .project d.category d.index with
    | none => simp [hslot] at h
    | some entry =>
      rw [hslot] at h
      obtain ⟨f, hf, h⟩ := List.mem_flatMap.1 h
      obtain ⟨c, list, j, -, howner, -, -, hid, hfind⟩ := functional.addressed.id_function hslot hf
      cases hcallable : f.body.callable? with
      | none => simp [hcallable] at h
      | some callable =>
        rw [hcallable] at h
        obtain ⟨other, hother, heq⟩ := List.mem_map.1 h
        obtain ⟨rfl, rfl⟩ := Prod.mk.inj heq
        refine ⟨⟨callable.relations, ?_, hother⟩, ?_⟩
        · rw [relations?, hfind, Option.bind_some, Member.toEntry, Symbol.body_map, Body.callable?,
            hcallable, Option.map_some]
        · rw [hid, DeclId.holder, DeclId.owner?, howner]
          exact hd.symm
  · rintro ⟨hnames, hholder⟩
    obtain ⟨record, hfind, htied⟩ := names_iff_tied.1 hnames
    obtain ⟨f, ⟨category, index, entry, hslot, hf⟩, rfl, rfl⟩ :=
      functional.addressed.owns_of_find? functional.orderly hfind (functional.function hnames)
    obtain ⟨c, list, j, -, howner, -, -, hid, -⟩ := functional.addressed.id_function hslot hf
    have hd' : d = ⟨f.id.library, category, index, none⟩ := by
      rw [← hholder, DeclId.holder, DeclId.owner?, hid, howner]
      rfl
    have hlibrary : f.id.library = .project :=
      (congrArg DeclId.library hd').symm.trans (congrArg DeclId.library hd)
    have hslot : set.slot? .project d.category d.index = some entry := by
      rw [hd', ← hlibrary]
      exact hslot
    rw [hslot]
    refine List.mem_flatMap.2 ⟨f, hf, ?_⟩
    cases hcallable : f.body.callable? with
    | none => simp [Body.tied, Member.toEntry, Body.callable?, hcallable] at htied
    | some callable =>
      simp only [Body.tied, Member.toEntry, Symbol.body_map, Body.callable?, hcallable] at htied
      exact List.mem_map_of_mem htied

/-- Striking the functions of a declaration takes every tie away that goes both ways and ends in one
of them. -/
lemma names_stripRelations (hd : d = ⟨.project, d.category, d.index, none⟩)
    (htop : d.category.isMember = false) :
    (set.stripRelations d).Names a b ↔ set.Names a b ∧ ¬ (set.Names b a ∧ b.holder = d) := by
  have hpairs : ∀ pair ∈ set.relatedPairs d, pair.1.owner? ≠ none := by
    rintro ⟨x, y⟩ hpair
    obtain ⟨hnames, hholder⟩ := (functional.mem_relatedPairs hd htop).1 hpair
    refine functional.partner hnames ?_
    rw [← (DeclId.holder_seat y).1, hholder, hd]
  rw [stripRelations, names_dropRelations functional.orderly.identified functional.memberly hpairs,
    functional.mem_relatedPairs hd htop]

lemma of_unties (addressed : set'.Addressed) (orderly : set'.Orderly) (h : set.Unties set') :
    set'.Functional :=
  ⟨addressed, orderly, fun hnames => functional.function (h _ _ hnames),
    fun hnames => functional.partner (h _ _ hnames)⟩

lemma stripRelations (hd : d = ⟨.project, d.category, d.index, none⟩)
    (htop : d.category.isMember = false) : (set.stripRelations d).Functional :=
  functional.of_unties
    ((@sameCores_stripRelations set (fun _ => False) functional.addressed.identified d).addressed
      functional.addressed)
    ((sameTags_stripRelations functional.orderly d).orderly functional.orderly)
    fun _ _ hnames => ((functional.names_stripRelations hd htop).1 hnames).1

/-- Striking the functions of several declarations: a tie between other functions stays, and one
that leads from another function into the declarations does not, if it goes both ways. -/
lemma names_strips (hdecls : ∀ id ∈ decls,
      id = ⟨.project, id.category, id.index, none⟩ ∧ id.category.isMember = false) :
    ((decls.foldl LibrarySet.stripRelations set).Names a b → set.Names a b ∧
        (set.Names b a → b.holder ∈ decls → a.holder ∈ decls)) ∧
      (set.Names a b → b.holder ∉ decls →
        (decls.foldl LibrarySet.stripRelations set).Names a b) := by
  induction decls generalizing set with
  | nil => simp
  | cons first rest ih =>
    obtain ⟨hfirst, htop⟩ := hdecls first (List.mem_cons_self ..)
    have hstep {a b : DeclId} := @names_stripRelations set a b first functional hfirst htop
    obtain ⟨hgone, hkept⟩ := @ih (set.stripRelations first) (functional.stripRelations hfirst htop)
      fun id hid => hdecls id (List.mem_cons_of_mem _ hid)
    constructor
    · intro hnames
      obtain ⟨hmid, hboth⟩ := hgone hnames
      obtain ⟨hbefore, hnot⟩ := hstep.1 hmid
      refine ⟨hbefore, fun hback hmem => ?_⟩
      have hmem := (List.mem_cons.1 hmem).resolve_left fun heq => hnot ⟨hback, heq⟩
      by_cases hself : a.holder = first
      · exact hself ▸ List.mem_cons_self ..
      · exact List.mem_cons_of_mem _ (hboth (hstep.2 ⟨hback, fun h => hself h.2⟩) hmem)
    · intro hnames hmem
      rw [List.mem_cons, not_or] at hmem
      exact hkept (hstep.2 ⟨hnames, fun h => hmem.1 h.2⟩) hmem.2

end Functional

/-! ## Marking documents -/

lemma SameContents.names_iff (h : SameContents (fun _ => True) set set') :
    set'.Names a b ↔ set.Names a b := by
  rw [Names, Names, h.relations?_eq trivial]

/-- Resetting a declaration of the project empties the lists of its functions, and of no others. -/
lemma names_reset (hid : set.Identified) (memberly : set.Memberly)
    (hd : d = ⟨.project, d.category, d.index, none⟩) (htop : d.category.isMember = false) :
    (set.edit d .reset).Names a b ↔ set.Names a b ∧ a.holder ≠ d := by
  obtain ⟨hlibrary, hseat⟩ := DeclId.holder_seat a
  constructor
  · intro hnames
    refine ⟨unties_edit hid d (fun entry => .fresh entry.body _) (fun m => ?_) _ _ hnames, ?_⟩
    · change (Leaf.fresh m.id.category).tied ⊆ _
      cases m.id.category <;> exact List.nil_subset _
    · rintro rfl
      obtain ⟨record, hrecord, hb⟩ := names_iff_tied.1 hnames
      rw [find?_eq (hid.edit _ _), slot?_edit hid, if_pos ⟨hlibrary, hseat⟩] at hrecord
      obtain ⟨entry', hentry', hpart⟩ := Option.bind_eq_some_iff.1 hrecord
      obtain ⟨entry, -, rfl⟩ := Option.map_eq_some_iff.1 hentry'
      have hfresh : (Edit.reset.atSeat a.holder entry).body = .fresh entry.id.category := by
        rw [Edit.atSeat, DeclId.owner?_of_top htop]
        rfl
      rw [DeclId.tied_part?_fresh hfresh hpart] at hb
      cases hb
  · rintro ⟨hnames, hne⟩
    obtain ⟨record, hrecord, hb⟩ := names_iff_tied.1 hnames
    refine names_iff_tied.2 ⟨record, ?_, hb⟩
    rw [find?_eq hid] at hrecord
    rw [find?_eq (hid.edit _ _), slot?_edit hid, if_neg, hrecord]
    rintro ⟨hlib, hsame⟩
    rw [DeclId.seat_of_top htop] at hsame
    obtain ⟨hcategory, hindex⟩ := Prod.mk.inj hsame
    refine hne ?_
    rw [(DeclId.proper_of_owner (memberly hnames)).holder_eq, ← hlib, ← hcategory, ← hindex, hd]

lemma names_resets (hid : set.Identified) (memberly : set.Memberly) (hdecls : ∀ id ∈ decls,
      id = ⟨.project, id.category, id.index, none⟩ ∧ id.category.isMember = false) :
    (decls.foldl (fun set id => set.edit id .reset) set).Names a b
      ↔ set.Names a b ∧ a.holder ∉ decls := by
  induction decls generalizing set with
  | nil => simp
  | cons first rest ih =>
    obtain ⟨hfirst, htop⟩ := hdecls first (List.mem_cons_self ..)
    have hstep {a b : DeclId} := @names_reset set a b first hid memberly hfirst htop
    have hrest := @ih (set.edit first .reset) (hid.edit _ _)
      (fun hnames => memberly (hstep.1 hnames).1)
      fun id hmem => hdecls id (List.mem_cons_of_mem _ hmem)
    rw [List.foldl_cons, hrest, hstep, List.mem_cons, not_or, and_assoc]

/-- Between arranged libraries and documents, only member functions name anything, and those of the
project that are named name in turn. -/
structure Entwined (set : LibrarySet) (units : List SourceUnit) : Prop where
  arranged : set.Arranged units
  function : ∀ {a b}, set.Names a b → a.category.isFunction = true
  pairing : set.Mutual

variable {unit : SourceUnit} {units others : List SourceUnit}

lemma Entwined.functional (entwined : set.Entwined units) : set.Functional :=
  ⟨entwined.arranged.addressed, entwined.arranged.orderly, entwined.function,
    fun hnames hproject => (entwined.pairing.function hnames hproject).2⟩

/-- After a document of the project is marked, the ties that neither start nor end in it are
left. -/
lemma Entwined.names_detach (entwined : set.Entwined (unit :: others))
    (hproject : unit.library = .project) : (Linkage.detach ⟨set, unit⟩).libraries.Names a b ↔
      set.Names a b ∧ a.holder ∉ unit.declarations ∧ b.holder ∉ unit.declarations := by
  have hdecls : ∀ id ∈ unit.declarations,
      id = ⟨.project, id.category, id.index, none⟩ ∧ id.category.isMember = false := fun _ hid =>
    entwined.arranged.settled.declared_project (List.mem_cons_self ..) hproject hid
  have functional := entwined.functional
  have hstrips {a b : DeclId} := @Functional.names_strips set a b
    unit.declarations functional hdecls
  have hstripped := SameCores.foldl unit.declarations
    (fun _ hid id _ => @sameCores_stripRelations _ (fun _ => False) hid id)
      functional.orderly.identified
  have hlinks : SameContents (fun _ => True) (unit.declarations.foldl stripRelations set)
      (unit.links.foldl Linkage.dropLink (unit.declarations.foldl stripRelations set)) :=
    .foldl unit.links (fun set link _ => sameContents_dropLink set link) _
  have hdropped : SameCores (fun _ => True) (unit.declarations.foldl stripRelations set)
      (unit.links.foldl Linkage.dropLink (unit.declarations.foldl stripRelations set)) :=
    .foldl unit.links (fun _ hid link _ => sameCores_dropLink hid link) hstripped.identified
  have hreset : (Linkage.detach ⟨set, unit⟩).libraries.Names a b ↔ _ :=
    names_resets hdropped.identified
      (fun hnames => functional.memberly (hstrips.1 (hlinks.names_iff.1 hnames)).1) hdecls
  rw [hreset, hlinks.names_iff]
  constructor
  · rintro ⟨hnames, hmine⟩
    -- Ties are mutual, so what names a marked function is named by it and was struck.
    obtain ⟨hbefore, hboth⟩ := hstrips.1 hnames
    refine ⟨hbefore, hmine, fun hmem => hmine (hboth (entwined.pairing.back hbefore ?_) hmem)⟩
    rw [← (DeclId.holder_seat b).1, (hdecls _ hmem).1]
  · rintro ⟨hbefore, hmine, hother⟩
    exact ⟨hstrips.2 hbefore hother, hmine⟩

lemma Entwined.detach (entwined : set.Entwined (unit :: others))
    (hproject : unit.library = .project) :
    (Linkage.detach ⟨set, unit⟩).libraries.Entwined
      ((Linkage.detach ⟨set, unit⟩).unit :: others) := by
  have hnames {a b : DeclId} := @Entwined.names_detach set a b unit others entwined hproject
  refine ⟨entwined.arranged.detach, fun h => entwined.function (hnames.1 h).1,
    ⟨fun h => entwined.pairing.function (hnames.1 h).1, fun h hback => ?_⟩⟩
  obtain ⟨hbefore, hmine, hother⟩ := hnames.1 h
  exact hnames.2 ⟨entwined.pairing.back hbefore hback, hother, hmine⟩

lemma Entwined.perm (entwined : set.Entwined units) (h : units.Perm others) : set.Entwined others :=
  ⟨entwined.arranged.perm h, entwined.function, entwined.pairing⟩

/-- After documents of the project are marked, in whatever order, the ties that neither start
nor end in them are left. -/
theorem Entwined.names_detaches {torn : List SourceUnit} (entwined : set.Entwined (torn ++ others))
    (hproject : ∀ unit ∈ torn, unit.library = .project) :
    (Linkages.each Linkage.detach set torn).libraries.Names a b ↔ set.Names a b ∧
      a.holder ∉ torn.flatMap SourceUnit.declarations ∧
      b.holder ∉ torn.flatMap SourceUnit.declarations := by
  induction torn generalizing set others with
  | nil => simp [Linkages.each]
  | cons unit rest ih =>
    have hunit := hproject unit (List.mem_cons_self ..)
    have hrest := @ih (Linkage.detach ⟨set, unit⟩).libraries
      ((Linkage.detach ⟨set, unit⟩).unit :: others)
      ((entwined.detach hunit).perm List.perm_middle.symm)
      fun other hother => hproject other (List.mem_cons_of_mem _ hother)
    rw [Linkages.each, hrest, entwined.names_detach hunit, List.flatMap_cons, List.mem_append,
      List.mem_append, not_or, not_or]
    tauto

end LibrarySet

/-! ## What is left of marked documents -/

/-- The declarations that a record has in its lists: its heirs, and the functions that it is tied
to. -/
def Entry.kindred (record : Entry) : List DeclId :=
  record.body.implementors?.getD [] ++ record.body.tied

lemma SourceUnit.mem_references {unit : SourceUnit} {target : Target} {location : Location} :
    (target, location) ∈ unit.references ↔ .reference target location ∈ unit.links := by
  rw [references, List.mem_filterMap]
  constructor
  · rintro ⟨link, hlink, heq⟩
    cases link with
    | reference target' location' =>
      obtain ⟨rfl, rfl⟩ := Prod.mk.inj (Option.some.inj heq)
      exact hlink
    | implementor base heir => cases heq
  · exact fun hlink => ⟨_, hlink, rfl⟩

namespace LibrarySet

variable {set after : LibrarySet} {gone left : List SourceUnit}

/-- The documents `gone` are out of the model `after`: no record has one of their declarations or a
member in a list, and no reference of theirs is left.  What the documents `left` refer to stays, and
so do the ties among their functions. -/
structure Detached (set after : LibrarySet) (gone left : List SourceUnit) : Prop where
  kindred : ∀ {place record}, after.recordAt? place = some record → ∀ id ∈ record.kindred,
    ∀ unit ∈ gone, ¬ unit.Holds (.declaration id)
  ties : ∀ {a b}, after.Names a b ↔ set.Names a b ∧
    ∀ unit ∈ gone, ¬ unit.Holds (.declaration a) ∧ ¬ unit.Holds (.declaration b)
  references : ∀ {target}, after.Live target → ∃ refs, after.references? target = some refs ∧
    ∀ location, (location ∈ refs ↔ ∃ unit ∈ left, .reference target location ∈ unit.links) ∧
      ∀ unit ∈ gone, .reference target location ∈ unit.links → location ∉ refs

lemma Detached.perm (detached : set.Detached after gone left) {gone' : List SourceUnit}
    (h : gone.Perm gone') : set.Detached after gone' left := by
  refine ⟨fun hrecord id hid unit hunit => detached.kindred hrecord id hid unit (h.mem_iff.2 hunit),
    fun {a b} => ?_, fun hlive => ?_⟩
  · simp only [detached.ties, h.mem_iff]
  · simpa only [h.mem_iff] using detached.references hlive

/-- No document that is left holds what one holds that is gone. -/
lemma Settled.held_once (settled : set.Settled (gone ++ left)) {unit other : SourceUnit}
    (hunit : unit ∈ gone) (hother : other ∈ left) {id : DeclId}
    (holds : other.Holds (.declaration id)) : ¬ unit.Holds (.declaration id) := by
  obtain ⟨before, behind, rfl⟩ := List.append_of_mem hunit
  have hshuffled := settled.perm (List.perm_middle.append_right left)
  exact fun hboth => hshuffled.disjoint (List.mem_append_right _ hother) hboth holds

/-- What is referred to when the documents `gone` have given up their references has those of the
documents `left`, and none that one of `gone` had: a reference is on record in one document only. -/
lemma references_left {set after : LibrarySet} {gone gone' left : List SourceUnit}
    (booked : Linkages.Booked set (gone ++ left)) (hbooked : after.Booked (gone' ++ left))
    (hidle : ∀ unit ∈ gone', unit.references = []) {target : Target} (hlive : after.Live target) :
    ∃ refs, after.references? target = some refs ∧
      ∀ location, (location ∈ refs ↔ ∃ unit ∈ left, .reference target location ∈ unit.links) ∧
        ∀ unit ∈ gone, .reference target location ∈ unit.links → location ∉ refs := by
  obtain ⟨proper, refs, hrefs⟩ := (hbooked.orderly.live_iff target).1 hlive
  obtain ⟨-, hperm⟩ := hbooked.ledger.exact proper hrefs
  -- The ledger says which references there are: those that the documents which are left have noted.
  have hmem (location : Location) :
      location ∈ refs ↔ ∃ unit ∈ left, .reference target location ∈ unit.links := by
    simp only [hperm.mem_iff, List.mem_flatMap, SourceUnit.mem_pointers,
      ← SourceUnit.mem_references, List.mem_append]
    constructor
    · rintro ⟨unit, hunit | hunit, hreference⟩
      · rw [hidle unit hunit] at hreference
        cases hreference
      · exact ⟨unit, hunit, hreference⟩
    · rintro ⟨unit, hunit, hreference⟩
      exact ⟨unit, Or.inr hunit, hreference⟩
  refine ⟨refs, hrefs, fun location => ⟨hmem location, fun unit hunit hlink hlocation => ?_⟩⟩
  obtain ⟨other, hother, hlink'⟩ := (hmem location).1 hlocation
  have hpointer {unit : SourceUnit} (h : .reference target location ∈ unit.links) :
      location ∈ unit.pointers target := SourceUnit.mem_pointers.2 (SourceUnit.mem_references.2 h)
  obtain ⟨refs', hrefs'⟩ := booked.2 unit (List.mem_append_left _ hunit) (target, location)
    (SourceUnit.mem_references.2 hlink)
  obtain ⟨hnodup, hperm'⟩ := booked.1.ledger.exact proper hrefs'
  rw [hperm'.nodup_iff, List.flatMap_append, List.nodup_append] at hnodup
  exact hnodup.2.2 location (List.mem_flatMap.2 ⟨unit, hunit, hpointer hlink⟩) location
    (List.mem_flatMap.2 ⟨other, hother, hpointer hlink'⟩) rfl

/-- Marking documents of the project detaches them. -/
lemma Entwined.detached (entwined : set.Entwined (gone ++ left))
    (booked : Linkages.Booked set (gone ++ left)) (noted : set.Noted (gone ++ left))
    (hproject : ∀ unit ∈ gone, unit.library = .project) :
    set.Detached (Linkages.each Linkage.detach set gone).libraries gone left := by
  have settled := entwined.arranged.settled
  have hties {a b : DeclId} := @Entwined.names_detaches set a b left gone entwined hproject
  -- Marking keeps the books balanced and leaves the marked documents without entries.
  obtain ⟨⟨hbooked, hnoted⟩, hidle⟩ := Linkages.each_induction Linkage.detach
    (fun set units => set.Booked units ∧ set.Noted units) (fun unit => unit.library = .project)
    (fun unit => unit.references = [] ∧ unit.heirs = [])
    (fun h hperm => ⟨h.1.perm hperm, h.2.perm hperm⟩)
    (fun h hunit => ⟨⟨(h.1.detach hunit).1, h.2.detach h.1.orderly.identified⟩, rfl, rfl⟩)
    ⟨booked.1, noted⟩ hproject
  generalize Linkages.each Linkage.detach set gone = detached at *
  have hheld {id : DeclId} : id.holder ∉ gone.flatMap SourceUnit.declarations ↔
      ∀ unit ∈ gone, ¬ unit.Holds (.declaration id) := by
    simp [List.mem_flatMap, SourceUnit.Holds]
  refine ⟨fun {place record} hrecord id hid => ?_, fun {a b} => ?_, fun {target} hlive => ?_⟩
  · rcases List.mem_append.1 hid with hheir | htied
    · rcases recordAt?_eq_some.1 hrecord with ⟨-, hslot⟩ | ⟨c, j, entry, list, m, -, -, -, -, rfl⟩
      · cases hlist : record.body.implementors? with
        | none => simp [hlist] at hheir
        | some list =>
          rw [hlist, Option.getD_some] at hheir
          have hheirs : detached.libraries.heirs? ⟨place.library, place.category, place.index, none⟩
              = some list := by
            rw [heirs?, kin?, hslot, Option.map_some, Option.bind_some,
              Body.implementors?_kin, hlist]
          -- An heir in a list is noted in the document that declares it.
          obtain ⟨unit, hunit, hdeclared, hpair⟩ := hnoted _ id rfl ⟨list, hheirs, hheir⟩
          rcases List.mem_append.1 hunit with h | h
          · rw [(hidle unit h).2] at hpair
            cases hpair
          · obtain ⟨-, htop, -⟩ := settled.declared (List.mem_append_right _ h) hdeclared
            refine fun other hother => settled.held_once hother h ?_
            rw [SourceUnit.Holds, DeclId.holder, DeclId.owner?_of_top htop]
            exact hdeclared
      · cases hheir
    · have hnames : detached.libraries.Names record.id id :=
        names_iff_tied.2 ⟨record, hbooked.toArranged.find?_id hrecord, htied⟩
      exact hheld.1 (hties.1 hnames).2.2
  · rw [hties, hheld, hheld, forall₂_and]
  · exact references_left booked hbooked (fun unit hunit => (hidle unit hunit).1) hlive

/-- The documents `gone` have left the model `after`: no record and no group has a declaration of
theirs, and of the namespaces of the model `set` those are closed that documents among them opened
and none of the documents `left`. -/
structure Vacated (set after : LibrarySet) (gone left : List SourceUnit) : Prop where
  records : ∀ {place record}, after.recordAt? place = some record →
    ∀ unit ∈ gone, ¬ unit.Holds (.declaration record.id)
  groups : ∀ {ref space name id}, after.space? ref = some space → id ∈ space.group name →
    ∀ unit ∈ gone, ¬ unit.Holds (.declaration id)
  spaces : ∀ {ref}, set.Live (.space ref) → (after.space? ref = none ↔
    (∃ unit ∈ gone, unit.Holds (.space ref)) ∧ ∀ unit ∈ left, ¬ unit.Holds (.space ref))

lemma Vacated.perm (vacated : set.Vacated after gone left) {gone' : List SourceUnit}
    (h : gone.Perm gone') : set.Vacated after gone' left := by
  refine ⟨fun hrecord unit hunit => vacated.records hrecord unit (h.mem_iff.2 hunit),
    fun hspace hid unit hunit => vacated.groups hspace hid unit (h.mem_iff.2 hunit),
    fun hlive => ?_⟩
  simpa only [h.mem_iff] using vacated.spaces hlive

/-- The namespaces of a loaded library are its root and those that documents have opened. -/
lemma Arranged.live_space_iff (arranged : after.Arranged left) {ref : SpaceRef} {lib : Library}
    (hlib : after.get? ref.library = some lib) : after.Live (.space ref) ↔
      ref.space = Arena.root ∨ ∃ unit ∈ left, unit.Holds (.space ref) := by
  have hosts := arranged.settled.hosts hlib
  constructor
  · intro hlive
    refine (arranged.exists_holder hlive).imp_left ?_
    rintro ⟨library, heq⟩
    rw [Target.space.inj heq]
  · intro hopen
    have hspace : ∃ space, lib.spaces.get? ref.space = some space := by
      rcases hopen with hroot | ⟨unit, hunit, hlibrary, hmem⟩
      · obtain ⟨space, hspace, -⟩ := hosts.coherent.tree.root_live
        exact ⟨space, hroot ▸ hspace⟩
      · exact (hosts.spaces_live (List.mem_filter.2 ⟨hunit, decide_eq_true hlibrary.symm⟩) hmem).2
    obtain ⟨space, hspace⟩ := hspace
    exact ⟨space, by rw [space?, hlib, Option.bind_some, hspace]⟩

/-- A document never opens the root. -/
lemma Arranged.space_ne_root (arranged : set.Arranged left) {unit : SourceUnit}
    (hunit : unit ∈ left)
    {ref : SpaceRef} (holds : unit.Holds (.space ref)) : ref.space ≠ Arena.root := by
  obtain ⟨lib, hlib⟩ := arranged.settled.loaded hunit
  exact ((arranged.settled.hosts hlib).spaces_live (List.mem_filter.2 ⟨hunit, by simp⟩) holds.2).1

/-- A model that holds the documents `left`, and once held the documents `gone` besides, is rid of
the latter. -/
lemma Arranged.vacated (arranged : set.Arranged (gone ++ left)) (hafter : after.Arranged left)
    (hloaded : ∀ library lib, set.get? library = some lib →
      ∃ lib', after.get? library = some lib') :
    set.Vacated after gone left := by
  -- What is live afterwards is held by a document that is left, and everything is held only once.
  have hheld {id : DeclId} (hlive : after.Live (.declaration id)) :
      ∀ unit ∈ gone, ¬ unit.Holds (.declaration id) := by
    intro unit hunit
    obtain ⟨library, heq⟩ | ⟨other, hother, holds⟩ := hafter.exists_holder hlive
    · cases heq
    · exact arranged.settled.held_once hunit hother holds
  refine ⟨fun hrecord => hheld ⟨_, hafter.find?_id hrecord, rfl⟩,
    fun {ref space name id} hspace hid => hheld ?_, fun {ref} hlive => ?_⟩
  · obtain ⟨lib, hlib, hspace⟩ := Option.bind_eq_some_iff.1 hspace
    obtain ⟨entry, hslot, rfl, -⟩ := ((hafter.settled.hosts hlib).coherent.group_iff hspace).1 hid
    have hrecord : after.recordAt? ⟨ref.library, entry.id.category, entry.id.index, none⟩
        = some entry := by
      rw [recordAt?_slot, slot?_of_get? hlib, hslot]
    exact ⟨entry, hafter.find?_id hrecord, rfl⟩
  · obtain ⟨space, hspace⟩ := id hlive
    obtain ⟨lib, hlib, -⟩ := Option.bind_eq_some_iff.1 hspace
    obtain ⟨lib', hlib'⟩ := hloaded _ lib hlib
    have hopen := (arranged.live_space_iff hlib).1 hlive
    have hdead : after.space? ref = none ↔ ¬ after.Live (.space ref) := by
      simp [Live, Option.eq_none_iff_forall_ne_some]
    rw [hdead, hafter.live_space_iff hlib', not_or]
    constructor
    · rintro ⟨hroot, hnone⟩
      obtain ⟨unit, hunit, holds⟩ := hopen.resolve_left hroot
      have hgone := (List.mem_append.1 hunit).resolve_right fun h => hnone ⟨unit, h, holds⟩
      exact ⟨⟨unit, hgone, holds⟩, fun other hother hopens => hnone ⟨other, hother, hopens⟩⟩
    · rintro ⟨⟨unit, hunit, holds⟩, hnone⟩
      refine ⟨arranged.space_ne_root (List.mem_append_left _ hunit) holds, ?_⟩
      rintro ⟨other, hother, hopens⟩
      exact hnone other hother hopens

end LibrarySet

namespace Session

variable {session : Session}

/-- Marking the documents at some paths detaches them, and disposing of them rids the model of
them. -/
lemma Balanced.marks_detach (balanced : session.Balanced) (sound : session.Sound)
    (noted : session.libraries.Noted session.units)
    (entwined : session.libraries.Entwined session.units) (paths : List String) :
    ∃ work, Outcome.forEach markFile paths ⟨session, []⟩ = ⟨work, none⟩ ∧
      work.session.units
        = session.files.filter (fun unit => unit.path ∉ paths) ++ session.foreign.values.flatten ∧
      session.libraries.Detached work.session.libraries
        (session.files.filter fun unit => unit.path ∈ paths) work.session.units ∧
      ∀ order, order.Perm work.torn → session.libraries.Vacated
        (Linkages.each Linkage.dispose work.session.libraries order).libraries
        (session.files.filter fun unit => unit.path ∈ paths) work.session.units := by
  obtain ⟨torn, pool, hmark, hperm, -⟩ := sound.marking.markAll_eq paths
  rw [List.nil_append] at hmark
  have hdoomed : torn.Perm (session.files.filter fun unit => unit.path ∈ paths) := by
    refine (List.perm_append_right_iff (session.files.filter fun unit => unit.path ∉ paths)).1
      (hperm.trans ?_)
    have hsplit := List.filter_append_perm (fun unit : SourceUnit => unit.path ∈ paths)
      session.files
    simpa using hsplit.symm
  have hproject : ∀ unit ∈ torn, unit.library = .project := fun unit hunit =>
    sound.files_library unit (hperm.mem_iff.1 (List.mem_append_left _ hunit))
  have hunits := units_perm hperm
  refine ⟨_, hmark, rfl, ?_, fun order horder => ?_⟩
  · exact ((entwined.perm hunits).detached (balanced.booked.perm hunits) (noted.perm hunits)
      hproject).perm hdoomed
  · exact ((entwined.arranged.perm hunits).vacated
      (sound.arranged_disposes entwined.arranged hperm horder)
      fun _ _ => loaded_tornDown torn order).perm hdoomed

/-- Right after a rebuild in any run, as long as no other library names the project: marking
documents of the project, in whatever order, detaches them from everything else before one is
disposed of.  No record is left that has one of their declarations or members in a list, and no
reference that they wrote.  Once they are disposed of, in whatever order, their declarations are in
no table and no group, and exactly those namespaces are closed that they opened and no other
document did. -/
theorem marks_detach_documents (manifest : Manifest) (sources : Sources) :
    ∃ initial, Session.start manifest sources = .ok initial ∧ ∀ requests : List Request,
      let session := (initial.run requests).rebuild.1
      session.Quiet → ∀ paths : List String,
        let doomed := session.files.filter fun unit => unit.path ∈ paths
        ∃ work, Outcome.forEach markFile paths ⟨session, []⟩ = ⟨work, none⟩ ∧
          work.session.units = session.files.filter (fun unit => unit.path ∉ paths) ++
            session.foreign.values.flatten ∧
          session.libraries.Detached work.session.libraries doomed work.session.units ∧
          ∀ order, order.Perm work.torn → session.libraries.Vacated
            (Linkages.each Linkage.dispose work.session.libraries order).libraries doomed
            work.session.units := by
  obtain ⟨initial, hstart, hrun⟩ := secluded_run manifest sources
  obtain ⟨initial', hstart', hnoted⟩ := noted_run manifest sources
  obtain rfl : initial = initial' := by simpa [hstart] using hstart'
  refine ⟨initial, hstart, fun requests => ?_⟩
  obtain ⟨sound, hquiet⟩ := hrun requests
  obtain ⟨-, -, noted⟩ := hnoted (requests ++ [.rebuild])
  rw [run_concat] at noted
  intro session quiet paths
  obtain ⟨balanced, secluded⟩ := hquiet (@Sound.quiet_of_perform _ sound .rebuild quiet)
  obtain ⟨secluded', pairing⟩ := balanced.mutual_rebuild sound secluded quiet
  have after : session.Balanced := balanced.perform sound .rebuild quiet
  exact after.marks_detach (sound.perform .rebuild) noted
    ⟨after.booked.1.toArranged, secluded'.functions, pairing⟩ paths

/-- A kernel without documents. -/
def bareKernel : Sources := { libraries := [("kernel", [])] }

/-- A class in `b.rk` inherits one in `a.rk`, and overrides its function. -/
def pairRequests : List Request :=
  [.insert (classTree "a.rk" [] [classAt 1 "A" [] ["F"]]), .changed "a.rk",
    .insert (classTree "b.rk" [] [classAt 1 "B" ["A"] ["F"]]), .changed "b.rk"]

set_option maxRecDepth 20000 in
lemma relations?_pair :
    (Session.start (.new "demo") bareKernel).toOption.map (fun initial =>
      let session := (initial.run pairRequests).rebuild.1
      (session.foreign.values.flatten.length,
        session.libraries.relations? ⟨.project, .classFunction, 0, some 0⟩))
      = some (0, some { overriddenBy := [⟨.project, .classFunction, 0, some 1⟩] }) := by
  cbv

/-- Before the second of the two documents is marked, the function of the first names its
function. -/
theorem marks_detach_documents_pair :
    ∃ initial, Session.start (.new "demo") bareKernel = .ok initial ∧
      let session := (initial.run pairRequests).rebuild.1
      let doomed := session.files.filter fun unit => unit.path ∈ ["b.rk"]
      session.Quiet ∧ session.libraries.Names ⟨.project, .classFunction, 0, some 0⟩
          ⟨.project, .classFunction, 0, some 1⟩ ∧
        ∃ work, Outcome.forEach markFile ["b.rk"] ⟨session, []⟩ = ⟨work, none⟩ ∧
          session.libraries.Detached work.session.libraries doomed work.session.units ∧
          ∀ order, order.Perm work.torn → session.libraries.Vacated
            (Linkages.each Linkage.dispose work.session.libraries order).libraries doomed
            work.session.units := by
  obtain ⟨initial, hstart, hmarks⟩ := marks_detach_documents (.new "demo") bareKernel
  have hpair := relations?_pair
  rw [hstart] at hpair
  obtain ⟨hforeign, hrelations⟩ := Prod.mk.inj (Option.some.inj hpair)
  have quiet : (initial.run pairRequests).rebuild.1.Quiet := by
    intro unit hunit
    rw [List.length_eq_zero_iff.1 hforeign] at hunit
    cases hunit
  obtain ⟨work, hwork, -, hdetached, hvacated⟩ := hmarks pairRequests quiet ["b.rk"]
  exact ⟨initial, hstart, quiet, ⟨_, hrelations, by decide⟩, work, hwork, hdetached, hvacated⟩

end Session

end SymbolGraph
