import SymbolGraph.Proofs.Session.Identities

/-!
# Functions and what they are tied to

A model is *addressed* if every record stands at the place that its identity means; then functions
can be told apart by their identities, and the relations of a function are what is written down
under its identity (`LibrarySet.relations?`).

A verdict is a list of pairs of functions, and writing it down adds each pair at both ends that
belong to the library.  Where nothing is written down before, a function ends up with all partners
that it has in the verdict, each once (`Relations.tied`).
-/

namespace SymbolGraph

/-! ## Records at their places -/

/-- The place that an identity means. -/
def DeclId.place (id : DeclId) : Place :=
  ⟨id.library, id.seat.1, id.seat.2, id.owner?.map fun _ => (id.category, id.index)⟩

/-- What has an owner is a member, and its identity is of the right form. -/
lemma DeclId.proper_of_owner {id : DeclId} (h : id.owner? ≠ none) : id.Proper := by
  obtain ⟨library, category, index, define⟩ := id
  revert h
  cases category <;> cases define <;> simp [owner?, Proper, Category.owner?, Category.isMember]

/-- An identity that means a member is told by the place. -/
lemma DeclId.eq_of_place {id : DeclId} {library : LibraryId} {category c : Category} {index j : Nat}
    (h : id.place = ⟨library, category, index, some (c, j)⟩) :
    c.owner? = some category ∧ id = ⟨library, c, j, some index⟩ := by
  obtain ⟨library', category', index', define⟩ := id
  revert h
  cases category' <;> cases define <;> simp [place, seat, owner?, Category.owner?] <;> grind

namespace LibrarySet

variable {set set' : LibrarySet}

lemma find?_eq_recordAt? (hid : set.Identified) (id : DeclId) :
    set.find? id = set.recordAt? id.place := by
  rw [find?_eq hid, recordAt?, DeclId.place]
  cases howner : id.owner? with
  | none => cases set.slot? id.library id.seat.1 id.seat.2 <;> simp [DeclId.part?, howner]
  | some owner =>
    cases set.slot? id.library id.seat.1 id.seat.2 with
    | none => rfl
    | some entry =>
      simp only [Option.bind_some, DeclId.part?, howner, Option.map_some]
      cases hlist : entry.body.members? id.category with
      | none => simp [hlist]
      | some members => cases hm : members[id.index]? <;> simp [hlist, hm]

/-- Every record stands at the place that its identity means. -/
structure Addressed (set : LibrarySet) : Prop where
  identified : set.Identified
  place_eq : ∀ {place record}, set.recordAt? place = some record → record.id.place = place

/-- So every record is found under its own identity. -/
lemma Addressed.find?_id (addressed : set.Addressed) {place : Place} {record : Entry}
    (h : set.recordAt? place = some record) : set.find? record.id = some record := by
  rw [find?_eq_recordAt? addressed.identified, addressed.place_eq h, h]

lemma Addressed.find?_slot (addressed : set.Addressed) {library : LibraryId} {category : Category}
    {index : Nat} {entry : Entry} (h : set.slot? library category index = some entry) :
    set.find? entry.id = some entry :=
  addressed.find?_id ((recordAt?_slot ..).trans h)

lemma Arranged.addressed {units : List SourceUnit} (arranged : set.Arranged units) :
    set.Addressed := by
  refine ⟨fun _ _ h => arranged.settled.id_eq h, fun {place record} h => ?_⟩
  obtain ⟨library, category, index, member⟩ := place
  rcases arranged.id_of_recordAt? h with ⟨rfl, htop, heq⟩ | ⟨c, j, rfl, howner, heq⟩
  · have hnone : record.id.owner? = none := by
      rw [heq]
      exact DeclId.owner?_of_top htop
    rw [DeclId.place, DeclId.seat, hnone, heq]
    rfl
  · have hsome : record.id.owner? = some ⟨library, category, index, none⟩ := by
      rw [heq, DeclId.owner?, howner]
    rw [DeclId.place, DeclId.seat, hsome, heq]
    rfl

end LibrarySet

/-! ## Functions -/

/-- The relations of a member; only callables have any. -/
def Member.relations (function : Member) : Relations :=
  (function.body.callable?.map Callable.relations).getD {}

/-- The categories of member functions. -/
def Category.isFunction : Category → Bool
  | .structFunction | .interfaceFunction | .classFunction => true
  | _ => false

lemma Body.mem_functions {body : Body} {function : Member} (h : function ∈ body.functions) :
    ∃ c list, c.isFunction = true ∧ body.members? c = some list ∧ function ∈ list := by
  cases body with
  | struct fields functions => exact ⟨.structFunction, functions, rfl, rfl, h⟩
  | interface info => exact ⟨.interfaceFunction, info.functions, rfl, rfl, h⟩
  | «class» info => exact ⟨.classFunction, info.functions, rfl, rfl, h⟩
  | _ => cases h

namespace LibrarySet

variable {set set' : LibrarySet}

/-- A member function of a library. -/
def Owns (set : LibrarySet) (library : LibraryId) (function : Member) : Prop :=
  ∃ category index entry, set.slot? library category index = some entry ∧
    function ∈ entry.body.functions

/-- The relations written down under an identity. -/
def relations? (set : LibrarySet) (id : DeclId) : Option Relations :=
  (set.find? id).bind fun entry => entry.body.callable?.map Callable.relations

section

variable (addressed : set.Addressed) {library library' : LibraryId} {category category' : Category}
  {index index' : Nat} {entry entry' : Entry} {f f' : Member}

include addressed

/-- The identity of a function says in which list of which slot it stands. -/
lemma Addressed.id_function (hslot : set.slot? library category index = some entry)
    (hf : f ∈ entry.body.functions) : ∃ c list j, c.isFunction = true ∧ c.owner? = some category ∧
      entry.body.members? c = some list ∧ list[j]? = some f ∧
      f.id = ⟨library, c, j, some index⟩ ∧ set.find? f.id = some f.toEntry := by
  obtain ⟨c, list, hc, hlist, hmem⟩ := Body.mem_functions hf
  obtain ⟨j, hj⟩ := List.mem_iff_getElem?.1 hmem
  have hrecord : set.recordAt? ⟨library, category, index, some (c, j)⟩ = some f.toEntry :=
    recordAt?_eq_some.2 (Or.inr ⟨c, j, entry, list, f, rfl, hslot, hlist, hj, rfl⟩)
  obtain ⟨howner, heq⟩ := DeclId.eq_of_place (addressed.place_eq hrecord)
  exact ⟨c, list, j, hc, howner, hlist, hj, heq, addressed.find?_id hrecord⟩

/-- Functions are told apart by their identities. -/
lemma Addressed.function_unique (hslot : set.slot? library category index = some entry)
    (hf : f ∈ entry.body.functions) (hslot' : set.slot? library' category' index' = some entry')
    (hf' : f' ∈ entry'.body.functions) (heq : f.id = f'.id) :
    library = library' ∧ category = category' ∧ index = index' ∧ entry = entry' ∧ f = f' := by
  obtain ⟨c, list, j, -, howner, hlist, hj, hid, -⟩ := addressed.id_function hslot hf
  obtain ⟨c', list', j', -, howner', hlist', hj', hid', -⟩ := addressed.id_function hslot' hf'
  rw [hid, hid'] at heq
  obtain ⟨rfl, rfl, rfl, hindex⟩ := DeclId.mk.inj heq
  obtain rfl := Option.some.inj hindex
  obtain rfl := Option.some.inj (howner.symm.trans howner')
  obtain rfl := Option.some.inj (hslot.symm.trans hslot')
  obtain rfl := Option.some.inj (hlist.symm.trans hlist')
  exact ⟨rfl, rfl, rfl, rfl, Option.some.inj (hj.symm.trans hj')⟩

/-- What a function keeps is written down under its identity. -/
lemma Addressed.relations_eq (hslot : set.slot? library category index = some entry)
    (hf : f ∈ entry.body.functions) : f.relations = (set.relations? f.id).getD {} := by
  obtain ⟨-, -, -, -, -, -, -, -, hfind⟩ := addressed.id_function hslot hf
  rw [relations?, hfind]
  rfl

/-- An identity of a function has an owner. -/
lemma Addressed.owner_function (howns : set.Owns library f) :
    f.id.owner? ≠ none ∧ f.id.library = library := by
  obtain ⟨category, index, entry, hslot, hf⟩ := howns
  obtain ⟨c, list, j, -, howner, -, -, hid, -⟩ := addressed.id_function hslot hf
  rw [hid, DeclId.owner?, howner]
  exact ⟨Option.some_ne_none _, rfl⟩

end

/-! ## Writing pairs down -/

/-- A change of the callable of a member is seen under its identity only. -/
lemma find?_edit_callable (hid : set.Identified) {target id : DeclId}
    (htarget : target.owner? ≠ none) (howner : id.owner? ≠ none) (f : Callable → Callable) :
    (set.edit target (.callable f)).find? id =
      if target = id then (set.find? id).map (Edit.callable f).onEntry else set.find? id := by
  rw [find?_eq (hid.edit target _), find?_eq hid, slot?_edit hid]
  -- The edit falls on the sought record only if seat, category and index agree.
  by_cases hseat : target.library = id.library ∧ target.seat = (id.seat.1, id.seat.2)
  · rw [if_pos hseat]
    cases set.slot? id.library id.seat.1 id.seat.2 with
    | none => split <;> rfl
    | some entry =>
      obtain ⟨owner, howner'⟩ := Option.ne_none_iff_exists'.1 howner
      obtain ⟨owner', htarget'⟩ := Option.ne_none_iff_exists'.1 htarget
      simp only [Option.map_some, Option.bind_some, DeclId.part?, Edit.atSeat, howner', htarget',
        Symbol.body_map, Body.members?_overMembers]
      by_cases hcategory : target.category = id.category
      · rw [if_pos hcategory]
        cases entry.body.members? id.category with
        | none => split <;> rfl
        | some members =>
          simp only [Option.map_some, Option.bind_some, List.getElem?_modify]
          by_cases hindex : target.index = id.index
          · have hproper : target.Proper := DeclId.proper_of_owner htarget
            rw [if_pos (hproper.ext (DeclId.proper_of_owner howner) hseat.1
              hcategory hindex hseat.2)]
            cases members[id.index]? with
            | none => rfl
            | some member => simp [hindex]; rfl
          · rw [if_neg fun heq => hindex (congrArg DeclId.index heq)]
            cases members[id.index]? <;> simp [hindex]
      · rw [if_neg hcategory, if_neg fun heq => hcategory (congrArg DeclId.category heq)]
  · rw [if_neg hseat, if_neg]
    rintro rfl
    exact hseat ⟨rfl, rfl⟩

/-- A change of the relations of a member is seen under its identity only. -/
lemma relations?_edit_callable (hid : set.Identified) {target id : DeclId}
    (htarget : target.owner? ≠ none) (howner : id.owner? ≠ none) {f : Callable → Callable}
    {u : Relations → Relations} (hf : ∀ callable, (f callable).relations = u callable.relations) :
    (set.edit target (.callable f)).relations? id =
      if target = id then (set.relations? id).map u else set.relations? id := by
  rw [relations?, find?_edit_callable hid htarget howner, relations?]
  split
  · cases hfind : set.find? id with
    | none => rfl
    | some entry =>
      simp only [Option.map_some, Option.bind_some, Edit.callable, Symbol.body_map]
      cases entry.body with
      | leaf part =>
        cases part with
        | callable info => exact congrArg some (hf info)
        | _ => rfl
      | _ => rfl
  · rfl

lemma relations?_relate (hid : set.Identified) {library : LibraryId} {function id : DeclId}
    (hfunction : function.owner? ≠ none) (howner : id.owner? ≠ none)
    (hlibrary : id.library = library)
    (u : Relations → Relations) : (relate library set function u).relations? id =
      if function = id then (set.relations? id).map u else set.relations? id := by
  unfold relate
  split
  · exact relations?_edit_callable hid hfunction howner fun _ => rfl
  · next hne =>
    rw [if_neg]
    rintro rfl
    exact hne hlibrary

end LibrarySet

/-! ## Ties -/

/-- What stands opposite an identity in a list of pairs, where the identity is on the left. -/
def targetsOf (id : DeclId) (pairs : List (DeclId × DeclId)) : List DeclId :=
  (pairs.filter fun pair => pair.1 = id).map Prod.snd

/-- What stands opposite an identity in a list of pairs, where the identity is on the right. -/
def sourcesOf (id : DeclId) (pairs : List (DeclId × DeclId)) : List DeclId :=
  (pairs.filter fun pair => pair.2 = id).map Prod.fst

lemma mem_targetsOf {id other : DeclId} {pairs : List (DeclId × DeclId)} :
    other ∈ targetsOf id pairs ↔ (id, other) ∈ pairs := by
  simp [targetsOf]

lemma mem_sourcesOf {id other : DeclId} {pairs : List (DeclId × DeclId)} :
    other ∈ sourcesOf id pairs ↔ (other, id) ∈ pairs := by
  simp [sourcesOf]

namespace Relations

/-- What a pair of a function and one that it overrides adds to the relations of a function. -/
def noteOverride (id : DeclId) (r : Relations) (pair : DeclId × DeclId) : Relations :=
  { r with
    overrides := if pair.1 = id then addNew r.overrides pair.2 else r.overrides
    overriddenBy := if pair.2 = id then addNew r.overriddenBy pair.1 else r.overriddenBy }

/-- What a pair of a function and one that it implements adds to the relations of a function. -/
def noteImplementation (id : DeclId) (r : Relations) (pair : DeclId × DeclId) : Relations :=
  { r with
    implements := if pair.1 = id then addNew r.implements pair.2 else r.implements
    implementedBy := if pair.2 = id then addNew r.implementedBy pair.1 else r.implementedBy }

/-- The relations of a function after all pairs of a verdict. -/
def tied (id : DeclId) (verdict : Verdict) : Relations where
  overrides := addAllNew [] (targetsOf id verdict.overrides)
  overriddenBy := addAllNew [] (sourcesOf id verdict.overrides)
  implements := addAllNew [] (targetsOf id verdict.implements)
  implementedBy := addAllNew [] (sourcesOf id verdict.implements)

lemma addAllNew_filter (p : DeclId × DeclId → Bool) (g : DeclId × DeclId → DeclId)
    (pair : DeclId × DeclId) (pairs : List (DeclId × DeclId)) (xs : List DeclId) :
    addAllNew xs (((pair :: pairs).filter p).map g)
      = addAllNew (if p pair then addNew xs (g pair) else xs) ((pairs.filter p).map g) := by
  by_cases h : p pair = true
  · rw [List.filter_cons_of_pos h, if_pos h]
    rfl
  · rw [List.filter_cons_of_neg h, if_neg h]

lemma foldl_noteOverride (id : DeclId) (pairs : List (DeclId × DeclId)) (r : Relations) :
    pairs.foldl (noteOverride id) r =
      { r with
        overrides := addAllNew r.overrides (targetsOf id pairs)
        overriddenBy := addAllNew r.overriddenBy (sourcesOf id pairs) } := by
  induction pairs generalizing r with
  | nil => rfl
  | cons pair pairs ih =>
    rw [List.foldl_cons, ih, targetsOf, targetsOf, sourcesOf, sourcesOf, addAllNew_filter,
      addAllNew_filter]
    simp [noteOverride]

lemma foldl_noteImplementation (id : DeclId) (pairs : List (DeclId × DeclId)) (r : Relations) :
    pairs.foldl (noteImplementation id) r =
      { r with
        implements := addAllNew r.implements (targetsOf id pairs)
        implementedBy := addAllNew r.implementedBy (sourcesOf id pairs) } := by
  induction pairs generalizing r with
  | nil => rfl
  | cons pair pairs ih =>
    rw [List.foldl_cons, ih, targetsOf, targetsOf, sourcesOf, sourcesOf, addAllNew_filter,
      addAllNew_filter]
    simp [noteImplementation]

end Relations

namespace LibrarySet

variable {set set' : LibrarySet} {library : LibraryId} {id : DeclId}

/-- Steps that each change the relations of a function in a known way. -/
lemma relations?_foldl {step : LibrarySet → DeclId × DeclId → LibrarySet}
    {note : Relations → DeclId × DeclId → Relations} {pairs : List (DeclId × DeclId)}
    (h : ∀ set, set.Identified → ∀ pair ∈ pairs, (step set pair).Identified ∧
      (step set pair).relations? id = (set.relations? id).map fun r => note r pair)
    (hid : set.Identified) : (pairs.foldl step set).Identified ∧
      (pairs.foldl step set).relations? id
        = (set.relations? id).map fun r => pairs.foldl note r := by
  induction pairs generalizing set with
  | nil => exact ⟨hid, by simp⟩
  | cons pair pairs ih =>
    obtain ⟨hid', hpair⟩ := h set hid pair (List.mem_cons_self ..)
    obtain ⟨hids, hrest⟩ := ih (fun set hset p hp => h set hset p (List.mem_cons_of_mem _ hp)) hid'
    refine ⟨hids, ?_⟩
    rw [List.foldl_cons, hrest, hpair, Option.map_map]
    rfl

section

variable (hid : set.Identified) (howner : id.owner? ≠ none) (hlibrary : id.library = library)

include hid howner hlibrary

lemma relations?_addOverride {pair : DeclId × DeclId} (hleft : pair.1.owner? ≠ none)
    (hright : pair.2.owner? ≠ none) : (addOverride library set pair).relations? id
      = (set.relations? id).map fun r => r.noteOverride id pair := by
  have hfirst := (@sameCores_relate set (fun _ => False) library hid pair.1
    fun r => { r with overrides := addNew r.overrides pair.2 }).identified
  rw [addOverride, relations?_relate hfirst hright howner hlibrary,
    relations?_relate hid hleft howner hlibrary]
  cases set.relations? id with
  | none => simp
  | some r => by_cases h : pair.1 = id <;> by_cases h' : pair.2 = id <;>
      simp [Relations.noteOverride, h, h']

lemma relations?_addImplementation {pair : DeclId × DeclId} (hleft : pair.1.owner? ≠ none)
    (hright : pair.2.owner? ≠ none) : (addImplementation library set pair).relations? id
      = (set.relations? id).map fun r => r.noteImplementation id pair := by
  have hfirst := (@sameCores_relate set (fun _ => False) library hid pair.1
    fun r => { r with implements := addNew r.implements pair.2 }).identified
  rw [addImplementation, relations?_relate hfirst hright howner hlibrary,
    relations?_relate hid hleft howner hlibrary]
  cases set.relations? id with
  | none => simp
  | some r => by_cases h : pair.1 = id <;> by_cases h' : pair.2 = id <;>
      simp [Relations.noteImplementation, h, h']

/-- Writing a verdict about members down ties every function of the library as the verdict says. -/
lemma relations?_record {verdict : Verdict}
    (hoverrides : ∀ pair ∈ verdict.overrides, pair.1.owner? ≠ none ∧ pair.2.owner? ≠ none)
    (himplements : ∀ pair ∈ verdict.implements, pair.1.owner? ≠ none ∧ pair.2.owner? ≠ none)
    (hempty : ∀ r, set.relations? id = some r → r = {}) :
    (record library set verdict).relations? id
      = (set.relations? id).map fun _ => Relations.tied id verdict := by
  have hfirst := @relations?_foldl set id (addOverride library) (Relations.noteOverride id)
    verdict.overrides (fun set hid pair hpair => ⟨(@sameCores_addOverride set (fun _ => False)
      library hid pair).identified, relations?_addOverride hid howner hlibrary
        (hoverrides pair hpair).1 (hoverrides pair hpair).2⟩) hid
  have hsecond := @relations?_foldl (verdict.overrides.foldl (addOverride library) set) id
    (addImplementation library) (Relations.noteImplementation id) verdict.implements
    (fun set hid pair hpair => ⟨(@sameCores_addImplementation set (fun _ => False)
      library hid pair).identified, relations?_addImplementation hid howner hlibrary
        (himplements pair hpair).1 (himplements pair hpair).2⟩) hfirst.1
  rw [record, hsecond.2, hfirst.2, Option.map_map]
  refine Option.map_congr fun r hr => ?_
  rw [hempty r hr, Function.comp_apply, Relations.foldl_noteOverride,
    Relations.foldl_noteImplementation]
  rfl

end

end LibrarySet

end SymbolGraph
