import SymbolGraph.Proofs.Checking.Duplicates
import SymbolGraph.Proofs.Linking.Unlinking

/-!
# What a check touches

A check of a library writes the relations of its member functions and nothing else, and it does not
read what they were before.  Both follow from one equation: forgetting these relations is all that
the check does to the old ones (`LibrarySet.Addresses.clearRelations_eq`), so what it reports and
what it writes are functions of the model without them, `LibrarySet.untied`.  In particular a second
check repeats the first.

All that is asked of the model is that the records of the library stand at the places that their
identities mean (`LibrarySet.Addresses`): then every pair that is written down ends, as far as the
library is concerned, in member functions of it.
-/

namespace SymbolGraph

open Overriding

/-! ## Records without relations -/

/-- A member that is tied to nothing. -/
def Member.untied (member : Member) : Member :=
  member.map (Leaf.overCallable fun c => { c with relations := {} })

/-- A body whose member functions are tied to nothing. -/
def Body.untied : Body → Body
  | .struct fields functions => .struct fields (functions.map Member.untied)
  | .interface info => .interface { info with functions := info.functions.map Member.untied }
  | .class info => .class { info with functions := info.functions.map Member.untied }
  | body => body

/-- A declaration whose member functions are tied to nothing. -/
def Entry.untied (entry : Entry) : Entry := entry.map Body.untied

theorem Body.clearRelations_eq (body : Body) : body.clearRelations = body.untied := by
  cases body <;> rfl

lemma Member.untied_untied (member : Member) : member.untied.untied = member.untied := by
  obtain ⟨_, _, _, _, _, _, _, _, body⟩ := member
  cases body <;> rfl

lemma Entry.untied_untied (entry : Entry) : entry.untied.untied = entry.untied := by
  have hbody (body : Body) : body.untied.untied = body.untied := by
    cases body <;> simp [Body.untied, Member.untied_untied]
  simp only [untied, Symbol.map, hbody]

/-- A change of the relations of a member function is forgotten. -/
lemma Body.untied_overMembers {category : Category} (hfunction : category.isFunction = true)
    {f : List Member → List Member} (h : ∀ list, (f list).map Member.untied =
      list.map Member.untied)
    (body : Body) : (body.overMembers category f).untied = body.untied := by
  cases category with
  | structFunction => cases body <;> simp [overMembers, untied, h]
  | interfaceFunction => cases body <;> simp [overMembers, untied, h]
  | classFunction => cases body <;> simp [overMembers, untied, h]
  | _ => cases hfunction

lemma Edit.untied_relations {id : DeclId} (hfunction : id.category.isFunction = true)
    (howner : id.owner? ≠ none) (f : Relations → Relations) (entry : Entry) :
    ((Edit.callable fun c => { c with relations := f c.relations }).atSeat id entry).untied
      = entry.untied := by
  have hmember (m : Member) : Member.untied
      ((Edit.callable fun c => { c with relations := f c.relations }).onMember m) = m.untied := by
    simp only [Edit.callable, Member.untied, Symbol.map]
    cases m.body <;> rfl
  unfold atSeat
  split
  · next hnone => exact absurd hnone howner
  · have hbody : (entry.body.overMembers id.category fun list => list.modify id.index
        (Edit.callable fun c => { c with relations := f c.relations }).onMember).untied
        = entry.body.untied :=
      Body.untied_overMembers hfunction (fun list =>
        map_modify_of_eq hmember list id.index) entry.body
    simp only [Entry.untied, Symbol.map, hbody]

lemma Entry.core_untied (entry : Entry) : entry.untied.core = entry.core := by
  have hmember (m : Member) : m.untied.core = m.core := by
    obtain ⟨_, _, _, _, _, _, _, _, body⟩ := m
    cases body <;> rfl
  have hbody (body : Body) : body.untied.core = body.core := by
    cases body <;> simp [Body.untied, Body.core, hmember]
  simp only [untied, core, Symbol.map, hbody]

/-! ## Libraries without relations -/

namespace Library

/-- Change every declaration of a category. -/
def overTable (lib : Library) (category : Category) (f : Entry → Entry) : Library :=
  { lib with tables := lib.tables.adjust category (List.map (Option.map f)) }

/-- A library whose member functions are tied to nothing. -/
def untied (lib : Library) : Library :=
  ((lib.overTable .struct Entry.untied).overTable .interface Entry.untied).overTable
    .class Entry.untied

variable (lib : Library)

lemma table_overTable (category category' : Category) (f : Entry → Entry) :
    (lib.overTable category f).table category'
      = if category = category' then (lib.table category').map (Option.map f)
        else lib.table category' := by
  simp only [table, overTable, Assoc.at?_adjust]
  split
  · cases lib.tables.at? category' <;> rfl
  · rfl

lemma slot?_overTable (category category' : Category) (index : Nat) (f : Entry → Entry) :
    (lib.overTable category f).slot? category' index
      = if category = category' then (lib.slot? category' index).map f
        else lib.slot? category' index := by
  rw [slot?, table_overTable]
  split
  · rw [List.getElem?_map, slot?]
    cases (lib.table category')[index]? <;> rfl
  · rfl

lemma overTable_overTable (category : Category) (f g : Entry → Entry) :
    (lib.overTable category f).overTable category g = lib.overTable category (g ∘ f) := by
  unfold overTable
  rw [Assoc.adjust_adjust]
  simp only [List.map_map, Option.map_comp_map]

lemma overTable_comm {category category' : Category} (hne : category ≠ category')
    (f g : Entry → Entry) :
    (lib.overTable category' g).overTable category f
      = (lib.overTable category f).overTable category' g :=
  congrArg (fun tables => { lib with tables }) (Assoc.adjust_comm _ fun heq => absurd heq hne)

lemma overTable_adjustSlot_comm {category category' : Category} (hne : category ≠ category')
    (index : Nat) (f g : Entry → Entry) : (lib.adjustSlot category' index g).overTable category f
      = (lib.overTable category f).adjustSlot category' index g :=
  congrArg (fun tables => { lib with tables }) (Assoc.adjust_comm _ fun heq => absurd heq hne)

/-- A change of one declaration that is lost when all of its category are changed. -/
lemma overTable_adjustSlot (category : Category) (index : Nat) {f g : Entry → Entry}
    (h : ∀ entry, f (g entry) = f entry) :
    (lib.adjustSlot category index g).overTable category f = lib.overTable category f := by
  have htable (table : List (Option Entry)) :
      (table.modify index (Option.map g)).map (Option.map f) = table.map (Option.map f) :=
    map_modify_of_eq (fun slot => by cases slot <;> simp [h]) table index
  unfold overTable adjustSlot
  rw [Assoc.adjust_adjust]
  simp only [htable]

lemma untied_untied : lib.untied.untied = lib.untied := by
  have htwice : Entry.untied ∘ Entry.untied = Entry.untied := funext Entry.untied_untied
  unfold untied
  rw [overTable_comm _ (show Category.struct ≠ .class by decide),
    overTable_comm _ (show Category.struct ≠ .interface by decide),
    overTable_comm _ (show Category.interface ≠ .class by decide), overTable_overTable,
    overTable_overTable, overTable_overTable, htwice]

/-- A change of one owner of member functions that only ties them. -/
lemma untied_adjustSlot {category : Category}
    (hcategory : category ∈ [Category.struct, .interface, .class])
    (index : Nat) {g : Entry → Entry} (h : ∀ entry, (g entry).untied = entry.untied) :
    (lib.adjustSlot category index g).untied = lib.untied := by
  unfold untied
  simp only [List.mem_cons, List.not_mem_nil, or_false] at hcategory
  rcases hcategory with rfl | rfl | rfl
  · rw [overTable_adjustSlot _ _ _ h]
  · rw [overTable_adjustSlot_comm _ (by decide), overTable_adjustSlot _ _ _ h]
  · rw [overTable_adjustSlot_comm _ (by decide), overTable_adjustSlot_comm _ (by decide),
      overTable_adjustSlot _ _ _ h]

lemma slot?_untied (category : Category) (index : Nat) :
    (lib.untied.slot? category index).map Entry.core
      = (lib.slot? category index).map Entry.core := by
  have hcore : Entry.core ∘ Entry.untied = Entry.core := funext Entry.core_untied
  simp only [untied, slot?_overTable]
  cases category <;> simp [hcore]

end Library

/-! ## Models without relations -/

namespace LibrarySet

variable {set set' : LibrarySet} {library : LibraryId}

/-- The model, where the member functions of a library are tied to nothing. -/
def untied (set : LibrarySet) (library : LibraryId) :
    LibrarySet := set.adjust library Library.untied

lemma untied_untied (set : LibrarySet) (library : LibraryId) :
    (set.untied library).untied library = set.untied library := by
  rw [untied, untied, adjust_adjust]
  exact congrArg (set.adjust library) (funext Library.untied_untied)

lemma alike_untied (hid : set.Identified) (library : LibraryId) :
    set.Alike (set.untied library) := by
  refine ⟨hid.adjust library fun _ => rfl, fun other category index _ => ?_⟩
  rw [core?, core?, slot?, slot?, untied, get?_adjust]
  split
  · cases set.get? other with
    | none => rfl
    | some lib => exact lib.slot?_untied category index
  · rfl

/-- Where states differ in traces only, the same records stand at the same places. -/
lemma SameCores.recordAt?_core (h : Alike set set') (place : Place) :
    (set'.recordAt? place).map Entry.core = (set.recordAt? place).map Entry.core := by
  have hcore := h.cores place.library place.category place.index id
  rw [core?, core?] at hcore
  unfold recordAt?
  obtain ⟨hnone, hnone'⟩ | ⟨entry, entry', hslot, hslot', heq⟩ := rel_cases (rel_of_map_eq hcore)
  · rw [hnone, hnone']
  · have hbody : entry'.body.core = entry.body.core := congrArg Symbol.body heq
    rw [hslot, hslot']
    cases place.member with
    | none => exact congrArg some heq
    | some seat =>
      have hlists := congrArg (fun body : Body => body.members? seat.1) hbody
      simp only [Body.members?_core] at hlists
      simp only [Option.bind_eq_bind, Option.bind_some]
      obtain ⟨hnone, hnone'⟩ | ⟨list, list', hlist, hlist', hcores⟩ :=
        rel_cases (rel_of_map_eq hlists)
      · rw [hnone, hnone']
      · have hmembers := congrArg (fun list : List Member => list[seat.2]?) hcores
        simp only [List.getElem?_map] at hmembers
        rw [hlist, hlist', Option.bind_some, Option.bind_some]
        obtain ⟨hnone, hnone'⟩ | ⟨m, m', hm, hm', hmember⟩ := rel_cases (rel_of_map_eq hmembers)
        · rw [hnone, hnone']
        · rw [hm, hm']
          exact congrArg (fun m : Member => some (Member.toEntry m)) hmember

/-- The records of a library, those in it and those that bear identities of it, stand at the places
that their identities mean. -/
structure Addresses (set : LibrarySet) (library : LibraryId) : Prop where
  identified : set.Identified
  place_eq : ∀ {place record}, set.recordAt? place = some record →
    place.library = library ∨ record.id.library = library → record.id.place = place

lemma Addressed.addresses (addressed : set.Addressed) (library : LibraryId) :
    set.Addresses library :=
  ⟨addressed.identified, fun hrecord _ => addressed.place_eq hrecord⟩

/-- Traces do not matter for where a record stands. -/
lemma Addresses.of_alike (addresses : set.Addresses library) (h : set.Alike set') :
    set'.Addresses library := by
  refine ⟨h.identified, fun {place record'} hrecord' hlibrary => ?_⟩
  have hcore := h.recordAt?_core place
  rw [hrecord', Option.map_some] at hcore
  obtain ⟨record, hrecord, heq⟩ := Option.map_eq_some_iff.1 hcore.symm
  have hid : record.core.id = record'.core.id := congrArg Symbol.id heq
  have hsame : record.id = record'.id := hid
  rw [← hsame] at hlibrary ⊢
  exact addresses.place_eq hrecord hlibrary

/-! ## Forgetting the old relations -/

/-- An edit of a top-level declaration changes its slot. -/
lemma edit_top (hid : set.Identified) {id : DeclId} (howner : id.owner? = none) (change : Edit) :
    set.edit id change
      = set.adjust id.library fun lib => lib.adjustSlot id.category id.index change.onEntry := by
  have hseat : change.atSeat id = change.onEntry := funext fun entry => by rw [Edit.atSeat, howner]
  cases hlib : set.get? id.library with
  | none =>
    have hnone (f : Library → Library) : set.adjust id.library f = set :=
      set.adjust_eq_self fun lib h => by simp [hlib] at h
    rw [edit, hnone, hnone]
  | some lib =>
    refine adjust_congr hlib ?_
    rw [Library.edit_eq, if_pos (hid _ _ hlib).symm, DeclId.seat, howner, hseat]

end LibrarySet

lemma modify_length_append {α : Type} (front rest : List α) (x : α) (f : α → α) :
    (front ++ x :: rest).modify front.length f = front ++ f x :: rest := by
  induction front with
  | nil => rfl
  | cons y front ih => exact congrArg (y :: ·) ih

/-- Changing what is in a table slot by slot, where each record knows its slot. -/
lemma foldl_modify_slots {α : Type} (f : α → α) (position : α → Nat) (front rest : List (Option α))
    (h : ∀ i x, rest[i]? = some (some x) → position x = front.length + i) :
    (rest.filterMap fun slot => slot).foldl
        (fun slots x => slots.modify (position x) (Option.map f)) (front ++ rest)
      = front ++ rest.map (Option.map f) := by
  induction rest generalizing front with
  | nil => rw [List.filterMap_nil, List.foldl_nil, List.map_nil]
  | cons slot rest ih =>
    have hstep := ih (front ++ [slot.map f]) fun i x hx => by
      rw [h (i + 1) x hx, List.length_append, List.length_singleton]
      omega
    rw [List.append_assoc, List.singleton_append, List.append_assoc, List.singleton_append] at hstep
    cases slot with
    | none => exact hstep
    | some x =>
      have hx : (front ++ some x :: rest).modify (position x) (Option.map f)
          = front ++ (some x).map f :: rest := by
        rw [h 0 x rfl, Nat.add_zero, modify_length_append]
      change (rest.filterMap fun slot => slot).foldl _ ((front ++ some x :: rest).modify _ _) = _
      rw [hx]
      exact hstep

namespace Library

/-- Changing the records of a table one by one. -/
lemma foldl_adjustSlot (lib : Library) (category : Category) {f : Entry → Entry}
    (h : ∀ index entry, lib.slot? category index = some entry → entry.id.index = index) :
    (lib.entries category).foldl (fun lib entry => lib.adjustSlot category entry.id.index f) lib
      = lib.overTable category f := by
  have htables (entries : List Entry) (lib : Library) :
      entries.foldl (fun lib entry => lib.adjustSlot category entry.id.index f) lib
        = { lib with
            tables := lib.tables.adjust category fun table =>
              entries.foldl (fun table entry => table.modify entry.id.index (Option.map f)) table }
        := by
    induction entries generalizing lib with
    | nil => simp [Assoc.adjust_id]
    | cons entry rest ih =>
      rw [List.foldl_cons, ih]
      simp only [adjustSlot, Assoc.adjust_adjust, List.foldl_cons]
  rw [htables, overTable]
  refine congrArg (fun tables => { lib with tables })
    (Assoc.adjust_congr _ _ fun table htable => ?_)
  have heq : lib.table category = table := by rw [Library.table, htable, Option.getD_some]
  have hslots := foldl_modify_slots f (fun entry => entry.id.index) [] table
    fun index entry hentry => by
      rw [List.length_nil, Nat.zero_add]
      exact h index entry (by rw [slot?, heq, hentry, Option.join_some])
  rw [entries, heq]
  exact hslots

end Library

namespace LibrarySet

variable {set set' : LibrarySet} {library : LibraryId}

section

variable (addresses : set.Addresses library)

include addresses

lemma Addresses.id_slot {category : Category} {index : Nat} {entry : Entry}
    (hslot : set.slot? library category index = some entry) : entry.id.library = library ∧
      entry.id.owner? = none ∧ entry.id.category = category ∧ entry.id.index = index := by
  have hplace := addresses.place_eq ((recordAt?_slot ..).trans hslot) (Or.inl rfl)
  have howner : entry.id.owner? = none := Option.map_eq_none_iff.1 (congrArg Place.member hplace)
  have hcategory := congrArg Place.category hplace
  have hindex := congrArg Place.index hplace
  simp only [DeclId.place, DeclId.seat, howner] at hcategory hindex
  exact ⟨congrArg Place.library hplace, howner, hcategory, hindex⟩

/-- Identities that functions bear in the library are identities of member functions. -/
lemma Addresses.id_function {other : LibraryId} {category : Category} {index : Nat} {entry : Entry}
    {f : Member} (hslot : set.slot? other category index = some entry)
    (hf : f ∈ entry.body.functions)
    (hlibrary : f.id.library = library) : f.id.category.isFunction = true ∧ f.id.owner? ≠ none := by
  obtain ⟨c, list, hc, hlist, hmem⟩ := Body.mem_functions hf
  obtain ⟨j, hj⟩ := List.mem_iff_getElem?.1 hmem
  have hrecord : set.recordAt? ⟨other, category, index, some (c, j)⟩ = some f.toEntry :=
    recordAt?_eq_some.2 (Or.inr ⟨c, j, entry, list, f, rfl, hslot, hlist, hj, rfl⟩)
  obtain ⟨howner, heq⟩ := DeclId.eq_of_place (addresses.place_eq hrecord (Or.inr hlibrary))
  have hid : f.id = ⟨other, c, j, some index⟩ := heq
  rw [hid, DeclId.owner?, howner]
  exact ⟨hc, Option.some_ne_none _⟩

/-- Clearing some records of a category, one after the other, clears their slots. -/
lemma Addresses.foldl_clear {lib : Library} (hlib : set.get? library = some lib)
    (category : Category) {entries : List Entry}
    (hentries : ∀ entry ∈ entries, entry ∈ lib.entries category) {set' : LibrarySet}
    (hid : set'.Identified) :
    entries.foldl (fun set owner => set.edit owner.id (.body Body.clearRelations)) set'
      = set'.adjust library fun lib => entries.foldl
        (fun lib entry => lib.adjustSlot category entry.id.index Entry.untied) lib := by
  induction entries generalizing set' with
  | nil => exact (set'.adjust_id library).symm
  | cons entry rest ih =>
    obtain ⟨index, hindex⟩ := mem_entries.1 (hentries entry (List.mem_cons_self ..))
    have hslot : set.slot? library category index = some entry := by
      rw [slot?_of_get? hlib, hindex]
    obtain ⟨hlibrary, howner, hkind, -⟩ := addresses.id_slot hslot
    have huntied : (Edit.body Body.clearRelations).onEntry = Entry.untied := by
      funext entry
      simp only [Edit.body, Entry.untied, Symbol.map, Body.clearRelations_eq]
    rw [List.foldl_cons, ih (fun e he => hentries e (List.mem_cons_of_mem _ he)) (hid.edit _ _),
      edit_top hid howner, hlibrary, hkind, huntied, adjust_adjust]
    rfl

/-- Clearing all records of a category, in whatever state the library is by then. -/
lemma Addresses.foldl_clear_entries {lib lib' : Library} (hlib : set.get? library = some lib)
    {set' : LibrarySet} (hid : set'.Identified) (hlib' : set'.get? library = some lib')
    {category : Category} (hsame : lib'.table category = lib.table category) :
    (lib.entries category).foldl (fun set owner =>
        set.edit owner.id (.body Body.clearRelations)) set'
      = set'.adjust library fun lib => lib.overTable category Entry.untied := by
  rw [addresses.foldl_clear hlib category (fun _ h => h) hid]
  refine adjust_congr hlib' ?_
  have hentries : lib.entries category = lib'.entries category := by
    rw [Library.entries, Library.entries, hsame]
  rw [hentries]
  refine lib'.foldl_adjustSlot category fun index entry hentry => ?_
  have hslot : set.slot? library category index = some entry := by
    rw [slot?_of_get? hlib, ← hentry, Library.slot?, Library.slot?, hsame]
  exact (addresses.id_slot hslot).2.2.2

/-- All that a check does to the old relations is to forget them. -/
theorem Addresses.clearRelations_eq : set.clearRelations library = set.untied library := by
  cases hlib : set.get? library with
  | none =>
    rw [clearRelations, hlib]
    exact (set.adjust_eq_self fun lib h => by simp [hlib] at h).symm
  | some lib =>
    have hid := addresses.identified
    have hget (set' : LibrarySet) {lib' : Library} (h : set'.get? library = some lib')
        (f : Library → Library) : (set'.adjust library f).get? library = some (f lib') := by
      rw [get?_adjust, if_pos rfl, h, Option.map_some]
    have hkeep (set' : LibrarySet) (hid : set'.Identified) (category : Category) :
        (set'.adjust library fun lib => lib.overTable category Entry.untied).Identified :=
      hid.adjust library fun _ => rfl
    have hstruct := hkeep set hid .struct
    have hinterface := hkeep _ hstruct .interface
    simp only [clearRelations, hlib, List.flatMap_cons, List.flatMap_nil, List.append_nil,
      List.foldl_append]
    rw [addresses.foldl_clear_entries hlib hid hlib rfl,
      addresses.foldl_clear_entries hlib hstruct (hget set hlib _)
        (by simp [Library.table_overTable]),
      addresses.foldl_clear_entries hlib hinterface (hget _ (hget set hlib _) _)
        (by simp [Library.table_overTable]),
      adjust_adjust, adjust_adjust]
    rfl

end

/-! ## Writing new relations down -/

/-- The relations of a member function are forgotten, whatever they are. -/
lemma untied_relate (set : LibrarySet) {function : DeclId}
    (h : function.library = library → function.category.isFunction = true ∧ function.owner? ≠ none)
    (f : Relations → Relations) : (relate library set function f).untied library
      = set.untied library := by
  unfold relate
  split
  · next hlibrary =>
    obtain ⟨hfunction, howner⟩ := h hlibrary
    have hseat : function.seat.1 ∈ [Category.struct, .interface, .class] := by
      obtain ⟨owner, hsome⟩ := Option.ne_none_iff_exists'.1 howner
      rw [DeclId.seat, hsome]
      revert hfunction hsome
      unfold DeclId.owner? Category.owner?
      cases function.category <;> cases function.define <;> simp [Category.isFunction] <;>
        (rintro rfl; simp)
    rw [edit, hlibrary, untied, adjust_adjust, untied]
    refine congrArg (set.adjust library) (funext fun lib => ?_)
    rw [Library.edit_eq]
    split
    · exact lib.untied_adjustSlot hseat _ fun entry =>
        Edit.untied_relations hfunction howner f entry
    · rfl
  · rfl

lemma foldl_untied {α : Type} {step : LibrarySet → α → LibrarySet} (xs : List α)
    (h : ∀ set, ∀ x ∈ xs, (step set x).untied library = set.untied library) (set : LibrarySet) :
    (xs.foldl step set).untied library = set.untied library := by
  induction xs generalizing set with
  | nil => rfl
  | cons x xs ih =>
    rw [List.foldl_cons, ih fun set y hy => h set y (List.mem_cons_of_mem _ hy)]
    exact h set x (List.mem_cons_self ..)

/-- A verdict whose pairs end, in the library, in member functions. -/
lemma untied_record (set : LibrarySet) {verdict : Verdict}
    (h : ∀ pair, pair ∈ verdict.overrides ∨ pair ∈ verdict.implements → ∀ id ∈ [pair.1, pair.2],
      id.library = library → id.category.isFunction = true ∧ id.owner? ≠ none) :
    (record library set verdict).untied library = set.untied library := by
  have hoverrides (set : LibrarySet) (pair : DeclId × DeclId) (hpair : pair ∈ verdict.overrides) :
      (addOverride library set pair).untied library = set.untied library := by
    rw [addOverride, untied_relate _ (h pair (Or.inl hpair) _ (by simp)),
      untied_relate _ (h pair (Or.inl hpair) _ (by simp))]
  have himplements (set : LibrarySet) (pair : DeclId × DeclId) (hpair : pair ∈ verdict.implements) :
      (addImplementation library set pair).untied library = set.untied library := by
    rw [addImplementation, untied_relate _ (h pair (Or.inr hpair) _ (by simp)),
      untied_relate _ (h pair (Or.inr hpair) _ (by simp))]
  rw [record, foldl_untied _ himplements, foldl_untied _ hoverrides]

/-- Functions that a verdict ties stand somewhere. -/
lemma owned_of_mem_judge (hid : set.Identified) {lib : Library} (hlib : set.get? library = some lib)
    {pair : DeclId × DeclId}
    (hpair : pair ∈ (set.judge lib).overrides ∨ pair ∈ (set.judge lib).implements) {id : DeclId}
    (hend : id ∈ [pair.1, pair.2]) : ∃ other f, set.Owns other f ∧ f.id = id := by
  rw [overrides_judge, implements_judge] at hpair
  obtain ⟨category, entry, hentry, hpair⟩ : ∃ category entry, entry ∈ lib.entries category ∧
      (pair ∈ (set.verdictOn category entry).overrides ∨
        pair ∈ (set.verdictOn category entry).implements) := by
    rcases hpair with hpair | hpair <;>
      (obtain ⟨category, -, hpair⟩ := List.mem_flatMap.1 hpair
       obtain ⟨entry, hentry, hpair⟩ := List.mem_flatMap.1 hpair
       exact ⟨category, entry, (List.mem_filter.1 hentry).1, by simp [hpair]⟩)
  obtain ⟨⟨f, hf, hfirst⟩, ids, g, hg, hsecond⟩ := ends_verdictOn hpair
  rcases List.mem_pair.1 hend with rfl | rfl
  · obtain ⟨index, hindex⟩ := mem_entries.1 hentry
    have hslot : set.slot? library category index = some entry := by
      rw [slot?_of_get? hlib, hindex]
    exact ⟨library, f, ⟨category, index, entry, hslot, hf⟩, hfirst⟩
  · rw [functionsOf_eq] at hg
    obtain ⟨base, -, hg⟩ := List.mem_flatMap.1 hg
    obtain ⟨record, -, -, hslot, hg⟩ := slot?_of_linkedOf hid hg
    exact ⟨base.library, g, ⟨_, _, record, hslot, (mem_functions_of_linked hg).1⟩, hsecond⟩

/-! ## Reports name records of the library -/

end LibrarySet

namespace Duplicates

lemma document_groupReport {group : List Namesake} {found : String × Diagnostic}
    (h : found ∈ groupReport group) : ∃ one ∈ group, one.document = found.1 := by
  unfold groupReport at h
  split at h
  · cases h
  · split at h
    · obtain ⟨⟨one, i⟩, hone, hconflict⟩ := List.mem_filterMap.1 h
      unfold conflictAt? at hconflict
      split at hconflict
      · exact ⟨one, List.fst_mem_of_mem_zipIdx hone, congrArg Prod.fst (Option.some.inj hconflict)⟩
      · cases hconflict
    · obtain ⟨⟨one, i⟩, hone, rfl⟩ := List.mem_map.1 h
      exact ⟨one, List.fst_mem_of_mem_zipIdx hone, rfl⟩

lemma document_nameGroupReport {named : String × Option String × List Namesake}
    {found : String × Diagnostic} (h : found ∈ nameGroupReport named) :
    ∃ one ∈ named.2.2, one.document = found.1 := by
  obtain ⟨name, child?, group⟩ := named
  rcases List.mem_append.1 h with h | h
  · obtain ⟨full, -, h⟩ := List.mem_flatMap.1 h
    obtain ⟨one, hone, rfl⟩ := List.mem_map.1 h
    exact ⟨one, hone, rfl⟩
  · exact document_groupReport h

end Duplicates

namespace LibrarySet

variable {set set' : LibrarySet} {library : LibraryId}

/-- The document of a record of a library. -/
def Documents (set : LibrarySet) (library : LibraryId) (document : String) : Prop :=
  ∃ place record, place.library = library ∧ set.recordAt? place = some record ∧
  record.document = document

lemma SameCores.documents (h : Alike set set') {document : String}
    (hdocument : set'.Documents library document) : set.Documents library document := by
  obtain ⟨place, record', hlibrary, hrecord', rfl⟩ := hdocument
  have hcore := h.recordAt?_core place
  rw [hrecord', Option.map_some] at hcore
  obtain ⟨record, hrecord, heq⟩ := Option.map_eq_some_iff.1 hcore.symm
  have hdocument : record.core.document = record'.core.document := congrArg Symbol.document heq
  exact ⟨place, record, hlibrary, hrecord, hdocument⟩

section

variable {lib : Library} {found : String × Diagnostic}

lemma documents_entry (hlib : set.get? library = some lib) {category : Category} {entry : Entry}
    (hentry : entry ∈ lib.entries category) : set.Documents library entry.document := by
  obtain ⟨index, hindex⟩ := mem_entries.1 hentry
  have hslot : set.slot? library category index = some entry := by
    rw [slot?_of_get? hlib, hindex]
  exact ⟨⟨library, category, index, none⟩, entry, rfl, (recordAt?_slot ..).trans hslot, rfl⟩

lemma documents_member (hlib : set.get? library = some lib) {category : Category} {entry : Entry}
    (hentry : entry ∈ lib.entries category) {m : Member} (hm : m ∈ entry.body.allMembers) :
    set.Documents library m.document := by
  obtain ⟨index, hindex⟩ := mem_entries.1 hentry
  have hslot : set.slot? library category index = some entry := by
    rw [slot?_of_get? hlib, hindex]
  obtain ⟨c, list, hlist, hmem⟩ := Body.exists_list_of_mem hm
  obtain ⟨j, hj⟩ := List.mem_iff_getElem?.1 hmem
  exact ⟨⟨library, category, index, some (c, j)⟩, m.toEntry, rfl,
    recordAt?_eq_some.2 (Or.inr ⟨c, j, entry, list, m, rfl, hslot, hlist, hj, rfl⟩), rfl⟩

lemma documents_found (hid : set.Identified) (hlib : set.get? library = some lib) {id : DeclId}
    {record : Entry} (hrecord : lib.find? id = some record) :
      set.Documents library record.document := by
  have hlibrary : id.library = library := by
    rw [Library.find?_eq] at hrecord
    split at hrecord
    · next h => exact h.trans (hid _ _ hlib)
    · cases hrecord
  have hfind : set.find? id = some record := by
    rw [find?, hlibrary, hlib, Option.bind_some, hrecord]
  exact ⟨id.place, record, hlibrary, (find?_eq_recordAt? hid id).symm.trans hfind, rfl⟩

/-- What is reported on duplicate names. -/
lemma documents_checkDuplicates (hid : set.Identified) (hlib : set.get? library = some lib)
    (h : found ∈ lib.checkDuplicates) : set.Documents library found.1 := by
  rw [Library.checkDuplicates_eq, List.mem_append, List.mem_flatMap, List.mem_flatMap] at h
  rcases h with ⟨named, hnamed, hfound⟩ | ⟨group, hgroup, hfound⟩
  · obtain ⟨one, hone, heq⟩ := Duplicates.document_nameGroupReport hfound
    obtain ⟨⟨id, space⟩, -, hspace⟩ := List.mem_flatMap.1 hnamed
    obtain ⟨⟨name, ids⟩, -, rfl⟩ := List.mem_map.1 hspace
    obtain ⟨record, hrecord, rfl⟩ := List.mem_map.1 hone
    obtain ⟨declared, -, hdeclared⟩ := List.mem_filterMap.1 (List.mem_filter.1 hrecord).1
    exact heq ▸ documents_found hid hlib hdeclared
  · obtain ⟨one, hone, heq⟩ := Duplicates.document_groupReport hfound
    obtain ⟨entry, hentry, hname⟩ := List.mem_flatMap.1 hgroup
    obtain ⟨name, -, rfl⟩ := List.mem_map.1 hname
    obtain ⟨m, hm, rfl⟩ := List.mem_map.1 hone
    obtain ⟨category, -, hcategory⟩ := List.mem_flatMap.1 hentry
    exact heq ▸ documents_member hlib hcategory (List.mem_filter.1 (List.mem_filter.1 hm).1).1

/-- A verdict on a declaration reports on it and its functions. -/
lemma document_verdictOn {category : Category} {entry : Entry}
    (h : found ∈ (set.verdictOn category entry).report) :
    found.1 = entry.document ∨ ∃ f ∈ entry.body.functions, found.1 = f.document := by
  have hloops {loops : Bool} (h : found ∈ if loops then [circular entry] else []) :
      found.1 = entry.document := by
    split at h
    · exact congrArg Prod.fst (List.mem_singleton.1 h)
    · cases h
  cases category with
  | interface =>
    cases hinfo : entry.body.interface? with
    | none => simp [verdictOn, judgeInterface, hinfo] at h
    | some info =>
      simp only [verdictOn, judgeInterface, hinfo, Verdict.report_append, Verdict.report_join,
        List.flatMap_map, List.mem_append, List.mem_flatMap] at h
      rcases h with h | ⟨f, hf, h⟩
      · exact Or.inl (hloops h)
      · obtain ⟨base, -, rfl⟩ := Option.map_eq_some_iff.1 (Option.mem_toList.1 h)
        exact Or.inr ⟨f, (mem_functions_of_linked hf).1, rfl⟩
  | «class» =>
    cases hinfo : entry.body.class? with
    | none => simp [verdictOn, judgeClass, hinfo] at h
    | some info =>
      simp only [verdictOn, judgeClass, hinfo, Verdict.report_append, Verdict.report_join,
        List.flatMap_map, List.mem_append, List.mem_flatMap] at h
      rcases h with ((h | ⟨f, hf, h⟩) | ⟨g, -, h⟩) | h
      · exact Or.inl (hloops h)
      · obtain ⟨base, -, rfl⟩ := List.mem_map.1 h
        exact Or.inr ⟨f, (mem_functions_of_linked hf).1, rfl⟩
      · cases hoffer : offer info.functions g with
        | implementation own =>
          simp only [hoffer, judgeOffer] at h
          split at h
          · cases h
          · exact Or.inr ⟨own, mem_functions_of_offer hinfo hoffer,
              congrArg Prod.fst (List.mem_singleton.1 h)⟩
        | _ => simp [hoffer, judgeOffer] at h
      · split at h
        · cases h
        · exact Or.inl (congrArg Prod.fst (List.mem_singleton.1 h))
  | _ => simp [verdictOn] at h

lemma documents_judge (hlib : set.get? library = some lib) (h : found ∈ (set.judge lib).report) :
    set.Documents library found.1 := by
  have hreport : (set.judge lib).report = [Category.interface, .class].flatMap fun category =>
      ((lib.entries category).filter Symbol.valid).flatMap fun entry =>
        (set.verdictOn category entry).report := by
    simp [judge, verdictOn, List.flatMap_map]
  rw [hreport] at h
  obtain ⟨category, -, h⟩ := List.mem_flatMap.1 h
  obtain ⟨entry, hentry, h⟩ := List.mem_flatMap.1 h
  have hlisted := (List.mem_filter.1 hentry).1
  rcases document_verdictOn h with heq | ⟨f, hf, heq⟩
  · exact heq ▸ documents_entry hlib hlisted
  · refine heq ▸ documents_member hlib hlisted ?_
    cases hbody : entry.body <;> simp_all [Body.functions, Body.allMembers]

end

/-! ## The check -/

lemma Addresses.check_eq (addresses : set.Addresses library) : set.check library =
    match (set.untied library).get? library with
    | none => (set.untied library, [])
    | some lib =>
      (record library (set.untied library) ((set.untied library).judge lib),
        lib.checkDuplicates ++ ((set.untied library).judge lib).report) :=
  addresses.clearRelations_eq ▸ rfl

/-- A model that differs in these relations only is as good. -/
lemma Addresses.of_untied (addresses : set.Addresses library) {other : LibrarySet}
    (h : other.untied library = set.untied library) : other.Addresses library := by
  have hid : other.Identified := by
    have huntied := (set.alike_untied addresses.identified library).identified
    rw [← h] at huntied
    intro l lib hlib
    have hget : (other.untied library).get? l = some (if library = l then lib.untied else lib) := by
      rw [untied, get?_adjust, hlib]
      split <;> rfl
    have hsame := huntied l _ hget
    split at hsame <;> exact hsame
  have halike := other.alike_untied hid library
  exact (addresses.of_alike (set.alike_untied addresses.identified library)).of_alike
    (h ▸ halike.symm hid)

/-- A check writes the relations of member functions of its library and nothing else, does not
depend on what they were, can be repeated, and reports on records of its library. -/
theorem Addresses.check_touches_relations_only (addresses : set.Addresses library) :
    (set.check library).1.untied library = set.untied library ∧
      (∀ other : LibrarySet, other.untied library = set.untied library →
        other.check library = set.check library) ∧
      (set.check library).1.check library = set.check library ∧
      ∀ found ∈ (set.check library).2, set.Documents library found.1 := by
  have halike := set.alike_untied addresses.identified library
  have huntied := addresses.of_alike halike
  -- The check first clears the lists, so it depends on the set without them alone, and all it
  -- records is lists of the library's own functions.
  have hframe : (set.check library).1.untied library = set.untied library := by
    rw [addresses.check_eq]
    cases hlib : (set.untied library).get? library with
    | none => exact set.untied_untied library
    | some lib =>
      refine (untied_record _ fun pair hpair id hend hlibrary => ?_).trans
        (set.untied_untied library)
      obtain ⟨other, f, ⟨category, index, entry, hslot, hf⟩, rfl⟩ :=
        owned_of_mem_judge huntied.identified hlib hpair hend
      exact huntied.id_function hslot hf hlibrary
  have hsame (other : LibrarySet) (h : other.untied library = set.untied library) :
      other.check library = set.check library := by
    rw [(addresses.of_untied h).check_eq, addresses.check_eq, h]
  refine ⟨hframe, hsame, hsame _ hframe, fun found hfound => ?_⟩
  rw [addresses.check_eq] at hfound
  refine halike.documents ?_
  cases hlib : (set.untied library).get? library with
  | none => simp [hlib] at hfound
  | some lib =>
    rw [hlib] at hfound
    rcases List.mem_append.1 hfound with hfound | hfound
    · exact documents_checkDuplicates huntied.identified hlib hfound
    · exact documents_judge hlib hfound

/-- Whatever the functions of the ring are said to override, the check finds the same. -/
theorem ring_check_touches_relations_only : ring.Addresses .project ∧
    (ring.check .project).1.untied .project = ring.untied .project ∧
      (∀ other : LibrarySet, other.untied .project = ring.untied .project →
        other.check .project = ring.check .project) ∧
      (ring.check .project).1.check .project = ring.check .project ∧
      ∀ found ∈ (ring.check .project).2, ring.Documents .project found.1 :=
  have addresses := addressed_ring.addresses .project
  ⟨addresses, addresses.check_touches_relations_only⟩

end LibrarySet

end SymbolGraph
