import Mathlib.Tactic.Common
import SymbolGraph.SourceUnit

/-!
# Reading a set of libraries after a change

Every change of the model goes through `LibrarySet.adjust`, and every question through
`LibrarySet.get?`.  A declaration sits at a *seat*, the slot of its own or of its owner; an edit of
the declaration is a change of the entry at that seat (`Edit.atSeat`), and looking it up is reading
a part of that entry (`DeclId.part?`).  The equations below say what each question answers after
each change.
-/

namespace SymbolGraph

/-! ## Libraries of a set -/

@[simp] lemma LibraryId.kernel_ne_project : kernel ≠ project := by decide

@[simp] lemma LibraryId.project_ne_kernel : project ≠ kernel := by decide

@[simp] lemma LibraryId.ofSlot_ne_project (slot : Nat) : ofSlot slot ≠ project := by
  simp only [ofSlot, project, ne_eq, LibraryId.mk.injEq]
  omega

@[simp] lemma LibraryId.ofSlot_ne_kernel (slot : Nat) : ofSlot slot ≠ kernel := by
  simp only [ofSlot, kernel, ne_eq, LibraryId.mk.injEq]
  omega

lemma LibraryId.slot?_inj {a b : LibraryId} {i : Nat} (ha : a.slot? = some i)
    (hb : b.slot? = some i) : a = b := by
  obtain ⟨m⟩ := a
  obtain ⟨n⟩ := b
  simp only [slot?, Option.ite_none_right_eq_some, Option.some.injEq] at ha hb
  simp only [LibraryId.mk.injEq]
  omega

namespace LibrarySet

lemma get?_adjust (set : LibrarySet) (id id' : LibraryId) (f : Library → Library) :
    (set.adjust id f).get? id' = if id = id' then (set.get? id').map f else set.get? id' := by
  unfold adjust get?
  -- An import is found in the slot that its identity names.
  by_cases hp : id = .project
  · subst hp
    by_cases hp' : id' = .project
    · simp [hp']
    · simp [hp', Ne.symm hp']
  · by_cases hk : id = .kernel
    · subst hk
      by_cases hp' : id' = .project
      · subst hp'
        simp [hp]
      · by_cases hk' : id' = .kernel
        · simp [hk', hp]
        · simp [hk', Ne.symm hk', hp, hp']
    · simp only [hp, hk, if_false]
      cases hs : id.slot? with
      | none =>
        by_cases hid : id = id'
        · subst hid
          simp [hp, hk, hs]
        · simp [hid]
      | some slot =>
        by_cases hp' : id' = .project
        · simp [hp', hp]
        · by_cases hk' : id' = .kernel
          · subst hk'
            simp [hk, hp']
          · simp only [hp', hk', if_false]
            cases hs' : id'.slot? with
            | none =>
              have hid : id ≠ id' := by
                rintro rfl
                simp [hs] at hs'
              simp [hid]
            | some slot' =>
              by_cases hid : id = id'
              · subst hid
                obtain rfl : slot = slot' := by simpa [hs] using hs'
                simp
              · have hslot : slot ≠ slot' := by
                  rintro rfl
                  exact hid (LibraryId.slot?_inj hs hs')
                simp [hid, List.getElem?_modify, hslot]

@[simp] lemma names_adjust (set : LibrarySet) (id : LibraryId) (f : Library → Library) :
    (set.adjust id f).names = set.names := by
  unfold adjust
  split
  · rfl
  · split
    · rfl
    · split <;> rfl

lemma length_imports_adjust (set : LibrarySet) (id : LibraryId) (f : Library → Library) :
    (set.adjust id f).imports.length = set.imports.length := by
  unfold adjust
  split
  · rfl
  · split
    · rfl
    · split
      · simp
      · rfl

lemma get?_slot {set : LibrarySet} {id : LibraryId} {lib : Library} {slot : Nat}
    (hslot : id.slot? = some slot) (h : set.get? id = some lib) :
      set.imports[slot]? = some lib := by
  have hp : id ≠ .project := by
    rintro rfl
    simp [LibraryId.slot?, LibraryId.project] at hslot
  have hk : id ≠ .kernel := by
    rintro rfl
    simp [LibraryId.slot?, LibraryId.kernel] at hslot
  simpa [get?, hp, hk, hslot] using h

/-- Only what an adjustment does to the library at hand matters. -/
lemma adjust_congr {set : LibrarySet} {id : LibraryId} {lib : Library}
    (h : set.get? id = some lib) {f g : Library → Library} (heq : f lib = g lib) :
    set.adjust id f = set.adjust id g := by
  unfold adjust
  split
  · next hp =>
    obtain rfl : set.project = lib := by simpa [get?, hp] using h
    rw [heq]
  · next hp =>
    split
    · next hk =>
      obtain rfl : set.kernel = lib := by simpa [get?, hk] using h
      rw [heq]
    · split
      · next slot hslot =>
        have hlib := get?_slot hslot h
        congr 1
        refine List.ext_getElem? fun i => ?_
        simp only [List.getElem?_modify]
        by_cases hi : slot = i
        · subst hi
          simp [hlib, heq]
        · simp [hi]
      · rfl

lemma adjust_id (set : LibrarySet) (id : LibraryId) : (set.adjust id fun lib => lib) = set := by
  unfold adjust
  split
  · rfl
  · split
    · rfl
    · split
      · next slot _ =>
        have hmodify : set.imports.modify slot (fun lib => lib) = set.imports :=
          List.modify_id slot set.imports
        rw [hmodify]
      · rfl

lemma adjust_adjust (set : LibrarySet) (id : LibraryId) (f g : Library → Library) :
    (set.adjust id f).adjust id g = set.adjust id fun lib => g (f lib) := by
  unfold adjust
  by_cases hp : id = .project
  · simp [hp]
  · by_cases hk : id = .kernel
    · simp [hk]
    · simp only [hp, hk, if_false]
      cases hs : id.slot? with
      | none => simp
      | some slot =>
        simp only [LibrarySet.mk.injEq, true_and, and_true]
        refine List.ext_getElem? fun i => ?_
        simp only [List.getElem?_modify]
        cases set.imports[i]? with
        | none => rfl
        | some lib => by_cases hi : slot = i <;> simp [hi]

end LibrarySet

/-! ## Seats -/

/-- The table slot in which a declaration is found: its own, or that of its owner. -/
def DeclId.seat (id : DeclId) : Category × Nat :=
  match id.owner? with
  | none => (id.category, id.index)
  | some owner => (owner.category, owner.index)

/-- The part of an entry that an identity means: the entry, or one of its members. -/
def DeclId.part? (id : DeclId) (entry : Entry) : Option Entry :=
  match id.owner? with
  | none => some entry
  | some _ =>
    (entry.body.members? id.category).bind fun members => members[id.index]?.map Member.toEntry

/-- What an edit of a declaration does to the entry at its seat. -/
def Edit.atSeat (edit : Edit) (id : DeclId) (entry : Entry) : Entry :=
  match id.owner? with
  | none => edit.onEntry entry
  | some _ => entry.map (Body.overMembers id.category fun members =>
      members.modify id.index edit.onMember)

namespace Library

lemma find?_eq (lib : Library) (id : DeclId) : lib.find? id =
    if id.library = lib.id then (lib.slot? id.seat.1 id.seat.2).bind id.part? else none := by
  unfold find? DeclId.seat DeclId.part?
  by_cases hlib : id.library = lib.id
  · simp only [hlib, ne_eq, not_true_eq_false, if_false, if_true]
    cases id.owner? with
    | none => simp
    | some owner =>
      simp only [Option.bind_eq_bind, Option.pure_def]
      refine congrArg _ (funext fun entry => ?_)
      refine congrArg _ (funext fun members => ?_)
      cases members[id.index]? <;> rfl
  · simp [hlib]

lemma edit_eq (lib : Library) (id : DeclId) (edit : Edit) : lib.edit id edit =
    if id.library = lib.id then lib.adjustSlot id.seat.1 id.seat.2 (edit.atSeat id) else lib := by
  unfold Library.edit DeclId.seat Edit.atSeat
  by_cases hlib : id.library = lib.id
  · simp only [hlib, ne_eq, not_true_eq_false, if_false, if_true]
    cases id.owner? <;> rfl
  · simp [hlib]

@[simp] lemma id_edit (lib : Library) (id : DeclId) (edit : Edit) :
    (lib.edit id edit).id = lib.id := by
  rw [edit_eq]
  split <;> rfl

@[simp] lemma spaces_edit (lib : Library) (id : DeclId) (edit : Edit) :
    (lib.edit id edit).spaces = lib.spaces := by
  rw [edit_eq]
  split <;> rfl

lemma slot?_edit (lib : Library) (id : DeclId) (edit : Edit) (category : Category)
    (index : Nat) : (lib.edit id edit).slot? category index =
      if id.library = lib.id ∧ id.seat = (category, index) then
        (lib.slot? category index).map (edit.atSeat id)
      else lib.slot? category index := by
  rw [edit_eq]
  by_cases hlib : id.library = lib.id
  · simp only [hlib, if_true, slot?_adjustSlot, true_and, Prod.ext_iff]
  · simp [hlib]

end Library

/-! ## Slots and namespaces of a set -/

namespace LibrarySet

/-- The top-level declaration in a slot of a library. -/
def slot? (set : LibrarySet) (library : LibraryId) (category : Category) (index : Nat) :
    Option Entry :=
  (set.get? library).bind fun lib => lib.slot? category index

/-- The slots of a loaded library are its own. -/
lemma slot?_of_get? {set : LibrarySet} {library : LibraryId} {lib : Library}
    (hlib : set.get? library = some lib) (category : Category) (index : Nat) :
    set.slot? library category index = lib.slot? category index := by
  rw [slot?, hlib, Option.bind_some]

/-- Every library carries the identity it is loaded under. -/
def Identified (set : LibrarySet) : Prop :=
  ∀ library lib, set.get? library = some lib → lib.id = library

variable {set : LibrarySet}

lemma find?_eq (h : set.Identified) (id : DeclId) :
    set.find? id = (set.slot? id.library id.seat.1 id.seat.2).bind id.part? := by
  unfold find? slot?
  cases hlib : set.get? id.library with
  | none => rfl
  | some lib =>
    rw [Option.bind_some, Option.bind_some, Library.find?_eq, if_pos (h _ _ hlib).symm]

theorem Identified.adjust (h : set.Identified) (id : LibraryId) {f : Library → Library}
    (hf : ∀ lib, (f lib).id = lib.id) : (set.adjust id f).Identified := by
  intro library lib hlib
  rw [get?_adjust] at hlib
  split at hlib
  · obtain ⟨old, hold, rfl⟩ := Option.map_eq_some_iff.1 hlib
    rw [hf, h _ _ hold]
  · exact h _ _ hlib

lemma Identified.edit (h : set.Identified) (id : DeclId) (edit : Edit) :
    (set.edit id edit).Identified :=
  h.adjust _ fun lib => lib.id_edit id edit

lemma Identified.adjustSpace (h : set.Identified) (space : SpaceRef)
    (f : Namespace → Namespace) : (set.adjustSpace space f).Identified :=
  h.adjust _ fun _ => rfl

lemma slot?_edit (h : set.Identified) (id : DeclId) (edit : Edit) (library : LibraryId)
    (category : Category) (index : Nat) : (set.edit id edit).slot? library category index =
      if id.library = library ∧ id.seat = (category, index) then
        (set.slot? library category index).map (edit.atSeat id)
      else set.slot? library category index := by
  unfold LibrarySet.edit slot?
  rw [get?_adjust]
  by_cases hlib : id.library = library
  · subst hlib
    rw [if_pos rfl]
    cases hget : set.get? id.library with
    | none => simp
    | some lib =>
      simp only [Option.map_some, Option.bind_some, Library.slot?_edit, h _ _ hget, true_and]
  · rw [if_neg hlib, if_neg fun hboth => hlib hboth.1]

@[simp] lemma space?_edit (set : LibrarySet) (id : DeclId) (edit : Edit) (space : SpaceRef) :
    (set.edit id edit).space? space = set.space? space := by
  unfold LibrarySet.edit space?
  rw [get?_adjust]
  split
  · cases set.get? space.library <;> simp
  · rfl

@[simp] lemma slot?_adjustSpace (set : LibrarySet) (space : SpaceRef)
    (f : Namespace → Namespace) (library : LibraryId) (category : Category) (index : Nat) :
    (set.adjustSpace space f).slot? library category index
      = set.slot? library category index := by
  unfold adjustSpace slot?
  rw [get?_adjust]
  split
  · cases set.get? library <;> rfl
  · rfl

lemma space?_adjustSpace (set : LibrarySet) (space space' : SpaceRef)
    (f : Namespace → Namespace) : (set.adjustSpace space f).space? space' =
      if space = space' then (set.space? space').map f else set.space? space' := by
  unfold adjustSpace space?
  rw [get?_adjust]
  by_cases hlib : space.library = space'.library
  · rw [if_pos hlib]
    cases set.get? space'.library with
    | none => simp
    | some lib =>
      simp only [Option.map_some, Option.bind_some, Arena.get?_adjust]
      refine if_congr ?_ rfl rfl
      rw [SpaceRef.mk.injEq]
      simp [hlib]
  · have hne : space ≠ space' := fun heq => hlib (heq ▸ rfl)
    rw [if_neg hlib, if_neg hne]

@[simp] lemma find?_adjustSpace (set : LibrarySet) (space : SpaceRef)
    (f : Namespace → Namespace) (id : DeclId) :
    (set.adjustSpace space f).find? id = set.find? id := by
  unfold adjustSpace find?
  rw [get?_adjust]
  split
  · cases set.get? id.library <;> rfl
  · rfl

end LibrarySet

end SymbolGraph
