import SymbolGraph.Proofs.Model.LibrarySets
import SymbolGraph.Proofs.Model.Skeletons

/-!
# What stays of a record when it is edited

The *tags* of an entry are its identity and the places that refer to it, with the same of each of
its members.  They decide which identities are found, and under which references.  Edits fall into
four kinds: most leave the tags alone (`LibrarySet.SameTags`), a change of references touches one
tag (`Tags.adjust`), resetting drops the members, and declaring members adds some.

`set.Orderly` says that tags stand where their identities say: an entry in its own slot, a member
in a list that its owner's category has, at the position of its index.  In an orderly set a target
is live exactly when looking it up finds something, provided its identity is of the right form
(`Target.Proper`).
-/

namespace SymbolGraph

/-! ## Identities -/

/-- Members, and only members, name an owner. -/
def DeclId.Proper (id : DeclId) : Prop := id.define.isSome = id.category.isMember

/-- Only an identity can be of a wrong form. -/
def Target.Proper : Target → Prop
  | .declaration id => id.Proper
  | .space _ => True

/-- The library that holds a target. -/
def Target.library : Target → LibraryId
  | .declaration id => id.library
  | .space ref => ref.library

namespace DeclId

lemma owner?_of_top {id : DeclId} (h : id.category.isMember = false) : id.owner? = none := by
  have hnone : id.category.owner? = none := by simpa [Category.isMember] using h
  simp [owner?, hnone]

/-- Members belong to the library of their owner. -/
lemma library_of_owner? {id owner : DeclId} (h : id.owner? = some owner) :
    owner.library = id.library := by
  unfold owner? at h
  split at h
  · rw [← Option.some.inj h]
  · cases h

lemma seat_of_top {id : DeclId} (h : id.category.isMember = false) :
    id.seat = (id.category, id.index) := by
  simp [seat, owner?_of_top h]

lemma Proper.define_of_top {id : DeclId} (proper : id.Proper)
    (h : id.category.isMember = false) : id.define = none := by
  have hnone : id.define.isSome = false := proper.trans h
  simpa using hnone

/-- A member of the right form and its owner. -/
lemma Proper.exists_owner {id : DeclId} (proper : id.Proper) (h : id.category.isMember = true) :
    ∃ category index, id.category.owner? = some category ∧ id.define = some index ∧
      id.owner? = some ⟨id.library, category, index, none⟩ ∧ id.seat = (category, index) := by
  obtain ⟨category, hcategory⟩ := Option.isSome_iff_exists.1 h
  obtain ⟨index, hindex⟩ := Option.isSome_iff_exists.1 (proper.trans h)
  have howner : id.owner? = some ⟨id.library, category, index, none⟩ := by
    simp [owner?, hcategory, hindex]
  exact ⟨category, index, hcategory, hindex, howner, by simp [seat, howner]⟩

lemma owner?_isSome_of_proper {id : DeclId} (proper : id.Proper) :
    id.owner?.isSome = id.category.isMember := by
  cases h : id.category.isMember with
  | false => rw [owner?_of_top h]; rfl
  | true =>
    obtain ⟨category, index, -, -, howner, -⟩ := proper.exists_owner h
    rw [howner]
    rfl

lemma proper_top (library : LibraryId) {category : Category} (index : Nat)
    (h : category.isMember = false) : Proper ⟨library, category, index, none⟩ := by
  simp [Proper, h]

lemma proper_member (library : LibraryId) {category owner : Category} (index position : Nat)
    (h : category.owner? = some owner) : Proper ⟨library, category, position, some index⟩ := by
  simp [Proper, Category.isMember, h]

/-- Identities of the right form are told apart by their seats, categories and positions. -/
lemma Proper.ext {a b : DeclId} (ha : a.Proper) (hb : b.Proper) (hlibrary : a.library = b.library)
    (hcategory : a.category = b.category) (hindex : a.index = b.index) (hseat : a.seat = b.seat) :
    a = b := by
  have hdefine : a.define = b.define := by
    cases h : a.category.isMember with
    | false => rw [ha.define_of_top h, hb.define_of_top (hcategory ▸ h)]
    | true =>
      obtain ⟨_, i, -, hi, -, hsa⟩ := ha.exists_owner h
      obtain ⟨_, j, -, hj, -, hsb⟩ := hb.exists_owner (hcategory ▸ h)
      rw [hsa, hsb, Prod.mk.injEq] at hseat
      rw [hi, hj, hseat.2]
  obtain ⟨la, ca, ia, da⟩ := a
  obtain ⟨lb, cb, ib, db⟩ := b
  simp only at hlibrary hcategory hindex hdefine
  rw [hlibrary, hcategory, hindex, hdefine]

end DeclId

/-! ## Tags -/

/-- The identity and the references of an entry and of its members, list by list. -/
structure Tags where
  id : DeclId
  references : List Location
  members : Category → Option (List (DeclId × List Location))

/-- The member lists of a body, each member by identity and references. -/
def Body.tags (body : Body) (category : Category) : Option (List (DeclId × List Location)) :=
  (body.members? category).map (List.map fun m => (m.id, m.references))

/-- The tags of an entry. -/
def Entry.tags (entry : Entry) : Tags := ⟨entry.id, entry.references, entry.body.tags⟩

namespace Tags

/-- The tag that an identity means: that of the entry, or of one of its members. -/
def part? (tags : Tags) (id : DeclId) : Option (DeclId × List Location) :=
  match id.owner? with
  | none => some (tags.id, tags.references)
  | some _ => (tags.members id.category).bind fun members => members[id.index]?

/-- A change of the references at one tag. -/
def adjust (tags : Tags) (id : DeclId) (f : List Location → List Location) : Tags :=
  match id.owner? with
  | none => { tags with references := f tags.references }
  | some _ =>
    { tags with
      members := fun category =>
        if id.category = category then
          (tags.members category).map fun list => list.modify id.index fun m => (m.1, f m.2)
        else tags.members category }

/-- The tags without those of members, as they stand for a category before linking. -/
def bare (tags : Tags) (category : Category) : Tags :=
  { tags with members := (Body.fresh category).tags }

/-- The tags stand where their identities say. -/
structure Orderly (tags : Tags) (library : LibraryId) (category : Category) (index : Nat) :
    Prop where
  id_eq : tags.id = ⟨library, category, index, none⟩
  top_level : category.isMember = false
  owned : ∀ {c list}, tags.members c = some list → c.owner? = some category
  complete : ∀ {c}, c.owner? = some category → ∃ list, tags.members c = some list
  numbered : ∀ {c list j} {m : DeclId × List Location}, tags.members c = some list →
    list[j]? = some m → m.1 = ⟨library, c, j, some index⟩

lemma part?_adjust {a b : DeclId} (ha : a.Proper) (hb : b.Proper)
    (hlibrary : a.library = b.library) (hseat : a.seat = b.seat) (tags : Tags)
    (f : List Location → List Location) : (tags.adjust a f).part? b =
      if a = b then (tags.part? b).map fun tag => (tag.1, f tag.2) else tags.part? b := by
  unfold adjust part?
  -- A top-level declaration and its members share a seat, hence the cases.
  cases hma : a.category.isMember with
  | false =>
    rw [DeclId.owner?_of_top hma]
    cases hmb : b.category.isMember with
    | false =>
      have heq : a = b := by
        rw [DeclId.seat_of_top hma, DeclId.seat_of_top hmb, Prod.mk.injEq] at hseat
        exact ha.ext hb hlibrary hseat.1 hseat.2
          (by rw [DeclId.seat_of_top hma, DeclId.seat_of_top hmb, hseat.1, hseat.2])
      rw [DeclId.owner?_of_top hmb, if_pos heq]
      rfl
    | true =>
      obtain ⟨_, _, -, -, howner, -⟩ := hb.exists_owner hmb
      have hne : a ≠ b := by
        rintro rfl
        simp [hma] at hmb
      rw [howner, if_neg hne]
  | true =>
    obtain ⟨_, _, -, -, hownerA, -⟩ := ha.exists_owner hma
    rw [hownerA]
    cases hmb : b.category.isMember with
    | false =>
      have hne : a ≠ b := by
        rintro rfl
        simp [hma] at hmb
      rw [DeclId.owner?_of_top hmb, if_neg hne]
    | true =>
      obtain ⟨_, _, -, -, hownerB, -⟩ := hb.exists_owner hmb
      rw [hownerB]
      by_cases hcategory : a.category = b.category
      · simp only [hcategory, if_true]
        cases tags.members b.category with
        | none => simp
        | some members =>
          simp only [Option.map_some, Option.bind_some, List.getElem?_modify]
          by_cases hindex : a.index = b.index
          · have heq := ha.ext hb hlibrary hcategory hindex hseat
            simp [heq]
          · have hne : a ≠ b := fun heq => hindex (heq ▸ rfl)
            cases members[b.index]? <;> simp [hindex, hne]
      · have hne : a ≠ b := fun heq => hcategory (heq ▸ rfl)
        simp [hcategory, hne]

theorem Orderly.adjust {tags : Tags} {library : LibraryId} {category : Category} {index : Nat}
    (orderly : tags.Orderly library category index) (id : DeclId)
    (f : List Location → List Location) : (tags.adjust id f).Orderly library category index := by
  unfold Tags.adjust
  split
  · exact ⟨orderly.id_eq, orderly.top_level, orderly.owned, orderly.complete, orderly.numbered⟩
  · refine ⟨orderly.id_eq, orderly.top_level, ?_, ?_, ?_⟩
    · intro c members h
      dsimp only at h
      split at h
      · obtain ⟨old, hold, -⟩ := Option.map_eq_some_iff.1 h
        exact orderly.owned hold
      · exact orderly.owned h
    · intro c hc
      obtain ⟨list, hlist⟩ := orderly.complete hc
      dsimp only
      rw [hlist]
      split <;> exact ⟨_, rfl⟩
    · intro c members j m h hj
      dsimp only at h
      split at h
      · obtain ⟨old, hold, rfl⟩ := Option.map_eq_some_iff.1 h
        rw [List.getElem?_modify] at hj
        obtain ⟨tag, htag, rfl⟩ := Option.map_eq_some_iff.1 hj
        have hid := orderly.numbered hold htag
        split <;> exact hid
      · exact orderly.numbered h hj

/-- Without members, the identity of an entry is all that matters. -/
lemma orderly_bare {tags : Tags} {library : LibraryId} {category : Category} {index : Nat}
    (hid : tags.id = ⟨library, category, index, none⟩) (htop : category.isMember = false) :
    (tags.bare category).Orderly library category index := by
  refine ⟨hid, htop, ?_, ?_, ?_⟩
  · intro c members h
    revert h
    cases category <;> cases c <;> simp [Tags.bare, Body.fresh, Body.tags, Body.members?,
      Category.owner?]
  · intro c hc
    revert hc
    cases category <;> cases c <;> simp [Tags.bare, Body.fresh, Body.tags, Body.members?,
      Category.owner?]
  · intro c members j m h hj
    have hnil : members = [] := by
      revert h
      cases category <;> cases c <;> simp [Tags.bare, Body.fresh, Body.tags, Body.members?]
    rw [hnil] at hj
    simp at hj

end Tags

/-! ## Live targets -/

namespace LibrarySet

/-- The tags of the entry in a slot. -/
def tags? (set : LibrarySet) (library : LibraryId) (category : Category) (index : Nat) :
    Option Tags :=
  (set.slot? library category index).map Entry.tags

/-- All tags stand where their identities say. -/
structure Orderly (set : LibrarySet) : Prop where
  identified : set.Identified
  tags : ∀ {library category index tags}, set.tags? library category index = some tags →
    tags.Orderly library category index

/-- The target exists: a declaration under its own identity, or a namespace. -/
def Live (set : LibrarySet) : Target → Prop
  | .declaration id => ∃ entry, set.find? id = some entry ∧ entry.id = id
  | .space ref => ∃ space, set.space? ref = some space

variable {set set' set'' : LibrarySet}

lemma map_find? (h : set.Identified) (id : DeclId) :
    (set.find? id).map (fun entry => (entry.id, entry.references))
      = (set.tags? id.library id.seat.1 id.seat.2).bind fun tags => tags.part? id := by
  rw [find?_eq h, tags?]
  cases set.slot? id.library id.seat.1 id.seat.2 with
  | none => rfl
  | some entry =>
    simp only [Option.bind_some, Option.map_some, DeclId.part?, Tags.part?, Entry.tags, Body.tags]
    cases id.owner? with
    | none => rfl
    | some owner =>
      cases entry.body.members? id.category with
      | none => rfl
      | some list =>
        simp only [Option.bind_some, Option.map_some, Option.map_map, List.getElem?_map]
        rfl

lemma references?_declaration (h : set.Identified) (id : DeclId) :
    set.references? (.declaration id)
      = ((set.tags? id.library id.seat.1 id.seat.2).bind fun tags => tags.part? id).map
        Prod.snd := by
  rw [← map_find? h, Option.map_map]
  rfl

/-- The identity that a lookup finds is the one that was looked up, if that has the right form. -/
lemma Orderly.id_of_find? (orderly : set.Orderly) {id : DeclId} (proper : id.Proper)
    {entry : Entry} (h : set.find? id = some entry) : entry.id = id := by
  have hview := map_find? orderly.identified id
  rw [h, Option.map_some] at hview
  obtain ⟨tags, htags, hpart⟩ := Option.bind_eq_some_iff.1 hview.symm
  have htag := orderly.tags htags
  unfold Tags.part? at hpart
  cases hmember : id.category.isMember with
  | false =>
    rw [DeclId.owner?_of_top hmember, Option.some.injEq, Prod.mk.injEq, htag.id_eq,
      DeclId.seat_of_top hmember] at hpart
    rw [← hpart.1, ← proper.define_of_top hmember]
  | true =>
    obtain ⟨category, index, -, hdefine, howner, hseat⟩ := proper.exists_owner hmember
    rw [howner] at hpart
    obtain ⟨list, hlist, hget⟩ := Option.bind_eq_some_iff.1 hpart
    have hid := htag.numbered hlist hget
    rw [hseat, ← hdefine] at hid
    exact hid

/-- What is found under its own identity has one of the right form. -/
lemma Orderly.proper_of_find? (orderly : set.Orderly) {id : DeclId} {entry : Entry}
    (h : set.find? id = some entry) : entry.id.Proper := by
  have hview := map_find? orderly.identified id
  rw [h, Option.map_some] at hview
  obtain ⟨tags, htags, hpart⟩ := Option.bind_eq_some_iff.1 hview.symm
  have htag := orderly.tags htags
  unfold Tags.part? at hpart
  split at hpart
  · rw [Option.some.injEq, Prod.mk.injEq, htag.id_eq] at hpart
    rw [← hpart.1]
    exact DeclId.proper_top _ _ htag.top_level
  · obtain ⟨list, hlist, hget⟩ := Option.bind_eq_some_iff.1 hpart
    have hid := htag.numbered hlist hget
    simp only at hid
    rw [hid]
    exact DeclId.proper_member _ _ _ (htag.owned hlist)

lemma Orderly.live_iff (orderly : set.Orderly) (target : Target) :
    set.Live target ↔ target.Proper ∧ ∃ refs, set.references? target = some refs := by
  cases target with
  | declaration id =>
    constructor
    · rintro ⟨entry, hentry, hid⟩
      exact ⟨hid ▸ orderly.proper_of_find? hentry, entry.references,
        by simp [references?, hentry]⟩
    · rintro ⟨proper, refs, hrefs⟩
      obtain ⟨entry, hentry, -⟩ := Option.map_eq_some_iff.1 hrefs
      exact ⟨entry, hentry, orderly.id_of_find? proper hentry⟩
  | space ref =>
    simp [Live, Target.Proper, references?]

/-! ## Edits that keep the tags -/

/-- Two states of the model with the same tags and the same references to namespaces. -/
structure SameTags (set set' : LibrarySet) : Prop where
  identified : set.Identified → set'.Identified
  tags : ∀ library category index, set'.tags? library category index
    = set.tags? library category index
  spaces : ∀ ref, (set'.space? ref).map Namespace.references
    = (set.space? ref).map Namespace.references

lemma SameTags.refl (set : LibrarySet) : SameTags set set :=
  ⟨id, fun _ _ _ => rfl, fun _ => rfl⟩

lemma SameTags.trans (h : SameTags set set') (k : SameTags set' set'') : SameTags set set'' :=
  ⟨fun hid => k.identified (h.identified hid), fun l c i => (k.tags l c i).trans (h.tags l c i),
    fun ref => (k.spaces ref).trans (h.spaces ref)⟩

lemma SameTags.orderly (h : SameTags set set') (orderly : set.Orderly) : set'.Orderly :=
  ⟨h.identified orderly.identified, fun htags => orderly.tags ((h.tags _ _ _).symm.trans htags)⟩

lemma SameTags.references?_eq (h : SameTags set set') (hid : set.Identified) (target : Target) :
    set'.references? target = set.references? target := by
  cases target with
  | declaration id =>
    rw [references?_declaration hid, references?_declaration (h.identified hid), h.tags]
  | space ref => exact h.spaces ref

lemma SameTags.foldl {α : Type} {step : LibrarySet → α → LibrarySet} (xs : List α)
    (h : ∀ set, set.Orderly → ∀ x ∈ xs, SameTags set (step set x)) (orderly : set.Orderly) :
    SameTags set (xs.foldl step set) := by
  induction xs generalizing set with
  | nil => exact .refl set
  | cons x xs ih =>
    have hfirst := h set orderly x (List.mem_cons_self ..)
    exact hfirst.trans (ih (fun set hset y hy => h set hset y (List.mem_cons_of_mem _ hy))
      (hfirst.orderly orderly))

/-- An edit that leaves the tags of the entry at its seat alone. -/
lemma sameTags_edit (hid : set.Identified) {id : DeclId} {edit : Edit}
    (h : ∀ entry, set.slot? id.library id.seat.1 id.seat.2 = some entry →
      (edit.atSeat id entry).tags = entry.tags) : SameTags set (set.edit id edit) := by
  refine ⟨fun hid => hid.edit id edit, ?_, fun ref => by rw [space?_edit]⟩
  intro library category index
  rw [tags?, tags?, slot?_edit hid]
  split
  · next heq =>
    obtain ⟨rfl, hseat⟩ := heq
    cases hslot : set.slot? id.library category index with
    | none => rfl
    | some entry =>
      rw [Option.map_some, Option.map_some, Option.map_some, h entry (by rw [hseat, hslot])]
  · rfl

end LibrarySet

lemma Body.tags_overMembers (body : Body) (category : Category)
    {f : List Member → List Member}
    (h : ∀ list : List Member, (f list).map (fun m => (m.id, m.references))
      = list.map fun m => (m.id, m.references)) :
    (body.overMembers category f).tags = body.tags := by
  funext c
  simp only [tags, members?_overMembers]
  split
  · cases body.members? c with
    | none => rfl
    | some list => simp [h]
  · rfl

lemma map_modify_of_eq {α β : Type} {f : α → α} {g : α → β} (h : ∀ x, g (f x) = g x)
    (list : List α) (i : Nat) : (list.modify i f).map g = list.map g := by
  refine List.ext_getElem? fun j => ?_
  simp only [List.getElem?_map, List.getElem?_modify]
  cases list[j]? with
  | none => rfl
  | some x => by_cases hj : i = j <;> simp [hj, h]

/-- An edit of a member that keeps its tag keeps those of its owner. -/
lemma Edit.tags_atSeat {edit : Edit} {id : DeclId} {entry : Entry}
    (hentry : id.owner? = none → (edit.onEntry entry).tags = entry.tags)
    (hmember : ∀ m, (edit.onMember m).id = m.id ∧ (edit.onMember m).references = m.references) :
    (edit.atSeat id entry).tags = entry.tags := by
  unfold atSeat
  split
  · next hnone => exact hentry hnone
  · have hbody : (entry.body.overMembers id.category fun list =>
        list.modify id.index edit.onMember).tags = entry.body.tags :=
      entry.body.tags_overMembers _ fun list =>
        map_modify_of_eq (fun m => by rw [(hmember m).1, (hmember m).2]) list _
    simp only [Entry.tags, Symbol.map, hbody]

lemma Edit.tags_callable (f : Callable → Callable) (id : DeclId) (entry : Entry) :
    ((Edit.callable f).atSeat id entry).tags = entry.tags := by
  refine tags_atSeat (fun _ => ?_) fun _ => ⟨rfl, rfl⟩
  obtain ⟨name, nameRange, document, space, id, visibility, references, valid, body⟩ := entry
  cases body <;> rfl

lemma Edit.tags_body {f : Body → Body} (h : ∀ body, (f body).tags = body.tags) (id : DeclId)
    (entry : Entry) : ((Edit.body f).atSeat id entry).tags = entry.tags := by
  refine tags_atSeat (fun _ => ?_) fun _ => ⟨rfl, rfl⟩
  simp only [Edit.body, Entry.tags, Symbol.map, h]

lemma Edit.tags_references (f : List Location → List Location) (id : DeclId) (entry : Entry) :
    ((Edit.references f).atSeat id entry).tags = entry.tags.adjust id f := by
  unfold atSeat Tags.adjust
  cases id.owner? with
  | none => rfl
  | some owner =>
    simp only [Entry.tags, Symbol.map, Tags.mk.injEq, true_and]
    funext category
    simp only [Body.tags, Body.members?_overMembers]
    split
    · cases entry.body.members? category with
      | none => rfl
      | some list =>
        simp only [Option.map_some, Option.some.injEq]
        refine List.ext_getElem? fun j => ?_
        simp only [List.getElem?_map, List.getElem?_modify]
        cases list[j]? with
        | none => rfl
        | some m => by_cases hj : id.index = j <;> simp [hj, Edit.references]
    · rfl

namespace LibrarySet

variable {set : LibrarySet}

lemma tags?_of_slot? {library : LibraryId} {category : Category} {index : Nat} {entry : Entry}
    (h : set.slot? library category index = some entry) :
    set.tags? library category index = some entry.tags := by
  rw [tags?, h, Option.map_some]

/-! ## References -/

lemma tags?_references (hid : set.Identified) (f : List Location → List Location) (id : DeclId)
    (library : LibraryId) (category : Category) (index : Nat) :
    (set.edit id (.references f)).tags? library category index =
      if id.library = library ∧ id.seat = (category, index) then
        (set.tags? library category index).map fun tags => tags.adjust id f
      else set.tags? library category index := by
  rw [tags?, tags?, slot?_edit hid]
  split
  · cases set.slot? library category index with
    | none => rfl
    | some entry => simp only [Option.map_some, Edit.tags_references]
  · rfl

lemma Orderly.overReferences (orderly : set.Orderly) (f : List Location → List Location)
    (target : Target) : (set.overReferences f target).Orderly := by
  cases target with
  | declaration id =>
    refine ⟨orderly.identified.edit id _, ?_⟩
    intro library category index tags htags
    change (set.edit id (.references f)).tags? library category index = some tags at htags
    rw [tags?_references orderly.identified] at htags
    split at htags
    · obtain ⟨old, hold, rfl⟩ := Option.map_eq_some_iff.1 htags
      exact (orderly.tags hold).adjust id f
    · exact orderly.tags htags
  | space ref =>
    refine ⟨orderly.identified.adjustSpace ref _, ?_⟩
    intro library category index tags htags
    rw [tags?, LibrarySet.overReferences, slot?_adjustSpace] at htags
    exact orderly.tags htags

/-- A change of the references of one target is seen at that target only. -/
lemma Orderly.references?_overReferences (orderly : set.Orderly)
    (f : List Location → List Location) {a b : Target} (ha : a.Proper) (hb : b.Proper) :
    (set.overReferences f a).references? b =
      if a = b then (set.references? b).map f else set.references? b := by
  -- Of two declarations, the tags at their seats decide.
  cases a with
  | declaration a =>
    cases b with
    | declaration b =>
      have hid := orderly.identified
      rw [references?_declaration hid, LibrarySet.overReferences,
        references?_declaration (hid.edit a _), tags?_references hid]
      simp only [Target.declaration.injEq]
      by_cases hseat : a.library = b.library ∧ a.seat = b.seat
      · rw [if_pos hseat]
        cases set.tags? b.library b.seat.1 b.seat.2 with
        | none => simp
        | some tags =>
          simp only [Option.map_some, Option.bind_some,
            Tags.part?_adjust ha hb hseat.1 hseat.2 tags f]
          split
          · simp only [Option.map_map]
            rfl
          · rfl
      · have hne : a ≠ b := by
          rintro rfl
          exact hseat ⟨rfl, rfl⟩
        rw [if_neg hseat, if_neg hne]
    | space b =>
      simp only [LibrarySet.overReferences, references?, space?_edit, reduceCtorEq, if_false]
  | space a =>
    cases b with
    | declaration b =>
      simp only [LibrarySet.overReferences, references?, find?_adjustSpace, reduceCtorEq, if_false]
    | space b =>
      simp only [LibrarySet.overReferences, references?, space?_adjustSpace, Target.space.injEq]
      split
      · cases set.space? b <;> rfl
      · rfl

/-! ## What the passes write beside references -/

lemma sameTags_overImplementors (hid : set.Identified) (base : DeclId)
    (f : List DeclId → List DeclId) : SameTags set (set.overImplementors base f) := by
  refine sameTags_edit hid fun entry _ => Edit.tags_body (fun body => ?_) base entry
  funext c
  cases body <;> cases c <;> rfl

lemma sameTags_callable (hid : set.Identified) (id : DeclId) (f : Callable → Callable) :
    SameTags set (set.edit id (.callable f)) :=
  sameTags_edit hid fun entry _ => Edit.tags_callable f id entry

end LibrarySet

/-- No member is owned by a declaration of the category. -/
def Category.OwnsNothing (category : Category) : Prop :=
  ∀ member : Category, member.owner? ≠ some category

/-- The update takes no members away: bodies without members are given to declarations that have
none. -/
def Update.Fits : Update → Prop
  | .variable target _ | .task target _ => target.category.OwnsNothing
  | .callable .. | .inheritance .. => True

namespace LibrarySet

variable {set : LibrarySet}

lemma sameTags_update (orderly : set.Orderly) {update : Update} (fits : update.Fits) :
    SameTags set (update.apply set) := by
  have hid := orderly.identified
  have hnone {target : DeclId} {entry : Entry} (hfits : target.category.OwnsNothing)
      (htop : target.owner? = none)
      (hslot : set.slot? target.library target.seat.1 target.seat.2 = some entry) :
      entry.body.tags = fun _ => none := by
    funext c
    cases hc : entry.body.tags c with
    | none => rfl
    | some list =>
      have howned := (orderly.tags (tags?_of_slot? hslot)).owned hc
      simp only [DeclId.seat, htop] at howned
      exact absurd howned (hfits c)
  cases update with
  | «variable» target info =>
    refine sameTags_edit hid fun entry hslot => ?_
    refine Edit.tags_atSeat (fun htop => ?_) fun m => ⟨rfl, rfl⟩
    simp only [Edit.setLeaf, Entry.tags, Symbol.map, hnone fits htop hslot]
    rfl
  | callable target params returns => exact sameTags_callable hid target _
  | task target returns =>
    refine sameTags_edit hid fun entry hslot => ?_
    refine Edit.tags_atSeat (fun htop => ?_) fun m => ⟨rfl, rfl⟩
    simp only [Edit.body, Entry.tags, Symbol.map, hnone fits htop hslot]
    rfl
  | inheritance target parent inherits =>
    refine sameTags_edit hid fun entry _ => Edit.tags_body (fun body => ?_) target entry
    funext c
    cases body <;> cases c <;> rfl

lemma sameTags_stripRelations (orderly : set.Orderly) (id : DeclId) :
    SameTags set (set.stripRelations id) :=
  SameTags.foldl _ (fun _ orderly pair _ => sameTags_callable orderly.identified pair.1 _) orderly

lemma sameTags_relate (library : LibraryId) (hid : set.Identified) (function : DeclId)
    (f : Relations → Relations) : SameTags set (relate library set function f) := by
  unfold relate
  split
  · exact sameTags_callable hid function _
  · exact .refl set

lemma sameTags_clearRelations (orderly : set.Orderly) (library : LibraryId) :
    SameTags set (set.clearRelations library) := by
  have hclear (list : List Member) :
      (list.map fun m => m.map (Leaf.overCallable fun c => { c with relations := {} })).map
        (fun m => (m.id, m.references)) = list.map fun m => (m.id, m.references) := by
    rw [List.map_map]
    rfl
  unfold clearRelations
  split
  · exact .refl set
  · refine SameTags.foldl _ (fun set orderly owner _ => ?_) orderly
    refine sameTags_edit orderly.identified fun entry _ => Edit.tags_body (fun body => ?_) _ entry
    rw [Body.clearRelations, Body.tags_overMembers _ _ hclear, Body.tags_overMembers _ _ hclear,
      Body.tags_overMembers _ _ hclear]

lemma sameTags_addOverride (library : LibraryId) (hid : set.Identified)
    (pair : DeclId × DeclId) : SameTags set (addOverride library set pair) := by
  obtain ⟨function, base⟩ := pair
  unfold addOverride
  have hfirst := sameTags_relate library hid function
    fun r => { r with overrides := addNew r.overrides base }
  exact hfirst.trans (sameTags_relate library (hfirst.identified hid) base _)

lemma sameTags_addImplementation (library : LibraryId) (hid : set.Identified)
    (pair : DeclId × DeclId) : SameTags set (addImplementation library set pair) := by
  obtain ⟨function, base⟩ := pair
  unfold addImplementation
  have hfirst := sameTags_relate library hid function
    fun r => { r with implements := addNew r.implements base }
  exact hfirst.trans (sameTags_relate library (hfirst.identified hid) base _)

lemma sameTags_record (orderly : set.Orderly) (library : LibraryId) (verdict : Verdict) :
    SameTags set (record library set verdict) := by
  have hoverrides : SameTags set (verdict.overrides.foldl (addOverride library) set) :=
    SameTags.foldl _ (fun _ orderly pair _ => sameTags_addOverride library orderly.identified pair)
      orderly
  have himplements := SameTags.foldl verdict.implements
    (fun _ orderly pair _ => sameTags_addImplementation library orderly.identified pair)
    (hoverrides.orderly orderly)
  exact hoverrides.trans himplements

/-- Checking a library changes no tag. -/
lemma sameTags_check (orderly : set.Orderly) (library : LibraryId) :
    SameTags set (set.check library).1 := by
  have hclear := sameTags_clearRelations orderly library
  simp only [check]
  split
  · exact hclear
  · exact hclear.trans (sameTags_record (hclear.orderly orderly) library _)

/-! ## Losing members -/

lemma tags?_reset (orderly : set.Orderly) {id : DeclId} (htop : id.category.isMember = false)
    (library : LibraryId) (category : Category) (index : Nat) :
    (set.edit id .reset).tags? library category index =
      if id.library = library ∧ (id.category, id.index) = (category, index) then
        (set.tags? library category index).map fun tags => tags.bare category
      else set.tags? library category index := by
  rw [tags?, tags?, slot?_edit orderly.identified, DeclId.seat_of_top htop]
  split
  · next heq =>
    cases hslot : set.slot? library category index with
    | none => rfl
    | some entry =>
      have hid := (orderly.tags (tags?_of_slot? hslot)).id_eq
      have hcategory : entry.id.category = category := congrArg DeclId.category hid
      simp only [Option.map_some, Edit.atSeat, DeclId.owner?_of_top htop, Edit.reset, Entry.tags,
        Tags.bare, hcategory]
  · rfl

end LibrarySet

/-! ## Gaining members -/

namespace DeclNode

lemma filter_membersOf {α : Type} (category c : Category) (name : α → Ident)
    (visibility : α → Visibility) (nodes : List α) :
    (membersOf category name visibility nodes).filter (fun m => m.category = c)
      = if category = c then membersOf category name visibility nodes else [] := by
  unfold membersOf
  split
  · next h =>
    refine List.filter_eq_self.2 fun m hm => ?_
    obtain ⟨node, -, rfl⟩ := List.mem_map.1 hm
    simpa using h
  · next h =>
    refine List.filter_eq_nil_iff.2 fun m hm => ?_
    obtain ⟨node, -, rfl⟩ := List.mem_map.1 hm
    simpa using h

lemma position_membersOf {α : Type} {category : Category} {name : α → Ident}
    {visibility : α → Visibility} {nodes : List α} {j : Nat} {m : MemberNode}
    (h : (membersOf category name visibility nodes)[j]? = some m) :
    m.category = category ∧ m.position = j := by
  simp only [membersOf, List.getElem?_map, List.getElem?_zipIdx, Option.map_map,
    Option.map_eq_some_iff] at h
  obtain ⟨node, -, rfl⟩ := h
  simp

/-- The members of one category are numbered from zero. -/
lemma position_memberNodes (node : DeclNode) (c : Category) {j : Nat} {m : MemberNode}
    (h : (node.memberNodes.filter fun m => m.category = c)[j]? = some m) :
    m.category = c ∧ m.position = j := by
  have hcategory : m.category = c := by
    have hmem := List.mem_of_getElem? h
    simpa using (List.mem_filter.1 hmem).2
  refine ⟨hcategory, ?_⟩
  -- A record has its kinds of members one after another, each kind numbered from zero.
  cases node with
  | enum node =>
    rw [memberNodes, filter_membersOf] at h
    split at h
    · exact (position_membersOf h).2
    · simp at h
  | struct node =>
    rw [memberNodes, List.filter_append, filter_membersOf, filter_membersOf] at h
    split at h
    · next hc =>
      subst hc
      simp only [reduceCtorEq, if_false, List.append_nil] at h
      exact (position_membersOf h).2
    · split at h
      · exact (position_membersOf h).2
      · simp at h
  | interface node =>
    rw [memberNodes, filter_membersOf] at h
    split at h
    · exact (position_membersOf h).2
    · simp at h
  | «class» node =>
    rw [memberNodes, List.filter_append, List.filter_append, filter_membersOf, filter_membersOf,
      filter_membersOf] at h
    split at h
    · next hc =>
      subst hc
      simp only [reduceCtorEq, if_false, List.append_nil] at h
      exact (position_membersOf h).2
    · split at h
      · next hc =>
        subst hc
        simp only [reduceCtorEq, if_false, List.append_nil] at h
        exact (position_membersOf h).2
      · split at h
        · exact (position_membersOf h).2
        · simp at h
  | «variable» node => simp [memberNodes] at h
  | function node => simp [memberNodes] at h
  | native node => simp [memberNodes] at h
  | delegate node => simp [memberNodes] at h
  | task node => simp [memberNodes] at h

end DeclNode

namespace LinkMembers

lemma members?_addMembers (members : List Member) (body : Body) (c : Category) :
    (members.foldl (fun body m => addMember m body) body).members? c
      = (body.members? c).map (· ++ members.filter fun m => m.category = c) := by
  induction members generalizing body with
  | nil => cases h : body.members? c <;> simp [h]
  | cons m rest ih =>
    rw [List.foldl_cons, ih, addMember, Body.members?_overMembers]
    by_cases hc : m.category = c
    · rw [if_pos hc, List.filter_cons_of_pos (by simpa using hc)]
      cases body.members? c <;> simp
    · rw [if_neg hc, List.filter_cons_of_neg (by simpa using hc)]

/-- The members that a node declares, one category at a time. -/
lemma filter_members (document : String) (id : DeclId) (owner : Entry) (node : DeclNode)
    (c : Category) : (node.memberNodes.map (member document id owner)).filter
      (fun m => m.category = c)
      = (node.memberNodes.filter fun m => m.category = c).map (member document id owner) := by
  rw [List.filter_map]
  rfl

end LinkMembers

/-- There are member lists at most, and nothing is in them. -/
def Tags.Bare (tags : Tags) : Prop := ∀ {c list}, tags.members c = some list → list = []

lemma Tags.bare_bare (tags : Tags) (category : Category) : (tags.bare category).Bare := by
  intro c list h
  revert h
  cases category <;> cases c <;> simp [Tags.bare, Body.fresh, Body.tags, Body.members?]

theorem Tags.Bare.adjust {tags : Tags} (bare : tags.Bare) (id : DeclId)
    (f : List Location → List Location) : (tags.adjust id f).Bare := by
  unfold Tags.adjust
  split
  · exact bare
  · intro c list h
    dsimp only at h
    split at h
    · obtain ⟨old, hold, rfl⟩ := Option.map_eq_some_iff.1 h
      rw [bare hold]
      cases id.index <;> rfl
    · exact bare h

/-- The tags of a bare body whose members have been declared. -/
lemma Body.tags_declared {body : Body} (bare : ∀ {c list}, body.tags c = some list → list = [])
    (document : String) (id : DeclId) (owner : Entry) (node : DeclNode) (c : Category) :
    Body.tags ((node.memberNodes.map (LinkMembers.member document id owner)).foldl
        (fun body m => LinkMembers.addMember m body) body) c
      = (body.tags c).map fun _ => (node.memberNodes.filter fun m => m.category = c).map fun m =>
          (LinkMembers.memberId id m, []) := by
  rw [Body.tags, LinkMembers.members?_addMembers, LinkMembers.filter_members]
  cases hc : body.members? c with
  | none => simp [Body.tags, hc]
  | some list =>
    have htags : body.tags c = some (list.map fun m => (m.id, m.references)) := by
      simp [Body.tags, hc]
    have hnil : list = [] := by simpa using bare htags
    rw [htags, hnil]
    simp only [Option.map_some, List.nil_append, List.map_map]
    rfl

end SymbolGraph
