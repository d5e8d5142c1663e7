import SymbolGraph.Proofs.Namespaces.Tree

/-!
# Slots, namespaces and name groups of a library agree

`Library.Coherent` says that a library's tables and its namespaces tell one story: the declaration
in a slot carries the identity of the slot, it stands in a live namespace, and it is listed in the
group of its name there, once and nowhere else; no group is empty, and no two groups of a namespace
have the same name.  The operations that move a declaration in or out of the library, and those
that open or close a namespace, keep it.

Coherence is a matter of the skeleton, so linking keeps it for free (`Coherent.of_skeleton_eq`).
-/

namespace SymbolGraph

namespace Library

/-- The tables, the namespaces and the groups of a library agree. -/
structure Coherent (lib : Library) : Prop where
  tree : lib.spaces.IsTree
  id_eq : ∀ {category index entry}, lib.slot? category index = some entry →
    entry.id = ⟨lib.id, category, index, none⟩
  top_level : ∀ {category index entry}, lib.slot? category index = some entry →
    category.isMember = false
  space_live : ∀ {category index entry}, lib.slot? category index = some entry →
    ∃ space, lib.spaces.get? entry.space = some space
  group_iff : ∀ {id space name decl}, lib.spaces.get? id = some space →
    (decl ∈ space.group name ↔ ∃ entry, lib.slot? decl.category decl.index = some entry ∧
      entry.id = decl ∧ entry.space = id ∧ entry.name = name)
  group_nodup : ∀ {id space}, lib.spaces.get? id = some space → ∀ name, (space.group name).Nodup
  group_ne_nil : ∀ {id space}, lib.spaces.get? id = some space →
    ∀ name, space.groups.at? name ≠ some []
  group_keys : ∀ {id space}, lib.spaces.get? id = some space → space.groups.keys.Nodup

lemma slot?_new (id : LibraryId) (name : String) (category : Category) (index : Nat) :
    (new id name).slot? category index = none := by
  simp [slot?]

lemma coherent_new (id : LibraryId) (name : String) : (new id name).Coherent := by
  have hspace (s : SpaceId) (space : Namespace) (h : (new id name).spaces.get? s = some space) :
      space.groups = [] := by
    have hlt := Arena.lt_length_of_get? h
    obtain rfl : s = 0 := by simpa [new, Arena.new] using hlt
    simp only [new, Arena.new, Arena.get?, List.getElem?_cons_zero, Option.join_some,
      Option.some.injEq] at h
    rw [← h]
  refine ⟨Arena.isTree_new name, ?_, ?_, ?_, ?_, ?_, ?_, ?_⟩
  · intro category index entry h
    simp [slot?_new] at h
  · intro category index entry h
    simp [slot?_new] at h
  · intro category index entry h
    simp [slot?_new] at h
  · intro s space name decl h
    simp [Namespace.group, hspace s space h, slot?_new]
  · intro s space h name
    simp [Namespace.group, hspace s space h]
  · intro s space h name
    simp [hspace s space h]
  · intro s space h
    simp [hspace s space h, Assoc.keys]

/-! ## Coherence and skeletons -/

variable {lib lib' : Library}

lemma slot?_of_skeleton_eq (h : lib'.skeleton = lib.skeleton) {category : Category} {index : Nat}
    {entry' : Entry} (hslot : lib'.slot? category index = some entry') :
    ∃ entry, lib.slot? category index = some entry ∧ entry'.skeleton = entry.skeleton := by
  have heq : (lib.slot? category index).map Entry.skeleton
      = (lib'.slot? category index).map Entry.skeleton := by
    rw [← slot?_skeleton, ← slot?_skeleton, h]
  rw [hslot, Option.map_some] at heq
  obtain ⟨entry, he, hs⟩ := Option.map_eq_some_iff.1 heq
  exact ⟨entry, he, hs.symm⟩

lemma space?_of_skeleton_eq (h : lib'.skeleton = lib.skeleton) {id : SpaceId}
    {space' : Namespace} (hspace : lib'.spaces.get? id = some space') :
    ∃ space, lib.spaces.get? id = some space ∧ space'.skeleton = space.skeleton := by
  have heq : (lib.spaces.get? id).map Namespace.skeleton
      = (lib'.spaces.get? id).map Namespace.skeleton := by
    rw [← Arena.get?_skeleton, ← Arena.get?_skeleton, ← spaces_skeleton, ← spaces_skeleton, h]
  rw [hspace, Option.map_some] at heq
  obtain ⟨space, he, hs⟩ := Option.map_eq_some_iff.1 heq
  exact ⟨space, he, hs.symm⟩

lemma id_of_skeleton_eq (h : lib'.skeleton = lib.skeleton) : lib'.id = lib.id := by
  rw [← id_skeleton, h, id_skeleton]

lemma tableSize_of_skeleton_eq (h : lib'.skeleton = lib.skeleton) (category : Category) :
    lib'.tableSize category = lib.tableSize category := by
  rw [← tableSize_skeleton, h, tableSize_skeleton]

lemma slot?_eq_none_of_skeleton_eq (h : lib'.skeleton = lib.skeleton) (category : Category)
    (index : Nat) : lib'.slot? category index = none ↔ lib.slot? category index = none := by
  rw [← Option.map_eq_none_iff (f := Entry.skeleton), ← slot?_skeleton, h, slot?_skeleton,
    Option.map_eq_none_iff]

lemma pathTo_of_skeleton_eq (h : lib'.skeleton = lib.skeleton) {path : List String}
    {id : SpaceId} (hp : lib'.spaces.PathTo path id) : lib.spaces.PathTo path id := by
  refine hp.mono fun k space' hk => ?_
  obtain ⟨space, hs, he⟩ := space?_of_skeleton_eq h hk
  simp only [Namespace.skeleton, Namespace.mk.injEq] at he
  exact ⟨space, hs, he.2.1.symm, he.2.2.1.symm⟩

/-- Libraries with one skeleton are coherent together. -/
theorem Coherent.of_skeleton_eq (coherent : lib.Coherent) (h : lib'.skeleton = lib.skeleton) :
    lib'.Coherent := by
  -- Every field is about groups, headers or slots being taken, which a skeleton keeps.
  have hgroup {space space' : Namespace} (he : space'.skeleton = space.skeleton) :
      space'.groups = space.groups := by
    simp only [Namespace.skeleton, Namespace.mk.injEq] at he
    exact he.2.2.2.2.1
  have hheader {entry entry' : Entry} (he : entry'.skeleton = entry.skeleton) :
      entry'.id = entry.id ∧ entry'.space = entry.space ∧ entry'.name = entry.name := by
    simp only [Entry.skeleton, Symbol.mk.injEq] at he
    exact ⟨he.2.2.2.2.1, he.2.2.2.1, he.1⟩
  refine ⟨?_, ?_, ?_, ?_, ?_, ?_, ?_, ?_⟩
  · rw [← Arena.isTree_skeleton_iff, ← spaces_skeleton, h, spaces_skeleton,
      Arena.isTree_skeleton_iff]
    exact coherent.tree
  · intro category index entry' hslot
    obtain ⟨entry, he, hs⟩ := slot?_of_skeleton_eq h hslot
    rw [(hheader hs).1, coherent.id_eq he, id_of_skeleton_eq h]
  · intro category index entry' hslot
    obtain ⟨entry, he, -⟩ := slot?_of_skeleton_eq h hslot
    exact coherent.top_level he
  · intro category index entry' hslot
    obtain ⟨entry, he, hs⟩ := slot?_of_skeleton_eq h hslot
    obtain ⟨space, hspace⟩ := coherent.space_live he
    obtain ⟨space', hspace', -⟩ := space?_of_skeleton_eq h.symm hspace
    exact ⟨space', by rw [(hheader hs).2.1]; exact hspace'⟩
  · intro id space' name decl hspace
    obtain ⟨space, hs, he⟩ := space?_of_skeleton_eq h hspace
    rw [Namespace.group, hgroup he, ← Namespace.group, coherent.group_iff hs]
    constructor
    · rintro ⟨entry, hslot, hid, hsp, hn⟩
      obtain ⟨entry', hslot', hsame⟩ := slot?_of_skeleton_eq h.symm hslot
      obtain ⟨h1, h2, h3⟩ := hheader hsame
      exact ⟨entry', hslot', h1.symm.trans hid, h2.symm.trans hsp, h3.symm.trans hn⟩
    · rintro ⟨entry', hslot', hid, hsp, hn⟩
      obtain ⟨entry, hslot, hsame⟩ := slot?_of_skeleton_eq h hslot'
      obtain ⟨h1, h2, h3⟩ := hheader hsame
      exact ⟨entry, hslot, h1.symm.trans hid, h2.symm.trans hsp, h3.symm.trans hn⟩
  · intro id space' hspace name
    obtain ⟨space, hs, he⟩ := space?_of_skeleton_eq h hspace
    rw [Namespace.group, hgroup he]
    exact coherent.group_nodup hs name
  · intro id space' hspace name
    obtain ⟨space, hs, he⟩ := space?_of_skeleton_eq h hspace
    rw [hgroup he]
    exact coherent.group_ne_nil hs name
  · intro id space' hspace
    obtain ⟨space, hs, he⟩ := space?_of_skeleton_eq h hspace
    rw [hgroup he]
    exact coherent.group_keys hs

/-! ## Taking a declaration in -/

end Library

/-- A namespace with one declaration more in the group of a name. -/
def Namespace.declare (space : Namespace) (name : String) (decl : DeclId) : Namespace :=
  { space with groups := space.groups.put name (addNew (space.group name) decl) }

/-- A namespace with one declaration less in the group of a name. -/
def Namespace.undeclare (space : Namespace) (name : String) (decl : DeclId) : Namespace :=
  match space.groups.at? name with
  | none => space
  | some group =>
    let rest := group.filter (· ≠ decl)
    { space with
      groups := if rest.isEmpty then space.groups.without name else space.groups.put name rest }

namespace Namespace

lemma group_declare (space : Namespace) (name other : String) (decl : DeclId) :
    (space.declare name decl).group other
      = if name = other then addNew (space.group name) decl else space.group other := by
  simp only [declare, group, Assoc.at?_put]
  split <;> rfl

lemma at?_declare_ne_nil (space : Namespace) (name other : String) (decl : DeclId)
    (h : space.groups.at? other ≠ some []) :
    (space.declare name decl).groups.at? other ≠ some [] := by
  simp only [declare, Assoc.at?_put]
  split
  · intro hnil
    have hmem : decl ∈ addNew (space.group name) decl := (mem_addNew _ _ _).2 (Or.inr rfl)
    rw [Option.some.inj hnil] at hmem
    simp at hmem
  · exact h

lemma group_undeclare (space : Namespace) (name other : String) (decl : DeclId) :
    (space.undeclare name decl).group other
      = if name = other then (space.group name).filter (· ≠ decl) else space.group other := by
  unfold undeclare
  split
  · next hnone =>
    split
    · next hname =>
      subst hname
      simp [group, hnone]
    · rfl
  · next g hg =>
    simp only [group, hg, Option.getD_some]
    split
    · next hempty =>
      simp only [Assoc.at?_without]
      split
      · simpa using hempty
      · rfl
    · simp only [Assoc.at?_put]
      split <;> rfl

lemma at?_undeclare_ne_nil (space : Namespace) (name other : String) (decl : DeclId)
    (h : space.groups.at? other ≠ some []) :
    (space.undeclare name decl).groups.at? other ≠ some [] := by
  unfold undeclare
  split
  · exact h
  · dsimp only
    split
    · simp only [Assoc.at?_without]
      split <;> simp [h]
    · next hne =>
      simp only [Assoc.at?_put]
      split
      · simpa using hne
      · exact h

lemma frame_declare (space : Namespace) (name : String) (decl : DeclId) :
    (space.declare name decl).frame = space.frame := rfl

lemma nodup_keys_undeclare (space : Namespace) (name : String) (decl : DeclId)
    (h : space.groups.keys.Nodup) : (space.undeclare name decl).groups.keys.Nodup := by
  unfold undeclare
  split
  · exact h
  · dsimp only
    split
    · rw [Assoc.keys_without]
      exact h.filter _
    · exact Assoc.nodup_keys_put h _ _

lemma frame_undeclare (space : Namespace) (name : String) (decl : DeclId) :
    (space.undeclare name decl).frame = space.frame := by
  unfold undeclare
  split <;> rfl

lemma references_undeclare (space : Namespace) (name : String) (decl : DeclId) :
    (space.undeclare name decl).references = space.references := by
  unfold undeclare
  split <;> rfl

lemma documents_undeclare (space : Namespace) (name : String) (decl : DeclId) :
    (space.undeclare name decl).documents = space.documents := by
  unfold undeclare
  split <;> rfl

end Namespace

lemma Arena.declare_eq (arena : Arena) (id : SpaceId) (name : String) (decl : DeclId) :
    arena.declare id name decl = arena.adjust id fun space => space.declare name decl := rfl

lemma Arena.undeclare_eq (arena : Arena) (id : SpaceId) (name : String) (decl : DeclId) :
    arena.undeclare id name decl = arena.adjust id fun space => space.undeclare name decl := by
  unfold undeclare Namespace.undeclare
  rfl

namespace Library

variable {lib lib' : Library}

/-- A library with a declaration put into its slot and into the group of its name. -/
def enlist (lib : Library) (entry : Entry) : Library :=
  { lib with spaces := lib.spaces.declare entry.space entry.name entry.id }

/-- What putting a declaration into an empty slot does: the slot is filled, the table grows by one
if the slot is behind its end, and nothing else changes. -/
structure Admits (lib : Library) (entry : Entry) (after : Library) : Prop where
  id_eq : after.id = lib.id
  name_eq : after.name = lib.name
  spaces_eq : after.spaces = lib.spaces
  slot?_eq : ∀ category index, after.slot? category index =
    if category = entry.id.category ∧ index = entry.id.index then some entry
    else lib.slot? category index
  tableSize_eq : ∀ category, after.tableSize category =
    if category = entry.id.category then max (lib.tableSize category) (entry.id.index + 1)
    else lib.tableSize category

/-- A top-level declaration finds its place in an empty slot and right behind the table. -/
lemma insert_admits (lib : Library) (entry : Entry) (htop : entry.id.category.isMember = false)
    (hle : entry.id.index ≤ lib.tableSize entry.id.category)
    (hempty : lib.slot? entry.id.category entry.id.index = none) :
    ∃ after, lib.insert entry = .ok after ∧ lib.Admits entry after := by
  have hlt : ¬ (lib.table entry.id.category).length < entry.id.index := Nat.not_lt.2 hle
  unfold insert
  simp only [htop, Bool.false_eq_true, if_false, hlt, hempty, Option.isSome_none]
  -- Right behind the table, or else in a hole.
  split
  · next hend =>
    refine ⟨_, rfl, rfl, rfl, rfl, fun category index => ?_, fun category => ?_⟩
    · simp only [slot?, table_setTable]
      by_cases hc : entry.id.category = category
      · subst hc
        simp only [if_true, true_and]
        rcases Nat.lt_trichotomy index entry.id.index with hi | hi | hi
        · have hne : index ≠ entry.id.index := Nat.ne_of_lt hi
          rw [List.getElem?_append_left (by omega), if_neg hne]
        · simp [hi, hend]
        · have hne : index ≠ entry.id.index := Nat.ne_of_gt hi
          rw [List.getElem?_eq_none (by simp; omega), List.getElem?_eq_none (by omega), if_neg hne]
      · simp [hc, Ne.symm hc]
    · simp only [tableSize, table_setTable]
      by_cases hc : entry.id.category = category
      · subst hc
        simp only [if_true, List.length_append, List.length_singleton]
        omega
      · simp [hc, Ne.symm hc]
  · next hend =>
    have hin : entry.id.index < (lib.table entry.id.category).length := by
      unfold tableSize at hle
      omega
    refine ⟨_, rfl, rfl, rfl, rfl, fun category index => ?_, fun category => ?_⟩
    · simp only [slot?, table_setTable]
      by_cases hc : entry.id.category = category
      · subst hc
        simp only [if_true, true_and, List.getElem?_set]
        by_cases hi : entry.id.index = index
        · simp [hi, hi ▸ hin]
        · simp [hi, Ne.symm hi]
      · simp [hc, Ne.symm hc]
    · simp only [tableSize, table_setTable]
      by_cases hc : entry.id.category = category
      · subst hc
        simp only [if_true, List.length_set]
        omega
      · simp [hc, Ne.symm hc]

/-- Where the tables change together with the groups of one namespace, this namespace is the only
one to be looked at again. -/
lemma Coherent.regroup (coherent : lib.Coherent) {home : SpaceId} {f : Namespace → Namespace}
    (hspaces : lib'.spaces = lib.spaces.adjust home f)
    (hframe : ∀ space, (f space).frame = space.frame)
    (hslot : ∀ {category index entry}, lib'.slot? category index = some entry →
      entry.id = ⟨lib'.id, category, index, none⟩ ∧ category.isMember = false ∧
        ∃ space, lib.spaces.get? entry.space = some space)
    (hother : ∀ {category index entry}, entry.space ≠ home →
      (lib'.slot? category index = some entry ↔ lib.slot? category index = some entry))
    (hgroup : ∀ {space name decl}, lib.spaces.get? home = some space →
      (decl ∈ (f space).group name ↔ ∃ entry, lib'.slot? decl.category decl.index = some entry ∧
        entry.id = decl ∧ entry.space = home ∧ entry.name = name))
    (hnodup : ∀ {space}, lib.spaces.get? home = some space → ∀ name, ((f space).group name).Nodup)
    (hne_nil : ∀ {space}, lib.spaces.get? home = some space →
      ∀ name, (f space).groups.at? name ≠ some [])
    (hkeys : ∀ {space}, lib.spaces.get? home = some space → (f space).groups.keys.Nodup) :
    lib'.Coherent := by
  -- Of nodes other than the changed one every field holds as it did before.
  have hcases {k : SpaceId} {space' : Namespace} (h : lib'.spaces.get? k = some space') :
      (home = k ∧ ∃ space, lib.spaces.get? home = some space ∧ f space = space') ∨
        (k ≠ home ∧ lib.spaces.get? k = some space') := by
    rw [hspaces, Arena.get?_adjust] at h
    split at h
    · next hk =>
      subst hk
      exact Or.inl ⟨rfl, Option.map_eq_some_iff.1 h⟩
    · next hk => exact Or.inr ⟨Ne.symm hk, h⟩
  refine ⟨?_, fun h => (hslot h).1, fun h => (hslot h).2.1, ?_, ?_, ?_, ?_, ?_⟩
  · rw [hspaces]
    exact coherent.tree.adjust home hframe
  · intro category index entry h
    obtain ⟨-, -, space, hs⟩ := hslot h
    rw [hspaces, Arena.get?_adjust, hs]
    split <;> exact ⟨_, rfl⟩
  · intro k space' name decl h
    rcases hcases h with ⟨rfl, space, hs, rfl⟩ | ⟨hk, hs⟩
    · exact hgroup hs
    · rw [coherent.group_iff hs]
      refine exists_congr fun entry => ?_
      constructor
      · rintro ⟨he, hid, rfl, hn⟩
        exact ⟨(hother hk).2 he, hid, rfl, hn⟩
      · rintro ⟨he, hid, rfl, hn⟩
        exact ⟨(hother hk).1 he, hid, rfl, hn⟩
  · intro k space' h name
    rcases hcases h with ⟨rfl, space, hs, rfl⟩ | ⟨-, hs⟩
    · exact hnodup hs name
    · exact coherent.group_nodup hs name
  · intro k space' h name
    rcases hcases h with ⟨rfl, space, hs, rfl⟩ | ⟨-, hs⟩
    · exact hne_nil hs name
    · exact coherent.group_ne_nil hs name
  · intro k space' h
    rcases hcases h with ⟨rfl, space, hs, rfl⟩ | ⟨-, hs⟩
    · exact hkeys hs
    · exact coherent.group_keys hs

section

variable {entry : Entry} {after : Library}

lemma Admits.slot?_enlist (admits : lib.Admits entry after) (category : Category) (index : Nat) :
    (after.enlist entry).slot? category index =
      if category = entry.id.category ∧ index = entry.id.index then some entry
      else lib.slot? category index :=
  admits.slot?_eq category index

lemma Admits.tableSize_enlist (admits : lib.Admits entry after) (category : Category) :
    (after.enlist entry).tableSize category =
      if category = entry.id.category then max (lib.tableSize category) (entry.id.index + 1)
      else lib.tableSize category :=
  admits.tableSize_eq category

/-- A declaration of the larger library is the new one or an old one. -/
lemma Admits.slot?_enlist_eq_some_iff (admits : lib.Admits entry after)
    (hempty : lib.slot? entry.id.category entry.id.index = none) {category : Category}
    {index : Nat} {e : Entry} : (after.enlist entry).slot? category index = some e ↔
      (category = entry.id.category ∧ index = entry.id.index ∧ e = entry) ∨
        lib.slot? category index = some e := by
  rw [admits.slot?_enlist]
  split
  · next hat =>
    obtain ⟨rfl, rfl⟩ := hat
    simp [hempty, eq_comm]
  · next hat =>
    rw [or_iff_right]
    exact fun h => hat ⟨h.1, h.2.1⟩

/-- The new declaration joins the group of its name. -/
lemma Coherent.group_enlist (coherent : lib.Coherent) (admits : lib.Admits entry after)
    (hempty : lib.slot? entry.id.category entry.id.index = none) {space : Namespace}
    (hs : lib.spaces.get? entry.space = some space) {name : String} {decl : DeclId} :
    decl ∈ (space.declare entry.name entry.id).group name ↔
      ∃ e, (after.enlist entry).slot? decl.category decl.index = some e ∧
        e.id = decl ∧ e.space = entry.space ∧ e.name = name := by
  have hslot := @Admits.slot?_enlist_eq_some_iff _ _ _ admits hempty
  have hiff : (∃ e, (after.enlist entry).slot? decl.category decl.index = some e ∧
      e.id = decl ∧ e.space = entry.space ∧ e.name = name) ↔
      (decl = entry.id ∧ entry.name = name) ∨ decl ∈ space.group name := by
    rw [coherent.group_iff hs]
    constructor
    · rintro ⟨e, he, hdecl, hk, hn⟩
      rcases hslot.1 he with ⟨-, -, rfl⟩ | he
      · exact Or.inl ⟨hdecl.symm, hn⟩
      · exact Or.inr ⟨e, he, hdecl, hk, hn⟩
    · rintro (⟨rfl, hn⟩ | ⟨e, he, hdecl, hk, hn⟩)
      · exact ⟨entry, hslot.2 (Or.inl ⟨rfl, rfl, rfl⟩), rfl, rfl, hn⟩
      · exact ⟨e, hslot.2 (Or.inr he), hdecl, hk, hn⟩
  rw [hiff, Namespace.group_declare]
  split
  · next hn =>
    subst hn
    simp [mem_addNew, or_comm]
  · next hn => simp [hn]

/-- Taking in a declaration with the identity of its slot, in a live namespace. -/
lemma Coherent.enlist (coherent : lib.Coherent) (admits : lib.Admits entry after)
    (hid : entry.id.library = lib.id) (hdefine : entry.id.define = none)
    (htop : entry.id.category.isMember = false)
    (hempty : lib.slot? entry.id.category entry.id.index = none)
    (hspace : ∃ space, lib.spaces.get? entry.space = some space) :
    (after.enlist entry).Coherent := by
  have hslot := @Admits.slot?_enlist_eq_some_iff _ _ _ admits hempty
  have hspaces : (after.enlist entry).spaces
      = lib.spaces.adjust entry.space fun space => space.declare entry.name entry.id := by
    rw [Library.enlist, Arena.declare_eq, admits.spaces_eq]
  refine coherent.regroup hspaces (fun space => space.frame_declare _ _) ?_ ?_ ?_ ?_ ?_ ?_
  · intro category index e h
    have hlib : (after.enlist entry).id = lib.id := admits.id_eq
    rw [hlib]
    rcases hslot.1 h with ⟨rfl, rfl, rfl⟩ | h
    · exact ⟨by rw [← hid, ← hdefine], htop, hspace⟩
    · exact ⟨coherent.id_eq h, coherent.top_level h, coherent.space_live h⟩
  · intro category index e hne
    rw [hslot, or_iff_right]
    rintro ⟨-, -, rfl⟩
    exact hne rfl
  · exact fun hs => coherent.group_enlist admits hempty hs
  · intro space hs name
    rw [Namespace.group_declare]
    split
    · exact nodup_addNew (coherent.group_nodup hs _) _
    · exact coherent.group_nodup hs name
  · intro space hs name
    exact space.at?_declare_ne_nil _ _ _ (coherent.group_ne_nil hs name)
  · intro space hs
    exact Assoc.nodup_keys_put (coherent.group_keys hs) _ _

end

/-! ## Letting a declaration go -/

lemma slot?_remove (lib : Library) (id : DeclId) (category : Category) (index : Nat) :
    (lib.remove id).slot? category index =
      if category = id.category ∧ index = id.index then none else lib.slot? category index := by
  simp only [slot?, remove, table_setTable]
  by_cases hc : id.category = category
  · subst hc
    simp only [if_true, true_and, List.getElem?_set]
    by_cases hi : id.index = index
    · subst hi
      simp only [if_true]
      split <;> rfl
    · simp [hi, Ne.symm hi]
  · simp [hc, Ne.symm hc]

lemma tableSize_remove (lib : Library) (id : DeclId) (category : Category) :
    (lib.remove id).tableSize category = lib.tableSize category := by
  simp only [tableSize, remove, table_setTable]
  split
  · next hc => simp [hc]
  · rfl

@[simp] lemma spaces_remove (lib : Library) (id : DeclId) : (lib.remove id).spaces = lib.spaces :=
  rfl

lemma slot?_eraseRecord (lib : Library) (id : DeclId) (category : Category) (index : Nat) :
    (lib.eraseRecord id).slot? category index =
      if category = id.category ∧ index = id.index then none else lib.slot? category index := by
  unfold eraseRecord
  split
  · next hnone =>
    split
    · next heq => rw [heq.1, heq.2, hnone]
    · rfl
  · exact lib.slot?_remove id category index

lemma tableSize_eraseRecord (lib : Library) (id : DeclId) (category : Category) :
    (lib.eraseRecord id).tableSize category = lib.tableSize category := by
  unfold eraseRecord
  split
  · rfl
  · exact lib.tableSize_remove id category

@[simp] lemma id_eraseRecord (lib : Library) (id : DeclId) : (lib.eraseRecord id).id = lib.id := by
  unfold eraseRecord
  split <;> rfl

@[simp] lemma name_eraseRecord (lib : Library) (id : DeclId) :
    (lib.eraseRecord id).name = lib.name := by
  unfold eraseRecord
  split <;> rfl

/-- The namespaces after a declaration has gone: only its group has changed. -/
lemma spaces_eraseRecord {id : DeclId} {entry : Entry}
    (h : lib.slot? id.category id.index = some entry) (k : SpaceId) :
    (lib.eraseRecord id).spaces.get? k = if entry.space = k then
      (lib.spaces.get? k).map fun space => space.undeclare entry.name id
      else lib.spaces.get? k := by
  simp only [eraseRecord, h, Arena.undeclare_eq, Arena.get?_adjust]
  rfl

section

variable {entry : Entry}

/-- What stays are the declarations with another identity. -/
lemma Coherent.slot?_eraseRecord_eq_some_iff (coherent : lib.Coherent)
    (hentry : lib.slot? entry.id.category entry.id.index = some entry) {category : Category}
    {index : Nat} {e : Entry} : (lib.eraseRecord entry.id).slot? category index = some e ↔
      lib.slot? category index = some e ∧ e.id ≠ entry.id := by
  rw [slot?_eraseRecord]
  split
  · next hat =>
    obtain ⟨rfl, rfl⟩ := hat
    rw [hentry]
    refine iff_of_false (by simp) ?_
    rintro ⟨he, hne⟩
    exact hne (congrArg Symbol.id (Option.some.inj he).symm)
  · next hat =>
    rw [iff_self_and]
    intro h heq
    rw [← heq, coherent.id_eq h] at hat
    exact hat ⟨rfl, rfl⟩

/-- The declaration leaves the group of its name. -/
lemma Coherent.group_eraseRecord (coherent : lib.Coherent)
    (hentry : lib.slot? entry.id.category entry.id.index = some entry) {space : Namespace}
    (hs : lib.spaces.get? entry.space = some space) {name : String} {decl : DeclId} :
    decl ∈ (space.undeclare entry.name entry.id).group name ↔
      ∃ e, (lib.eraseRecord entry.id).slot? decl.category decl.index = some e ∧
        e.id = decl ∧ e.space = entry.space ∧ e.name = name := by
  have hslot := @Coherent.slot?_eraseRecord_eq_some_iff _ _ coherent hentry
  -- The records that are left in the namespace are the old ones but for the erased one.
  have hiff : (∃ e, (lib.eraseRecord entry.id).slot? decl.category decl.index = some e ∧
      e.id = decl ∧ e.space = entry.space ∧ e.name = name) ↔
      decl ≠ entry.id ∧ decl ∈ space.group name := by
    rw [coherent.group_iff hs]
    constructor
    · rintro ⟨e, he, rfl, hk, hn⟩
      obtain ⟨hold, hne⟩ := hslot.1 he
      exact ⟨hne, e, hold, rfl, hk, hn⟩
    · rintro ⟨hne, e, he, rfl, hk, hn⟩
      exact ⟨e, hslot.2 ⟨he, hne⟩, rfl, hk, hn⟩
  rw [hiff, Namespace.group_undeclare]
  split
  · next hn =>
    subst hn
    simp [and_comm]
  · next hn =>
    rw [iff_and_self]
    -- Under another name the erased record is in no group, for its name says which group it is in.
    rintro hmem rfl
    obtain ⟨e, he, -, -, hname⟩ := (coherent.group_iff hs).1 hmem
    obtain rfl : entry = e := by simpa [hentry] using he
    exact hn hname

lemma Coherent.eraseRecord (coherent : lib.Coherent)
    (hentry : lib.slot? entry.id.category entry.id.index = some entry) :
    (lib.eraseRecord entry.id).Coherent := by
  have hslot := @Coherent.slot?_eraseRecord_eq_some_iff _ _ coherent hentry
  have hspaces : (lib.eraseRecord entry.id).spaces
      = lib.spaces.adjust entry.space fun space => space.undeclare entry.name entry.id := by
    simp [Library.eraseRecord, hentry, Arena.undeclare_eq]
  refine coherent.regroup hspaces (fun space => space.frame_undeclare _ _) ?_ ?_ ?_ ?_ ?_ ?_
  · intro category index e h
    have hold := (hslot.1 h).1
    rw [id_eraseRecord]
    exact ⟨coherent.id_eq hold, coherent.top_level hold, coherent.space_live hold⟩
  · intro category index e hne
    -- A record elsewhere is not the erased one, since a slot has only one record.
    rw [hslot, and_iff_left_iff_imp]
    intro h heq
    have hat : lib.slot? e.id.category e.id.index = some e := by
      rw [coherent.id_eq h]
      exact h
    rw [heq, hentry] at hat
    exact hne (congrArg Symbol.space (Option.some.inj hat).symm)
  · exact fun hs => coherent.group_eraseRecord hentry hs
  · intro space hs name
    rw [Namespace.group_undeclare]
    split
    · exact (coherent.group_nodup hs _).filter _
    · exact coherent.group_nodup hs name
  · intro space hs name
    exact space.at?_undeclare_ne_nil _ _ _ (coherent.group_ne_nil hs name)
  · intro space hs
    exact space.nodup_keys_undeclare _ _ (coherent.group_keys hs)

end

/-! ## Opening and closing namespaces -/

/-- A library with other namespaces. -/
def withSpaces (lib : Library) (spaces : Arena) : Library := { lib with spaces }

@[simp] lemma slot?_withSpaces (lib : Library) (spaces : Arena) (category : Category)
    (index : Nat) : (lib.withSpaces spaces).slot? category index = lib.slot? category index := rfl

/-- Groups and slots keep agreeing as long as the namespaces that hold declarations stay, with
their groups, and new ones hold nothing. -/
lemma Coherent.withSpaces (coherent : lib.Coherent) {spaces : Arena} (tree : spaces.IsTree)
    (hkeep : ∀ id space, lib.spaces.get? id = some space → space.groups ≠ [] →
      ∃ space', spaces.get? id = some space')
    (hback : ∀ id space', spaces.get? id = some space' →
      (∃ space, lib.spaces.get? id = some space ∧ space'.groups = space.groups) ∨
        (lib.spaces.get? id = none ∧ space'.groups = [])) :
    (lib.withSpaces spaces).Coherent := by
  refine ⟨tree, coherent.id_eq, coherent.top_level, ?_, ?_, ?_, ?_, ?_⟩
  · intro category index entry h
    obtain ⟨space, hs⟩ := coherent.space_live h
    -- The namespace of a record stays, because the record is in one of its groups.
    refine hkeep _ _ hs fun hnil => ?_
    have hmem := (@Coherent.group_iff _ coherent _ _ entry.name entry.id hs).2
      ⟨entry, by rw [coherent.id_eq h]; exact h, rfl, rfl, rfl⟩
    simp [Namespace.group, hnil] at hmem
  · intro id space' name decl h
    rcases hback id space' h with ⟨space, hs, hg⟩ | ⟨hnone, hg⟩
    · rw [Namespace.group, hg]
      exact coherent.group_iff hs
    · simp only [Namespace.group, hg, Assoc.at?_nil, Option.getD_none, List.not_mem_nil,
        slot?_withSpaces, false_iff]
      rintro ⟨entry, he, -, rfl, -⟩
      obtain ⟨space, hs⟩ := coherent.space_live he
      simp [hnone] at hs
  · intro id space' h name
    rcases hback id space' h with ⟨space, hs, hg⟩ | ⟨-, hg⟩
    · rw [Namespace.group, hg]
      exact coherent.group_nodup hs name
    · simp [Namespace.group, hg]
  · intro id space' h name
    rcases hback id space' h with ⟨space, hs, hg⟩ | ⟨-, hg⟩
    · rw [hg]
      exact coherent.group_ne_nil hs name
    · simp [hg]
  · intro id space' h
    rcases hback id space' h with ⟨space, hs, hg⟩ | ⟨-, hg⟩
    · rw [hg]
      exact coherent.group_keys hs
    · rw [hg]
      exact List.nodup_nil

/-- A namespace without groups holds no declaration, and one without declarations no group. -/
lemma Coherent.groups_eq_nil_iff (coherent : lib.Coherent) {id : SpaceId} {space : Namespace}
    (h : lib.spaces.get? id = some space) :
    space.groups = [] ↔ ∀ category index entry, lib.slot? category index = some entry →
      entry.space ≠ id := by
  constructor
  · rintro hnil category index entry hslot rfl
    have hmem := (@Coherent.group_iff _ coherent _ _ entry.name entry.id h).2
      ⟨entry, by rw [coherent.id_eq hslot]; exact hslot, rfl, rfl, rfl⟩
    simp [Namespace.group, hnil] at hmem
  · intro hnone
    by_contra hne
    obtain ⟨⟨name, group⟩, rest, hcons⟩ := List.exists_cons_of_ne_nil hne
    have hat : space.groups.at? name = some group := by simp [hcons]
    have hgroup : group ≠ [] := fun hg => coherent.group_ne_nil h name (hg ▸ hat)
    obtain ⟨decl, hdecl⟩ := List.exists_mem_of_ne_nil _ hgroup
    have hmem : decl ∈ space.group name := by simpa [Namespace.group, hat] using hdecl
    obtain ⟨entry, hslot, -, hspace, -⟩ := (coherent.group_iff h).1 hmem
    exact hnone _ _ _ hslot hspace

end Library

end SymbolGraph
