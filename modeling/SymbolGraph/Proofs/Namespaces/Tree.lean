import Mathlib.Data.List.Basic
import SymbolGraph.Proofs.Model.Skeletons

/-!
# The namespaces of a library form a tree

An arena keeps its tree twice, as parent links and as maps of children, keeps the slot of
a namespace in the namespace too, and hands freed slots out again.  `Arena.IsTree` says that these
agree, that the slots to use again are the empty ones, and that every namespace is reached from the
root.  The place of a namespace is the list of names from the root to it (`Arena.PathTo`); in a tree
a namespace has one place and a place one namespace, so two arenas that hold the same places can be
compared whatever slots they use.

`openChild` and `remove` change the tree and have one lemma each that says what they do to every
slot; all other operations keep identities, parents, names and children (`Namespace.frame`), and
with them the tree.
-/

namespace SymbolGraph

/-- The part of a namespace that the tree is made of. -/
def Namespace.frame (space : Namespace) : Namespace :=
  ⟨space.id, space.parent, space.name, space.children, [], [], []⟩

namespace Arena

/-- `arena.PathTo path id`: the names from the root down to the namespace `id` are `path`. -/
inductive PathTo (arena : Arena) : List String → SpaceId → Prop
  | root {space : Namespace} : arena.get? root = some space → PathTo arena [] root
  | child {path : List String} {parent id : SpaceId} {space : Namespace} :
      PathTo arena path parent → arena.get? id = some space → space.parent = some parent →
      PathTo arena (path ++ [space.name]) id

/-- Identities, parents, children and free slots of an arena fit together. -/
structure IsTree (arena : Arena) : Prop where
  id_eq : ∀ {id space}, arena.get? id = some space → space.id = id
  root_live : ∃ space, arena.get? root = some space ∧ space.parent = none
  parent_live : ∀ {id space}, arena.get? id = some space → id ≠ root →
    ∃ parent above, space.parent = some parent ∧ arena.get? parent = some above
  child_iff : ∀ {parent above name id}, arena.get? parent = some above →
    (above.children.at? name = some id ↔
      ∃ space, arena.get? id = some space ∧ space.parent = some parent ∧ space.name = name)
  located : ∀ {id space}, arena.get? id = some space → ∃ path, arena.PathTo path id
  free_iff : ∀ {id}, id ∈ arena.free ↔ id < arena.slots.length ∧ arena.get? id = none
  free_nodup : arena.free.Nodup

lemma lt_length_of_get? {arena : Arena} {id : SpaceId} {space : Namespace}
    (h : arena.get? id = some space) : id < arena.slots.length := by
  by_contra hlen
  simp [get?, List.getElem?_eq_none (Nat.le_of_not_lt hlen)] at h

lemma at?_children {arena : Arena} {id : SpaceId} {space : Namespace}
    (h : arena.get? id = some space) (name : String) :
    space.children.at? name = arena.child? id name := by
  rw [child?, h, Option.bind_some]

lemma isTree_new (name : String) : (new name).IsTree := by
  have hget (id : SpaceId) (space : Namespace) (h : (new name).get? id = some space) :
      id = root ∧ space = ⟨root, none, name, [], [], [], []⟩ := by
    have hlt := lt_length_of_get? h
    obtain rfl : id = 0 := by simpa [new] using hlt
    exact ⟨rfl, by simpa [new, get?] using h.symm⟩
  refine ⟨?_, ⟨_, get?_new_root name, rfl⟩, ?_, ?_, ?_, ?_, by simp [new]⟩
  · intro id space h
    obtain ⟨rfl, rfl⟩ := hget id space h
    rfl
  · intro id space h hne
    exact absurd (hget id space h).1 hne
  · intro parent above child id h
    obtain ⟨rfl, rfl⟩ := hget parent above h
    simp only [Assoc.at?_nil, reduceCtorEq, false_iff]
    rintro ⟨space, hs, hp, -⟩
    simp [(hget id space hs).2] at hp
  · intro id space h
    obtain ⟨rfl, rfl⟩ := hget id space h
    exact ⟨[], .root (get?_new_root name)⟩
  · intro id
    simp only [new, List.not_mem_nil, false_iff, not_and]
    intro hlt
    obtain rfl : id = 0 := by simpa using hlt
    simp [get?]

/-! ## Places -/

variable {arena : Arena}

lemma PathTo.live {path : List String} {id : SpaceId} (h : arena.PathTo path id) :
    ∃ space, arena.get? id = some space := by
  cases h with
  | root h => exact ⟨_, h⟩
  | child _ h _ => exact ⟨_, h⟩

/-- A namespace has one place. -/
lemma PathTo.path_unique (tree : arena.IsTree) {p q : List String} {id : SpaceId}
    (hp : arena.PathTo p id) (hq : arena.PathTo q id) : p = q := by
  obtain ⟨rootSpace, hroot, hnone⟩ := tree.root_live
  induction hp generalizing q with
  | root h =>
    cases hq with
    | root _ => rfl
    | child _ h' hparent =>
      rw [hroot, Option.some.injEq] at h'
      subst h'
      simp [hnone] at hparent
  | @child path parent id space _ h hparent ih =>
    cases hq with
    | root h' =>
      rw [h, Option.some.injEq] at hroot
      subst hroot
      simp [hnone] at hparent
    | @child path' parent' _ space' hq h' hparent' =>
      obtain rfl : space = space' := by simpa [h] using h'
      obtain rfl : parent = parent' := by simpa [hparent] using hparent'
      rw [ih hq]

/-- A place belongs to one namespace. -/
lemma PathTo.id_unique (tree : arena.IsTree) {p : List String} {i j : SpaceId}
    (hi : arena.PathTo p i) (hj : arena.PathTo p j) : i = j := by
  induction hi generalizing j with
  | root h =>
    generalize hp : ([] : List String) = p at hj
    cases hj with
    | root _ => rfl
    | child _ _ _ => simp at hp
  | @child path parent id space hpath h hparent ih =>
    generalize hp : path ++ [space.name] = p at hj
    cases hj with
    | root _ => simp at hp
    | @child path' parent' _ space' hpath' h' hparent' =>
      obtain ⟨rfl, hname⟩ : path = path' ∧ space.name = space'.name := by
        simpa using List.append_inj' hp rfl
      obtain rfl := ih hpath'
      obtain ⟨above, habove⟩ := hpath.live
      have hi := (tree.child_iff habove).2 ⟨space, h, hparent, rfl⟩
      have hj := (tree.child_iff habove).2 ⟨space', h', hparent', hname.symm⟩
      rw [hi] at hj
      exact Option.some.inj hj

/-- Only the root has the empty place. -/
lemma PathTo.eq_root {id : SpaceId} (h : arena.PathTo [] id) : id = Arena.root := by
  generalize hp : ([] : List String) = p at h
  cases h with
  | root _ => rfl
  | child _ _ _ => simp at hp

/-- The child of a namespace, by its place. -/
lemma PathTo.child? (tree : arena.IsTree) {p : List String} {parent id : SpaceId} {name : String}
    (h : arena.PathTo p parent) (hc : arena.child? parent name = some id) :
    arena.PathTo (p ++ [name]) id := by
  obtain ⟨above, habove⟩ := h.live
  simp only [Arena.child?, habove, Option.bind_some] at hc
  obtain ⟨space, hspace, hparent, rfl⟩ := (tree.child_iff habove).1 hc
  exact .child h hspace hparent

/-- A place with one more name is that of a child. -/
lemma PathTo.child?_of_snoc (tree : arena.IsTree) {p : List String} {parent id : SpaceId}
    {name : String} (h : arena.PathTo p parent) (hc : arena.PathTo (p ++ [name]) id) :
    arena.child? parent name = some id := by
  generalize hq : p ++ [name] = q at hc
  cases hc with
  | root _ => simp at hq
  | @child path' parent' _ space hpath' hspace hparent =>
    obtain ⟨rfl, rfl⟩ : p = path' ∧ name = space.name := by
      simpa using List.append_inj' hq rfl
    obtain rfl := h.id_unique tree hpath'
    obtain ⟨above, habove⟩ := h.live
    simp only [Arena.child?, habove, Option.bind_some]
    exact (tree.child_iff habove).2 ⟨space, hspace, hparent, rfl⟩

/-- Places stay when the namespaces on the way keep parent and name. -/
lemma PathTo.mono {arena' : Arena}
    (keep : ∀ id space, arena.get? id = some space → ∃ space', arena'.get? id = some space' ∧
      space'.parent = space.parent ∧ space'.name = space.name)
    {path : List String} {id : SpaceId} (h : arena.PathTo path id) : arena'.PathTo path id := by
  induction h with
  | root h =>
    obtain ⟨space', h', -⟩ := keep _ _ h
    exact .root h'
  | child _ h hparent ih =>
    obtain ⟨space', h', hparent', hname⟩ := keep _ _ h
    rw [← hname]
    exact .child ih h' (hparent'.trans hparent)

/-! ## Operations that keep the tree -/

/-- The tree is a matter of frames, free slots and their number. -/
lemma IsTree.congr {arena' : Arena} (tree : arena.IsTree)
    (hframe : ∀ id, (arena'.get? id).map Namespace.frame = (arena.get? id).map Namespace.frame)
    (hlength : arena'.slots.length = arena.slots.length) (hfree : arena'.free = arena.free) :
    arena'.IsTree := by
  -- Every clause speaks of frames, so nodes are carried over in either direction.
  have forth (id : SpaceId) (space : Namespace) (h : arena.get? id = some space) :
      ∃ space', arena'.get? id = some space' ∧ space'.frame = space.frame := by
    have := hframe id
    rw [h] at this
    simpa using this
  have back (id : SpaceId) (space' : Namespace) (h : arena'.get? id = some space') :
      ∃ space, arena.get? id = some space ∧ space'.frame = space.frame := by
    have := hframe id
    rw [h] at this
    obtain ⟨space, hs, he⟩ := Option.map_eq_some_iff.1 this.symm
    exact ⟨space, hs, he.symm⟩
  have hnone (id : SpaceId) : arena'.get? id = none ↔ arena.get? id = none := by
    rw [← Option.map_eq_none_iff (f := Namespace.frame), hframe, Option.map_eq_none_iff]
  simp only [Namespace.frame, Namespace.mk.injEq, and_true] at forth back
  refine ⟨?_, ?_, ?_, ?_, ?_, ?_, hfree ▸ tree.free_nodup⟩
  · intro id space' h
    obtain ⟨space, hs, hid, -⟩ := back _ _ h
    exact hid.trans (tree.id_eq hs)
  · obtain ⟨space, h, hp⟩ := tree.root_live
    obtain ⟨space', h', -, hp', -⟩ := forth _ _ h
    exact ⟨space', h', hp'.trans hp⟩
  · intro id space' h hne
    obtain ⟨space, hs, -, hp, -⟩ := back _ _ h
    obtain ⟨parent, above, hparent, habove⟩ := tree.parent_live hs hne
    obtain ⟨above', habove', -⟩ := forth _ _ habove
    exact ⟨parent, above', hp.trans hparent, habove'⟩
  · intro parent above' name id h
    obtain ⟨above, habove, -, -, -, hchildren⟩ := back _ _ h
    rw [hchildren, tree.child_iff habove]
    constructor
    · rintro ⟨space, hs, hp, hn⟩
      obtain ⟨space', hs', -, hp', hn', -⟩ := forth _ _ hs
      exact ⟨space', hs', hp'.trans hp, hn'.trans hn⟩
    · rintro ⟨space', hs', hp', hn'⟩
      obtain ⟨space, hs, -, hp, hn, -⟩ := back _ _ hs'
      exact ⟨space, hs, hp.symm.trans hp', hn.symm.trans hn'⟩
  · intro id space' h
    obtain ⟨space, hs, -⟩ := back _ _ h
    obtain ⟨path, hpath⟩ := tree.located hs
    refine ⟨path, hpath.mono fun id space h => ?_⟩
    obtain ⟨space', hs', -, hp, hn, -⟩ := forth _ _ h
    exact ⟨space', hs', hp, hn⟩
  · intro id
    rw [hfree, hlength, hnone]
    exact tree.free_iff

lemma IsTree.adjust (tree : arena.IsTree) (id : SpaceId) {f : Namespace → Namespace}
    (hf : ∀ space, (f space).frame = space.frame) : (arena.adjust id f).IsTree := by
  refine tree.congr (fun id' => ?_) (by simp [Arena.adjust]) rfl
  rw [get?_adjust]
  split
  · cases arena.get? id' with
    | none => rfl
    | some space => simp [hf]
  · rfl

lemma isTree_skeleton_iff : arena.skeleton.IsTree ↔ arena.IsTree := by
  have hframe (id : SpaceId) :
      (arena.skeleton.get? id).map Namespace.frame = (arena.get? id).map Namespace.frame := by
    rw [get?_skeleton, Option.map_map]
    rfl
  constructor
  · intro tree
    exact tree.congr (fun id => (hframe id).symm) (by simp) rfl
  · intro tree
    exact tree.congr hframe (by simp) rfl

/-! ## Making a child -/

lemma get?_store (arena : Arena) (id k : SpaceId) (space : Namespace)
    (h : id ≤ arena.slots.length) :
    (arena.store id space).get? k = if k = id then some space else arena.get? k := by
  unfold store
  split
  · next hlt =>
    simp only [get?, List.getElem?_set]
    by_cases hk : k = id
    · subst hk
      simp [hlt]
    · simp [hk, Ne.symm hk]
  · next hge =>
    obtain rfl : id = arena.slots.length := Nat.le_antisymm h (Nat.le_of_not_lt hge)
    simp only [get?]
    rcases Nat.lt_trichotomy k arena.slots.length with hk | hk | hk
    · simp [List.getElem?_append_left hk, Nat.ne_of_lt hk]
    · simp [hk]
    · have hout : (arena.slots ++ [some space])[k]? = none :=
        List.getElem?_eq_none (by simp; omega)
      simp [hout, List.getElem?_eq_none (Nat.le_of_lt hk), Nat.ne_of_gt hk]

lemma IsTree.parent_root (tree : arena.IsTree) {space : Namespace}
    (h : arena.get? root = some space) : space.parent = none := by
  obtain ⟨r, hr, hnone⟩ := tree.root_live
  obtain rfl : space = r := by simpa [h] using hr
  exact hnone

lemma IsTree.ne_root_of_parent (tree : arena.IsTree) {id parent : SpaceId} {space : Namespace}
    (h : arena.get? id = some space) (hparent : space.parent = some parent) : id ≠ root := by
  rintro rfl
  simp [tree.parent_root h] at hparent

/-- What a namespace has for its parent is a namespace. -/
lemma IsTree.live_of_parent (tree : arena.IsTree) {id parent : SpaceId} {space : Namespace}
    (h : arena.get? id = some space) (hparent : space.parent = some parent) :
    ∃ above, arena.get? parent = some above := by
  obtain ⟨up, above, hup, habove⟩ := tree.parent_live h (tree.ne_root_of_parent h hparent)
  obtain rfl : parent = up := by simpa [hparent] using hup
  exact ⟨above, habove⟩

/-- `arena.Adds parent name id after`: `after` has a new vacant child `id` of `parent`, in a slot
that was empty, and is otherwise the same. -/
structure Adds (arena : Arena) (parent : SpaceId) (name : String) (id : SpaceId)
    (after : Arena) : Prop where
  empty : arena.get? id = none
  get?_eq : ∀ k, after.get? k =
    if k = id then some ⟨id, some parent, name, [], [], [], []⟩
    else if k = parent then
      (arena.get? k).map fun space => { space with children := space.children.put name id }
    else arena.get? k
  lt_length : ∀ k, k < after.slots.length ↔ k < arena.slots.length ∨ k = id
  mem_free : ∀ k, k ∈ after.free ↔ k ∈ arena.free ∧ k ≠ id
  free_nodup : after.free.Nodup

/-- An empty slot comes from the free list, or is the one behind the last. -/
lemma IsTree.exists_empty (tree : arena.IsTree) : ∃ id rest,
    (arena.free = [] ∧ id = arena.slots.length ∧ rest = [] ∨ arena.free = id :: rest) ∧
    arena.get? id = none ∧ id ≤ arena.slots.length ∧
    (id < arena.slots.length ∨ id = arena.slots.length) ∧
    (∀ k, k ∈ rest ↔ k ∈ arena.free ∧ k ≠ id) ∧ rest.Nodup := by
  cases hf : arena.free with
  | nil =>
    refine ⟨_, _, .inl ⟨rfl, rfl, rfl⟩, ?_, Nat.le_refl _, Or.inr rfl, by simp, by simp⟩
    simp [get?]
  | cons id rest =>
    have hid := tree.free_iff.1 (show id ∈ arena.free by simp [hf])
    have hnd := hf ▸ tree.free_nodup
    obtain ⟨hnotin, hrest⟩ := List.nodup_cons.1 hnd
    refine ⟨id, rest, .inr rfl, hid.2, Nat.le_of_lt hid.1, Or.inl hid.1, fun k => ?_, hrest⟩
    constructor
    · intro hk
      exact ⟨List.mem_cons_of_mem _ hk, fun h => hnotin (h ▸ hk)⟩
    · rintro ⟨hk, hne⟩
      exact (List.mem_cons.1 hk).resolve_left hne

/-- Opening a child that does not exist adds it. -/
theorem IsTree.openChild_adds (tree : arena.IsTree) {parent : SpaceId} {above : Namespace}
    (hparent : arena.get? parent = some above) {name : String}
    (hnone : arena.child? parent name = none) :
    arena.Adds parent name (arena.openChild parent name).1 (arena.openChild parent name).2 := by
  obtain ⟨id, rest, heq, hempty, hlen, hlt, hfree, hnodup⟩ := tree.exists_empty
  have hne : parent ≠ id := by
    rintro rfl
    simp [hempty] at hparent
  have hopen : arena.openChild parent name = (id,
      (Arena.store { arena with free := rest } id ⟨id, some parent, name, [], [], [], []⟩).adjust
        parent fun space => { space with children := space.children.put name id }) := by
    simp only [openChild, hnone]
    rcases heq with ⟨hf, rfl, rfl⟩ | hf
    · rw [hf]
    · rw [hf]
  rw [hopen]
  refine ⟨hempty, fun k => ?_, fun k => ?_, ?_, ?_⟩
  · have hstore := get?_store { arena with free := rest } id k
      ⟨id, some parent, name, [], [], [], []⟩ hlen
    rw [get?_adjust, hstore]
    by_cases hk : k = id
    · subst hk
      simp [hne]
    · by_cases hkp : parent = k
      · subst hkp
        simp [hk, Arena.get?]
      · simp [hk, hkp, Ne.symm hkp, Arena.get?]
  · simp only [Arena.adjust, List.length_modify, store]
    split
    · simp only [List.length_set]
      exact ⟨Or.inl, fun h => h.elim (fun h => h) fun h => h ▸ ‹_›⟩
    · next hge =>
      have hlast : id = arena.slots.length := hlt.resolve_left hge
      simp only [List.length_append, List.length_singleton, hlast]
      omega
  · simp only [Arena.adjust, store]
    split <;> exact hfree
  · simp only [Arena.adjust, store]
    split <;> exact hnodup

lemma Adds.get?_self {parent id : SpaceId} {name : String} {after : Arena}
    (h : arena.Adds parent name id after) :
    after.get? id = some ⟨id, some parent, name, [], [], [], []⟩ := by
  simp [h.get?_eq]

/-- A namespace that was there stays, with a child more at most. -/
lemma Adds.get?_of_live {parent id : SpaceId} {name : String} {after : Arena}
    (h : arena.Adds parent name id after) {k : SpaceId} {space : Namespace}
    (hk : arena.get? k = some space) :
    after.get? k = some (if k = parent then
      { space with children := space.children.put name id } else space) := by
  have hne : k ≠ id := by
    rintro rfl
    simp [h.empty] at hk
  rw [h.get?_eq, if_neg hne, hk]
  split <;> rfl

/-- The namespaces of the larger arena are the new one and the old ones. -/
lemma Adds.live_cases {parent id : SpaceId} {name : String} {after : Arena}
    (h : arena.Adds parent name id after) {k : SpaceId} {space' : Namespace}
    (hk : after.get? k = some space') :
    (k = id ∧ space' = ⟨id, some parent, name, [], [], [], []⟩) ∨
      ∃ space, arena.get? k = some space ∧ space' = if k = parent then
        { space with children := space.children.put name id } else space := by
  by_cases hid : k = id
  · subst hid
    exact Or.inl ⟨rfl, by simpa [h.get?_self] using hk.symm⟩
  · cases hs : arena.get? k with
    | none =>
      rw [h.get?_eq, if_neg hid, hs] at hk
      split at hk <;> simp at hk
    | some space =>
      rw [h.get?_of_live hs] at hk
      exact Or.inr ⟨space, rfl, (Option.some.inj hk).symm⟩

lemma Adds.pathTo {parent id : SpaceId} {name : String} {after : Arena}
    (h : arena.Adds parent name id after) {path : List String} {k : SpaceId}
    (hk : arena.PathTo path k) : after.PathTo path k := by
  refine hk.mono fun k space hs => ⟨_, h.get?_of_live hs, ?_, ?_⟩ <;> split <;> rfl

/-- The children of the larger arena are the new namespace and the old ones. -/
lemma Adds.exists_child_iff {parent id : SpaceId} {name : String} {after : Arena}
    (h : arena.Adds parent name id after) {k c : SpaceId} {childName : String} :
    (∃ child, after.get? c = some child ∧ child.parent = some k ∧ child.name = childName) ↔
      (c = id ∧ parent = k ∧ name = childName) ∨
        ∃ child, arena.get? c = some child ∧ child.parent = some k ∧ child.name = childName := by
  constructor
  · rintro ⟨child, hchild, hup, hname⟩
    rcases h.live_cases hchild with ⟨rfl, rfl⟩ | ⟨old, hold, rfl⟩
    · exact Or.inl ⟨rfl, Option.some.inj hup, hname⟩
    · exact Or.inr ⟨old, hold, by split at hup <;> exact hup, by split at hname <;> exact hname⟩
  · rintro (⟨rfl, rfl, rfl⟩ | ⟨child, hchild, hup, hname⟩)
    · exact ⟨_, h.get?_self, rfl, rfl⟩
    · refine ⟨_, h.get?_of_live hchild, ?_, ?_⟩ <;> split <;> assumption

/-- Every namespace lists its children, the new one among those of its parent. -/
lemma Adds.child_iff (tree : arena.IsTree) {parent id : SpaceId} {above : Namespace}
    (hparent : arena.get? parent = some above) {name : String}
    (hnone : arena.child? parent name = none) {after : Arena}
    (h : arena.Adds parent name id after) {k c : SpaceId} {above' : Namespace} {childName : String}
    (hk : after.get? k = some above') : above'.children.at? childName = some c ↔
      ∃ child, after.get? c = some child ∧ child.parent = some k ∧ child.name = childName := by
  have hnew : above.children.at? name = none := (at?_children hparent name).trans hnone
  rw [h.exists_child_iff]
  rcases h.live_cases hk with ⟨rfl, rfl⟩ | ⟨space, hs, rfl⟩
  · -- The new namespace has no children, and nobody has it for a parent.
    simp only [Assoc.at?_nil, reduceCtorEq, false_iff, not_or]
    constructor
    · rintro ⟨-, rfl, -⟩
      simp [h.empty] at hparent
    · rintro ⟨child, hchild, hup, -⟩
      obtain ⟨upper, hupper⟩ := tree.live_of_parent hchild hup
      simp [h.empty] at hupper
  · rw [← tree.child_iff hs]
    by_cases hkp : k = parent
    · subst hkp
      obtain rfl : above = space := by simpa [hparent] using hs
      simp only [if_true, Assoc.at?_put]
      by_cases hn : name = childName
      · subst hn
        simp [hnew, eq_comm]
      · simp [hn]
    · simp [hkp, Ne.symm hkp]

theorem Adds.isTree (tree : arena.IsTree) {parent id : SpaceId} {above : Namespace}
    (hparent : arena.get? parent = some above) {name : String}
    (hnone : arena.child? parent name = none) {after : Arena}
    (h : arena.Adds parent name id after) : after.IsTree := by
  have hidroot : id ≠ root := by
    rintro rfl
    obtain ⟨space, hs, -⟩ := tree.root_live
    simp [h.empty] at hs
  refine ⟨?_, ?_, ?_, ?_, ?_, ?_, h.free_nodup⟩
  · intro k space' hk
    -- A live node is the fresh one, or one of before, and then at most its children have changed.
    rcases h.live_cases hk with ⟨rfl, rfl⟩ | ⟨space, hs, rfl⟩
    · rfl
    · have hid := tree.id_eq hs
      split <;> exact hid
  · obtain ⟨space, hs, hp⟩ := tree.root_live
    refine ⟨_, h.get?_of_live hs, ?_⟩
    split <;> exact hp
  · intro k space' hk hne
    rcases h.live_cases hk with ⟨rfl, rfl⟩ | ⟨space, hs, rfl⟩
    · exact ⟨parent, _, rfl, h.get?_of_live hparent⟩
    · obtain ⟨up, upper, hup, hupper⟩ := tree.parent_live hs hne
      refine ⟨up, _, ?_, h.get?_of_live hupper⟩
      split <;> exact hup
  · exact fun hk => Adds.child_iff tree hparent hnone h hk
  · intro k space' hk
    rcases h.live_cases hk with ⟨rfl, rfl⟩ | ⟨space, hs, -⟩
    · obtain ⟨path, hpath⟩ := tree.located hparent
      exact ⟨_, .child (h.pathTo hpath) h.get?_self rfl⟩
    · obtain ⟨path, hpath⟩ := tree.located hs
      exact ⟨path, h.pathTo hpath⟩
  · intro k
    rw [h.mem_free, tree.free_iff, h.lt_length, h.get?_eq]
    by_cases hk : k = id
    · simp [hk]
    · simp only [hk, if_false, or_false, ne_eq, not_false_eq_true, and_true]
      split <;> simp

/-! ## Removing a namespace -/

/-- A live namespace is listed under its slot. -/
lemma mem_live_iff {id : SpaceId} {space : Namespace} :
    (id, space) ∈ arena.live ↔ arena.get? id = some space := by
  simp only [live, List.mem_filterMap, Prod.exists, List.mem_zipIdx_iff_getElem?, get?,
    Option.map_eq_some_iff, Prod.mk.injEq]
  constructor
  · rintro ⟨slot, i, hslot, space', rfl, rfl, rfl⟩
    simp [hslot]
  · intro h
    cases hslot : arena.slots[id]? with
    | none => simp [hslot] at h
    | some slot =>
      refine ⟨slot, id, hslot, space, ?_, rfl, rfl⟩
      simpa [hslot] using h

lemma mem_map_fst_live_iff {id : SpaceId} :
    id ∈ arena.live.map Prod.fst ↔ ∃ space, arena.get? id = some space := by
  simp [mem_live_iff]

lemma nodup_map_fst_live (arena : Arena) : (arena.live.map Prod.fst).Nodup := by
  have hsub : (arena.live.map Prod.fst).Sublist (arena.slots.zipIdx.map Prod.snd) := by
    simp only [live]
    induction arena.slots.zipIdx with
    | nil => simp
    | cons entry rest ih =>
      obtain ⟨slot, id⟩ := entry
      cases slot with
      | none => simpa using ih.cons id
      | some space => simpa using ih.cons_cons id
  refine List.Nodup.sublist hsub ?_
  rw [List.zipIdx_map_snd]
  exact List.nodup_range' ..

lemma get?_remove {id : SpaceId} {space : Namespace} (h : arena.get? id = some space)
    (k : SpaceId) : (arena.remove id).get? k =
      if k = id then none
      else if space.parent = some k then
        (arena.get? k).map fun above => { above with children := above.children.without space.name }
      else arena.get? k := by
  have hlt := lt_length_of_get? h
  simp only [remove, h]
  -- Nothing hangs above the root, so removing it changes no other node.
  cases hp : space.parent with
  | none =>
    by_cases hk : k = id
    · subst hk
      simp [get?, hlt]
    · simp [get?, Ne.symm hk, hk]
  | some parent =>
    by_cases hk : k = id
    · subst hk
      simp [get?, Arena.adjust, hlt]
    · have hset : (Arena.mk ((arena.adjust parent fun above =>
            { above with children := above.children.without space.name }).slots.set id none)
          (id :: (arena.adjust parent fun above =>
            { above with children := above.children.without space.name }).free)).get? k
          = (arena.adjust parent fun above =>
            { above with children := above.children.without space.name }).get? k := by
        simp [get?, Ne.symm hk]
      rw [hset, get?_adjust, if_neg hk]
      simp [eq_comm]

/-- Nothing of a namespace changes but the entry for the removed child. -/
lemma get?_remove_of_ne {id k : SpaceId} {space above : Namespace}
    (h : arena.get? id = some space) (hne : k ≠ id) (hk : arena.get? k = some above) :
    (arena.remove id).get? k = some (if space.parent = some k then
      { above with children := above.children.without space.name } else above) := by
  rw [get?_remove h, if_neg hne, hk]
  split <;> rfl

lemma live_of_remove {id k : SpaceId} {space above' : Namespace}
    (h : arena.get? id = some space) (hk : (arena.remove id).get? k = some above') :
    k ≠ id ∧ ∃ above, arena.get? k = some above ∧ above' = if space.parent = some k then
      { above with children := above.children.without space.name } else above := by
  have hne : k ≠ id := by
    rintro rfl
    simp [get?_remove h] at hk
  cases ha : arena.get? k with
  | none =>
    rw [get?_remove h, if_neg hne, ha] at hk
    split at hk <;> simp at hk
  | some above =>
    rw [get?_remove_of_ne h hne ha] at hk
    exact ⟨hne, above, rfl, (Option.some.inj hk).symm⟩

/-- No namespace has `id` for its parent. -/
def IsLeaf (arena : Arena) (id : SpaceId) : Prop :=
  ∀ k space, arena.get? k = some space → space.parent ≠ some id

lemma IsTree.children_eq_nil (tree : arena.IsTree) {id : SpaceId} {space : Namespace}
    (h : arena.get? id = some space) (leaf : arena.IsLeaf id) : space.children = [] := by
  by_contra hne
  obtain ⟨⟨name, c⟩, more, hcons⟩ := List.exists_cons_of_ne_nil hne
  have hat : space.children.at? name = some c := by simp [hcons]
  obtain ⟨child, hchild, hparent, -⟩ := (tree.child_iff h).1 hat
  exact leaf c child hchild hparent

lemma IsLeaf.dropDocument {id : SpaceId} (leaf : arena.IsLeaf id) (document : String) :
    (arena.dropDocument id document).IsLeaf id := by
  intro k child' hk
  simp only [Arena.dropDocument, get?_adjust] at hk
  split at hk
  · obtain ⟨child, hchild, rfl⟩ := Option.map_eq_some_iff.1 hk
    exact leaf k child hchild
  · exact leaf k child' hk

/-- The places of the other namespaces stay when a leaf is removed. -/
theorem PathTo.remove {id : SpaceId} {space : Namespace} (h : arena.get? id = some space)
    (leaf : arena.IsLeaf id) {path : List String} {k : SpaceId} (hk : arena.PathTo path k)
    (hne : k ≠ id) : (arena.remove id).PathTo path k := by
  induction hk with
  | root hroot => exact .root (get?_remove_of_ne h hne hroot)
  | @child path parent k above hpath habove hparent ih =>
    have hparent_ne : parent ≠ id := fun he => leaf k above habove (he ▸ hparent)
    have hstep := PathTo.child (ih hparent_ne) (get?_remove_of_ne h hne habove)
      (by split <;> exact hparent)
    have hname : (if space.parent = some k then
        { above with children := above.children.without space.name } else above).name
          = above.name := by
      split <;> rfl
    rwa [hname] at hstep

/-- The children of a namespace are the same ones without the removed leaf. -/
lemma exists_child_remove_iff {id : SpaceId} {space : Namespace}
    (h : arena.get? id = some space) {k c : SpaceId} {name : String} :
    (∃ child, (arena.remove id).get? c = some child ∧ child.parent = some k ∧
        child.name = name) ↔
      c ≠ id ∧ ∃ child, arena.get? c = some child ∧ child.parent = some k ∧
        child.name = name := by
  constructor
  · rintro ⟨child', hc, hp, hn⟩
    obtain ⟨hcid, child, hchild, rfl⟩ := live_of_remove h hc
    exact ⟨hcid, child, hchild, by split at hp <;> exact hp, by split at hn <;> exact hn⟩
  · rintro ⟨hcid, child, hchild, hp, hn⟩
    refine ⟨_, get?_remove_of_ne h hcid hchild, ?_, ?_⟩ <;> split <;> assumption

/-- Removing a leaf takes its name from its parent, so every namespace still lists its children. -/
lemma IsTree.child_iff_remove (tree : arena.IsTree) {id : SpaceId} {space : Namespace}
    (h : arena.get? id = some space) {k : SpaceId} {above' : Namespace}
    (hk : (arena.remove id).get? k = some above') {name : String} {c : SpaceId} :
    above'.children.at? name = some c ↔
      ∃ child, (arena.remove id).get? c = some child ∧ child.parent = some k ∧
        child.name = name := by
  obtain ⟨hkid, above, ha, rfl⟩ := live_of_remove h hk
  have hold := @IsTree.child_iff _ tree k above name c ha
  rw [exists_child_remove_iff h, ← hold]
  -- Only the node above the removed one loses an entry, the one under its name.
  by_cases hkup : space.parent = some k
  · simp only [hkup, if_true, Assoc.at?_without]
    have hself := (@IsTree.child_iff _ tree k above space.name id ha).2 ⟨space, h, hkup, rfl⟩
    by_cases hn : space.name = name
    · subst hn
      simp only [if_true, hself, Option.some.injEq, reduceCtorEq, false_iff, not_and]
      exact fun hne heq => hne heq.symm
    · simp only [hn, if_false]
      refine ⟨fun hc => ⟨?_, hc⟩, And.right⟩
      rintro rfl
      obtain ⟨child, hchild, -, hcn⟩ := hold.1 hc
      obtain rfl : space = child := by simpa [h] using hchild
      exact hn hcn
  · simp only [hkup, if_false]
    refine ⟨fun hc => ⟨?_, hc⟩, And.right⟩
    rintro rfl
    obtain ⟨child, hchild, hcp, -⟩ := hold.1 hc
    obtain rfl : space = child := by simpa [h] using hchild
    exact hkup hcp

/-- Removing a leaf other than the root leaves a tree. -/
theorem IsTree.remove (tree : arena.IsTree) {id : SpaceId} {space : Namespace}
    (h : arena.get? id = some space) (hroot : id ≠ root) (leaf : arena.IsLeaf id) :
    (arena.remove id).IsTree := by
  obtain ⟨up, upper, hup, hupper⟩ := tree.parent_live h hroot
  have hlt := lt_length_of_get? h
  have hfree : (arena.remove id).free = id :: arena.free := by
    simp [Arena.remove, h, hup, Arena.adjust]
  have hlength : (arena.remove id).slots.length = arena.slots.length := by
    simp [Arena.remove, h, hup, Arena.adjust]
  refine ⟨?_, ?_, ?_, ?_, ?_, ?_, ?_⟩
  · intro k above' hk
    obtain ⟨-, above, ha, rfl⟩ := live_of_remove h hk
    have hid := tree.id_eq ha
    split <;> exact hid
  · obtain ⟨r, hr, hp⟩ := tree.root_live
    refine ⟨_, get?_remove_of_ne h (Ne.symm hroot) hr, ?_⟩
    split <;> exact hp
  · intro k above' hk hne
    obtain ⟨hkid, above, ha, rfl⟩ := live_of_remove h hk
    obtain ⟨p, pspace, hp, hpspace⟩ := tree.parent_live ha hne
    -- The removed node is a leaf, so it is the parent of no node that stays.
    have hpid : p ≠ id := fun he => leaf k above ha (he ▸ hp)
    refine ⟨p, _, ?_, get?_remove_of_ne h hpid hpspace⟩
    split <;> exact hp
  · exact fun hk => tree.child_iff_remove h hk
  · intro k above' hk
    obtain ⟨hkid, above, ha, -⟩ := live_of_remove h hk
    obtain ⟨path, hpath⟩ := tree.located ha
    exact ⟨path, hpath.remove h leaf hkid⟩
  · intro k
    rw [hfree, hlength, List.mem_cons, tree.free_iff, get?_remove h]
    by_cases hk : k = id
    · simp [hk, hlt]
    · simp only [hk, false_or, if_false]
      split <;> simp
  · rw [hfree, List.nodup_cons]
    refine ⟨fun hmem => ?_, tree.free_nodup⟩
    simp [tree.free_iff, h] at hmem

/-! ## Chains of ancestors -/

/-- A chain leads through live namespaces. -/
lemma live_of_mem_chain {id slot : SpaceId} (h : slot ∈ arena.chain id) :
    ∃ space, arena.get? slot = some space :=
  mem_map_fst_live_iff.1 (Walk.mem_of_mem_preorder h)

/-- In a tree the ancestors are the slots of the chain. -/
lemma IsTree.ancestors_eq_chain (tree : arena.IsTree) (id : SpaceId) :
    arena.ancestors id = arena.chain id := by
  have hself : ∀ slot ∈ arena.chain id,
      (arena.get? slot).map Namespace.id = some slot := by
    intro slot hslot
    obtain ⟨space, hspace⟩ := live_of_mem_chain hslot
    rw [hspace, Option.map_some, tree.id_eq hspace]
  rw [ancestors, List.filterMap_congr hself, List.filterMap_some]

/-! ## Pruning -/

/-- A chain starts with the namespace itself, and its parent is next. -/
lemma IsTree.chain_eq (tree : arena.IsTree) {id : SpaceId} {space : Namespace}
    (h : arena.get? id = some space) :
    ∃ rest, arena.chain id = id :: rest ∧
      ∀ parent, space.parent = some parent → parent ≠ id → ∃ more, rest = parent :: more := by
  have hmem : id ∈ arena.live.map Prod.fst := mem_map_fst_live_iff.2 ⟨space, h⟩
  refine ⟨_, by rw [chain, Walk.preorder_cons, if_pos hmem], ?_⟩
  intro parent hparent hne
  obtain ⟨upper, hupper⟩ := tree.live_of_parent h hparent
  have hfresh : parent ∈ (arena.live.map Prod.fst).erase id :=
    (List.mem_erase_of_ne hne).2 (mem_map_fst_live_iff.2 ⟨upper, hupper⟩)
  have hparents : arena.parents id = [parent] := by simp [parents, h, hparent]
  rw [hparents, List.singleton_append, Walk.preorder_cons, if_pos hfresh]
  exact ⟨_, rfl⟩

/-- A namespace that something keeps alive is not pruned. -/
lemma IsTree.prune_of_kept (tree : arena.IsTree) {id : SpaceId} {space : Namespace}
    (h : arena.get? id = some space) (hkept : id = root ∨ space.isVacant = false) :
    arena.prune id = arena := by
  obtain ⟨rest, hrest, -⟩ := tree.chain_eq h
  have hstop : id = root ∨ (!space.isVacant) = true := by simpa using hkept
  rw [prune, hrest, pruneChain, h]
  simp only [if_pos hstop]

/-- A vacant namespace below one that something keeps alive is removed, and nothing else is. -/
lemma IsTree.prune_of_vacant (tree : arena.IsTree) {id : SpaceId} {space : Namespace}
    (h : arena.get? id = some space) (hroot : id ≠ root) (hvacant : space.isVacant = true)
    (hkept : ∀ parent above, space.parent = some parent → parent ≠ root →
      (arena.remove id).get? parent = some above → above.isVacant = false) :
    arena.prune id = arena.remove id := by
  obtain ⟨rest, hrest, hnext⟩ := tree.chain_eq h
  obtain ⟨parent, upper, hparent, hupper⟩ := tree.parent_live h hroot
  have hgo : ¬ (id = root ∨ (!space.isVacant) = true) := by simp [hroot, hvacant]
  rw [prune, hrest, pruneChain, h]
  simp only [if_neg hgo]
  by_cases hself : parent = id
  · -- The parent's slot cannot be the one that is removed.
    subst hself
    cases rest with
    | nil => rfl
    | cons next more =>
      obtain ⟨path, hpath⟩ := tree.located h
      have hsnoc : arena.PathTo (path ++ [space.name]) parent := .child hpath h hparent
      have := hpath.path_unique tree hsnoc
      simp at this
  · obtain ⟨more, rfl⟩ := hnext parent hparent hself
    have hafter := get?_remove_of_ne h hself hupper
    rw [pruneChain, hafter]
    by_cases hp : parent = root
    · simp only [hp, true_or, if_true]
    · have := hkept parent _ hparent hp hafter
      simp only [this, Bool.not_false, or_true, if_true]

end Arena

end SymbolGraph
