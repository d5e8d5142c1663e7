import SymbolGraph.Proofs.Session.UntouchedDocuments

/-!
# The life of an arena

An arena starts as a root and grows by children of live namespaces; `prune` takes namespaces out
again, and everything else leaves the tree alone (`Arena.Grown`).  Every such arena is a *grove*: a
tree in which no namespace maps a name twice (`Arena.Grown.isGrove`), so that each entry of a map of
children is the link back of the child it points to.

The walk from a namespace to its parent and on has no bound of its own; `Arena.Climbs` is its
relation.  In a tree the place of a namespace gets shorter with each step, so the walk ends, meets
nothing twice and ends at the root, and the names on the way back spell the place.

Pruning removes one leaf after another (`Arena.Sheds`).  What the whole chain has in common can be
said of the arena before it, without the order of the removals: `Arena.Withers id chain` says that
the namespaces of `chain`, upward from `id`, have nothing that keeps them but each other.  Of all
such chains pruning takes the longest (`Arena.IsGrove.prune`).
-/

namespace SymbolGraph

/-! ## Dotted names -/

/-- Names without dots, none of them empty, can be read off the text that joins them. -/
lemma Dotted.joinNames_inj {names names' : List String}
    (plain : ∀ name ∈ names, name ≠ "" ∧ '.' ∉ name.toList)
    (plain' : ∀ name ∈ names', name ≠ "" ∧ '.' ∉ name.toList)
    (h : joinNames names = joinNames names') : names = names' := by
  -- Cutting the joined text gives the names back, except that no names are one empty name.
  have hsplit {names : List String} (plain : ∀ name ∈ names, name ≠ "" ∧ '.' ∉ name.toList) :
      List.splitOn '.' (joinNames names).toList
        = if names = [] then [[]] else names.map String.toList := by
    rw [joinNames, String.toList_intercalate]
    split
    · next hempty => subst hempty; rfl
    · next hne =>
      refine List.splitOn_intercalate '.' ?_ (by simpa using hne)
      simpa using fun name hname => (plain name hname).2
  have hnonempty {names : List String} (plain : ∀ name ∈ names, name ≠ "" ∧ '.' ∉ name.toList) :
      [[]] ≠ names.map String.toList := by
    intro heq
    obtain ⟨name, hname, htext⟩ := List.mem_map.1 (heq ▸ List.mem_singleton_self [])
    exact (plain name hname).1 (String.toList_eq_nil_iff.1 htext)
  have hboth := hsplit plain
  rw [h, hsplit plain'] at hboth
  split at hboth <;> split at hboth
  · simp_all
  · exact absurd hboth (hnonempty plain)
  · exact absurd hboth.symm (hnonempty plain')
  · exact (List.map_injective_iff.2 (fun _ _ => String.toList_injective) hboth).symm

namespace Arena

/-! ## Groves -/

/-- A tree in which no namespace maps a name twice. -/
structure IsGrove (arena : Arena) : Prop where
  tree : arena.IsTree
  keyed : ∀ {id space}, arena.get? id = some space → space.children.keys.Nodup

variable {arena : Arena}

lemma isGrove_new (name : String) : (new name).IsGrove := by
  refine ⟨isTree_new name, fun {id space} h => ?_⟩
  obtain rfl : id = 0 := by simpa [new] using lt_length_of_get? h
  rw [show (0 : SpaceId) = root from rfl, get?_new_root, Option.some.injEq] at h
  simp [← h]

/-- The entries of a namespace are the children that name it as their parent. -/
lemma IsGrove.mem_children_iff (grove : arena.IsGrove) {parent id : SpaceId} {above : Namespace}
    {name : String} (h : arena.get? parent = some above) :
    (name, id) ∈ above.children ↔
      ∃ space, arena.get? id = some space ∧ space.parent = some parent ∧ space.name = name :=
  ⟨fun hmem => (grove.tree.child_iff h).1 (Assoc.at?_of_mem (grove.keyed h) hmem),
    fun hspace => Assoc.mem_of_at? ((grove.tree.child_iff h).2 hspace)⟩

/-- A change of what a namespace holds is no change of the tree. -/
lemma IsGrove.adjust (grove : arena.IsGrove) (id : SpaceId) {f : Namespace → Namespace}
    (hf : ∀ space, (f space).frame = space.frame) : (arena.adjust id f).IsGrove := by
  refine ⟨grove.tree.adjust id hf, fun {k space} h => ?_⟩
  rw [get?_adjust] at h
  split at h
  · obtain ⟨old, hold, rfl⟩ := Option.map_eq_some_iff.1 h
    have hchildren : (f old).frame.children = old.frame.children := by rw [hf]
    rw [show (f old).children = old.children from hchildren]
    exact grove.keyed hold
  · exact grove.keyed h

lemma IsGrove.openChild (grove : arena.IsGrove) {parent : SpaceId} {above : Namespace}
    (hparent : arena.get? parent = some above) (name : String) :
    (arena.openChild parent name).2.IsGrove := by
  cases hchild : arena.child? parent name with
  | some id =>
    have hsame : (arena.openChild parent name).2 = arena := by rw [Arena.openChild, hchild]
    rwa [hsame]
  | none =>
    have hadds := grove.tree.openChild_adds hparent hchild
    refine ⟨hadds.isTree grove.tree hparent hchild, fun {k space'} hk => ?_⟩
    rcases hadds.live_cases hk with ⟨rfl, rfl⟩ | ⟨space, hs, rfl⟩
    · exact List.nodup_nil
    · split
      · exact Assoc.nodup_keys_put (grove.keyed hs) _ _
      · exact grove.keyed hs

/-- A namespace with no entries has no children. -/
lemma IsGrove.isLeaf (grove : arena.IsGrove) {id : SpaceId} {space : Namespace}
    (h : arena.get? id = some space) (hempty : space.children = []) : arena.IsLeaf id := by
  intro k child hk hparent
  have hentry := (grove.mem_children_iff h).2 ⟨child, hk, hparent, rfl⟩
  rw [hempty] at hentry
  cases hentry

/-- The namespaces that stay lose the entries for those that go. -/
def strip (gone : List SpaceId) (space : Namespace) : Namespace :=
  { space with children := space.children.filter fun entry => entry.2 ∉ gone }

/-- Removing a namespace takes its entry away and nothing else. -/
lemma IsGrove.get?_remove_eq (grove : arena.IsGrove) {id : SpaceId} {space : Namespace}
    (h : arena.get? id = some space) (k : SpaceId) :
    (arena.remove id).get? k = if k = id then none else (arena.get? k).map (strip [id]) := by
  rw [get?_remove h]
  split
  · rfl
  cases hk : arena.get? k with
  | none => split <;> rfl
  | some above =>
    -- The entry for the removed node is that of its parent under its own name.
    have hentry (entry : String × SpaceId) (hmem : entry ∈ above.children) :
        entry.2 = id ↔ space.parent = some k ∧ entry.1 = space.name := by
      obtain ⟨child, hchild, hparent, hname⟩ := (grove.mem_children_iff hk).1 hmem
      constructor
      · rintro rfl
        obtain rfl : space = child := by simpa [h] using hchild
        exact ⟨hparent, hname.symm⟩
      · rintro ⟨hup, hsame⟩
        have hfound := Assoc.at?_of_mem (grove.keyed hk) hmem
        rw [hsame, (grove.tree.child_iff hk).2 ⟨space, h, hup, rfl⟩] at hfound
        exact (Option.some.inj hfound).symm
    split
    · next hup =>
      rw [Option.map_some, Option.map_some, strip, Assoc.without]
      congr 2
      refine List.filter_congr fun entry hmem => ?_
      simp [hentry entry hmem, hup]
    · next hup =>
      rw [Option.map_some, strip, List.filter_eq_self.2]
      intro entry hmem
      simp [hentry entry hmem, hup]

lemma IsGrove.remove (grove : arena.IsGrove) {id : SpaceId} {space : Namespace}
    (h : arena.get? id = some space) (hroot : id ≠ root) (hempty : space.children = []) :
    (arena.remove id).IsGrove := by
  refine ⟨grove.tree.remove h hroot (grove.isLeaf h hempty), fun {k above'} hk => ?_⟩
  rw [grove.get?_remove_eq h] at hk
  split at hk
  · cases hk
  · obtain ⟨above, habove, rfl⟩ := Option.map_eq_some_iff.1 hk
    exact (grove.keyed habove).sublist (List.filter_sublist.map Prod.fst)

/-! ## The walk to the root -/

/-- `arena.Climbs start ids`: the walk from the slot `start` to that of the parent and on, as long
as a namespace stands there, meets the namespaces `ids` and ends. -/
inductive Climbs (arena : Arena) : Option SpaceId → List SpaceId → Prop
  | stop {start : Option SpaceId} : start.bind arena.get? = none → Climbs arena start []
  | step {slot : SpaceId} {space : Namespace} {ids : List SpaceId} :
      arena.get? slot = some space → Climbs arena space.parent ids →
      Climbs arena (some slot) (space.id :: ids)

/-- In a tree the walk meets the slot that it comes to. -/
lemma IsTree.climbs_cons (tree : arena.IsTree) {id : SpaceId} {space : Namespace}
    (h : arena.get? id = some space) {ids : List SpaceId} (hids : arena.Climbs space.parent ids) :
    arena.Climbs (some id) (id :: ids) := by
  have hstep := Climbs.step h hids
  rwa [tree.id_eq h] at hstep

/-- The walk from a place is the depth-first walk, whatever else there is to walk on. -/
lemma PathTo.climbs (tree : arena.IsTree) {path : List String} {id : SpaceId}
    (h : arena.PathTo path id) (fresh : List SpaceId)
    (hfresh : ∀ q k, q <+: path → arena.PathTo q k → k ∈ fresh) :
    arena.Climbs (some id) (Walk.preorder arena.parents fresh [id]) := by
  induction h generalizing fresh with
  | @root space hspace =>
    have hparent := tree.parent_root hspace
    have hmem : Arena.root ∈ fresh := hfresh [] Arena.root (List.prefix_refl _) (.root hspace)
    have hparents : arena.parents Arena.root = [] := by simp [parents, hspace, hparent]
    rw [Walk.preorder_cons, if_pos hmem, hparents, List.append_nil, Walk.preorder_nil]
    exact tree.climbs_cons hspace (.stop (by rw [hparent]; rfl))
  | @child path parent id space hpath hspace hparent ih =>
    have hself : arena.PathTo (path ++ [space.name]) id := .child hpath hspace hparent
    have hmem : id ∈ fresh := hfresh _ id (List.prefix_refl _) hself
    have hparents : arena.parents id = [parent] := by simp [parents, hspace, hparent]
    have hrest := ih (fresh.erase id) fun q k hq hk => by
      refine (List.mem_erase_of_ne ?_).2 (hfresh q k (hq.trans (List.prefix_append _ _)) hk)
      rintro rfl
      have hlength := hq.length_le
      rw [hk.path_unique tree hself, List.length_append] at hlength
      simp at hlength
    rw [Walk.preorder_cons, if_pos hmem, hparents, List.singleton_append]
    exact tree.climbs_cons hspace (hparent ▸ hrest)

/-- The walk from any slot ends. -/
lemma IsTree.climbs_ancestors (tree : arena.IsTree) (id : SpaceId) :
    arena.Climbs (some id) (arena.ancestors id) := by
  rw [tree.ancestors_eq_chain]
  cases h : arena.get? id with
  | none =>
    have hdead : id ∉ arena.live.map Prod.fst := by simp [mem_map_fst_live_iff, h]
    rw [chain, Walk.preorder_cons, if_neg hdead, Walk.preorder_nil]
    exact .stop h
  | some space =>
    obtain ⟨path, hpath⟩ := tree.located h
    exact hpath.climbs tree _ fun q k _ hk => mem_map_fst_live_iff.2 hk.live

/-- The walk from a live namespace ends at the root. -/
lemma Climbs.getLast? (tree : arena.IsTree) {start : Option SpaceId} {chain : List SpaceId}
    (h : arena.Climbs start chain) {id : SpaceId} {space : Namespace} (hid : start = some id)
    (hlive : arena.get? id = some space) : chain.getLast? = some root := by
  induction h generalizing id space with
  | stop hnone =>
    rw [hid, Option.bind_some, hlive] at hnone
    cases hnone
  | @step k node chain hk hclimbs ih =>
    by_cases hroot : k = root
    · subst hroot
      rw [tree.parent_root hk] at hclimbs
      cases hclimbs
      rw [tree.id_eq hk, List.getLast?_singleton]
    · obtain ⟨parent, above, hparent, habove⟩ := tree.parent_live hk hroot
      have hlast := ih hparent habove
      rw [List.getLast?_cons, hlast, Option.getD_some]

/-- Upward the places get shorter. -/
lemma Climbs.shorter (tree : arena.IsTree) {start : Option SpaceId} {chain : List SpaceId}
    (h : arena.Climbs start chain) :
    (∀ id path, start = some id → arena.PathTo path id →
      ∀ k ∈ chain, ∀ q, arena.PathTo q k → q.length ≤ path.length) ∧
    chain.Pairwise fun below above => ∀ path q, arena.PathTo path below → arena.PathTo q above →
      q.length < path.length := by
  induction h with
  | stop => exact ⟨by simp, .nil⟩
  | @step id space chain hid hclimbs ih =>
    obtain ⟨hbound, hpairwise⟩ := ih
    rw [tree.id_eq hid]
    -- What comes after the namespace is no deeper than its parent.
    have hafter (path : List String) (hpath : arena.PathTo path id) :
        ∀ k ∈ chain, ∀ q, arena.PathTo q k → q.length < path.length := by
      intro k hk q hq
      cases hpath with
      | root hroot =>
        rw [tree.parent_root hid] at hclimbs
        cases hclimbs
        cases hk
      | @child path parent _ node hpath hnode hparent =>
        obtain rfl : space = node := by simpa [hid] using hnode
        have := hbound parent path hparent hpath k hk q hq
        rw [List.length_append]
        exact Nat.lt_succ_of_le this
    refine ⟨fun id' path hid' hpath k hk q hq => ?_, List.pairwise_cons.2
      ⟨fun k hk path q hpath hq => hafter path hpath k hk q hq, hpairwise⟩⟩
    obtain rfl := Option.some.inj hid'
    rcases List.mem_cons.1 hk with rfl | hk
    · exact (congrArg List.length (hq.path_unique tree hpath)).le
    · exact (hafter path hpath k hk q hq).le

/-- Down the names of a place one comes to the namespace. -/
lemma PathTo.walk?_append (tree : arena.IsTree) {path : List String} {id : SpaceId}
    (h : arena.PathTo path id) (more : List String) :
    arena.walk? Arena.root (path ++ more) = arena.walk? id more := by
  induction h generalizing more with
  | root => rfl
  | @child path parent id space hpath hspace hparent ih =>
    have hchild := hpath.child?_of_snoc tree (.child hpath hspace hparent)
    rw [List.append_assoc, ih, List.singleton_append, walk?, hchild, Option.bind_some]

/-- The names of a place are those of namespaces below the root. -/
lemma PathTo.exists_of_mem (tree : arena.IsTree) {path : List String} {id : SpaceId}
    (h : arena.PathTo path id) : ∀ name ∈ path,
      ∃ k space, arena.get? k = some space ∧ k ≠ Arena.root ∧ space.name = name := by
  induction h with
  | root => simp
  | @child path parent id space hpath hspace hparent ih =>
    have hroot := tree.ne_root_of_parent hspace hparent
    exact List.forall_mem_append.2
      ⟨ih, List.forall_mem_singleton.2 ⟨id, space, hspace, hroot, rfl⟩⟩

/-- Namespaces whose names can be joined and cut again are told apart by their full names. -/
lemma IsTree.fullName_inj (tree : arena.IsTree)
    (plain : ∀ k space, arena.get? k = some space → k ≠ root →
      space.name ≠ "" ∧ '.' ∉ space.name.toList)
    {i j : SpaceId} (hi : ∃ space, arena.get? i = some space)
    (hj : ∃ space, arena.get? j = some space)
    (h : arena.fullName i = arena.fullName j) : i = j := by
  obtain ⟨_, hi⟩ := hi
  obtain ⟨_, hj⟩ := hj
  obtain ⟨p, hp⟩ := tree.located hi
  obtain ⟨q, hq⟩ := tree.located hj
  have hplain {path : List String} {id : SpaceId} (hpath : arena.PathTo path id) (name : String)
      (hname : name ∈ path) : name ≠ "" ∧ '.' ∉ name.toList := by
    obtain ⟨k, space, hk, hroot, rfl⟩ := hpath.exists_of_mem tree name hname
    exact plain k space hk hroot
  rw [hp.fullName_eq tree, hq.fullName_eq tree] at h
  obtain rfl := Dotted.joinNames_inj (hplain hp) (hplain hq) h
  exact hp.id_unique tree hq

/-! ## Pruning -/

/-- `arena.Sheds gone after`: the namespaces `gone` are removed one after another, each vacant and
below the root when it goes. -/
inductive Sheds : Arena → List SpaceId → Arena → Prop
  | nil {arena : Arena} : Sheds arena [] arena
  | cons {arena after : Arena} {id : SpaceId} {space : Namespace} {gone : List SpaceId} :
      arena.get? id = some space → id ≠ root → space.isVacant = true →
      Sheds (arena.remove id) gone after → Sheds arena (id :: gone) after

/-- Along a chain namespaces are removed up to the first that is the root or is not vacant. -/
lemma exists_sheds (chain : List SpaceId) (arena : Arena) :
    ∃ gone rest, chain = gone ++ rest ∧ arena.Sheds gone (pruneChain chain arena) ∧
      ∀ id ∈ rest.head?, ∀ space, (pruneChain chain arena).get? id = some space →
        id = root ∨ space.isVacant = false := by
  induction chain generalizing arena with
  | nil => exact ⟨[], [], rfl, .nil, by simp⟩
  | cons id chain ih =>
    rw [pruneChain]
    cases h : arena.get? id with
    | none =>
      refine ⟨[], id :: chain, rfl, .nil, fun k hk space hspace => ?_⟩
      obtain rfl : id = k := by simpa using hk
      simp [h] at hspace
    | some space =>
      by_cases hstop : id = root ∨ (!space.isVacant) = true
      · simp only [if_pos hstop]
        refine ⟨[], id :: chain, rfl, .nil, fun k hk space' hspace' => ?_⟩
        obtain rfl : id = k := by simpa using hk
        obtain rfl : space = space' := by simpa [h] using hspace'
        simpa using hstop
      · simp only [if_neg hstop]
        obtain ⟨gone, rest, rfl, hsheds, hnext⟩ := ih (arena.remove id)
        obtain ⟨hroot, hvacant⟩ : id ≠ root ∧ space.isVacant = true := by simpa using hstop
        exact ⟨id :: gone, rest, rfl, .cons h hroot hvacant hsheds, hnext⟩

/-- Nothing keeps the namespaces of `gone` but each other. -/
def Withered (arena : Arena) (gone : List SpaceId) : Prop :=
  ∀ k ∈ gone, k ≠ root ∧ ∃ space, arena.get? k = some space ∧
    space.groups = [] ∧ space.documents = [] ∧ ∀ entry ∈ space.children, entry.2 ∈ gone

@[simp] lemma strip_nil : strip [] = id := by
  funext space
  simp [strip]

lemma strip_strip (gone gone' : List SpaceId) (space : Namespace) :
    strip gone (strip gone' space) = strip (gone' ++ gone) space := by
  simp [strip, List.filter_filter, and_comm]

/-- Removing one after another is removing all: what goes has withered, and what stays loses the
entries for what goes. -/
lemma Sheds.spec {gone : List SpaceId} {after : Arena} (h : arena.Sheds gone after)
    (grove : arena.IsGrove) :
    after.IsGrove ∧ arena.Withered gone ∧
      ∀ k, after.get? k = if k ∈ gone then none else (arena.get? k).map (strip gone) := by
  induction h with
  | @nil arena => exact ⟨grove, by simp [Withered], fun k => by simp⟩
  | @cons arena after id space gone hid hroot hvacant hsheds ih =>
    obtain ⟨⟨hchildren, hgroups⟩, hdocuments⟩ :
        (space.children = [] ∧ space.groups = []) ∧ space.documents = [] := by
      simpa [Namespace.isVacant] using hvacant
    obtain ⟨hafter, hwithered, hget⟩ := ih (grove.remove hid hroot hchildren)
    refine ⟨hafter, fun k hk => ?_, fun k => ?_⟩
    · rcases List.mem_cons.1 hk with rfl | hk
      · exact ⟨hroot, space, hid, hgroups, hdocuments, by simp [hchildren]⟩
      · obtain ⟨hne, node', hnode', hempty, hclosed, hentries⟩ := hwithered k hk
        rw [grove.get?_remove_eq hid] at hnode'
        split at hnode'
        · cases hnode'
        obtain ⟨node, hnode, rfl⟩ := Option.map_eq_some_iff.1 hnode'
        refine ⟨hne, node, hnode, hempty, hclosed, fun entry hentry => ?_⟩
        -- An entry that the first removal has taken away is the one for the first.
        by_cases hfirst : entry.2 = id
        · exact List.mem_cons.2 (Or.inl hfirst)
        · exact List.mem_cons_of_mem _
            (hentries entry (List.mem_filter.2 ⟨hentry, by simpa using hfirst⟩))
    · rw [hget, grove.get?_remove_eq hid]
      by_cases hk : k = id
      · simp [hk]
      · simp only [List.mem_cons, hk, false_or, if_false, Option.map_map, Function.comp_def,
          strip_strip, List.singleton_append]

/-- `arena.Withers id chain`: `chain` goes upward from `id`, and nothing keeps its namespaces but
each other. -/
def Withers (arena : Arena) (id : SpaceId) (chain : List SpaceId) : Prop :=
  chain <+: arena.ancestors id ∧ arena.Withered chain

/-- Pruning removes the longest chain upward from its argument that nothing keeps, and nothing else
changes but the entries for it. -/
theorem IsGrove.prune (grove : arena.IsGrove) (id : SpaceId) :
    (arena.prune id).IsGrove ∧ ∃ chain, arena.Withers id chain ∧
      (∀ other, arena.Withers id other → other <+: chain) ∧
      ∀ k, (arena.prune id).get? k = if k ∈ chain then none else (arena.get? k).map
        (strip chain) := by
  obtain ⟨gone, rest, hchain, hsheds, hnext⟩ := exists_sheds (arena.chain id) arena
  obtain ⟨hafter, hwithered, hget⟩ := hsheds.spec grove
  have hancestors := grove.tree.ancestors_eq_chain id
  rw [hchain] at hancestors
  refine ⟨hafter, gone, ⟨hancestors ▸ List.prefix_append _ _, hwithered⟩,
    fun other hother => ?_, hget⟩
  obtain ⟨hlead, hother⟩ := hother
  rcases List.prefix_or_prefix_of_prefix hlead (hancestors ▸ List.prefix_append gone rest) with
    hshort | ⟨more, rfl⟩
  · exact hshort
  cases more with
  | nil => simp
  | cons next more =>
    -- A longer chain would go on with the namespace at which pruning has stopped.
    exfalso
    obtain ⟨tail, rfl⟩ : ∃ tail, rest = next :: (more ++ tail) := by
      obtain ⟨tail, htail⟩ := hlead
      refine ⟨tail, @List.append_cancel_left _ gone _ _ ?_⟩
      rw [← hancestors, ← htail, List.append_assoc, List.cons_append]
    have hclimbs := grove.tree.climbs_ancestors id
    rw [hancestors] at hclimbs
    obtain ⟨-, hshorter⟩ := hclimbs.shorter grove.tree
    have hnodup : (gone ++ next :: (more ++ tail)).Nodup := by
      rw [← hchain]
      exact Walk.nodup_preorder (nodup_map_fst_live arena)
    obtain ⟨hroot, space, hspace, hgroups, hdocuments, hentries⟩ := hother next (by simp)
    have hkept : next ∉ gone := fun hmem =>
      (List.nodup_append.1 hnodup).2.2 next hmem next List.mem_cons_self rfl
    have hleft : (pruneChain (arena.chain id) arena).get? next = some (strip gone space) := by
      rw [hget, if_neg hkept, hspace, Option.map_some]
    -- It was left with a child, which has to be on the chain, and deeper.
    have hchild : (strip gone space).children ≠ [] := by
      have hstays := (hnext next (by simp) _ hleft).resolve_left hroot
      intro hempty
      simp [Namespace.isVacant, hempty] at hstays
      simp [strip, hgroups, hdocuments] at hstays
    obtain ⟨⟨name, child⟩, hentry⟩ := List.exists_mem_of_ne_nil _ hchild
    obtain ⟨hentry, hchildkept⟩ := List.mem_filter.1 hentry
    have hon : child ∈ next :: more :=
      (List.mem_append.1 (hentries _ hentry)).resolve_left (by simpa using hchildkept)
    obtain ⟨below, hbelow, hparent, -⟩ := (grove.mem_children_iff hspace).1 hentry
    obtain ⟨path, hpath⟩ := grove.tree.located hspace
    have hdeeper : arena.PathTo (path ++ [below.name]) child := .child hpath hbelow hparent
    rcases List.mem_cons.1 hon with rfl | hmore
    · simpa using congrArg List.length (hdeeper.path_unique grove.tree hpath)
    · have hupward := (List.pairwise_append.1 hshorter).2.1
      have := (List.pairwise_cons.1 hupward).1 child (List.mem_append_left _ hmore) path _
        hpath hdeeper
      simp at this

/-! ## Arenas in use -/

/-- The arenas that come about from a root by opening children of live namespaces, pruning,
declaring, undeclaring and changing the documents of a namespace. -/
inductive Grown (rootName : String) : Arena → Prop
  | new : Grown rootName (new rootName)
  | openChild {arena : Arena} {parent : SpaceId} (name : String) : Grown rootName arena →
      (∃ above, arena.get? parent = some above) → Grown rootName (arena.openChild parent name).2
  | prune {arena : Arena} (id : SpaceId) : Grown rootName arena → Grown rootName (arena.prune id)
  | declare {arena : Arena} (id : SpaceId) (name : String) (decl : DeclId) : Grown rootName arena →
      Grown rootName (arena.declare id name decl)
  | undeclare {arena : Arena} (id : SpaceId) (name : String) (decl : DeclId) :
    Grown rootName arena →
      Grown rootName (arena.undeclare id name decl)
  | documents {arena : Arena} (id : SpaceId) (f : List String → List String) :
    Grown rootName arena →
      Grown rootName (arena.adjust id fun space => { space with documents := f space.documents })

theorem Grown.isGrove {rootName : String} (h : Grown rootName arena) : arena.IsGrove := by
  induction h with
  | new => exact isGrove_new rootName
  | openChild name _ hparent ih =>
    obtain ⟨above, habove⟩ := hparent
    exact ih.openChild habove name
  | prune id _ ih => exact (ih.prune id).1
  | declare id name decl _ ih => exact ih.adjust id fun _ => rfl
  | undeclare id name decl _ ih =>
    refine ih.adjust id fun space => ?_
    split <;> rfl
  | documents id f _ ih => exact ih.adjust id fun _ => rfl

/-- Identities, parents, children, slots and full names of an arena agree with each other. -/
structure WellLinked (arena : Arena) : Prop where
  /-- The root is live and has no parent. -/
  root_live : ∃ space, arena.get? root = some space ∧ space.parent = none
  /-- A live namespace bears its slot as its identity. -/
  id_eq : ∀ id space, arena.get? id = some space → space.id = id
  /-- The parent of a namespace below the root is live and maps its name to it. -/
  parent_live : ∀ id space, arena.get? id = some space → id ≠ root →
    ∃ parent above, space.parent = some parent ∧ arena.get? parent = some above ∧
      above.children.at? space.name = some id
  /-- The entries of a namespace have different names, and each points to a live child of this
  name. -/
  children_live : ∀ id space, arena.get? id = some space → space.children.keys.Nodup ∧
    ∀ name child, (name, child) ∈ space.children →
      ∃ below, arena.get? child = some below ∧ below.parent = some id ∧ below.name = name
  /-- The slots to use again are the empty ones, each once. -/
  free_iff : ∀ id, id ∈ arena.free ↔ id < arena.slots.length ∧ arena.get? id = none
  free_nodup : arena.free.Nodup
  /-- The walk to the parent and on ends, from every slot. -/
  climbs : ∀ id, arena.Climbs (some id) (arena.ancestors id)
  /-- From a live namespace it ends at the root and meets nothing twice, and the names that it meets
  lead back down. -/
  ancestors : ∀ id space, arena.get? id = some space →
    (arena.ancestors id).getLast? = some root ∧ (arena.ancestors id).Nodup ∧
    arena.walk? root ((((arena.ancestors id).filter (· ≠ root)).filterMap fun k =>
      (arena.get? k).map Namespace.name).reverse) = some id
  /-- The full names of live namespaces differ if the names can be read off them. -/
  fullName_inj : (∀ k space, arena.get? k = some space → k ≠ root →
      space.name ≠ "" ∧ '.' ∉ space.name.toList) →
    ∀ i j, (∃ space, arena.get? i = some space) → (∃ space, arena.get? j = some space) →
      arena.fullName i = arena.fullName j → i = j

lemma IsGrove.wellLinked (grove : arena.IsGrove) : arena.WellLinked where
  root_live := grove.tree.root_live
  id_eq _ _ := grove.tree.id_eq
  parent_live id space h hroot := by
    obtain ⟨parent, above, hparent, habove⟩ := grove.tree.parent_live h hroot
    exact ⟨parent, above, hparent, habove, (grove.tree.child_iff habove).2 ⟨space, h, hparent, rfl⟩⟩
  children_live id space h := ⟨grove.keyed h, fun _ _ => (grove.mem_children_iff h).1⟩
  free_iff _ := grove.tree.free_iff
  free_nodup := grove.tree.free_nodup
  climbs := grove.tree.climbs_ancestors
  ancestors id space h := by
    obtain ⟨path, hpath⟩ := grove.tree.located h
    have hlast := (grove.tree.climbs_ancestors id).getLast? grove.tree rfl h
    rw [grove.tree.ancestors_eq_chain] at hlast ⊢
    refine ⟨hlast, Walk.nodup_preorder (nodup_map_fst_live arena), ?_⟩
    rw [chain, hpath.names_chain grove.tree _ fun _ _ _ hk =>
      mem_map_fst_live_iff.2 hk.live]
    simpa [walk?] using hpath.walk?_append grove.tree []
  fullName_inj plain _ _ := grove.tree.fullName_inj plain

/-- In every arena in use identities, parents, children, slots and full names agree with each other,
and pruning takes away exactly the longest chain upward from its argument that nothing keeps. -/
theorem Grown.wellLinked_prune {rootName : String} (h : Grown rootName arena) :
    arena.WellLinked ∧ ∀ id, ∃ chain, arena.Withers id chain ∧
      (∀ other, arena.Withers id other → other <+: chain) ∧
      ∀ k, (arena.prune id).get? k =
        if k ∈ chain then none
        else (arena.get? k).map fun space =>
          { space with children := space.children.filter fun entry => entry.2 ∉ chain } :=
  ⟨h.isGrove.wellLinked, fun id => (h.isGrove.prune id).2⟩

/-- A root, its child `a` and the child `b` of that. -/
def twig : Arena := (((new "lib").openChild 0 "a").2.openChild 1 "b").2

lemma grown_twig : Grown "lib" twig :=
  .openChild "b" (.openChild "a" .new ⟨_, rfl⟩) ⟨_, rfl⟩

/-- Pruning the tip takes both namespaces away. -/
theorem wellLinked_prune_twig : Grown "lib" twig ∧ twig.WellLinked ∧
    (twig.prune 2).get? 2 = none ∧ (twig.prune 2).get? 1 = none := by
  obtain ⟨hlinked, hprune⟩ := Grown.wellLinked_prune grown_twig
  obtain ⟨chain, -, hlongest, hget⟩ := hprune 2
  have hancestors : twig.ancestors 2 = [2, 1, 0] := by cbv
  have hboth : twig.Withers 2 [2, 1] := by
    refine ⟨⟨[0], hancestors.symm⟩, List.forall_mem_cons.2 ⟨?_, List.forall_mem_singleton.2 ?_⟩⟩
    · exact ⟨by decide, _, rfl, rfl, rfl, by decide⟩
    · exact ⟨by decide, _, rfl, rfl, rfl, by decide⟩
  have hgone (k : SpaceId) (hk : k ∈ [2, 1]) : (twig.prune 2).get? k = none := by
    rw [hget, if_pos ((hlongest _ hboth).subset hk)]
  exact ⟨grown_twig, hlinked, hgone 2 (by decide), hgone 1 (by decide)⟩

end Arena

end SymbolGraph
