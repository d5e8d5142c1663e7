import SymbolGraph.Proofs.Model.LibrarySets
import SymbolGraph.Proofs.Model.PoolTables
import SymbolGraph.Proofs.Tidying.TreeAlignment

/-!
# Tidying never fails and follows the tree

`bench.Stage others lib marks` is the state of tidying after some marks of a tree: the library of
the document at hand holds the others and the unfinished one, the unfinished document is aligned
with the marks met so far, and the pool matches the tables if the library is the project.  Each of
the two steps, opening a block and taking in a declaration, leads from one stage to the next
without a fault, and the induction over the tree puts the steps together (`Workbench.tidy_eq`).

`bench.Advances lib bench' lib'` is the frame: the library grows from `lib` to `lib'`, and of the
rest of the model only the pool of the project changes.
-/

namespace SymbolGraph

/-- The indices of the declarations of one category, in the order of the document. -/
def SourceUnit.indices (unit : SourceUnit) (category : Category) : List Nat :=
  (unit.declarations.filter fun id => id.category = category).map DeclId.index

namespace Workbench

/-- Tidying has come as far as the marks say. -/
structure Stage (bench : Workbench) (others : List SourceUnit) (lib : Library)
    (marks : List Mark) : Prop where
  loaded : bench.libraries.get? bench.unit.library = some lib
  hosts : lib.Hosts (bench.unit :: others)
  aligned : bench.unit.AlignedWith lib marks
  unlinked : bench.unit.skeleton = bench.unit
  pool : lib.id = .project → bench.pool.Matches lib []

/-- What tidying changes between two stages. -/
structure Advances (bench : Workbench) (lib : Library) (bench' : Workbench) (lib' : Library) :
    Prop where
  libraries_eq : bench'.libraries = bench.libraries.adjust bench.unit.library fun _ => lib'
  grows : lib.Grows lib'
  tree_eq : bench'.unit.tree = bench.unit.tree
  library_eq : bench'.unit.library = bench.unit.library
  pool_eq : lib.id ≠ .project → bench'.pool = bench.pool
  spaces_sub : ∀ id ∈ bench.unit.spaces, id ∈ bench'.unit.spaces
  drawn : lib.id = .project → ∀ category, ∃ n,
    bench.pool.Draws lib category n bench'.pool lib' ∧ bench'.unit.indices category
      = bench.unit.indices category ++ bench.pool.next lib category n

/-- The document at hand has the namespace at a place open. -/
def Open (bench : Workbench) (lib : Library) (path : List String) (space : SpaceId) : Prop :=
  lib.spaces.PathTo path space ∧ (space = Arena.root ∨ space ∈ bench.unit.spaces)

variable {bench bench' bench'' : Workbench} {others : List SourceUnit} {lib lib' lib'' : Library}
  {marks : List Mark}

lemma Stage.advances_refl (stage : bench.Stage others lib marks) :
    bench.Advances lib bench lib := by
  refine ⟨?_, .refl lib, rfl, rfl, fun _ => rfl, fun _ h => h,
    fun _ _ => ⟨0, IndexPool.draws_zero rfl rfl, by simp⟩⟩
  have hself := bench.libraries.adjust_id bench.unit.library
  exact hself.symm.trans (LibrarySet.adjust_congr stage.loaded rfl)

lemma Advances.trans (h : bench.Advances lib bench' lib') (k : bench'.Advances lib' bench'' lib'') :
    bench.Advances lib bench'' lib'' where
  libraries_eq := by
    rw [k.libraries_eq, h.libraries_eq, h.library_eq, LibrarySet.adjust_adjust]
  grows := h.grows.trans k.grows
  tree_eq := k.tree_eq.trans h.tree_eq
  library_eq := k.library_eq.trans h.library_eq
  pool_eq hne := (k.pool_eq (h.grows.id_eq ▸ hne)).trans (h.pool_eq hne)
  spaces_sub id hid := k.spaces_sub id (h.spaces_sub id hid)
  drawn hid category := by
    obtain ⟨n, hdraws, hindices⟩ := h.drawn hid category
    obtain ⟨m, hdraws', hindices'⟩ := k.drawn (h.grows.id_eq.trans hid) category
    refine ⟨n + m, hdraws.trans hdraws', ?_⟩
    rw [hindices', hindices, hdraws.next_add, List.append_assoc]

lemma Open.advances {path : List String} {space : SpaceId} (h : bench.Open lib path space)
    (advances : bench.Advances lib bench' lib') : bench'.Open lib' path space :=
  ⟨advances.grows.pathTo h.1, h.2.imp_right (advances.spaces_sub space)⟩

end Workbench

/-- One more mark is recorded for a document. -/
lemma SourceUnit.AlignedWith.extend {unit unit' : SourceUnit} {lib lib' : Library}
    {marks : List Mark} (aligned : unit.AlignedWith lib marks) (grows : lib.Grows lib')
    {mark : Mark} {occurrence : Occurrence} (hpath : unit'.path = unit.path)
    (hlibrary : unit'.library = unit.library)
    (hoccurrences : unit'.skeleton.occurrences = unit.skeleton.occurrences ++ [occurrence])
    (htraced : mark.Traced unit.path lib' occurrence)
    (hdecls : unit'.declarations = unit.declarations ++ occurrence.target.declaration?.toList)
    (hspaces : unit'.spaces = addAllNew unit.spaces occurrence.target.space?.toList)
    (hreported : unit'.diagnostics.tidy = unit.diagnostics.tidy ++ mark.problem?.toList) :
    unit'.AlignedWith lib' (marks ++ [mark]) := by
  have hsingle {α β : Type} (f : α → Option β) (x : α) : [x].filterMap f = (f x).toList := by
    cases h : f x <;> simp [h]
  refine ⟨?_, ?_, ?_, ?_, ?_⟩
  · rw [hlibrary, aligned.library_eq, grows.id_eq]
  · rw [hoccurrences, hpath]
    exact List.rel_append (aligned.grows grows).traced (.cons htraced .nil)
  · rw [hdecls, hoccurrences, List.filterMap_append, aligned.declarations_eq, hsingle]
  · rw [hspaces, hoccurrences, List.filterMap_append, aligned.spaces_eq, hsingle, addAllNew,
      addAllNew, addAllNew, List.foldl_append]
  · rw [hreported, aligned.reported, List.filterMap_append, hsingle]

/-! ## The two steps -/

/-- The document after its report on the name of a declaration, if there is one. -/
lemma SourceUnit.noted_eq (unit : SourceUnit) (path : List String) (node : DeclNode) :
    (if Tidy.allowedName node.category node.name.name = true then unit
      else unit.report .tidy [Tidy.badName node.name])
      = { unit with diagnostics := { unit.diagnostics with
          tidy := unit.diagnostics.tidy ++ (Mark.declaration path node).problem?.toList } } := by
  by_cases h : Tidy.allowedName node.category node.name.name = true
  · simp [h, Mark.problem?]
  · simp [h, Mark.problem?, report, Diagnostics.append, Diagnostics.changePhase]

lemma Library.Grows.withSpaces_of_opens {lib : Library} {parent id : SpaceId}
    {name document : String} {after : Arena} (opens : lib.spaces.Opens parent
      name document id after) :
    lib.Grows (lib.withSpaces after) := by
  refine ⟨rfl, rfl, fun h => h, fun h => Or.inl h, fun hk => ?_, fun hk => ?_⟩
  · obtain ⟨space', hs', hp, hn, -, hr, -⟩ := opens.keeps hk
    exact ⟨space', hs', hp, hn, hr⟩
  · rcases opens.only hk with h | ⟨rfl, hnone, -, hr, -⟩
    · exact Or.inl h
    · exact Or.inr ⟨hnone, hr⟩

lemma Library.Grows.enlist_of_admits {lib after : Library} {entry : Entry}
    (admits : lib.Admits entry after)
    (hempty : lib.slot? entry.id.category entry.id.index = none)
    (hfresh : entry.skeleton = entry) : lib.Grows (after.enlist entry) := by
  -- The namespace of the record gets an entry in a group, which growth does not speak of.
  have hget (k : SpaceId) : (after.enlist entry).spaces.get? k =
      if entry.space = k then (lib.spaces.get? k).map fun space => space.declare entry.name entry.id
      else lib.spaces.get? k := by
    simp only [Library.enlist, Arena.declare_eq, Arena.get?_adjust, admits.spaces_eq]
  have hslot := admits.slot?_enlist
  refine ⟨admits.id_eq, admits.name_eq, ?_, ?_, ?_, ?_⟩
  · intro category index old hold
    rw [hslot, if_neg, hold]
    rintro ⟨rfl, rfl⟩
    simp [hempty] at hold
  · intro category index entry' h
    rw [hslot] at h
    split at h
    · next hc =>
      obtain rfl : entry = entry' := by simpa using h
      exact Or.inr ⟨by rw [hc.1, hc.2, hempty], hfresh⟩
    · exact Or.inl h
  · intro k space hk
    rw [hget, hk]
    split
    · exact ⟨_, rfl, rfl, rfl, rfl⟩
    · exact ⟨space, rfl, rfl, rfl, rfl⟩
  · intro k space' hk
    rw [hget] at hk
    split at hk
    · obtain ⟨space, hs, -⟩ := Option.map_eq_some_iff.1 hk
      exact Or.inl ⟨space, hs⟩
    · exact Or.inl ⟨space', hk⟩

namespace Workbench

variable {bench bench' bench'' : Workbench} {others : List SourceUnit} {lib lib' lib'' : Library}
  {marks : List Mark}

lemma Stage.id_eq (stage : bench.Stage others lib marks) : lib.id = bench.unit.library :=
  stage.aligned.library_eq.symm

/-- Opening a block. -/
lemma Stage.openBlock (stage : bench.Stage others lib marks) {path : List String}
    {space : SpaceId} (hopen : bench.Open lib path space) (name : Ident) :
    ∃ lib', (Tidy.openBlock space name bench).2.Stage others lib'
        (marks ++ [.space name.range (path ++ [name.name])]) ∧
      bench.Advances lib (Tidy.openBlock space name bench).2 lib' ∧
      (Tidy.openBlock space name bench).2.Open lib' (path ++ [name.name])
        (Tidy.openBlock space name bench).1 := by
  obtain ⟨above, habove⟩ := hopen.1.live
  have opens := stage.hosts.coherent.tree.opens habove name.name bench.unit.path
  simp only [Tidy.openBlock, stage.loaded]
  generalize (lib.spaces.openChild space name.name).1 = id at opens ⊢
  generalize (lib.spaces.openChild space name.name).2.addDocument id bench.unit.path = spaces
    at opens ⊢
  have grows := Library.Grows.withSpaces_of_opens opens
  -- The path to the opened node is the path to its parent, which is kept, and one step more.
  have hpath : (lib.withSpaces spaces).spaces.PathTo (path ++ [name.name]) id := by
    obtain ⟨child, hchild, hparent, hname⟩ := opens.child
    rw [← hname]
    exact .child (grows.pathTo hopen.1) hchild hparent
  have hloaded : (bench.libraries.adjust bench.unit.library fun lib =>
      { lib with spaces }).get? bench.unit.library = some (lib.withSpaces spaces) := by
    rw [LibrarySet.get?_adjust, if_pos rfl, stage.loaded]
    rfl
  have hunlinked : bench.unit.occurrences.filter (fun o => !o.linked) = bench.unit.occurrences :=
    congrArg SourceUnit.occurrences stage.unlinked
  refine ⟨lib.withSpaces spaces, ⟨hloaded, ?_, ?_, ?_, ?_⟩, ?_, hpath, Or.inr ?_⟩
  · exact stage.hosts.opens opens hopen.2 rfl
  · refine stage.aligned.extend grows rfl rfl ?_ ⟨id, rfl, hpath⟩ ?_ rfl ?_
    · have hid : bench.unit.library = (lib.withSpaces spaces).id := stage.aligned.library_eq
      simp [SourceUnit.skeleton, SourceUnit.occur, hid]
    · simp [SourceUnit.occur, Target.declaration?]
    · simp [SourceUnit.occur, Mark.problem?]
  · have hself := stage.unlinked
    simp only [SourceUnit.skeleton] at hself ⊢
    simp only [SourceUnit.occur, List.filter_append, hunlinked]
    rw [← hself]
    simp
  · intro hid
    exact (stage.pool hid).of_slots_eq (fun _ _ => rfl) fun _ => rfl
  · refine ⟨LibrarySet.adjust_congr stage.loaded rfl, grows, rfl, rfl, fun _ => rfl, ?_,
      fun _ _ => ⟨0, IndexPool.draws_zero rfl rfl, by simp [SourceUnit.indices, SourceUnit.occur]⟩⟩
    intro k hk
    exact (mem_addNew _ _ _).2 (Or.inl hk)
  · exact (mem_addNew _ _ _).2 (Or.inr rfl)

/-- The state after a declaration has been put into its slot, into its group and into the
document. -/
def declared (bench : Workbench) (pool : IndexPool) (after : Library) (path : List String)
    (node : DeclNode) (entry : Entry) : Workbench where
  libraries := bench.libraries.adjust bench.unit.library fun _ => after.enlist entry
  pool
  unit := SourceUnit.occur
    { bench.unit with
      declarations := bench.unit.declarations ++ [entry.id]
      diagnostics := { bench.unit.diagnostics with
        tidy := bench.unit.diagnostics.tidy ++ (Mark.declaration path node).problem?.toList } }
    entry.nameRange (.declaration entry.id) true false

lemma get?_declared (hloaded : bench.libraries.get? bench.unit.library = some lib)
    (pool : IndexPool) (after : Library) (path : List String) (node : DeclNode) (entry : Entry) :
    (bench.declared pool after path node entry).libraries.get? bench.unit.library
      = some (after.enlist entry) := by
  rw [declared, LibrarySet.get?_adjust, if_pos rfl, hloaded, Option.map_some]

/-- How a declaration comes by its identity: the pool or the table says the index, and the slot with
this index, the one behind the table at most, is empty and is filled. -/
structure Declares (bench : Workbench) (lib : Library) (category : Category) (found : Option Nat)
    (pool : IndexPool) (entry : Entry) (after : Library) : Prop where
  allocated : bench.pool.allocate lib.id category = .ok (found, pool)
  id_eq : entry.id = ⟨bench.unit.library, category, found.getD (lib.tableSize category), none⟩
  le_size : entry.id.index ≤ lib.tableSize category
  empty : lib.slot? category entry.id.index = none
  admits : lib.Admits entry after
  foreign : lib.id ≠ .project → pool = bench.pool
  own : lib.id = .project → pool.Matches after [] ∧
    bench.pool.next lib category 1 = [entry.id.index] ∧
    ∀ other, bench.pool.Draws lib other (if other = category then 1 else 0) pool after

lemma Declares.category_eq {category : Category} {found : Option Nat} {pool : IndexPool}
    {entry : Entry} {after : Library}
    (declares : bench.Declares lib category found pool entry after) :
    entry.id.category = category := by rw [declares.id_eq]

/-- Taking in a declaration never fails. -/
lemma declaration_eq (hloaded : bench.libraries.get? bench.unit.library = some lib)
    (hid : lib.id = bench.unit.library) (hpool : lib.id = .project → bench.pool.Matches lib [])
    (space : SpaceId) (path : List String) (node : DeclNode) :
    ∃ id found pool after, bench.Declares lib node.category found pool
        (Tidy.entry bench.unit.path space id node) after ∧
      Tidy.declaration space node bench = ⟨bench.declared pool after path node
        (Tidy.entry bench.unit.path space id node), none⟩ := by
  obtain ⟨found, pool, hallocate, hle, hempty, hforeign, hown⟩ :=
    IndexPool.allocate_eq_ok hpool node.isMember_category
  generalize hid' : (⟨bench.unit.library, node.category,
    found.getD (lib.tableSize node.category), none⟩ : DeclId) = id
  have hentry : (Tidy.entry bench.unit.path space id node).id = id := rfl
  have hcategory : id.category = node.category := by rw [← hid']
  have hindex : found.getD (lib.tableSize node.category) = id.index := by rw [← hid']
  rw [hindex] at hle hempty hown
  obtain ⟨after, hinsert, admits⟩ := lib.insert_admits (Tidy.entry bench.unit.path space id node)
    (by rw [hentry, hcategory]; exact node.isMember_category)
    (by rw [hentry, hcategory]; exact hle) (by rw [hentry, hcategory]; exact hempty)
  refine ⟨id, found, pool, after, ⟨hallocate, hentry.trans hid'.symm, hle, hempty, admits,
    hforeign, hown _ after admits hcategory rfl⟩, ?_⟩
  -- The entry is the one that the node stands for, whether its name is allowed or not.
  have hsame : ({ Entry.new node.name bench.unit.path space id node.visibility with
      valid := Tidy.allowedName node.category node.name.name } : Entry)
      = Tidy.entry bench.unit.path space id node := rfl
  rw [hid] at hallocate
  simp only [Tidy.declaration, hloaded, hallocate, hid']
  rw [hsame, bench.unit.noted_eq path node]
  simp only [Tidy.store, hinsert]
  rfl

/-- Taking in a declaration. -/
lemma Stage.declaration (stage : bench.Stage others lib marks) {path : List String}
    {space : SpaceId} (hopen : bench.Open lib path space) (node : DeclNode) :
    ∃ bench' lib', Tidy.declaration space node bench = ⟨bench', none⟩ ∧
      bench'.Stage others lib' (marks ++ [.declaration path node]) ∧
      bench.Advances lib bench' lib' := by
  obtain ⟨id, found, pool, after, declares, hstep⟩ :=
    declaration_eq stage.loaded stage.id_eq stage.pool space path node
  generalize he : Tidy.entry bench.unit.path space id node = entry at declares hstep
  have hcategory := declares.category_eq
  have hempty : lib.slot? entry.id.category entry.id.index = none := by
    rw [hcategory]
    exact declares.empty
  -- All that tidying writes into a record is in its skeleton, so the record is its own skeleton.
  have hfresh : entry.skeleton = entry := by rw [← he]; rfl
  have hlib : entry.id.library = lib.id := by rw [declares.id_eq, stage.id_eq]
  have admits := declares.admits
  have grows := Library.Grows.enlist_of_admits admits hempty hfresh
  refine ⟨_, after.enlist entry, hstep, ⟨?_, ?_, ?_, ?_, ?_⟩, ?_⟩
  · exact get?_declared stage.loaded ..
  · refine stage.hosts.enlist admits hlib (by rw [declares.id_eq])
      (by rw [hcategory]; exact node.isMember_category) hempty (by rw [← he]; rfl) ?_ rfl
    rw [← he]
    exact hopen.2
  · have htraced : (Mark.declaration path node).Traced bench.unit.path (after.enlist entry)
        ⟨node.name.range, .declaration entry.id, true, false⟩ := by
      refine ⟨entry.id, space, entry, rfl, hcategory, grows.pathTo hopen.1, ?_, ?_⟩
      · exact (admits.slot?_eq _ _).trans (if_pos ⟨rfl, rfl⟩)
      · rw [hfresh, ← he]
        rfl
    refine stage.aligned.extend grows rfl rfl ?_ htraced rfl ?_ rfl
    · rw [← he]
      simp [declared, SourceUnit.skeleton, SourceUnit.occur, Tidy.entry, Entry.new, Symbol.declare]
    · simp [declared, SourceUnit.occur, Target.space?, addAllNew]
  · have hself := stage.unlinked
    simp only [declared, SourceUnit.skeleton, SourceUnit.occur] at hself ⊢
    rw [← hself]
    simp
  · intro hproject
    exact (declares.own (admits.id_eq.symm.trans hproject)).1.of_slots_eq
      (fun _ _ => rfl) fun _ => rfl
  · refine ⟨rfl, grows, rfl, rfl, declares.foreign, fun _ hk => hk, fun hproject category => ?_⟩
    obtain ⟨-, hnext, hdraws⟩ := declares.own hproject
    refine ⟨_, ⟨(hdraws category).free_eq, (hdraws category).tableSize_eq⟩, ?_⟩
    by_cases hc : category = node.category
    · subst hc
      simp [declared, SourceUnit.indices, SourceUnit.occur, hcategory, hnext]
    · simp [declared, SourceUnit.indices, SourceUnit.occur, hcategory, hc, Ne.symm hc]

/-! ## Whole trees -/

lemma Stage.declarations (stage : bench.Stage others lib marks) {path : List String}
    {space : SpaceId} (hopen : bench.Open lib path space) (nodes : List DeclNode) :
    ∃ bench' lib', Outcome.forEach (Tidy.declaration space) nodes bench = ⟨bench', none⟩ ∧
      bench'.Stage others lib' (marks ++ nodes.map (Mark.declaration path)) ∧
      bench.Advances lib bench' lib' := by
  induction nodes generalizing bench lib marks with
  | nil =>
    rw [List.map_nil, List.append_nil]
    exact ⟨bench, lib, rfl, stage, stage.advances_refl⟩
  | cons node rest ih =>
    obtain ⟨bench₁, lib₁, hstep, stage₁, advances₁⟩ := stage.declaration hopen node
    obtain ⟨bench₂, lib₂, hrest, stage₂, advances₂⟩ := ih stage₁ (hopen.advances advances₁)
    refine ⟨bench₂, lib₂, ?_, ?_, advances₁.trans advances₂⟩
    · rw [Outcome.forEach, hstep, Outcome.andThen_of_none, hrest]
    · simpa using stage₂

mutual

/-- Tidying a block meets the marks of the block. -/
theorem Stage.block (node : SpaceNode) {bench : Workbench} {lib : Library} {marks : List Mark}
    (stage : bench.Stage others lib marks) {path : List String} {space : SpaceId}
    (hopen : bench.Open lib path space) :
    ∃ bench' lib', Tidy.block space node bench = ⟨bench', none⟩ ∧
      bench'.Stage others lib' (marks ++ node.marks path) ∧ bench.Advances lib bench' lib' :=
  match node with
  | ⟨_, _, children, declarations⟩ => by
    obtain ⟨bench₁, lib₁, hblocks, stage₁, advances₁⟩ := Stage.blocks children stage hopen
    obtain ⟨bench₂, lib₂, hdecls, stage₂, advances₂⟩ :=
      stage₁.declarations (hopen.advances advances₁) declarations
    refine ⟨bench₂, lib₂, ?_, ?_, advances₁.trans advances₂⟩
    · rw [Tidy.block, hblocks, Outcome.andThen_of_none, hdecls]
    · rw [SpaceNode.marks, ← List.append_assoc]
      exact stage₂

theorem Stage.blocks (children : List SpaceNode) {bench : Workbench} {lib : Library}
    {marks : List Mark} (stage : bench.Stage others lib marks) {path : List String}
    {space : SpaceId} (hopen : bench.Open lib path space) :
    ∃ bench' lib', Tidy.blocks space children bench = ⟨bench', none⟩ ∧
      bench'.Stage others lib' (marks ++ SpaceNode.marksOf path children) ∧
      bench.Advances lib bench' lib' :=
  match children with
  | [] => by
    rw [SpaceNode.marksOf, List.append_nil]
    exact ⟨bench, lib, by rw [Tidy.blocks], stage, stage.advances_refl⟩
  | child :: rest => by
    -- Along the list of blocks, each block starts at the stage that the one before has left.
    cases hname : child.name with
    | none =>
      obtain ⟨bench₁, lib₁, hchild, stage₁, advances₁⟩ := Stage.block child stage hopen
      obtain ⟨bench₂, lib₂, hrest, stage₂, advances₂⟩ :=
        Stage.blocks rest stage₁ (hopen.advances advances₁)
      refine ⟨bench₂, lib₂, ?_, ?_, advances₁.trans advances₂⟩
      · simp only [Tidy.blocks, hname, hchild, Outcome.andThen_of_none, hrest]
      · simpa [SpaceNode.marksOf, hname] using stage₂
    | some name =>
      obtain ⟨lib₀, stage₀, advances₀, hopen₀⟩ := stage.openBlock hopen name
      obtain ⟨bench₁, lib₁, hchild, stage₁, advances₁⟩ := Stage.block child stage₀ hopen₀
      have advances := advances₀.trans advances₁
      obtain ⟨bench₂, lib₂, hrest, stage₂, advances₂⟩ :=
        Stage.blocks rest stage₁ (hopen.advances advances)
      refine ⟨bench₂, lib₂, ?_, ?_, advances.trans advances₂⟩
      · simp only [Tidy.blocks, hname, hchild, Outcome.andThen_of_none, hrest]
      · simpa [SpaceNode.marksOf, hname] using stage₂

end

/-- Tidying a new document meets all marks of its tree and no fault. -/
theorem tidy_eq {set : LibrarySet} {pool : IndexPool} {tree : FileTree} {library : LibraryId}
    (hloaded : set.get? library = some lib) (hid : lib.id = library) (hosts : lib.Hosts others)
    (hpool : lib.id = .project → pool.Matches lib []) :
    ∃ bench lib', tidy ⟨set, pool, .new tree library⟩ = ⟨bench, none⟩ ∧
      bench.Stage others lib' (tree.root.marks []) ∧
      Advances ⟨set, pool, .new tree library⟩ lib bench lib' := by
  have stage : Stage ⟨set, pool, .new tree library⟩ others lib [] := by
    refine ⟨hloaded, (Library.hosts_cons_idle_iff rfl rfl).2 hosts, ?_, rfl, hpool⟩
    exact ⟨hid.symm, .nil, rfl, rfl, rfl⟩
  have hopen : Open ⟨set, pool, .new tree library⟩ lib [] Arena.root := by
    obtain ⟨root, hroot, -⟩ := hosts.coherent.tree.root_live
    exact ⟨.root hroot, Or.inl rfl⟩
  obtain ⟨bench, lib', hblock, stage', advances⟩ := Stage.block tree.root stage hopen
  refine ⟨bench, lib', ?_, stage', advances⟩
  rw [← hblock]
  simp only [tidy, SourceUnit.new, hloaded]
  rfl

end Workbench

end SymbolGraph
