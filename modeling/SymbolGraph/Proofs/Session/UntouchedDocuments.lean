import SymbolGraph.Proofs.Linking.DocumentStages
import SymbolGraph.Proofs.Renumbering.Correspondence
import SymbolGraph.Proofs.Session.LoadedLibraries
import SymbolGraph.Proofs.Session.RereadDocuments

/-!
# Documents that a rebuild does not touch

A document that waits for no edit is unlinked and linked again by a rebuild, while indices and slots
that others have left are handed out around it.  Its declarations and namespaces stay where they are
all the same: teardown takes nothing of it, tidying fills empty slots only, and no other step
changes a skeleton (`SourceUnit.Stays`).

Its members are another matter, since they are thrown away and declared anew.  A document is
*enrolled* if the members of its records are those that its tree declares, in order; the roll of a
record depends on nothing but the tree and the record's own name and place.  Every rebuild enrolls
every document of the project, and nothing else changes a roll, so the rolls before and after a
rebuild agree (`Session.untouched_documents_kept`).
-/

namespace SymbolGraph

/-! ## Full names -/

namespace Arena

variable {arena : Arena}

/-- The chain from a namespace to the root spells its place, whatever else there is to walk on. -/
lemma PathTo.names_chain (tree : arena.IsTree) {path : List String} {id : SpaceId}
    (h : arena.PathTo path id) (fresh : List SpaceId)
    (hfresh : ∀ q k, q <+: path → arena.PathTo q k → k ∈ fresh) :
    (((Walk.preorder arena.parents fresh [id]).filter (· ≠ Arena.root)).filterMap fun space =>
      (arena.get? space).map Namespace.name).reverse = path := by
  induction h generalizing fresh with
  | @root space hspace =>
    have hparents : arena.parents Arena.root = [] := by
      simp [parents, hspace, tree.parent_root hspace]
    have hmem : Arena.root ∈ fresh := hfresh [] Arena.root (List.prefix_refl _) (.root hspace)
    simp [Walk.preorder_cons, hmem, hparents]
  | @child path parent id space hpath hspace hparent ih =>
    have hself : arena.PathTo (path ++ [space.name]) id := .child hpath hspace hparent
    have hmem : id ∈ fresh := hfresh _ id (List.prefix_refl _) hself
    have hroot : id ≠ Arena.root := by
      rintro rfl
      have heq := hself.path_unique tree (.root hspace)
      simp at heq
    have hparents : arena.parents id = [parent] := by simp [parents, hspace, hparent]
    -- The namespace itself is none of those around it, so the walk goes on without it.
    have hrest := ih (fresh.erase id) fun q k hq hk => by
      refine (List.mem_erase_of_ne ?_).2 (hfresh q k (hq.trans (List.prefix_append _ _)) hk)
      rintro rfl
      have hlength := hq.length_le
      rw [hk.path_unique tree hself, List.length_append] at hlength
      simp at hlength
    rw [Walk.preorder_cons, if_pos hmem, hparents, List.singleton_append,
      List.filter_cons_of_pos (by simpa using hroot), List.filterMap_cons, hspace,
      Option.map_some, List.reverse_cons, hrest]

/-- The dotted name of a namespace is its place. -/
lemma PathTo.fullName_eq (tree : arena.IsTree) {path : List String} {id : SpaceId}
    (h : arena.PathTo path id) : arena.fullName id = Dotted.joinNames path := by
  rw [fullName, tree.ancestors_eq_chain, chain, h.names_chain tree]
  exact fun q k _ hk => mem_map_fst_live_iff.2 hk.live

end Arena

/-! ## Declarations and namespaces that stay -/

/-- The declarations and namespaces of a document are in `lib'` what they are in `lib`. -/
structure SourceUnit.Stays (unit : SourceUnit) (lib lib' : Library) : Prop where
  slot : ∀ id ∈ unit.declarations, ∀ entry, lib.slot? id.category id.index = some entry →
    ∃ entry', lib'.slot? id.category id.index = some entry' ∧ entry'.skeleton = entry.skeleton
  pathTo : ∀ {path space}, space ∈ unit.spaces → lib.spaces.PathTo path space →
    lib'.spaces.PathTo path space

namespace SourceUnit.Stays

variable {unit : SourceUnit} {lib lib' lib'' : Library}

lemma refl (unit : SourceUnit) (lib : Library) : unit.Stays lib lib :=
  ⟨fun _ _ entry h => ⟨entry, h, rfl⟩, fun _ h => h⟩

lemma trans (h : unit.Stays lib lib') (k : unit.Stays lib' lib'') : unit.Stays lib lib'' where
  slot id hid entry hslot := by
    obtain ⟨entry', hslot', heq'⟩ := h.slot id hid entry hslot
    obtain ⟨entry'', hslot'', heq''⟩ := k.slot id hid entry' hslot'
    exact ⟨entry'', hslot'', heq''.trans heq'⟩
  pathTo hspace hpath := k.pathTo hspace (h.pathTo hspace hpath)

lemma of_skeleton_eq (h : lib'.skeleton = lib.skeleton) : unit.Stays lib lib' where
  slot id _ entry hslot := by
    have heq := congrArg (fun lib : Library => lib.slot? id.category id.index) h
    simp only [Library.slot?_skeleton, hslot, Option.map_some] at heq
    exact Option.map_eq_some_iff.1 heq
  pathTo _ hpath := Library.pathTo_of_skeleton_eq h.symm hpath

lemma of_grows (h : lib.Grows lib') : unit.Stays lib lib' where
  slot _ _ entry hslot := ⟨entry, h.slot_keep hslot, rfl⟩
  pathTo _ hpath := h.pathTo hpath

/-- What another document loses is not missed. -/
lemma of_sheds {torn : SourceUnit} {others : List SourceUnit} (hosts : lib.Hosts (torn :: others))
    (hosts' : lib'.Hosts others) (hsheds : lib.Sheds torn.declarations lib')
    (hunit : unit ∈ others) : unit.Stays lib lib' where
  slot id hid entry hslot := by
    refine ⟨entry, ?_, rfl⟩
    have heq := (hosts.declared (List.mem_flatMap.2 ⟨unit, List.mem_cons_of_mem _ hunit, hid⟩)).1
    rw [hsheds.slot?_eq, ← heq, if_neg, hslot]
    intro htorn
    have hnodup := hosts.declarations_nodup
    rw [List.flatMap_cons, List.nodup_append] at hnodup
    exact hnodup.2.2 id htorn id (List.mem_flatMap.2 ⟨unit, hunit, hid⟩) rfl
  pathTo hspace hpath := by
    obtain ⟨-, space', hlive⟩ := hosts'.spaces_live hunit hspace
    exact hsheds.pathTo hpath hlive

end SourceUnit.Stays

lemma Library.skeleton_contents (lib : Library) : lib.contents.skeleton = lib.skeleton := by
  simp only [Library.skeleton, contents, view, Arena.skeleton_skeleton, List.map_map]
  congr 1
  refine List.map_congr_left fun entry _ => ?_
  simp only [Function.comp_apply, List.map_map]
  refine congrArg (Prod.mk entry.1) (List.map_congr_left fun slot _ => ?_)
  cases slot <;> rfl

namespace Session

variable {session : Session}

/-- Linking the project anew changes its skeleton nowhere. -/
lemma Sound.skeleton_project_relink (sound : session.Sound)
    (arranged : session.libraries.Arranged session.units) :
    session.relink.libraries.project.skeleton = session.libraries.project.skeleton := by
  obtain ⟨keeps, -⟩ := (sound.keeps ⟨⟨arranged, sound.pool⟩, .refl _⟩).loadImports
    (loadInvariant_contents session.libraries) (importNames session.files)
  unfold Session.relink
  generalize session.loadImports (importNames session.files) = mid at keeps ⊢
  have hcontents : mid.libraries.project.contents = session.libraries.project.contents :=
    Option.some.inj (keeps.holds.2 .project ⟨_, rfl⟩)
  have hloaded : mid.libraries.project.skeleton = session.libraries.project.skeleton := by
    rw [← Library.skeleton_contents, hcontents, Library.skeleton_contents]
  have hlinked := (Linkages.skeleton_link ⟨mid.libraries, mid.files⟩ mid.options).1
  have hproject {set set' : LibrarySet} (h : set'.skeleton = set.skeleton) :
      set'.project.skeleton = set.project.skeleton := congrArg LibrarySet.project h
  rw [libraries_checkProject, hproject (LibrarySet.skeleton_check _ .project)]
  exact (hproject hlinked).trans hloaded

/-- A document that waits for no edit is there after a rebuild, with the declarations and namespaces
that it had. -/
theorem Sound.stays_rebuild (sound : session.Sound)
    (arranged : session.libraries.Arranged session.units) {unit : SourceUnit}
    (hunit : unit ∈ session.untouched) :
    unit.Stays session.libraries.project session.rebuild.1.libraries.project ∧
      ∃ unit' ∈ session.rebuild.1.files, unit'.skeleton = unit.skeleton := by
  obtain ⟨torn, pool, tidied, report, hperm, hcleared, hsound, htidied, hrebuild⟩ :=
    sound.rebuild_eq
  rw [hrebuild]
  constructor
  · -- Step by step: nothing that is torn down belongs to the document, tidying only adds, and
    -- relinking keeps skeletons.
    have hstays : unit.Stays session.libraries.project
        (session.cleared torn pool).libraries.project :=
      sound.cleared_induction hperm pool (fun hskeleton h => h.trans (.of_skeleton_eq hskeleton))
        (fun hothers hosts hosts' hsheds h =>
          h.trans (.of_sheds hosts hosts' hsheds (hothers unit hunit))) (.refl unit _)
    obtain ⟨lib, hlib, hgrows⟩ :=
      @LibrarySet.Grows.grown _ _ _ htidied.grows (session.cleared torn pool).libraries.project rfl
    obtain rfl : tidied.libraries.project = lib := Option.some.inj hlib
    have hrelinked := hsound.skeleton_project_relink
      (sound.arranged_tidied arranged hperm hsound htidied).1
    exact (hstays.trans (.of_grows hgrows)).trans (.of_skeleton_eq hrelinked)
  · obtain ⟨mid, hmid, heq⟩ :=
      SourceUnit.exists_of_skeleton_eq (session.skeleton_cleared torn pool).symm hunit
    obtain ⟨fresh, hfresh, -⟩ := htidied.files_perm
    have htidy : mid ∈ tidied.files := hfresh.mem_iff.1 (List.mem_append_right _ hmid)
    obtain ⟨unit', hunit', heq'⟩ :=
      SourceUnit.exists_of_skeleton_eq hsound.skeleton_relink.symm htidy
    exact ⟨unit', hunit', heq'.symm.trans heq.symm⟩

end Session

/-! ## Rolls -/

/-- The members of a declaration in a category, without what linking their signatures finds. -/
def Entry.roll (entry : Entry) (category : Category) : Option (List Member) :=
  (entry.body.members? category).map (List.map Member.header)

/-- The members that a node declares in a category, for the record of its declaration. -/
def DeclNode.roll (node : DeclNode) (document : String) (owner : Entry) (category : Category) :
    Option (List Member) :=
  if category.owner? = some owner.id.category then
    some ((node.memberNodes.filter fun m => m.category = category).map fun m =>
      (LinkMembers.member document owner.id owner m).header)
  else none

/-- The roll of a node depends on the header of the record only. -/
lemma DeclNode.roll_of_skeleton_eq (node : DeclNode) (document : String) {owner owner' : Entry}
    (h : owner'.skeleton = owner.skeleton) : node.roll document owner'
      = node.roll document owner := by
  have hskeleton (owner : Entry) : node.roll document owner.skeleton
      = node.roll document owner := rfl
  rw [← hskeleton owner', h, hskeleton]

/-- The header and the rolls of a declaration. -/
def Entry.front (entry : Entry) : Entry × (Category → Option (List Member)) :=
  (entry.skeleton, entry.roll)

lemma Entry.front_core (entry : Entry) : entry.core.front = entry.front := by
  refine Prod.ext rfl (funext fun category => ?_)
  simp only [front, roll, core, Symbol.map, Body.members?_core, Option.map_map]
  congr 1
  funext list
  simp [Member.header_core]

lemma Entry.front_content (entry : Entry) : entry.content.front = entry.front := by
  rw [← front_core, entry.core_content, front_core]

/-- An edit of a member that keeps its header keeps the rolls of its owner. -/
lemma Edit.front_atSeat {edit : Edit} {id : DeclId} {entry : Entry}
    (hentry : id.owner? = none → (edit.onEntry entry).front = entry.front)
    (hmember : ∀ m, (edit.onMember m).header = m.header) :
    (edit.atSeat id entry).front = entry.front := by
  unfold atSeat
  split
  · next hnone => exact hentry hnone
  · refine Prod.ext rfl (funext fun category => ?_)
    simp only [Entry.front, Entry.roll, Symbol.map, Body.members?_overMembers]
    split
    · cases entry.body.members? category with
      | none => rfl
      | some list => simp [map_modify_of_eq hmember]
    · rfl

namespace LibrarySet

variable {set set' : LibrarySet} {own : DeclId → Prop}

/-- The header and the rolls of the declaration in a slot. -/
def front? (set : LibrarySet) (library : LibraryId) (category : Category) (index : Nat) :
    Option (Entry × (Category → Option (List Member))) :=
  (set.slot? library category index).map Entry.front

lemma SameCores.front? (h : SameCores own set set') {library : LibraryId} {category : Category}
    {index : Nat} (hown : ¬ own ⟨library, category, index, none⟩) :
    set'.front? library category index = set.front? library category index := by
  have hcore (set : LibrarySet) : set.front? library category index
      = (set.core? library category index).map Entry.front := by
    rw [LibrarySet.front?, core?, Option.map_map]
    exact congrArg (Option.map · _) (funext fun entry => entry.front_core.symm)
  rw [hcore, h.cores _ _ _ hown, hcore]

/-- An update changes what linking knows of a declaration, and no header. -/
lemma Orderly.front?_update (orderly : set.Orderly) {update : Update} (fits : update.Fits)
    (library : LibraryId) (category : Category) (index : Nat) :
    (update.apply set).front? library category index = set.front? library category index := by
  -- A top-level declaration that owns nothing has no member lists to lose.
  have hnone {target : DeclId} {entry : Entry} (hfits : target.category.OwnsNothing)
      (htop : target.owner? = none)
      (hslot : set.slot? target.library target.seat.1 target.seat.2 = some entry) :
      entry.roll = fun _ => none := by
    funext c
    cases hc : entry.body.members? c with
    | none => simp [Entry.roll, hc]
    | some list =>
      have htags : entry.tags.members c = some (list.map fun m => (m.id, m.references)) := by
        simp [Entry.tags, Body.tags, hc]
      have howned := (orderly.tags (tags?_of_slot? hslot)).owned htags
      simp only [DeclId.seat, htop] at howned
      exact absurd howned (hfits c)
  have hseat (entry : Entry)
      (hslot : set.slot? update.target.library update.target.seat.1 update.target.seat.2
        = some entry) : (update.edit.atSeat update.target entry).front = entry.front := by
    cases update with
    | «variable» target info =>
      refine Edit.front_atSeat (fun htop => Prod.ext rfl ?_) fun _ => rfl
      exact (hnone fits htop hslot).symm
    | callable target params returns =>
      refine Edit.front_atSeat (fun _ => Prod.ext rfl (funext fun c => ?_)) fun _ => rfl
      simp only [Entry.front, Entry.roll, Update.edit, Edit.callable, Symbol.map]
      cases entry.body <;> cases c <;> rfl
    | task target returns =>
      refine Edit.front_atSeat (fun htop => Prod.ext rfl ?_) fun _ => rfl
      exact (hnone fits htop hslot).symm
    | inheritance target parent inherits =>
      refine Edit.front_atSeat (fun _ => Prod.ext rfl (funext fun c => ?_)) fun _ => rfl
      simp only [Entry.front, Entry.roll, Update.edit, Edit.body, Symbol.map]
      cases entry.body <;> cases c <;> rfl
  rw [update.apply_eq, front?, slot?_edit orderly.identified, front?]
  split
  · next h =>
    cases hslot : set.slot? library category index with
    | none => rfl
    | some entry => simp [hseat entry (by rw [h.1, h.2]; exact hslot)]
  · rfl

lemma Orderly.front?_updates (orderly : set.Orderly) {updates : List Update}
    (hfits : ∀ update ∈ updates, update.Fits) (library : LibraryId) (category : Category)
    (index : Nat) : (updates.foldl Update.apply set).front? library category index
      = set.front? library category index := by
  induction updates generalizing set with
  | nil => rfl
  | cons update rest ih =>
    have hfirst := hfits update (List.mem_cons_self ..)
    rw [List.foldl_cons, ih ((sameTags_update orderly hfirst).orderly orderly)
      fun other hother => hfits other (List.mem_cons_of_mem _ hother)]
    exact orderly.front?_update hfirst library category index

end LibrarySet

/-! ## Enrolled documents -/

/-- The members of the document's records are those that its tree declares. -/
def SourceUnit.Enrolled (unit : SourceUnit) (set : LibrarySet) : Prop :=
  ∀ id node, (id, node) ∈ unit.declarations.zip unit.nodes →
    ∃ entry, set.slot? id.library id.category id.index = some entry ∧
      entry.roll = node.roll unit.path entry

lemma SourceUnit.Enrolled.congr {set set' : LibrarySet} {unit unit' : SourceUnit}
    (enrolled : unit.Enrolled set) (hunit : unit'.skeleton = unit.skeleton)
    (hfront : ∀ id ∈ unit.declarations, set'.front? id.library id.category id.index
      = set.front? id.library id.category id.index) : unit'.Enrolled set' := by
  have htree := SourceUnit.tree_of_skeleton_eq hunit
  intro id node hpair
  rw [SourceUnit.declarations_of_skeleton_eq hunit, SourceUnit.nodes, htree] at hpair
  obtain ⟨entry, hslot, hroll⟩ := enrolled id node hpair
  have heq := hfront id (List.of_mem_zip hpair).1
  rw [LibrarySet.front?, LibrarySet.front?, hslot, Option.map_some] at heq
  obtain ⟨entry', hslot', hsame⟩ := Option.map_eq_some_iff.1 heq
  obtain ⟨hskeleton, hrolls⟩ := Prod.mk.inj hsame
  refine ⟨entry', hslot', ?_⟩
  rw [hrolls, hroll, SourceUnit.path, SourceUnit.path, htree]
  exact (node.roll_of_skeleton_eq _ hskeleton).symm

namespace Linkage

variable {state : Linkage} {others : List SourceUnit}

/-- Writing findings down changes no header. -/
lemma front?_apply (arranged : state.libraries.Arranged (state.unit :: others))
    {near : LibraryId → Prop} {found : Findings} {own : List DeclId}
    (among : found.Among state.libraries near state.unit.path own) (library : LibraryId)
    (category : Category) (index : Nat) : (state.apply found).libraries.front?
      library category index
      = state.libraries.front? library category index := by
  have hfits : ∀ update ∈ found.updates, update.Fits := fun update h => (among.updates h).1
  have horderly := (LibrarySet.KeepsOrder.foldl found.updates (fun _ orderly update hupdate =>
    (LibrarySet.sameTags_update orderly (hfits update hupdate)).keepsOrder orderly)
      arranged.orderly).orderly
  have htraces := @sameCores_traces state (fun _ => False) found horderly.identified
  rw [htraces.front? fun h => h, arranged.orderly.front?_updates hfits]

/-- Declaring the members of one document changes no header of the declarations of another. -/
lemma front?_declareMembers_other (arranged : state.libraries.Arranged (state.unit :: others))
    {other : SourceUnit} (hother : other ∈ others) {id : DeclId} (hid : id ∈ other.declarations) :
    state.declareMembers.libraries.front? id.library id.category id.index
      = state.libraries.front? id.library id.category id.index := by
  have hcores : LibrarySet.SameCores (· ∈ state.unit.declarations) state.libraries
      state.declareMembers.libraries :=
    sameCores_declareMembers arranged.orderly.identified fun own hown => by
      obtain ⟨heq, htop, -⟩ := arranged.settled.declared List.mem_cons_self hown
      rw [DeclId.seat_of_top htop, congrArg DeclId.library heq, ← heq]
      exact hown
  refine hcores.front? fun hown => ?_
  obtain ⟨heq, -⟩ := arranged.settled.declared (List.mem_cons_of_mem _ hother) hid
  rw [congrArg DeclId.library heq, ← heq] at hown
  exact arranged.settled.disjoint hother hown hid

/-- Declaring its members enrolls a document. -/
lemma enrolled_declareMembers (arranged : state.libraries.Arranged (state.unit :: others))
    (undeclared : state.unit.Undeclared) :
    state.declareMembers.unit.Enrolled state.declareMembers.libraries := by
  have hunit := (sameSkeleton_declareMembers state).2
  have htree := SourceUnit.tree_of_skeleton_eq hunit
  intro id node hpair
  rw [SourceUnit.declarations_of_skeleton_eq hunit, SourceUnit.nodes, htree] at hpair
  have hid : id ∈ state.unit.declarations := (List.of_mem_zip hpair).1
  obtain ⟨heq, htop, entry, hentry, hentryId⟩ :=
    arranged.settled.declared (List.mem_cons_self ..) hid
  have hslot : state.libraries.slot? id.library id.category id.index = some entry := by
    rw [congrArg DeclId.library heq]
    exact hentry
  refine ⟨_, slot?_declareMembers arranged.settled arranged.orderly.identified hpair hslot, ?_⟩
  have horderly := arranged.orderly.tags (LibrarySet.tags?_of_slot? hslot)
  have hbare : entry.tags.Bare := arranged.bare (List.mem_cons_self ..) undeclared hid _
    (LibrarySet.tags?_of_slot? hslot)
  funext category
  simp only [Entry.roll, Symbol.map, LinkMembers.members?_addMembers, LinkMembers.filter_members,
    DeclNode.roll, SourceUnit.path, htree, hentryId]
  -- A bare record has an empty list for each kind of member that it can own, and the list gets the
  -- members of the node.
  cases hlist : entry.body.members? category with
  | none =>
    rw [if_neg]
    · rfl
    · intro howner
      obtain ⟨list, htags⟩ := horderly.complete howner
      simp [Entry.tags, Body.tags, hlist] at htags
  | some list =>
    have htags : entry.tags.members category = some (list.map fun m => (m.id, m.references)) := by
      simp [Entry.tags, Body.tags, hlist]
    obtain rfl : list = [] := List.map_eq_nil_iff.1 (hbare htags)
    rw [if_pos (horderly.owned htags)]
    simp only [Option.map_some, List.nil_append, List.map_map]
    rfl

/-- Declaring the members of one document does not change those of another. -/
lemma enrolled_declareMembers_other (arranged : state.libraries.Arranged (state.unit :: others))
    {other : SourceUnit} (hother : other ∈ others) (enrolled : other.Enrolled state.libraries) :
    other.Enrolled state.declareMembers.libraries :=
  enrolled.congr rfl fun _ hid => front?_declareMembers_other arranged hother hid

/-- Writing findings down changes no header, so every document stays enrolled. -/
lemma enrolled_apply (arranged : state.libraries.Arranged (state.unit :: others))
    {near : LibraryId → Prop} {found : Findings} {own : List DeclId}
    (among : found.Among state.libraries near state.unit.path own)
    (enrolled : state.unit.Enrolled state.libraries) :
    (state.apply found).libraries.Arranged ((state.apply found).unit :: others) ∧
      (state.apply found).unit.Enrolled (state.apply found).libraries ∧
      ∀ other : SourceUnit, other.Enrolled state.libraries →
        other.Enrolled (state.apply found).libraries := by
  have hfront := front?_apply arranged among
  exact ⟨arranged_apply arranged among,
    enrolled.congr (sameSkeleton_apply state found).2 fun id _ => hfront _ _ _,
    fun other h => h.congr rfl fun id _ => hfront _ _ _⟩

end Linkage

/-- Linking documents of which nothing has been declared enrolls them. -/
lemma Linkages.enrolled_link {set : LibrarySet} {batch others : List SourceUnit}
    (arranged : set.Arranged (batch ++ others)) (hbatch : ∀ unit ∈ batch, unit.Undeclared)
    (options : LinkOptions) : ∀ unit ∈ (Linkages.link ⟨set, batch⟩ options).units,
      unit.Enrolled (Linkages.link ⟨set, batch⟩ options).libraries := by
  obtain ⟨harranged₁, hunits₁⟩ := each_induction Linkage.linkImports LibrarySet.Arranged
    SourceUnit.Undeclared SourceUnit.Undeclared LibrarySet.Arranged.perm
    (fun {set unit others} arranged undeclared =>
      ⟨@Linkage.arranged_linkImports ⟨set, unit⟩ others arranged,
        @Linkage.undeclared_linkImports ⟨set, unit⟩ undeclared⟩) arranged hbatch
  -- The second pass enrolls the members; the others leave the rolls alone.
  obtain ⟨harranged₂, hunits₂, -⟩ := each_established Linkage.declareMembers LibrarySet.Arranged
    (fun _ => SourceUnit.Undeclared) (fun set unit => unit.Enrolled set) LibrarySet.Arranged.perm
    (fun {set unit others} arranged undeclared =>
      ⟨@Linkage.arranged_declareMembers ⟨set, unit⟩ others arranged undeclared,
        @Linkage.enrolled_declareMembers ⟨set, unit⟩ others arranged undeclared,
        fun other hother => ⟨fun h => h,
          @Linkage.enrolled_declareMembers_other ⟨set, unit⟩ others arranged other hother⟩⟩)
    harranged₁ hunits₁
  obtain ⟨harranged₃, hunits₃, -⟩ := each_established (·.linkBases options) LibrarySet.Arranged
    (fun set unit => unit.Enrolled set) (fun set unit => unit.Enrolled set) LibrarySet.Arranged.perm
    (fun {set unit others} arranged enrolled => by
      obtain ⟨harranged, hunit, hother⟩ := @Linkage.enrolled_apply ⟨set, unit⟩ others arranged _ _ _
        ((Linkage.among_everywhere ⟨set, unit⟩).foundBases arranged options) enrolled
      exact ⟨harranged, hunit, fun other _ => ⟨hother other, hother other⟩⟩) harranged₂ hunits₂
  exact (each_established (·.linkSignatures options) LibrarySet.Arranged
    (fun set unit => unit.Enrolled set) (fun set unit => unit.Enrolled set) LibrarySet.Arranged.perm
    (fun {set unit others} arranged enrolled => by
      obtain ⟨harranged, hunit, hother⟩ := @Linkage.enrolled_apply ⟨set, unit⟩ others arranged _ _ _
        ((Linkage.among_everywhere ⟨set, unit⟩).foundSignatures arranged options) enrolled
      exact ⟨harranged, hunit, fun other _ => ⟨hother other, hother other⟩⟩)
    harranged₃ hunits₃).2.1

namespace Session

variable {session : Session}

/-- All documents of the project are enrolled. -/
def Enrolled (session : Session) : Prop :=
  ∀ unit ∈ session.files, unit.Enrolled session.libraries

lemma Enrolled.checkProject (enrolled : session.Enrolled)
    (hid : session.libraries.Identified) : session.checkProject.Enrolled := by
  have hcores := @LibrarySet.sameCores_check session.libraries (fun _ => False) hid .project
  intro unit' hunit'
  obtain ⟨unit, hunit, hskeleton⟩ :=
    SourceUnit.exists_of_skeleton_eq session.skeleton_checkProject hunit'
  rw [libraries_checkProject]
  exact (enrolled unit hunit).congr hskeleton fun id _ => hcores.front? fun h => h

/-- Every rebuild enrolls the documents of the project. -/
theorem Sound.enrolled_rebuild (sound : session.Sound)
    (arranged : session.libraries.Arranged session.units) : session.rebuild.1.Enrolled := by
  obtain ⟨ready, harranged, hundeclared, hrebuild⟩ := sound.exists_ready arranged
  have hlinked := Linkages.arranged_link harranged hundeclared ready.options
  rw [hrebuild]
  exact Enrolled.checkProject (Linkages.enrolled_link harranged hundeclared ready.options)
    hlinked.orderly.identified

/-- A load changes no roll of the project. -/
lemma Enrolled.load (enrolled : session.Enrolled) (sound : session.Sound)
    (arranged : session.libraries.Arranged session.units) (name : String) :
    (session.loadLibrary name).1.Enrolled := by
  rcases session.loadLibrary_fst name with hload | hload
  · rw [hload]
    exact enrolled
  · obtain ⟨after, hafter, keeps, loaded, -⟩ :=
      (sound.keeps ⟨⟨arranged, sound.pool⟩, .refl _⟩).load
        (loadInvariant_contents session.libraries) session.manifest.libraries.length name
    rw [hload, hafter]
    have hcontents : after.libraries.project.contents = session.libraries.project.contents :=
      Option.some.inj (keeps.holds.2 .project ⟨_, rfl⟩)
    have hfront (lib : Library) (category : Category) (index : Nat) :
        (lib.slot? category index).map Entry.front
          = (lib.contents.slot? category index).map Entry.front := by
      rw [Library.contents, Library.slot?_view, Option.map_map]
      exact congrArg (Option.map · _) (funext fun entry => entry.front_content.symm)
    intro unit hunit
    rw [loaded.files_eq] at hunit
    refine (enrolled unit hunit).congr rfl fun id hid => ?_
    have heq := (sound.settled.declared_project (List.mem_append_left _ hunit)
      (sound.files_library unit hunit) hid).1
    rw [congrArg DeclId.library heq]
    exact (hfront ..).trans ((congrArg (fun lib : Library =>
      (lib.slot? id.category id.index).map Entry.front) hcontents).trans (hfront ..).symm)

theorem enrolled_run (manifest : Manifest) (sources : Sources) :
    ∃ initial, Session.start manifest sources = .ok initial ∧ ∀ requests : List Request,
      (initial.run requests).Sound ∧
        (initial.run requests).libraries.Arranged (initial.run requests).units ∧
        (initial.run requests).Enrolled := by
  obtain ⟨initial, hstart, hrun⟩ := arranged_run manifest sources
  obtain ⟨initial', hstart', -, loaded⟩ := Keeps.start loadInvariant_settled manifest sources
    ⟨LibrarySet.settled_new .., IndexPool.matches_new manifest.name⟩
  obtain rfl : initial = initial' := by simpa [hstart] using hstart'
  have hfiles : initial.files = [] := loaded.files_eq
  refine ⟨initial, hstart, run_induction (P := fun session => session.Sound ∧
    session.libraries.Arranged session.units ∧ session.Enrolled)
    ⟨(hrun []).1, (hrun []).2, by simp [Enrolled, hfiles]⟩ ?_⟩
  rintro session request ⟨sound, arranged, enrolled⟩
  refine ⟨sound.perform request, sound.arranged_perform arranged request, ?_⟩
  cases request with
  | rebuild => exact sound.enrolled_rebuild arranged
  | load name => exact enrolled.load sound arranged name
  | insert tree => exact enrolled
  | erase path => exact enrolled
  | insertLibrary name trees => exact enrolled
  | changed path => exact enrolled
  | dropped path => exact enrolled

/-- A rebuild changes neither headers nor rolls of a document that waits for no edit. -/
theorem Sound.front_rebuild (sound : session.Sound)
    (arranged : session.libraries.Arranged session.units) (enrolled : session.Enrolled)
    {unit : SourceUnit} (hunit : unit ∈ session.untouched) {id : DeclId}
    (hid : id ∈ unit.declarations) :
    ∃ entry entry', session.libraries.slot? .project id.category id.index = some entry ∧
      session.rebuild.1.libraries.slot? .project id.category id.index = some entry' ∧
      entry'.front = entry.front := by
  have hfile : unit ∈ session.files := (List.mem_filter.1 hunit).1
  obtain ⟨hstays, unit', hunit', hskeleton⟩ := sound.stays_rebuild arranged hunit
  have htree := SourceUnit.tree_of_skeleton_eq hskeleton
  have hpath : unit'.path = unit.path := congrArg FileTree.path htree
  have hlibrary : id.library = .project := congrArg DeclId.library (sound.settled.declared_project
    (List.mem_append_left _ hfile) (sound.files_library unit hfile) hid).1
  obtain ⟨node, hpair⟩ := sound.settled.exists_node (List.mem_append_left _ hfile) hid
  obtain ⟨entry, hslot, hroll⟩ := enrolled unit hfile id node hpair
  obtain ⟨entry', hslot', hroll'⟩ := sound.enrolled_rebuild arranged unit' hunit' id node
    (by rwa [SourceUnit.declarations_of_skeleton_eq hskeleton, SourceUnit.nodes, htree])
  rw [hlibrary] at hslot hslot'
  obtain ⟨entry'', hslot'', hheader⟩ := hstays.slot id hid entry hslot
  obtain rfl : entry' = entry'' := Option.some.inj (hslot'.symm.trans hslot'')
  refine ⟨entry, entry', hslot, hslot', Prod.ext hheader ?_⟩
  rw [Entry.front, Entry.front, hroll, hroll', hpath, node.roll_of_skeleton_eq unit.path hheader]

/-- In every state of every run, a document that waits for no edit is there after a rebuild with the
same declarations and namespaces.  Each of these declarations has the same header, that is name,
place, visibility and validity, and the same members in the same order; and each of these namespaces
has the same dotted name.  What the rebuild makes of other documents does not matter. -/
theorem untouched_documents_kept (manifest : Manifest) (sources : Sources) :
    ∃ initial, Session.start manifest sources = .ok initial ∧
      ∀ (requests : List Request) (path : String) (unit : SourceUnit),
        let session := initial.run requests
        let after := session.rebuild.1
        session.file? path = some unit → path ∉ session.dirty → path ∉ session.removed →
        ∃ unit', after.file? path = some unit' ∧ unit'.declarations = unit.declarations ∧
          unit'.spaces = unit.spaces ∧
          (∀ id ∈ unit.declarations, ∃ entry entry', session.libraries.find? id = some entry ∧
            after.libraries.find? id = some entry' ∧ entry'.skeleton = entry.skeleton ∧
            ∀ category, entry'.roll category = entry.roll category) ∧
          ∀ id ∈ unit.spaces, ∃ space space',
            session.libraries.project.spaces.get? id = some space ∧
            after.libraries.project.spaces.get? id = some space' ∧
            after.libraries.project.spaces.fullName id
              = session.libraries.project.spaces.fullName id := by
  obtain ⟨initial, hstart, hrun⟩ := enrolled_run manifest sources
  refine ⟨initial, hstart, fun requests path unit => ?_⟩
  obtain ⟨sound, arranged, enrolled⟩ := hrun requests
  generalize initial.run requests = session at sound arranged enrolled ⊢
  intro session' after hfile hdirty hremoved
  obtain ⟨hunit, hpath⟩ := file?_some hfile
  -- A document is doomed only if it is dirty or removed.
  have huntouched : unit ∈ session.untouched := by
    refine List.mem_filter.2 ⟨hunit, ?_⟩
    simp only [doomed, hpath, decide_eq_true_eq, List.mem_filter, List.mem_append]
    exact fun h => h.1.elim hdirty hremoved
  obtain ⟨hstays, unit', hunit', hskeleton⟩ := sound.stays_rebuild arranged huntouched
  have hsound : after.Sound := sound.perform .rebuild
  have hdecls := SourceUnit.declarations_of_skeleton_eq hskeleton
  have hspaces : unit'.spaces = unit.spaces := congrArg (·.spaces) hskeleton
  have hpath' : unit'.path = path :=
    (congrArg FileTree.path (SourceUnit.tree_of_skeleton_eq hskeleton)).trans hpath
  refine ⟨unit', hpath' ▸ hsound.file?_path hunit', hdecls, hspaces, ?_, ?_⟩
  · intro id hid
    obtain ⟨hproject, htop⟩ := sound.settled.declared_project (List.mem_append_left _ hunit)
      (sound.files_library unit hunit) hid
    obtain ⟨entry, entry', hslot, hslot', hfront⟩ :=
      sound.front_rebuild arranged enrolled huntouched hid
    obtain ⟨hheader, hroll⟩ := Prod.mk.inj hfront
    refine ⟨entry, entry', ?_, ?_, hheader, congrFun hroll⟩
    · rw [LibrarySet.find?_project arranged.orderly.identified hproject htop, hslot]
    · have arranged' := sound.arranged_rebuild arranged
      rw [LibrarySet.find?_project arranged'.orderly.identified hproject htop, hslot']
  · intro id hid
    obtain ⟨space, hspace⟩ := (sound.hosts.spaces_live hunit hid).2
    obtain ⟨path, hplace⟩ := sound.hosts.coherent.tree.located hspace
    -- A full name is the path to a namespace, and the path is kept.
    have hplace' := hstays.pathTo hid hplace
    obtain ⟨space', hspace'⟩ := hplace'.live
    refine ⟨space, space', hspace, hspace', ?_⟩
    rw [hplace'.fullName_eq hsound.hosts.coherent.tree,
      hplace.fullName_eq sound.hosts.coherent.tree]

/-- Two documents with a class each, of which the first is to be dropped. -/
def neighbourRequests : List Request :=
  [.insert (classTree "a.rk" [] [classAt 1 "A" [] ["F"]]),
    .insert ⟨"b.rk", ⟨none, [], [⟨some (wordAt 0 "inner"), [], [], [classAt 1 "B" [] ["G"]]⟩], []⟩⟩,
    .changed "a.rk", .changed "b.rk", .rebuild, .erase "a.rk", .dropped "a.rk"]

set_option maxRecDepth 20000 in
lemma file?_neighbour :
    (Session.start (.new "demo") { libraries := [("kernel", [])] }).toOption.map (fun initial =>
      let session := initial.run neighbourRequests
      ((session.file? "b.rk").map fun unit => (unit.declarations, unit.spaces), session.dirty,
        session.removed))
      = some (some ([⟨.project, .class, 1, none⟩], [1]), [], ["a.rk"]) := by
  cbv

/-- The second document keeps the index of its class, although a lower one becomes free. -/
theorem untouched_documents_kept_neighbour :
    ∃ initial, Session.start (.new "demo") { libraries := [("kernel", [])] } = .ok initial ∧
      let session := initial.run neighbourRequests
      ∃ unit unit', session.file? "b.rk" = some unit ∧ "b.rk" ∉ session.dirty ∧
        "b.rk" ∉ session.removed ∧ session.rebuild.1.file? "b.rk" = some unit' ∧
        unit'.declarations = [⟨.project, .class, 1, none⟩] ∧ unit'.spaces = [1] := by
  obtain ⟨initial, hstart, hkept⟩ := untouched_documents_kept (.new "demo")
    { libraries := [("kernel", [])] }
  have hrun := file?_neighbour
  rw [hstart] at hrun
  obtain ⟨hunit, hpending⟩ := Prod.mk.inj (Option.some.inj hrun)
  obtain ⟨unit, hfile, hclaims⟩ := Option.map_eq_some_iff.1 hunit
  obtain ⟨hdecls, hspaces⟩ := Prod.mk.inj hclaims
  obtain ⟨hdirty, hremoved⟩ := Prod.mk.inj hpending
  have hdirty' : "b.rk" ∉ (initial.run neighbourRequests).dirty := by rw [hdirty]; simp
  have hremoved' : "b.rk" ∉ (initial.run neighbourRequests).removed := by rw [hremoved]; simp
  obtain ⟨unit', hfile', hdecls', hspaces', -⟩ :=
    hkept neighbourRequests "b.rk" unit hfile hdirty' hremoved'
  exact ⟨initial, hstart, unit, unit', hfile, hdirty', hremoved', hfile', hdecls'.trans hdecls,
    hspaces'.trans hspaces⟩

end Session

end SymbolGraph
