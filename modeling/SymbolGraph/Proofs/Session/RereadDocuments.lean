import Mathlib.Data.List.Nodup
import Mathlib.Data.List.Perm.Subperm
import SymbolGraph.Proofs.Session.ClearedProject

/-!
# Indices of a document that is read again

Tidying hands out the least free indices, so a document that is torn down and read again gets the
least indices among its own and those that were free before.  It gets back its own exactly if they
are below everything that is free in their categories (`Session.reread_declarations_iff`): a lower
index that a removed document has left behind goes to the document that is read next.

Two facts carry the argument.  The declarations of a category stand in a document in the order of
their indices (`SourceUnit.Increasing`), which every rebuild keeps; and the indices of the document,
taken together with the free ones, are what the pool holds once the document is torn down.
-/

namespace SymbolGraph

/-! ## Increasing lists -/

/-- An increasing list that is cut where a smaller one ends starts with the smaller one exactly if
nothing else comes before its last element. -/
lemma take_eq_iff_of_increasing {all own rest : List Nat} (hall : all.Pairwise (· < ·))
    (hown : own.Pairwise (· < ·)) (hrest : rest.Pairwise (· < ·))
    (hmem : ∀ x, x ∈ all ↔ x ∈ rest ∨ x ∈ own) (hdisjoint : ∀ x ∈ own, x ∉ rest) :
    all.take own.length = own ↔ ∀ x ∈ own, ∀ y ∈ rest, x < y := by
  constructor
  · intro htake x hx y hy
    have hsplit : all = own ++ all.drop own.length := by
      rw [← List.take_append_drop own.length all, htake]
      simp
    have hy' : y ∈ all.drop own.length := by
      have hin := (hmem y).2 (Or.inl hy)
      rw [hsplit, List.mem_append] at hin
      exact hin.resolve_left fun h => hdisjoint y h hy
    rw [hsplit] at hall
    exact (List.pairwise_append.1 hall).2.2 x hx y hy'
  · intro hbelow
    have hsorted : (own ++ rest).Pairwise (· < ·) := List.pairwise_append.2 ⟨hown, hrest, hbelow⟩
    have hperm : all.Perm (own ++ rest) := by
      refine (List.perm_ext_iff_of_nodup (nodup_of_pairwise_lt hall)
        (nodup_of_pairwise_lt hsorted)).2 fun x => ?_
      rw [hmem, List.mem_append, or_comm]
    rw [hperm.eq_of_pairwise (fun _ _ _ _ h k => absurd h (Nat.lt_asymm k)) hall hsorted]
    simp

/-- Identities of one library are told apart by their categories and by the indices in each. -/
lemma declarations_eq_of_indices {library : LibraryId} {xs ys : List DeclId}
    (hxs : ∀ id ∈ xs, id = ⟨library, id.category, id.index, none⟩)
    (hys : ∀ id ∈ ys, id = ⟨library, id.category, id.index, none⟩)
    (hcategories : xs.map DeclId.category = ys.map DeclId.category)
    (hindices : ∀ category, (xs.filter fun id => id.category = category).map DeclId.index
      = (ys.filter fun id => id.category = category).map DeclId.index) : xs = ys := by
  induction xs generalizing ys with
  | nil =>
    obtain rfl : ys = [] := by simpa using hcategories.symm
    rfl
  | cons x xs ih =>
    cases ys with
    | nil => simp at hcategories
    | cons y ys =>
      obtain ⟨hcategory, hlater⟩ := List.cons.inj hcategories
      have hindex : x.index = y.index := by
        have h := hindices x.category
        rw [List.filter_cons_of_pos (by simp), List.filter_cons_of_pos (by simp [hcategory])] at h
        exact (List.cons.inj h).1
      have heq : x = y := by
        rw [hxs x (List.mem_cons_self ..), hys y (List.mem_cons_self ..), hcategory, hindex]
      subst heq
      refine congrArg (x :: ·) (ih (fun id h => hxs id (List.mem_cons_of_mem _ h))
        (fun id h => hys id (List.mem_cons_of_mem _ h)) hlater fun category => ?_)
      have h := hindices category
      by_cases hc : x.category = category
      · rw [List.filter_cons_of_pos (by simpa using hc),
          List.filter_cons_of_pos (by simpa using hc)] at h
        exact (List.cons.inj h).2
      · rwa [List.filter_cons_of_neg (by simpa using hc),
          List.filter_cons_of_neg (by simpa using hc)] at h

/-! ## Documents in order -/

namespace SourceUnit

/-- The declarations of each category stand in the order of their indices. -/
def Increasing (unit : SourceUnit) : Prop :=
  ∀ category, (unit.indices category).Pairwise (· < ·)

lemma indices_of_skeleton_eq {unit unit' : SourceUnit} (h : unit'.skeleton = unit.skeleton)
    (category : Category) : unit'.indices category = unit.indices category := by
  rw [indices, indices, declarations_of_skeleton_eq h]

lemma Increasing.of_skeleton_eq {unit unit' : SourceUnit} (increasing : unit.Increasing)
    (h : unit'.skeleton = unit.skeleton) : unit'.Increasing := by
  intro category
  rw [indices_of_skeleton_eq h]
  exact increasing category

end SourceUnit

namespace Session

variable {session : Session}

/-- All documents of the project have their declarations in order. -/
def Increasing (session : Session) : Prop := ∀ unit ∈ session.files, unit.Increasing

lemma Increasing.of_skeleton_eq {session' : Session} (increasing : session.Increasing)
    (h : session'.files.map SourceUnit.skeleton = session.files.map SourceUnit.skeleton) :
    session'.Increasing := by
  intro unit hunit
  obtain ⟨old, hold, hskeleton⟩ := SourceUnit.exists_of_skeleton_eq h hunit
  exact (increasing old hold).of_skeleton_eq hskeleton

lemma skeleton_cleared (session : Session) (torn : List SourceUnit) (pool : IndexPool) :
    (session.cleared torn pool).files.map SourceUnit.skeleton
      = session.untouched.map SourceUnit.skeleton :=
  (Linkages.skeleton_each Linkage.sameSkeleton_unlink _ _).2

theorem Sound.increasing_rebuild (sound : session.Sound) (increasing : session.Increasing) :
    session.rebuild.1.Increasing := by
  obtain ⟨torn, pool, tidied, report, -, hcleared, hsound, htidied, hrebuild⟩ := sound.rebuild_eq
  obtain ⟨fresh, hfresh, -, -, hnext⟩ := htidied.files_perm
  rw [hrebuild]
  refine Increasing.of_skeleton_eq ?_ hsound.skeleton_relink
  intro unit hunit category
  rcases List.mem_append.1 (hfresh.mem_iff.2 hunit) with h | h
  · obtain ⟨n, hindices⟩ := hnext category
    have hsorted := hcleared.pool.next_increasing category n
    rw [← hindices] at hsorted
    exact (List.pairwise_flatMap.1 hsorted).1 unit h
  · obtain ⟨old, hold, hskeleton⟩ :=
      SourceUnit.exists_of_skeleton_eq (session.skeleton_cleared torn pool) h
    exact (increasing old (List.mem_of_mem_filter hold)).of_skeleton_eq hskeleton category

theorem increasing_run (manifest : Manifest) (sources : Sources) :
    ∃ initial, Session.start manifest sources = .ok initial ∧ ∀ requests : List Request,
      (initial.run requests).Sound ∧ (initial.run requests).Increasing := by
  obtain ⟨initial, hstart, keeps, loaded⟩ := Keeps.start loadInvariant_settled manifest sources
    ⟨LibrarySet.settled_new .., IndexPool.matches_new manifest.name⟩
  obtain ⟨initial', hstart', hsound, -⟩ := Sound.start manifest sources
  obtain rfl : initial = initial' := by simpa [hstart] using hstart'
  have hfiles : initial.files = [] := loaded.files_eq
  refine ⟨initial, hstart, run_induction (P := fun session => session.Sound ∧ session.Increasing)
    ⟨hsound, by simp [Increasing, hfiles]⟩ ?_⟩
  intro session request h
  refine ⟨h.1.perform request, ?_⟩
  -- Only a rebuild touches the files of the project; all other requests leave the property alone.
  cases request with
  | rebuild => exact h.1.increasing_rebuild h.2
  | load name =>
    rw [Session.perform]
    rcases session.loadLibrary_fst name with hload | hload
    · rw [hload]
      exact h.2
    · obtain ⟨after, hafter, -, loaded, -⟩ := (h.1.keeps ⟨h.1.settled, h.1.pool⟩).load
        loadInvariant_settled session.manifest.libraries.length name
      rw [hload, hafter, Increasing, loaded.files_eq]
      exact h.2
  | insert tree => exact h.2
  | erase path => exact h.2
  | insertLibrary name trees => exact h.2
  | changed path => exact h.2
  | dropped path => exact h.2

/-! ## Reading one document again -/

/-- A slot of the project is empty if no document lists it. -/
lemma Sound.slot?_eq_none_iff (sound : session.Sound) (category : Category) (index : Nat) :
    session.libraries.project.slot? category index = none ↔
      ∀ unit ∈ session.files, (⟨.project, category, index, none⟩ : DeclId) ∉ unit.declarations := by
  have hid : session.libraries.project.id = .project :=
    @LibrarySet.Settled.id_eq _ _ sound.settled .project _ rfl
  have hmem := @Library.Hosts.mem_declarations _ _ sound.hosts ⟨.project, category, index, none⟩
  rw [List.mem_flatMap] at hmem
  constructor
  · intro hnone unit hunit hdecl
    obtain ⟨entry, hentry, -⟩ := hmem.1 ⟨unit, hunit, hdecl⟩
    rw [hnone] at hentry
    cases hentry
  · intro h
    cases hslot : session.libraries.project.slot? category index with
    | none => rfl
    | some entry =>
      have heq := sound.hosts.coherent.id_eq hslot
      rw [hid] at heq
      obtain ⟨unit, hunit, hdecl⟩ := hmem.2 ⟨entry, hslot, heq⟩
      exact absurd hdecl (h unit hunit)

/-- Clearing the project changes its skeleton only by what the documents that are torn down lose,
one after the other, beside the documents that are not. -/
lemma Sound.cleared_induction (sound : session.Sound) {torn : List SourceUnit}
    (hperm : (torn ++ session.untouched).Perm session.files) (pool : IndexPool)
    {P : Library → Prop} (hskeleton : ∀ {lib lib'}, lib'.skeleton = lib.skeleton → P lib → P lib')
    (hshed : ∀ {lib lib' unit others}, (∀ u ∈ session.untouched, u ∈ others) →
      lib.Hosts (unit :: others) → lib'.Hosts others → lib.Sheds unit.declarations lib' →
      P lib → P lib')
    (h : P session.libraries.project) : P (session.cleared torn pool).libraries.project := by
  obtain ⟨hdetached, -⟩ :=
    Linkages.skeleton_each Linkage.sameSkeleton_detach session.libraries torn
  obtain ⟨hsettled, hlibrary⟩ := sound.settled_detached hperm
  have hpaths := sound.nodup_paths hperm
  have hproject : ∀ u ∈ session.untouched, u.library = .project :=
    fun u hu => sound.files_library u (List.mem_of_mem_filter hu)
  have htorn : ∀ unit ∈ (Linkages.each Linkage.detach session.libraries torn).units,
      unit.library = .project ∧ ∀ u ∈ session.untouched, u ≠ unit := by
    refine fun unit hunit => ⟨hlibrary unit hunit, ?_⟩
    rintro _ hu rfl
    rw [List.map_append, List.nodup_append] at hpaths
    refine hpaths.2.2 _ (List.mem_map_of_mem hunit) _ (List.mem_map_of_mem ?_) rfl
    exact List.mem_filter.2 ⟨List.mem_append_left _ hu, by simpa using hproject _ hu⟩
  obtain ⟨-, -, hdisposed⟩ := Linkages.dispose_induction (fun set units => set.Settled units ∧
      (∀ u ∈ session.untouched, u ∈ units) ∧ P set.project)
    (fun unit => ∀ u ∈ session.untouched, u ≠ unit)
    (fun {set unit others} h hunit hother hdistinct => by
      obtain ⟨hsettled, hstay, hP⟩ := h
      obtain ⟨settled, sheds⟩ := hsettled.dispose hdistinct
      rw [hunit] at sheds
      obtain ⟨lib', hlib', hsheds⟩ := @LibrarySet.Sheds.shed _ _ _ _ sheds set.project rfl
      obtain rfl : (Linkage.dispose ⟨set, unit⟩).libraries.project = lib' := Option.some.inj hlib'
      have hhosts := @LibrarySet.Settled.hosts _ _ hsettled .project set.project rfl
      rw [List.filter_cons_of_pos (by simpa using hunit)] at hhosts
      have hstay' : ∀ u ∈ session.untouched, u ∈ others := fun u hu =>
        (List.mem_cons.1 (hstay u hu)).resolve_left (hother u hu)
      refine ⟨settled, hstay', hshed (fun u hu => ?_) hhosts (settled.hosts hlib') hsheds hP⟩
      exact List.mem_filter.2 ⟨hstay' u hu, by simpa using hproject u hu⟩)
    ⟨hsettled, fun u hu => List.mem_append_right _ (List.mem_append_left _ hu),
      hskeleton (congrArg LibrarySet.project hdetached) h⟩ htorn hpaths
  have hunlinked := (Linkages.skeleton_each Linkage.sameSkeleton_unlink
    (Linkages.each Linkage.dispose (Linkages.each Linkage.detach session.libraries torn).libraries
      (Linkages.each Linkage.detach session.libraries torn).units).libraries session.untouched).1
  exact hskeleton (congrArg LibrarySet.project hunlinked) hdisposed

/-- Clearing the project leaves its tables as long as they were. -/
lemma Sound.tableSize_cleared (sound : session.Sound) {torn : List SourceUnit}
    (hperm : (torn ++ session.untouched).Perm session.files) (pool : IndexPool)
    (category : Category) : (session.cleared torn pool).libraries.project.tableSize category
      = session.libraries.project.tableSize category :=
  sound.cleared_induction hperm pool
    (P := fun lib => lib.tableSize category = session.libraries.project.tableSize category)
    (fun hskeleton h => (Library.tableSize_of_skeleton_eq hskeleton category).trans h)
    (fun _ _ _ hsheds h => (hsheds.tableSize_eq category).trans h) rfl

/-- The declarations of a document of the project have no more to their identities than a category
and an index. -/
lemma Sound.declared (sound : session.Sound) {unit : SourceUnit} (hunit : unit ∈ session.files)
    {decl : DeclId} (h : decl ∈ unit.declarations) :
    decl = ⟨.project, decl.category, decl.index, none⟩ :=
  (sound.settled.declared_project (List.mem_append_left _ hunit)
    (sound.files_library unit hunit) h).1

lemma Sound.mem_indices (sound : session.Sound) {unit : SourceUnit} (hunit : unit ∈ session.files)
    {category : Category} {index : Nat} : index ∈ unit.indices category ↔
      (⟨.project, category, index, none⟩ : DeclId) ∈ unit.declarations := by
  rw [SourceUnit.indices, List.mem_map]
  constructor
  · rintro ⟨decl, hmem, rfl⟩
    obtain ⟨hdecl, hcategory⟩ := List.mem_filter.1 hmem
    obtain rfl : decl.category = category := of_decide_eq_true hcategory
    rwa [← sound.declared hunit hdecl]
  · exact fun h => ⟨_, List.mem_filter.2 ⟨h, by simp⟩, rfl⟩

lemma Sound.nodup_indices (sound : session.Sound) {unit : SourceUnit} (hunit : unit ∈ session.files)
    (category : Category) : (unit.indices category).Nodup := by
  have hdecls := sound.settled.nodup_declarations (List.mem_append_left _ hunit)
  refine (List.nodup_map_iff_inj_on (hdecls.filter _)).2 fun a ha b hb heq => ?_
  obtain ⟨hmine, hcategory⟩ := List.mem_filter.1 ha
  obtain ⟨hmine', hcategory'⟩ := List.mem_filter.1 hb
  have hsame : a.category = b.category := by
    rw [of_decide_eq_true hcategory, of_decide_eq_true hcategory']
  rw [sound.declared hunit hmine, sound.declared hunit hmine', heq, hsame]

/-- The documents that are left when the project is cleared declare what they declared before. -/
lemma forall_mem_cleared {P : List DeclId → Prop} (torn : List SourceUnit) (pool : IndexPool) :
    (∀ unit ∈ (session.cleared torn pool).files, P unit.declarations) ↔
      ∀ unit ∈ session.untouched, P unit.declarations := by
  have hskeleton := session.skeleton_cleared torn pool
  constructor
  · intro h unit hunit
    obtain ⟨unit', hunit', he⟩ := SourceUnit.exists_of_skeleton_eq hskeleton.symm hunit
    rw [SourceUnit.declarations_of_skeleton_eq he]
    exact h unit' hunit'
  · intro h unit hunit
    obtain ⟨unit', hunit', he⟩ := SourceUnit.exists_of_skeleton_eq hskeleton hunit
    rw [SourceUnit.declarations_of_skeleton_eq he]
    exact h unit' hunit'

/-- Once a document is torn down, its indices are free besides those that were. -/
lemma Sound.mem_free_cleared (sound : session.Sound) {unit : SourceUnit} {pool : IndexPool}
    (hperm : ([unit] ++ session.untouched).Perm session.files)
    (hcleared : (session.cleared [unit] pool).Sound) (category : Category) (index : Nat) :
    index ∈ (session.cleared [unit] pool).pool.free .project category ↔
      index ∈ session.pool.free .project category ∨ index ∈ unit.indices category := by
  have hunit : unit ∈ session.files := hperm.mem_iff.1 (by simp)
  -- A slot is free if neither the one document nor the others have the declaration.
  have hall : (∀ u ∈ session.files,
      (⟨.project, category, index, none⟩ : DeclId) ∉ u.declarations) ↔
        (⟨.project, category, index, none⟩ : DeclId) ∉ unit.declarations ∧
          ∀ u ∈ session.untouched,
            (⟨.project, category, index, none⟩ : DeclId) ∉ u.declarations := by
    constructor
    · exact fun h => ⟨h unit hunit, fun u hu => h u (List.mem_of_mem_filter hu)⟩
    · rintro ⟨hfirst, hrest⟩ u hu
      rcases List.mem_append.1 (hperm.mem_iff.2 hu) with h | h
      · rw [List.mem_singleton.1 h]
        exact hfirst
      · exact hrest u h
  have hfree := sound.pool.mem_free category index
  have hfree' := hcleared.pool.mem_free category index
  simp only [List.not_mem_nil, or_false] at hfree hfree'
  rw [sound.tableSize_cleared hperm, hcleared.slot?_eq_none_iff,
    forall_mem_cleared (P := fun decls => ⟨.project, category, index, none⟩ ∉ decls)] at hfree'
  rw [sound.slot?_eq_none_iff, hall] at hfree
  rw [hfree, hfree', sound.mem_indices hunit]
  -- What the document has declared is declared nowhere else, so its slot becomes free.
  by_cases hmine : (⟨.project, category, index, none⟩ : DeclId) ∈ unit.declarations
  · have hlt : index < session.libraries.project.tableSize category := by
      obtain ⟨-, -, entry, hentry, -⟩ :=
        sound.settled.declared (List.mem_append_left _ hunit) hmine
      rw [sound.files_library unit hunit] at hentry
      exact Library.lt_tableSize hentry
    have hdistinct : ∀ u ∈ session.untouched,
        (⟨.project, category, index, none⟩ : DeclId) ∉ u.declarations := by
      have hsettled : session.libraries.Settled
          (unit :: (session.untouched ++ session.foreign.values.flatten)) :=
        sound.settled.perm (hperm.symm.append_right _)
      exact fun u hu => hsettled.disjoint (List.mem_append_left _ hu) hmine
    exact ⟨fun _ => Or.inr hmine, fun _ => ⟨hlt, hdistinct⟩⟩
  · simp [hmine]

/-- The document with a path is the only one that has it. -/
lemma Sound.file?_path (sound : session.Sound) {unit : SourceUnit} (hunit : unit ∈ session.files) :
    session.file? unit.path = some unit := by
  have hpaths : (session.files.map SourceUnit.path).Nodup := by
    refine nodup_of_pairwise_lt ?_
    rw [List.pairwise_map]
    exact sound.sorted
  cases hfile : session.file? unit.path with
  | none => exact absurd rfl (file?_none hfile unit hunit)
  | some other =>
    obtain ⟨hother, hpath⟩ := file?_some hfile
    rw [List.inj_on_of_nodup_map hpaths hother hunit hpath]

/-- The categories of a document's declarations are those that its tree says. -/
lemma Sound.categories_eq (sound : session.Sound) {unit : SourceUnit}
    (hunit : unit ∈ session.files) :
    unit.declarations.map DeclId.category = unit.tree.root.nodes.map DeclNode.category := by
  have hmem : unit ∈ session.units := List.mem_append_left _ hunit
  obtain ⟨lib, hlib⟩ := sound.settled.loaded hmem
  have hdeclared := (sound.settled.aligned hmem hlib).declared
  rw [SpaceNode.filterMap_node?_marks] at hdeclared
  refine List.forall₂_eq_eq_eq.le _ _ ?_
  rw [List.forall₂_map_left_iff, List.forall₂_map_right_iff]
  exact hdeclared.imp fun _ _ ⟨_, _, _, hcategory, _⟩ => hcategory

lemma length_indices (unit : SourceUnit) (category : Category) :
    (unit.indices category).length = (unit.declarations.map DeclId.category).count category := by
  rw [SourceUnit.indices, List.length_map, List.count_eq_length_filter, List.filter_map,
    List.length_map]
  rfl

/-- Where no edit waits, a report of a document makes it the only one to read. -/
lemma pending_changed (hpending : session.isPending = false) (path : String) :
    (session.changed path).dirty = [path] ∧ (session.changed path).removed = [] := by
  have hidle : session.dirty = [] ∧ session.removed = [] := by
    simpa [isPending] using hpending
  rw [changed, hidle.1, hidle.2]
  exact ⟨rfl, rfl⟩

lemma doomed_changed (hpending : session.isPending = false) {path : String}
    (hlive : (session.file? path).isSome) : (session.changed path).doomed = [path] := by
  obtain ⟨hdirty, hremoved⟩ := pending_changed hpending path
  have hfile : ((session.changed path).file? path).isSome := hlive
  rw [doomed, hdirty, hremoved, List.append_nil, List.filter_singleton, hfile, cond_true]

/-- The other documents stay untouched. -/
lemma untouched_changed (hpending : session.isPending = false) {unit : SourceUnit}
    (hlive : (session.file? unit.path).isSome) :
    (session.changed unit.path).untouched = session.files.filter fun u => u.path ≠ unit.path := by
  rw [untouched, doomed_changed hpending hlive]
  simp [changed]

lemma pendingTrees_changed (hpending : session.isPending = false) {path : String}
    {tree : FileTree} (hdocument : session.sources.document? path = some tree) :
    (session.changed path).pendingTrees = [tree] := by
  have hsame : (session.changed path).sources.document? path = some tree := hdocument
  rw [pendingTrees, (pending_changed hpending path).1, List.filterMap_cons_some hsame,
    List.filterMap_nil]

/-- A document that is torn down and read again unchanged gets the least indices of each category
among its own and the free ones. -/
lemma Sound.reread (sound : session.Sound) (hpending : session.isPending = false) {path : String}
    {unit : SourceUnit} (hfile : session.file? path = some unit)
    (hdocument : session.sources.document? path = some unit.tree) :
    ∃ unit', (session.changed path).rebuild.1.file? path = some unit' ∧ unit'.tree = unit.tree ∧
      ∀ category, ∃ supply : List Nat, supply.Pairwise (· < ·) ∧
        (∀ index, index ∈ supply ↔
          index ∈ session.pool.free .project category ∨ index ∈ unit.indices category) ∧
        unit'.indices category = supply.take (unit.indices category).length := by
  obtain ⟨hunit, hpath⟩ := file?_some hfile
  have hsound := sound.perform (.changed path)
  rw [Session.perform] at hsound
  have huntouched : (session.changed path).untouched
      = session.files.filter fun u => u.path ≠ unit.path := by
    subst hpath
    exact untouched_changed hpending (Option.isSome_iff_exists.2 ⟨unit, hfile⟩)
  obtain ⟨torn, pool, tidied, report, hperm, hcleared, htidy, htidied, hrebuild⟩ :=
    hsound.rebuild_eq
  obtain rfl : torn = [unit] := by
    rw [← List.perm_singleton]
    have htaken := hperm.trans (perm_of_mem_files sound.sorted hunit).symm
    rw [huntouched] at htaken
    exact (List.perm_append_right_iff _).1 htaken
  -- The one document that is torn down is the one that is tidied anew.
  obtain ⟨fresh, hfresh, htrees, -, hnext⟩ := htidied.files_perm
  rw [pendingTrees_changed hpending hdocument] at htrees
  obtain ⟨new, rfl, htree⟩ := List.map_eq_singleton_iff.1 htrees
  have hnew : new ∈ tidied.files := hfresh.mem_iff.1 (by simp)
  obtain ⟨unit', hunit', hskeleton⟩ :=
    SourceUnit.exists_of_skeleton_eq htidy.skeleton_relink.symm hnew
  have htree' : unit'.tree = unit.tree :=
    (SourceUnit.tree_of_skeleton_eq hskeleton).symm.trans htree
  refine ⟨unit', ?_, htree', fun category => ?_⟩
  · have hsame : unit'.path = path := (congrArg FileTree.path htree').trans hpath
    rw [hrebuild, ← hsame]
    exact htidy.relink.file?_path hunit'
  · -- The supply is what the pool holds while the document is away, its own indices among it.
    have hmem := hsound.mem_free_cleared hperm hcleared category
    refine ⟨_, hcleared.pool.sorted category, hmem, ?_⟩
    obtain ⟨n, hindices⟩ := hnext category
    rw [List.flatMap_singleton] at hindices
    have hlength : n = (unit.indices category).length := by
      have h := congrArg List.length hindices
      rw [IndexPool.length_next, length_indices, htidy.categories_eq hnew, htree,
        ← sound.categories_eq hunit, ← length_indices] at h
      exact h.symm
    have hroom : n ≤
        (((session.changed path).cleared [unit] pool).pool.free .project category).length := by
      rw [hlength]
      exact ((sound.nodup_indices hunit category).subperm
        fun index h => (hmem index).2 (Or.inr h)).length_le
    rw [SourceUnit.indices_of_skeleton_eq hskeleton.symm, hindices, IndexPool.next, hlength]
    rw [hlength] at hroom
    simp only [Nat.sub_eq_zero_of_le hroom, List.range'_zero, List.append_nil]

/-- In any state of a run in which no edit waits, a document that is read again unchanged keeps its
identities exactly if every free index of a category is above those of its own declarations. -/
theorem reread_declarations_iff (manifest : Manifest) (sources : Sources) :
    ∃ initial, Session.start manifest sources = .ok initial ∧
      ∀ (requests : List Request) (path : String) (unit : SourceUnit),
        let session := initial.run requests
        session.isPending = false → session.file? path = some unit →
        session.sources.document? path = some unit.tree →
        ∃ unit', (session.changed path).rebuild.1.file? path = some unit' ∧
          (unit'.declarations = unit.declarations ↔ ∀ id ∈ unit.declarations,
            ∀ index ∈ session.pool.free .project id.category, id.index < index) := by
  obtain ⟨initial, hstart, hrun⟩ := increasing_run manifest sources
  refine ⟨initial, hstart, fun requests path unit => ?_⟩
  obtain ⟨sound, increasing⟩ := hrun requests
  generalize initial.run requests = session at sound increasing ⊢
  intro session hpending hfile hdocument
  obtain ⟨unit', hfile', htree, hsupply⟩ := sound.reread hpending hfile hdocument
  refine ⟨unit', hfile', ?_⟩
  obtain ⟨hunit, -⟩ := file?_some hfile
  have hsound := (sound.perform (.changed path)).perform .rebuild
  obtain ⟨hunit', -⟩ := file?_some hfile'
  have hdeclared {session : Session} (sound : session.Sound) {unit : SourceUnit}
      (hunit : unit ∈ session.files) (id : DeclId) (hid : id ∈ unit.declarations) :
      id = ⟨.project, id.category, id.index, none⟩ := by
    obtain ⟨heq, -⟩ := sound.settled.declared (List.mem_append_left _ hunit) hid
    rwa [sound.files_library unit hunit] at heq
  have hcategories : unit'.declarations.map DeclId.category
      = unit.declarations.map DeclId.category := by
    rw [hsound.categories_eq hunit', htree, sound.categories_eq hunit]
  -- Tidying takes the least of the supply: the old indices, unless a free one is below.
  have hcategory (category : Category) : unit'.indices category = unit.indices category ↔
      ∀ index ∈ unit.indices category, ∀ free ∈ session.pool.free .project category,
        index < free := by
    obtain ⟨supply, hsorted, hmem, hindices⟩ := hsupply category
    rw [hindices]
    refine take_eq_iff_of_increasing hsorted (increasing unit hunit category)
      (sound.pool.sorted category) hmem ?_
    intro index hindex hfree
    obtain ⟨id, hid, rfl⟩ := List.mem_map.1 hindex
    obtain ⟨hmine, hsame⟩ := List.mem_filter.1 hid
    obtain rfl : id.category = category := of_decide_eq_true hsame
    have hempty : session.libraries.project.slot? id.category id.index = none := by
      simpa using ((sound.pool.mem_free id.category id.index).1 hfree).2
    exact (sound.slot?_eq_none_iff id.category id.index).1 hempty unit hunit
      (hdeclared sound hunit id hmine ▸ hmine)
  constructor
  · intro heq id hid index hfree
    refine (hcategory id.category).1 ?_ id.index ?_ index hfree
    · rw [SourceUnit.indices, heq, SourceUnit.indices]
    · exact List.mem_map.2 ⟨id, List.mem_filter.2 ⟨hid, by simp⟩, rfl⟩
  · intro hbelow
    refine declarations_eq_of_indices (hdeclared hsound hunit') (hdeclared sound hunit) hcategories
      fun category => (hcategory category).2 fun index hindex free hfree => ?_
    obtain ⟨id, hid, rfl⟩ := List.mem_map.1 hindex
    obtain ⟨hmine, hsame⟩ := List.mem_filter.1 hid
    obtain rfl : id.category = category := of_decide_eq_true hsame
    exact hbelow id hmine free hfree

/-- A document that declares one struct. -/
def structTree (path name : String) : FileTree :=
  ⟨path, ⟨none, [], [], [.struct ⟨.pub, ⟨name, ⟨⟨0, 7⟩, ⟨0, 8⟩⟩⟩, [], []⟩]⟩⟩

/-- With nothing free, the struct `B` keeps its identity. -/
theorem reread_keeps_struct :
    ∃ initial, Session.start (.new "demo") { libraries := [("kernel", [])] } = .ok initial ∧
      let session := initial.run [.insert (structTree "b.rk" "B"), .changed "b.rk", .rebuild]
      ∃ unit unit', session.file? "b.rk" = some unit ∧
        (session.changed "b.rk").rebuild.1.file? "b.rk" = some unit' ∧
        unit'.declarations = unit.declarations := by
  obtain ⟨initial, hstart, h⟩ :=
    reread_declarations_iff (.new "demo") { libraries := [("kernel", [])] }
  refine ⟨initial, hstart, ?_⟩
  obtain rfl := Except.ok.inj hstart
  obtain ⟨unit', hfile, hiff⟩ := h [.insert (structTree "b.rk" "B"), .changed "b.rk", .rebuild]
    "b.rk" _ rfl rfl rfl
  refine ⟨_, unit', rfl, hfile, hiff.2 ?_⟩
  intro id hid index hindex
  rw [List.mem_singleton.1 hid] at hindex
  cases hindex

/-- The struct `B` moves from the second slot to the first when its document is read again
unchanged, after the document of the struct `A` has been removed. -/
theorem reread_moves_struct :
    ∃ initial, Session.start (.new "demo") { libraries := [("kernel", [])] } = .ok initial ∧
      let session := initial.run [.insert (structTree "a.rk" "A"), .insert (structTree "b.rk" "B"),
        .changed "a.rk", .changed "b.rk", .rebuild, .erase "a.rk", .dropped "a.rk", .rebuild]
      session.isPending = false ∧
        session.sources.document? "b.rk" = (session.file? "b.rk").map SourceUnit.tree ∧
        (session.file? "b.rk").map SourceUnit.declarations = some [⟨.project, .struct, 1, none⟩] ∧
        ((session.changed "b.rk").rebuild.1.file? "b.rk").map SourceUnit.declarations
          = some [⟨.project, .struct, 0, none⟩] :=
  ⟨_, rfl, rfl, rfl, rfl, rfl⟩

end Session

end SymbolGraph
