import Mathlib.Order.Bounds.Basic
import SymbolGraph.Proofs.Session.RunLogs

/-!
# Identities are given first fit

A table keeps its holes, so the index that a declaration gets is a matter of policy.  The policy is
first fit: it is the least index that no live declaration of the category has, whichever of its two
sources it comes from, the pool or the end of the table (`Allotment.FirstFit`).  For the project
this rests on the match of the pool with the tables, for every other library on its tables being
full.

To speak of every declaration that is tidied, the moments at which identities are given are listed
in order (`Workbench.allotments`).  What a list of them says of the model before and after is
`Filling`: the given identities are those that have become live, and since nothing dies on the way,
later ones of a category have greater indices.
-/

namespace SymbolGraph

/-! ## The moments of a document -/

/-- A declaration that is about to get its identity. -/
structure Allotment where
  space : SpaceId
  node : DeclNode
  bench : Workbench

namespace Allotment

/-- The state once the declaration has been taken in. -/
def after (allotment : Allotment) : Workbench :=
  (Tidy.declaration allotment.space allotment.node allotment.bench).state

/-- The identities that the document has got by then. -/
def given (allotment : Allotment) : List DeclId :=
  allotment.after.unit.declarations.drop allotment.bench.unit.declarations.length

end Allotment

namespace Tidy

mutual

/-- The moments of a block. -/
def blockAllotments (space : SpaceId) : SpaceNode → Workbench → List Allotment
  | ⟨_, _, children, declarations⟩, bench =>
    blocksAllotments space children bench ++ (blocks space children bench).follow
      (Outcome.trace (declaration space) (fun node bench => [⟨space, node, bench⟩]) declarations)

/-- The moments of several blocks. -/
def blocksAllotments (space : SpaceId) : List SpaceNode → Workbench → List Allotment
  | [], _ => []
  | child :: rest, bench =>
    match child.name with
    | none =>
      blockAllotments space child bench ++ (block space child bench).follow
        (blocksAllotments space rest)
    | some name =>
      let (id, bench) := openBlock space name bench
      blockAllotments id child bench ++ (block id child bench).follow (blocksAllotments space rest)

end

end Tidy

/-- The moments of a document. -/
def Workbench.allotments (bench : Workbench) : List Allotment :=
  let bench := { bench with
    unit := { bench.unit with diagnostics := bench.unit.diagnostics.clear .tidy } }
  match bench.libraries.get? bench.unit.library with
  | none => []
  | some _ => Tidy.blockAllotments Arena.root bench.unit.tree.root bench

/-! ## First fit -/

/-- The tables have no holes. -/
def Library.Full (lib : Library) : Prop :=
  ∀ category index, index < lib.tableSize category → lib.slot? category index ≠ none

/-- The identity is that of a live declaration. -/
def LibrarySet.Occupied (set : LibrarySet) (id : DeclId) : Prop :=
  set.slot? id.library id.category id.index ≠ none

/-- The declaration gets the least index that no live declaration of its category has in the
library, and the table of the category grows by it only if it has no hole. -/
structure Allotment.FirstFit (allotment : Allotment) (lib lib' : Library) (index : Nat) : Prop where
  before : allotment.bench.libraries.get? allotment.bench.unit.library = some lib
  succeeds : (Tidy.declaration allotment.space allotment.node allotment.bench).fault = none
  after : allotment.after.libraries
    = allotment.bench.libraries.adjust allotment.bench.unit.library fun _ => lib'
  given : allotment.given = [⟨allotment.bench.unit.library, allotment.node.category, index, none⟩]
  least : IsLeast {i | lib.slot? allotment.node.category i = none} index
  stored : ∃ entry, lib'.slot? allotment.node.category index = some entry ∧
    entry.id = ⟨allotment.bench.unit.library, allotment.node.category, index, none⟩
  kept : ∀ category i, ¬ (category = allotment.node.category ∧ i = index) →
    lib'.slot? category i = lib.slot? category i
  tableSize_eq : ∀ category, lib'.tableSize category = if category = allotment.node.category then
    max (lib.tableSize category) (index + 1) else lib.tableSize category
  grows_iff : lib.tableSize allotment.node.category < lib'.tableSize allotment.node.category ↔
    ∀ i < lib.tableSize allotment.node.category, lib.slot? allotment.node.category i ≠ none

/-- A table without holes has none once a slot is filled, the one behind its end at most. -/
lemma Library.Full.enlist {lib after : Library} {entry : Entry} (full : lib.Full)
    (admits : lib.Admits entry after)
    (hle : entry.id.index ≤ lib.tableSize entry.id.category) : (after.enlist entry).Full := by
  intro category i hlt
  rw [admits.tableSize_enlist] at hlt
  rw [admits.slot?_enlist]
  split
  · exact Option.some_ne_none _
  · next hne =>
    refine full category i ?_
    split at hlt
    · next heq =>
      subst heq
      have hne' : i ≠ entry.id.index := fun h => hne ⟨rfl, h⟩
      omega
    · exact hlt

/-- Below the index that the pool or the table says, all are taken. -/
lemma IndexPool.ne_none_of_allocate {pool pool' : IndexPool} {lib : Library} {category : Category}
    {index : Option Nat} (hpool : lib.id = .project → pool.Matches lib [])
    (hfull : lib.id ≠ .project → lib.Full) (h : pool.allocate lib.id category = .ok (index, pool'))
    {i : Nat} (hi : i < index.getD (lib.tableSize category)) : lib.slot? category i ≠ none := by
  unfold allocate at h
  split at h
  · cases h
  · split at h
    · next hforeign =>
      obtain ⟨rfl, -⟩ := Prod.mk.inj (Except.ok.inj h)
      exact hfull hforeign category i hi
    · next hproject =>
      have hid : lib.id = .project := not_not.1 hproject
      -- A hole below the table size would be in the pool of the project.
      have hfree (hnone : lib.slot? category i = none) (hlt : i < lib.tableSize category) :
          i ∈ pool.free lib.id category := by
        rw [hid, (hpool hid).mem_free]
        exact ⟨hlt, Or.inl hnone⟩
      intro hnone
      split at h
      · next hnil =>
        obtain ⟨rfl, -⟩ := Prod.mk.inj (Except.ok.inj h)
        have hmem := hfree hnone hi
        rw [hnil] at hmem
        cases hmem
      · next least rest hcons =>
        -- The least hole is given out, so there is none below it.
        obtain ⟨rfl, -⟩ := Prod.mk.inj (Except.ok.inj h)
        have hsorted := (hpool hid).sorted category
        have hleast : least ∈ pool.free .project category := by
          rw [← hid, hcons]
          exact List.mem_cons_self ..
        have hlt : i < lib.tableSize category :=
          Nat.lt_trans hi (((hpool hid).mem_free category least).1 hleast).1
        have hmem := hfree hnone hlt
        rw [← hid, hcons, List.pairwise_cons] at hsorted
        rw [hcons] at hmem
        rcases List.mem_cons.1 hmem with rfl | hmem
        · exact Nat.lt_irrefl _ hi
        · exact Nat.lt_asymm hi (hsorted.1 i hmem)

namespace Workbench

/-- The library of the document at hand is in a state in which indices are given first fit. -/
structure Ready (bench : Workbench) (lib : Library) : Prop where
  loaded : bench.libraries.get? bench.unit.library = some lib
  id_eq : lib.id = bench.unit.library
  pool : lib.id = .project → bench.pool.Matches lib []
  full : lib.id ≠ .project → lib.Full

variable {bench bench' : Workbench} {lib lib' : Library}

/-- A declaration that is taken in gets its index first fit. -/
lemma Ready.firstFit (ready : bench.Ready lib) {space : SpaceId} {path : List String}
    {node : DeclNode} {found : Option Nat} {pool : IndexPool} {entry : Entry} {after : Library}
    (declares : bench.Declares lib node.category found pool entry after)
    (hstep : Tidy.declaration space node bench
      = ⟨bench.declared pool after path node entry, none⟩) :
    (Allotment.mk space node bench).given = [entry.id] ∧
      (Allotment.mk space node bench).FirstFit lib (after.enlist entry) entry.id.index := by
  have hcategory := declares.category_eq
  have hbelow {i : Nat} (hi : i < entry.id.index) : lib.slot? node.category i ≠ none := by
    refine IndexPool.ne_none_of_allocate ready.pool ready.full declares.allocated ?_
    rwa [declares.id_eq] at hi
  have hid : entry.id = ⟨bench.unit.library, node.category, entry.id.index, none⟩ := by
    rw [declares.id_eq]
  have hgiven : (Allotment.mk space node bench).given = [entry.id] := by
    rw [Allotment.given, Allotment.after, hstep]
    simp [declared, SourceUnit.occur]
  have hslot := declares.admits.slot?_enlist
  have hsize := declares.admits.tableSize_enlist
  rw [hcategory] at hslot hsize
  refine ⟨hgiven, ready.loaded, by rw [hstep], ?_, hgiven.trans (congrArg ([·]) hid),
    ⟨declares.empty, fun i hnone => Nat.le_of_not_lt fun hlt => hbelow hlt hnone⟩,
    ⟨entry, (hslot ..).trans (if_pos ⟨rfl, rfl⟩), hid⟩, fun _ _ hne =>
      (hslot ..).trans (if_neg hne),
    hsize, ?_⟩
  · rw [Allotment.after, hstep]
    rfl
  · have hle := declares.le_size
    dsimp only
    rw [hsize, if_pos rfl]
    constructor
    · intro hlt i hi
      exact hbelow (by omega)
    · intro hall
      have hge : ¬ entry.id.index < lib.tableSize node.category :=
        fun hlt => hall _ hlt declares.empty
      omega

/-- Taking in a declaration. -/
theorem Ready.declaration (ready : bench.Ready lib) (space : SpaceId) (node : DeclNode) :
    ∃ bench' lib' index, Tidy.declaration space node bench = ⟨bench', none⟩ ∧ bench'.Ready lib' ∧
      (Allotment.mk space node bench).FirstFit lib lib' index ∧
      bench'.unit.library = bench.unit.library ∧
      bench'.unit.declarations
        = bench.unit.declarations ++ (Allotment.mk space node bench).given := by
  obtain ⟨id, found, pool, after, declares, hstep⟩ :=
    declaration_eq ready.loaded ready.id_eq ready.pool space [] node
  generalize Tidy.entry bench.unit.path space id node = entry at declares hstep
  obtain ⟨hgiven, hfit⟩ := ready.firstFit declares hstep
  have hid := declares.admits.id_eq
  refine ⟨_, after.enlist entry, entry.id.index, hstep,
    ⟨get?_declared ready.loaded .., hid.trans ready.id_eq, fun hproject => ?_, fun hforeign => ?_⟩,
    hfit, rfl, ?_⟩
  · -- The project draws from the pool, which loses the index that the table gains.
    exact (declares.own (hid.symm.trans hproject)).1.of_slots_eq (fun _ _ => rfl) fun _ => rfl
  · have full := ready.full fun h => hforeign (hid.trans h)
    exact full.enlist declares.admits (declares.category_eq.symm ▸ declares.le_size)
  · rw [hgiven]
    rfl

end Workbench

/-! ## What several moments say -/

/-- Identities given at some moments, in order. -/
def givenAt (allotments : List Allotment) : List DeclId := allotments.flatMap Allotment.given

/-- The later identity of a library and category has the greater index. -/
def DeclId.Before (earlier later : DeclId) : Prop :=
  earlier.library = later.library → earlier.category = later.category → earlier.index < later.index

/-- From one state of the model to a later one identities are given at these moments, each first
fit, and nothing else becomes live or dies. -/
structure Filling (before : LibrarySet) (allotments : List Allotment)
    (after : LibrarySet) : Prop where
  firstFit : ∀ allotment ∈ allotments, ∃ lib lib' index, allotment.FirstFit lib lib' index
  keeps : ∀ id, before.Occupied id → after.Occupied id
  only : ∀ id, id.define = none → after.Occupied id → before.Occupied id ∨ id ∈ givenAt allotments
  fresh : ∀ id ∈ givenAt allotments, ¬ before.Occupied id
  /-- Up to an identity that was given, all of its category are live. -/
  filled : ∀ id ∈ givenAt allotments, ∀ index ≤ id.index,
    after.Occupied ⟨id.library, id.category, index, none⟩
  increasing : (givenAt allotments).Pairwise DeclId.Before

namespace Filling

variable {a b c : LibrarySet} {xs ys : List Allotment}

lemma of_occupied (h : ∀ id, b.Occupied id ↔ a.Occupied id) : Filling a [] b where
  firstFit := by simp
  keeps id := (h id).2
  only id _ hid := Or.inl ((h id).1 hid)
  fresh := by simp [givenAt]
  filled := by simp [givenAt]
  increasing := List.Pairwise.nil

lemma refl (set : LibrarySet) : Filling set [] set := of_occupied fun _ => Iff.rfl

lemma of_skeleton_eq (h : b.skeleton = a.skeleton) : Filling a [] b := by
  have hlive {a b : LibrarySet} (h : b.skeleton = a.skeleton) (id : DeclId) (hid : b.Occupied id) :
      a.Occupied id := by
    rw [LibrarySet.Occupied, LibrarySet.slot?] at hid ⊢
    cases hlib' : b.get? id.library with
    | none => simp [hlib'] at hid
    | some lib' =>
      obtain ⟨lib, hlib, hskeleton⟩ := LibrarySet.get?_of_skeleton_eq h hlib'
      rw [hlib', Option.bind_some] at hid
      rw [hlib, Option.bind_some]
      exact mt (Library.slot?_eq_none_of_skeleton_eq hskeleton ..).2 hid
  exact of_occupied fun id => ⟨hlive h id, hlive h.symm id⟩

/-- What is given later lies behind what was given before, since nothing up to that has died. -/
lemma trans (h : Filling a xs b) (k : Filling b ys c) : Filling a (xs ++ ys) c := by
  have hgiven : givenAt (xs ++ ys) = givenAt xs ++ givenAt ys := List.flatMap_append
  refine ⟨fun allotment hmem => ?_, fun id hid => k.keeps id (h.keeps id hid),
    fun id htop hid => ?_,
    fun id hid => ?_, fun id hid index hle => ?_, ?_⟩
  · exact (List.mem_append.1 hmem).elim (h.firstFit allotment) (k.firstFit allotment)
  · rw [hgiven, List.mem_append]
    rcases k.only id htop hid with hid | hid
    · exact (h.only id htop hid).imp_right Or.inl
    · exact Or.inr (Or.inr hid)
  · rw [hgiven] at hid
    rcases List.mem_append.1 hid with hid | hid
    · exact h.fresh id hid
    · exact fun hold => k.fresh id hid (h.keeps id hold)
  · rw [hgiven] at hid
    rcases List.mem_append.1 hid with hid | hid
    · exact k.keeps _ (h.filled id hid index hle)
    · exact k.filled id hid index hle
  · rw [hgiven]
    refine List.pairwise_append.2 ⟨h.increasing, k.increasing,
      fun earlier hearlier later hlater => ?_⟩
    intro hlibrary hcategory
    -- Were the later one no higher, the earlier run would have filled its slot already.
    by_contra hle
    refine k.fresh later hlater ?_
    have hfilled := h.filled earlier hearlier later.index (Nat.le_of_not_lt hle)
    rw [hlibrary, hcategory] at hfilled
    exact hfilled

end Filling

/-- What is live afterwards was so before, but for the new identity. -/
lemma Allotment.FirstFit.occupied_iff {allotment : Allotment} {lib lib' : Library} {index : Nat}
    (fit : allotment.FirstFit lib lib' index) (other : DeclId) :
    allotment.after.libraries.Occupied other ↔ allotment.bench.libraries.Occupied other ∨
      other.library = allotment.bench.unit.library ∧ other.category = allotment.node.category ∧
        other.index = index := by
  have hbefore : allotment.bench.libraries.slot? allotment.bench.unit.library other.category
      other.index = lib.slot? other.category other.index := by
    rw [LibrarySet.slot?, fit.before, Option.bind_some]
  have hafter : allotment.after.libraries.slot? other.library other.category other.index
      = if allotment.bench.unit.library = other.library then lib'.slot? other.category other.index
        else allotment.bench.libraries.slot? other.library other.category other.index := by
    rw [LibrarySet.slot?, fit.after, LibrarySet.get?_adjust]
    split
    · next h => rw [← h, fit.before, Option.map_some, Option.bind_some]
    · rfl
  obtain ⟨entry, hentry, -⟩ := fit.stored
  rw [LibrarySet.Occupied, LibrarySet.Occupied, hafter]
  split
  · next hlibrary =>
    rw [← hlibrary, hbefore]
    by_cases hsame : other.category = allotment.node.category ∧ other.index = index
    · simp [hsame, hentry]
    · rw [fit.kept _ _ hsame]
      exact (or_iff_left fun h => hsame h.2).symm
  · next hlibrary => exact (or_iff_left fun h => hlibrary h.1.symm).symm

/-- One moment. -/
lemma Allotment.FirstFit.filling {allotment : Allotment} {lib lib' : Library} {index : Nat}
    (fit : allotment.FirstFit lib lib' index) :
    Filling allotment.bench.libraries [allotment] allotment.after.libraries := by
  obtain ⟨id, hid⟩ : ∃ id : DeclId,
      id = ⟨allotment.bench.unit.library, allotment.node.category, index, none⟩ := ⟨_, rfl⟩
  have hgiven : givenAt [allotment] = [id] := by
    rw [givenAt, List.flatMap_singleton, fit.given, hid]
  have hbefore (category : Category) (i : Nat) :
      allotment.bench.libraries.slot? allotment.bench.unit.library category i
        = lib.slot? category i := by
    rw [LibrarySet.slot?, fit.before, Option.bind_some]
  -- One slot is filled, the least empty one; all clauses follow from this.
  have hoccupied (other : DeclId) : allotment.after.libraries.Occupied other ↔
      allotment.bench.libraries.Occupied other ∨
        other.library = id.library ∧ other.category = id.category ∧ other.index = id.index := by
    rw [hid]
    exact fit.occupied_iff other
  have hempty : ¬ allotment.bench.libraries.Occupied id := by
    rw [LibrarySet.Occupied, hid, hbefore, not_not]
    exact fit.least.1
  refine ⟨fun other hother => ?_, fun other h => (hoccupied other).2 (Or.inl h),
    fun other htop h => ?_,
    ?_, ?_, ?_⟩
  · exact List.mem_singleton.1 hother ▸ ⟨lib, lib', index, fit⟩
  · refine ((hoccupied other).1 h).imp_right ?_
    rintro ⟨hlibrary, hcategory, hindex⟩
    obtain ⟨library, category, i, define⟩ := other
    rw [hgiven, List.mem_singleton]
    simp only at htop hlibrary hcategory hindex
    rw [htop, hlibrary, hcategory, hindex, hid]
  · rw [hgiven]
    exact fun other hother => List.mem_singleton.1 hother ▸ hempty
  · rw [hgiven]
    intro other hother i hle
    rw [List.mem_singleton.1 hother] at hle ⊢
    rw [hoccupied]
    rcases Nat.eq_or_lt_of_le hle with heq | hlt
    · exact Or.inr ⟨rfl, rfl, heq⟩
    · refine Or.inl fun hnone => ?_
      rw [hid] at hnone hlt
      rw [hbefore] at hnone
      exact Nat.lt_irrefl _ (Nat.lt_of_lt_of_le hlt (fit.least.2 hnone))
  · rw [hgiven]
    exact List.pairwise_singleton ..

/-! ## Whole documents -/

namespace Workbench

/-- Between two states of tidying a document, some nodes get identities. -/
structure Allots (bench : Workbench) (nodes : List DeclNode) (allotments : List Allotment)
    (bench' : Workbench) : Prop where
  ready : ∃ lib', bench'.Ready lib'
  filling : Filling bench.libraries allotments bench'.libraries
  nodes_eq : allotments.map Allotment.node = nodes
  library_eq : bench'.unit.library = bench.unit.library
  declarations_eq : bench'.unit.declarations = bench.unit.declarations ++ givenAt allotments
  own : ∀ allotment ∈ allotments, allotment.bench.unit.library = bench.unit.library

variable {bench bench' bench'' : Workbench} {lib : Library}

lemma Ready.allots_refl (ready : bench.Ready lib) : bench.Allots [] [] bench :=
  ⟨⟨lib, ready⟩, .refl _, rfl, rfl, (List.append_nil _).symm, by simp⟩

lemma Allots.trans {nodes nodes' : List DeclNode} {xs ys : List Allotment}
    (h : bench.Allots nodes xs bench') (k : bench'.Allots nodes' ys bench'') :
    bench.Allots (nodes ++ nodes') (xs ++ ys) bench'' where
  ready := k.ready
  filling := h.filling.trans k.filling
  nodes_eq := by rw [List.map_append, h.nodes_eq, k.nodes_eq]
  library_eq := k.library_eq.trans h.library_eq
  declarations_eq := by
    rw [k.declarations_eq, h.declarations_eq, List.append_assoc, givenAt, givenAt, givenAt,
      List.flatMap_append]
  own allotment hmem := (List.mem_append.1 hmem).elim (h.own allotment) fun hmem =>
    (k.own allotment hmem).trans h.library_eq

/-- Opening a block gives no identities. -/
lemma Ready.openBlock (ready : bench.Ready lib) (space : SpaceId) (name : Ident) :
    bench.Allots [] [] (Tidy.openBlock space name bench).2 := by
  simp only [Tidy.openBlock, ready.loaded]
  generalize (lib.spaces.openChild space name.name).2.addDocument
    (lib.spaces.openChild space name.name).1 bench.unit.path = spaces
  have hget (library : LibraryId) : (bench.libraries.adjust bench.unit.library fun lib =>
      { lib with spaces }).get? library = if bench.unit.library = library
        then (bench.libraries.get? library).map fun lib => { lib with spaces }
        else bench.libraries.get? library := LibrarySet.get?_adjust ..
  refine ⟨⟨{ lib with spaces }, ?_, ready.id_eq, fun hid => ?_, ready.full⟩,
    .of_occupied fun id => ?_, rfl, rfl, (List.append_nil _).symm, by simp⟩
  · rw [hget]
    simp [SourceUnit.occur, ready.loaded]
  · exact (ready.pool hid).of_slots_eq (fun _ _ => rfl) fun _ => rfl
  · rw [LibrarySet.Occupied, LibrarySet.Occupied, LibrarySet.slot?, LibrarySet.slot?, hget]
    split
    · cases bench.libraries.get? id.library <;> rfl
    · rfl

lemma Ready.declarations (ready : bench.Ready lib) (space : SpaceId) (nodes : List DeclNode) :
    ∃ bench', Outcome.forEach (Tidy.declaration space) nodes bench = ⟨bench', none⟩ ∧
      bench.Allots nodes (Outcome.trace (Tidy.declaration space)
        (fun node bench => [⟨space, node, bench⟩]) nodes bench) bench' := by
  induction nodes generalizing bench lib with
  | nil => exact ⟨bench, rfl, ready.allots_refl⟩
  | cons node rest ih =>
    obtain ⟨bench₁, lib₁, index, hstep, ready₁, fit, hlibrary, hdecls⟩ :=
      ready.declaration space node
    obtain ⟨bench₂, hrest, allots⟩ := ih ready₁
    have hafter : (Allotment.mk space node bench).after = bench₁ := by rw [Allotment.after, hstep]
    have hfirst : bench.Allots [node] [⟨space, node, bench⟩] bench₁ := by
      refine ⟨⟨lib₁, ready₁⟩, ?_, rfl, hlibrary, ?_, by simp⟩
      · rw [← hafter]
        exact fit.filling
      · rw [hdecls, givenAt, List.flatMap_singleton]
    refine ⟨bench₂, ?_, ?_⟩
    · rw [Outcome.forEach, hstep, Outcome.andThen_of_none, hrest]
    · rw [Outcome.trace, hstep, Outcome.follow_of_none]
      exact hfirst.trans allots

mutual

/-- Tidying a block gives identities to its declarations, those of nested blocks first. -/
theorem Ready.block (node : SpaceNode) {bench : Workbench} {lib : Library} (ready : bench.Ready lib)
    (space : SpaceId) : ∃ bench', Tidy.block space node bench = ⟨bench', none⟩ ∧
      bench.Allots node.nodes (Tidy.blockAllotments space node bench) bench' :=
  match node with
  | ⟨_, _, children, declarations⟩ => by
    obtain ⟨bench₁, hblocks, allots₁⟩ := Ready.blocks children ready space
    obtain ⟨lib₁, ready₁⟩ := allots₁.ready
    obtain ⟨bench₂, hdecls, allots₂⟩ := ready₁.declarations space declarations
    refine ⟨bench₂, ?_, ?_⟩
    · rw [Tidy.block, hblocks, Outcome.andThen_of_none, hdecls]
    · rw [Tidy.blockAllotments, hblocks, Outcome.follow_of_none, SpaceNode.nodes]
      exact allots₁.trans allots₂

theorem Ready.blocks (children : List SpaceNode) {bench : Workbench} {lib : Library}
    (ready : bench.Ready lib) (space : SpaceId) :
    ∃ bench', Tidy.blocks space children bench = ⟨bench', none⟩ ∧
      bench.Allots (SpaceNode.nodesOf children)
        (Tidy.blocksAllotments space children bench) bench' :=
  match children with
  | [] => ⟨bench, by rw [Tidy.blocks], by
      rw [SpaceNode.nodesOf, Tidy.blocksAllotments]
      exact ready.allots_refl⟩
  | child :: rest => by
    -- On the list of blocks; one without a name is tidied in the namespace at hand.
    cases hname : child.name with
    | none =>
      obtain ⟨bench₁, hchild, allots₁⟩ := Ready.block child ready space
      obtain ⟨lib₁, ready₁⟩ := allots₁.ready
      obtain ⟨bench₂, hrest, allots₂⟩ := Ready.blocks rest ready₁ space
      refine ⟨bench₂, ?_, ?_⟩
      · simp only [Tidy.blocks, hname, hchild, Outcome.andThen_of_none, hrest]
      · simp only [Tidy.blocksAllotments, hname, hchild, Outcome.follow_of_none, SpaceNode.nodesOf]
        exact allots₁.trans allots₂
    | some name =>
      have allots₀ := ready.openBlock space name
      obtain ⟨lib₀, ready₀⟩ := allots₀.ready
      obtain ⟨bench₁, hchild, allots₁⟩ := Ready.block child ready₀
        (Tidy.openBlock space name bench).1
      obtain ⟨lib₁, ready₁⟩ := allots₁.ready
      obtain ⟨bench₂, hrest, allots₂⟩ := Ready.blocks rest ready₁ space
      refine ⟨bench₂, ?_, ?_⟩
      · simp only [Tidy.blocks, hname, hchild, Outcome.andThen_of_none, hrest]
      · simp only [Tidy.blocksAllotments, hname, hchild, Outcome.follow_of_none, SpaceNode.nodesOf]
        exact (allots₀.trans allots₁).trans allots₂

end

/-- Tidying a new document gives its declarations their identities, children first, each first
fit. -/
lemma allots_tidy {set : LibrarySet} {pool : IndexPool} {tree : FileTree} {library : LibraryId}
    (hloaded : set.get? library = some lib) (hid : lib.id = library)
    (hpool : lib.id = .project → pool.Matches lib []) (hfull : lib.id ≠ .project → lib.Full) :
    ∃ bench', tidy ⟨set, pool, .new tree library⟩ = ⟨bench', none⟩ ∧
      Allots ⟨set, pool, .new tree library⟩ tree.root.nodes
        (allotments ⟨set, pool, .new tree library⟩) bench' := by
  have ready : Ready ⟨set, pool, .new tree library⟩ lib := ⟨hloaded, hid, hpool, hfull⟩
  obtain ⟨bench', hblock, allots⟩ := Ready.block tree.root ready Arena.root
  refine ⟨bench', ?_, ?_⟩
  · rw [← hblock]
    simp only [tidy, SourceUnit.new, hloaded]
    rfl
  · have hsame : allotments ⟨set, pool, .new tree library⟩
        = Tidy.blockAllotments Arena.root tree.root ⟨set, pool, .new tree library⟩ := by
      simp only [allotments, SourceUnit.new, hloaded]
      rfl
    rw [hsame]
    exact allots

end Workbench

end SymbolGraph
