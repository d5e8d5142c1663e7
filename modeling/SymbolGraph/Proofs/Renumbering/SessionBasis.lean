import SymbolGraph.Proofs.Renumbering.Isomorphism
import SymbolGraph.Proofs.Session.References

/-!
# What a session rests on

When a session starts, its project is empty, and its kernel has been tidied, linked and checked.  So
nothing of the kernel depends on which numbers the project gives to its declarations and namespaces
later: the libraries that a session rests on are their own copies under every renumbering of the
project (`Session.Bedrock`).
-/

namespace SymbolGraph

/-! ## Renumbering the project -/

/-- Only declarations and namespaces of the project get other numbers, and its root keeps its
slot. -/
structure Renumbering.OnlyProject (r : Renumbering) : Prop where
  library : r.library = Equiv.refl LibraryId
  root : r.space Arena.root = Arena.root

namespace Renumbering.OnlyProject

variable {r : Renumbering} (only : r.OnlyProject)

include only

lemma library_eq (library : LibraryId) : r.library library = library := by
  rw [only.library]
  rfl

omit only in
lemma slot_eq {library : LibraryId} (h : library ≠ .project) (category : Category) (index : Nat) :
    r.slot library category index = index :=
  if_neg fun hproject => h hproject.1

omit only in
lemma place_eq {library : LibraryId} (h : library ≠ .project) (space : SpaceId) :
    r.place library space = space := if_neg h

lemma place_root (library : LibraryId) : r.place library Arena.root = Arena.root := by
  unfold Renumbering.place
  split
  · exact only.root
  · rfl

lemma decl_eq {id : DeclId} (h : id.library ≠ .project) : r.decl id = id := by
  have hslot (category : Category) : r.slot id.library category = fun index => index :=
    funext (slot_eq h category)
  unfold Renumbering.decl
  split <;> simp [only.library_eq, hslot]

lemma ref_eq {ref : SpaceRef} (h : ref.library ≠ .project) : r.ref ref = ref := by
  rw [Renumbering.ref, only.library_eq, place_eq h]

lemma target_eq {target : Target} (h : target.library ≠ .project) : r.target target = target := by
  cases target with
  | declaration id => exact congrArg Target.declaration (only.decl_eq h)
  | space ref => exact congrArg Target.space (only.ref_eq h)

/-- A record outside of the project that nothing has been linked into. -/
lemma entry_eq {entry : Entry} (h : entry.id.library ≠ .project) (hfresh : entry.skeleton = entry) :
    r.entry entry = entry := by
  have hbody : r.body entry.body = entry.body := by
    rw [entry.fresh_of_skeleton_eq hfresh, r.body_fresh]
  simp only [Renumbering.entry, Renumbering.symbol, Symbol.map, hbody, only.decl_eq h, place_eq h]

/-- Namespaces outside of the project hold declarations outside of the project. -/
lemma matches_space {library : LibraryId} (h : library ≠ .project) {space : Namespace}
    (hgroups : ∀ name, ∀ id ∈ space.group name, id.library ≠ .project) :
    space.Matches r library space := by
  have hplace : r.place library = fun id => id := funext (place_eq h)
  refine ⟨by simp [hplace], by simp [hplace], rfl, fun name => by simp [hplace], fun name => ?_⟩
  rw [List.map_congr_left fun id hid => only.decl_eq (hgroups name id hid), List.map_id']

end Renumbering.OnlyProject

namespace Renumbering

/-- Every declaration of the project gets another number under some renumbering of the project. -/
lemma exists_onlyProject_decl_ne {id : DeclId} (hlibrary : id.library = .project)
    (hproper : id.Proper) :
    ∃ r : Renumbering, r.OnlyProject ∧ r.decl id ≠ id := by
  let r : Renumbering :=
    ⟨fun _ => Equiv.swap id.seat.2 (id.seat.2 + 1), Equiv.refl _, Equiv.refl _, rfl, rfl⟩
  refine ⟨r, ⟨rfl, rfl⟩, fun heq => ?_⟩
  have hseat := congrArg (fun id => id.seat.2) heq
  simp only [r.seat_decl] at hseat
  have htop : id.seat.1.isMember = false := by
    cases hmember : id.category.isMember with
    | false =>
      rw [DeclId.seat_of_top hmember]
      exact hmember
    | true =>
      obtain ⟨owner, index, howner, -, -, hseat⟩ := hproper.exists_owner hmember
      rw [hseat]
      revert howner
      cases id.category <;> simp only [Category.owner?, Option.some.injEq,
        reduceCtorEq, false_imp_iff] <;>
        rintro rfl <;> rfl
  rw [slot, if_pos ⟨hlibrary, htop⟩] at hseat
  have hswap : r.index id.seat.1 id.seat.2 = id.seat.2 + 1 := Equiv.swap_apply_left _ _
  omega

end Renumbering

/-! ## Libraries under other numbers -/

/-- The library under the new numbers, as far as contents show. -/
structure Library.Copies (r : Renumbering) (lib lib' : Library) : Prop where
  spaces : ∀ id, Option.Rel (Namespace.Matches r lib.id) (lib.spaces.get? id)
    (lib'.spaces.get? (r.place lib.id id))
  slots : ∀ category index, (lib'.slot? category (r.slot lib.id category index)).map Entry.content
    = (lib.slot? category index).map fun entry => r.entry entry.content

/-- Whether libraries are copies depends on their contents only. -/
lemma Library.Copies.congr {r : Renumbering} {lib lib' other other' : Library}
    (copies : lib.Copies r lib') (hlib : other.contents = lib.contents)
    (hlib' : other'.contents = lib'.contents) : other.Copies r other' := by
  have hspace {lib other : Library} (h : other.contents = lib.contents) (id : SpaceId) :
      (other.spaces.get? id).map Namespace.skeleton
        = (lib.spaces.get? id).map Namespace.skeleton := by
    rw [← Arena.get?_skeleton, ← Arena.get?_skeleton]
    exact congrArg (fun lib : Library => lib.spaces.get? id) h
  have hslot {lib other : Library} (h : other.contents = lib.contents) (category : Category)
      (index : Nat) : (other.slot? category index).map Entry.content
        = (lib.slot? category index).map Entry.content := by
    rw [← slot?_view, ← slot?_view]
    exact congrArg (slot? · category index) h
  have hid : other.id = lib.id := show other.contents.id = lib.contents.id by rw [hlib]
  refine ⟨fun id => ?_, fun category index => ?_⟩
  · rw [hid]
    exact Namespace.rel_matches_of_skeleton_eq (copies.spaces id) (hspace hlib id) (hspace hlib' _)
  · have hentry := congrArg (Option.map r.entry) (hslot hlib category index)
    rw [Option.map_map, Option.map_map] at hentry
    rw [hid, hslot hlib', copies.slots category index]
    exact hentry.symm

/-- A library outside of the project that has only been tidied is its own copy. -/
lemma Library.Coherent.copies {lib : Library} (coherent : lib.Coherent) (hlib : lib.id ≠ .project)
    (hfresh : ∀ category index entry, lib.slot? category index = some entry →
      entry.skeleton = entry)
    {r : Renumbering} (only : r.OnlyProject) : lib.Copies r lib := by
  refine ⟨fun id => ?_, fun category index => ?_⟩
  · rw [Renumbering.OnlyProject.place_eq hlib]
    cases hspace : lib.spaces.get? id with
    | none => exact .none
    | some space =>
      refine .some (only.matches_space hlib fun name decl hdecl => ?_)
      obtain ⟨entry, hslot, hid, -⟩ := (coherent.group_iff hspace).1 hdecl
      rw [← hid, coherent.id_eq hslot]
      exact hlib
  · rw [Renumbering.OnlyProject.slot_eq hlib]
    cases hslot : lib.slot? category index with
    | none => rfl
    | some entry =>
      have hid : entry.id.library ≠ .project := by
        rw [coherent.id_eq hslot]
        exact hlib
      rw [Option.map_some, Option.map_some, ← r.content_entry,
        only.entry_eq hid (hfresh category index entry hslot)]

/-- An empty library is its own copy. -/
lemma Library.copies_new {r : Renumbering} (only : r.OnlyProject) (id : LibraryId) (name : String) :
    (Library.new id name).Copies r (Library.new id name) := by
  refine ⟨fun space => ?_, fun category index => ?_⟩
  · by_cases hroot : space = Arena.root
    · subst hroot
      rw [only.place_root]
      exact .some ⟨(only.place_root _).symm, rfl, rfl, fun _ => rfl, fun _ => .nil⟩
    · have hnone {other : SpaceId} (hother : other ≠ Arena.root) :
          (Library.new id name).spaces.get? other = none := by
        rcases other with _ | other
        · exact absurd rfl hother
        · rfl
      have hplace : r.place id space ≠ Arena.root := by
        rw [← only.place_root id]
        exact (Function.LeftInverse.injective (r.place_symm_place id)).ne hroot
      rw [hnone hroot, show (new id name).spaces.get? (r.place (new id name).id space) = none from
        hnone hplace]
      exact .none
  · rw [slot?_new, slot?_new]
    rfl

/-- Documents that refer to nothing do not refer to a target. -/
lemma SourceUnit.flatMap_pointers {units : List SourceUnit}
    (h : ∀ unit ∈ units, unit.references = [])
    (target : Target) : units.flatMap (pointers target) = [] :=
  List.flatMap_eq_nil_iff.2 fun unit hunit => by
    rw [pointers, h unit hunit]
    rfl

namespace LibrarySet

variable {r : Renumbering} {set set' : LibrarySet} {units units' : List SourceUnit}

/-- Models match if their libraries are copies of each other. -/
lemma matches_of_copies (only : r.OnlyProject) (hid : set.Identified) (hid' : set'.Identified)
    (hnames : set'.names = set.names)
    (h : ∀ library, Option.Rel (Library.Copies r) (set.get? library) (set'.get? library)) :
    set.Matches Entry.content r .all set' := by
  refine ⟨hid, hid', trivial, fun _ _ _ _ => trivial, fun name _ => ?_,
    fun library _ => ?_, fun ref _ => ?_,
    only.root, fun library category index _ => ?_⟩
  · rw [named?, named?, hnames, only.library]
    exact Option.map_id.symm ▸ rfl
  · rw [only.library_eq]
    obtain ⟨hnone, hnone'⟩ | ⟨lib, lib', hlib, hlib', -⟩ := rel_cases (h library)
    · rw [hnone, hnone']
    · rw [hlib, hlib']
      rfl
  · obtain ⟨library, space⟩ := ref
    rw [Renumbering.ref, only.library_eq, space?, space?]
    obtain ⟨hnone, hnone'⟩ | ⟨lib, lib', hlib, hlib', copies⟩ := rel_cases (h library)
    · rw [hnone, hnone']
      exact .none
    · rw [hlib, hlib', Option.bind_some, Option.bind_some]
      obtain rfl := hid library lib hlib
      exact copies.spaces space
  · rw [only.library_eq, slot?, slot?]
    obtain ⟨hnone, hnone'⟩ | ⟨lib, lib', hlib, hlib', copies⟩ := rel_cases (h library)
    · rw [hnone, hnone']
      rfl
    · rw [hlib, hlib', Option.bind_some, Option.bind_some]
      obtain rfl := hid library lib hlib
      exact copies.slots category index

/-- Libraries of models that match are copies of each other. -/
lemma Matches.copies_library (h : set.Matches Entry.content r .all set') (only : r.OnlyProject)
    {library : LibraryId} {lib lib' : Library} (hlib : set.get? library = some lib)
    (hlib' : set'.get? library = some lib') : lib.Copies r lib' := by
  obtain rfl := h.identified library lib hlib
  refine ⟨fun id => ?_, fun category index => ?_⟩
  · have hspace := h.spaces ⟨lib.id, id⟩ trivial
    rw [Renumbering.ref, only.library_eq, space?, space?, hlib, hlib'] at hspace
    exact hspace
  · have hslot := h.slots lib.id category index trivial
    rw [only.library_eq, slot?, slot?, hlib, hlib'] at hslot
    exact hslot

/-- What is on record in documents is all that a target is referred to from. -/
lemma Ledger.citations?_eq (ledger : set.Ledger units) {target : Target} (htarget : target.Proper) :
    set.citations? target = if (set.references? target).isSome
      then some (Multiset.ofList (units.flatMap (SourceUnit.pointers target))) else none := by
  rw [citations?]
  cases hrefs : set.references? target with
  | none => rfl
  | some refs =>
    obtain ⟨-, hperm⟩ := ledger.exact htarget hrefs
    exact congrArg some (Multiset.coe_eq_coe.2 hperm)

lemma heirs?_eq (set : LibrarySet) (base : DeclId) : set.heirs? base
    = (set.slot? base.library base.category base.index).bind fun entry =>
      entry.body.implementors? := by
  rw [heirs?, kin?]
  cases set.slot? base.library base.category base.index with
  | none => rfl
  | some entry => exact Body.implementors?_kin entry.body

lemma Orderly.slot?_member {set : LibrarySet} (orderly : set.Orderly) {category : Category}
    (hmember : category.isMember = true) (library : LibraryId) (index : Nat) :
    set.slot? library category index = none := by
  cases hslot : set.slot? library category index with
  | none => rfl
  | some entry =>
    have htags : set.tags? library category index = some entry.tags := by
      rw [tags?, hslot]
      rfl
    rw [(orderly.tags htags).top_level] at hmember
    cases hmember

/-- Blank records have no heirs, and correspond to blank records. -/
lemma Matches.progeny_of_blank (h : set.Matches Entry.content r .all set') (orderly : set.Orderly)
    (orderly' : set'.Orderly) {base : DeclId} (hdefine : base.define = none)
    (blank : ∀ entry, set.slot? base.library base.category base.index = some entry → entry.Blank)
    (blank' : ∀ entry,
      set'.slot? (r.decl base).library base.category (r.decl base).index = some entry →
      entry.Blank) :
    set'.progeny? (r.decl base)
      = (set.heirs? base).map fun heirs => Multiset.ofList (heirs.map r.decl) := by
  obtain ⟨library, category, index, define⟩ := base
  obtain rfl : define = none := hdefine
  rw [progeny?, heirs?_eq, heirs?_eq, r.category_decl]
  -- Members have no slot of their own; a fresh record has no heirs in its list.
  by_cases hmember : category.isMember = true
  · rw [orderly.slot?_member hmember, orderly'.slot?_member hmember]
    rfl
  have htop : category.isMember = false := by simpa using hmember
  rw [r.decl_top library index htop] at blank' ⊢
  have hslot := h.slots library category index trivial
  cases hentry : set.slot? library category index with
  | none =>
    rw [hentry, Option.map_none, Option.map_eq_none_iff] at hslot
    rw [hslot]
    rfl
  | some entry =>
    rw [hentry] at hslot
    obtain ⟨entry', hentry', heq⟩ := Option.map_eq_some_iff.1 hslot
    have hcategory : entry'.id.category = entry.id.category :=
      (congrArg (fun record : Entry => record.id.category) heq).trans (r.category_decl entry.id)
    rw [hentry', Option.bind_some, Option.bind_some,
      show entry.body = _ from blank entry hentry, show entry'.body = _ from blank' entry' hentry',
      hcategory]
    cases hheirs : (Body.fresh entry.id.category).implementors? with
    | none => rfl
    | some heirs =>
      rw [Body.implementors?_fresh hheirs]
      rfl

/-- A model into which nothing has been linked yet is a copy of one that matches it. -/
lemma copies_of_blank (h : set.Matches Entry.content r .all set') (orderly : set.Orderly)
    (orderly' : set'.Orderly)
    (blank : ∀ library category index entry, set.slot? library category index = some entry →
      entry.Blank)
    (blank' : ∀ library category index entry, set'.slot? library category index = some entry →
      entry.Blank)
    (ledger : set.Ledger units) (ledger' : set'.Ledger units')
    (hreferences : ∀ unit ∈ units, unit.references = [])
    (hreferences' : ∀ unit ∈ units', unit.references = []) : set.Copies r set' where
  contents := h
  citations target htarget := by
    rw [ledger.citations?_eq htarget, ledger'.citations?_eq ((r.proper_target target).2 htarget),
      h.isSome_references? target, SourceUnit.flatMap_pointers hreferences,
      SourceUnit.flatMap_pointers hreferences']
  progeny base hdefine :=
    h.progeny_of_blank orderly orderly' hdefine (blank _ _ _) (blank' _ _ _)

end LibrarySet

namespace LibrarySet

variable {r : Renumbering} {set set' : LibrarySet}

/-- Checking a library outside of the project keeps copies. -/
lemma Copies.check_abroad (copies : set.Copies r set') (orderly : set.Orderly)
    (orderly' : set'.Orderly) {library : LibraryId} (hproject : library ≠ .project) :
    (set.check library).1.Copies r (set'.check (r.library library)).1 where
  contents := (copies.contents.check orderly set.encloses_everything trivial hproject).1
  citations target htarget := by
    rw [citations?, citations?, (sameTags_check orderly' _).references?_eq orderly'.identified,
      (sameTags_check orderly _).references?_eq orderly.identified]
    exact copies.citations target htarget
  progeny base hdefine := by
    rw [progeny?, (sameKin_check orderly'.identified _).heirs?_eq,
      (sameKin_check orderly.identified _).heirs?_eq]
    exact copies.progeny base hdefine

end LibrarySet

/-! ## Documents under other numbers -/

/-- What tidying recorded of a document lies in its library. -/
lemma SourceUnit.AlignedWith.library_of_target {unit : SourceUnit}
    {lib : Library} {marks : List Mark}
    (aligned : unit.AlignedWith lib marks) (coherent : lib.Coherent) :
    ∀ occurrence ∈ unit.skeleton.occurrences, occurrence.target.library = lib.id := by
  have htraced := aligned.traced
  generalize unit.skeleton.occurrences = occurrences at htraced
  clear aligned
  induction htraced with
  | nil => simp
  | @cons first mark occurrences marks hmark _ ih =>
    intro occurrence hoccurrence
    rcases List.mem_cons.1 hoccurrence with rfl | hoccurrence
    · cases mark with
      | space range path =>
        obtain ⟨id, rfl, -⟩ := hmark
        rfl
      | declaration path node =>
        obtain ⟨id, space, entry, rfl, -, -, hslot, hentry⟩ := hmark
        have hid : entry.id = id := congrArg (fun record : Entry => record.id) hentry
        rw [coherent.id_eq hslot] at hid
        exact (congrArg DeclId.library hid).symm
    · exact ih occurrence hoccurrence

/-- A tidied document outside of the project is its own copy. -/
lemma LibrarySet.Settled.copies_unit {set : LibrarySet} {units : List SourceUnit}
    (settled : set.Settled units) {unit : SourceUnit} (hunit : unit ∈ units)
    (hlibrary : unit.library ≠ .project) (hfresh : unit.skeleton = unit) {r : Renumbering}
    (only : r.OnlyProject) : unit.Copies r unit := by
  obtain ⟨lib, hlib⟩ := settled.loaded hunit
  have hid := settled.id_eq hlib
  have hplace : r.place unit.library = fun space => space :=
    funext (Renumbering.OnlyProject.place_eq hlibrary)
  have hscopes : unit.scopes = [] := by rw [← hfresh]; rfl
  have hlinks : unit.links = [] := by rw [← hfresh]; rfl
  -- Nothing in an unlinked import points into the project.
  have hoccurrences : ∀ occurrence ∈ unit.occurrences, occurrence.target.library ≠ .project := by
    intro occurrence hoccurrence
    rw [← hfresh] at hoccurrence
    rw [(settled.aligned hunit hlib).library_of_target (settled.hosts hlib).coherent _
      hoccurrence, hid]
    exact hlibrary
  have hdeclarations : ∀ id ∈ unit.declarations, id.library ≠ .project := by
    intro id hdecl
    rw [(settled.aligned hunit hlib).declarations_eq, hfresh] at hdecl
    obtain ⟨occurrence, hoccurrence, htarget⟩ := List.mem_filterMap.1 hdecl
    have hnear := hoccurrences occurrence hoccurrence
    cases ht : occurrence.target with
    | declaration other =>
      rw [ht] at htarget hnear
      rwa [← Option.some.inj htarget]
    | space ref => rw [ht] at htarget; cases htarget
  refine ⟨⟨rfl, (only.library_eq _).symm, ?_, by rw [hscopes]; rfl, rfl⟩, by simp [hplace], ?_,
    by rw [hlinks]; rfl⟩
  · rw [List.map_congr_left fun id hid => only.decl_eq (hdeclarations id hid), List.map_id']
  · rw [List.map_congr_left (g := fun occurrence => occurrence) fun occurrence hoccurrence => by
      rw [Renumbering.occurrence, only.target_eq (hoccurrences occurrence hoccurrence)],
      List.map_id']

/-! ## The kernel of a session -/

lemma LibrarySet.Grows.new_or_grown {projectName kernelName : String} {set : LibrarySet}
    (grows : (LibrarySet.new projectName kernelName).Grows .kernel set) {library : LibraryId}
    {lib : Library} (hlib : set.get? library = some lib) : library ≠ .kernel ∧
      (∃ name, lib = .new library name) ∨ library = .kernel ∧
        ∀ category index entry, lib.slot? category index = some entry → entry.skeleton = entry := by
  by_cases hkernel : library = .kernel
  · subst hkernel
    refine .inr ⟨rfl, fun category index entry hslot => ?_⟩
    have hnew : (LibrarySet.new projectName kernelName).get? .kernel
        = some (.new .kernel kernelName) := rfl
    obtain ⟨lib', hlib', grown⟩ := grows.grown hnew
    obtain rfl : lib = lib' := by simpa [hlib] using hlib'
    rcases grown.slot_only hslot with h | h
    · rw [Library.slot?_new] at h
      cases h
    · exact h.2
  · rw [grows.other hkernel] at hlib
    exact .inl ⟨hkernel, get?_new hlib⟩

/-- Before anything is linked, a kernel that has been tidied is its own copy. -/
lemma LibrarySet.Booked.copies_kernel {projectName kernelName : String} {set : LibrarySet}
    {units : List SourceUnit} (booked : set.Booked units)
    (grows : (LibrarySet.new projectName kernelName).Grows .kernel set)
    (hfresh : ∀ unit ∈ units, unit.skeleton = unit) {r : Renumbering} (only : r.OnlyProject) :
    set.Copies r set := by
  have orderly := booked.orderly
  -- All but the kernel is new and empty, and the kernel is as tidying left it.
  have blank (library : LibraryId) (category : Category) (index : Nat) (entry : Entry)
      (hslot : set.slot? library category index = some entry) : entry.Blank := by
    obtain ⟨lib, hlib, hslot⟩ := Option.bind_eq_some_iff.1 hslot
    rcases grows.new_or_grown hlib with ⟨-, name, rfl⟩ | ⟨-, hskeleton⟩
    · rw [Library.slot?_new] at hslot
      cases hslot
    · exact entry.fresh_of_skeleton_eq (hskeleton category index entry hslot)
  have hreferences : ∀ unit ∈ units, unit.references = [] := fun unit hunit => by
    rw [SourceUnit.references, show unit.links = [] by rw [← hfresh unit hunit]; rfl]
    rfl
  refine copies_of_blank (matches_of_copies only orderly.identified orderly.identified rfl
    fun library => ?_) orderly orderly blank blank booked.ledger booked.ledger
      hreferences hreferences
  cases hlib : set.get? library with
  | none => exact .none
  | some lib =>
    refine .some ?_
    rcases grows.new_or_grown hlib with ⟨-, name, rfl⟩ | ⟨rfl, hskeleton⟩
    · exact Library.copies_new only library name
    · refine (booked.settled.hosts hlib).coherent.copies ?_ hskeleton only
      rw [booked.settled.id_eq hlib]
      exact LibraryId.kernel_ne_project

/-- A library outside of the project stays its own copy when its documents are linked and it is
checked, and the documents keep to their back-links. -/
lemma Linkages.copies_finish {r : Renumbering} (only : r.OnlyProject) {state : Linkages}
    (related : Related SourceUnit.Undeclared (LibrarySet.Copies r) (SourceUnit.Copies r) [] []
      state state)
    (options : LinkOptions) {library : LibraryId} (hproject : library ≠ .project) :
    (state.finish options library).libraries.Copies r (state.finish options library).libraries ∧
      ∀ unit ∈ (state.finish options library).units, unit.links.map r.backLink = unit.links := by
  have linked := copies_link related options
  have hchecked := linked.libraries.check_abroad linked.arranged.orderly
    linked.arranged.orderly hproject
  rw [only.library_eq] at hchecked
  refine ⟨hchecked, fun unit hunit => ?_⟩
  have hmem : (unit.declarations, unit.links) ∈ (state.finish options library).units.map fun unit =>
      (unit.declarations, unit.links) := List.mem_map_of_mem hunit
  rw [finish, links_handOut] at hmem
  obtain ⟨old, hold, heq⟩ := List.mem_map.1 hmem
  rw [show unit.links = old.links from (congrArg Prod.snd heq).symm]
  exact (List.forall₂_same.1 linked.units old hold).links.symm

namespace Session

/-- A session right after its kernel was loaded: it has no documents, and the kernel does not depend
on numbers of the project. -/
structure Bedrock (initial : Session) : Prop where
  sound : initial.Sound
  files : initial.files = []
  dirty : initial.dirty = []
  removed : initial.removed = []
  project : initial.libraries.project.skeleton = .new .project initial.manifest.name
  booked : Linkages.Booked initial.libraries initial.units
  noted : initial.libraries.Noted initial.units
  copies : ∀ r : Renumbering, r.OnlyProject → initial.libraries.Copies r initial.libraries
  links : ∀ r : Renumbering, r.OnlyProject → ∀ unit ∈ initial.foreign.values.flatten,
    unit.links.map r.backLink = unit.links

/-- A session starts with the documents of its kernel, linked and checked once all have been
tidied. -/
lemma start_eq_of_tidied {manifest : Manifest} {sources : Sources} {batch : Batch}
    (h : Outcome.forEach (Batch.tidy .kernel) (kernelTrees manifest sources)
      ⟨(unloaded manifest sources).libraries, (unloaded manifest sources).pool, []⟩ = ⟨batch, none⟩)
    {done : Linkages}
    (hdone : Linkages.finish ⟨batch.libraries, batch.units⟩ ⟨manifest.suggestions⟩ .kernel = done) :
    Session.start manifest sources = .ok { unloaded manifest sources with
      pool := batch.pool
      libraries := done.libraries
      foreign := [(.kernel, done.units)] } := by
  subst hdone
  simp only [Session.start, compile, h]
  rfl

/-- A session starts with the documents of its kernel, tidied, linked and checked. -/
lemma start_eq_finish (manifest : Manifest) (sources : Sources) :
    ∃ (initial : Session) (tidied done : Linkages), Session.start manifest sources = .ok initial ∧
      tidied.finish ⟨manifest.suggestions⟩ .kernel = done ∧ initial.libraries = done.libraries ∧
      initial.foreign.values.flatten = done.units ∧
      (LibrarySet.new manifest.name manifest.kernel).Grows .kernel tidied.libraries ∧
      Linkages.Booked tidied.libraries tidied.units ∧
      ∀ unit ∈ tidied.units, unit.library = .kernel ∧ unit.skeleton = unit := by
  have hkeeps : Keeps (fun set pool units => Linkages.Booked set units ∧
    pool.Matches set.project [])
      [] (unloaded manifest sources) :=
    ⟨⟨LibrarySet.booked_new .., IndexPool.matches_new manifest.name⟩,
      by simp [unloaded, Assoc.values], by simp [unloaded]⟩
  obtain ⟨batch, hbatch, hunits, grows, keeps, -⟩ := Keeps.tidied loadInvariant_booked hkeeps
    LibraryId.kernel_ne_project ⟨_, rfl⟩ (kernelTrees manifest sources)
  have booked : Linkages.Booked batch.libraries batch.units := by
    have hunits : batch.units ++ [] ++ Session.units { unloaded manifest sources with
        libraries := batch.libraries, pool := batch.pool } = batch.units := by
      simp [Session.units, unloaded, Assoc.values]
    exact hunits ▸ keeps.holds.1
  obtain ⟨done, hdone⟩ : ∃ done : Linkages,
      Linkages.finish ⟨batch.libraries, batch.units⟩ ⟨manifest.suggestions⟩ .kernel
        = done := ⟨_, rfl⟩
  refine ⟨_, ⟨batch.libraries, batch.units⟩, done, start_eq_of_tidied hbatch hdone, hdone, rfl,
    List.append_nil _, grows, booked, hunits⟩

lemma bedrock (manifest : Manifest) (sources : Sources) :
    ∃ initial, Session.start manifest sources = .ok initial ∧ initial.Bedrock ∧
      initial.manifest = manifest := by
  obtain ⟨initial, hstart, sound, hmanifest⟩ := Sound.start manifest sources
  obtain ⟨initial', hstart', keeps, loaded⟩ := Keeps.start loadInvariant_booked manifest sources
    ⟨LibrarySet.booked_new .., IndexPool.matches_new manifest.name⟩
  obtain rfl : initial = initial' := by simpa [hstart] using hstart'
  obtain ⟨initial', hstart', hnoted⟩ := noted_run manifest sources
  obtain rfl : initial = initial' := by simpa [hstart] using hstart'
  obtain ⟨initial', tidied, done, hstart', hdone, hlibraries, hforeign, grows, booked, hunits⟩ :=
    start_eq_finish manifest sources
  obtain rfl : initial = initial' := by simpa [hstart] using hstart'
  have hproject : initial.libraries.project.skeleton = .new .project initial.manifest.name := by
    have hskeleton : initial.libraries.skeleton = tidied.libraries.skeleton := by
      rw [hlibraries, ← hdone]
      exact (tidied.skeleton_finish _ _).1
    have hproject : tidied.libraries.project = .new .project manifest.name :=
      Option.some.inj (grows.other LibraryId.project_ne_kernel)
    rw [show initial.libraries.project.skeleton = tidied.libraries.project.skeleton from
      congrArg LibrarySet.project hskeleton, hproject, hmanifest]
    rfl
  -- Tidied libraries are their own copies, and linking copies gives copies.
  have hcopies (r : Renumbering) (only : r.OnlyProject) :
      initial.libraries.Copies r initial.libraries ∧
        ∀ unit ∈ initial.foreign.values.flatten, unit.links.map r.backLink = unit.links := by
    have hbatch : List.Forall₂ (SourceUnit.Copies r) tidied.units tidied.units :=
      List.forall₂_same.2 fun unit hunit => booked.1.settled.copies_unit hunit
        ((hunits unit hunit).1 ▸ LibraryId.kernel_ne_project) (hunits unit hunit).2 only
    have hundeclared : ∀ unit ∈ tidied.units, unit.Undeclared :=
      fun unit hunit => undeclared_of_skeleton_eq (hunits unit hunit).2
    have harranged : tidied.libraries.Arranged (tidied.units ++ []) := by
      rw [List.append_nil]
      exact booked.1.toArranged
    rw [hlibraries, hforeign, ← hdone]
    exact Linkages.copies_finish only ⟨harranged, harranged, hundeclared, hundeclared,
      booked.1.copies_kernel grows (fun unit hunit => (hunits unit hunit).2) only, hbatch⟩ _
      LibraryId.kernel_ne_project
  exact ⟨initial, hstart, ⟨sound, loaded.files_eq, loaded.dirty_eq, loaded.removed_eq, hproject,
    keeps.holds.1, (hnoted []).2.2, fun r only => (hcopies r only).1,
    fun r only => (hcopies r only).2⟩, hmanifest⟩

variable {initial : Session}

/-- What the kernel is tied to does not change when the project is numbered anew, so none of it is
there. -/
lemma Bedrock.unrelated (bedrock : initial.Bedrock) {id other : DeclId} {relations : Relations}
    (hid : id.library ≠ .project) (hrelations : initial.libraries.relations? id = some relations)
    (hother : other ∈ relations.all) (hproper : other.Proper) : other.library ≠ .project := by
  intro hproject
  obtain ⟨r, only, hne⟩ := Renumbering.exists_onlyProject_decl_ne hproject hproper
  have hsame := (bedrock.copies r only).contents.relations? id
  rw [only.decl_eq hid, hrelations, Option.map_some] at hsame
  have hall : relations.all.map r.decl = relations.all := by
    conv_rhs => rw [Option.some.inj hsame]
    simp [Relations.all, Renumbering.relations]
  exact hne (List.map_eq_map_iff.1 (hall.trans (List.map_id _).symm) other hother)

lemma Bedrock.project_slot? (bedrock : initial.Bedrock) (category : Category) (index : Nat) :
    initial.libraries.slot? .project category index = none := by
  have hskeleton : (initial.libraries.project.slot? category index).map Entry.skeleton = none := by
    rw [← Library.slot?_skeleton, bedrock.project, Library.slot?_new]
  exact Option.map_eq_none_iff.1 hskeleton

/-- The documents of the kernel refer to nothing of the project but its root. -/
lemma Bedrock.lasting (bedrock : initial.Bedrock) : initial.Lasting := by
  intro unit hunit reference hreference
  have hid : initial.libraries.Identified := bedrock.booked.1.orderly.identified
  obtain ⟨refs, hrefs⟩ := bedrock.booked.2 unit (List.mem_append_right _ hunit) reference hreference
  obtain ⟨target, location⟩ := reference
  by_cases hproject : target.library = .project
  · refine .inr ?_
    cases target with
    | declaration id =>
      obtain ⟨entry, hfind, -⟩ := Option.map_eq_some_iff.1 hrefs
      rw [LibrarySet.find?_eq hid, show id.library = .project from hproject,
        bedrock.project_slot?] at hfind
      cases hfind
    | space ref =>
      obtain ⟨library, id⟩ := ref
      obtain rfl : library = .project := hproject
      obtain ⟨space, hspace, -⟩ := Option.map_eq_some_iff.1 hrefs
      have hskeleton : (Library.new .project initial.manifest.name).spaces.get? id
          = some space.skeleton := by
        rw [← bedrock.project, Library.spaces_skeleton, Arena.get?_skeleton,
          show initial.libraries.project.spaces.get? id = some space from hspace, Option.map_some]
      rw [(Library.space_new hskeleton).1]
  · exact .inl hproject

end Session

end SymbolGraph
