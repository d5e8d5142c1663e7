import SymbolGraph.Proofs.Renumbering.Checking
import SymbolGraph.Proofs.Renumbering.Tidying

/-!
# Libraries that agree

Where only the identities of imports differ, declarations keep their indices and namespaces their
slots (`Renumbering.OnlyLibraries`).  Two libraries then *match* if one is the other under the new
identities, as far as their contents go (`Library.Matches`), and they *agree*, in two models, if
what they inherit also lies near (`LibrarySet.Agree`).

That libraries match depends on their contents only.  Models in which all libraries of an area agree
match in the area, and the other way round: linking and checking two libraries that have been tidied
alike makes them agree.
-/

namespace SymbolGraph

/-! ## Other identities of libraries -/

/-- The project keeps its numbers, so only the identities of imports change. -/
structure Renumbering.OnlyLibraries (r : Renumbering) : Prop where
  index : ∀ category, r.index category = Equiv.refl Nat
  space : r.space = Equiv.refl SpaceId

namespace Renumbering.OnlyLibraries

variable {r : Renumbering} (only : r.OnlyLibraries)

include only

lemma slot_eq (library : LibraryId) (category : Category) (index : Nat) :
    r.slot library category index = index := by
  rw [slot, only.index]
  exact ite_self _

lemma place_eq (library : LibraryId) (space : SpaceId) : r.place library space = space := by
  rw [place, only.space]
  exact ite_self _

end Renumbering.OnlyLibraries

/-! ## Bases of bodies -/

lemma Body.bases_content (body : Body) : body.content.bases = body.bases := by
  cases body <;> rfl

lemma Body.bases_skeleton {entry : Entry} (h : entry.skeleton = entry) : entry.body.bases = [] := by
  rw [← h]
  exact Body.bases_fresh entry.id.category

/-! ## Libraries that match -/

/-- The second library is the first one under the new identities, as far as tidying made it and as
far as the contents of its declarations go. -/
structure Library.Matches (r : Renumbering) (lib lib' : Library) : Prop where
  skeleton : lib'.skeleton = lib.skeleton.renumber r
  slots : ∀ category index, (lib'.slot? category index).map Entry.content
    = (lib.slot? category index).map fun entry => r.entry entry.content

namespace Library

variable {r : Renumbering} {lib lib' other other' : Library}

lemma skeleton_renumber (r : Renumbering) (lib : Library) :
    (lib.renumber r).skeleton = lib.skeleton.renumber r := by
  have hspaces : (lib.spaces.renumber r).skeleton = lib.spaces.skeleton.renumber r := by
    simp only [Arena.skeleton, Arena.renumber, List.map_map, Arena.mk.injEq, and_true]
    refine List.map_congr_left fun slot _ => ?_
    cases slot <;> rfl
  have htable (table : List (Option Entry)) :
      (table.map (Option.map r.entry)).map (Option.map Entry.skeleton)
        = (table.map (Option.map Entry.skeleton)).map (Option.map r.entry) := by
    simp only [List.map_map, Option.map_comp_map]
    exact List.map_congr_left fun slot _ => congrArg (Option.map · slot)
      (funext fun entry => r.skeleton_entry entry)
  simp only [skeleton, renumber, hspaces, List.map_map, Function.comp_def, htable]

/-- A library matches itself under the new identities. -/
lemma matches_renumber (r : Renumbering) (lib : Library) : lib.Matches r (lib.renumber r) where
  skeleton := lib.skeleton_renumber r
  slots category index := by
    rw [lib.slot?_renumber, Option.map_map]
    exact congrArg (Option.map · _) (funext fun entry => r.content_entry entry)

/-- Whether libraries match depends on their contents only. -/
lemma Matches.congr (h : lib.Matches r lib') (hlib : other.contents = lib.contents)
    (hlib' : other'.contents = lib'.contents) : other.Matches r other' := by
  have hslot {lib other : Library} (heq : other.contents = lib.contents) (category : Category)
      (index : Nat) : (other.slot? category index).map Entry.content
        = (lib.slot? category index).map Entry.content := by
    rw [← slot?_view, ← slot?_view]
    exact congrArg (slot? · category index) heq
  refine ⟨?_, fun category index => ?_⟩
  · rw [← other'.skeleton_contents, hlib', skeleton_contents, h.skeleton, ← lib.skeleton_contents,
      ← hlib, skeleton_contents]
  · have hmatch := h.slots category index
    rw [← hslot hlib'] at hmatch
    rw [hmatch, ← Function.comp_def r.entry, ← Option.map_map, ← Option.map_map, hslot hlib]

/-- The namespace in a slot of a library, and the one in the same slot of the other library. -/
lemma Matches.space (h : lib.Matches r lib') (only : r.OnlyLibraries) (library : LibraryId)
    (id : SpaceId) : Option.Rel (Namespace.Matches r library) (lib.spaces.get? id)
      (lib'.spaces.get? id) := by
  have hspaces : lib'.spaces.skeleton = lib.spaces.skeleton.renumber r :=
    congrArg Library.spaces h.skeleton
  have hget : (lib'.spaces.get? id).map Namespace.skeleton
      = (lib.spaces.get? id).map fun space => space.skeleton.renumber r := by
    rw [← Arena.get?_skeleton, hspaces, Arena.get?_renumber, Arena.get?_skeleton, Option.map_map]
    rfl
  cases hspace : lib.spaces.get? id with
  | none =>
    rw [hspace, Option.map_none, Option.map_eq_none_iff] at hget
    rw [hget]
    exact .none
  | some space =>
    rw [hspace] at hget
    obtain ⟨space', hspace', heq⟩ := Option.map_eq_some_iff.1 hget
    have hplace : r.place library = fun space => space := funext (only.place_eq library)
    rw [hspace']
    refine .some ⟨?_, ?_, congrArg (·.name) heq, fun name => ?_, fun name => ?_⟩
    · rw [hplace]
      exact congrArg (·.id) heq
    · rw [hplace, Option.map_id']
      exact congrArg (·.parent) heq
    · rw [hplace, Option.map_id']
      exact congrArg (·.children.at? name) heq
    · have hgroup : space'.group name = (space.skeleton.renumber r).group name :=
        congrArg (·.group name) heq
      rw [hgroup, Namespace.group_renumber]
      rfl

end Library

/-! ## Libraries that agree -/

namespace LibrarySet

variable {r : Renumbering} {area : Area} {near near' : LibraryId → Prop} {library : LibraryId}
  {set set' other other' : LibrarySet}

/-- The libraries have the same skeletons, under the new identities. -/
def SameSkeletons (r : Renumbering) (library : LibraryId) (set set' : LibrarySet) : Prop :=
  (set'.get? (r.library library)).map Library.skeleton
    = (set.get? library).map fun lib => lib.skeleton.renumber r

lemma SameSkeletons.sameSpaces (h : SameSkeletons r library set set') :
    SameSpaces r library set set' := by
  have hspaces := congrArg (Option.map Library.spaces) h
  rw [Option.map_map, Option.map_map] at hspaces
  rw [SameSpaces, arena?, arena?, Option.map_map]
  exact hspaces

lemma SameSkeletons.congr (h : SameSkeletons r library set set')
    (hset : other.skeleton = set.skeleton) (hset' : other'.skeleton = set'.skeleton) :
    SameSkeletons r library other other' := by
  have hread {set other : LibrarySet} (heq : other.skeleton = set.skeleton) (library : LibraryId) :
      (other.get? library).map Library.skeleton = (set.get? library).map Library.skeleton := by
    rw [← get?_skeleton, ← get?_skeleton, heq]
  have hrenumber (set : LibrarySet) : (set.get? library).map (fun lib => lib.skeleton.renumber r)
      = ((set.get? library).map Library.skeleton).map (Library.renumber r) := by
    rw [Option.map_map]
    rfl
  rw [SameSkeletons, hread hset', h, hrenumber, hrenumber, hread hset]

/-- The libraries match, and what the first one inherits lies near. -/
structure Agree (r : Renumbering) (near : LibraryId → Prop) (library : LibraryId)
    (set set' : LibrarySet) : Prop where
  libraries : Option.Rel (Library.Matches r) (set.get? library) (set'.get? (r.library library))
  bases : ∀ category index entry, set.slot? library category index = some entry →
    ∀ base ∈ entry.body.bases, near base.library

lemma Agree.mono (h : Agree r near library set set') (hnear : ∀ id, near id → near' id) :
    Agree r near' library set set' :=
  ⟨h.libraries, fun category index entry hslot base hbase =>
    hnear base.library (h.bases category index entry hslot base hbase)⟩

/-- Whether libraries agree depends on their contents only. -/
lemma Agree.congr (h : Agree r near library set set')
    (hset : other.contents? library = set.contents? library)
    (hset' : other'.contents? (r.library library) = set'.contents? (r.library library)) :
    Agree r near library other other' := by
  obtain ⟨libraries, bases⟩ := h
  unfold contents? at hset hset'
  unfold slot? at bases
  obtain ⟨hnone, hnone'⟩ | ⟨lib, lib', hlib, hlib', matching⟩ := rel_cases libraries
  · rw [hnone, Option.map_none, Option.map_eq_none_iff] at hset
    rw [hnone', Option.map_none, Option.map_eq_none_iff] at hset'
    refine ⟨?_, fun category index entry hslot => ?_⟩
    · rw [hset, hset']
      exact .none
    · rw [slot?, hset] at hslot
      cases hslot
  · rw [hlib] at hset bases
    rw [hlib'] at hset'
    obtain ⟨next, hnext, hcontents⟩ := Option.map_eq_some_iff.1 hset
    obtain ⟨next', hnext', hcontents'⟩ := Option.map_eq_some_iff.1 hset'
    refine ⟨?_, fun category index entry hslot => ?_⟩
    · rw [hnext, hnext']
      exact .some (matching.congr hcontents hcontents')
    · rw [slot?_of_get? hnext] at hslot
      -- The bases of a record are part of its content, so equal contents name the same ones.
      have hview : (next.slot? category index).map Entry.content
          = (lib.slot? category index).map Entry.content := by
        rw [← Library.slot?_view, ← Library.slot?_view]
        exact congrArg (Library.slot? · category index) hcontents
      rw [hslot, Option.map_some, eq_comm] at hview
      obtain ⟨old, hold, hentry⟩ := Option.map_eq_some_iff.1 hview
      have hbases : entry.body.bases = old.body.bases := by
        rw [← entry.body.bases_content, ← old.body.bases_content]
        exact congrArg (·.body.bases) hentry.symm
      rw [hbases]
      exact bases category index old hold

/-- Models in which all libraries of an area agree match there. -/
lemma contents_of_agree (only : r.OnlyLibraries) (hid : set.Identified) (hid' : set'.Identified)
    (kernel : area.near .kernel)
    (near : ∀ name, area.known name → ∀ library, set.named? name = some library → area.near library)
    (names : ∀ name, area.known name → set'.named? name = (set.named? name).map r.library)
    (agree : ∀ library, area.near library → Agree r area.near library set set') :
    Linkage.Contents r area set set' := by
  refine ⟨⟨hid, hid', kernel, near, names, fun library hnear => ?_, fun ref hnear => ?_, ?_,
    fun library category index hnear => ?_⟩, fun id kin hnear hkin base hbase => ?_⟩
  · -- Which library, space or slot it is does not change under a renumbering of libraries, so each
    -- field is the agreement on one library.
    obtain ⟨hnone, hnone'⟩ | ⟨_, _, hlib, hlib', -⟩ := rel_cases (agree library hnear).libraries
    · rw [hnone, hnone']
    · rw [hlib, hlib']
      rfl
  · rw [space?, space?, Renumbering.ref, only.place_eq]
    obtain ⟨hnone, hnone'⟩ | ⟨_, _, hlib, hlib', matching⟩ :=
      rel_cases (agree ref.library hnear).libraries
    · rw [hnone, hnone']
      exact .none
    · rw [hlib, hlib']
      exact matching.space only ref.library ref.space
  · rw [only.space]
    rfl
  · rw [slot?, slot?, only.slot_eq]
    obtain ⟨hnone, hnone'⟩ | ⟨_, _, hlib, hlib', matching⟩ :=
      rel_cases (agree library hnear).libraries
    · rw [hnone, hnone']
      rfl
    · rw [hlib, hlib']
      exact matching.slots category index
  · obtain ⟨entry, hslot, rfl⟩ := Option.map_eq_some_iff.1 hkin
    rw [Body.bases_kin] at hbase
    exact (agree id.library hnear).bases _ _ entry hslot base hbase

/-- Libraries of models that match agree if they have been tidied alike. -/
lemma agree_of_contents (only : r.OnlyLibraries) (h : Linkage.Contents r area set set')
    (hnear : area.near library) (hskeletons : SameSkeletons r library set set') :
    Agree r area.near library set set' := by
  refine ⟨?_, fun category index entry hslot => h.2.slot hnear hslot⟩
  cases hlib : set.get? library with
  | none =>
    rw [h.1.get?_eq_none hnear hlib]
    exact .none
  | some lib =>
    obtain ⟨lib', hlib'⟩ := h.1.exists_library hnear hlib
    rw [SameSkeletons, hlib, hlib'] at hskeletons
    rw [hlib']
    refine .some ⟨Option.some.inj hskeletons, fun category index => ?_⟩
    have hslot := h.1.slots library category index hnear
    rwa [slot?, slot?, hlib, hlib', only.slot_eq] at hslot

lemma Agree.sameSkeletons (h : Agree r near library set set') :
    SameSkeletons r library set set' := by
  unfold SameSkeletons
  obtain ⟨hnone, hnone'⟩ | ⟨_, _, hlib, hlib', matching⟩ := rel_cases h.libraries
  · rw [hnone, hnone']
    rfl
  · rw [hlib, hlib']
    exact congrArg some matching.skeleton

/-- What has been tidied into a new library inherits nothing, so it agrees with what has been tidied
alike into another one. -/
lemma agree_of_grows {start : LibrarySet} {name : String} (hnew : start.get? library
      = some (.new library name)) (grows : start.Grows library set)
    (hloaded : set'.get? (r.library library) = (set.get? library).map (Library.renumber r)) :
    Agree r near library set set' := by
  obtain ⟨lib, hlib, hgrows⟩ := grows.grown hnew
  refine ⟨?_, fun category index entry hslot base hbase => ?_⟩
  · rw [hloaded, hlib]
    exact .some (lib.matches_renumber r)
  · rw [slot?_of_get? hlib] at hslot
    rcases hgrows.slot_only hslot with hold | ⟨-, hfresh⟩
    · rw [Library.slot?_new] at hold
      cases hold
    · rw [Body.bases_skeleton hfresh] at hbase
      cases hbase

end LibrarySet

/-- Linking and checking libraries that have been tidied alike makes them agree. -/
theorem Linkages.agree_finish {r : Renumbering} {area : Area} {others others' : List SourceUnit}
    {state state' : Linkages} (related : Related SourceUnit.Undeclared (Linkage.Contents r area)
      (Linkage.Documents r area) others others' state state') (only : r.OnlyLibraries)
    (options : LinkOptions) {library : LibraryId} (hnear : area.near library)
    (hproject : library ≠ .project)
    (hskeletons : LibrarySet.SameSkeletons r library state.libraries state'.libraries) :
    LibrarySet.Agree r area.near library (state.finish options library).libraries
        (state'.finish options (r.library library)).libraries ∧
      List.Forall₂ (SourceUnit.Matches r) (state.finish options library).units
        (state'.finish options (r.library library)).units := by
  obtain ⟨hcontents, hunits⟩ := matches_finish related options hnear hproject hskeletons.sameSpaces
  exact ⟨LibrarySet.agree_of_contents only hcontents hnear
    (hskeletons.congr (skeleton_finish state options library).1
      (skeleton_finish state' options (r.library library)).1), hunits⟩

end SymbolGraph
