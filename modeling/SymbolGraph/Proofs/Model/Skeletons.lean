import Mathlib.Tactic.Lemma
import SymbolGraph.Teardown
import SymbolGraph.Validity

/-!
# What linking leaves alone

The *skeleton* of a library is what tidying builds and teardown takes away: the occupied slots with
the headers of their declarations, the namespace tree, the groups and the documents.  Linking,
unlinking and checking write references and bodies only, so they keep the skeleton of every
library, whatever they find.

The skeleton is computed: `Entry.skeleton` forgets references and body, and `Library.skeleton` and
`LibrarySet.skeleton` do so everywhere.  A step that keeps it is then one equation, and every
statement about slots, groups or namespaces that can be read off the skeleton passes along such
equations.  `SourceUnit.skeleton` does the same for a document: it keeps what tidying recorded.
-/

namespace SymbolGraph

/-! ## Skeletons -/

/-- A declaration without what linking knows of it. -/
def Entry.skeleton (entry : Entry) : Entry :=
  { entry with references := [], body := .fresh entry.id.category }

/-- A namespace without the places that name it. -/
def Namespace.skeleton (space : Namespace) : Namespace := { space with references := [] }

/-- The skeleton of every namespace of an arena. -/
def Arena.skeleton (arena : Arena) : Arena :=
  { arena with slots := arena.slots.map (Option.map Namespace.skeleton) }

/-- The skeleton of every namespace and every top-level declaration of a library. -/
def Library.skeleton (lib : Library) : Library :=
  { lib with
    spaces := lib.spaces.skeleton
    tables := lib.tables.map fun (category, table) =>
      (category, table.map (Option.map Entry.skeleton)) }

/-- The skeletons of all libraries. -/
def LibrarySet.skeleton (set : LibrarySet) : LibrarySet :=
  { set with
    project := set.project.skeleton
    kernel := set.kernel.skeleton
    imports := set.imports.map Library.skeleton }

/-- A document as tidying left it. -/
def SourceUnit.skeleton (unit : SourceUnit) : SourceUnit :=
  { unit with
    scopes := []
    links := []
    occurrences := unit.occurrences.filter fun occurrence => !occurrence.linked
    diagnostics := { tidy := unit.diagnostics.tidy } }

/-- Documents with the same skeletons can be matched up. -/
lemma SourceUnit.exists_of_skeleton_eq {units units' : List SourceUnit}
    (h : units'.map SourceUnit.skeleton = units.map SourceUnit.skeleton) {unit' : SourceUnit}
    (hunit : unit' ∈ units') : ∃ unit ∈ units, unit'.skeleton = unit.skeleton := by
  have hmem : unit'.skeleton ∈ units.map SourceUnit.skeleton := h ▸ List.mem_map_of_mem hunit
  obtain ⟨unit, hu, he⟩ := List.mem_map.1 hmem
  exact ⟨unit, hu, he.symm⟩

/-! ## Reading a skeleton -/

lemma Arena.get?_skeleton (arena : Arena) (id : SpaceId) :
    arena.skeleton.get? id = (arena.get? id).map Namespace.skeleton := by
  simp only [get?, skeleton, List.getElem?_map]
  cases arena.slots[id]? with
  | none => rfl
  | some slot => rfl

@[simp] lemma Arena.free_skeleton (arena : Arena) : arena.skeleton.free = arena.free := rfl

@[simp] lemma Arena.length_slots_skeleton (arena : Arena) :
    arena.skeleton.slots.length = arena.slots.length := by
  simp [skeleton]

lemma Library.table_skeleton (lib : Library) (category : Category) :
    lib.skeleton.table category = (lib.table category).map (Option.map Entry.skeleton) := by
  simp only [table, skeleton]
  induction lib.tables with
  | nil => rfl
  | cons entry rest ih =>
    obtain ⟨key, value⟩ := entry
    by_cases h : key = category
    · simp [h]
    · simpa [h] using ih

lemma Library.slot?_skeleton (lib : Library) (category : Category) (index : Nat) :
    lib.skeleton.slot? category index = (lib.slot? category index).map Entry.skeleton := by
  simp only [slot?, table_skeleton, List.getElem?_map]
  cases (lib.table category)[index]? with
  | none => rfl
  | some slot => rfl

@[simp] lemma Library.tableSize_skeleton (lib : Library) (category : Category) :
    lib.skeleton.tableSize category = lib.tableSize category := by
  simp [tableSize, table_skeleton]

@[simp] lemma Library.id_skeleton (lib : Library) : lib.skeleton.id = lib.id := rfl

@[simp] lemma Library.name_skeleton (lib : Library) : lib.skeleton.name = lib.name := rfl

@[simp] lemma Library.spaces_skeleton (lib : Library) :
    lib.skeleton.spaces = lib.spaces.skeleton := rfl

@[simp] lemma LibrarySet.names_skeleton (set : LibrarySet) : set.skeleton.names = set.names := rfl

lemma LibrarySet.get?_skeleton (set : LibrarySet) (id : LibraryId) :
    set.skeleton.get? id = (set.get? id).map Library.skeleton := by
  simp only [get?, skeleton]
  split
  · rfl
  · split
    · rfl
    · cases id.slot? with
      | none => rfl
      | some slot => simp

/-! ## Changes of one place -/

/-- An adjustment that changes no skeleton keeps the skeleton of the arena. -/
lemma Arena.skeleton_adjust (arena : Arena) (id : SpaceId) {f : Namespace → Namespace}
    (h : ∀ space, (f space).skeleton = space.skeleton) :
    (arena.adjust id f).skeleton = arena.skeleton := by
  simp only [skeleton, adjust, Arena.mk.injEq, and_true]
  refine List.ext_getElem? fun i => ?_
  simp only [List.getElem?_map, List.getElem?_modify]
  cases arena.slots[i]? with
  | none => rfl
  | some slot =>
    cases slot with
    | none => by_cases hi : id = i <;> simp [hi]
    | some space => by_cases hi : id = i <;> simp [hi, h]

lemma Library.skeleton_adjustSlot (lib : Library) (category : Category) (index : Nat)
    {f : Entry → Entry} (h : ∀ entry, (f entry).skeleton = entry.skeleton) :
    (lib.adjustSlot category index f).skeleton = lib.skeleton := by
  have htable (table : List (Option Entry)) :
      (table.modify index (Option.map f)).map (Option.map Entry.skeleton)
        = table.map (Option.map Entry.skeleton) := by
    refine List.ext_getElem? fun i => ?_
    simp only [List.getElem?_map, List.getElem?_modify]
    cases table[i]? with
    | none => rfl
    | some slot =>
      cases slot with
      | none => by_cases hi : index = i <;> simp [hi]
      | some entry => by_cases hi : index = i <;> simp [hi, h]
  simp only [skeleton, adjustSlot, Library.mk.injEq, true_and]
  induction lib.tables with
  | nil => rfl
  | cons entry rest ih =>
    obtain ⟨key, value⟩ := entry
    by_cases hk : key = category
    · simp [Assoc.adjust, hk, htable]
    · simp [Assoc.adjust, hk, ih]

/-- An edit that changes neither identity nor header of the declaration it is made on. -/
def Edit.KeepsHeader (edit : Edit) : Prop :=
  ∀ entry : Entry, (edit.onEntry entry).skeleton = entry.skeleton

lemma Edit.KeepsHeader.references (f : List Location → List Location) :
    (Edit.references f).KeepsHeader := fun _ => rfl

lemma Edit.KeepsHeader.callable (f : Callable → Callable) : (Edit.callable f).KeepsHeader :=
  fun _ => rfl

lemma Edit.KeepsHeader.setLeaf (leaf : Leaf) : (Edit.setLeaf leaf).KeepsHeader := fun _ => rfl

lemma Edit.KeepsHeader.body (f : Body → Body) : (Edit.body f).KeepsHeader := fun _ => rfl

lemma Edit.KeepsHeader.reset : Edit.reset.KeepsHeader := fun _ => rfl

lemma Library.skeleton_edit (lib : Library) (id : DeclId) {edit : Edit}
    (h : edit.KeepsHeader) : (lib.edit id edit).skeleton = lib.skeleton := by
  unfold Library.edit
  split
  · rfl
  · split
    · exact lib.skeleton_adjustSlot _ _ h
    · exact lib.skeleton_adjustSlot _ _ fun _ => rfl

namespace LibrarySet

lemma skeleton_adjust (set : LibrarySet) (id : LibraryId) {f : Library → Library}
    (h : ∀ lib, (f lib).skeleton = lib.skeleton) : (set.adjust id f).skeleton = set.skeleton := by
  unfold adjust
  split
  · simp [skeleton, h]
  · split
    · simp [skeleton, h]
    · split
      · simp only [skeleton, LibrarySet.mk.injEq, true_and, and_true]
        refine List.ext_getElem? fun i => ?_
        simp only [List.getElem?_map, List.getElem?_modify]
        cases set.imports[i]? with
        | none => rfl
        | some lib =>
          split
          · exact congrArg some (h lib)
          · rfl
      · rfl

lemma skeleton_edit (set : LibrarySet) (id : DeclId) {edit : Edit} (h : edit.KeepsHeader) :
    (set.edit id edit).skeleton = set.skeleton :=
  set.skeleton_adjust _ fun lib => lib.skeleton_edit id h

lemma skeleton_overReferences (set : LibrarySet) (f : List Location → List Location)
    (target : Target) : (set.overReferences f target).skeleton = set.skeleton := by
  cases target with
  | declaration id => exact set.skeleton_edit id (.references f)
  | space space =>
    refine set.skeleton_adjust _ fun lib => ?_
    simp only [Library.skeleton, Library.mk.injEq, true_and, and_true]
    exact lib.spaces.skeleton_adjust _ fun _ => rfl

lemma skeleton_overImplementors (set : LibrarySet) (base : DeclId)
    (f : List DeclId → List DeclId) : (set.overImplementors base f).skeleton = set.skeleton :=
  set.skeleton_edit base (.body _)

lemma skeleton_update (set : LibrarySet) (update : Update) :
    (update.apply set).skeleton = set.skeleton := by
  cases update with
  | «variable» target info => exact set.skeleton_edit target (.setLeaf _)
  | callable target params returns => exact set.skeleton_edit target (.callable _)
  | task target returns => exact set.skeleton_edit target (.body _)
  | inheritance target parent inherits => exact set.skeleton_edit target (.body _)

/-- A fold of steps that keep the skeleton keeps it. -/
lemma skeleton_foldl {α : Type} {step : LibrarySet → α → LibrarySet}
    (h : ∀ set x, (step set x).skeleton = set.skeleton) (xs : List α) (set : LibrarySet) :
    (xs.foldl step set).skeleton = set.skeleton := by
  induction xs generalizing set with
  | nil => rfl
  | cons x xs ih => rw [List.foldl_cons, ih, h]

end LibrarySet

/-! ## Link passes -/

namespace Linkage

/-- Two states of linking that differ in nothing that tidying made. -/
def SameSkeleton (before after : Linkage) : Prop :=
  after.libraries.skeleton = before.libraries.skeleton ∧ after.unit.skeleton = before.unit.skeleton

lemma SameSkeleton.refl (state : Linkage) : SameSkeleton state state := ⟨rfl, rfl⟩

lemma SameSkeleton.trans {a b c : Linkage} (h : SameSkeleton a b) (k : SameSkeleton b c) :
    SameSkeleton a c := ⟨k.1.trans h.1, k.2.trans h.2⟩

lemma sameSkeleton_foldl {α : Type} {step : Linkage → α → Linkage}
    (h : ∀ state x, SameSkeleton state (step state x)) (xs : List α) (state : Linkage) :
    SameSkeleton state (xs.foldl step state) := by
  induction xs generalizing state with
  | nil => exact .refl state
  | cons x xs ih => exact (h state x).trans (ih (step state x))

lemma sameSkeleton_addReference (state : Linkage) (found : Target × Location) :
    SameSkeleton state (state.addReference found) := by
  obtain ⟨target, location⟩ := found
  simp only [addReference]
  split
  · exact .refl state
  · split
    · exact .refl state
    · exact ⟨state.libraries.skeleton_overReferences _ target,
        by simp [SourceUnit.skeleton, SourceUnit.occur]⟩

lemma sameSkeleton_addHeir (state : Linkage) (found : DeclId × DeclId) :
    SameSkeleton state (state.addHeir found) := by
  obtain ⟨base, heir⟩ := found
  simp only [addHeir]
  split
  · exact .refl state
  · exact ⟨state.libraries.skeleton_overImplementors base _, rfl⟩

/-- Writing findings down changes no skeleton, whatever was found. -/
lemma sameSkeleton_apply (state : Linkage) (found : Findings) :
    SameSkeleton state (state.apply found) := by
  have hupdates : SameSkeleton state
      { state with libraries := found.updates.foldl Update.apply state.libraries } :=
    ⟨LibrarySet.skeleton_foldl LibrarySet.skeleton_update _ _, rfl⟩
  have hreferences := hupdates.trans
    (sameSkeleton_foldl sameSkeleton_addReference found.references _)
  have hheirs := hreferences.trans (sameSkeleton_foldl sameSkeleton_addHeir found.heirs _)
  exact hheirs.trans ⟨rfl, rfl⟩

lemma sameSkeleton_linkImports (state : Linkage) : SameSkeleton state state.linkImports := by
  unfold linkImports
  exact SameSkeleton.trans (b := { state with unit := { state.unit with scopes := _ } })
    ⟨rfl, rfl⟩ (sameSkeleton_apply _ _)

lemma sameSkeleton_linkEach (state : Linkage) (options : LinkOptions)
    (find : Context → DeclId → DeclNode → Findings) :
    SameSkeleton state (state.linkEach options find) := sameSkeleton_apply _ _

lemma sameSkeleton_declareFor (state : Linkage) (declared : DeclId × DeclNode) :
    SameSkeleton state (LinkMembers.declareFor state declared) := by
  obtain ⟨id, node⟩ := declared
  simp only [LinkMembers.declareFor]
  split
  · exact .refl state
  · refine ⟨state.libraries.skeleton_edit id (.body _), ?_⟩
    simp [SourceUnit.skeleton, List.filter_map, Function.comp_def, Diagnostics.append,
      Diagnostics.changePhase]

lemma sameSkeleton_declareMembers (state : Linkage) :
    SameSkeleton state state.declareMembers :=
  sameSkeleton_foldl sameSkeleton_declareFor _ _

lemma skeleton_dropLink (libraries : LibrarySet) (link : BackLink) :
    (dropLink libraries link).skeleton = libraries.skeleton := by
  cases link with
  | reference target location => exact libraries.skeleton_overReferences _ target
  | implementor base heir => exact libraries.skeleton_overImplementors base _

lemma sameSkeleton_unlink (state : Linkage) : SameSkeleton state state.unlink := by
  refine ⟨?_, ?_⟩
  · have hreset := LibrarySet.skeleton_foldl
      (fun set id => LibrarySet.skeleton_edit set id Edit.KeepsHeader.reset)
      state.unit.declarations (state.unit.links.foldl dropLink state.libraries)
    exact hreset.trans (LibrarySet.skeleton_foldl skeleton_dropLink _ _)
  · simp [unlink, SourceUnit.skeleton, Diagnostics.clear, Diagnostics.changePhase]

end Linkage

/-! ## Checks and marks -/

namespace LibrarySet

lemma skeleton_stripRelations (set : LibrarySet) (id : DeclId) :
    (set.stripRelations id).skeleton = set.skeleton :=
  skeleton_foldl
    (fun set (pair : DeclId × DeclId) => set.skeleton_edit pair.1 (.callable _)) _ _

lemma skeleton_clearRelations (set : LibrarySet) (library : LibraryId) :
    (set.clearRelations library).skeleton = set.skeleton := by
  unfold clearRelations
  split
  · rfl
  · exact skeleton_foldl (fun set (owner : Entry) => set.skeleton_edit owner.id (.body _)) _ _

lemma skeleton_relate (library : LibraryId) (set : LibrarySet) (function : DeclId)
    (f : Relations → Relations) : (relate library set function f).skeleton = set.skeleton := by
  unfold relate
  split
  · exact set.skeleton_edit function (.callable _)
  · rfl

lemma skeleton_record (library : LibraryId) (set : LibrarySet) (verdict : Verdict) :
    (record library set verdict).skeleton = set.skeleton := by
  unfold record
  rw [skeleton_foldl, skeleton_foldl]
  · intro set pair
    simp only [addOverride, skeleton_relate]
  · intro set pair
    simp only [addImplementation, skeleton_relate]

/-- Checking a library changes no skeleton. -/
theorem skeleton_check (set : LibrarySet) (library : LibraryId) :
    (set.check library).1.skeleton = set.skeleton := by
  simp only [check]
  split
  · exact set.skeleton_clearRelations library
  · rw [skeleton_record, skeleton_clearRelations]

end LibrarySet

end SymbolGraph
