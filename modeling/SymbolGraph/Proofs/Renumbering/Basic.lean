import Mathlib.Logic.Equiv.Basic
import SymbolGraph.Proofs.Model.RecordCores

/-!
# Other numbers

Which index a declaration of the project has, and which slot a namespace, depends on what was torn
down before.  Which identity an import has depends on what was loaded before.  A `Renumbering` gives
the top-level declarations of the project other indices, category by category, its namespaces other
slots, and imports other identities.  It acts on identities, types, records and updates.

Members are numbered by their positions, so only the library and the index of the owner change in
the identity of a member.
-/

namespace SymbolGraph

/-! ## Permutations -/

/-- A list without repetitions is mapped to any other one of its length by a permutation. -/
lemma exists_perm_map_eq {α : Type} [DecidableEq α] {xs ys : List α}
    (hlength : xs.length = ys.length) (hxs : xs.Nodup) (hys : ys.Nodup) :
    ∃ σ : Equiv.Perm α, xs.map σ = ys := by
  induction xs generalizing ys with
  | nil => exact ⟨Equiv.refl α, (List.length_eq_zero_iff.1 hlength.symm).symm⟩
  | cons x xs ih =>
    obtain _ | ⟨y, ys⟩ := ys
    · cases hlength
    · obtain ⟨hx, hxs⟩ := List.nodup_cons.1 hxs
      obtain ⟨hy, hys⟩ := List.nodup_cons.1 hys
      obtain ⟨σ, rfl⟩ := ih (Nat.succ.inj hlength) hxs hys
      -- Swapping two images moves no other one.
      refine ⟨σ.trans (Equiv.swap (σ x) y), ?_⟩
      simp only [List.map_cons, Equiv.trans_apply, Equiv.swap_apply_left, List.cons.injEq, true_and]
      refine List.map_congr_left fun z hz => Equiv.swap_apply_of_ne_of_ne ?_ ?_
      · exact fun heq => hx (σ.injective heq ▸ hz)
      · exact fun heq => hy (heq ▸ List.mem_map_of_mem hz)

/-! ## Renumberings -/

/-- Other indices for the declarations of the project, other slots for its namespaces, and other
identities for imports. -/
structure Renumbering where
  index : Category → Equiv.Perm Nat
  space : Equiv.Perm SpaceId
  library : Equiv.Perm LibraryId
  library_project : library .project = .project
  library_kernel : library .kernel = .kernel

namespace Renumbering

/-- The renumbering that changes nothing. -/
def refl : Renumbering := ⟨fun _ => Equiv.refl _, Equiv.refl _, Equiv.refl _, rfl, rfl⟩

/-- The way back. -/
def symm (r : Renumbering) : Renumbering where
  index category := (r.index category).symm
  space := r.space.symm
  library := r.library.symm
  library_project := (Equiv.symm_apply_eq _).2 r.library_project.symm
  library_kernel := (Equiv.symm_apply_eq _).2 r.library_kernel.symm

variable (r : Renumbering)

/-! ## Libraries -/

@[simp] lemma library_refl (library : LibraryId) : refl.library library = library := rfl

@[simp] lemma library_symm_library (library : LibraryId) :
    r.symm.library (r.library library) = library := r.library.symm_apply_apply library

@[simp] lemma library_library_symm (library : LibraryId) :
    r.library (r.symm.library library) = library := r.library.apply_symm_apply library

lemma library_eq_project {library : LibraryId} :
    r.library library = .project ↔ library = .project := by
  conv_lhs => rw [← r.library_project, r.library.injective.eq_iff]

lemma library_eq_kernel {library : LibraryId} :
    r.library library = .kernel ↔ library = .kernel := by
  conv_lhs => rw [← r.library_kernel, r.library.injective.eq_iff]

/-! ## Identities -/

/-- The new index of a top-level declaration. -/
def slot (library : LibraryId) (category : Category) (index : Nat) : Nat :=
  if library = .project ∧ category.isMember = false then r.index category index else index

/-- The new slot of a namespace. -/
def place (library : LibraryId) (space : SpaceId) : SpaceId :=
  if library = .project then r.space space else space

/-- The new identity of a declaration: a member has that of its owner in it. -/
def decl (id : DeclId) : DeclId :=
  match id.category.owner? with
  | none => { id with
      library := r.library id.library
      index := r.slot id.library id.category id.index }
  | some owner => { id with
      library := r.library id.library
      define := id.define.map (r.slot id.library owner) }

/-- The new identity of a namespace. -/
def ref (ref : SpaceRef) : SpaceRef := ⟨r.library ref.library, r.place ref.library ref.space⟩

/-- What a name means under the new numbers. -/
def target : Target → Target
  | .declaration id => .declaration (r.decl id)
  | .space ref => .space (r.ref ref)

@[simp] lemma slot_refl : refl.slot = fun _ _ index => index := by
  funext library category index
  simp [slot, refl]

/-- Slots change in the project only, which keeps its identity. -/
@[simp] lemma slot_library (r' : Renumbering) (library : LibraryId) :
    r'.slot (r.library library) = r'.slot library := by
  funext category index
  simp only [slot, library_eq_project]

@[simp] lemma place_library (r' : Renumbering) (library : LibraryId) :
    r'.place (r.library library) = r'.place library := by
  funext space
  simp only [place, library_eq_project]

@[simp] lemma place_refl : refl.place = fun _ space => space := by
  funext library space
  simp [place, refl]

@[simp] lemma slot_symm_slot (library : LibraryId) (category : Category) (index : Nat) :
    r.symm.slot library category (r.slot library category index) = index := by
  unfold slot symm
  split <;> simp

@[simp] lemma slot_slot_symm (library : LibraryId) (category : Category) (index : Nat) :
    r.slot library category (r.symm.slot library category index) = index := by
  unfold slot symm
  split <;> simp

@[simp] lemma place_symm_place (library : LibraryId) (space : SpaceId) :
    r.symm.place library (r.place library space) = space := by
  unfold place symm
  split <;> simp

@[simp] lemma place_place_symm (library : LibraryId) (space : SpaceId) :
    r.place library (r.symm.place library space) = space := by
  unfold place symm
  split <;> simp

@[simp] lemma library_decl (id : DeclId) : (r.decl id).library = r.library id.library := by
  unfold decl
  split <;> rfl

@[simp] lemma category_decl (id : DeclId) : (r.decl id).category = id.category := by
  unfold decl
  split <;> rfl

lemma decl_top (library : LibraryId) {category : Category} (index : Nat)
    (h : category.isMember = false) : r.decl ⟨library, category, index, none⟩
      = ⟨r.library library, category, r.slot library category index, none⟩ := by
  have howner : category.owner? = none := by
    simpa [Category.isMember] using h
  simp [decl, howner]

lemma decl_member (library : LibraryId) {category owner : Category} (position index : Nat)
    (h : category.owner? = some owner) : r.decl ⟨library, category, position, some index⟩
      = ⟨r.library library, category, position, some (r.slot library owner index)⟩ := by
  simp [decl, h]

/-- Owners are renumbered with their members. -/
lemma owner?_decl (id : DeclId) : (r.decl id).owner? = id.owner?.map r.decl := by
  obtain ⟨library, category, index, define⟩ := id
  cases hc : category.owner? with
  | none => simp [decl, DeclId.owner?, hc]
  | some owner =>
    have htop : owner.isMember = false := by
      cases category <;> simp only [Category.owner?, Option.some.injEq, reduceCtorEq] at hc <;>
        subst hc <;> rfl
    cases define with
    | none => simp [decl, DeclId.owner?, hc]
    | some index' => simp [decl_member _ _ _ _ hc, DeclId.owner?, hc,
      decl_top r library index' htop]

@[simp] lemma decl_refl : refl.decl = fun id => id := by
  funext id
  unfold decl
  split <;> simp

@[simp] lemma decl_symm_decl (id : DeclId) : r.symm.decl (r.decl id) = id := by
  obtain ⟨library, category, index, define⟩ := id
  cases hc : category.owner? <;> simp [decl, hc, Function.comp_def]

@[simp] lemma decl_decl_symm (id : DeclId) : r.decl (r.symm.decl id) = id :=
  r.symm.decl_symm_decl id

lemma decl_injective : Function.Injective r.decl :=
  Function.LeftInverse.injective r.decl_symm_decl

@[simp] lemma ref_refl : refl.ref = fun ref => ref := by
  funext ref
  simp [Renumbering.ref]

@[simp] lemma ref_symm_ref (ref : SpaceRef) : r.symm.ref (r.ref ref) = ref := by
  simp [Renumbering.ref]

@[simp] lemma ref_ref_symm (ref : SpaceRef) : r.ref (r.symm.ref ref) = ref :=
  r.symm.ref_symm_ref ref

lemma ref_injective : Function.Injective r.ref :=
  Function.LeftInverse.injective r.ref_symm_ref

@[simp] lemma target_symm_target (target : Target) : r.symm.target (r.target target) = target := by
  cases target <;> simp [Renumbering.target]

lemma kernelRoot_ref : r.ref LibrarySet.kernelRoot = LibrarySet.kernelRoot := by
  simp [Renumbering.ref, LibrarySet.kernelRoot, r.library_kernel, place]

/-- Members keep their positions. -/
lemma index_decl_of_owner {id owner : DeclId} (h : id.owner? = some owner) :
    (r.decl id).index = id.index := by
  unfold decl
  unfold DeclId.owner? at h
  split at h
  · next hc _ => rw [hc]
  · cases h

/-- The seat of a renumbered declaration. -/
lemma seat_decl (id : DeclId) :
    (r.decl id).seat = (id.seat.1, r.slot id.library id.seat.1 id.seat.2) := by
  obtain ⟨library, category, index, define⟩ := id
  cases hc : category.owner? with
  | none => simp [decl, DeclId.seat, DeclId.owner?, hc]
  | some owner =>
    have hmember : category.isMember = true := by simp [Category.isMember, hc]
    cases define with
    | none => simp [decl, DeclId.seat, DeclId.owner?, hc, slot, hmember]
    | some index' => simp [decl, DeclId.seat, DeclId.owner?, hc]

/-! ## Types -/

/-- The new form of a type: that of the declaration that defines it. -/
def ty (ty : Ty) : Ty :=
  { ty with
    library := r.library ty.library
    index := match ty.code.category? with
      | none => ty.index
      | some category => r.slot ty.library category ty.index }

@[simp] lemma code_ty (ty : Ty) : (r.ty ty).code = ty.code := rfl

@[simp] lemma dimension_ty (ty : Ty) : (r.ty ty).dimension = ty.dimension := rfl

@[simp] lemma isInvalid_ty (ty : Ty) : (r.ty ty).isInvalid = ty.isInvalid := rfl

@[simp] lemma isArray_ty (ty : Ty) : (r.ty ty).isArray = ty.isArray := rfl

@[simp] lemma ty_invalid : r.ty .invalid = .invalid := by
  simp [Renumbering.ty, Ty.invalid, TypeCode.category?, r.library_kernel]

@[simp] lemma ty_refl : refl.ty = fun ty => ty := by
  funext ty
  unfold Renumbering.ty
  cases ty.code.category? <;> simp

@[simp] lemma ty_symm_ty (ty : Ty) : r.symm.ty (r.ty ty) = ty := by
  obtain ⟨library, code, index, dimension⟩ := ty
  cases code <;> simp [Renumbering.ty, TypeCode.category?]

lemma ty_withDimension (ty : Ty) (dimension : Nat) :
    r.ty (ty.withDimension dimension) = (r.ty ty).withDimension dimension := by
  unfold Ty.withDimension
  rw [isInvalid_ty]
  split <;> rfl

lemma declaration?_ty (ty : Ty) : (r.ty ty).declaration? = ty.declaration?.map r.decl := by
  obtain ⟨library, code, index, dimension⟩ := ty
  cases code <;> simp [Ty.declaration?, Renumbering.ty, TypeCode.category?, decl, Category.owner?]

lemma of_decl (id : DeclId) : Ty.of (r.decl id) = r.ty (Ty.of id) := by
  obtain ⟨library, category, index, define⟩ := id
  cases category <;> simp [Ty.of, decl, Renumbering.ty, TypeCode.ofCategory, TypeCode.category?,
    Category.owner?, Ty.invalid, r.library_kernel]

lemma defining_decl (id : DeclId) : Ty.defining (r.decl id) = r.ty (Ty.defining id) := by
  unfold Ty.defining
  rw [owner?_decl]
  cases id.owner? with
  | none => exact r.of_decl id
  | some owner =>
    simp only [Option.map_some, category_decl]
    split
    · exact r.ty_invalid.symm
    · exact r.of_decl owner

/-! ## Records -/

def relations (relations : Relations) : Relations :=
  ⟨relations.overrides.map r.decl, relations.overriddenBy.map r.decl,
    relations.implements.map r.decl, relations.implementedBy.map r.decl⟩

def parameter (parameter : Parameter) : Parameter := { parameter with ty := r.ty parameter.ty }

def variableInfo (info : VariableInfo) : VariableInfo := { info with ty := r.ty info.ty }

def leaf : Leaf → Leaf
  | .variable info => .variable (r.variableInfo info)
  | .callable info =>
    .callable ⟨info.params.map r.parameter, info.returns.map r.ty, r.relations info.relations⟩
  | .element => .element

/-- A record under its new identity, in its namespace, with another body. -/
def symbol {β : Type} (f : β → β) (symbol : Symbol β) : Symbol β :=
  { symbol.map f with
    id := r.decl symbol.id
    space := r.place symbol.id.library symbol.space }

def member : Member → Member := r.symbol r.leaf

def body : Body → Body
  | .leaf part => .leaf (r.leaf part)
  | .task returns => .task (returns.map r.ty)
  | .enum elements => .enum (elements.map r.member)
  | .struct fields functions => .struct (fields.map r.member) (functions.map r.member)
  | .interface info =>
    .interface ⟨info.inherits.map r.ty, info.functions.map r.member, info.implementors.map r.decl⟩
  | .class info =>
    .class ⟨info.parent.map r.ty, info.inherits.map r.ty, info.fields.map r.member,
      info.constructors.map r.member, info.functions.map r.member, info.implementors.map r.decl⟩
  | .invalid => .invalid

/-- A record under the new numbers. -/
def entry : Entry → Entry := r.symbol r.body

@[simp] lemma body_fresh (category : Category) : r.body (.fresh category) = .fresh category := by
  cases category <;> simp [Renumbering.body, Renumbering.leaf, variableInfo, relations, Body.fresh,
    Leaf.fresh]

@[simp] lemma leaf_fresh (category : Category) : r.leaf (.fresh category) = .fresh category := by
  cases category <;> simp [Renumbering.leaf, variableInfo, relations, Leaf.fresh]

@[simp] lemma id_entry (entry : Entry) : (r.entry entry).id = r.decl entry.id := rfl

@[simp] lemma id_member (member : Member) : (r.member member).id = r.decl member.id := rfl

@[simp] lemma body_entry (entry : Entry) : (r.entry entry).body = r.body entry.body := rfl

@[simp] lemma leaf_refl : refl.leaf = fun leaf => leaf := by
  have hparameter : refl.parameter = fun p => p := funext fun p => by simp [parameter]
  funext leaf
  cases leaf <;> simp [Renumbering.leaf, variableInfo, relations, hparameter]

@[simp] lemma member_refl : refl.member = fun member => member := by
  funext member
  simp [Renumbering.member, symbol, Symbol.map]

@[simp] lemma body_refl : refl.body = fun body => body := by
  funext body
  cases body <;> simp [Renumbering.body]

@[simp] lemma entry_refl : refl.entry = fun entry => entry := by
  funext entry
  simp [Renumbering.entry, symbol, Symbol.map]

@[simp] lemma leaf_symm_leaf (leaf : Leaf) : r.symm.leaf (r.leaf leaf) = leaf := by
  have hparameter (p : Parameter) : r.symm.parameter (r.parameter p) = p := by simp [parameter]
  cases leaf <;>
    simp [Renumbering.leaf, variableInfo, relations, hparameter, Function.comp_def]

@[simp] lemma member_symm_member (member : Member) : r.symm.member (r.member member) = member := by
  simp [Renumbering.member, symbol, Symbol.map]

@[simp] lemma body_symm_body (body : Body) : r.symm.body (r.body body) = body := by
  cases body <;> simp [Renumbering.body, Function.comp_def]

@[simp] lemma entry_symm_entry (entry : Entry) : r.symm.entry (r.entry entry) = entry := by
  simp [Renumbering.entry, symbol, Symbol.map]

lemma members?_body (body : Body) (category : Category) :
    (r.body body).members? category = (body.members? category).map (List.map r.member) := by
  cases body <;> cases category <;> rfl

lemma body_overMembers (body : Body) (category : Category) {f g : List Member → List Member}
    (h : ∀ list, (f list).map r.member = g (list.map r.member)) :
    r.body (body.overMembers category f) = (r.body body).overMembers category g := by
  cases body <;> cases category <;> simp [Body.overMembers, Renumbering.body, h]

lemma allMembers_body (body : Body) : (r.body body).allMembers = body.allMembers.map r.member := by
  cases body <;> simp [Body.allMembers, Renumbering.body]

lemma functions_body (body : Body) : (r.body body).functions = body.functions.map r.member := by
  cases body <;> rfl

lemma toEntry_member (member : Member) : (r.member member).toEntry = r.entry member.toEntry := rfl

lemma skeleton_entry (entry : Entry) : (r.entry entry).skeleton = r.entry entry.skeleton := by
  simp [Entry.skeleton, Renumbering.entry, Renumbering.symbol, Symbol.map]

lemma core_leaf (leaf : Leaf) : (r.leaf leaf).core = r.leaf leaf.core := by
  cases leaf <;> rfl

lemma core_member (member : Member) : (r.member member).core = r.member member.core := by
  simp [Member.core, Renumbering.member, Renumbering.symbol, Symbol.map, core_leaf]

lemma core_body (body : Body) : (r.body body).core = r.body body.core := by
  cases body <;> simp [Body.core, Renumbering.body, core_leaf, core_member, Function.comp_def]

lemma core_entry (entry : Entry) : (r.entry entry).core = r.entry entry.core := by
  simp [Entry.core, Renumbering.entry, Renumbering.symbol, Symbol.map, core_body]

/-- A part of a record, under its new identity. -/
lemma part?_entry (id : DeclId) (entry : Entry) :
    (r.decl id).part? (r.entry entry) = (id.part? entry).map r.entry := by
  unfold DeclId.part?
  rw [owner?_decl]
  cases howner : id.owner? with
  | none => rfl
  | some owner =>
    simp only [Option.map_some, body_entry, category_decl, members?_body,
      r.index_decl_of_owner howner]
    cases entry.body.members? id.category with
    | none => rfl
    | some list => simp [Function.comp_def, toEntry_member]

/-! ## Updates -/

/-- An update under the new numbers. -/
def update : Update → Update
  | .variable target info => .variable (r.decl target) (r.variableInfo info)
  | .callable target params returns =>
    .callable (r.decl target) (params.map r.parameter) (returns.map r.ty)
  | .task target returns => .task (r.decl target) (returns.map r.ty)
  | .inheritance target parent inherits =>
    .inheritance (r.decl target) (parent.map r.ty) (inherits.map r.ty)

end Renumbering

/-! ## Libraries outside of the project

Outside of the project, declarations keep their indices and namespaces their slots, so only the
identities change that stand in records and in the groups of namespaces. -/

/-- A namespace with its groups under the new numbers. -/
def Namespace.renumber (r : Renumbering) (space : Namespace) : Namespace :=
  { space with groups := space.groups.map fun group => (group.1, group.2.map r.decl) }

/-- All namespaces with their groups under the new numbers. -/
def Arena.renumber (r : Renumbering) (arena : Arena) : Arena :=
  { arena with slots := arena.slots.map (Option.map (Namespace.renumber r)) }

/-- A library with what it names under the new numbers. -/
def Library.renumber (r : Renumbering) (lib : Library) : Library where
  id := r.library lib.id
  name := lib.name
  spaces := lib.spaces.renumber r
  tables := lib.tables.map fun entry => (entry.1, entry.2.map (Option.map r.entry))

end SymbolGraph
