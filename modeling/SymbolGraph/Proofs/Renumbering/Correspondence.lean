import Mathlib.Data.List.Nodup
import SymbolGraph.Proofs.Inheritance.Walks
import SymbolGraph.Proofs.Lookup.ParallelLookups
import SymbolGraph.Proofs.Renumbering.Basic

/-!
# Models that correspond

Two states of the model *match* under a renumbering, in an area, if they have the same libraries
there, namespaces with the same names at the same places, and records that are the same as far as a
view shows them.  Three views are of use: the skeleton of a record, its *shape*, which also shows
its members and bases, and its core.

Lookups outside of declarations read skeletons, and lookups inside of a declaration read shapes.  So
in matching states names mean corresponding things.
-/

namespace SymbolGraph

/-! ## Shapes -/

/-- A member without what linking its signature finds. -/
def Member.header (member : Member) : Member := { member with references := [], body := .element }

def Body.shape : Body → Body
  | .enum elements => .enum (elements.map Member.header)
  | .struct fields functions => .struct (fields.map Member.header) (functions.map Member.header)
  | .interface info =>
    .interface { inherits := info.inherits, functions := info.functions.map Member.header }
  | .class info =>
    .class
      { parent := info.parent
        inherits := info.inherits
        fields := info.fields.map Member.header
        constructors := info.constructors.map Member.header
        functions := info.functions.map Member.header }
  | _ => .invalid

/-- A record without what linking signatures finds, and without the traces of others in it. -/
def Entry.shape (entry : Entry) : Entry := { entry.map Body.shape with references := [] }

lemma Member.header_core (member : Member) : member.core.header = member.header := rfl

lemma Body.shape_core (body : Body) : body.core.shape = body.shape := by
  cases body <;> simp [Body.core, Body.shape, Member.header_core, Function.comp_def]

lemma Entry.shape_core (entry : Entry) : entry.core.shape = entry.shape := by
  simp [Entry.core, Entry.shape, Symbol.map, Body.shape_core]

lemma Entry.skeleton_shape (entry : Entry) : entry.shape.skeleton = entry.skeleton := rfl

lemma Body.shape_shape (body : Body) : body.shape.shape = body.shape := by
  have hheader : Member.header ∘ Member.header = Member.header := rfl
  cases body <;> simp [Body.shape, hheader]

lemma Body.members?_shape (body : Body) (category : Category) :
    body.shape.members? category = (body.members? category).map (List.map Member.header) := by
  cases body <;> cases category <;> rfl

lemma Body.allMembers_shape (body : Body) :
    body.shape.allMembers = body.allMembers.map Member.header := by
  cases body <;> simp [Body.shape, Body.allMembers]

lemma Body.parent?_shape (body : Body) : body.shape.parent? = body.parent? := by
  cases body <;> rfl

namespace Renumbering

variable (r : Renumbering)

lemma header_member (member : Member) : (r.member member).header = r.member member.header := rfl

lemma shape_body (body : Body) : (r.body body).shape = r.body body.shape := by
  cases body <;> simp [Body.shape, Renumbering.body, header_member, Function.comp_def]

lemma shape_entry (entry : Entry) : (r.entry entry).shape = r.entry entry.shape := by
  simp [Entry.shape, Renumbering.entry, Renumbering.symbol, Symbol.map, shape_body]

lemma parent?_body (body : Body) : (r.body body).parent? = body.parent?.map r.decl := by
  cases body with
  | «class» info =>
    cases hparent : info.parent <;>
      simp [Body.parent?, Body.class?, Renumbering.body, hparent, declaration?_ty]
  | _ => rfl

end Renumbering

/-! ## Matching models -/

/-- Related options are both empty, or related elements are in them. -/
lemma rel_cases {α β : Type} {R : α → β → Prop} {x : Option α} {y : Option β}
    (h : Option.Rel R x y) : x = none ∧ y = none ∨ ∃ a b, x = some a ∧ y = some b ∧ R a b := by
  cases h with
  | none => exact .inl ⟨rfl, rfl⟩
  | some h => exact .inr ⟨_, _, rfl, rfl, h⟩

/-- The namespace is the same at its new place, with the same declarations of every name. -/
structure Namespace.Matches (r : Renumbering) (library : LibraryId) (space space' : Namespace) :
    Prop where
  id : space'.id = r.place library space.id
  parent : space'.parent = space.parent.map (r.place library)
  name : space'.name = space.name
  child : ∀ name, space'.children.at? name = (space.children.at? name).map (r.place library)
  group : ∀ name, (space'.group name).Perm ((space.group name).map r.decl)

namespace LibrarySet

/-- Two states of the model that are the same under a renumbering, as far as a view of records shows
and in an area. -/
structure Matches (v : Entry → Entry) (r : Renumbering) (area : Area) (set set' : LibrarySet) :
    Prop where
  identified : set.Identified
  identified' : set'.Identified
  kernel : area.near .kernel
  near : ∀ name, area.known name → ∀ library, set.named? name = some library → area.near library
  names : ∀ name, area.known name → set'.named? name = (set.named? name).map r.library
  loaded : ∀ library, area.near library →
    (set'.get? (r.library library)).isSome = (set.get? library).isSome
  spaces : ∀ ref : SpaceRef, area.near ref.library →
    Option.Rel (Namespace.Matches r ref.library) (set.space? ref) (set'.space? (r.ref ref))
  root : r.space Arena.root = Arena.root
  slots : ∀ library category index, area.near library →
    (set'.slot? (r.library library) category (r.slot library category index)).map v
      = (set.slot? library category index).map fun entry => r.entry (v entry)

lemma Identified.of_skeleton_eq {set set' : LibrarySet} (hid : set.Identified)
    (h : set'.skeleton = set.skeleton) : set'.Identified := by
  intro library lib' hlib'
  have hlib : (set'.get? library).map Library.skeleton
      = (set.get? library).map Library.skeleton := by
    rw [← get?_skeleton, h, get?_skeleton]
  rw [hlib', Option.map_some, eq_comm] at hlib
  obtain ⟨lib, hlib, heq⟩ := Option.map_eq_some_iff.1 hlib
  rw [← hid library lib hlib, ← lib'.id_skeleton, ← heq, lib.id_skeleton]

namespace Matches

variable {v w : Entry → Entry} {r : Renumbering} {area : Area} {set set' : LibrarySet}

/-- What a view shows is also seen in a wider one. -/
lemma mono (h : Matches v r area set set') (hw : ∀ entry, w (v entry) = w entry)
    (hr : ∀ entry, w (r.entry entry) = r.entry (w entry)) : Matches w r area set set' := by
  refine { h with slots := fun library category index hnear => ?_ }
  have heq := congrArg (Option.map w) (h.slots library category index hnear)
  simpa only [Option.map_map, Function.comp_def, hw, hr] using heq

/-- Models of one skeleton match. -/
lemma of_skeleton_eq (hid : set.Identified) (h : set'.skeleton = set.skeleton) :
    Matches Entry.skeleton .refl .all set set' := by
  -- Whatever the correspondence reads of a library stands in its skeleton.
  have hget (library : LibraryId) :
      (set'.get? library).map Library.skeleton = (set.get? library).map Library.skeleton := by
    rw [← get?_skeleton, h, get?_skeleton]
  refine ⟨hid, hid.of_skeleton_eq h, trivial, fun _ _ _ _ => trivial, fun name _ => ?_,
    fun library _ => ?_, fun ref _ => ?_, rfl, fun library category index _ => ?_⟩
  · have hnames : set'.skeleton.names = set.skeleton.names := by rw [h]
    rw [named?, named?, ← names_skeleton, hnames, names_skeleton]
    exact Option.map_id.symm ▸ rfl
  · simpa using congrArg Option.isSome (hget library)
  · rw [Renumbering.ref_refl]
    have hspace : (set'.space? ref).map Namespace.skeleton
        = (set.space? ref).map Namespace.skeleton := by
      have heq := congrArg (Option.bind · fun lib => lib.spaces.get? ref.space) (hget ref.library)
      simpa [space?, Option.bind_map, Option.map_bind, Function.comp_def,
        Arena.get?_skeleton] using heq
    cases hs : set.space? ref with
    | none =>
      rw [hs, Option.map_none, Option.map_eq_none_iff] at hspace
      rw [hspace]
      exact .none
    | some space =>
      rw [hs] at hspace
      obtain ⟨space', hs', heq⟩ := Option.map_eq_some_iff.1 hspace
      have hid : space'.skeleton.id = space.skeleton.id := by rw [heq]
      have hparent : space'.skeleton.parent = space.skeleton.parent := by rw [heq]
      have hname : space'.skeleton.name = space.skeleton.name := by rw [heq]
      have hchildren : space'.skeleton.children = space.skeleton.children := by rw [heq]
      have hgroups : space'.skeleton.groups = space.skeleton.groups := by rw [heq]
      rw [hs']
      refine .some ⟨?_, ?_, hname, fun name => ?_, fun name => ?_⟩
      · simpa [Namespace.skeleton] using hid
      · simpa [Namespace.skeleton] using hparent
      · simpa [Namespace.skeleton] using congrArg (Assoc.at? · name) hchildren
      · have hgroup : space'.group name = space.group name :=
          congrArg (fun groups => (Assoc.at? groups name).getD []) hgroups
        simp [hgroup]
  · have heq := congrArg (Option.bind · fun lib => lib.slot? category index) (hget library)
    simpa [slot?, Option.bind_map, Option.map_bind, Function.comp_def,
      Library.slot?_skeleton] using heq

/-- Matching goes both ways. -/
lemma symm (h : Matches v r .all set set') : Matches v r.symm .all set' set where
  identified := h.identified'
  identified' := h.identified
  kernel := trivial
  near _ _ _ _ := trivial
  names name _ := by
    rw [h.names name trivial, Option.map_map]
    simp [Function.comp_def]
  loaded library _ := by
    have hloaded := h.loaded (r.symm.library library) trivial
    rw [r.library_library_symm] at hloaded
    exact hloaded.symm
  root := by
    rw [Renumbering.symm, Equiv.symm_apply_eq]
    exact h.root.symm
  spaces ref _ := by
    have hspace := h.spaces (r.symm.ref ref) trivial
    rw [r.ref_ref_symm] at hspace
    -- Each field is the given one at the preimage, renumbered back.
    obtain ⟨hnone, hnone'⟩ | ⟨space, space', hspace, hspace', matching⟩ := rel_cases hspace
    · rw [hnone, hnone']
      exact .none
    · rw [hspace, hspace']
      refine .some ⟨?_, ?_, matching.name.symm, fun name => ?_, fun name => ?_⟩
      · simp [matching.id, Renumbering.ref]
      · simp [matching.parent, Function.comp_def, Renumbering.ref]
      · simp [matching.child, Function.comp_def, Renumbering.ref]
      · simpa [Function.comp_def] using ((matching.group name).map r.symm.decl).symm
  slots library category index _ := by
    have heq := congrArg (Option.map r.symm.entry)
      (h.slots (r.symm.library library) category (r.symm.slot library category index) trivial)
    simpa [Function.comp_def] using heq.symm

section

variable (h : Matches v r area set set')

include h

lemma exists_library {library : LibraryId} (hnear : area.near library) {lib : Library}
    (hlib : set.get? library = some lib) : ∃ lib', set'.get? (r.library library) = some lib' :=
  Option.isSome_iff_exists.1 (by rw [h.loaded library hnear, hlib]; rfl)

lemma get?_eq_none {library : LibraryId} (hnear : area.near library)
    (hlib : set.get? library = none) : set'.get? (r.library library) = none := by
  have hloaded := h.loaded library hnear
  rwa [hlib, Option.isSome_none, Option.isSome_eq_false_iff, Option.isNone_iff_eq_none] at hloaded

lemma place_root (library : LibraryId) : r.place library Arena.root = Arena.root := by
  unfold Renumbering.place
  split
  · exact h.root
  · rfl

lemma root? {library : LibraryId} (hnear : area.near library) :
    set'.root? (r.library library) = (set.root? library).map r.ref := by
  cases hlib : set.get? library with
  | none => simp [LibrarySet.root?, hlib, h.get?_eq_none hnear hlib]
  | some lib =>
    obtain ⟨lib', hlib'⟩ := h.exists_library hnear hlib
    simp [LibrarySet.root?, hlib, hlib', Renumbering.ref, h.place_root]

/-- The root of the library that a known name means. -/
lemma root?_named {name : String} (hname : area.known name) :
    (set'.named? name).bind set'.root? = ((set.named? name).bind set.root?).map r.ref := by
  rw [h.names name hname]
  cases hnamed : set.named? name with
  | none => rfl
  | some library => exact h.root? (h.near name hname library hnamed)

lemma child? {parent : SpaceRef} (hnear : area.near parent.library) (name : String) :
    set'.child? (r.ref parent) name = (set.child? parent name).map r.ref := by
  have hread (set : LibrarySet) (parent : SpaceRef) : set.child? parent name
      = (set.space? parent).bind fun space =>
        (space.children.at? name).map fun child => ⟨parent.library, child⟩ := by
    unfold LibrarySet.child? space?
    cases set.get? parent.library with
    | none => rfl
    | some lib =>
      simp only [Option.bind_some, Option.bind_eq_bind, Arena.child?]
      cases lib.spaces.get? parent.space with
      | none => rfl
      | some space => cases hchild : space.children.at? name <;> simp [hchild]
  rw [hread, hread]
  obtain ⟨hnone, hnone'⟩ | ⟨space, space', hspace, hspace', matching⟩ :=
    rel_cases (h.spaces parent hnear)
  · rw [hnone, hnone']
    rfl
  · rw [hspace, hspace']
    simp [matching.child, Function.comp_def, Renumbering.ref]

section

variable {library : LibraryId} (hnear : area.near library) {lib lib' : Library}
  (hlib : set.get? library = some lib) (hlib' : set'.get? (r.library library) = some lib')

include hnear hlib hlib'

lemma get?_place (space : SpaceId) : Option.Rel (Namespace.Matches r library)
    (lib.spaces.get? space) (lib'.spaces.get? (r.place library space)) := by
  simpa [space?, Renumbering.ref, hlib, hlib'] using h.spaces ⟨library, space⟩ hnear

/-- The slots that lead outwards, nearest first. -/
lemma chain (space : SpaceId) :
    lib'.spaces.chain (r.place library space) = (lib.spaces.chain space).map (r.place library) := by
  have hget := h.get?_place hnear hlib hlib'
  have hinjective : Function.Injective (r.place library) :=
    Function.LeftInverse.injective (r.place_symm_place library)
  refine @Walk.preorder_map _ _ _ [space] _ _ _ _ hinjective (fun _ => True)
    (fun _ _ _ _ => trivial)
    _ (fun space _ => ?_) _ (Arena.nodup_map_fst_live _) (Arena.nodup_map_fst_live _)
    (fun space _ => ?_) fun _ _ => trivial
  · unfold Arena.parents
    obtain ⟨hnone, hnone'⟩ | ⟨_, _, hspace, hspace', matching⟩ := rel_cases (hget space)
    · rw [hnone, hnone']
      rfl
    · simp [hspace, hspace', matching.parent, Option.toList_map]
  · rw [Arena.mem_map_fst_live_iff, Arena.mem_map_fst_live_iff]
    obtain ⟨hnone, hnone'⟩ | ⟨_, _, hspace, hspace', -⟩ := rel_cases (hget space)
    · simp [hnone, hnone']
    · simp [hspace, hspace']

/-- The namespaces around a namespace, nearest first. -/
lemma ancestors (space : SpaceId) : lib'.spaces.ancestors (r.place library space)
    = (lib.spaces.ancestors space).map (r.place library) := by
  rw [Arena.ancestors, Arena.ancestors, h.chain hnear hlib hlib', List.filterMap_map,
    List.map_filterMap]
  refine List.filterMap_congr fun slot _ => ?_
  obtain ⟨hnone, hnone'⟩ | ⟨_, _, hspace, hspace', matching⟩ :=
    rel_cases (h.get?_place hnear hlib hlib' slot)
  · simp [hnone, hnone']
  · simp [hspace, hspace', matching.id]

end

/-- A top-level declaration, as far as the view shows it. -/
lemma find?_top {id : DeclId} (hnear : area.near id.library) (htop : id.owner? = none) :
    (set'.find? (r.decl id)).map v = (set.find? id).map fun entry => r.entry (v entry) := by
  have htop' : (r.decl id).owner? = none := by rw [r.owner?_decl, htop]; rfl
  rw [find?_eq h.identified', find?_eq h.identified, r.seat_decl,
    r.library_decl]
  have hpart : id.part? = some := by
    funext entry
    simp [DeclId.part?, htop]
  have hpart' : (r.decl id).part? = some := by
    funext entry
    simp [DeclId.part?, htop']
  rw [hpart, hpart', Option.bind_fun_some, Option.bind_fun_some]
  exact h.slots id.library id.seat.1 id.seat.2 hnear

/-- Any declaration, if the view of a record shows enough of its members. -/
lemma find? (hv : ∀ (id : DeclId) entry, (id.part? entry).map v = (id.part? (v entry)).map v)
    (hr : ∀ entry, v (r.entry entry) = r.entry (v entry)) {id : DeclId}
    (hnear : area.near id.library) :
    (set'.find? (r.decl id)).map v = (set.find? id).map fun entry => r.entry (v entry) := by
  have hslot := h.slots id.library id.seat.1 id.seat.2 hnear
  rw [find?_eq h.identified', find?_eq h.identified, r.seat_decl,
    r.library_decl]
  cases hentry : set.slot? id.library id.seat.1 id.seat.2 with
  | none =>
    rw [hentry, Option.map_none, Option.map_eq_none_iff] at hslot
    rw [hslot]
    rfl
  | some entry =>
    rw [hentry] at hslot
    obtain ⟨entry', hentry', heq⟩ := Option.map_eq_some_iff.1 hslot
    rw [hentry', Option.bind_some, Option.bind_some, hv, heq, r.part?_entry, Option.map_map]
    have hpart := congrArg (Option.map r.entry) (hv id entry)
    simp only [Option.map_map, Function.comp_def] at hpart ⊢
    rw [hpart]
    simp [hr]

end

end Matches

end LibrarySet

/-! ## Types -/

/-- The type that a name means is that of the declaration alone to which it leads. -/
lemma TypeRef.meaning_perm (r : Renumbering) (ty : TypeRef) {ids ids' : List DeclId}
    (h : ids'.Perm (ids.map r.decl)) : ty.meaning ids' = r.ty (ty.meaning ids) := by
  match ids, ids', h with
  | [], ids', h =>
    rw [List.perm_nil.1 h]
    exact r.ty_invalid.symm
  | [id], ids', h =>
    rw [List.perm_singleton.1 h]
    simp only [TypeRef.meaning, r.defining_decl, ← r.ty_withDimension]
    split
    · rfl
    · exact r.ty_invalid.symm
  | _ :: _ :: _, [], h => simp at h
  | _ :: _ :: _, [_], h => simpa using h.length_eq
  | _ :: _ :: _, _ :: _ :: _, _ => exact r.ty_invalid.symm

/-- What is reported of a type does not depend on the numbers of what its name leads to. -/
lemma TypeRef.complaint_perm (r : Renumbering) (ty : TypeRef) {ids ids' : List DeclId}
    (h : ids'.Perm (ids.map r.decl)) : ty.complaint ids' = ty.complaint ids := by
  match ids, ids', h with
  | [], ids', h => rw [List.perm_nil.1 h]
  | [id], ids', h =>
    rw [List.perm_singleton.1 h]
    simp only [TypeRef.complaint, r.defining_decl, r.isInvalid_ty]
  | _ :: _ :: _, [], h => simp at h
  | _ :: _ :: _, [_], h => simpa using h.length_eq
  | _ :: _ :: _, _ :: _ :: _, _ => rfl

lemma Context.Parallel.value_resolveType {r : Renumbering} {area : Area} {ctx ctx' : Context}
    (parallel : Parallel r.decl r.ref area ctx ctx') {ty : TypeRef} (hty : area.Covers ty.path) :
    (ctx'.resolveType ty).value = r.ty (ctx.resolveType ty).value := by
  rw [Context.value_resolveType, Context.value_resolveType]
  exact ty.meaning_perm r (parallel.findPath hty).declarations

/-! ## Contexts -/

lemma Renumbering.place_injective (r : Renumbering) (library : LibraryId) :
    Function.Injective (r.place library) :=
  Function.LeftInverse.injective (r.place_symm_place library)

namespace Context

/-- The two contexts are at the same place. -/
structure Matches (r : Renumbering) (ctx ctx' : Context) : Prop where
  document : ctx'.document = ctx.document
  space : ctx'.space = r.ref ctx.space
  imports : ctx'.imports = ctx.imports.map r.ref
  within : ctx'.within = ctx.within.map r.decl

variable {v : Entry → Entry} {r : Renumbering} {area : Area} {ctx ctx' : Context}

section

variable (h : ctx.libraries.Matches v r area ctx'.libraries) (m : ctx.Matches r ctx')
  (among : ctx.Among area.near)

include h m among

lemma Matches.enclosing : ctx'.enclosing = ctx.enclosing.map r.ref := by
  have hlibrary : ctx'.space.library = r.library ctx.space.library := by rw [m.space]; rfl
  have hspace : ctx'.space.space = r.place ctx.space.library ctx.space.space := by rw [m.space]; rfl
  unfold Context.enclosing
  rw [hlibrary, hspace]
  cases hlib : ctx.libraries.get? ctx.space.library with
  | none => rw [h.get?_eq_none among.space hlib]; rfl
  | some lib =>
    obtain ⟨lib', hlib'⟩ := h.exists_library among.space hlib
    simp [hlib', h.ancestors among.space hlib hlib', Function.comp_def, Renumbering.ref]

lemma Matches.withinSpaceOf {entry entry' : Entry}
    (heq : entry'.skeleton = r.entry entry.skeleton) :
    ctx'.withinSpaceOf entry' = ctx.withinSpaceOf entry := by
  have hid : entry'.skeleton.id = r.decl entry.id := by rw [heq]; rfl
  have hplace : entry'.skeleton.space = r.place entry.id.library entry.space := by rw [heq]; rfl
  have hlibrary : ctx'.space.library = r.library ctx.space.library := by rw [m.space]; rfl
  have hspace : ctx'.space.space = r.place ctx.space.library ctx.space.space := by rw [m.space]; rfl
  unfold Context.withinSpaceOf
  rw [show entry'.id = r.decl entry.id from hid, r.library_decl, hlibrary, hspace,
    show entry'.space = _ from hplace]
  simp only [r.library.injective.eq_iff]
  by_cases hsame : entry.id.library = ctx.space.library
  · cases hlib : ctx.libraries.get? ctx.space.library with
    | none => rw [h.get?_eq_none among.space hlib]
    | some lib =>
      obtain ⟨lib', hlib'⟩ := h.exists_library among.space hlib
      simp only [hlib', hsame, Arena.isWithin, h.ancestors among.space hlib hlib',
        List.mem_map_of_injective (r.place_injective _)]
  · simp [hsame]

lemma Matches.seesLocal {entry entry' : Entry} (heq : entry'.skeleton = r.entry entry.skeleton) :
    ctx'.seesLocal entry' = ctx.seesLocal entry := by
  have hvisibility : entry'.skeleton.visibility = entry.visibility := by rw [heq]; rfl
  have hdocument : entry'.skeleton.document = entry.document := by rw [heq]; rfl
  unfold Context.seesLocal
  rw [show entry'.visibility = _ from hvisibility, show entry'.document = _ from hdocument,
    m.withinSpaceOf h among heq, m.document]

/-- Whether a declaration is visible depends on its skeleton, on that of its owner, and, for
members, on the chain of parents of the declaration from which it is looked at. -/
lemma Matches.isVisible_of {id : DeclId}
    (hfind : (ctx'.libraries.find? (r.decl id)).map Entry.skeleton
      = (ctx.libraries.find? id).map fun entry => r.entry entry.skeleton)
    (howner : ∀ owner, id.owner? = some owner →
      (ctx'.libraries.find? (r.decl owner)).map Entry.skeleton
        = (ctx.libraries.find? owner).map fun entry => r.entry entry.skeleton)
    (hinherits : ∀ owner : DeclId, id.owner? ≠ none →
      ctx'.inheritsFrom (r.decl owner) = ctx.inheritsFrom owner) :
    ctx'.isVisible (r.decl id) = ctx.isVisible id := by
  have hlibrary : ctx'.space.library = r.library ctx.space.library := by rw [m.space]; rfl
  unfold Context.isVisible
  rw [r.library_decl, r.owner?_decl, hlibrary]
  simp only [r.library_eq_kernel, r.library.injective.eq_iff]
  cases hentry : ctx.libraries.find? id with
  | none =>
    rw [hentry, Option.map_none, Option.map_eq_none_iff] at hfind
    rw [hfind]
  | some entry =>
    rw [hentry] at hfind
    obtain ⟨entry', hentry', heq⟩ := Option.map_eq_some_iff.1 hfind
    have hvisibility : entry'.skeleton.visibility = entry.visibility := by rw [heq]; rfl
    have hvisibility' : entry'.visibility = entry.visibility := hvisibility
    rw [hentry']
    cases hid : id.owner? with
    | none => simp only [Option.map_none, m.seesLocal h among heq, hvisibility']
    | some ownerId =>
      have hfound := howner ownerId hid
      simp only [Option.map_some]
      cases howns : ctx.libraries.find? ownerId with
      | none =>
        rw [howns, Option.map_none, Option.map_eq_none_iff] at hfound
        rw [hfound]
      | some owner =>
        rw [howns] at hfound
        obtain ⟨owner', howns', hsame⟩ := Option.map_eq_some_iff.1 hfound
        have hownerId : owner'.skeleton.id = r.decl owner.id := by rw [hsame]; rfl
        have hownerVisibility : owner'.skeleton.visibility = owner.visibility := by rw [hsame]; rfl
        have hin : ctx'.inheritsFrom owner'.id = ctx.inheritsFrom owner.id := by
          rw [show owner'.id = _ from hownerId]
          exact hinherits owner.id (by rw [hid]; exact Option.some_ne_none _)
        have hwithin : (ctx'.within = some owner'.id) = (ctx.within = some owner.id) := by
          rw [show owner'.id = _ from hownerId, m.within, ← Option.map_some,
            (Option.map_injective r.decl_injective).eq_iff]
        simp only [howns', Context.seesLocalMember, Context.seesForeignMember,
          m.seesLocal h among hsame, m.withinSpaceOf h among heq, hvisibility',
          show owner'.visibility = _ from hownerVisibility, hin, hwithin]

variable (hskeleton : ∀ entry, (v entry).skeleton = entry.skeleton)
  (legible : ctx.libraries.Legible)

include hskeleton legible

/-- Declarations in groups are top-level ones, so their skeletons tell whether they are visible. -/
lemma Matches.visible {scope : SpaceRef} (hnear : area.near scope.library) {name : String}
    {id : DeclId} (hid : id ∈ ctx.groupIn name scope) :
    ctx'.isVisible (r.decl id) = ctx.isVisible id := by
  have hlibrary : area.near id.library := (finds_group legible hid hnear).2
  have htop : id.owner? = none := by
    unfold Context.groupIn at hid
    cases hspace : ctx.libraries.space? scope with
    | none => simp [hspace] at hid
    | some space =>
      rw [hspace] at hid
      obtain ⟨lib, hlib, hnode⟩ := Option.bind_eq_some_iff.1 hspace
      have coherent := legible.coherent hlib
      obtain ⟨entry, hentry, rfl, -⟩ := (coherent.group_iff hnode).1 hid
      rw [coherent.id_eq hentry]
      exact DeclId.owner?_of_top (coherent.top_level hentry)
  exact m.isVisible_of (h.mono hskeleton r.skeleton_entry) among
    ((h.mono hskeleton r.skeleton_entry).find?_top hlibrary htop)
    (fun owner howner => by simp [htop] at howner) fun _ hne => absurd htop hne

/-- Where the same members are found, the two contexts answer alike. -/
lemma Matches.parallel_of
    (hmember : ∀ name, (ctx'.findMember name).Perm ((ctx.findMember name).map r.decl)) :
    Parallel r.decl r.ref area ctx ctx' where
  among := among
  injective := r.ref_injective
  kernel := r.kernelRoot_ref
  document := m.document
  enclosing := m.enclosing h among
  imports := m.imports
  near := h.near
  named _ hname := h.root?_named hname
  child _ name hnear := h.child? hnear name
  group scope name hnear := by
    unfold Context.groupIn
    obtain ⟨hnone, hnone'⟩ | ⟨_, _, hspace, hspace', matching⟩ := rel_cases (h.spaces scope hnear)
    · simp [hnone, hnone']
    · simpa [hspace, hspace'] using matching.group name
  visible _ _ _ hnear hid := m.visible h among hskeleton legible hnear hid
  member := hmember

/-- Outside of declarations, lookups depend on skeletons only. -/
lemma Matches.parallel_outside (hwithin : ctx.within = none) :
    Parallel r.decl r.ref area ctx ctx' := by
  have hwithin' : ctx'.within = none := by rw [m.within, hwithin]; rfl
  refine m.parallel_of h among hskeleton legible fun name => ?_
  simp [findMember, memberLevels, hwithin, hwithin', firstNonEmpty]

end

/-- Outside of declarations, lookups do not change as long as skeletons stay. -/
lemma parallel_of_skeleton (legible : ctx.libraries.Legible)
    (hset : ctx'.libraries.skeleton = ctx.libraries.skeleton)
    (m : ctx.Matches .refl ctx') (hwithin : ctx.within = none) :
    Parallel Renumbering.refl.decl Renumbering.refl.ref .all ctx ctx' :=
  m.parallel_outside (.of_skeleton_eq legible.orderly.identified hset) ctx.among_everywhere
    (fun _ => rfl) legible hwithin

end Context

/-! ## Members -/

lemma DeclId.part?_shape (id : DeclId) (entry : Entry) :
    (id.part? entry).map Entry.shape = (id.part? entry.shape).map Entry.shape := by
  unfold DeclId.part?
  cases id.owner? with
  | none => simp [Entry.shape, Symbol.map, Body.shape_shape]
  | some owner =>
    have hlist : entry.shape.body.members? id.category
        = (entry.body.members? id.category).map (List.map Member.header) :=
      entry.body.members?_shape _
    rw [hlist]
    cases entry.body.members? id.category with
    | none => rfl
    | some list =>
      simp only [Option.map_some, Option.bind_some, List.getElem?_map, Option.map_map]
      rfl

lemma Entry.membersNamed_shape (entry : Entry) (name : String) :
    entry.shape.membersNamed name = entry.membersNamed name := by
  unfold Entry.membersNamed
  rw [show entry.shape.body.allMembers = entry.body.allMembers.map Member.header from
    entry.body.allMembers_shape, List.filter_map, List.map_map]
  rfl

lemma Renumbering.membersNamed_entry (r : Renumbering) (entry : Entry) (name : String) :
    (r.entry entry).membersNamed name = (entry.membersNamed name).map r.decl := by
  unfold Entry.membersNamed
  rw [r.body_entry, r.allMembers_body, List.filter_map, List.map_map, List.map_map]
  refine congrArg _ (List.filter_congr fun m _ => ?_)
  have hcategory : (r.member m).category = m.category := r.category_decl m.id
  rw [Function.comp_apply, hcategory]
  rfl

/-- The bases that some declarations have lie in the area as far as the declarations do. -/
def Area.Closed (area : Area) (bases : DeclId → List DeclId) : Prop :=
  ∀ {id base : DeclId}, area.near id.library → base ∈ bases id → area.near base.library

namespace LibrarySet.Matches

variable {r : Renumbering} {area : Area} {set set' : LibrarySet}
  (h : Matches Entry.shape r area set set')

include h

lemma find?_shape {id : DeclId} (hnear : area.near id.library) :
    (set'.find? (r.decl id)).map Entry.shape = (set.find? id).map fun entry =>
      r.entry entry.shape :=
  h.find? DeclId.part?_shape r.shape_entry hnear

lemma find?_skeleton {id : DeclId} (hnear : area.near id.library) :
    (set'.find? (r.decl id)).map Entry.skeleton
      = (set.find? id).map fun entry => r.entry entry.skeleton := by
  have heq := congrArg (Option.map Entry.skeleton) (h.find?_shape hnear)
  simpa only [Option.map_map, Function.comp_def, Entry.skeleton_shape, r.skeleton_entry] using heq

lemma parents {id : DeclId} (hnear : area.near id.library) :
    set'.parents (r.decl id) = (set.parents id).map r.decl := by
  have hread (set : LibrarySet) (id : DeclId) : set.parents id
      = (((set.find? id).map Entry.shape).bind fun entry => entry.body.parent?).toList := by
    unfold LibrarySet.parents
    cases set.find? id with
    | none => rfl
    | some entry => exact congrArg Option.toList entry.body.parent?_shape.symm
  rw [hread set', hread set, h.find?_shape hnear]
  cases set.find? id with
  | none => rfl
  | some entry => simp [r.parent?_body, Option.toList_map]

variable (hparents : area.Closed set.parents)

include hparents

/-- The chain of parents of a class.  It visits parents of near classes only, and which other
classes are parents does not matter. -/
lemma classAncestors {id : DeclId} (hnear : area.near id.library) :
    set'.classAncestors (r.decl id) = (set.classAncestors id).map r.decl := by
  have hsource {x : DeclId} (hx : ∃ z : DeclId, area.near z.library ∧ x ∈ set.parents z) :
      area.near x.library := hx.elim fun z hz => hparents hz.1 hz.2
  unfold LibrarySet.classAncestors
  rw [h.parents hnear]
  refine @Walk.preorder_map _ _ _ _ _ _ _ _ r.decl_injective
    (fun x => ∃ z : DeclId, area.near z.library ∧ x ∈ set.parents z)
    (fun x hx y hy => ⟨x, hsource hx, hy⟩) _ (fun x hx => h.parents (hsource hx)) _
    ((nodup_eraseDups _).filter _) ((nodup_eraseDups _).filter _) (fun x hx => ?_)
    fun x hx => ⟨id, hnear, hx⟩
  obtain ⟨z, hz, hxz⟩ := hx
  have hxz' : r.decl x ∈ set'.parents (r.decl z) := by
    rw [h.parents hz]
    exact List.mem_map_of_mem hxz
  simp [List.mem_filter, mem_parentNodes hxz, mem_parentNodes hxz', r.decl_injective.eq_iff]

end LibrarySet.Matches

namespace Context

variable {r : Renumbering} {area : Area} {ctx ctx' : Context}
  (h : ctx.libraries.Matches Entry.shape r area ctx'.libraries) (m : ctx.Matches r ctx')
  (among : ctx.Among area.near)

include h m among

lemma Matches.inheritsFrom (id : DeclId) :
    ctx'.inheritsFrom (r.decl id) = ctx.inheritsFrom id := by
  unfold Context.inheritsFrom
  rw [m.within]
  cases hwithin : ctx.within with
  | none => rfl
  | some current =>
    simp [h.classAncestors among.parents (among.within current hwithin),
      List.mem_map_of_injective r.decl_injective]

lemma Matches.isVisible {id : DeclId} (hnear : area.near id.library) :
    ctx'.isVisible (r.decl id) = ctx.isVisible id := by
  refine m.isVisible_of (h.mono Entry.skeleton_shape r.skeleton_entry) among
    (h.find?_skeleton hnear)
    (fun owner howner => h.find?_skeleton ?_) fun owner _ => m.inheritsFrom h among owner
  rw [DeclId.library_of_owner? howner]
  exact hnear

lemma Matches.findMember_eq
    (howned : ∀ {level : DeclId} {entry : Entry}, area.near level.library →
      ctx.libraries.find? level = some entry → ∀ m ∈ entry.body.allMembers, area.near m.id.library)
    (name : String) : ctx'.findMember name = (ctx.findMember name).map r.decl := by
  -- Levels and members correspond, so the first level with a visible member does.
  have hlevels : ctx'.memberLevels = ctx.memberLevels.map r.decl := by
    unfold Context.memberLevels
    rw [m.within]
    cases hwithin : ctx.within with
    | none => rfl
    | some id =>
      simp only [Option.map_some, r.category_decl,
        h.classAncestors among.parents (among.within id hwithin)]
      cases id.category <;> rfl
  have hmembers : ∀ level ∈ ctx.memberLevels,
      ctx'.membersAt name (r.decl level) = (ctx.membersAt name level).map r.decl := by
    intro level hlevel
    have hnear := among.memberLevels hlevel
    unfold Context.membersAt
    have hfind := h.find?_shape hnear
    cases hentry : ctx.libraries.find? level with
    | none =>
      rw [hentry, Option.map_none, Option.map_eq_none_iff] at hfind
      rw [hfind]
      rfl
    | some entry =>
      rw [hentry] at hfind
      obtain ⟨entry', hentry', heq⟩ := Option.map_eq_some_iff.1 hfind
      simp only [hentry', Context.visible]
      rw [← entry'.membersNamed_shape, heq, r.membersNamed_entry, entry.membersNamed_shape,
        List.filter_map]
      refine congrArg _ (List.filter_congr fun id hid => m.isVisible h among ?_)
      obtain ⟨member, hmember, rfl⟩ := List.mem_map.1 hid
      exact howned hnear hentry member (List.mem_of_mem_filter hmember)
  unfold Context.findMember
  rw [hlevels]
  exact firstNonEmpty_map hmembers

/-- In matching states names mean corresponding things, inside of declarations and outside. -/
theorem Matches.parallel (legible : ctx.libraries.Legible) : Parallel r.decl r.ref area ctx ctx' :=
  m.parallel_of h among Entry.skeleton_shape legible fun name =>
    .of_eq (m.findMember_eq h among
      (fun hnear hentry _ hm => (legible.finds_member hentry hm hnear).2) name)

end Context

end SymbolGraph
