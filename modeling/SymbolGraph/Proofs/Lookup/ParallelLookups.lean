import Mathlib.Data.List.Perm.Basic
import SymbolGraph.Proofs.Lookup.Soundness

/-!
# Lookups that run in parallel

Two contexts are *parallel* if the questions that a lookup asks have corresponding answers in both:
which namespaces are searched, which children they have, and which declarations and members of a
name are visible.  Namespaces correspond by a map `ψ`, declarations by a map `φ`.  Then every name
means corresponding things in the two contexts, and what is wrong with a name is reported alike.

A lookup stays among the libraries that its context can name.  So it is enough that the answers
correspond in an `Area` of the model: in the libraries that are near, and for the names of libraries
that are known.

The declarations of a name may be listed in another order, since that is the order in which they
were declared once.  A name that means several declarations is an error all the same, so the order
tells nothing about the type that a name means.
-/

namespace SymbolGraph

/-! ## Areas -/

/-- Some of the libraries, and some of the names of libraries. -/
structure Area where
  near : LibraryId → Prop
  known : String → Prop

namespace Area

/-- All libraries and all names. -/
def all : Area := ⟨fun _ => True, fun _ => True⟩

/-- A dotted name that begins with a known name. -/
def Covers (area : Area) (path : List Ident) : Prop :=
  ∀ first rest, path = first :: rest → rest ≠ [] → area.known first.name

lemma covers_all (path : List Ident) : all.Covers path := fun _ _ _ _ => trivial

end Area

/-! ## Marks of reports -/

/-- Where a report stands, how serious it is and what is wrong. -/
def Diagnostic.mark (diagnostic : Diagnostic) : Range × Severity × DiagnosticCode :=
  (diagnostic.range, diagnostic.severity, diagnostic.code)

/-- What a dotted name means, under other identities and in any order, and with reports that have
the same marks. -/
structure PathResolution.Like (φ : DeclId → DeclId) (ψ : SpaceRef → SpaceRef)
    (found found' : PathResolution × List Diagnostic) : Prop where
  spaces : found'.1.spaces = found.1.spaces.map fun step => (step.1, ψ step.2)
  declarations : found'.1.declarations.Perm (found.1.declarations.map φ)
  marks : found'.2.map Diagnostic.mark = found.2.map Diagnostic.mark

lemma addAllNew_map {α β : Type} [DecidableEq α] [DecidableEq β] {f : α → β}
    (hf : Function.Injective f) (xs ys : List α) :
    addAllNew (xs.map f) (ys.map f) = (addAllNew xs ys).map f := by
  have hnew (xs : List α) (y : α) : addNew (xs.map f) (f y) = (addNew xs y).map f := by
    unfold addNew
    by_cases h : y ∈ xs
    · rw [if_pos h, if_pos (List.mem_map_of_mem h)]
    · rw [if_neg h, if_neg fun hmem => h ((List.mem_map_of_injective hf).1 hmem), List.map_append]
      rfl
  induction ys generalizing xs with
  | nil => rfl
  | cons y ys ih =>
    simp only [addAllNew, List.map_cons, List.foldl_cons, hnew] at ih ⊢
    exact ih _

namespace Context

/-- In an area around them the two contexts answer the questions of a lookup alike. -/
structure Parallel (φ : DeclId → DeclId) (ψ : SpaceRef → SpaceRef) (area : Area)
    (ctx ctx' : Context) : Prop where
  among : ctx.Among area.near
  injective : Function.Injective ψ
  kernel : ψ LibrarySet.kernelRoot = LibrarySet.kernelRoot
  document : ctx'.document = ctx.document
  enclosing : ctx'.enclosing = ctx.enclosing.map ψ
  imports : ctx'.imports = ctx.imports.map ψ
  near : ∀ name, area.known name → ∀ library, ctx.libraries.named? name = some library →
    area.near library
  named : ∀ name, area.known name → (ctx'.libraries.named? name).bind ctx'.libraries.root?
    = ((ctx.libraries.named? name).bind ctx.libraries.root?).map ψ
  child : ∀ scope name, area.near scope.library → ctx'.libraries.child? (ψ scope) name
    = (ctx.libraries.child? scope name).map ψ
  group : ∀ scope name, area.near scope.library → (ctx'.groupIn name (ψ scope)).Perm
    ((ctx.groupIn name scope).map φ)
  visible : ∀ scope name id, area.near scope.library → id ∈ ctx.groupIn name scope →
    ctx'.isVisible (φ id) = ctx.isVisible id
  member : ∀ name, (ctx'.findMember name).Perm ((ctx.findMember name).map φ)

variable {φ : DeclId → DeclId} {ψ : SpaceRef → SpaceRef} {area : Area} {ctx ctx' : Context}

lemma isEmpty_of_perm {α : Type} {xs ys : List α} (h : xs.Perm ys) : xs.isEmpty = ys.isEmpty := by
  rw [Bool.eq_iff_iff, List.isEmpty_iff, List.isEmpty_iff]
  exact ⟨fun hx => List.nil_perm.1 (hx ▸ h), fun hy => List.perm_nil.1 (hy ▸ h)⟩

lemma firstNonEmpty_perm {α β γ δ : Type} {f : α → List β} {f' : γ → List δ} {g : α → γ}
    {h : β → δ} {xs : List α} (hf : ∀ x ∈ xs, (f' (g x)).Perm ((f x).map h)) :
    (firstNonEmpty f' (xs.map g)).Perm ((firstNonEmpty f xs).map h) := by
  induction xs with
  | nil => exact .refl _
  | cons x xs ih =>
    have hx := hf x List.mem_cons_self
    simp only [List.map_cons, firstNonEmpty, isEmpty_of_perm hx, List.isEmpty_map]
    split
    · exact ih fun y hy => hf y (List.mem_cons_of_mem _ hy)
    · exact hx

lemma firstNonEmpty_map {α β γ δ : Type} {f : α → List β} {f' : γ → List δ} {g : α → γ} {h : β → δ}
    {xs : List α} (hf : ∀ x ∈ xs, f' (g x) = (f x).map h) :
    firstNonEmpty f' (xs.map g) = (firstNonEmpty f xs).map h := by
  induction xs with
  | nil => rfl
  | cons x xs ih =>
    simp only [List.map_cons, firstNonEmpty, hf x List.mem_cons_self, List.isEmpty_map]
    split
    · exact ih fun y hy => hf y (List.mem_cons_of_mem _ hy)
    · rfl

/-- A name that is not found is reported in its place, whatever else there is of that name. -/
lemma mark_reportMissing (ctx : Context) (name : Ident) :
    (ctx.reportMissing name).mark = (name.range, .error, .notFound) := by
  unfold reportMissing
  split <;> rfl

lemma library_child? {set : LibrarySet} {parent child : SpaceRef} {name : String}
    (h : set.child? parent name = some child) : child.library = parent.library := by
  obtain ⟨lib, -, hrest⟩ := Option.bind_eq_some_iff.1 h
  obtain ⟨id, -, heq⟩ := Option.bind_eq_some_iff.1 hrest
  rw [← Option.some.inj heq]

namespace Parallel

variable (parallel : Parallel φ ψ area ctx ctx')

include parallel

lemma searchScopes : ctx'.searchScopes = ctx.searchScopes.map ψ := by
  have himports : ctx'.importScopes = ctx.importScopes.map ψ := by
    have heq := addAllNew_map parallel.injective ctx.imports [LibrarySet.kernelRoot]
    rwa [← parallel.imports, List.map_singleton, parallel.kernel] at heq
  rw [Context.searchScopes, Context.searchScopes, parallel.enclosing, himports, List.map_append]

/-- The visible declarations of a name in a namespace. -/
lemma visible_group {scope : SpaceRef} (hnear : area.near scope.library) (name : String) :
    (ctx'.visible (ctx'.groupIn name (ψ scope))).Perm
      ((ctx.visible (ctx.groupIn name scope)).map φ) := by
  refine ((parallel.group scope name hnear).filter _).trans (List.Perm.of_eq ?_)
  rw [Context.visible, List.filter_map]
  exact congrArg _ (List.filter_congr fun id hid => parallel.visible scope name id hnear hid)

lemma find (name : Ident) : ((ctx'.find name).1).Perm ((ctx.find name).1.map φ) ∧
    (ctx'.find name).2.map Diagnostic.mark = (ctx.find name).2.map Diagnostic.mark := by
  have hscopes : (ctx'.findInScopes name.name).Perm ((ctx.findInScopes name.name).map φ) := by
    rw [findInScopes, findInScopes, parallel.searchScopes]
    exact @firstNonEmpty_perm _ _ _ _ (fun scope => ctx.visible (ctx.groupIn name.name scope))
      (fun scope => ctx'.visible (ctx'.groupIn name.name scope)) ψ φ _
      fun scope hscope => parallel.visible_group (parallel.among.searchScopes hscope) name.name
  simp only [Context.find, isEmpty_of_perm (parallel.member name.name), List.isEmpty_map]
  split
  · exact ⟨parallel.member name.name, rfl⟩
  · refine ⟨hscopes, ?_⟩
    dsimp only
    rw [isEmpty_of_perm hscopes, List.isEmpty_map]
    split
    · simp [mark_reportMissing]
    · rfl

lemma findSpace {name : Ident} (hname : area.known name.name) :
    (ctx'.findSpace name).1 = (ctx.findSpace name).1.map ψ ∧
      (ctx'.findSpace name).2.map Diagnostic.mark = (ctx.findSpace name).2.map Diagnostic.mark := by
  -- The enclosing namespaces are in the library of the search, which is near.
  have hinner : (ctx'.enclosing.findSome? fun scope => ctx'.libraries.child? scope name.name)
      = (ctx.enclosing.findSome? fun scope => ctx.libraries.child? scope name.name).map ψ := by
    have hnear : ∀ scope ∈ ctx.enclosing, area.near scope.library := fun scope hscope =>
      (library_of_mem_enclosing hscope).symm ▸ parallel.among.space
    rw [parallel.enclosing]
    generalize ctx.enclosing = scopes at hnear ⊢
    induction scopes with
    | nil => rfl
    | cons scope rest ih =>
      rw [List.map_cons, List.findSome?_cons, List.findSome?_cons,
        parallel.child scope name.name (hnear scope List.mem_cons_self),
        ih fun other hother => hnear other (List.mem_cons_of_mem _ hother)]
      cases ctx.libraries.child? scope name.name <;> rfl
  -- Candidates are collected from the imports, the libraries by name and the kernel, and no two of
  -- them are merged by the renaming.
  have houter : ctx'.spaceCandidates name.name = (ctx.spaceCandidates name.name).map ψ := by
    have hchildren : ctx'.imports.filterMap (fun scope => ctx'.libraries.child? scope name.name)
        = (ctx.imports.filterMap fun scope => ctx.libraries.child? scope name.name).map ψ := by
      rw [parallel.imports, List.filterMap_map, List.map_filterMap]
      exact List.filterMap_congr fun scope hscope =>
        parallel.child scope name.name (parallel.among.imports scope hscope)
    have hkernel := parallel.child LibrarySet.kernelRoot name.name parallel.among.kernel
    rw [parallel.kernel] at hkernel
    rw [spaceCandidates, spaceCandidates, hchildren, parallel.named name.name hname, hkernel,
      Option.toList_map, Option.toList_map, ← List.map_append, ← List.map_append]
    exact addAllNew_map parallel.injective [] _
  simp only [Context.findSpace, hinner]
  cases ctx.enclosing.findSome? fun scope => ctx.libraries.child? scope name.name with
  | some found => exact ⟨rfl, rfl⟩
  | none =>
    refine ⟨by simp [houter], ?_⟩
    simp only [Option.map_none, houter, List.length_map]
    split <;> rfl

/-- Where a dotted name leads first is near. -/
lemma near_findSpace {name : Ident} (hname : area.known name.name) {space : SpaceRef}
    (h : (ctx.findSpace name).1 = some space) : area.near space.library := by
  unfold Context.findSpace at h
  split at h
  · next found hfound =>
    obtain rfl : found = space := by simpa using h
    obtain ⟨scope, hscope, hchild⟩ := List.exists_of_findSome?_eq_some hfound
    rw [library_child? hchild, library_of_mem_enclosing hscope]
    exact parallel.among.space
  · have hmem : space ∈ ctx.spaceCandidates name.name := List.mem_of_mem_head? h
    unfold spaceCandidates at hmem
    rw [mem_addAllNew, List.mem_append, List.mem_append] at hmem
    rcases hmem with hmem | (hmem | hmem) | hmem
    · simp at hmem
    · obtain ⟨scope, hscope, hchild⟩ := List.mem_filterMap.1 hmem
      rw [library_child? hchild]
      exact parallel.among.imports scope hscope
    · rw [Option.mem_toList, Option.bind_eq_some_iff] at hmem
      obtain ⟨library, hlibrary, hroot⟩ := hmem
      obtain ⟨_, -, rfl⟩ := Option.map_eq_some_iff.1 hroot
      exact parallel.near name.name hname library hlibrary
    · rw [library_child? (Option.mem_toList.1 hmem)]
      exact parallel.among.kernel

lemma descend (path : List Ident) {space : SpaceRef} (hnear : area.near space.library) :
    ctx'.descend (ψ space) path =
        ((ctx.descend space path).1.map fun step => (step.1, ψ step.2),
          (ctx.descend space path).2.map ψ) ∧
      ∀ last, (ctx.descend space path).2 = .ok last → area.near last.library := by
  induction path generalizing space with
  | nil =>
    refine ⟨rfl, fun last hlast => ?_⟩
    rw [← Except.ok.inj hlast]
    exact hnear
  | cons segment rest ih =>
    simp only [Context.descend, parallel.child space segment.name hnear]
    cases hchild : ctx.libraries.child? space segment.name with
    | none => exact ⟨rfl, fun last hlast => by cases hlast⟩
    | some child =>
      obtain ⟨heq, hlast⟩ := ih (library_child? hchild ▸ hnear : area.near child.library)
      exact ⟨by simp [heq], hlast⟩

lemma findIn {space : SpaceRef} (hnear : area.near space.library) (name : Ident) :
    ((ctx'.findIn (ψ space) name).1).Perm ((ctx.findIn space name).1.map φ) ∧
      (ctx'.findIn (ψ space) name).2.map Diagnostic.mark
        = (ctx.findIn space name).2.map Diagnostic.mark := by
  have hvisible := parallel.visible_group hnear name.name
  refine ⟨hvisible, ?_⟩
  simp only [Context.findIn, isEmpty_of_perm hvisible,
    isEmpty_of_perm (parallel.group space name.name hnear), List.isEmpty_map]

lemma findBehind {first : Ident} (hfirst : area.known first.name) (rest : List Ident)
    (last : Ident) :
    PathResolution.Like φ ψ (ctx.findBehind first rest last) (ctx'.findBehind first rest last) := by
  obtain ⟨hspace, hnotes⟩ := parallel.findSpace hfirst
  have hnear := fun space => @near_findSpace _ _ _ _ _ parallel _ hfirst space
  simp only [Context.findBehind]
  generalize ctx'.findSpace first = found' at hspace hnotes ⊢
  generalize ctx.findSpace first = found at hspace hnotes hnear ⊢
  obtain ⟨space, notes⟩ := found
  obtain ⟨space', notes'⟩ := found'
  dsimp only at hspace hnotes
  subst hspace
  cases space with
  | none => exact ⟨rfl, .refl _, by simp [hnotes]⟩
  | some space =>
    obtain ⟨hdescend, hlast⟩ := parallel.descend rest (hnear space rfl)
    simp only [Option.map_some, hdescend]
    generalize ctx.descend space rest = below at hlast ⊢
    obtain ⟨spaces, outcome⟩ := below
    cases outcome with
    | error segment => exact ⟨rfl, .refl _, by simp [hnotes, Except.map]⟩
    | ok target =>
      obtain ⟨hfound, hmore⟩ := parallel.findIn (hlast target rfl) last
      exact ⟨rfl, hfound, by simp [hnotes, hmore, Except.map]⟩

/-- Dotted names mean corresponding things, and are reported alike. -/
lemma findPath {path : List Ident} (hpath : area.Covers path) :
    PathResolution.Like φ ψ (ctx.findPath path) (ctx'.findPath path) := by
  unfold Context.findPath
  cases hlast : path.getLast? with
  | none => exact ⟨rfl, .refl _, rfl⟩
  | some last =>
    have hwhole : path = path.dropLast ++ [last] := (List.dropLast_append_getLast? last hlast).symm
    cases hdrop : path.dropLast with
    | nil => exact ⟨rfl, (parallel.find last).1, (parallel.find last).2⟩
    | cons first rest =>
      rw [hdrop] at hwhole
      exact parallel.findBehind (hpath first (rest ++ [last]) hwhole (by simp)) rest last

end Parallel

end Context

/-- The type that a written type comes to, given the declarations that its name leads to. -/
def TypeRef.meaning (ty : TypeRef) : List DeclId → Ty
  | [id] => if ty.name?.isSome then (Ty.defining id).withDimension ty.dimension else .invalid
  | _ => .invalid

lemma Ty.defining_eq_invalid {id : DeclId} (h : (Ty.defining id).isInvalid = true) :
    Ty.defining id = .invalid := by
  have hof (id : DeclId) (h : (Ty.of id).isInvalid = true) : Ty.of id = .invalid := by
    obtain ⟨_, category, _, _⟩ := id
    cases category <;> simp_all [Ty.of, TypeCode.ofCategory, Ty.isInvalid]
  unfold Ty.defining at h ⊢
  split at h
  · split at h
    · next hcategory => rw [if_pos hcategory]
    · next hcategory =>
      rw [if_neg hcategory]
      exact hof _ h
  · exact hof id h

/-- A type is resolved by the declarations that its name leads to. -/
theorem Context.value_resolveType (ctx : Context) (ty : TypeRef) :
    (ctx.resolveType ty).value = ty.meaning (ctx.findPath ty.path).1.declarations := by
  unfold resolveType
  generalize ctx.findPath ty.path = found
  obtain ⟨resolution, notes⟩ := found
  dsimp only
  cases hname : ty.name? with
  | none =>
    unfold TypeRef.meaning
    rcases resolution.declarations with - | ⟨id, - | ⟨other, more⟩⟩ <;> simp [hname]
  | some name =>
    unfold TypeRef.meaning
    rcases resolution.declarations with - | ⟨id, - | ⟨other, more⟩⟩
    · rfl
    · by_cases hinvalid : (Ty.defining id).isInvalid = true
      · dsimp only
        rw [if_pos hinvalid, hname, Ty.defining_eq_invalid hinvalid]
        rfl
      · simp [hname, hinvalid]
    · rfl

/-- The declaration that a written type refers to, if its name leads to one alone. -/
def TypeRef.citation? (ty : TypeRef) : List DeclId → Option (Range × DeclId)
  | [id] => ty.name?.map fun name => (name.range, id)
  | _ => none

/-- Resolving a type refers to the namespaces on the way, and then to the declaration. -/
theorem Context.references_resolveType (ctx : Context) (ty : TypeRef) :
    (ctx.resolveType ty).found.references =
      ((ctx.findPath ty.path).1.spaces.map fun step => (.space step.2, ctx.locate step.1)) ++
        (ty.citation? (ctx.findPath ty.path).1.declarations).toList.map
          fun cited => (.declaration cited.2, ctx.locate cited.1) := by
  unfold resolveType
  generalize ctx.findPath ty.path = found
  obtain ⟨resolution, notes⟩ := found
  dsimp only
  cases hname : ty.name? with
  | none =>
    rcases resolution.declarations with - | ⟨id, - | ⟨other, more⟩⟩ <;>
      simp [TypeRef.citation?, hname]
  | some name =>
    rcases resolution.declarations with - | ⟨id, - | ⟨other, more⟩⟩
    · simp [TypeRef.citation?]
    · by_cases hinvalid : (Ty.defining id).isInvalid = true <;>
        simp [TypeRef.citation?, hname, hinvalid, Findings.ofDiagnostic]
    · simp [TypeRef.citation?, Findings.ofDiagnostic]

/-- What is reported of a written type, given the declarations that its name leads to. -/
def TypeRef.complaint (ty : TypeRef) : List DeclId → List (Range × Severity × DiagnosticCode)
  | [] => []
  | [id] =>
    if ty.name?.isSome && (Ty.defining id).isInvalid then [(ty.range, .error, .notAType)] else []
  | _ :: _ :: _ => if ty.name?.isSome then [(ty.range, .error, .ambiguous)] else []

/-- Resolving a type reports on its name, and then on what the name means. -/
theorem Context.marks_resolveType (ctx : Context) (ty : TypeRef) :
    (ctx.resolveType ty).found.diagnostics.map Diagnostic.mark =
      (ctx.findPath ty.path).2.map Diagnostic.mark ++
        ty.complaint (ctx.findPath ty.path).1.declarations := by
  unfold resolveType
  generalize ctx.findPath ty.path = found
  obtain ⟨resolution, notes⟩ := found
  dsimp only
  cases hname : ty.name? with
  | none =>
    rcases resolution.declarations with - | ⟨id, - | ⟨other, more⟩⟩ <;>
      simp [TypeRef.complaint, hname]
  | some name =>
    rcases resolution.declarations with - | ⟨id, - | ⟨other, more⟩⟩
    · simp [TypeRef.complaint]
    · by_cases hinvalid : (Ty.defining id).isInvalid = true <;>
        simp [TypeRef.complaint, hname, hinvalid, Findings.ofDiagnostic, notAType, Diagnostic.mark,
          Diagnostic.error]
    · simp [TypeRef.complaint, hname, Findings.ofDiagnostic, severalMatches, Diagnostic.mark,
        Diagnostic.error, Diagnostic.relatedTo]

end SymbolGraph
