import SymbolGraph.Link
import SymbolGraph.Proofs.Model.LibraryCoherence
import SymbolGraph.Proofs.Model.RecordEdits

/-!
# Lookups find what exists, where they are allowed to look

In a *legible* set of libraries everything that a lookup finds is live: namespaces are children of
live namespaces, groups list occupied slots, and member lists are numbered.  At the same time a
lookup stays among the libraries that its context can name: if the place it starts from, its
imports, the kernel, the parents of classes and the library that a dotted name begins with all lie
among some libraries `near`, then so does everything it finds.

`set.Finds near target` says both.  It is shown for each way of looking a name up, then for what the
link passes collect (`Findings.Among`).
-/

namespace SymbolGraph

namespace LibrarySet

/-- Every library is coherent, and its tags are in order. -/
structure Legible (set : LibrarySet) : Prop where
  orderly : set.Orderly
  coherent : ∀ {library lib}, set.get? library = some lib → lib.Coherent

/-- The target is live, and its library is one of `near`. -/
def Finds (set : LibrarySet) (near : LibraryId → Prop) (target : Target) : Prop :=
  set.Live target ∧ near target.library

variable {set : LibrarySet} {near : LibraryId → Prop}

namespace Legible

lemma finds_child (legible : set.Legible) {parent child : SpaceRef} {name : String}
    (h : set.child? parent name = some child) (hnear : near parent.library) :
    set.Finds near (.space child) := by
  simp only [child?, Option.bind_eq_bind, Option.bind_eq_some_iff, Option.pure_def,
    Option.some.injEq] at h
  obtain ⟨lib, hlib, id, hid, rfl⟩ := h
  obtain ⟨above, habove, hat⟩ := Option.bind_eq_some_iff.1 hid
  obtain ⟨space, hspace, -⟩ := ((legible.coherent hlib).tree.child_iff habove).1 hat
  refine ⟨⟨space, ?_⟩, hnear⟩
  simp only [space?, hlib, Option.bind_some, hspace]

lemma finds_root (legible : set.Legible) {library : LibraryId} {root : SpaceRef}
    (h : set.root? library = some root) (hnear : near library) :
    set.Finds near (.space root) := by
  obtain ⟨lib, hlib, rfl⟩ := Option.map_eq_some_iff.1 h
  obtain ⟨space, hspace, -⟩ := (legible.coherent hlib).tree.root_live
  refine ⟨⟨space, ?_⟩, hnear⟩
  simp only [space?, hlib, Option.bind_some, hspace]

lemma finds_slot (legible : set.Legible) {library : LibraryId} {category : Category}
    {index : Nat} {entry : Entry} (h : set.slot? library category index = some entry) :
    entry.id = ⟨library, category, index, none⟩ ∧ set.find? entry.id = some entry := by
  have htags := legible.orderly.tags (tags?_of_slot? h)
  have hid : entry.id = ⟨library, category, index, none⟩ := htags.id_eq
  refine ⟨hid, ?_⟩
  have htop : entry.id.category.isMember = false := by
    rw [hid]
    exact htags.top_level
  rw [find?_eq legible.orderly.identified, DeclId.seat_of_top htop, hid, h, Option.bind_some,
    DeclId.part?, DeclId.owner?_of_top htags.top_level]

/-- The declarations of a name in a namespace. -/
lemma finds_group (legible : set.Legible) {scope : SpaceRef} {space : Namespace}
    (h : set.space? scope = some space) {name : String} {id : DeclId} (hid : id ∈ space.group name)
    (hnear : near scope.library) : set.Finds near (.declaration id) := by
  obtain ⟨lib, hlib, hspace⟩ := Option.bind_eq_some_iff.1 h
  obtain ⟨entry, hentry, rfl, -⟩ := ((legible.coherent hlib).group_iff hspace).1 hid
  have hslot : set.slot? scope.library entry.id.category entry.id.index = some entry := by
    rw [slot?_of_get? hlib, hentry]
  obtain ⟨heq, hfind⟩ := legible.finds_slot hslot
  refine ⟨⟨entry, hfind, rfl⟩, ?_⟩
  have hlibrary : entry.id.library = scope.library := congrArg DeclId.library heq
  rw [Target.library, hlibrary]
  exact hnear

end Legible

end LibrarySet

/-- Every member stands in the list of some category. -/
lemma Body.exists_list_of_mem {body : Body} {m : Member} (h : m ∈ body.allMembers) :
    ∃ category list, body.members? category = some list ∧ m ∈ list := by
  cases body with
  | enum elements => exact ⟨.enumElement, elements, rfl, h⟩
  | struct fields functions =>
    rcases List.mem_append.1 h with h | h
    · exact ⟨.structVariable, fields, rfl, h⟩
    · exact ⟨.structFunction, functions, rfl, h⟩
  | interface info => exact ⟨.interfaceFunction, info.functions, rfl, h⟩
  | «class» info =>
    rcases List.mem_append.1 h with h | h
    · rcases List.mem_append.1 h with h | h
      · exact ⟨.classVariable, info.fields, rfl, h⟩
      · exact ⟨.constructor, info.constructors, rfl, h⟩
    · exact ⟨.classFunction, info.functions, rfl, h⟩
  | leaf part => simp [allMembers] at h
  | task returns => simp [allMembers] at h
  | invalid => simp [allMembers] at h

namespace LibrarySet.Legible

variable {set : LibrarySet} {near : LibraryId → Prop}

/-- What looking an identity up finds is an entry in its slot or a member of one. -/
lemma find?_cases (legible : set.Legible) {id : DeclId} {entry : Entry}
    (h : set.find? id = some entry) :
    set.slot? id.library id.seat.1 id.seat.2 = some entry ∨ ∃ m : Member, entry = m.toEntry := by
  rw [find?_eq legible.orderly.identified] at h
  obtain ⟨top, htop, hpart⟩ := Option.bind_eq_some_iff.1 h
  unfold DeclId.part? at hpart
  split at hpart
  · rw [← Option.some.inj hpart]
    exact Or.inl htop
  · obtain ⟨list, -, hm⟩ := Option.bind_eq_some_iff.1 hpart
    obtain ⟨m, -, rfl⟩ := Option.map_eq_some_iff.1 hm
    exact Or.inr ⟨m, rfl⟩

/-- The member of an entry at a place of one of its lists. -/
lemma find?_member (legible : set.Legible) {library : LibraryId} {category : Category}
    {index : Nat} {entry : Entry} (h : set.slot? library category index = some entry)
    {c : Category} {list : List Member} (hlist : entry.body.members? c = some list) {j : Nat}
    {m : Member} (hm : list[j]? = some m) :
    c.owner? = some category ∧ m.id = ⟨library, c, j, some index⟩ ∧
      set.find? m.id = some m.toEntry := by
  have htags := legible.orderly.tags (tags?_of_slot? h)
  have hmembers : entry.tags.members c = some (list.map fun m => (m.id, m.references)) := by
    simp [Entry.tags, Body.tags, hlist]
  have howner := htags.owned hmembers
  have hid : m.id = ⟨library, c, j, some index⟩ := by
    have hget : (list.map fun m => (m.id, m.references))[j]? = some (m.id, m.references) := by
      rw [List.getElem?_map, hm, Option.map_some]
    exact htags.numbered hmembers hget
  refine ⟨howner, hid, ?_⟩
  have howner' : m.id.owner? = some ⟨library, category, index, none⟩ := by
    simp [DeclId.owner?, hid, howner]
  have hpart : m.id.part? entry = some m.toEntry := by
    rw [DeclId.part?, howner', hid]
    simp only [hlist, Option.bind_some, hm, Option.map_some]
  have hseat : m.id.seat = (category, index) := by simp [DeclId.seat, howner']
  have hlibrary : m.id.library = library := by rw [hid]
  rw [find?_eq legible.orderly.identified, hseat, hlibrary, h, Option.bind_some, hpart]

/-- The members of a declaration that has been found. -/
lemma finds_member (legible : set.Legible) {level : DeclId} {entry : Entry}
    (h : set.find? level = some entry) {m : Member} (hm : m ∈ entry.body.allMembers)
    (hnear : near level.library) : set.Finds near (.declaration m.id) := by
  rcases legible.find?_cases h with hslot | ⟨member, rfl⟩
  · obtain ⟨c, list, hlist, hmem⟩ := Body.exists_list_of_mem hm
    obtain ⟨j, hj⟩ := List.mem_iff_getElem?.1 hmem
    obtain ⟨-, hid, hfind⟩ := legible.find?_member hslot hlist hj
    refine ⟨⟨m.toEntry, hfind, rfl⟩, ?_⟩
    rw [Target.library, hid]
    exact hnear
  · simp [Member.toEntry, Body.allMembers] at hm

end LibrarySet.Legible

/-- What holds of the start of a walk and is handed on along its edges holds of all it visits. -/
lemma Walk.forall_mem_preorder {α : Type} [DecidableEq α] {P : α → Prop} {next : α → List α}
    (hnext : ∀ x, P x → ∀ y ∈ next x, P y) {fresh stack : List α} (hstack : ∀ x ∈ stack, P x) :
    ∀ x ∈ preorder next fresh stack, P x := by
  fun_induction preorder next fresh stack with
  | case1 => simp
  | case2 fresh node rest hn ih =>
    have hnode := hstack node (List.mem_cons_self ..)
    intro x hx
    rcases List.mem_cons.1 hx with rfl | hx
    · exact hnode
    · refine ih (fun y hy => ?_) x hx
      rcases List.mem_append.1 hy with hy | hy
      · exact hnext node hnode y hy
      · exact hstack y (List.mem_cons_of_mem _ hy)
  | case3 fresh node rest hn ih => exact ih fun y hy => hstack y (List.mem_cons_of_mem _ hy)

/-! ## Names -/

/-- A dotted name begins with no library outside `near`. -/
def LibrarySet.Leads (set : LibrarySet) (near : LibraryId → Prop) (path : List Ident) : Prop :=
  ∀ first rest, path = first :: rest → rest ≠ [] →
    ∀ library, set.named? first.name = some library → near library

namespace Context

/-- All that a context looks at lies in the libraries `near`. -/
structure Among (ctx : Context) (near : LibraryId → Prop) : Prop where
  space : near ctx.space.library
  imports : ∀ scope ∈ ctx.imports, near scope.library
  kernel : near .kernel
  within : ∀ id, ctx.within = some id → near id.library
  parents : ∀ {id parent}, near id.library → parent ∈ ctx.libraries.parents id →
    near parent.library

lemma among_everywhere (ctx : Context) : ctx.Among fun _ => True :=
  ⟨trivial, fun _ _ => trivial, trivial, fun _ _ => trivial, fun _ _ => trivial⟩

variable {ctx : Context} {near : LibraryId → Prop}

lemma mem_firstNonEmpty {α β : Type} {f : α → List β} {xs : List α} {y : β}
    (h : y ∈ firstNonEmpty f xs) : ∃ x ∈ xs, y ∈ f x := by
  induction xs with
  | nil => simp [firstNonEmpty] at h
  | cons x xs ih =>
    rw [firstNonEmpty] at h
    split at h
    · obtain ⟨x', hx', hy⟩ := ih h
      exact ⟨x', List.mem_cons_of_mem _ hx', hy⟩
    · exact ⟨x, List.mem_cons_self .., h⟩

lemma library_of_mem_enclosing {scope : SpaceRef} (h : scope ∈ ctx.enclosing) :
    scope.library = ctx.space.library := by
  unfold enclosing at h
  split at h
  · obtain ⟨id, -, rfl⟩ := List.mem_map.1 h
    rfl
  · simp at h

lemma Among.searchScopes (among : ctx.Among near) {scope : SpaceRef}
    (h : scope ∈ ctx.searchScopes) : near scope.library := by
  rcases List.mem_append.1 h with h | h
  · rw [library_of_mem_enclosing h]
    exact among.space
  · rcases (mem_addNew _ _ _).1 h with h | rfl
    · exact among.imports scope h
    · exact among.kernel

lemma Among.memberLevels (among : ctx.Among near) {level : DeclId}
    (h : level ∈ ctx.memberLevels) : near level.library := by
  unfold Context.memberLevels at h
  split at h
  · simp at h
  · next id hid =>
    have hnear := among.within id hid
    split at h
    · rw [List.mem_singleton.1 h]
      exact hnear
    · rcases List.mem_cons.1 h with rfl | h
      · exact hnear
      · exact Walk.forall_mem_preorder (P := fun id => near id.library)
          (fun _ hx _ hy => among.parents hx hy) (fun _ hx => among.parents hnear hx) level h
    · simp at h

variable (legible : ctx.libraries.Legible)

include legible

lemma finds_group {name : String} {scope : SpaceRef} {id : DeclId}
    (h : id ∈ ctx.groupIn name scope) (hnear : near scope.library) :
    ctx.libraries.Finds near (.declaration id) := by
  unfold groupIn at h
  cases hspace : ctx.libraries.space? scope with
  | none => simp [hspace] at h
  | some space =>
    rw [hspace] at h
    exact legible.finds_group hspace h hnear

lemma Among.finds_find (among : ctx.Among near) {name : Ident} {id : DeclId}
    (h : id ∈ (ctx.find name).1) : ctx.libraries.Finds near (.declaration id) := by
  unfold find at h
  dsimp only at h
  split at h
  · obtain ⟨level, hlevel, hid⟩ := mem_firstNonEmpty h
    unfold membersAt at hid
    split at hid
    · next entry hentry =>
      rw [mem_visible, Entry.membersNamed, List.mem_map] at hid
      obtain ⟨⟨m, hm, rfl⟩, -⟩ := hid
      exact legible.finds_member hentry (List.mem_of_mem_filter hm) (among.memberLevels hlevel)
    · simp at hid
  · obtain ⟨scope, hscope, hid⟩ := mem_firstNonEmpty h
    rw [mem_visible] at hid
    exact finds_group legible hid.1 (among.searchScopes hscope)

lemma Among.finds_space (among : ctx.Among near) {name : Ident} {space : SpaceRef}
    (hnamed : ∀ library, ctx.libraries.named? name.name = some library → near library)
    (h : (ctx.findSpace name).1 = some space) : ctx.libraries.Finds near (.space space) := by
  unfold findSpace at h
  split at h
  · next found hfound =>
    obtain rfl : found = space := by simpa using h
    obtain ⟨scope, hscope, hchild⟩ := List.exists_of_findSome?_eq_some hfound
    refine legible.finds_child hchild ?_
    rw [library_of_mem_enclosing hscope]
    exact among.space
  · have hmem : space ∈ ctx.spaceCandidates name.name := List.mem_of_mem_head? h
    unfold spaceCandidates at hmem
    rw [mem_addAllNew, List.mem_append, List.mem_append] at hmem
    rcases hmem with hmem | (hmem | hmem) | hmem
    · simp at hmem
    · obtain ⟨scope, hscope, hchild⟩ := List.mem_filterMap.1 hmem
      exact legible.finds_child hchild (among.imports scope hscope)
    · rw [Option.mem_toList, Option.bind_eq_some_iff] at hmem
      obtain ⟨library, hlibrary, hroot⟩ := hmem
      exact legible.finds_root hroot (hnamed library hlibrary)
    · rw [Option.mem_toList] at hmem
      exact legible.finds_child hmem among.kernel

lemma finds_descend {space : SpaceRef} (hnear : near space.library) (path : List Ident) :
    (∀ step ∈ (ctx.descend space path).1, ctx.libraries.Finds near (.space step.2)) ∧
      ∀ last, (ctx.descend space path).2 = .ok last → near last.library := by
  induction path generalizing space with
  | nil =>
    refine ⟨by simp [descend], ?_⟩
    rintro last hlast
    obtain rfl : space = last := by simpa [descend] using hlast
    exact hnear
  | cons segment rest ih =>
    unfold descend
    cases hchild : ctx.libraries.child? space segment.name with
    | none => exact ⟨by simp, by simp⟩
    | some child =>
      have hfinds : ctx.libraries.Finds near (.space child) := legible.finds_child hchild hnear
      obtain ⟨hsteps, hlast⟩ := ih hfinds.2
      refine ⟨fun step hstep => ?_, hlast⟩
      rcases List.mem_cons.1 hstep with rfl | hstep
      · exact hfinds
      · exact hsteps step hstep

/-- What a possibly dotted name means, and the namespaces on the way. -/
lemma Among.finds_path (among : ctx.Among near) {path : List Ident}
    (hleads : ctx.libraries.Leads near path) :
    (∀ id ∈ (ctx.findPath path).1.declarations, ctx.libraries.Finds near (.declaration id)) ∧
      ∀ step ∈ (ctx.findPath path).1.spaces, ctx.libraries.Finds near (.space step.2) := by
  unfold findPath
  cases hlast : path.getLast? with
  | none => exact ⟨by simp, by simp⟩
  | some last =>
    have hpath : path = path.dropLast ++ [last] := (List.dropLast_append_getLast? last hlast).symm
    -- A name without dots is looked up from inside. Otherwise the first segment leads to a
    -- namespace, and the walk goes down from there.
    cases hdrop : path.dropLast with
    | nil => exact ⟨fun id hid => among.finds_find legible hid, by simp⟩
    | cons first rest =>
      rw [hdrop] at hpath
      have hnamed : ∀ library, ctx.libraries.named? first.name = some library → near library :=
        hleads first (rest ++ [last]) hpath (by simp)
      dsimp only
      unfold findBehind
      rcases hspace : ctx.findSpace first with ⟨_ | space, notes⟩
      · exact ⟨by simp, by simp⟩
      · have hfinds := among.finds_space legible hnamed (by rw [hspace] : _ = some space)
        obtain ⟨hsteps, hend⟩ := finds_descend legible hfinds.2 rest
        rcases hdescend : ctx.descend space rest with ⟨steps, _ | target⟩
        · rw [hdescend] at hsteps
          simp only [hdescend]
          refine ⟨by simp, fun step hstep => ?_⟩
          rcases List.mem_cons.1 hstep with rfl | hstep
          · exact hfinds
          · exact hsteps step hstep
        · rw [hdescend] at hsteps hend
          simp only [hdescend]
          refine ⟨fun id hid => ?_, fun step hstep => ?_⟩
          · have hmem : id ∈ ctx.visible (ctx.groupIn last.name target) := hid
            rw [mem_visible] at hmem
            exact finds_group legible hmem.1 (hend target rfl)
          · rcases List.mem_cons.1 hstep with rfl | hstep
            · exact hfinds
            · exact hsteps step hstep

omit legible in
/-- Looking names up inside a declaration of a near library. -/
lemma Among.inside (among : ctx.Among near) {id : DeclId} (h : near id.library) :
    ({ ctx with within := some id } : Context).Among near where
  space := among.space
  imports := among.imports
  kernel := among.kernel
  within other hother := by
    obtain rfl : id = other := by simpa using hother
    exact h
  parents := among.parents

end Context

/-! ## Types -/

/-- A live member has a live owner. -/
lemma LibrarySet.Legible.finds_owner {set : LibrarySet} {near : LibraryId → Prop}
    (legible : set.Legible) {id owner : DeclId} (h : set.Finds near (.declaration id))
    (howner : id.owner? = some owner) : set.Finds near (.declaration owner) := by
  obtain ⟨⟨entry, hentry, hid⟩, hnear⟩ := h
  have hseat : id.seat = (owner.category, owner.index) := by simp [DeclId.seat, howner]
  have hlibrary : owner = ⟨id.library, owner.category, owner.index, none⟩ := by
    unfold DeclId.owner? at howner
    split at howner
    · rw [← Option.some.inj howner]
    · simp at howner
  rw [find?_eq legible.orderly.identified, hseat] at hentry
  obtain ⟨top, htop, -⟩ := Option.bind_eq_some_iff.1 hentry
  obtain ⟨heq, hfind⟩ := legible.finds_slot htop
  have hown : top.id = owner := heq.trans hlibrary.symm
  refine ⟨⟨top, hown ▸ hfind, hown⟩, ?_⟩
  rw [hlibrary]
  exact hnear

lemma Ty.declaration?_of {id declaration : DeclId} (h : (Ty.of id).declaration? = some declaration)
    (hdefine : id.define = none) : declaration = id := by
  obtain ⟨library, category, index, define⟩ := id
  obtain rfl : define = none := hdefine
  cases category <;> simp_all [Ty.of, Ty.declaration?, TypeCode.ofCategory, TypeCode.category?,
    Ty.invalid]

/-- The declaration behind a resolved name's type is the one it names, or its owner. -/
lemma LibrarySet.Legible.finds_defining {set : LibrarySet} {near : LibraryId → Prop}
    (legible : set.Legible) {id declaration : DeclId} (h : set.Finds near (.declaration id))
    (hty : (Ty.defining id).declaration? = some declaration) :
    set.Finds near (.declaration declaration) := by
  unfold Ty.defining at hty
  split at hty
  · next owner howner =>
    split at hty
    · simp [Ty.invalid, Ty.declaration?, TypeCode.category?] at hty
    · have hdefine : owner.define = none := by
        unfold DeclId.owner? at howner
        split at howner
        · rw [← Option.some.inj howner]
        · simp at howner
      rw [Ty.declaration?_of hty hdefine]
      exact legible.finds_owner h howner
  · next hnone =>
    obtain ⟨entry, hentry, hid⟩ := h.1
    have hproper : id.Proper := hid ▸ legible.orderly.proper_of_find? hentry
    have htop : id.category.isMember = false := by
      have hsome := DeclId.owner?_isSome_of_proper hproper
      rw [hnone] at hsome
      exact hsome.symm
    rw [Ty.declaration?_of hty (hproper.define_of_top htop)]
    exact h

lemma Ty.declaration?_withDimension (ty : Ty) (dimension : Nat) :
    (ty.withDimension dimension).declaration? = ty.declaration? := by
  unfold withDimension
  split <;> rfl

/-! ## Findings -/

/-- The top-level declaration that an identity means or belongs to. -/
def DeclId.holder (id : DeclId) : DeclId := id.owner?.getD id

/-- The declaration that an update is made on. -/
def Update.target : Update → DeclId
  | .variable target _ | .callable target _ _ | .task target _ | .inheritance target _ _ => target

/-- The parent class that an update gives to a class. -/
def Update.parent? : Update → Option DeclId
  | .inheritance _ parent _ => parent.bind Ty.declaration?
  | _ => none

/-- Findings for a document with the declarations `own`: it refers to live targets in the libraries
`near`, and updates only what it declares. -/
structure Findings.Among (found : Findings) (set : LibrarySet) (near : LibraryId → Prop)
    (document : String) (own : List DeclId) : Prop where
  references : ∀ {target location}, (target, location) ∈ found.references →
    set.Finds near target ∧ location.document = document
  heirs : ∀ {base heir}, (base, heir) ∈ found.heirs →
    set.Finds near (.declaration base) ∧ heir ∈ own
  updates : ∀ {update}, update ∈ found.updates → update.Fits ∧ update.target.holder ∈ own ∧
    ∀ parent, update.parent? = some parent → near parent.library

namespace Findings

variable {set : LibrarySet} {near : LibraryId → Prop} {document : String} {own : List DeclId}

lemma among_empty : Findings.Among {} set near document own :=
  ⟨by simp, by simp, by simp⟩

lemma among_diagnostic (d : Diagnostic) : (ofDiagnostic d).Among set near document own :=
  ⟨by simp [ofDiagnostic], by simp [ofDiagnostic], by simp [ofDiagnostic]⟩

lemma among_update {update : Update} (hfits : update.Fits) (hown : update.target.holder ∈ own)
    (hparent : ∀ parent, update.parent? = some parent → near parent.library) :
    (ofUpdate update).Among set near document own := by
  refine ⟨by simp [ofUpdate], by simp [ofUpdate], ?_⟩
  intro other hother
  obtain rfl : other = update := by simpa [ofUpdate] using hother
  exact ⟨hfits, hown, hparent⟩

lemma Among.append {a b : Findings} (ha : a.Among set near document own)
    (hb : b.Among set near document own) : (a ++ b).Among set near document own := by
  refine ⟨?_, ?_, ?_⟩
  · intro target location h
    rcases List.mem_append.1 h with h | h
    · exact ha.references h
    · exact hb.references h
  · intro base heir h
    rcases List.mem_append.1 h with h | h
    · exact ha.heirs h
    · exact hb.heirs h
  · intro update h
    rcases List.mem_append.1 h with h | h
    · exact ha.updates h
    · exact hb.updates h

lemma among_join {all : List Findings} (h : ∀ found ∈ all, found.Among set near document own) :
    (join all).Among set near document own := by
  induction all with
  | nil => exact among_empty
  | cons found rest ih =>
    exact (h found (List.mem_cons_self ..)).append
      (ih fun other hother => h other (List.mem_cons_of_mem _ hother))

end Findings

namespace Context

variable {ctx : Context} {near : LibraryId → Prop}

/-- What resolving a written type finds, and the declaration behind the type it gives. -/
theorem Among.resolveType (among : ctx.Among near) (legible : ctx.libraries.Legible)
    (own : List DeclId) {ty : TypeRef} (hleads : ctx.libraries.Leads near ty.path) :
    (ctx.resolveType ty).found.Among ctx.libraries near ctx.document own ∧
      ∀ declaration, (ctx.resolveType ty).value.declaration? = some declaration →
        ctx.libraries.Finds near (.declaration declaration) := by
  obtain ⟨hdecls, hspaces⟩ := among.finds_path legible hleads
  unfold Context.resolveType
  generalize ctx.findPath ty.path = outcome at hdecls hspaces
  obtain ⟨resolution, notes⟩ := outcome
  -- Each segment that was walked through is reported as a reference to its namespace.
  have hfound : Findings.Among
      { diagnostics := notes
        references := resolution.spaces.map fun step =>
          (.space step.2, ctx.locate step.1) } ctx.libraries near ctx.document own := by
    refine ⟨?_, by simp, by simp⟩
    intro target location h
    obtain ⟨step, hstep, heq⟩ := List.mem_map.1 h
    obtain ⟨rfl, rfl⟩ := Prod.mk.inj heq
    exact ⟨hspaces step hstep, rfl⟩
  have hinvalid : Ty.invalid.declaration? = none := rfl
  dsimp only
  split
  · next name id hname hone =>
    have hid : ctx.libraries.Finds near (.declaration id) := hdecls id (by simp [hone])
    have hreference : Findings.Among { references := [(.declaration id, ctx.locate name.range)] }
        ctx.libraries near ctx.document own := by
      refine ⟨?_, by simp, by simp⟩
      intro target location h
      obtain ⟨rfl, rfl⟩ := Prod.mk.inj (List.mem_singleton.1 h)
      exact ⟨hid, rfl⟩
    split
    · exact ⟨(hfound.append hreference).append (Findings.among_diagnostic _), by simp [hinvalid]⟩
    · refine ⟨hfound.append hreference, fun declaration h => ?_⟩
      rw [Ty.declaration?_withDimension] at h
      exact legible.finds_defining hid h
  · exact ⟨hfound.append (Findings.among_diagnostic _), by simp [hinvalid]⟩
  · exact ⟨hfound, by simp [hinvalid]⟩

lemma Among.resolveTypes (among : ctx.Among near) (legible : ctx.libraries.Legible)
    (own : List DeclId) {types : List TypeRef}
    (hleads : ∀ ty ∈ types, ctx.libraries.Leads near ty.path) :
    (ctx.resolveTypes types).found.Among ctx.libraries near ctx.document own := by
  refine Findings.among_join fun found hfound => ?_
  rw [List.map_map] at hfound
  obtain ⟨ty, hty, rfl⟩ := List.mem_map.1 hfound
  exact (among.resolveType legible own (hleads ty hty)).1

lemma Among.resolveParams (among : ctx.Among near) (legible : ctx.libraries.Legible)
    (own : List DeclId) {params : List ParamNode}
    (hleads : ∀ param ∈ params, ctx.libraries.Leads near param.ty.path) :
    (ctx.resolveParams params).found.Among ctx.libraries near ctx.document own := by
  refine Findings.among_join fun found hfound => ?_
  rw [List.map_map] at hfound
  obtain ⟨param, hparam, rfl⟩ := List.mem_map.1 hfound
  exact (among.resolveType legible own (hleads param hparam)).1

end Context

end SymbolGraph
