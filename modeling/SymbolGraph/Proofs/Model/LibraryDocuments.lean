import SymbolGraph.Proofs.Model.Collections
import SymbolGraph.Proofs.Model.LibraryCoherence

/-!
# Which documents a library holds

`lib.Hosts units` says that a coherent library holds exactly the documents `units`: their
declaration lists name every occupied slot once and nothing else, and a namespace below the root
lives because some of them open it, its `documents` being the paths of those that do.  It is a
statement about unfinished documents too, so it serves as the invariant of tidying, where the last
document grows, and of teardown, where one document shrinks until it claims nothing.
`lib.Sheds decls lib'` says what disposing of a document takes from the library.
-/

namespace SymbolGraph

/-! ## Documents in a library -/

/-- A library holds exactly the documents of a list. -/
structure Library.Hosts (lib : Library) (units : List SourceUnit) : Prop where
  coherent : lib.Coherent
  mem_declarations : ∀ {decl}, decl ∈ units.flatMap SourceUnit.declarations ↔
    ∃ entry, lib.slot? decl.category decl.index = some entry ∧ entry.id = decl
  declarations_nodup : (units.flatMap SourceUnit.declarations).Nodup
  entry_of : ∀ {unit decl entry}, unit ∈ units → decl ∈ unit.declarations →
    lib.slot? decl.category decl.index = some entry →
    entry.document = unit.path ∧ (entry.space = Arena.root ∨ entry.space ∈ unit.spaces)
  mem_documents : ∀ {id space document}, lib.spaces.get? id = some space →
    (document ∈ space.documents ↔ ∃ unit ∈ units, unit.path = document ∧ id ∈ unit.spaces)
  documents_sorted : ∀ {id space}, lib.spaces.get? id = some space →
    space.documents.Pairwise (· < ·)
  spaces_live : ∀ {unit id}, unit ∈ units → id ∈ unit.spaces →
    id ≠ Arena.root ∧ ∃ space, lib.spaces.get? id = some space
  spaces_opened : ∀ {id space}, lib.spaces.get? id = some space → id ≠ Arena.root →
    ∃ unit ∈ units, id ∈ unit.spaces
  spaces_nodup : ∀ {unit}, unit ∈ units → unit.spaces.Nodup
  /-- A document opens the namespace around another one before it. -/
  outer_first : ∀ {unit before id after space parent}, unit ∈ units →
    unit.spaces = before ++ id :: after → lib.spaces.get? id = some space →
    space.parent = some parent → parent = Arena.root ∨ parent ∈ before

/-- The part of a document by which a library holds it: its path, declarations and namespaces. -/
def SourceUnit.claims (unit : SourceUnit) : String × List DeclId × List SpaceId :=
  (unit.path, unit.declarations, unit.spaces)

lemma SourceUnit.claims_of_skeleton_eq {unit unit' : SourceUnit}
    (h : unit'.skeleton = unit.skeleton) : unit'.claims = unit.claims := by
  simp only [skeleton, SourceUnit.mk.injEq] at h
  simp only [claims, path, h]

namespace Library

variable {lib lib' : Library} {units units' : List SourceUnit}

/-- A new library has its root only, which no document has opened and nothing refers to. -/
lemma space_new {id : LibraryId} {name : String} {s : SpaceId} {space : Namespace}
    (h : (new id name).spaces.get? s = some space) :
    s = Arena.root ∧ space.documents = [] ∧ space.references = [] := by
  have hlt := Arena.lt_length_of_get? h
  obtain rfl : s = 0 := by simpa [new, Arena.new] using hlt
  simp only [new, Arena.new, Arena.get?, List.getElem?_cons_zero, Option.join_some,
    Option.some.injEq] at h
  rw [← h]
  exact ⟨rfl, rfl, rfl⟩

lemma hosts_new (id : LibraryId) (name : String) : (new id name).Hosts [] := by
  refine ⟨coherent_new id name, ?_, by simp, ?_, ?_, ?_, ?_, ?_, ?_, ?_⟩
  · simp [slot?_new]
  · simp
  · intro s space document h
    simp [(space_new h).2.1]
  · intro s space h
    simp [(space_new h).2.1]
  · simp
  · intro s space h hne
    exact absurd (space_new h).1 hne
  · simp
  · simp

/-- What a library holds is a matter of its skeleton. -/
lemma Hosts.of_skeleton_eq (hosts : lib.Hosts units) (h : lib'.skeleton = lib.skeleton) :
    lib'.Hosts units := by
  -- The fields speak of headers, parents and documents, which a skeleton keeps.
  have hheader {entry entry' : Entry} (he : entry'.skeleton = entry.skeleton) :
      entry'.id = entry.id ∧ entry'.space = entry.space ∧ entry'.document = entry.document := by
    simp only [Entry.skeleton, Symbol.mk.injEq] at he
    exact ⟨he.2.2.2.2.1, he.2.2.2.1, he.2.2.1⟩
  have hnode {space space' : Namespace} (he : space'.skeleton = space.skeleton) :
      space'.parent = space.parent ∧ space'.documents = space.documents := by
    simp only [Namespace.skeleton, Namespace.mk.injEq] at he
    exact ⟨he.2.1, he.2.2.2.2.2.2⟩
  refine ⟨hosts.coherent.of_skeleton_eq h, ?_, hosts.declarations_nodup, ?_, ?_, ?_, ?_, ?_,
    hosts.spaces_nodup, ?_⟩
  · intro decl
    rw [hosts.mem_declarations]
    constructor
    · rintro ⟨entry, hslot, hid⟩
      obtain ⟨entry', hslot', he⟩ := slot?_of_skeleton_eq h.symm hslot
      exact ⟨entry', hslot', (hheader he).1.symm.trans hid⟩
    · rintro ⟨entry', hslot', hid⟩
      obtain ⟨entry, hslot, he⟩ := slot?_of_skeleton_eq h hslot'
      exact ⟨entry, hslot, (hheader he).1.symm.trans hid⟩
  · intro unit decl entry' hunit hdecl hslot'
    obtain ⟨entry, hslot, he⟩ := slot?_of_skeleton_eq h hslot'
    obtain ⟨-, hs, hd⟩ := hheader he
    rw [hs, hd]
    exact hosts.entry_of hunit hdecl hslot
  · intro id space' document hget
    obtain ⟨space, hs, he⟩ := space?_of_skeleton_eq h hget
    rw [(hnode he).2]
    exact hosts.mem_documents hs
  · intro id space' hget
    obtain ⟨space, hs, he⟩ := space?_of_skeleton_eq h hget
    rw [(hnode he).2]
    exact hosts.documents_sorted hs
  · intro unit id hunit hid
    obtain ⟨hne, space, hs⟩ := hosts.spaces_live hunit hid
    obtain ⟨space', hs', -⟩ := space?_of_skeleton_eq h.symm hs
    exact ⟨hne, space', hs'⟩
  · intro id space' hget hne
    obtain ⟨space, hs, -⟩ := space?_of_skeleton_eq h hget
    exact hosts.spaces_opened hs hne
  · intro unit before id after space' parent hunit hsplit hget hparent
    obtain ⟨space, hs, he⟩ := space?_of_skeleton_eq h hget
    exact hosts.outer_first hunit hsplit hs ((hnode he).1 ▸ hparent)

/-- The order of the documents does not matter. -/
lemma Hosts.perm (hosts : lib.Hosts units) (h : units.Perm units') : lib.Hosts units' where
  coherent := hosts.coherent
  mem_declarations := by
    intro decl
    rw [← hosts.mem_declarations]
    exact (h.flatMap_right _).mem_iff.symm
  declarations_nodup := ((h.flatMap_right _).nodup_iff).1 hosts.declarations_nodup
  entry_of hunit := hosts.entry_of (h.mem_iff.2 hunit)
  mem_documents hget := by
    rw [hosts.mem_documents hget]
    simp only [h.mem_iff]
  documents_sorted := hosts.documents_sorted
  spaces_live hunit := hosts.spaces_live (h.mem_iff.2 hunit)
  spaces_opened hget hne := by
    obtain ⟨unit, hunit, hid⟩ := hosts.spaces_opened hget hne
    exact ⟨unit, h.mem_iff.1 hunit, hid⟩
  spaces_nodup hunit := hosts.spaces_nodup (h.mem_iff.2 hunit)
  outer_first hunit := hosts.outer_first (h.mem_iff.2 hunit)

/-- Only the claims of the documents matter. -/
lemma Hosts.congr (hosts : lib.Hosts units)
    (h : units'.map SourceUnit.claims = units.map SourceUnit.claims) : lib.Hosts units' := by
  -- Every field speaks of single documents or of all declarations together, so it is enough to find
  -- each document again on the other side.
  have hback {unit' : SourceUnit} (hunit : unit' ∈ units') : ∃ unit ∈ units,
      unit'.path = unit.path ∧ unit'.declarations = unit.declarations ∧
        unit'.spaces = unit.spaces := by
    have hmem : unit'.claims ∈ units.map SourceUnit.claims := h ▸ List.mem_map_of_mem hunit
    obtain ⟨unit, hu, he⟩ := List.mem_map.1 hmem
    simp only [SourceUnit.claims, Prod.mk.injEq] at he
    exact ⟨unit, hu, he.1.symm, he.2.1.symm, he.2.2.symm⟩
  have hforth {unit : SourceUnit} (hunit : unit ∈ units) : ∃ unit' ∈ units',
      unit'.path = unit.path ∧ unit'.spaces = unit.spaces := by
    have hmem : unit.claims ∈ units'.map SourceUnit.claims := h ▸ List.mem_map_of_mem hunit
    obtain ⟨unit', hu, he⟩ := List.mem_map.1 hmem
    simp only [SourceUnit.claims, Prod.mk.injEq] at he
    exact ⟨unit', hu, he.1, he.2.2⟩
  have hflat : units'.flatMap SourceUnit.declarations = units.flatMap SourceUnit.declarations := by
    have := congrArg (List.flatMap fun claims => claims.2.1) h
    simpa [List.flatMap_map, SourceUnit.claims] using this
  refine ⟨hosts.coherent, ?_, ?_, ?_, ?_, hosts.documents_sorted, ?_, ?_, ?_, ?_⟩
  · rw [hflat]
    exact hosts.mem_declarations
  · rw [hflat]
    exact hosts.declarations_nodup
  · intro unit' decl entry hunit' hdecl hslot
    obtain ⟨unit, hunit, hpath, hdecls, hspaces⟩ := hback hunit'
    rw [hpath, hspaces]
    exact hosts.entry_of hunit (hdecls ▸ hdecl) hslot
  · intro id space document hget
    rw [hosts.mem_documents hget]
    constructor
    · rintro ⟨unit, hunit, rfl, hid⟩
      obtain ⟨unit', hunit', hpath, hspaces⟩ := hforth hunit
      exact ⟨unit', hunit', hpath, hspaces ▸ hid⟩
    · rintro ⟨unit', hunit', rfl, hid⟩
      obtain ⟨unit, hunit, hpath, -, hspaces⟩ := hback hunit'
      exact ⟨unit, hunit, hpath.symm, hspaces ▸ hid⟩
  · intro unit' id hunit' hid
    obtain ⟨unit, hunit, -, -, hspaces⟩ := hback hunit'
    exact hosts.spaces_live hunit (hspaces ▸ hid)
  · intro id space hget hne
    obtain ⟨unit, hunit, hid⟩ := hosts.spaces_opened hget hne
    obtain ⟨unit', hunit', -, hspaces⟩ := hforth hunit
    exact ⟨unit', hunit', hspaces ▸ hid⟩
  · intro unit' hunit'
    obtain ⟨unit, hunit, -, -, hspaces⟩ := hback hunit'
    rw [hspaces]
    exact hosts.spaces_nodup hunit
  · intro unit' before id after space parent hunit' hsplit hget hparent
    obtain ⟨unit, hunit, -, -, hspaces⟩ := hback hunit'
    exact hosts.outer_first hunit (hspaces ▸ hsplit) hget hparent

/-- A document that claims nothing may be added or left out. -/
lemma hosts_cons_idle_iff {unit : SourceUnit} (hdecls : unit.declarations = [])
    (hspaces : unit.spaces = []) : lib.Hosts (unit :: units) ↔ lib.Hosts units := by
  -- A document without declarations and namespaces has nothing that a field could speak of;
  -- wherever it is picked, there is a contradiction.
  have hflat : (unit :: units).flatMap SourceUnit.declarations
      = units.flatMap SourceUnit.declarations := by simp [hdecls]
  constructor
  · intro hosts
    refine ⟨hosts.coherent, hflat ▸ hosts.mem_declarations, hflat ▸ hosts.declarations_nodup,
      fun hunit => hosts.entry_of (List.mem_cons_of_mem _ hunit), ?_, hosts.documents_sorted,
      fun hunit => hosts.spaces_live (List.mem_cons_of_mem _ hunit), ?_,
      fun hunit => hosts.spaces_nodup (List.mem_cons_of_mem _ hunit),
      fun hunit => hosts.outer_first (List.mem_cons_of_mem _ hunit)⟩
    · intro id space document hget
      rw [hosts.mem_documents hget]
      simp [hspaces]
    · intro id space hget hne
      obtain ⟨u, hu, hid⟩ := hosts.spaces_opened hget hne
      rcases List.mem_cons.1 hu with rfl | hu
      · simp [hspaces] at hid
      · exact ⟨u, hu, hid⟩
  · intro hosts
    refine ⟨hosts.coherent, hflat ▸ hosts.mem_declarations, hflat ▸ hosts.declarations_nodup,
      ?_, ?_, hosts.documents_sorted, ?_, ?_, ?_, ?_⟩
    · intro u decl entry hu hdecl hslot
      rcases List.mem_cons.1 hu with rfl | hu
      · simp [hdecls] at hdecl
      · exact hosts.entry_of hu hdecl hslot
    · intro id space document hget
      rw [hosts.mem_documents hget]
      simp [hspaces]
    · intro u id hu hid
      rcases List.mem_cons.1 hu with rfl | hu
      · simp [hspaces] at hid
      · exact hosts.spaces_live hu hid
    · intro id space hget hne
      obtain ⟨u, hu, hid⟩ := hosts.spaces_opened hget hne
      exact ⟨u, List.mem_cons_of_mem _ hu, hid⟩
    · intro u hu
      rcases List.mem_cons.1 hu with rfl | hu
      · simp [hspaces]
      · exact hosts.spaces_nodup hu
    · intro u before id after space parent hu hsplit hget hparent
      rcases List.mem_cons.1 hu with rfl | hu
      · simp [hspaces] at hsplit
      · exact hosts.outer_first hu hsplit hget hparent

/-- A declaration that is listed has the identity of an occupied slot. -/
lemma Hosts.declared (hosts : lib.Hosts units) {decl : DeclId}
    (h : decl ∈ units.flatMap SourceUnit.declarations) :
    decl = ⟨lib.id, decl.category, decl.index, none⟩ ∧ decl.category.isMember = false ∧
      ∃ entry, lib.slot? decl.category decl.index = some entry ∧ entry.id = decl := by
  obtain ⟨entry, hentry, hid⟩ := hosts.mem_declarations.1 h
  have hdecl := hosts.coherent.id_eq hentry
  rw [hid] at hdecl
  exact ⟨hdecl, hosts.coherent.top_level hentry, entry, hentry, hid⟩

/-- A namespace of the library that a document may put declarations into. -/
lemma Hosts.live_of_open (hosts : lib.Hosts units) {unit : SourceUnit} (hunit : unit ∈ units)
    {id : SpaceId} (h : id = Arena.root ∨ id ∈ unit.spaces) :
    ∃ space, lib.spaces.get? id = some space := by
  rcases h with rfl | h
  · obtain ⟨space, hs, -⟩ := hosts.coherent.tree.root_live
    exact ⟨space, hs⟩
  · exact (hosts.spaces_live hunit h).2

/-- Where the namespaces keep their parents and their documents, a document that takes or gives up
declarations has to account for these alone. -/
lemma Hosts.redeclare {unit unit' : SourceUnit} (hosts : lib.Hosts (unit :: units))
    (coherent : lib'.Coherent) (hpath : unit'.path = unit.path)
    (hspaces : unit'.spaces = unit.spaces)
    (hkeeps : ∀ {k space}, lib.spaces.get? k = some space →
      ∃ space', lib'.spaces.get? k = some space')
    (honly : ∀ {k space'}, lib'.spaces.get? k = some space' →
      ∃ space, lib.spaces.get? k = some space ∧ space'.parent = space.parent ∧
        space'.documents = space.documents)
    (hmem : ∀ {decl}, decl ∈ (unit' :: units).flatMap SourceUnit.declarations ↔
      ∃ entry, lib'.slot? decl.category decl.index = some entry ∧ entry.id = decl)
    (hnodup : ((unit' :: units).flatMap SourceUnit.declarations).Nodup)
    (hentry : ∀ {u decl entry}, u ∈ unit' :: units → decl ∈ u.declarations →
      lib'.slot? decl.category decl.index = some entry →
      entry.document = u.path ∧ (entry.space = Arena.root ∨ entry.space ∈ u.spaces)) :
    lib'.Hosts (unit' :: units) := by
  have hback {u : SourceUnit} (hu : u ∈ unit' :: units) :
      ∃ v ∈ unit :: units, u.spaces = v.spaces := by
    rcases List.mem_cons.1 hu with rfl | hu
    · exact ⟨unit, List.mem_cons_self .., hspaces⟩
    · exact ⟨u, List.mem_cons_of_mem _ hu, rfl⟩
  -- What is left is about namespaces, and no document has got or lost any.
  refine ⟨coherent, hmem, hnodup, hentry, ?_, ?_, ?_, ?_, ?_, ?_⟩
  · intro k space' document h
    obtain ⟨space, hs, -, hdocs⟩ := honly h
    rw [hdocs, hosts.mem_documents hs]
    simp [hpath, hspaces]
  · intro k space' h
    obtain ⟨space, hs, -, hdocs⟩ := honly h
    rw [hdocs]
    exact hosts.documents_sorted hs
  · intro u k hu hk
    obtain ⟨v, hv, hvspaces⟩ := hback hu
    obtain ⟨hne, space, hs⟩ := hosts.spaces_live hv (hvspaces ▸ hk)
    exact ⟨hne, hkeeps hs⟩
  · intro k space' h hne
    obtain ⟨space, hs, -⟩ := honly h
    obtain ⟨u, hu, hk⟩ := hosts.spaces_opened hs hne
    rcases List.mem_cons.1 hu with rfl | hu
    · exact ⟨unit', List.mem_cons_self .., hspaces ▸ hk⟩
    · exact ⟨u, List.mem_cons_of_mem _ hu, hk⟩
  · intro u hu
    obtain ⟨v, hv, hvspaces⟩ := hback hu
    rw [hvspaces]
    exact hosts.spaces_nodup hv
  · intro u before k rest space' parent hu hsplit h hparent
    obtain ⟨v, hv, hvspaces⟩ := hback hu
    obtain ⟨space, hs, hp, -⟩ := honly h
    exact hosts.outer_first hv (hvspaces ▸ hsplit) hs (hp ▸ hparent)

/-! ## A document grows -/

section

variable {unit unit' : SourceUnit} {entry : Entry} {after : Library}

/-- An identity that was declared before is not that of the slot that is filled. -/
lemma Hosts.slot?_enlist (hosts : lib.Hosts units) (admits : lib.Admits entry after)
    (hempty : lib.slot? entry.id.category entry.id.index = none) {decl : DeclId}
    (hdecl : decl ∈ units.flatMap SourceUnit.declarations) :
    (after.enlist entry).slot? decl.category decl.index
      = lib.slot? decl.category decl.index := by
  obtain ⟨old, hold, -⟩ := hosts.mem_declarations.1 hdecl
  rw [admits.slot?_enlist, if_neg]
  rintro ⟨hc, hi⟩
  simp [hc, hi, hempty] at hold

/-- Namespaces keep everything but the group of the new declaration. -/
lemma Admits.get?_enlist (admits : lib.Admits entry after) {k : SpaceId} {space' : Namespace}
    (h : (after.enlist entry).spaces.get? k = some space') :
    ∃ space, lib.spaces.get? k = some space ∧ space'.parent = space.parent ∧
      space'.documents = space.documents := by
  simp only [Library.enlist, Arena.declare_eq, Arena.get?_adjust, admits.spaces_eq] at h
  split at h
  · obtain ⟨space, hs, rfl⟩ := Option.map_eq_some_iff.1 h
    exact ⟨space, hs, rfl, rfl⟩
  · exact ⟨space', h, rfl, rfl⟩

/-- With the new declaration, the identities that are listed are those of the occupied slots. -/
lemma Hosts.mem_declarations_enlist (hosts : lib.Hosts units) (admits : lib.Admits entry after)
    (hempty : lib.slot? entry.id.category entry.id.index = none) {decl : DeclId} :
    decl ∈ entry.id :: units.flatMap SourceUnit.declarations ↔
      ∃ e, (after.enlist entry).slot? decl.category decl.index = some e ∧ e.id = decl := by
  rw [List.mem_cons, hosts.mem_declarations]
  simp only [admits.slot?_enlist_eq_some_iff hempty]
  constructor
  · rintro (rfl | ⟨e, he, hedecl⟩)
    · exact ⟨entry, Or.inl ⟨rfl, rfl, rfl⟩, rfl⟩
    · exact ⟨e, Or.inr he, hedecl⟩
  · rintro ⟨e, ⟨-, -, rfl⟩ | he, hedecl⟩
    · exact Or.inl hedecl.symm
    · exact Or.inr ⟨e, he, hedecl⟩

/-- A document takes one more declaration into a namespace that it has open. -/
theorem Hosts.enlist (hosts : lib.Hosts (unit :: units)) (admits : lib.Admits entry after)
    (hid : entry.id.library = lib.id) (hdefine : entry.id.define = none)
    (htop : entry.id.category.isMember = false)
    (hempty : lib.slot? entry.id.category entry.id.index = none)
    (hdocument : entry.document = unit.path)
    (hspace : entry.space = Arena.root ∨ entry.space ∈ unit.spaces)
    (hclaims : unit'.claims = (unit.path, unit.declarations ++ [entry.id], unit.spaces)) :
    (after.enlist entry).Hosts (unit' :: units) := by
  simp only [SourceUnit.claims, Prod.mk.injEq] at hclaims
  obtain ⟨hpath, hdecls, hspaces⟩ := hclaims
  have hlive := hosts.live_of_open List.mem_cons_self hspace
  -- The slot was empty, so no document had the declaration before.
  have hnew : entry.id ∉ (unit :: units).flatMap SourceUnit.declarations := by
    intro hmem
    obtain ⟨e, he, -⟩ := hosts.mem_declarations.1 hmem
    simp [hempty] at he
  have hperm : ((unit' :: units).flatMap SourceUnit.declarations).Perm
      (entry.id :: (unit :: units).flatMap SourceUnit.declarations) := by
    simp only [List.flatMap_cons, hdecls, List.append_assoc, List.singleton_append]
    exact List.perm_middle
  have hself : (after.enlist entry).slot? entry.id.category entry.id.index = some entry :=
    (admits.slot?_enlist _ _).trans (if_pos ⟨rfl, rfl⟩)
  refine hosts.redeclare (hosts.coherent.enlist admits hid hdefine htop hempty hlive) hpath hspaces
    ?_ admits.get?_enlist ?_ ?_ ?_
  · intro k space hs
    simp only [Library.enlist, Arena.declare_eq, Arena.get?_adjust, admits.spaces_eq, hs]
    split <;> exact ⟨_, rfl⟩
  · intro decl
    rw [hperm.mem_iff, hosts.mem_declarations_enlist admits hempty]
  · rw [hperm.nodup_iff, List.nodup_cons]
    exact ⟨hnew, hosts.declarations_nodup⟩
  · intro u decl e hu hdecl he
    have hold {v : SourceUnit} (hv : v ∈ unit :: units) (hdecl : decl ∈ v.declarations) :
        e.document = v.path ∧ (e.space = Arena.root ∨ e.space ∈ v.spaces) := by
      rw [hosts.slot?_enlist admits hempty (List.mem_flatMap.2 ⟨v, hv, hdecl⟩)] at he
      exact hosts.entry_of hv hdecl he
    rcases List.mem_cons.1 hu with rfl | hu
    · rw [hpath, hspaces]
      rw [hdecls, List.mem_append, List.mem_singleton] at hdecl
      rcases hdecl with hdecl | rfl
      · exact hold List.mem_cons_self hdecl
      · obtain rfl : entry = e := by simpa [hself] using he
        exact ⟨hdocument, hspace⟩
    · exact hold (List.mem_cons_of_mem _ hu) hdecl

end

end Library

/-- `arena.Opens parent name document id after`: in `after` the namespace `id` is the child `name`
of `parent` and `document` opens it; it is an old namespace or one that was made for this, and
nothing else has changed. -/
structure Arena.Opens (arena : Arena) (parent : SpaceId) (name document : String) (id : SpaceId)
    (after : Arena) : Prop where
  tree : after.IsTree
  keeps : ∀ {k space}, arena.get? k = some space → ∃ space', after.get? k = some space' ∧
    space'.parent = space.parent ∧ space'.name = space.name ∧ space'.groups = space.groups ∧
    space'.references = space.references ∧
    space'.documents = if k = id then addSorted space.documents document else space.documents
  only : ∀ {k space'}, after.get? k = some space' → (∃ space, arena.get? k = some space) ∨
    (k = id ∧ arena.get? id = none ∧ space'.groups = [] ∧ space'.references = [] ∧
      space'.documents = [document])
  child : ∃ space', after.get? id = some space' ∧ space'.parent = some parent ∧ space'.name = name

/-- A namespace that is there afterwards is an old one or the one that was made. -/
lemma Arena.Opens.live_cases {arena after : Arena} {parent id : SpaceId} {name document : String}
    (opens : arena.Opens parent name document id after) {k : SpaceId} {space' : Namespace}
    (h : after.get? k = some space') :
    (∃ space, arena.get? k = some space ∧ space'.parent = space.parent ∧
      space'.groups = space.groups ∧ space'.documents =
        if k = id then addSorted space.documents document else space.documents) ∨
    (k = id ∧ arena.get? id = none ∧ space'.groups = [] ∧ space'.documents = [document]) := by
  rcases opens.only h with ⟨space, hs⟩ | ⟨hk, hnone, hgroups, -, hdocs⟩
  · obtain ⟨space'', hs'', hparent, -, hgroups, -, hdocs⟩ := opens.keeps hs
    obtain rfl : space' = space'' := by simpa [h] using hs''
    exact Or.inl ⟨space, hs, hparent, hgroups, hdocs⟩
  · exact Or.inr ⟨hk, hnone, hgroups, hdocs⟩

lemma Arena.Opens.ne_root {arena after : Arena} {parent id : SpaceId} {name document : String}
    (opens : arena.Opens parent name document id after) : id ≠ root := by
  obtain ⟨child, hchild, hup, -⟩ := opens.child
  exact opens.tree.ne_root_of_parent hchild hup

/-- Opening a namespace for a document, whether it has to be made or not. -/
lemma Arena.IsTree.opens {arena : Arena} (tree : arena.IsTree) {parent : SpaceId}
    {above : Namespace} (hparent : arena.get? parent = some above) (name document : String) :
    arena.Opens parent name document (arena.openChild parent name).1
      ((arena.openChild parent name).2.addDocument (arena.openChild parent name).1 document) := by
  -- Either the namespace is there, or a fresh node is hung below the parent.
  cases hchild : arena.child? parent name with
  | some id =>
    have hopen : arena.openChild parent name = (id, arena) := by simp [openChild, hchild]
    rw [hopen]
    simp only [child?, hparent, Option.bind_some] at hchild
    obtain ⟨space, hspace, hup, hname⟩ := (tree.child_iff hparent).1 hchild
    refine ⟨tree.adjust id fun _ => rfl, ?_, ?_, ?_⟩
    · intro k old hold
      rw [addDocument, get?_adjust, hold]
      by_cases hk : id = k
      · simp [hk]
      · simp [hk, Ne.symm hk]
    · intro k space' h
      rw [addDocument, get?_adjust] at h
      split at h
      · obtain ⟨old, hold, -⟩ := Option.map_eq_some_iff.1 h
        exact Or.inl ⟨old, hold⟩
      · exact Or.inl ⟨space', h⟩
    · simp [addDocument, get?_adjust, hspace, hup, hname]
  | none =>
    have adds := tree.openChild_adds hparent hchild
    generalize (arena.openChild parent name).1 = id at adds
    generalize (arena.openChild parent name).2 = after at adds
    refine ⟨(adds.isTree tree hparent hchild).adjust id fun _ => rfl, ?_, ?_, ?_⟩
    · intro k old hold
      have hne : id ≠ k := by
        rintro rfl
        simp [adds.empty] at hold
      rw [addDocument, get?_adjust, if_neg hne, adds.get?_of_live hold]
      refine ⟨_, rfl, ?_⟩
      simp only [Ne.symm hne, if_false]
      split <;> simp
    · intro k space' h
      rw [addDocument, get?_adjust] at h
      split at h
      · next hk =>
        subst hk
        rw [adds.get?_self, Option.map_some, Option.some.injEq] at h
        subst h
        exact Or.inr ⟨rfl, adds.empty, rfl, rfl, rfl⟩
      · next hk =>
        rcases adds.live_cases h with ⟨rfl, -⟩ | ⟨space, hspace, -⟩
        · exact absurd rfl hk
        · exact Or.inl ⟨space, hspace⟩
    · simp [addDocument, get?_adjust, adds.get?_self]

namespace Library

variable {lib lib' : Library} {units units' : List SourceUnit}

/-- A namespace that was open before keeps its parent, which was opened before it. -/
lemma Hosts.outer_first_kept (hosts : lib.Hosts units) {parent id : SpaceId}
    {name document : String} {after : Arena} (opens : lib.spaces.Opens parent
      name document id after)
    {unit : SourceUnit} (hunit : unit ∈ units) {before rest : List SpaceId} {k up : SpaceId}
    (hsplit : unit.spaces = before ++ k :: rest) {space' : Namespace}
    (hk : after.get? k = some space') (hup : space'.parent = some up) :
    up = Arena.root ∨ up ∈ before := by
  obtain ⟨-, space, hs⟩ := hosts.spaces_live hunit (by simp [hsplit] : k ∈ unit.spaces)
  obtain ⟨space'', hs'', hparent, -⟩ := opens.keeps hs
  obtain rfl : space' = space'' := by simpa [hk] using hs''
  exact hosts.outer_first hunit hsplit hs (hparent ▸ hup)

/-- In the document that opens a namespace the new one comes last, after its parent. -/
lemma Hosts.outer_first_opens {unit : SourceUnit} (hosts : lib.Hosts (unit :: units))
    {parent id : SpaceId} {name document : String} {after : Arena}
    (opens : lib.spaces.Opens parent name document id after)
    (hparent : parent = Arena.root ∨ parent ∈ unit.spaces) {before rest : List SpaceId}
    {k up : SpaceId} (hsplit : addNew unit.spaces id = before ++ k :: rest) {space' : Namespace}
    (hk : after.get? k = some space') (hup : space'.parent = some up) :
    up = Arena.root ∨ up ∈ before := by
  rw [addNew] at hsplit
  split at hsplit
  · exact hosts.outer_first_kept opens (List.mem_cons_self ..) hsplit hk hup
  · rcases List.eq_nil_or_concat rest with rfl | ⟨rest', last, rfl⟩
    · obtain ⟨hbefore, hlast⟩ := List.append_inj' hsplit rfl
      obtain rfl : id = k := by simpa using hlast
      obtain ⟨child, hchild, hchildup, -⟩ := opens.child
      obtain rfl : child = space' := by simpa [hchild] using hk
      obtain rfl : parent = up := by simpa [hchildup] using hup
      exact hbefore ▸ hparent
    · have hlists : unit.spaces ++ [id] = (before ++ k :: rest') ++ [last] := by
        simpa using hsplit
      exact hosts.outer_first_kept opens (List.mem_cons_self ..)
        (List.append_inj' hlists rfl).1 hk hup

section

variable {unit unit' : SourceUnit} {parent id : SpaceId} {name document : String} {after : Arena}

/-- Opening a namespace moves no declaration. -/
lemma Coherent.opens (coherent : lib.Coherent)
    (opens : lib.spaces.Opens parent name document id after) :
    (lib.withSpaces after).Coherent := by
  refine coherent.withSpaces opens.tree ?_ ?_
  · intro k space hk _
    obtain ⟨space', hs', -⟩ := opens.keeps hk
    exact ⟨space', hs'⟩
  · intro k space' hk
    rcases opens.live_cases hk with ⟨space, hs, -, hg, -⟩ | ⟨rfl, hnone, hg, -⟩
    · exact Or.inl ⟨space, hs, hg⟩
    · exact Or.inr ⟨hnone, hg⟩

/-- With one more namespace open in one of the documents, each namespace knows who opens it. -/
lemma Hosts.mem_documents_opens (hosts : lib.Hosts (unit :: units))
    (opens : lib.spaces.Opens parent name unit.path id after) (hpath : unit'.path = unit.path)
    (hspaces : unit'.spaces = addNew unit.spaces id) {k : SpaceId} {space' : Namespace}
    (hk : after.get? k = some space') :
    document ∈ space'.documents ↔ ∃ u ∈ unit' :: units, u.path = document ∧ k ∈ u.spaces := by
  have hmem {k : SpaceId} : k ∈ unit'.spaces ↔ k ∈ unit.spaces ∨ k = id := by
    rw [hspaces, mem_addNew]
  rcases opens.live_cases hk with ⟨space, hs, -, -, hdocs⟩ | ⟨rfl, hnone, -, hdocs⟩
  · have hold := @Hosts.mem_documents _ _ hosts k space document hs
    simp only [List.mem_cons, exists_eq_or_imp, hpath, hmem] at hold ⊢
    rw [hdocs]
    by_cases hkid : k = id
    · rw [if_pos hkid, mem_addSorted, hold]
      constructor
      · rintro ((⟨h, hin⟩ | h) | rfl)
        · exact Or.inl ⟨h, Or.inl hin⟩
        · exact Or.inr h
        · exact Or.inl ⟨rfl, Or.inr hkid⟩
      · rintro (⟨h, hin | -⟩ | h)
        · exact Or.inl (Or.inl ⟨h, hin⟩)
        · exact Or.inr h.symm
        · exact Or.inl (Or.inr h)
    · simp only [hkid, if_false, or_false, hold]
  · rw [hdocs, List.mem_singleton]
    constructor
    · rintro rfl
      exact ⟨unit', List.mem_cons_self, hpath, hmem.2 (Or.inr rfl)⟩
    · rintro ⟨u, hu, rfl, hid⟩
      rcases List.mem_cons.1 hu with rfl | hu
      · exact hpath
      · -- The namespace is new, so no document had it open.
        obtain ⟨-, space, hs⟩ := hosts.spaces_live (List.mem_cons_of_mem _ hu) hid
        simp [hnone] at hs

lemma Hosts.documents_sorted_opens (hosts : lib.Hosts units)
    (opens : lib.spaces.Opens parent name document id after) {k : SpaceId} {space' : Namespace}
    (hk : after.get? k = some space') : space'.documents.Pairwise (· < ·) := by
  rcases opens.live_cases hk with ⟨space, hs, -, -, hdocs⟩ | ⟨-, -, -, hdocs⟩
  · rw [hdocs]
    split
    · exact pairwise_addSorted (hosts.documents_sorted hs) _
    · exact hosts.documents_sorted hs
  · rw [hdocs]
    exact List.pairwise_singleton ..

/-- What a document had open is still there, and so is the namespace that it opens now. -/
lemma Hosts.spaces_live_opens (hosts : lib.Hosts (unit :: units))
    (opens : lib.spaces.Opens parent name unit.path id after)
    (hspaces : unit'.spaces = addNew unit.spaces id) {u : SourceUnit} {k : SpaceId}
    (hu : u ∈ unit' :: units) (hk : k ∈ u.spaces) :
    k ≠ Arena.root ∧ ∃ space', after.get? k = some space' := by
  have hlive {u : SourceUnit} (hu : u ∈ unit :: units) (hk : k ∈ u.spaces) :
      k ≠ Arena.root ∧ ∃ space', after.get? k = some space' := by
    obtain ⟨hne, space, hs⟩ := hosts.spaces_live hu hk
    obtain ⟨space', hs', -⟩ := opens.keeps hs
    exact ⟨hne, space', hs'⟩
  rcases List.mem_cons.1 hu with rfl | hu
  · rw [hspaces, mem_addNew] at hk
    rcases hk with hk | rfl
    · exact hlive List.mem_cons_self hk
    · obtain ⟨child, hchild, -⟩ := opens.child
      exact ⟨opens.ne_root, child, hchild⟩
  · exact hlive (List.mem_cons_of_mem _ hu) hk

lemma Hosts.spaces_opened_opens (hosts : lib.Hosts (unit :: units))
    (opens : lib.spaces.Opens parent name unit.path id after)
    (hspaces : unit'.spaces = addNew unit.spaces id) {k : SpaceId} {space' : Namespace}
    (hk : after.get? k = some space') (hne : k ≠ Arena.root) :
    ∃ u ∈ unit' :: units, k ∈ u.spaces := by
  have hmem : k ∈ unit'.spaces ↔ k ∈ unit.spaces ∨ k = id := by rw [hspaces, mem_addNew]
  rcases opens.live_cases hk with ⟨space, hs, -⟩ | ⟨rfl, -⟩
  · obtain ⟨u, hu, hin⟩ := hosts.spaces_opened hs hne
    rcases List.mem_cons.1 hu with rfl | hu
    · exact ⟨unit', List.mem_cons_self, hmem.2 (Or.inl hin)⟩
    · exact ⟨u, List.mem_cons_of_mem _ hu, hin⟩
  · exact ⟨unit', List.mem_cons_self, hmem.2 (Or.inr rfl)⟩

/-- A document opens a namespace below one that it has open. -/
theorem Hosts.opens (hosts : lib.Hosts (unit :: units))
    (opens : lib.spaces.Opens parent name unit.path id after)
    (hparent : parent = Arena.root ∨ parent ∈ unit.spaces)
    (hclaims : unit'.claims = (unit.path, unit.declarations, addNew unit.spaces id)) :
    (lib.withSpaces after).Hosts (unit' :: units) := by
  simp only [SourceUnit.claims, Prod.mk.injEq] at hclaims
  obtain ⟨hpath, hdecls, hspaces⟩ := hclaims
  have hflat : (unit' :: units).flatMap SourceUnit.declarations
      = (unit :: units).flatMap SourceUnit.declarations := by simp [hdecls]
  refine ⟨hosts.coherent.opens opens, ?_, ?_, ?_, hosts.mem_documents_opens opens hpath hspaces,
    hosts.documents_sorted_opens opens, hosts.spaces_live_opens opens hspaces,
    hosts.spaces_opened_opens opens hspaces, ?_, ?_⟩
  · rw [hflat]
    exact hosts.mem_declarations
  · rw [hflat]
    exact hosts.declarations_nodup
  · intro u decl entry hu hdecl hslot
    rcases List.mem_cons.1 hu with rfl | hu
    · obtain ⟨hdoc, hsp⟩ := hosts.entry_of List.mem_cons_self (hdecls ▸ hdecl) hslot
      refine ⟨hdoc.trans hpath.symm, hsp.imp_right fun h => ?_⟩
      rw [hspaces, mem_addNew]
      exact Or.inl h
    · exact hosts.entry_of (List.mem_cons_of_mem _ hu) hdecl hslot
  · intro u hu
    rcases List.mem_cons.1 hu with rfl | hu
    · rw [hspaces]
      exact nodup_addNew (hosts.spaces_nodup List.mem_cons_self) id
    · exact hosts.spaces_nodup (List.mem_cons_of_mem _ hu)
  · intro u before k rest space' up hu hsplit hk hupk
    rcases List.mem_cons.1 hu with rfl | hu
    · exact hosts.outer_first_opens opens hparent (hspaces ▸ hsplit) hk hupk
    · exact hosts.outer_first_kept opens (List.mem_cons_of_mem _ hu) hsplit hk hupk

end

/-! ## A document shrinks -/

/-- Without the first declaration, the identities that are listed are those of the slots that stay
occupied. -/
lemma Hosts.mem_declarations_eraseRecord (hosts : lib.Hosts units) {entry : Entry}
    (hentry : lib.slot? entry.id.category entry.id.index = some entry) {rest : List DeclId}
    (hflat : units.flatMap SourceUnit.declarations = entry.id :: rest) {decl : DeclId} :
    decl ∈ rest ↔ ∃ e,
      (lib.eraseRecord entry.id).slot? decl.category decl.index = some e ∧ e.id = decl := by
  have hnodup := hosts.declarations_nodup
  have hold := @Hosts.mem_declarations _ _ hosts decl
  rw [hflat] at hnodup hold
  simp only [hosts.coherent.slot?_eraseRecord_eq_some_iff hentry]
  constructor
  · intro hdecl
    obtain ⟨e, he, rfl⟩ := hold.1 (List.mem_cons_of_mem _ hdecl)
    exact ⟨e, ⟨he, fun heq => (List.nodup_cons.1 hnodup).1 (heq ▸ hdecl)⟩, rfl⟩
  · rintro ⟨e, ⟨he, hne⟩, rfl⟩
    exact (List.mem_cons.1 (hold.2 ⟨e, he, rfl⟩)).resolve_left hne

/-- A document gives up its first declaration. -/
lemma Hosts.eraseRecord {unit unit' : SourceUnit} (hosts : lib.Hosts (unit :: units))
    {decl : DeclId} {rest : List DeclId} (hdecls : unit.declarations = decl :: rest)
    (hclaims : unit'.claims = (unit.path, rest, unit.spaces)) :
    (lib.eraseRecord decl).Hosts (unit' :: units) := by
  simp only [SourceUnit.claims, Prod.mk.injEq] at hclaims
  obtain ⟨hpath, hrest, hspaces⟩ := hclaims
  have hflat : (unit :: units).flatMap SourceUnit.declarations
      = decl :: (unit' :: units).flatMap SourceUnit.declarations := by simp [hdecls, hrest]
  have hnodup : (decl :: (unit' :: units).flatMap SourceUnit.declarations).Nodup :=
    hflat ▸ hosts.declarations_nodup
  obtain ⟨entry, hentry, rfl⟩ := hosts.mem_declarations.1
    (hflat ▸ List.mem_cons_self .. : decl ∈ (unit :: units).flatMap SourceUnit.declarations)
  have hnode {k : SpaceId} {space' : Namespace}
      (h : (lib.eraseRecord entry.id).spaces.get? k = some space') :
      ∃ space, lib.spaces.get? k = some space ∧ space'.parent = space.parent ∧
        space'.documents = space.documents := by
    rw [spaces_eraseRecord hentry] at h
    split at h
    · obtain ⟨space, hs, rfl⟩ := Option.map_eq_some_iff.1 h
      have hframe := congrArg Namespace.parent (space.frame_undeclare entry.name entry.id)
      exact ⟨space, hs, hframe, space.documents_undeclare _ _⟩
    · exact ⟨space', h, rfl, rfl⟩
  refine hosts.redeclare (hosts.coherent.eraseRecord hentry) hpath hspaces ?_ hnode
    (hosts.mem_declarations_eraseRecord hentry hflat) (List.nodup_cons.1 hnodup).2 ?_
  · intro k space hs
    rw [spaces_eraseRecord hentry, hs]
    split <;> exact ⟨_, rfl⟩
  · intro u d e hu hd he
    obtain ⟨he, -⟩ := (hosts.coherent.slot?_eraseRecord_eq_some_iff hentry).1 he
    rcases List.mem_cons.1 hu with rfl | hu
    · rw [hpath, hspaces]
      exact hosts.entry_of List.mem_cons_self (hdecls ▸ List.mem_cons_of_mem _ (hrest ▸ hd)) he
    · exact hosts.entry_of (List.mem_cons_of_mem _ hu) hd he

/-- A namespace below the root holds declarations of documents that open it only. -/
lemma Hosts.groups_eq_nil (hosts : lib.Hosts units) {id : SpaceId} {space : Namespace}
    (hs : lib.spaces.get? id = some space) (hroot : id ≠ Arena.root)
    (hnone : ∀ unit ∈ units, unit.declarations ≠ [] → id ∉ unit.spaces) : space.groups = [] := by
  refine (hosts.coherent.groups_eq_nil_iff hs).2 fun category index entry hslot heq => ?_
  have hid := hosts.coherent.id_eq hslot
  have hat : lib.slot? entry.id.category entry.id.index = some entry := by
    rw [hid]
    exact hslot
  obtain ⟨unit, hunit, hdecl⟩ := List.mem_flatMap.1 (hosts.mem_declarations.2 ⟨entry, hat, rfl⟩)
  rcases (hosts.entry_of hunit hdecl hat).2 with h | h
  · exact hroot (heq.symm.trans h)
  · exact hnone unit hunit (List.ne_nil_of_mem hdecl) (heq ▸ h)

/-- A child is opened after its parent, so the namespace that a document opened last has none unless
another document opens it too. -/
lemma Hosts.isLeaf_last {unit : SourceUnit} (hosts : lib.Hosts (unit :: units))
    {before : List SpaceId} {id : SpaceId} (hspaces : unit.spaces = before ++ [id])
    (hnone : ∀ u ∈ units, id ∉ u.spaces) : lib.spaces.IsLeaf id := by
  have hself : id ∈ unit.spaces := by simp [hspaces]
  have hroot := (hosts.spaces_live (List.mem_cons_self ..) hself).1
  intro k child hk hparent
  obtain ⟨u, hu, hin⟩ :=
    hosts.spaces_opened hk (hosts.coherent.tree.ne_root_of_parent hk hparent)
  obtain ⟨front, back, hsplit⟩ := List.append_of_mem hin
  have hfront : id ∈ front := (hosts.outer_first hu hsplit hk hparent).resolve_left hroot
  rcases List.mem_cons.1 hu with rfl | hu
  · have hlast : id ∈ k :: back := by
      have hlists := congrArg List.getLast? (hsplit.symm.trans hspaces)
      rw [List.getLast?_append_cons, List.getLast?_concat] at hlists
      exact List.mem_of_getLast? hlists
    have hnodup := hosts.spaces_nodup hu
    rw [hsplit] at hnodup
    exact (List.nodup_append.1 hnodup).2.2 id hfront id hlast rfl
  · exact hnone u hu (hsplit ▸ List.mem_append_left _ hfront)

/-- Without a document, a namespace is left with the others that open it. -/
lemma Hosts.mem_erase_documents {unit : SourceUnit} (hosts : lib.Hosts (unit :: units))
    (hpath : ∀ u ∈ units, u.path ≠ unit.path) {id : SpaceId} {space : Namespace}
    (hs : lib.spaces.get? id = some space) {document : String} :
    document ∈ space.documents.erase unit.path ↔
      ∃ u ∈ units, u.path = document ∧ id ∈ u.spaces := by
  rw [(nodup_of_pairwise_lt (hosts.documents_sorted hs)).mem_erase_iff, hosts.mem_documents hs]
  constructor
  · rintro ⟨hne, u, hu, rfl, hid⟩
    rcases List.mem_cons.1 hu with rfl | hu
    · exact absurd rfl hne
    · exact ⟨u, hu, rfl, hid⟩
  · rintro ⟨u, hu, rfl, hid⟩
    exact ⟨hpath u hu, u, List.mem_cons_of_mem _ hu, rfl, hid⟩

/-- What is left of the namespaces when a document closes the last one it opened: either another
document keeps the namespace, or it was vacant and is gone. -/
lemma Hosts.close_cases {unit : SourceUnit} (hosts : lib.Hosts (unit :: units))
    (hdecls : unit.declarations = []) {before : List SpaceId} {id : SpaceId}
    (hspaces : unit.spaces = before ++ [id]) (hpath : ∀ u ∈ units, u.path ≠ unit.path) :
    ∃ space, lib.spaces.get? id = some space ∧ lib.spaces.IsTree ∧
      (((∃ u ∈ units, id ∈ u.spaces) ∧
          lib.close unit.path id = lib.withSpaces (lib.spaces.dropDocument id unit.path)) ∨
        ((∀ u ∈ units, id ∉ u.spaces) ∧ space.groups = [] ∧
          (lib.spaces.dropDocument id unit.path).IsLeaf id ∧
          lib.close unit.path id
            = lib.withSpaces ((lib.spaces.dropDocument id unit.path).remove id))) := by
  have hself : id ∈ unit.spaces := by simp [hspaces]
  obtain ⟨hroot, space, hs⟩ := hosts.spaces_live (List.mem_cons_self ..) hself
  have tree := hosts.coherent.tree
  have htree : (lib.spaces.dropDocument id unit.path).IsTree := tree.adjust id fun _ => rfl
  have hget : (lib.spaces.dropDocument id unit.path).get? id
      = some { space with documents := space.documents.erase unit.path } := by
    simp [Arena.dropDocument, Arena.get?_adjust, hs]
  refine ⟨space, hs, tree, ?_⟩
  by_cases hother : ∃ u ∈ units, id ∈ u.spaces
  · refine Or.inl ⟨hother, ?_⟩
    obtain ⟨u, hu, hid⟩ := hother
    have hne : space.documents.erase unit.path ≠ [] :=
      List.ne_nil_of_mem ((hosts.mem_erase_documents hpath hs).2 ⟨u, hu, rfl, hid⟩)
    rw [Library.close, htree.prune_of_kept hget (Or.inr (by simp [Namespace.isVacant, hne]))]
    rfl
  · have hnone : ∀ u ∈ units, id ∉ u.spaces := fun u hu hid => hother ⟨u, hu, hid⟩
    have hleaf := hosts.isLeaf_last hspaces hnone
    have hgroups : space.groups = [] := by
      refine hosts.groups_eq_nil hs hroot fun u hu hne => ?_
      rcases List.mem_cons.1 hu with rfl | hu
      · exact absurd hdecls hne
      · exact hnone u hu
    have hvacant : Namespace.isVacant { space with documents := space.documents.erase unit.path }
        = true := by
      have hempty : space.documents.erase unit.path = [] := by
        refine List.eq_nil_iff_forall_not_mem.2 fun document hdoc => ?_
        obtain ⟨u, hu, -, hid⟩ := (hosts.mem_erase_documents hpath hs).1 hdoc
        exact hnone u hu hid
      simp [Namespace.isVacant, tree.children_eq_nil hs hleaf, hgroups, hempty]
    refine Or.inr ⟨hnone, hgroups, hleaf.dropDocument unit.path, ?_⟩
    rw [Library.close, htree.prune_of_vacant hget hroot hvacant]
    · rfl
    · -- The namespace around it is still open for this document.
      intro parent above hparent hproot habove
      obtain ⟨hne, above', habove', rfl⟩ := Arena.live_of_remove hget habove
      simp only [Arena.dropDocument, Arena.get?_adjust, if_neg (Ne.symm hne)] at habove'
      have hbefore : parent ∈ before :=
        (hosts.outer_first (List.mem_cons_self ..) hspaces hs hparent).resolve_left hproot
      have hin : parent ∈ unit.spaces := by simp [hspaces, hbefore]
      have hdoc : unit.path ∈ above'.documents :=
        (hosts.mem_documents habove').2 ⟨unit, List.mem_cons_self .., rfl, hin⟩
      have hne : above'.documents ≠ [] := List.ne_nil_of_mem hdoc
      split <;> simp [Namespace.isVacant, hne]

end Library

/-- `arena.Closes id document after`: `document` does not open the namespace `id` any more, which
may be gone for this reason, and nothing else has changed. -/
structure Arena.Closes (arena : Arena) (id : SpaceId) (document : String) (after : Arena) :
    Prop where
  tree : after.IsTree
  keeps : ∀ {k space}, arena.get? k = some space → k ≠ id → ∃ space', after.get? k = some space'
  only : ∀ {k space'}, after.get? k = some space' → ∃ space, arena.get? k = some space ∧
    space'.parent = space.parent ∧ space'.name = space.name ∧ space'.groups = space.groups ∧
    space'.references = space.references ∧
    space'.documents = if k = id then space.documents.erase document else space.documents
  pathTo : ∀ {path k space'}, arena.PathTo path k → after.get? k = some space' →
    after.PathTo path k

lemma Arena.IsTree.closes_dropDocument {arena : Arena} (tree : arena.IsTree) (id : SpaceId)
    (document : String) : arena.Closes id document (arena.dropDocument id document) := by
  have hget (k : SpaceId) : (arena.dropDocument id document).get? k = (arena.get? k).map
      fun space => { space with documents :=
        if k = id then space.documents.erase document else space.documents } := by
    rw [dropDocument, get?_adjust]
    by_cases hk : id = k
    · simp [hk]
    · simp [hk, Ne.symm hk]
  refine ⟨tree.adjust id fun _ => rfl, ?_, ?_, ?_⟩
  · intro k space hk _
    exact ⟨_, by rw [hget, hk, Option.map_some]⟩
  · intro k space' hk
    rw [hget] at hk
    obtain ⟨space, hs, rfl⟩ := Option.map_eq_some_iff.1 hk
    exact ⟨space, hs, rfl, rfl, rfl, rfl, rfl⟩
  · intro path k _ hpath _
    refine hpath.mono fun j space hj => ?_
    have hj' := hget j
    rw [hj, Option.map_some] at hj'
    exact ⟨_, hj', rfl, rfl⟩

lemma Arena.Closes.remove {arena after : Arena} {id : SpaceId} {document : String}
    (closes : arena.Closes id document after) {space : Namespace} (h : after.get? id = some space)
    (hroot : id ≠ root) (leaf : after.IsLeaf id) :
    arena.Closes id document (after.remove id) := by
  refine ⟨closes.tree.remove h hroot leaf, ?_, ?_, ?_⟩
  · intro k old hk hne
    obtain ⟨space', hs'⟩ := closes.keeps hk hne
    exact ⟨_, get?_remove_of_ne h hne hs'⟩
  · intro k space'' hk
    obtain ⟨-, space', hs', rfl⟩ := live_of_remove h hk
    obtain ⟨old, hold, hfields⟩ := closes.only hs'
    refine ⟨old, hold, ?_⟩
    split <;> exact hfields
  · intro path k space'' hpath hk
    obtain ⟨hne, space', hs', -⟩ := live_of_remove h hk
    exact (closes.pathTo hpath hs').remove h leaf hne

namespace Library

variable {lib lib' : Library} {units units' : List SourceUnit}

section

variable {unit unit' : SourceUnit} {before : List SpaceId} {id : SpaceId} {after : Arena}

/-- The namespace that a document opened last is not among those that it opened before. -/
lemma Hosts.opened_last (hosts : lib.Hosts (unit :: units))
    (hspaces : unit.spaces = before ++ [id]) : before.Nodup ∧ id ∉ before := by
  have h := @Hosts.spaces_nodup _ _ hosts unit List.mem_cons_self
  rw [hspaces] at h
  obtain ⟨hbefore, -, hapart⟩ := List.nodup_append.1 h
  exact ⟨hbefore, fun hid => hapart id hid id (by simp) rfl⟩

/-- Closing a namespace moves no declaration: one that goes with it held none. -/
lemma Coherent.closes {document : String} (coherent : lib.Coherent)
    (closes : lib.spaces.Closes id document after)
    (hgroups : (¬ ∃ space', after.get? id = some space') →
      ∀ space, lib.spaces.get? id = some space → space.groups = []) :
    (lib.withSpaces after).Coherent := by
  refine coherent.withSpaces closes.tree ?_ ?_
  · intro k space hk hne
    by_cases hkid : k = id
    · subst hkid
      by_contra hgone
      exact hne (hgroups hgone space hk)
    · exact closes.keeps hk hkid
  · intro k space' hk
    obtain ⟨space, hs, -, -, hg, -⟩ := closes.only hk
    exact Or.inl ⟨space, hs, hg⟩

/-- A namespace that is still open for some document is still there. -/
lemma Hosts.spaces_live_closes (hosts : lib.Hosts (unit :: units))
    (hspaces : unit.spaces = before ++ [id]) (closes : lib.spaces.Closes id unit.path after)
    (hstays : (∃ space', after.get? id = some space') ↔ ∃ u ∈ units, id ∈ u.spaces)
    (hspaces' : unit'.spaces = before) {u : SourceUnit} {k : SpaceId}
    (hu : u ∈ unit' :: units) (hk : k ∈ u.spaces) :
    k ≠ Arena.root ∧ ∃ space', after.get? k = some space' := by
  rcases List.mem_cons.1 hu with rfl | hu
  · have hin : k ∈ unit.spaces := by simp [hspaces, ← hspaces', hk]
    obtain ⟨hne, space, hs⟩ := hosts.spaces_live List.mem_cons_self hin
    refine ⟨hne, closes.keeps hs ?_⟩
    rintro rfl
    exact (hosts.opened_last hspaces).2 (hspaces' ▸ hk)
  · obtain ⟨hne, space, hs⟩ := hosts.spaces_live (List.mem_cons_of_mem _ hu) hk
    by_cases hkid : k = id
    · exact ⟨hne, hkid ▸ hstays.2 ⟨u, hu, hkid ▸ hk⟩⟩
    · exact ⟨hne, closes.keeps hs hkid⟩

/-- With the last namespace of a document closed, each namespace knows who still opens it. -/
lemma Hosts.mem_documents_closes (hosts : lib.Hosts (unit :: units))
    (hspaces : unit.spaces = before ++ [id]) (hpath : ∀ u ∈ units, u.path ≠ unit.path)
    (closes : lib.spaces.Closes id unit.path after) (hpath' : unit'.path = unit.path)
    (hspaces' : unit'.spaces = before) {k : SpaceId} {space' : Namespace} {document : String}
    (hk : after.get? k = some space') :
    document ∈ space'.documents ↔ ∃ u ∈ unit' :: units, u.path = document ∧ k ∈ u.spaces := by
  obtain ⟨space, hs, -, -, -, -, hdocs⟩ := closes.only hk
  rw [hdocs]
  by_cases hkid : k = id
  · subst hkid
    rw [if_pos rfl, hosts.mem_erase_documents hpath hs]
    simp [hspaces', (hosts.opened_last hspaces).2]
  · rw [if_neg hkid, hosts.mem_documents hs]
    simp [hpath', hspaces', hspaces, hkid]

lemma Hosts.documents_sorted_closes {document : String} (hosts : lib.Hosts units)
    (closes : lib.spaces.Closes id document after) {k : SpaceId} {space' : Namespace}
    (hk : after.get? k = some space') : space'.documents.Pairwise (· < ·) := by
  obtain ⟨space, hs, -, -, -, -, hdocs⟩ := closes.only hk
  rw [hdocs]
  split
  · exact (hosts.documents_sorted hs).sublist List.erase_sublist
  · exact hosts.documents_sorted hs

/-- A namespace that is still there is open for some document. -/
lemma Hosts.spaces_opened_closes (hosts : lib.Hosts (unit :: units))
    (hspaces : unit.spaces = before ++ [id]) (closes : lib.spaces.Closes id unit.path after)
    (hstays : (∃ space', after.get? id = some space') ↔ ∃ u ∈ units, id ∈ u.spaces)
    (hspaces' : unit'.spaces = before) {k : SpaceId} {space' : Namespace}
    (hk : after.get? k = some space') (hne : k ≠ Arena.root) :
    ∃ u ∈ unit' :: units, k ∈ u.spaces := by
  obtain ⟨space, hs, -⟩ := closes.only hk
  obtain ⟨u, hu, hin⟩ := hosts.spaces_opened hs hne
  by_cases hkid : k = id
  · subst hkid
    obtain ⟨v, hv, hvin⟩ := hstays.1 ⟨space', hk⟩
    exact ⟨v, List.mem_cons_of_mem _ hv, hvin⟩
  · rcases List.mem_cons.1 hu with rfl | hu
    · refine ⟨unit', List.mem_cons_self, ?_⟩
      rw [hspaces, List.mem_append, List.mem_singleton] at hin
      exact hspaces' ▸ hin.resolve_right hkid
    · exact ⟨u, List.mem_cons_of_mem _ hu, hin⟩

lemma Hosts.outer_first_closes (hosts : lib.Hosts (unit :: units))
    (hspaces : unit.spaces = before ++ [id]) (closes : lib.spaces.Closes id unit.path after)
    (hspaces' : unit'.spaces = before) {u : SourceUnit} {front back : List SpaceId}
    {k parent : SpaceId} {space' : Namespace} (hu : u ∈ unit' :: units)
    (hsplit : u.spaces = front ++ k :: back) (hk : after.get? k = some space')
    (hparent : space'.parent = some parent) : parent = Arena.root ∨ parent ∈ front := by
  obtain ⟨space, hs, hp, -⟩ := closes.only hk
  rcases List.mem_cons.1 hu with rfl | hu
  · have hfull : unit.spaces = front ++ k :: (back ++ [id]) := by
      rw [hspaces, ← hspaces', hsplit]
      simp
    exact hosts.outer_first List.mem_cons_self hfull hs (hp ▸ hparent)
  · exact hosts.outer_first (List.mem_cons_of_mem _ hu) hsplit hs (hp ▸ hparent)

/-- A document closes a namespace, which stays exactly if another document opens it. -/
theorem Hosts.closes (hosts : lib.Hosts (unit :: units)) (hdecls : unit.declarations = [])
    (hspaces : unit.spaces = before ++ [id]) (hpath : ∀ u ∈ units, u.path ≠ unit.path)
    (closes : lib.spaces.Closes id unit.path after)
    (hstays : (∃ space', after.get? id = some space') ↔ ∃ u ∈ units, id ∈ u.spaces)
    (hgroups : (∀ u ∈ units, id ∉ u.spaces) → ∀ space, lib.spaces.get? id = some space →
      space.groups = [])
    (hclaims : unit'.claims = (unit.path, [], before)) :
    (lib.withSpaces after).Hosts (unit' :: units) := by
  simp only [SourceUnit.claims, Prod.mk.injEq] at hclaims
  obtain ⟨hpath', hdecls', hspaces'⟩ := hclaims
  have hflat : (unit' :: units).flatMap SourceUnit.declarations
      = (unit :: units).flatMap SourceUnit.declarations := by simp [hdecls, hdecls']
  -- If the namespace is gone, no other document opened it, and then its groups were empty.
  have hcoherent : (lib.withSpaces after).Coherent :=
    hosts.coherent.closes closes fun hgone =>
      hgroups fun u hu hin => hgone (hstays.2 ⟨u, hu, hin⟩)
  refine ⟨hcoherent, ?_, ?_, ?_,
    hosts.mem_documents_closes hspaces hpath closes hpath' hspaces',
    hosts.documents_sorted_closes closes,
    hosts.spaces_live_closes hspaces closes hstays hspaces',
    hosts.spaces_opened_closes hspaces closes hstays hspaces', ?_,
    hosts.outer_first_closes hspaces closes hspaces'⟩
  · rw [hflat]
    exact hosts.mem_declarations
  · rw [hflat]
    exact hosts.declarations_nodup
  · intro u decl entry hu hdecl hslot
    rcases List.mem_cons.1 hu with rfl | hu
    · simp [hdecls'] at hdecl
    · exact hosts.entry_of (List.mem_cons_of_mem _ hu) hdecl hslot
  · intro u hu
    rcases List.mem_cons.1 hu with rfl | hu
    · exact hspaces' ▸ (hosts.opened_last hspaces).1
    · exact hosts.spaces_nodup (List.mem_cons_of_mem _ hu)

end

/-- `lib.Sheds decls after`: `after` has lost exactly the declarations `decls`, and of the
namespaces possibly some; what is left is as it was. -/
structure Sheds (lib : Library) (decls : List DeclId) (after : Library) : Prop where
  id_eq : after.id = lib.id
  name_eq : after.name = lib.name
  slot?_eq : ∀ category index, after.slot? category index =
    if ⟨lib.id, category, index, none⟩ ∈ decls then none else lib.slot? category index
  tableSize_eq : ∀ category, after.tableSize category = lib.tableSize category
  space_of : ∀ {k space'}, after.spaces.get? k = some space' →
    ∃ space, lib.spaces.get? k = some space ∧ space'.name = space.name ∧
      space'.references = space.references
  pathTo : ∀ {path k space'}, lib.spaces.PathTo path k → after.spaces.get? k = some space' →
    after.spaces.PathTo path k

lemma Sheds.refl (lib : Library) : lib.Sheds [] lib :=
  ⟨rfl, rfl, by simp, fun _ => rfl, fun h => ⟨_, h, rfl, rfl⟩, fun h _ => h⟩

lemma Sheds.trans {a b c : Library} {first second : List DeclId} (h : a.Sheds first b)
    (k : b.Sheds second c) : a.Sheds (first ++ second) c where
  id_eq := k.id_eq.trans h.id_eq
  name_eq := k.name_eq.trans h.name_eq
  slot?_eq category index := by
    rw [k.slot?_eq, h.slot?_eq, h.id_eq]
    by_cases h₁ : DeclId.mk a.id category index none ∈ first <;>
      by_cases h₂ : DeclId.mk a.id category index none ∈ second <;> simp [h₁, h₂]
  tableSize_eq category := (k.tableSize_eq category).trans (h.tableSize_eq category)
  space_of hc := by
    obtain ⟨space', hb, hn', hr'⟩ := k.space_of hc
    obtain ⟨space, ha, hn, hr⟩ := h.space_of hb
    exact ⟨space, ha, hn'.trans hn, hr'.trans hr⟩
  pathTo hp hc := by
    obtain ⟨space', hb, -⟩ := k.space_of hc
    exact k.pathTo (h.pathTo hp hb) hc

/-- A document closes the last namespace that it opened. -/
lemma Hosts.close {unit unit' : SourceUnit} (hosts : lib.Hosts (unit :: units))
    (hdecls : unit.declarations = []) {before : List SpaceId} {id : SpaceId}
    (hspaces : unit.spaces = before ++ [id]) (hpath : ∀ u ∈ units, u.path ≠ unit.path)
    (hclaims : unit'.claims = (unit.path, [], before)) :
    (lib.close unit.path id).Hosts (unit' :: units) ∧ lib.Sheds [] (lib.close unit.path id) := by
  have hsheds {after : Arena} (closes : lib.spaces.Closes id unit.path after) :
      lib.Sheds [] (lib.withSpaces after) := by
    refine ⟨rfl, rfl, by simp, fun _ => rfl, fun hk => ?_, closes.pathTo⟩
    obtain ⟨space, hs, -, hn, -, hr, -⟩ := closes.only hk
    exact ⟨space, hs, hn, hr⟩
  obtain ⟨space, hs, tree, hcase⟩ := hosts.close_cases hdecls hspaces hpath
  have closes := tree.closes_dropDocument id unit.path
  have hget : (lib.spaces.dropDocument id unit.path).get? id
      = some { space with documents := space.documents.erase unit.path } := by
    simp [Arena.dropDocument, Arena.get?_adjust, hs]
  -- The namespace is kept while another document has opened it, and removed otherwise: then it has
  -- neither records nor children.
  rcases hcase with ⟨hother, heq⟩ | ⟨hnone, hgroups, hleaf, heq⟩
  · rw [heq]
    refine ⟨hosts.closes hdecls hspaces hpath closes ?_ ?_ hclaims, hsheds closes⟩
    · exact ⟨fun _ => hother, fun _ => ⟨_, hget⟩⟩
    · intro hnone
      obtain ⟨u, hu, hin⟩ := hother
      exact absurd hin (hnone u hu)
  · have hroot := (hosts.spaces_live (List.mem_cons_self ..)
      (by simp [hspaces] : id ∈ unit.spaces)).1
    have closes' := closes.remove hget hroot hleaf
    rw [heq]
    refine ⟨hosts.closes hdecls hspaces hpath closes' ?_ ?_ hclaims, hsheds closes'⟩
    · constructor
      · rintro ⟨space', hs'⟩
        exact absurd rfl (Arena.live_of_remove hget hs').1
      · rintro ⟨u, hu, hin⟩
        exact absurd hin (hnone u hu)
    · intro _ space' hs'
      obtain rfl : space = space' := by simpa [hs] using hs'
      exact hgroups

lemma Hosts.sheds_eraseRecord (hosts : lib.Hosts units) {decl : DeclId}
    (hdecl : decl ∈ units.flatMap SourceUnit.declarations) :
    lib.Sheds [decl] (lib.eraseRecord decl) := by
  obtain ⟨entry, hentry, rfl⟩ := hosts.mem_declarations.1 hdecl
  have hid := hosts.coherent.id_eq hentry
  have hget (k : SpaceId) : (lib.eraseRecord entry.id).spaces.get? k =
      if entry.space = k then
        (lib.spaces.get? k).map fun space => space.undeclare entry.name entry.id
      else lib.spaces.get? k := by
    rw [spaces_eraseRecord hentry]
  have hframe (space : Namespace) :
      (space.undeclare entry.name entry.id).parent = space.parent ∧
        (space.undeclare entry.name entry.id).name = space.name := by
    have h := space.frame_undeclare entry.name entry.id
    exact ⟨congrArg (·.parent) h, congrArg (·.name) h⟩
  refine ⟨id_eraseRecord .., name_eraseRecord .., ?_, fun _ => tableSize_eraseRecord .., ?_, ?_⟩
  · intro category index
    rw [slot?_eraseRecord]
    refine if_congr ?_ rfl rfl
    rw [List.mem_singleton, hid]
    simp
  · intro k space' hk
    rw [hget] at hk
    split at hk
    · obtain ⟨space, hs, rfl⟩ := Option.map_eq_some_iff.1 hk
      exact ⟨space, hs, (hframe space).2, space.references_undeclare _ _⟩
    · exact ⟨space', hk, rfl, rfl⟩
  · intro path k _ hpath _
    refine hpath.mono fun j space hj => ?_
    by_cases hsp : entry.space = j
    · exact ⟨_, by rw [hget, if_pos hsp, hj, Option.map_some], hframe space⟩
    · exact ⟨space, by rw [hget, if_neg hsp, hj], rfl, rfl⟩

lemma Hosts.eraseRecords {unit : SourceUnit} (hosts : lib.Hosts (unit :: units)) :
    (unit.declarations.foldl Library.eraseRecord lib).Hosts
        ({ unit with declarations := [] } :: units) ∧
      lib.Sheds unit.declarations (unit.declarations.foldl Library.eraseRecord lib) := by
  generalize hdecls : unit.declarations = decls
  induction decls generalizing lib unit with
  | nil =>
    refine ⟨hosts.congr ?_, .refl lib⟩
    simp [SourceUnit.claims, hdecls, SourceUnit.path]
  | cons decl rest ih =>
    have hmem : decl ∈ (unit :: units).flatMap SourceUnit.declarations := by simp [hdecls]
    have hstep := @Hosts.eraseRecord _ _ _ { unit with declarations := rest }
      hosts decl rest hdecls rfl
    obtain ⟨hrest, hsheds⟩ := ih hstep rfl
    exact ⟨hrest, (hosts.sheds_eraseRecord hmem).trans hsheds⟩

lemma Hosts.closeAll {unit : SourceUnit} (hosts : lib.Hosts (unit :: units))
    (hdecls : unit.declarations = []) (hpath : ∀ u ∈ units, u.path ≠ unit.path) :
    (unit.spaces.reverse.foldl (Library.close unit.path) lib).Hosts
        ({ unit with spaces := [] } :: units) ∧
      lib.Sheds [] (unit.spaces.reverse.foldl (Library.close unit.path) lib) := by
  generalize hspaces : unit.spaces.reverse = spaces
  induction spaces generalizing lib unit with
  | nil =>
    refine ⟨hosts.congr ?_, .refl lib⟩
    simp [SourceUnit.claims, SourceUnit.path, List.reverse_eq_nil_iff.1 hspaces]
  | cons id rest ih =>
    have hsplit : unit.spaces = rest.reverse ++ [id] := by
      rw [← List.reverse_reverse unit.spaces, hspaces, List.reverse_cons]
    obtain ⟨hstep, hsheds⟩ := @Hosts.close _ _ _ { unit with spaces := rest.reverse } hosts hdecls
      rest.reverse id hsplit hpath (by simp [SourceUnit.claims, SourceUnit.path, hdecls])
    obtain ⟨hrest, hsheds'⟩ := ih hstep hdecls hpath (by simp)
    exact ⟨hrest, hsheds.trans hsheds'⟩

/-- Disposing of a document empties its slots and closes its namespaces, and no more. -/
theorem Hosts.dispose {unit : SourceUnit} (hosts : lib.Hosts (unit :: units))
    (hpath : ∀ u ∈ units, u.path ≠ unit.path) :
    (unit.spaces.reverse.foldl (Library.close unit.path)
        (unit.declarations.foldl Library.eraseRecord lib)).Hosts units ∧
      lib.Sheds unit.declarations (unit.spaces.reverse.foldl (Library.close unit.path)
        (unit.declarations.foldl Library.eraseRecord lib)) := by
  obtain ⟨herased, hsheds⟩ := hosts.eraseRecords
  obtain ⟨hclosed, hsheds'⟩ := herased.closeAll rfl hpath
  have hboth := hsheds.trans hsheds'
  rw [List.append_nil] at hboth
  exact ⟨(hosts_cons_idle_iff rfl rfl).1 hclosed, hboth⟩

end Library

end SymbolGraph
