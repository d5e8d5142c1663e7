import SymbolGraph.Proofs.Renumbering.SessionBasis
import SymbolGraph.Proofs.Session.IdleRebuilds

/-!
# Two projects with the same documents

Declarations get the first numbers that are free, and namespaces the first free slots, so documents
with the same trees may be recorded under quite different numbers.  But they are recorded for the
same nodes in the same order (`SourceUnit.Aligned`), and that pairs the numbers: there is a
renumbering of the project that takes each namespace to the one of the same name and each
declaration to the one that was recorded for the same node (`Library.SameTrees.exists_numbers`).  As
long as nothing has been linked, the two projects are copies of each other under it
(`Library.SameTrees.copies`), and so are the documents (`Library.SameTrees.copies_documents`).
-/

namespace SymbolGraph

/-! ## Lists in step -/

/-- What two lists have in common with a third, position by position. -/
lemma forall₂_common {α β γ : Type} {R : α → γ → Prop} {S : β → γ → Prop}
    {xs : List α} {ys : List β}
    {zs : List γ} (h : List.Forall₂ R xs zs) (k : List.Forall₂ S ys zs) :
    List.Forall₂ (fun x y => ∃ z, R x z ∧ S y z) xs ys := by
  induction h generalizing ys with
  | nil =>
    cases k
    exact .nil
  | cons hfirst _ ih =>
    cases k with
    | cons hfirst' hrest => exact .cons ⟨_, hfirst, hfirst'⟩ (ih hrest)

lemma exists_of_mem_forall₂ {α β : Type} {R : α → β → Prop} {xs : List α} {ys : List β}
    (h : List.Forall₂ R xs ys) {x : α} (hx : x ∈ xs) : ∃ y ∈ ys, R x y := by
  induction h with
  | nil => cases hx
  | cons hfirst _ ih =>
    rcases List.mem_cons.1 hx with rfl | hx
    · exact ⟨_, List.mem_cons_self, hfirst⟩
    · obtain ⟨y, hy, hR⟩ := ih hx
      exact ⟨y, List.mem_cons_of_mem _ hy, hR⟩

/-- Lists that are the same when joined are the same one by one, if their lengths are. -/
lemma forall₂_of_flatMap_eq {α β γ : Type} {f : α → List γ} {g : β → List γ}
    {xs : List α} {ys : List β}
    (hlength : List.Forall₂ (fun x y => (f x).length = (g y).length) xs ys)
    (h : xs.flatMap f = ys.flatMap g) : List.Forall₂ (fun x y => f x = g y) xs ys := by
  induction hlength with
  | nil => exact .nil
  | cons hfirst _ ih =>
    obtain ⟨heq, hrest⟩ := List.append_inj h hfirst
    exact .cons heq (ih hrest)

/-- Chosen elements that correspond in order belong to elements that correspond. -/
lemma forall₂_of_filterMap_eq {α β γ δ : Type} {f : α → Option γ} {g : β → Option δ} {k : γ → δ}
    {xs : List α} {ys : List β} (hsome : List.Forall₂
      (fun x y => (f x).isSome = (g y).isSome) xs ys)
    (h : ys.filterMap g = (xs.filterMap f).map k) :
    List.Forall₂ (fun x y => g y = (f x).map k) xs ys := by
  induction hsome with
  | nil => exact .nil
  | @cons x y xs ys hfirst _ ih =>
    cases hx : f x with
    | none =>
      rw [hx, Option.isSome_none, eq_comm, Option.isSome_eq_false_iff,
        Option.isNone_iff_eq_none] at hfirst
      rw [List.filterMap_cons_none hx, List.filterMap_cons_none hfirst] at h
      exact .cons (by rw [hx, hfirst, Option.map_none]) (ih h)
    | some a =>
      rw [hx, Option.isSome_some, eq_comm, Option.isSome_iff_exists] at hfirst
      obtain ⟨b, hy⟩ := hfirst
      rw [List.filterMap_cons_some hx, List.filterMap_cons_some hy, List.map_cons] at h
      obtain ⟨rfl, hrest⟩ := List.cons.inj h
      exact .cons (by rw [hx, hy, Option.map_some]) (ih hrest)

/-! ## Tidied documents with the same tree -/

lemma Renumbering.entry_tidy (r : Renumbering) (document : String) (space : SpaceId) (id : DeclId)
    (node : DeclNode) : r.entry (Tidy.entry document space id node)
      = Tidy.entry document (r.place id.library space) (r.decl id) node := by
  simp [Tidy.entry, Entry.new, Symbol.declare, Renumbering.entry, Renumbering.symbol, Symbol.map]

lemma Entry.Blank.content_eq {entry : Entry} (blank : entry.Blank) :
    entry.content = entry.skeleton := by
  have hbody : entry.body.content = Body.fresh entry.id.category := by
    rw [show entry.body = _ from blank]
    cases entry.id.category <;> rfl
  simp only [Entry.content, Entry.skeleton, Symbol.map, hbody]

/-- Two projects into which documents with the same trees have been tidied. -/
structure Library.SameTrees (lib lib' : Library) (units units' : List SourceUnit) : Prop where
  hosts : lib.Hosts units
  hosts' : lib'.Hosts units'
  id : lib.id = .project
  id' : lib'.id = .project
  root : ∀ space space', lib.spaces.get? Arena.root = some space →
    lib'.spaces.get? Arena.root = some space' → space'.name = space.name
  documents : List.Forall₂ (fun unit unit' => unit'.tree = unit.tree ∧ unit.Aligned lib ∧
    unit'.Aligned lib') units units'

namespace Library.SameTrees

variable {lib lib' : Library} {units units' : List SourceUnit}

lemma symm (same : lib.SameTrees lib' units units') : lib'.SameTrees lib units' units where
  hosts := same.hosts'
  hosts' := same.hosts
  id := same.id'
  id' := same.id
  root space space' hspace hspace' := (same.root space' space hspace' hspace).symm
  documents := same.documents.flip.imp fun _ _ ⟨htree, aligned, aligned'⟩ =>
    ⟨htree.symm, aligned', aligned⟩

/-- What was recorded of two documents with the same tree was recorded for the same marks. -/
lemma paired (same : lib.SameTrees lib' units units') : List.Forall₂ (fun unit unit' =>
    unit'.tree = unit.tree ∧ unit.Aligned lib ∧ unit'.Aligned lib' ∧
      List.Forall₂ (fun occurrence occurrence' =>
        ∃ mark : Mark, mark.Traced unit.path lib occurrence ∧
        mark.Traced unit.path lib' occurrence') unit.skeleton.occurrences
          unit'.skeleton.occurrences)
    units units' := by
  refine same.documents.imp fun unit unit' ⟨htree, aligned, aligned'⟩ =>
    ⟨htree, aligned, aligned', ?_⟩
  have hpath : unit'.path = unit.path := congrArg FileTree.path htree
  have htraced := aligned'.traced
  rw [htree, hpath] at htraced
  exact forall₂_common aligned.traced htraced

/-- The two projects have namespaces of the same names. -/
lemma pathTo (same : lib.SameTrees lib' units units') {path : List String} {id : SpaceId}
    (h : lib.spaces.PathTo path id) : ∃ id', lib'.spaces.PathTo path id' := by
  by_cases hroot : id = Arena.root
  · subst hroot
    obtain ⟨space, hspace, -⟩ := same.hosts.coherent.tree.root_live
    obtain ⟨space', hspace', -⟩ := same.hosts'.coherent.tree.root_live
    obtain rfl := h.path_unique same.hosts.coherent.tree (.root hspace)
    exact ⟨Arena.root, .root hspace'⟩
  · obtain ⟨space, hspace⟩ := h.live
    obtain ⟨unit, hunit, hopened⟩ := same.hosts.spaces_opened hspace hroot
    obtain ⟨unit', -, -, aligned, -, hoccurrences⟩ := exists_of_mem_forall₂ same.paired hunit
    rw [aligned.spaces_eq, mem_addAllNew] at hopened
    obtain ⟨occurrence, hoccurrence, hid⟩ := List.mem_filterMap.1
      (hopened.resolve_left List.not_mem_nil)
    obtain ⟨occurrence', -, mark, htraced, htraced'⟩ :=
      exists_of_mem_forall₂ hoccurrences hoccurrence
    cases mark with
    | space range path' =>
      obtain ⟨id₁, rfl, hpath⟩ := htraced
      obtain ⟨id', -, hpath'⟩ := htraced'
      obtain rfl : id₁ = id := Option.some.inj hid
      obtain rfl := h.path_unique same.hosts.coherent.tree hpath
      exact ⟨id', hpath'⟩
    | declaration _ _ =>
      obtain ⟨decl, _, _, rfl, -⟩ := htraced
      cases hid

/-- A way to number the namespaces. -/
lemma exists_space (same : lib.SameTrees lib' units units') : ∃ σ : Equiv.Perm SpaceId,
    ∀ path id, lib.spaces.PathTo path id → lib'.spaces.PathTo path (σ id) := by
  obtain ⟨tree, tree'⟩ := And.intro same.hosts.coherent.tree same.hosts'.coherent.tree
  have hlocated : ∀ id ∈ lib.spaces.live.map Prod.fst, ∃ id' path,
      lib.spaces.PathTo path id ∧ lib'.spaces.PathTo path id' := by
    intro id hid
    obtain ⟨space, hspace⟩ := Arena.mem_map_fst_live_iff.1 hid
    obtain ⟨path, hpath⟩ := tree.located hspace
    obtain ⟨id', hpath'⟩ := same.pathTo hpath
    exact ⟨id', path, hpath, hpath'⟩
  choose! f hf using hlocated
  obtain ⟨σ, hσ⟩ := exists_perm_map_eq (List.length_map f).symm lib.spaces.nodup_map_fst_live
    (lib.spaces.nodup_map_fst_live.map_on fun i hi j hj heq => by
      obtain ⟨p, hp, hp'⟩ := hf i hi
      obtain ⟨q, hq, hq'⟩ := hf j hj
      obtain rfl := hp'.path_unique tree' (heq ▸ hq')
      exact hp.id_unique tree hq)
  refine ⟨σ, fun path id hpath => ?_⟩
  have hid : id ∈ lib.spaces.live.map Prod.fst := Arena.mem_map_fst_live_iff.2 hpath.live
  obtain ⟨p, hp, hp'⟩ := hf id hid
  obtain rfl := hp.path_unique tree hpath
  rw [List.map_inj_left.1 hσ id hid]
  exact hp'

/-- A way to number the declarations. -/
lemma exists_index (same : lib.SameTrees lib' units units') : ∃ σ : Category → Equiv.Perm Nat,
    units'.flatMap SourceUnit.declarations = (units.flatMap SourceUnit.declarations).map fun id =>
      { id with index := σ id.category id.index } := by
  have hlisted {lib : Library} {units : List SourceUnit} (hosts : lib.Hosts units)
      (hid : lib.id = .project) : ∀ id ∈ units.flatMap SourceUnit.declarations,
      id = ⟨.project, id.category, id.index, none⟩ := fun id hmem => by
    rw [← hid]
    exact (hosts.declared hmem).1
  have hnodup {lib : Library} {units : List SourceUnit} (hosts : lib.Hosts units)
      (hid : lib.id = .project) (category : Category) :
      (((units.flatMap SourceUnit.declarations).filter fun id => id.category = category).map
        DeclId.index).Nodup := by
    refine (hosts.declarations_nodup.filter _).map_on fun a ha b hb heq => ?_
    obtain ⟨ha, hcategory⟩ := List.mem_filter.1 ha
    obtain ⟨hb, hcategory'⟩ := List.mem_filter.1 hb
    rw [hlisted hosts hid a ha, hlisted hosts hid b hb, heq, of_decide_eq_true hcategory,
      of_decide_eq_true hcategory']
  -- The categories are read off the trees, which the two sides share, so each category has as many
  -- declarations on either side.
  have hcategories : (units'.flatMap SourceUnit.declarations).map DeclId.category
      = (units.flatMap SourceUnit.declarations).map DeclId.category := by
    have hunit {unit : SourceUnit} {lib : Library} (aligned : unit.Aligned lib) :
        unit.declarations.map DeclId.category
          = ((unit.tree.root.marks []).filterMap Mark.node?).map DeclNode.category :=
      (map_eq_of_forall₂ aligned.declared fun _ _ ⟨_, _, _, hcategory, _⟩ => hcategory.symm).symm
    have hunits : units'.map (fun unit => unit.declarations.map DeclId.category)
        = units.map fun unit => unit.declarations.map DeclId.category :=
      map_eq_of_forall₂ same.documents fun unit unit' ⟨htree, aligned, aligned'⟩ => by
        rw [hunit aligned, hunit aligned', htree]
    rw [List.map_flatMap, List.map_flatMap, List.flatMap_def, List.flatMap_def, hunits]
  have hlength (category : Category) : ((units.flatMap SourceUnit.declarations).filter fun id =>
      id.category = category).length = ((units'.flatMap SourceUnit.declarations).filter fun id =>
      id.category = category).length := by
    have hcount (decls : List DeclId) : (decls.filter fun id => id.category = category).length
        = ((decls.map DeclId.category).filter fun c => c = category).length := by
      rw [List.filter_map, List.length_map]
      rfl
    rw [hcount, hcount, hcategories]
  -- Equally many lists of distinct indices are a permutation apart.
  choose σ hσ using fun category => exists_perm_map_eq
    (by simpa using hlength category) (hnodup same.hosts same.id category)
    (hnodup same.hosts' same.id' category)
  refine ⟨σ, declarations_eq_of_indices (hlisted same.hosts' same.id') ?_ ?_ fun category => ?_⟩
  · intro id hid
    obtain ⟨old, hold, rfl⟩ := List.mem_map.1 hid
    rw [hlisted same.hosts same.id old hold]
  · rw [hcategories, List.map_map]
    rfl
  · rw [← hσ category, List.filter_map, List.map_map, List.map_map]
    refine List.map_congr_left fun id hid => ?_
    rw [Function.comp_apply, ← of_decide_eq_true (List.mem_filter.1 hid).2]
    rfl

end Library.SameTrees

/-! ## Numbers of one project in the other -/

/-- The renumbering takes each namespace to the one of the same name, and the declarations of the
documents to each other in order. -/
structure Library.Numbers (r : Renumbering) (lib lib' : Library) (units units' : List SourceUnit) :
    Prop where
  only : r.OnlyProject
  space : ∀ path id, lib.spaces.PathTo path id → lib'.spaces.PathTo path (r.space id)
  declarations : units'.flatMap SourceUnit.declarations
    = (units.flatMap SourceUnit.declarations).map r.decl

namespace Library.SameTrees

variable {lib lib' : Library} {units units' : List SourceUnit} {r : Renumbering}

theorem exists_numbers (same : lib.SameTrees lib' units units') :
    ∃ r, Numbers r lib lib' units units' := by
  obtain ⟨space, hspace⟩ := same.exists_space
  obtain ⟨index, hindex⟩ := same.exists_index
  refine ⟨⟨index, space, Equiv.refl _, rfl, rfl⟩, ⟨rfl, ?_⟩, hspace, ?_⟩
  · obtain ⟨root, hroot, -⟩ := same.hosts.coherent.tree.root_live
    exact (hspace [] Arena.root (.root hroot)).eq_root
  · rw [hindex]
    refine List.map_congr_left fun id hid => ?_
    obtain ⟨heq, htop, -⟩ := same.hosts.declared hid
    rw [same.id] at heq
    rw [heq, Renumbering.decl_top _ _ _ htop, Renumbering.slot, if_pos ⟨rfl, htop⟩]
    rfl

variable (same : lib.SameTrees lib' units units') (numbers : Numbers r lib lib' units units')

include same numbers

lemma pathTo_iff {path : List String} {id : SpaceId} :
    lib'.spaces.PathTo path (r.space id) ↔ lib.spaces.PathTo path id := by
  refine ⟨fun hpath => ?_, numbers.space path id⟩
  obtain ⟨old, hold⟩ := same.symm.pathTo hpath
  have hsame := hpath.id_unique same.hosts'.coherent.tree (numbers.space path old hold)
  rwa [r.space.injective hsame]

/-- What has been recorded of a document, under the new numbers. -/
lemma renumbered : List.Forall₂ (fun unit unit' => unit'.tree = unit.tree ∧ unit.Aligned lib ∧
    unit'.Aligned lib' ∧ unit'.declarations = unit.declarations.map r.decl ∧
      List.Forall₂ (fun occurrence occurrence' => occurrence' = r.occurrence occurrence ∧
        ∃ mark : Mark, mark.Traced unit.path lib occurrence ∧
        mark.Traced unit.path lib' occurrence')
        unit.skeleton.occurrences unit'.skeleton.occurrences) units units' := by
  have hlength : List.Forall₂ (fun unit unit' => (unit.declarations.map r.decl).length
      = unit'.declarations.length) units units' := by
    refine same.documents.imp fun unit unit' ⟨htree, aligned, aligned'⟩ => ?_
    rw [List.length_map, aligned.declared.length_eq, aligned'.declared.length_eq, htree]
  have hdeclarations := forall₂_of_flatMap_eq hlength (by
    rw [numbers.declarations, List.map_flatMap])
  refine hdeclarations.mp (fun unit unit' hdecls ⟨htree, aligned, aligned', hoccurrences⟩ =>
    ⟨htree, aligned, aligned', hdecls.symm, ?_⟩) same.paired
  have hdeclares : List.Forall₂ (fun occurrence occurrence' : Occurrence =>
      occurrence'.target.declaration? = occurrence.target.declaration?.map r.decl)
      unit.skeleton.occurrences unit'.skeleton.occurrences := by
    refine forall₂_of_filterMap_eq (hoccurrences.imp fun occurrence occurrence' => ?_) ?_
    · rintro ⟨mark, htraced, htraced'⟩
      -- A namespace is known by its path, a declaration by its turn.
      cases mark with
      | space range path =>
        obtain ⟨id, rfl, -⟩ := htraced
        obtain ⟨id', rfl, -⟩ := htraced'
        rfl
      | declaration path node =>
        obtain ⟨id, _, _, rfl, -⟩ := htraced
        obtain ⟨id', _, _, rfl, -⟩ := htraced'
        rfl
    · rw [← aligned.declarations_eq, ← aligned'.declarations_eq, hdecls]
  refine hdeclares.mp (fun occurrence occurrence' hdeclares ⟨mark, htraced, htraced'⟩ =>
    ⟨?_, mark, htraced, htraced'⟩) hoccurrences
  cases mark with
  | space range path =>
    obtain ⟨id, rfl, hpath⟩ := htraced
    obtain ⟨id', rfl, hpath'⟩ := htraced'
    have hid : id' = r.space id := hpath'.id_unique same.hosts'.coherent.tree
      (numbers.space path id hpath)
    simp [Renumbering.occurrence, Renumbering.target, Renumbering.ref, Renumbering.place, same.id,
      same.id', r.library_project, hid]
  | declaration path node =>
    obtain ⟨id, _, _, rfl, -⟩ := htraced
    obtain ⟨id', _, _, rfl, -⟩ := htraced'
    obtain rfl : id' = r.decl id := Option.some.inj hdeclares
    rfl

/-- The documents open corresponding namespaces. -/
lemma spaces_renumbered : List.Forall₂ (fun unit unit' =>
    unit'.spaces = unit.spaces.map (r.place .project)) units units' := by
  refine (same.renumbered numbers).imp fun unit unit' ⟨_, aligned, aligned', _, hoccurrences⟩ => ?_
  have htargets : unit'.skeleton.occurrences.filterMap (fun occurrence => occurrence.target.space?)
      = (unit.skeleton.occurrences.filterMap fun occurrence => occurrence.target.space?).map
        (r.place .project) := by
    refine (List.map_id _).symm.trans (map_eq_of_forall₂
      (R := fun id id' => id' = r.place .project id)
      (List.rel_filterMap ?_ hoccurrences) fun _ _ heq => heq)
    rintro _ _ ⟨rfl, mark, htraced, -⟩
    cases mark with
    | space range path =>
      obtain ⟨id, rfl, -⟩ := htraced
      refine .some ?_
      rw [same.id]
      rfl
    | declaration path node =>
      obtain ⟨id, _, _, rfl, -⟩ := htraced
      exact .none
  rw [aligned.spaces_eq, aligned'.spaces_eq, htargets]
  exact addAllNew_map (Function.LeftInverse.injective (r.place_symm_place .project)) [] _

lemma exists_slot?_renumbered {category : Category} {index : Nat} {entry : Entry}
    (hslot : lib.slot? category index = some entry) : ∃ entry',
    lib'.slot? category (r.slot .project category index) = some entry' ∧
      entry'.skeleton = r.entry entry.skeleton := by
  have hid := same.hosts.coherent.id_eq hslot
  have htop := same.hosts.coherent.top_level hslot
  rw [same.id] at hid
  have hlisted : entry.id ∈ units.flatMap SourceUnit.declarations :=
    same.hosts.mem_declarations.2 ⟨entry, by rw [hid]; exact hslot, rfl⟩
  -- From the entry to its mark, over to the other side, and back to an entry.
  obtain ⟨unit, hunit, hdecl⟩ := List.mem_flatMap.1 hlisted
  obtain ⟨unit', -, -, aligned, -, -, hoccurrences⟩ :=
    exists_of_mem_forall₂ (same.renumbered numbers) hunit
  rw [aligned.declarations_eq] at hdecl
  obtain ⟨occurrence, hoccurrence, htarget⟩ := List.mem_filterMap.1 hdecl
  obtain ⟨_, -, rfl, mark, htraced, htraced'⟩ := exists_of_mem_forall₂ hoccurrences hoccurrence
  cases mark with
  | space range path =>
    obtain ⟨id, rfl, -⟩ := htraced
    cases htarget
  | declaration path node =>
    obtain ⟨id, space, old, rfl, -, hpath, hold, hentry⟩ := htraced
    obtain rfl : id = entry.id := Option.some.inj htarget
    obtain ⟨id', space', entry', heq, -, hpath', hslot', hentry'⟩ := htraced'
    obtain rfl : r.decl entry.id = id' := by
      simpa [Renumbering.occurrence, Renumbering.target] using heq
    have hspace := hpath'.id_unique same.hosts'.coherent.tree (numbers.space path space hpath)
    rw [hid] at hold
    obtain rfl : old = entry := by simpa [hslot] using hold.symm
    refine ⟨entry', ?_, ?_⟩
    · rw [hid, Renumbering.decl_top _ _ _ htop] at hslot'
      exact hslot'
    · rw [hentry', hentry, r.entry_tidy, hspace, Renumbering.place,
        if_pos (congrArg DeclId.library hid)]

/-- Corresponding slots hold corresponding records. -/
lemma slot?_renumbered (category : Category) (index : Nat) :
    (lib'.slot? category (r.slot .project category index)).map Entry.skeleton
      = (lib.slot? category index).map fun entry => r.entry entry.skeleton := by
  cases hslot : lib.slot? category index with
  | some entry =>
    obtain ⟨entry', hslot', hentry⟩ := same.exists_slot?_renumbered numbers hslot
    rw [hslot', Option.map_some, Option.map_some, hentry]
  | none =>
    cases hslot' : lib'.slot? category (r.slot .project category index) with
    | none => rfl
    | some entry' =>
      have hid := same.hosts'.coherent.id_eq hslot'
      have htop := same.hosts'.coherent.top_level hslot'
      have hlisted : entry'.id ∈ units'.flatMap SourceUnit.declarations :=
        same.hosts'.mem_declarations.2 ⟨entry', by rw [hid]; exact hslot', rfl⟩
      rw [numbers.declarations] at hlisted
      obtain ⟨id, hdecl, heq⟩ := List.mem_map.1 hlisted
      have hsame : id = ⟨.project, category, index, none⟩ := by
        refine r.decl_injective (heq.trans (hid.trans ?_))
        rw [r.decl_top _ _ htop, same.id', r.library_project]
      obtain ⟨entry, hentry, -⟩ := same.hosts.mem_declarations.1 hdecl
      rw [hsame, hslot] at hentry
      cases hentry

/-- A declaration is in a group of a namespace exactly if it is in the one at its new place. -/
lemma mem_group_renumbered {id : SpaceId} {space space' : Namespace}
    (hspace : lib.spaces.get? id = some space)
    (hspace' : lib'.spaces.get? (r.space id) = some space')
    (name : String) (decl : DeclId) : r.decl decl ∈ space'.group name ↔
    decl ∈ space.group name := by
  rw [same.hosts.coherent.group_iff hspace, same.hosts'.coherent.group_iff hspace']
  have hlisted : r.decl decl ∈ units'.flatMap SourceUnit.declarations ↔
      decl ∈ units.flatMap SourceUnit.declarations := by
    rw [numbers.declarations, List.mem_map_of_injective r.decl_injective]
  have hrecords : decl ∈ units.flatMap SourceUnit.declarations → ∃ entry entry',
      lib.slot? decl.category decl.index = some entry ∧ entry.id = decl ∧
      lib'.slot? (r.decl decl).category (r.decl decl).index = some entry' ∧
      entry'.id = r.decl decl ∧
      entry'.space = r.space entry.space ∧ entry'.name = entry.name := by
    intro hdecl
    obtain ⟨hid, htop, entry, hslot, rfl⟩ := same.hosts.declared hdecl
    obtain ⟨entry', hslot', heq⟩ := same.exists_slot?_renumbered numbers hslot
    rw [same.id] at hid
    have hindex := congrArg DeclId.index (r.decl_top .project entry.id.index htop)
    rw [← hid] at hindex
    have hname := congrArg Symbol.name heq
    refine ⟨entry, entry', hslot, rfl, ?_, congrArg Symbol.id heq, ?_, hname⟩
    · rw [r.category_decl, hindex]
      exact hslot'
    · exact (congrArg Symbol.space heq).trans (if_pos (congrArg DeclId.library hid))
  constructor
  · rintro ⟨_, hslot', hid', hat, hname⟩
    obtain ⟨entry, entry', hslot, hid, hsame, -, hspaces, hnames⟩ :=
      hrecords (hlisted.1 (same.hosts'.mem_declarations.2 ⟨_, hslot', hid'⟩))
    obtain rfl := Option.some.inj (hsame.symm.trans hslot')
    exact ⟨entry, hslot, hid, r.space.injective (hspaces.symm.trans hat), hnames.symm.trans hname⟩
  · rintro ⟨_, hslot, hid, rfl, rfl⟩
    obtain ⟨entry, entry', hsame, -, hslot', hid', hspaces, hnames⟩ :=
      hrecords (same.hosts.mem_declarations.2 ⟨_, hslot, hid⟩)
    obtain rfl := Option.some.inj (hsame.symm.trans hslot)
    exact ⟨entry', hslot', hid', hspaces, hnames⟩

/-- Children of a namespace are found by their places, so they are renumbered ones. -/
lemma children_renumbered {id : SpaceId} {path : List String} {space space' : Namespace}
    (hpath : lib.spaces.PathTo path id) (hspace : lib.spaces.get? id = some space)
    (hspace' : lib'.spaces.get? (r.space id) = some space') (name : String) :
    space'.children.at? name = (space.children.at? name).map r.space := by
  obtain ⟨tree, tree'⟩ := And.intro same.hosts.coherent.tree same.hosts'.coherent.tree
  have hpath' := numbers.space path id hpath
  have hat (child : SpaceId) : space'.children.at? name = some (r.space child) ↔
      space.children.at? name = some child := by
    rw [Arena.at?_children hspace, Arena.at?_children hspace']
    exact ⟨fun hc => hpath.child?_of_snoc tree
      ((same.pathTo_iff numbers).1 (hpath'.child? tree' hc)),
      fun hc => hpath'.child?_of_snoc tree' (numbers.space _ _ (hpath.child? tree hc))⟩
  cases hchild : space.children.at? name with
  | some child => exact (hat child).2 hchild
  | none =>
    rw [Option.map_none, Option.eq_none_iff_forall_ne_some]
    intro child' hchild'
    rw [← r.space.apply_symm_apply child', hat, hchild] at hchild'
    cases hchild'

/-- So are parents, and the names agree. -/
lemma parent_renumbered {id : SpaceId} {space space' : Namespace}
    (hspace : lib.spaces.get? id = some space)
    (hspace' : lib'.spaces.get? (r.space id) = some space') :
    space'.parent = space.parent.map r.space ∧ space'.name = space.name := by
  obtain ⟨tree, tree'⟩ := And.intro same.hosts.coherent.tree same.hosts'.coherent.tree
  by_cases hroot : id = Arena.root
  · subst hroot
    rw [numbers.only.root] at hspace'
    exact ⟨by rw [tree.parent_root hspace, tree'.parent_root hspace', Option.map_none],
      same.root space space' hspace hspace'⟩
  · obtain ⟨parent, above, hparent, habove⟩ := tree.parent_live hspace hroot
    obtain ⟨outer, houter⟩ := tree.located habove
    have houter' := numbers.space outer parent houter
    obtain ⟨above', habove'⟩ := houter'.live
    have hchild := houter'.child?_of_snoc tree' (numbers.space _ _ (.child houter hspace hparent))
    rw [← Arena.at?_children habove', tree'.child_iff habove'] at hchild
    obtain ⟨found, hfound, hparent', hname⟩ := hchild
    obtain rfl := Option.some.inj (hfound.symm.trans hspace')
    exact ⟨by rw [hparent, hparent', Option.map_some], hname⟩

lemma space?_renumbered (id : SpaceId) : Option.Rel (Namespace.Matches r .project)
    (lib.spaces.get? id) (lib'.spaces.get? (r.space id)) := by
  obtain ⟨tree, tree'⟩ := And.intro same.hosts.coherent.tree same.hosts'.coherent.tree
  have hplace : r.place .project = r.space := funext fun space => if_pos rfl
  cases hspace : lib.spaces.get? id with
  | none =>
    cases hspace' : lib'.spaces.get? (r.space id) with
    | none => exact .none
    | some space' =>
      obtain ⟨path, hpath⟩ := tree'.located hspace'
      obtain ⟨space, hlive⟩ := ((same.pathTo_iff numbers).1 hpath).live
      rw [hspace] at hlive
      cases hlive
  | some space =>
    obtain ⟨path, hpath⟩ := tree.located hspace
    have hpath' := numbers.space path id hpath
    obtain ⟨space', hspace'⟩ := hpath'.live
    rw [hspace']
    obtain ⟨hparent, hname⟩ := same.parent_renumbered numbers hspace hspace'
    have hid : space'.id = r.space space.id := by rw [tree.id_eq hspace, tree'.id_eq hspace']
    refine .some ⟨hplace ▸ hid, hplace ▸ hparent, hname,
      hplace ▸ same.children_renumbered numbers hpath hspace hspace', fun name => ?_⟩
    · rw [List.perm_ext_iff_of_nodup (same.hosts'.coherent.group_nodup hspace' name)
        ((same.hosts.coherent.group_nodup hspace name).map r.decl_injective)]
      intro decl
      rw [← r.decl_decl_symm decl, List.mem_map_of_injective r.decl_injective]
      exact same.mem_group_renumbered numbers hspace hspace' name _

/-- Blank projects are copies of each other. -/
theorem copies (blank : ∀ category index entry, lib.slot? category index = some entry → entry.Blank)
    (blank' : ∀ category index entry, lib'.slot? category index = some entry → entry.Blank) :
    lib.Copies r lib' := by
  have hcontents {lib : Library} (blank : ∀ category index entry,
      lib.slot? category index = some entry → entry.Blank) (category : Category) (index : Nat) :
      (lib.slot? category index).map Entry.content
        = (lib.slot? category index).map Entry.skeleton := by
    cases hslot : lib.slot? category index with
    | none => rfl
    | some entry => rw [Option.map_some, Option.map_some,
      (blank category index entry hslot).content_eq]
  refine ⟨fun id => ?_, fun category index => ?_⟩
  · rw [same.id, Renumbering.place, if_pos rfl]
    exact same.space?_renumbered numbers id
  · have hentry : ((lib.slot? category index).map fun entry => r.entry entry.content)
        = (lib.slot? category index).map fun entry => r.entry entry.skeleton := by
      have heq := congrArg (Option.map r.entry) (hcontents blank category index)
      rwa [Option.map_map, Option.map_map] at heq
    rw [same.id, hcontents blank', hentry]
    exact same.slot?_renumbered numbers category index

/-- Documents that are not linked are copies of each other, but for what the last check reported. -/
theorem copies_documents (hunlinked : ∀ unit ∈ units, unit.Unlinked)
    (hunlinked' : ∀ unit ∈ units', unit.Unlinked) :
    List.Forall₂ (fun unit unit' => unit.unchecked.Copies r unit'.unchecked) units units' := by
  have hskeletons :
      List.Forall₂ (fun unit unit' => unit.skeleton.Copies r unit'.skeleton) units units' := by
    refine (same.spaces_renumbered numbers).mp (fun unit unit' hspaces
      ⟨htree, aligned, aligned', hdeclarations, hoccurrences⟩ => ?_) (same.renumbered numbers)
    have hlibrary : unit.library = .project := aligned.library_eq.trans same.id
    have hlibrary' : unit'.library = .project := aligned'.library_eq.trans same.id'
    refine ⟨⟨htree, ?_, hdeclarations, rfl, funext fun phase => ?_⟩, ?_, ?_, rfl⟩
    · exact hlibrary'.trans (by rw [show unit.skeleton.library = _ from hlibrary,
        r.library_project])
    · cases phase with
      | tidy =>
        have hreported : unit'.diagnostics.tidy = unit.diagnostics.tidy := by
          rw [aligned.reported, aligned'.reported, htree]
        exact congrArg (List.map Diagnostic.mark) hreported
      | link => rfl
      | check => rfl
    · exact hspaces.trans (by rw [show unit.skeleton.library = _ from hlibrary]; rfl)
    · exact (List.map_id _).symm.trans (map_eq_of_forall₂ hoccurrences fun _ _ ⟨heq, _⟩ => heq)
  have hmapped := List.forall₂_map_left_iff.2 (List.forall₂_map_right_iff.2 hskeletons)
  rw [← List.map_congr_left hunlinked, ← List.map_congr_left hunlinked'] at hmapped
  exact List.forall₂_map_right_iff.1 (List.forall₂_map_left_iff.1 hmapped)

end Library.SameTrees

end SymbolGraph
