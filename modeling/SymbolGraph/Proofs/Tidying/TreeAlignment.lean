import SymbolGraph.Proofs.Model.LibraryDocuments

/-!
# Documents agree with their trees

The marks of a tree are the names that it declares, in the order in which tidying meets them, each
with its place in the namespace tree.  A document is *aligned* with a library when tidying has
recorded one occurrence for each mark: the namespace at that place, or a slot whose declaration has
the header that the node gives it.  Its declaration list and its namespaces are read off these
occurrences, so all of them follow the tree position by position.

Alignment survives linking, the growth of the library by other documents (`Library.Grows`), and the
disposal of other documents (`Library.Sheds`).
-/

namespace SymbolGraph

/-! ## What a tree writes down -/

/-- A name that a tree declares: a namespace block or a declaration, with the place it has. -/
inductive Mark where
  | space (range : Range) (path : List String)
  | declaration (path : List String) (node : DeclNode)

namespace Mark

/-- The declaration of a mark. -/
def node? : Mark → Option DeclNode
  | .space _ _ => none
  | .declaration _ node => some node

end Mark

namespace SpaceNode

mutual

/-- What a block declares, in the order of tidying: the nested blocks, then its declarations. -/
def marks (path : List String) : SpaceNode → List Mark
  | ⟨_, _, children, declarations⟩ =>
    marksOf path children ++ declarations.map (Mark.declaration path)

/-- The same for several blocks; the name of a block comes before what is in it. -/
def marksOf (path : List String) : List SpaceNode → List Mark
  | [] => []
  | child :: rest =>
    (match child.name with
      | none => marks path child
      | some name =>
        .space name.range (path ++ [name.name]) :: marks (path ++ [name.name]) child) ++
      marksOf path rest

end

mutual

/-- The declarations among the marks are those of the tree. -/
theorem filterMap_node?_marks (path : List String) :
    (node : SpaceNode) → (node.marks path).filterMap Mark.node? = node.nodes
  | ⟨_, _, children, declarations⟩ => by
    have hown : (declarations.map (Mark.declaration path)).filterMap Mark.node?
        = declarations := by
      simp [List.filterMap_map, Function.comp_def, Mark.node?]
    rw [marks, List.filterMap_append, filterMap_node?_marksOf path children, hown, nodes]

theorem filterMap_node?_marksOf (path : List String) :
    (children : List SpaceNode) →
      (marksOf path children).filterMap Mark.node? = nodesOf children
  | [] => rfl
  | child :: rest => by
    rw [marksOf, List.filterMap_append, filterMap_node?_marksOf path rest, nodesOf]
    cases child.name with
    | none => rw [filterMap_node?_marks path child]
    | some name =>
      rw [List.filterMap_cons_none rfl, filterMap_node?_marks (path ++ [name.name]) child]

end

end SpaceNode

/-- The declaration that a node stands for when it is first met. -/
def Tidy.entry (document : String) (space : SpaceId) (id : DeclId) (node : DeclNode) : Entry :=
  { Entry.new node.name document space id node.visibility with
    valid := allowedName node.category node.name.name }

/-! ## Growing libraries -/

/-- `lib.Grows lib'`: everything that was there still is, and what is new has not been linked. -/
structure Library.Grows (lib lib' : Library) : Prop where
  id_eq : lib'.id = lib.id
  name_eq : lib'.name = lib.name
  slot_keep : ∀ {category index entry}, lib.slot? category index = some entry →
    lib'.slot? category index = some entry
  slot_only : ∀ {category index entry'}, lib'.slot? category index = some entry' →
    lib.slot? category index = some entry' ∨
      lib.slot? category index = none ∧ entry'.skeleton = entry'
  space_keep : ∀ {id space}, lib.spaces.get? id = some space →
    ∃ space', lib'.spaces.get? id = some space' ∧ space'.parent = space.parent ∧
      space'.name = space.name ∧ space'.references = space.references
  space_only : ∀ {id space'}, lib'.spaces.get? id = some space' →
    (∃ space, lib.spaces.get? id = some space) ∨
      lib.spaces.get? id = none ∧ space'.references = []

namespace Library.Grows

variable {lib lib' lib'' : Library}

lemma refl (lib : Library) : lib.Grows lib :=
  ⟨rfl, rfl, fun h => h, fun h => Or.inl h, fun h => ⟨_, h, rfl, rfl, rfl⟩,
    fun h => Or.inl ⟨_, h⟩⟩

lemma trans (h : lib.Grows lib') (k : lib'.Grows lib'') : lib.Grows lib'' where
  id_eq := k.id_eq.trans h.id_eq
  name_eq := k.name_eq.trans h.name_eq
  slot_keep hslot := k.slot_keep (h.slot_keep hslot)
  -- What is new in the last library is new since the middle one, and then not there in the first,
  -- or has come to the middle one already.
  slot_only := by
    intro category index entry'' hslot
    rcases k.slot_only hslot with hslot' | ⟨hnone, hfresh⟩
    · exact h.slot_only hslot'
    · cases hold : lib.slot? category index with
      | none => exact Or.inr ⟨rfl, hfresh⟩
      | some entry => simp [h.slot_keep hold] at hnone
  space_keep hspace := by
    obtain ⟨space', hs', hp', hn', hr'⟩ := h.space_keep hspace
    obtain ⟨space'', hs'', hp'', hn'', hr''⟩ := k.space_keep hs'
    exact ⟨space'', hs'', hp''.trans hp', hn''.trans hn', hr''.trans hr'⟩
  space_only := by
    intro id space'' hspace
    rcases k.space_only hspace with ⟨space', hs'⟩ | ⟨hnone, hfresh⟩
    · rcases h.space_only hs' with hold | ⟨hnone, hr⟩
      · exact Or.inl hold
      · obtain ⟨s, hs, -, -, hr'⟩ := k.space_keep hs'
        obtain rfl : space'' = s := by simpa [hspace] using hs
        exact Or.inr ⟨hnone, hr'.trans hr⟩
    · cases hold : lib.spaces.get? id with
      | none => exact Or.inr ⟨rfl, hfresh⟩
      | some space =>
        obtain ⟨s, hs, -⟩ := h.space_keep hold
        simp [hs] at hnone

lemma pathTo (h : lib.Grows lib') {path : List String} {id : SpaceId}
    (hpath : lib.spaces.PathTo path id) : lib'.spaces.PathTo path id := by
  refine hpath.mono fun k space hk => ?_
  obtain ⟨space', hs', hp, hn, -⟩ := h.space_keep hk
  exact ⟨space', hs', hp, hn⟩

end Library.Grows

/-! ## Alignment -/

/-- The declaration that a name means. -/
def Target.declaration? : Target → Option DeclId
  | .declaration id => some id
  | .space _ => none

/-- The namespace that a name means, without its library. -/
def Target.space? : Target → Option SpaceId
  | .declaration _ => none
  | .space ref => some ref.space

/-- What tidying reports on a mark. -/
def Mark.problem? : Mark → Option Diagnostic
  | .space _ _ => none
  | .declaration _ node =>
    if Tidy.allowedName node.category node.name.name then none else some (Tidy.badName node.name)

/-- An occurrence that tidying records for a mark. -/
def Mark.Traced (document : String) (lib : Library) (occurrence : Occurrence) : Mark → Prop
  | .space range path => ∃ id,
      occurrence = ⟨range, .space ⟨lib.id, id⟩, true, false⟩ ∧ lib.spaces.PathTo path id
  | .declaration path node => ∃ id space entry,
      occurrence = ⟨node.name.range, .declaration id, true, false⟩ ∧
        id.category = node.category ∧ lib.spaces.PathTo path space ∧
        lib.slot? id.category id.index = some entry ∧
        entry.skeleton = Tidy.entry document space id node

namespace SourceUnit

/-- Tidying has recorded these marks for a document, in order. -/
structure AlignedWith (unit : SourceUnit) (lib : Library) (marks : List Mark) : Prop where
  library_eq : unit.library = lib.id
  traced : List.Forall₂ (Mark.Traced unit.path lib) unit.skeleton.occurrences marks
  declarations_eq : unit.declarations =
    unit.skeleton.occurrences.filterMap fun occurrence => occurrence.target.declaration?
  spaces_eq : unit.spaces =
    addAllNew [] (unit.skeleton.occurrences.filterMap fun occurrence => occurrence.target.space?)
  reported : unit.diagnostics.tidy = marks.filterMap Mark.problem?

/-- A tidied document agrees with its tree. -/
def Aligned (unit : SourceUnit) (lib : Library) : Prop :=
  unit.AlignedWith lib (unit.tree.root.marks [])

variable {unit unit' : SourceUnit} {lib lib' : Library} {marks : List Mark}

lemma tree_of_skeleton_eq (h : unit'.skeleton = unit.skeleton) : unit'.tree = unit.tree := by
  simp only [skeleton, SourceUnit.mk.injEq] at h
  exact h.1

/-- The declarations of a document follow those of its tree. -/
lemma AlignedWith.declared (aligned : unit.AlignedWith lib marks) :
    List.Forall₂ (fun id node => ∃ path space entry, id.category = node.category ∧
        lib.spaces.PathTo path space ∧ lib.slot? id.category id.index = some entry ∧
        entry.skeleton = Tidy.entry unit.path space id node)
      unit.declarations (marks.filterMap Mark.node?) := by
  rw [aligned.declarations_eq]
  have htraced := aligned.traced
  generalize unit.skeleton.occurrences = occurrences at htraced
  clear aligned
  induction htraced with
  | nil => exact .nil
  | @cons occurrence mark occurrences marks hmark _ ih =>
    cases mark with
    | space range path =>
      obtain ⟨id, rfl, -⟩ := hmark
      exact ih
    | declaration path node =>
      obtain ⟨id, space, entry, rfl, h⟩ := hmark
      exact .cons ⟨path, space, entry, h⟩ ih

/-- Tidying records definitions only. -/
lemma AlignedWith.definitions (aligned : unit.AlignedWith lib marks) :
    ∀ occurrence ∈ unit.skeleton.occurrences, occurrence.definition = true := by
  have htraced := aligned.traced
  generalize unit.skeleton.occurrences = occurrences at htraced
  clear aligned
  induction htraced with
  | nil => simp
  | @cons first mark occurrences marks hmark _ ih =>
    intro occurrence hoccurrence
    rcases List.mem_cons.1 hoccurrence with rfl | hoccurrence
    · cases mark with
      | space range path =>
        obtain ⟨id, rfl, -⟩ := hmark
        rfl
      | declaration path node =>
        obtain ⟨id, space, entry, rfl, -⟩ := hmark
        rfl
    · exact ih occurrence hoccurrence

/-- What a document claims is among what tidying has recorded for it. -/
lemma AlignedWith.congr (aligned : unit.AlignedWith lib marks) (hid : lib'.id = lib.id)
    (hspace : ∀ {path id}, id = Arena.root ∨ id ∈ unit.spaces → lib.spaces.PathTo path id →
      lib'.spaces.PathTo path id)
    (hslot : ∀ {decl entry}, decl ∈ unit.declarations →
      lib.slot? decl.category decl.index = some entry →
      (entry.space = Arena.root ∨ entry.space ∈ unit.spaces) ∧
        ∃ entry', lib'.slot? decl.category decl.index = some entry' ∧
          entry'.skeleton = entry.skeleton) :
    unit.AlignedWith lib' marks := by
  refine ⟨aligned.library_eq.trans hid.symm, ?_, aligned.declarations_eq, aligned.spaces_eq,
    aligned.reported⟩
  -- An occurrence points to a declaration or a namespace of the document.
  have hdeclared {o : Occurrence} (ho : o ∈ unit.skeleton.occurrences) {id : DeclId}
      (htarget : o.target = .declaration id) : id ∈ unit.declarations := by
    rw [aligned.declarations_eq]
    exact List.mem_filterMap.2 ⟨o, ho, by rw [htarget]; rfl⟩
  have hopened {o : Occurrence} (ho : o ∈ unit.skeleton.occurrences) {space : SpaceRef}
      (htarget : o.target = .space space) : space.space ∈ unit.spaces := by
    rw [aligned.spaces_eq, mem_addAllNew]
    exact Or.inr (List.mem_filterMap.2 ⟨o, ho, by rw [htarget]; rfl⟩)
  have hall := (@List.forall₂_and_left _ _ _ (fun o => o ∈ unit.skeleton.occurrences) _ _).2
    ⟨fun o ho => ho, aligned.traced⟩
  refine hall.imp fun o mark ⟨ho, htraced⟩ => ?_
  cases mark with
  | space range path =>
    obtain ⟨id, rfl, hpath⟩ := htraced
    exact ⟨id, by rw [hid], hspace (Or.inr (hopened ho rfl)) hpath⟩
  | declaration path node =>
    obtain ⟨id, space, entry, rfl, hcategory, hpath, hentry, hskeleton⟩ := htraced
    obtain ⟨hplace, entry', hentry', hskeleton'⟩ := hslot (hdeclared ho rfl) hentry
    have hsp : entry.space = space := congrArg (·.space) hskeleton
    exact ⟨id, space, entry', rfl, hcategory, hspace (hsp ▸ hplace) hpath, hentry',
      hskeleton'.trans hskeleton⟩

/-- Growth of the library keeps a document aligned. -/
lemma AlignedWith.grows (aligned : unit.AlignedWith lib marks) (grows : lib.Grows lib') :
    unit.AlignedWith lib' marks := by
  refine ⟨aligned.library_eq.trans grows.id_eq.symm, aligned.traced.imp fun o mark htraced => ?_,
    aligned.declarations_eq, aligned.spaces_eq, aligned.reported⟩
  cases mark with
  | space range path =>
    obtain ⟨id, rfl, hpath⟩ := htraced
    exact ⟨id, by rw [grows.id_eq], grows.pathTo hpath⟩
  | declaration path node =>
    obtain ⟨id, space, entry, rfl, hcategory, hpath, hentry, hskeleton⟩ := htraced
    exact ⟨id, space, entry, rfl, hcategory, grows.pathTo hpath, grows.slot_keep hentry, hskeleton⟩

/-- Alignment is a matter of skeletons, on both sides. -/
lemma AlignedWith.of_skeleton_eq (aligned : unit.AlignedWith lib marks)
    (hunit : unit'.skeleton = unit.skeleton) (hlib : lib'.skeleton = lib.skeleton) :
    unit'.AlignedWith lib' marks := by
  have hfields := hunit
  simp only [skeleton, SourceUnit.mk.injEq] at hfields
  obtain ⟨htree, hlibrary, hdecls, hspaces, -, -, -, hdiagnostics⟩ := hfields
  have hpath : unit'.path = unit.path := congrArg FileTree.path htree
  refine ⟨?_, ?_, ?_, ?_, ?_⟩
  · rw [hlibrary, aligned.library_eq, Library.id_of_skeleton_eq hlib]
  · rw [hunit, hpath]
    refine aligned.traced.imp fun o mark htraced => ?_
    cases mark with
    | space range path =>
      obtain ⟨id, rfl, hp⟩ := htraced
      exact ⟨id, by rw [Library.id_of_skeleton_eq hlib],
        Library.pathTo_of_skeleton_eq hlib.symm hp⟩
    | declaration path node =>
      obtain ⟨id, space, entry, rfl, hcategory, hp, hentry, hskeleton⟩ := htraced
      obtain ⟨entry', hentry', hskeleton'⟩ := Library.slot?_of_skeleton_eq hlib.symm hentry
      exact ⟨id, space, entry', rfl, hcategory, Library.pathTo_of_skeleton_eq hlib.symm hp, hentry',
        hskeleton'.symm.trans hskeleton⟩
  · rw [hdecls, hunit, aligned.declarations_eq]
  · rw [hspaces, hunit, aligned.spaces_eq]
  · rw [Diagnostics.mk.injEq] at hdiagnostics
    rw [hdiagnostics.1, aligned.reported]

/-- Disposing of another document keeps a document aligned. -/
lemma AlignedWith.sheds {units : List SourceUnit} {decls : List DeclId}
    (aligned : unit.AlignedWith lib marks) (hosts : lib.Hosts units) (sheds : lib.Sheds decls lib')
    (hosts' : lib'.Hosts units') (hunit : unit ∈ units) (hunit' : unit ∈ units')
    (hdecls : ∀ decl ∈ unit.declarations, decl ∉ decls) : unit.AlignedWith lib' marks := by
  refine aligned.congr sheds.id_eq ?_ ?_
  · intro path id hplace hpath
    obtain ⟨space', hs'⟩ := hosts'.live_of_open hunit' hplace
    exact sheds.pathTo hpath hs'
  · intro decl entry hdecl hentry
    refine ⟨(hosts.entry_of hunit hdecl hentry).2, entry, ?_, rfl⟩
    have hdeclared := hosts.declared (List.mem_flatMap.2 ⟨unit, hunit, hdecl⟩)
    rw [sheds.slot?_eq, ← hdeclared.1, if_neg (hdecls decl hdecl), hentry]

end SourceUnit

end SymbolGraph
