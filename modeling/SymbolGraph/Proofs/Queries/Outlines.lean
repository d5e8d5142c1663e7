import SymbolGraph.Outline
import SymbolGraph.Proofs.Queries.HoverAndDefinition

/-!
# Outlines mirror trees

The outline of a document is read off the records of its declarations: the walk over its blocks
hands its identities out, a block at a time, and the items are made of what the records say.  What
it shows beside a name depends on what linking has found.  The names, kinds and ranges do not: they
are those that the tree declares (`SpaceNode.outline`).

The identities follow the declarations of the tree, so every block gets its own, and the walk over a
block leaves the identities behind it (`Outline.bare_block`).  A record has the header that its node
gives it and the members that its node declares (`SourceUnit.Enrolled`).  That a variable is a
constant is written down last, with its type (`DeclNode.Flags`), and no pass over another document
takes it back.
-/

namespace SymbolGraph

open LibrarySet

/-! ## The outline of a tree -/

/-- An item for a declared name, with nothing beside it. -/
def OutlineItem.ofName (name : Ident) (kind : OutlineKind) (children : List OutlineItem) :
    OutlineItem :=
  ⟨name.name, kind, name.range, none, children⟩

@[simp] lemma OutlineItem.children_ofName (name : Ident) (kind : OutlineKind)
    (children : List OutlineItem) :
    (OutlineItem.ofName name kind children).children = children := rfl

/-- The item of a declaration with its members: the elements of an enum, the fields and functions of
a struct, the functions of an interface, the fields, constructors and functions of a class. -/
def DeclNode.outline : DeclNode → OutlineItem
  | .variable node => .ofName node.name (if node.constant then .constant else .variable) []
  | .function node => .ofName node.name .function []
  | .native node => .ofName node.name .native []
  | .enum node => .ofName node.name .enum (node.elements.map fun name =>
    .ofName name .enumElement [])
  | .struct node => .ofName node.name .struct <|
    node.fields.map (fun field => .ofName field.name .field []) ++
      node.functions.map fun function => .ofName function.name .method []
  | .interface node => .ofName node.name .interface <|
    node.functions.map fun function => .ofName function.name .method []
  | .class node => .ofName node.name .class <|
    node.fields.map (fun field => .ofName field.name .field []) ++
      node.constructors.map (fun constructor => .ofName constructor.name .constructor []) ++
      node.functions.map fun function => .ofName function.name .method []
  | .delegate node => .ofName node.name .delegate []
  | .task node => .ofName node.name .task []

namespace SpaceNode

mutual

/-- The outline of a block: its nested blocks, then its declarations. -/
def outline : SpaceNode → List OutlineItem
  | ⟨_, _, children, declarations⟩ => outlineOf children ++ declarations.map DeclNode.outline

/-- The outlines of blocks in order; the items of a block without a name stand in its place. -/
def outlineOf : List SpaceNode → List OutlineItem
  | [] => []
  | child :: rest =>
    (match child.name with
      | some name => [.ofName name .space (outline child)]
      | none => outline child) ++ outlineOf rest

end

end SpaceNode

namespace OutlineItem

mutual

/-- The item as far as names, kinds and ranges go. -/
def bare : OutlineItem → OutlineItem
  | ⟨name, kind, range, _, children⟩ => ⟨name, kind, range, none, bareAll children⟩

/-- The items as far as names, kinds and ranges go. -/
def bareAll : List OutlineItem → List OutlineItem
  | [] => []
  | item :: rest => bare item :: bareAll rest

end

@[simp] lemma bareAll_eq_map (items : List OutlineItem) : bareAll items = items.map bare := by
  induction items with
  | nil => rw [bareAll, List.map_nil]
  | cons item rest ih => rw [bareAll, ih, List.map_cons]

end OutlineItem

/-! ## Items of declarations -/

namespace Outline

variable {set : LibrarySet}

@[simp] lemma isConstant_core (body : Body) : isConstant body.core = isConstant body := by
  cases body with
  | leaf part => cases part <;> rfl
  | _ => rfl

/-- The kind of a declaration that is no variable does not depend on the flag. -/
lemma ofCategory_of_ne {category : Category} (h : category ≠ .variable) (constant : Bool) :
    OutlineKind.ofCategory category constant = .ofCategory category false := by
  cases category <;> first | rfl | exact absurd rfl h

lemma bare_item (entry : Entry) (children : List OutlineItem) :
    (item set entry children).bare = ⟨entry.name,
      .ofCategory entry.category (isConstant entry.body), entry.nameRange, none,
      children.map OutlineItem.bare⟩ := by
  rw [item, OutlineItem.bare, OutlineItem.bareAll_eq_map]

end Outline

/-- All members, category by category. -/
lemma Body.allMembers_eq (body : Body) : body.allMembers =
    [Category.enumElement, .structVariable, .structFunction, .interfaceFunction, .classVariable,
      .constructor, .classFunction].flatMap fun category => (body.members? category).getD [] := by
  cases body <;> simp [allMembers, members?]

namespace DeclNode

/-- Whether a body that is linked for the node is that of a constant as the node says. -/
def Flags : DeclNode → Body → Prop
  | .variable node, body => Outline.isConstant body = node.constant
  | _, _ => True

lemma Flags.of_core {node : DeclNode} {body body' : Body} (flags : node.Flags body)
    (hcore : body'.core = body.core) : node.Flags body' := by
  cases node with
  | «variable» node =>
    rw [Flags, ← Outline.isConstant_core, hcore, Outline.isConstant_core]
    exact flags
  | _ => trivial

lemma durable_flags : Durable fun _ _ => DeclNode.Flags :=
  ⟨fun _ _ hcore flags => flags.of_core hcore⟩

/-- The items of the members that a node declares. -/
lemma children_outline (node : DeclNode) : node.outline.children
    = node.memberNodes.map fun m => .ofName m.name (.ofCategory m.category false) [] := by
  have hmembers {α : Type} (category : Category) (name : α → Ident) (visibility : α → Visibility)
      (nodes : List α) : (membersOf category name visibility nodes).map
        (fun m => OutlineItem.ofName m.name (.ofCategory m.category false) [])
      = nodes.map fun node => .ofName (name node) (.ofCategory category false) [] := by
    rw [membersOf, List.map_map]
    conv_rhs => rw [← List.zipIdx_map_fst 0 nodes, List.map_map]
    rfl
  cases node <;>
    simp only [outline, OutlineItem.children_ofName, memberNodes, List.map_append, List.map_nil,
      hmembers] <;> rfl

lemma outline_eq (node : DeclNode) (body : Body) (flags : node.Flags body) :
    node.outline = .ofName node.name (.ofCategory node.category (Outline.isConstant body))
      node.outline.children := by
  cases node with
  | «variable» node =>
    have hflag : Outline.isConstant body = node.constant := flags
    rw [hflag]
    rfl
  | _ => rfl

end DeclNode

/-- The members of a record whose rolls are those of its node are the members that the node
declares. -/
lemma Entry.allMembers_of_roll {entry : Entry} {node : DeclNode} {document : String}
    (hcategory : entry.id.category = node.category)
    (hroll : entry.roll = node.roll document entry) :
    entry.body.allMembers.map Member.header
      = node.memberNodes.map fun m => (LinkMembers.member document entry.id entry m).header := by
  have hlist (category : Category) : ((entry.body.members? category).getD []).map Member.header
      = if category.owner? = some node.category then
          (node.memberNodes.filter fun m => m.category = category).map fun m =>
            (LinkMembers.member document entry.id entry m).header
        else [] := by
    have h := congrFun hroll category
    rw [DeclNode.roll, hcategory] at h
    rw [Entry.roll] at h
    cases hbody : entry.body.members? category <;> rw [hbody] at h <;> split at h <;>
      simp_all
  rw [Body.allMembers_eq, List.map_flatMap]
  simp only [hlist]
  cases node <;>
    simp [Category.owner?, DeclNode.category, DeclNode.memberNodes, DeclNode.filter_membersOf]

/-- The item of a record with the header, the members and the flag that its node gives it. -/
lemma Outline.bare_entryItem {set : LibrarySet} {entry : Entry}
    {node : DeclNode} {document : String}
    {space : SpaceId} {id : DeclId} (hcategory : id.category = node.category)
    (hskeleton : entry.skeleton = Tidy.entry document space id node)
    (hroll : entry.roll = node.roll document entry) (flags : node.Flags entry.body) :
    (entryItem set entry).bare = node.outline := by
  have hid : entry.id = id := congrArg Symbol.id hskeleton
  have hname : entry.name = node.name.name := congrArg Symbol.name hskeleton
  have hrange : entry.nameRange = node.name.range := congrArg Symbol.nameRange hskeleton
  -- The item of a member depends on its header only, since no member is a top-level variable.
  have hitem (m : Member) (hm : m.category ≠ .variable) :
      (item set m.toEntry []).bare = .ofName ⟨m.header.name, m.header.nameRange⟩
        (.ofCategory m.header.category false) [] := by
    rw [bare_item, ofCategory_of_ne (by exact hm)]
    rfl
  have hmembers := Entry.allMembers_of_roll (hid ▸ hcategory) hroll
  have hcategories : ∀ m ∈ entry.body.allMembers, m.category ≠ .variable := by
    intro m hm hvariable
    have hheader : m.header ∈ entry.body.allMembers.map Member.header := List.mem_map_of_mem hm
    rw [hmembers] at hheader
    obtain ⟨written, hwritten, heq⟩ := List.mem_map.1 hheader
    have hsame : written.category = m.category :=
      congrArg (fun m : Member => m.id.category) heq
    have howner := (DeclNode.position_lt hwritten).1
    rw [hsame, hvariable] at howner
    cases howner
  have hchildren : (entry.body.allMembers.map fun m => item set m.toEntry []).map OutlineItem.bare
      = node.outline.children := by
    rw [List.map_map, node.children_outline]
    calc entry.body.allMembers.map (OutlineItem.bare ∘ fun m => item set m.toEntry [])
        = entry.body.allMembers.map ((fun m : Member => .ofName ⟨m.name, m.nameRange⟩
            (.ofCategory m.category false) []) ∘ Member.header) :=
          List.map_congr_left fun m hm => hitem m (hcategories m hm)
      _ = node.memberNodes.map fun m => .ofName m.name (.ofCategory m.category false) [] := by
          rw [← List.map_map, hmembers, List.map_map]
          rfl
  rw [entryItem, bare_item, hchildren, node.outline_eq entry.body flags, hname, hrange,
    Symbol.category, hid, hcategory]
  rfl

namespace Outline

variable {set : LibrarySet}

/-! ## Items of blocks -/

mutual

/-- If the first identities are those of the declarations of a block, then its outline is that of
the tree, and the other identities are left. -/
theorem bare_block (own rest : List DeclId) : (node : SpaceNode) →
    List.Forall₂ (fun id node => ∃ entry, set.find? id = some entry ∧
      (entryItem set entry).bare = DeclNode.outline node) own node.nodes →
    (block set (own ++ rest) node).1.map OutlineItem.bare = node.outline ∧
      (block set (own ++ rest) node).2 = rest
  | ⟨_, _, children, declarations⟩, h => by
    rw [SpaceNode.nodes] at h
    -- The identities of the nested blocks come first.
    have hnested := List.forall₂_take_append _ _ _ h
    have hown := List.forall₂_drop_append _ _ _ h
    obtain ⟨hblocks, hleft⟩ := bare_blocks (own.take (SpaceNode.nodesOf children).length)
      (own.drop (SpaceNode.nodesOf children).length ++ rest) children hnested
    rw [← List.append_assoc, List.take_append_drop] at hblocks hleft
    generalize own.drop (SpaceNode.nodesOf children).length = mine at hown hleft
    have hitems : ((mine.filterMap set.find?).map (entryItem set)).map OutlineItem.bare
        = declarations.map DeclNode.outline := by
      clear h hnested hblocks hleft
      induction hown with
      | nil => rfl
      | cons hfirst _ ih =>
        obtain ⟨entry, hfind, hitem⟩ := hfirst
        rw [List.filterMap_cons, hfind, List.map_cons, List.map_cons, ih, hitem, List.map_cons]
    simp only [block, hleft, List.map_append, hblocks, SpaceNode.outline, ← hown.length_eq,
      List.take_left', List.drop_left', hitems, and_self]

theorem bare_blocks (own rest : List DeclId) : (children : List SpaceNode) →
    List.Forall₂ (fun id node => ∃ entry, set.find? id = some entry ∧
      (entryItem set entry).bare = DeclNode.outline node) own (SpaceNode.nodesOf children) →
    (blocks set (own ++ rest) children).1.map OutlineItem.bare = SpaceNode.outlineOf children ∧
      (blocks set (own ++ rest) children).2 = rest
  | [], h => by
    cases h
    exact ⟨rfl, rfl⟩
  | child :: others, h => by
    rw [SpaceNode.nodesOf] at h
    obtain ⟨hfirst, hleft⟩ := bare_block (own.take child.nodes.length)
      (own.drop child.nodes.length ++ rest) child (List.forall₂_take_append _ _ _ h)
    obtain ⟨hothers, hrest⟩ := bare_blocks (own.drop child.nodes.length) rest others
      (List.forall₂_drop_append _ _ _ h)
    rw [← List.append_assoc, List.take_append_drop] at hfirst hleft
    simp only [blocks, hleft, hrest, List.map_append, hothers, SpaceNode.outlineOf, and_true]
    cases child.name with
    | none => rw [hfirst]
    | some name =>
      simp only [List.map_singleton, OutlineItem.bare, OutlineItem.bareAll_eq_map, hfirst]
      rfl

end

end Outline

/-! ## Constants -/

namespace Linkage

variable {state : Linkage} {others : List SourceUnit}

/-- Linking the signatures of a document writes down which of its variables are constants. -/
lemma flagged_linkSignatures (arranged : state.libraries.Arranged (state.unit :: others))
    (hscopes : state.unit.scopes.length = state.unit.nodes.length) (options : LinkOptions) :
    (state.linkSignatures options).unit.Reaches (fun _ _ => DeclNode.Flags)
      (state.linkSignatures options).libraries := by
  have among := state.among_everywhere.foundSignatures arranged options
  refine reaches_linkEach arranged.settled arranged.orderly.identified options
    (fun ctx id node hset hdefine hcategory => ?_)
    (retains_apply arranged.orderly among).live hscopes
    DeclNode.durable_flags (E := fun _ _ _ _ => True) (fun id node hpair => ?_) ?_
  · exact holder_of_signatures (hset ▸ arranged.legible) hdefine hcategory
  · obtain ⟨-, -, hlibrary, hid, -⟩ := arranged.settled.paired List.mem_cons_self hpair
    obtain ⟨-, -, entry, hslot, -⟩ := arranged.settled.declared List.mem_cons_self hid
    rw [← hlibrary] at hslot
    exact ⟨entry, hslot, trivial⟩
  · intro ctx id node entry reports _ _ hcategory _ _ _ _ _
    cases node with
    | «variable» node =>
      have htop : id.owner? = none := DeclId.owner?_of_top (by rw [hcategory]; rfl)
      rw [LinkSignatures.findings, LinkSignatures.updates_ofVariable,
        Entry.revise_top _ (by exact htop)]
      rfl
    | _ => trivial

/-- Linking the signatures of a document leaves the declarations of others alone. -/
lemma flagged_other (arranged : state.libraries.Arranged (state.unit :: others))
    (options : LinkOptions) {other : SourceUnit} (hother : other ∈ others)
    (flagged : other.Reaches (fun _ _ => DeclNode.Flags) state.libraries) :
    other.Reaches (fun _ _ => DeclNode.Flags) (state.linkSignatures options).libraries := by
  have among := state.among_everywhere.foundSignatures arranged options
  have hcores : SameCores (· ∈ state.unit.declarations) state.libraries
      (state.linkSignatures options).libraries := by
    refine Linkage.sameCores_apply arranged.orderly.identified fun update hupdate => ?_
    have hown := (among.updates hupdate).2.1
    exact ⟨hown, congrArg DeclId.define (arranged.settled.declared List.mem_cons_self hown).1⟩
  refine flagged.of_sameCores DeclNode.durable_flags hcores (fun id hid hmine => ?_)
    (retains_apply arranged.orderly among).live rfl fun _ h => h
  obtain ⟨heq, -⟩ := arranged.settled.declared (List.mem_cons_of_mem _ hother) hid
  rw [congrArg DeclId.library heq, ← heq] at hmine
  exact arranged.settled.disjoint hother hmine hid

end Linkage

/-- Linking documents writes down which of their variables are constants. -/
lemma Linkages.flagged_link {set : LibrarySet} {batch others : List SourceUnit}
    (arranged : set.Arranged (batch ++ others)) (hbatch : ∀ unit ∈ batch, unit.Undeclared)
    (options : LinkOptions) : ∀ unit ∈ (Linkages.link ⟨set, batch⟩ options).units,
      unit.Reaches (fun _ _ => DeclNode.Flags) (Linkages.link ⟨set, batch⟩ options).libraries := by
  have hscoped {unit unit' : SourceUnit} (hskeleton : unit'.skeleton = unit.skeleton)
      (hscopes : unit'.scopes = unit.scopes) (h : unit.scopes.length = unit.nodes.length) :
      unit'.scopes.length = unit'.nodes.length := by
    rw [hscopes, SourceUnit.nodes, SourceUnit.tree_of_skeleton_eq hskeleton]
    exact h
  obtain ⟨arranged₁, hunits₁⟩ := each_induction Linkage.linkImports LibrarySet.Arranged
    SourceUnit.Undeclared (fun unit => unit.Undeclared ∧ unit.scopes.length = unit.nodes.length)
    LibrarySet.Arranged.perm (fun {set unit others} arranged undeclared =>
      ⟨@Linkage.arranged_linkImports ⟨set, unit⟩ others arranged,
        @Linkage.undeclared_linkImports ⟨set, unit⟩ undeclared, Linkage.length_scopes arranged⟩)
    arranged hbatch
  obtain ⟨arranged₂, hunits₂⟩ := each_induction Linkage.declareMembers LibrarySet.Arranged
    (fun unit => unit.Undeclared ∧ unit.scopes.length = unit.nodes.length)
    (fun unit => unit.scopes.length = unit.nodes.length) LibrarySet.Arranged.perm
    (fun {set unit others} arranged h =>
      ⟨@Linkage.arranged_declareMembers ⟨set, unit⟩ others arranged h.1,
        hscoped (Linkage.sameSkeleton_declareMembers ⟨set, unit⟩).2
          (Linkage.linked_declareMembers _).1 h.2⟩)
    arranged₁ hunits₁
  obtain ⟨arranged₃, hunits₃⟩ := each_induction (·.linkBases options) LibrarySet.Arranged
    (fun unit => unit.scopes.length = unit.nodes.length)
    (fun unit => unit.scopes.length = unit.nodes.length) LibrarySet.Arranged.perm
    (fun {set unit others} arranged h =>
      ⟨@Linkage.arranged_apply ⟨set, unit⟩ others _ arranged _ _
          ((Linkage.among_everywhere ⟨set, unit⟩).foundBases arranged options),
        hscoped (Linkage.sameSkeleton_apply ⟨set, unit⟩ _).2 (Linkage.scopes_apply ..) h⟩)
    arranged₂ hunits₂
  exact (each_established (·.linkSignatures options) LibrarySet.Arranged
    (fun _ unit => unit.scopes.length = unit.nodes.length)
    (fun set unit => unit.Reaches (fun _ _ => DeclNode.Flags) set) LibrarySet.Arranged.perm
    (fun {set unit others} arranged h =>
      ⟨@Linkage.arranged_apply ⟨set, unit⟩ others _ arranged _ _
          ((Linkage.among_everywhere ⟨set, unit⟩).foundSignatures arranged options),
        @Linkage.flagged_linkSignatures ⟨set, unit⟩ others arranged h options,
        fun other hother => ⟨fun h => h,
          @Linkage.flagged_other ⟨set, unit⟩ others arranged options other hother⟩⟩)
    arranged₃ hunits₃).2.1

namespace Session

variable {session : Session}

/-! ## Rebuilds -/

/-- After a rebuild the records of the project say which of its variables are constants. -/
theorem Sound.flagged_rebuild (sound : session.Sound)
    (arranged : session.libraries.Arranged session.units) : ∀ unit ∈ session.rebuild.1.files,
      unit.Reaches (fun _ _ => DeclNode.Flags) session.rebuild.1.libraries := by
  obtain ⟨ready, harranged, hundeclared, hrebuild⟩ := sound.exists_ready arranged
  have hlinked := Linkages.arranged_link harranged hundeclared ready.options
  have hflagged := Linkages.flagged_link harranged hundeclared ready.options
  have hcores := @sameCores_check _ (fun _ => False) hlinked.orderly.identified .project
  rw [hrebuild, libraries_checkProject]
  intro unit hunit id node hpair
  obtain ⟨linked, hmem, hskeleton⟩ := SourceUnit.exists_of_skeleton_eq
    (skeleton_checkProject _) hunit
  rw [SourceUnit.declarations_of_skeleton_eq hskeleton, SourceUnit.nodes,
    SourceUnit.tree_of_skeleton_eq hskeleton] at hpair
  obtain ⟨entry, hslot, hflags⟩ := hflagged linked hmem id node hpair
  have hcore := hcores.cores id.library id.category id.index fun h => h
  rw [core?, core?, hslot, Option.map_some] at hcore
  obtain ⟨entry', hslot', heq⟩ := Option.map_eq_some_iff.1 hcore
  exact ⟨entry', hslot', hflags.of_core (congrArg Symbol.body heq)⟩

/-- Right after a rebuild, in any run, the outline of a document of the project shows the names,
kinds and ranges that its tree declares, in the order of the tree, whatever else is in the
session. -/
theorem outline_mirrors_tree (manifest : Manifest) (sources : Sources) :
    ∃ initial, Session.start manifest sources = .ok initial ∧ ∀ requests : List Request,
      let session := (initial.run requests).rebuild.1
      ∀ unit ∈ session.files,
        (session.outline unit.path).map OutlineItem.bare = unit.tree.root.outline := by
  obtain ⟨initial, hstart, hrun⟩ := enrolled_run manifest sources
  refine ⟨initial, hstart, fun requests => ?_⟩
  obtain ⟨sound, arranged, -⟩ := hrun requests
  intro session unit hunit
  have hsound : session.Sound := sound.perform .rebuild
  have harranged : session.libraries.Arranged session.units := sound.arranged_rebuild arranged
  have hmem : unit ∈ session.units := List.mem_append_left _ hunit
  have enrolled := sound.enrolled_rebuild arranged unit hunit
  have flagged := sound.flagged_rebuild arranged unit hunit
  obtain ⟨lib, hlib⟩ := harranged.settled.loaded hmem
  have hdeclared := (harranged.settled.aligned hmem hlib).declared
  rw [SpaceNode.filterMap_node?_marks] at hdeclared
  have hitems : List.Forall₂ (fun id node => ∃ entry, session.libraries.find? id = some entry ∧
      (Outline.entryItem session.libraries entry).bare = DeclNode.outline node)
      unit.declarations unit.tree.root.nodes := by
    refine List.forall₂_iff_zip.2 ⟨hdeclared.length_eq, fun {id node} hpair => ?_⟩
    obtain ⟨hcategory, hdefine, hlibrary, -⟩ := harranged.settled.paired hmem hpair
    obtain ⟨path, space, entry, -, -, hslot, hskeleton⟩ :=
      (List.forall₂_iff_zip.1 hdeclared).2 hpair
    have hslot' : session.libraries.slot? id.library id.category id.index = some entry := by
      rw [slot?, hlibrary, hlib, Option.bind_some, hslot]
    obtain ⟨enrolledEntry, henrolled, hroll⟩ := enrolled id node hpair
    obtain ⟨flaggedEntry, hflagged, hflags⟩ := flagged id node hpair
    obtain rfl : entry = enrolledEntry := Option.some.inj (hslot'.symm.trans henrolled)
    obtain rfl : entry = flaggedEntry := Option.some.inj (hslot'.symm.trans hflagged)
    refine ⟨entry, ?_, Outline.bare_entryItem hcategory hskeleton hroll hflags⟩
    obtain ⟨hid, hfind⟩ := harranged.legible.finds_slot hslot'
    rwa [show entry.id = id from congrArg Symbol.id hskeleton] at hfind
  have hblock := (Outline.bare_block unit.declarations [] unit.tree.root hitems).1
  rw [List.append_nil] at hblock
  rw [outline, hsound.unit?_path hunit]
  exact hblock

/-- A document with a constant in a block without a name, and a class in the namespace `inner`. -/
def nestedTree : FileTree :=
  ⟨"a.rk", ⟨none, [],
    [⟨none, [], [], [.variable ⟨.pub, true, wordAt 0 "Limit", .ofPath [wordAt 1 "Bit"] 0⟩]⟩,
      ⟨some (wordAt 2 "inner"), [], [], [classAt 3 "A" [] ["F"]]⟩], []⟩⟩

set_option maxRecDepth 20000 in
lemma trees_nested :
    (Session.start (.new "demo") { libraries := [("kernel", [])] }).toOption.map (fun initial =>
      (initial.run [.insert nestedTree, .changed "a.rk"]).rebuild.1.files.map SourceUnit.tree)
      = some [nestedTree] := by
  cbv

/-- The constant stands where its block does, although its type is unknown. -/
theorem outline_mirrors_tree_nested :
    ∃ initial, Session.start (.new "demo") { libraries := [("kernel", [])] } = .ok initial ∧
      let session := (initial.run [.insert nestedTree, .changed "a.rk"]).rebuild.1
      (session.outline "a.rk").map OutlineItem.bare =
        [.ofName (wordAt 0 "Limit") .constant [],
          .ofName (wordAt 2 "inner") .space
            [.ofName (wordAt 3 "A") .class [.ofName (wordAt 5 "F") .method []]]] := by
  obtain ⟨initial, hstart, hmirrors⟩ :=
    outline_mirrors_tree (.new "demo") { libraries := [("kernel", [])] }
  have hrun := trees_nested
  rw [hstart] at hrun
  obtain ⟨unit, hunits, htree⟩ := List.map_eq_singleton_iff.1 (Option.some.inj hrun)
  have houtline := hmirrors [.insert nestedTree, .changed "a.rk"] unit
    (hunits ▸ List.mem_singleton_self unit)
  rw [SourceUnit.path, htree] at houtline
  exact ⟨initial, hstart, houtline⟩

end Session

end SymbolGraph
