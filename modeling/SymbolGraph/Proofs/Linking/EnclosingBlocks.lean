import SymbolGraph.Proofs.Linking.WrittenTypes
import SymbolGraph.Proofs.Tidying.TreeAlignment

/-!
# The blocks around a declaration

Three walks over the tree of a document must meet its declarations in the same order: tidying, which
gives them their records; linking import directives, which gives them their scopes; and the list of
nodes, with which every later pass lines up both.  The second one passes over a block
whose namespace is missing, and would be out of step from there on.

The nodes of a tree are listed with the blocks that they are in (`SpaceNode.nested`).  The records
follow that list, since the names of these blocks are the place at which tidying has put a node
(`SourceUnit.AlignedWith.nested`).  So do the scopes, as long as every block has a namespace
(`LinkImports.follows_block`).
-/

namespace SymbolGraph

/-! ## The blocks around a node -/

namespace SpaceNode

mutual

/-- The declarations of a block in the order of `nodes`, each with the nested blocks that it is in,
outermost first. -/
def nested : SpaceNode → List (List SpaceNode × DeclNode)
  | ⟨_, _, children, declarations⟩ => nestedOf children ++ declarations.map fun node => ([], node)

/-- The same for several blocks, each of which is around its own declarations. -/
def nestedOf : List SpaceNode → List (List SpaceNode × DeclNode)
  | [] => []
  | child :: rest =>
    (nested child).map (fun (blocks, node) => (child :: blocks, node)) ++ nestedOf rest

end

/-- The names of blocks inside each other; a block without a name adds none. -/
def place (blocks : List SpaceNode) : List String :=
  blocks.filterMap fun block => block.name.map Ident.name

mutual

theorem map_snd_nested : (node : SpaceNode) → node.nested.map Prod.snd = node.nodes
  | ⟨_, _, children, declarations⟩ => by
    rw [nested, nodes, List.map_append, map_snd_nestedOf children, List.map_map]
    exact congrArg _ (List.map_id' declarations)

theorem map_snd_nestedOf : (children : List SpaceNode) →
    (nestedOf children).map Prod.snd = nodesOf children
  | [] => rfl
  | child :: rest => by
    rw [nestedOf, nodesOf, List.map_append, map_snd_nestedOf rest, ← map_snd_nested child,
      List.map_map]
    rfl

end

/-- Every declaration of a block is in some blocks. -/
lemma exists_nested {node : SpaceNode} {i : Nat} {declared : DeclNode}
    (h : node.nodes[i]? = some declared) : ∃ blocks, node.nested[i]? = some (blocks, declared) := by
  rw [← map_snd_nested, List.getElem?_map] at h
  obtain ⟨⟨blocks, declared⟩, hnested, rfl⟩ := Option.map_eq_some_iff.1 h
  exact ⟨blocks, hnested⟩

lemma getElem?_nodes {node : SpaceNode} {i : Nat} {blocks : List SpaceNode} {declared : DeclNode}
    (h : node.nested[i]? = some (blocks, declared)) : node.nodes[i]? = some declared := by
  rw [← map_snd_nested, List.getElem?_map, h]
  rfl

lemma length_nested (node : SpaceNode) : node.nested.length = node.nodes.length := by
  rw [← map_snd_nested, List.length_map]

end SpaceNode

/-- A declaration among the marks, with its place. -/
def Mark.declaration? : Mark → Option (List String × DeclNode)
  | .space _ _ => none
  | .declaration path node => some (path, node)

namespace SpaceNode

mutual

/-- The place of a declaration is given by the names of the blocks that it is in. -/
theorem filterMap_declaration?_marks (path : List String) : (node : SpaceNode) →
    (node.marks path).filterMap Mark.declaration?
      = node.nested.map fun (blocks, node) => (path ++ place blocks, node)
  | ⟨_, _, children, declarations⟩ => by
    rw [marks, nested, List.filterMap_append, List.map_append,
      filterMap_declaration?_marksOf path children, List.filterMap_map, List.map_map]
    simp [Function.comp_def, Mark.declaration?, place]

theorem filterMap_declaration?_marksOf (path : List String) : (children : List SpaceNode) →
    (marksOf path children).filterMap Mark.declaration?
      = (nestedOf children).map fun (blocks, node) => (path ++ place blocks, node)
  | [] => rfl
  | child :: rest => by
    rw [marksOf, nestedOf, List.filterMap_append, List.map_append,
      filterMap_declaration?_marksOf path rest, List.map_map]
    refine congrArg (· ++ _) ?_
    cases hname : child.name with
    | none =>
      rw [filterMap_declaration?_marks path child]
      simp [Function.comp_def, place, hname]
    | some name =>
      rw [List.filterMap_cons_none rfl, filterMap_declaration?_marks (path ++ [name.name]) child]
      simp [Function.comp_def, place, hname]

end

end SpaceNode

/-! ## Records -/

/-- The records of a document follow the nodes of its tree, each in the namespace of its blocks. -/
theorem SourceUnit.AlignedWith.nested {unit : SourceUnit} {lib : Library}
    (aligned : unit.AlignedWith lib (unit.tree.root.marks [])) :
    List.Forall₂ (fun id (blocks, node) => ∃ entry,
        lib.spaces.PathTo (SpaceNode.place blocks) entry.space ∧
        lib.slot? id.category id.index = some entry ∧
        entry.skeleton = Tidy.entry unit.path entry.space id node)
      unit.declarations unit.tree.root.nested := by
  have hmarks : List.Forall₂ (fun id (path, node) => ∃ entry, lib.spaces.PathTo path entry.space ∧
      lib.slot? id.category id.index = some entry ∧
      entry.skeleton = Tidy.entry unit.path entry.space id node)
      unit.declarations ((unit.tree.root.marks []).filterMap Mark.declaration?) := by
    rw [aligned.declarations_eq]
    refine List.rel_filterMap (fun occurrence mark hmark => ?_) aligned.traced
    cases mark with
    | space range path =>
      obtain ⟨id, rfl, -⟩ := hmark
      exact .none
    | declaration path node =>
      obtain ⟨id, space, entry, rfl, -, hpath, hslot, hskeleton⟩ := hmark
      obtain rfl : entry.space = space := congrArg Symbol.space hskeleton
      exact .some ⟨entry, hpath, hslot, hskeleton⟩
  rw [SpaceNode.filterMap_declaration?_marks, List.forall₂_map_right_iff] at hmarks
  exact hmarks

/-! ## Scopes -/

lemma addAllNew_append {α : Type} [DecidableEq α] (xs ys zs : List α) :
    addAllNew xs (ys ++ zs) = addAllNew (addAllNew xs ys) zs :=
  List.foldl_append ..

namespace LinkImports

variable {set : LibrarySet} {library : LibraryId} {lib : Library} {document : String}

/-- The namespaces that the directives of some blocks bring into scope, block after block. -/
def broughtBy (set : LibrarySet) (library : LibraryId) (blocks : List SpaceNode) : List SpaceRef :=
  (blocks.flatMap SpaceNode.imports).filterMap (imported? set library)

lemma broughtBy_cons (block : SpaceNode) (blocks : List SpaceNode) :
    broughtBy set library (block :: blocks)
      = block.imports.filterMap (imported? set library) ++ broughtBy set library blocks := by
  rw [broughtBy, List.flatMap_cons, List.filterMap_append]
  rfl

/-- The scope of a declaration inside a namespace with some imports: it is that of the nested blocks
that the declaration is in, with what the blocks `around` and these bring into scope. -/
structure Follows (set : LibrarySet) (library : LibraryId) (lib : Library) (path : List String)
    (outer : List SpaceRef) (around : List SpaceNode) (scope : DeclScope)
    (nested : List SpaceNode × DeclNode) : Prop where
  space : lib.spaces.PathTo (path ++ SpaceNode.place nested.1) scope.space
  imports : scope.imports = addAllNew outer (broughtBy set library (around ++ nested.1))

mutual

/-- A block whose nested blocks all have their namespaces has a scope for each declaration, in
order. -/
theorem follows_block (hget : set.get? library = some lib) (tree : lib.spaces.IsTree)
    {path : List String} {space : SpaceId} (outer : List SpaceRef)
    (hpath : lib.spaces.PathTo path space) : (node : SpaceNode) →
    (∀ range nested, Mark.space range nested ∈ node.marks path →
      ∃ id, lib.spaces.PathTo nested id) →
    List.Forall₂ (Follows set library lib path outer [node])
      (block set library document space outer node).1 node.nested
  | ⟨name, imports, children, declarations⟩, hmarks => by
    have hchildren := (follows_blocks hget tree (inEffect set library outer imports) hpath children
      fun range nested h => hmarks range nested (by
        rw [SpaceNode.marks]
        exact List.mem_append_left _ h)).imp
      (S := Follows set library lib path outer [⟨name, imports, children, declarations⟩])
      fun scope nested follows => ⟨follows.space, by
        rw [follows.imports, List.singleton_append, broughtBy_cons, addAllNew_append]
        rfl⟩
    have hown : List.Forall₂
        (Follows set library lib path outer [⟨name, imports, children, declarations⟩])
        (declarations.map fun _ => ⟨space, inEffect set library outer imports⟩)
        (declarations.map fun node => ([], node)) := by
      rw [List.forall₂_map_left_iff, List.forall₂_map_right_iff]
      refine List.forall₂_same.2 fun node _ => ⟨?_, ?_⟩
      · simpa [SpaceNode.place] using hpath
      · simp [broughtBy, inEffect]
    exact List.rel_append hchildren hown

theorem follows_blocks (hget : set.get? library = some lib) (tree : lib.spaces.IsTree)
    {path : List String} {space : SpaceId} (outer : List SpaceRef)
    (hpath : lib.spaces.PathTo path space) : (children : List SpaceNode) →
    (∀ range nested, Mark.space range nested ∈ SpaceNode.marksOf path children →
      ∃ id, lib.spaces.PathTo nested id) →
    List.Forall₂ (Follows set library lib path outer [])
      (blocks set library document space outer children).1 (SpaceNode.nestedOf children)
  | [], _ => .nil
  | child :: rest, hmarks => by
    have hrest := follows_blocks hget tree outer hpath rest fun range nested h =>
      hmarks range nested (by rw [SpaceNode.marksOf]; exact List.mem_append_right _ h)
    -- A block with a name has the namespace that was opened for it, a block without one stays in
    -- that around it.
    have hfirst : List.Forall₂ (Follows set library lib path outer [])
        (match blockSpace? set library space child.name with
          | some id => block set library document id outer child
          | none => ([], {})).1
        (child.nested.map fun (blocks, node) => (child :: blocks, node)) := by
      rw [List.forall₂_map_right_iff]
      cases hname : child.name with
      | none =>
        refine (follows_block hget tree outer hpath child fun range nested h =>
          hmarks range nested ?_).imp fun scope nested follows => ⟨?_, follows.imports⟩
        · rw [SpaceNode.marksOf, hname]
          exact List.mem_append_left _ h
        · simpa [SpaceNode.place, hname] using follows.space
      | some name =>
        obtain ⟨id, hid⟩ := hmarks name.range (path ++ [name.name]) (by
          rw [SpaceNode.marksOf, hname]
          exact List.mem_append_left _ (List.mem_cons_self ..))
        have hspace : blockSpace? set library space (some name) = some id := by
          rw [blockSpace?, hget, Option.bind_some, hpath.child?_of_snoc tree hid]
        rw [hspace]
        refine (follows_block hget tree outer hid child fun range nested h =>
          hmarks range nested ?_).imp fun scope nested follows => ⟨?_, follows.imports⟩
        · rw [SpaceNode.marksOf, hname]
          exact List.mem_append_left _ (List.mem_cons_of_mem _ h)
        · simpa [SpaceNode.place, hname] using follows.space
    exact List.rel_append hfirst hrest

end

end LinkImports

/-- The scopes that linking gives the declarations of a tidied document follow its nodes. -/
lemma SourceUnit.AlignedWith.follows {set : LibrarySet} {unit : SourceUnit} {lib : Library}
    (aligned : unit.AlignedWith lib (unit.tree.root.marks [])) (tree : lib.spaces.IsTree)
    (hget : set.get? unit.library = some lib) :
    List.Forall₂ (LinkImports.Follows set unit.library lib [] [] [unit.tree.root])
      (LinkImports.block set unit.library unit.path Arena.root [] unit.tree.root).1
      unit.tree.root.nested := by
  obtain ⟨root, hroot, -⟩ := tree.root_live
  refine LinkImports.follows_block hget tree [] (.root hroot) _ fun range path hmark => ?_
  obtain ⟨occurrence, id, -, hid⟩ := forall_mem_of_forall₂ aligned.traced
    (Q := fun mark => ∃ occurrence, mark.Traced unit.path lib occurrence)
    (fun occurrence _ h => ⟨occurrence, h⟩) _ hmark
  exact ⟨id, hid⟩

end SymbolGraph
