import SymbolGraph.Proofs.Linking.LinkUnlink
import SymbolGraph.Proofs.Session.DanglingTargets
import SymbolGraph.Proofs.Session.LinkLog

/-!
# Declarations, nodes and scopes in step

The records of a document are made when it is tidied, its scopes when it is linked, and the list of
its nodes is read off its tree whenever a pass needs it.  All of them go by position.  A document is
*in step* if each position has the record that the node gives it, and the scope of that record: its
namespace, and what the directives of the blocks around the node brought into scope when the
document was last linked (`SourceUnit.InStep`).

The records and the namespaces are read in the model as it is now.  What the directives meant can
only be read in the model that the document was linked into, since namespaces come and go with other
documents; the journal of the run has it.
-/

namespace SymbolGraph

/-! ## Linking gives scopes -/

namespace Linkage

lemma scopes_linkImports (state : Linkage) {lib : Library}
    (hlib : state.libraries.get? state.unit.library = some lib) :
    state.linkImports.unit.scopes = state.imported.1 := by
  simp only [linkImports, hlib]
  exact scopes_apply _ _

end Linkage

namespace Linkages

/-- What a pass makes of each of several documents, if it depends on the skeleton only. -/
lemma map_units_each_of_skeleton {β : Type} {f g : SourceUnit → β} {pass : Linkage → Linkage}
    {set : LibrarySet} {units : List SourceUnit}
    (hpass : ∀ state, (pass state).libraries.skeleton = state.libraries.skeleton)
    (h : ∀ state, state.libraries.skeleton = set.skeleton → state.unit ∈ units →
      f (pass state).unit = g state.unit) :
    (each pass set units).units.map f = units.map g := by
  suffices hall : ∀ (rest : List SourceUnit) (current : LibrarySet),
      current.skeleton = set.skeleton → rest ⊆ units →
      (each pass current rest).units.map f = rest.map g from
    hall units set rfl fun _ h => h
  intro rest
  induction rest with
  | nil => exact fun _ _ _ => rfl
  | cons unit rest ih =>
    intro current hcurrent hsub
    rw [each, List.map_cons, List.map_cons, h ⟨current, unit⟩ hcurrent (hsub List.mem_cons_self),
      ih _ ((hpass ⟨current, unit⟩).trans hcurrent) fun _ h => hsub (List.mem_cons_of_mem _ h)]

/-- Documents of loaded libraries have the scopes that their directives give them in the model that
they are linked into. -/
lemma scopes_link (set : LibrarySet) (batch : List SourceUnit) (options : LinkOptions)
    (hloaded : ∀ unit ∈ batch, ∃ lib, set.get? unit.library = some lib) :
    ∀ unit ∈ (link ⟨set, batch⟩ options).units, unit.scopes = (Linkage.imported ⟨set, unit⟩).1 := by
  have himports : (each Linkage.linkImports set batch).units.map
      (fun unit => (unit.skeleton, unit.scopes))
        = batch.map fun unit => (unit.skeleton, (Linkage.imported ⟨set, unit⟩).1) := by
    refine map_units_each_of_skeleton (fun state => (Linkage.sameSkeleton_linkImports state).1)
      fun state hskeleton hunit => ?_
    obtain ⟨lib, hlib⟩ := hloaded state.unit hunit
    obtain ⟨lib', hlib', -⟩ := LibrarySet.get?_of_skeleton_eq hskeleton.symm hlib
    rw [(Linkage.sameSkeleton_linkImports state).2, state.scopes_linkImports hlib',
      @Linkage.imported_congr ⟨set, state.unit⟩ state hskeleton rfl rfl]
  have hmembers (state : Linkage) : (state.declareMembers.unit.skeleton,
      state.declareMembers.unit.scopes) = (state.unit.skeleton, state.unit.scopes) :=
    Prod.ext (Linkage.sameSkeleton_declareMembers state).2 (Linkage.linked_declareMembers state).1
  have heach (find : Context → DeclId → DeclNode → Findings) (state : Linkage) :
      ((state.linkEach options find).unit.skeleton, (state.linkEach options find).unit.scopes)
        = (state.unit.skeleton, state.unit.scopes) :=
    Prod.ext (Linkage.sameSkeleton_linkEach state options find).2 (Linkage.scopes_apply _ _)
  have hlink : (link ⟨set, batch⟩ options).units.map (fun unit => (unit.skeleton, unit.scopes))
      = batch.map fun unit => (unit.skeleton, (Linkage.imported ⟨set, unit⟩).1) := by
    unfold link applyPass
    rw [map_units_each (heach LinkSignatures.findings), map_units_each (heach LinkBases.findings),
      map_units_each hmembers, himports]
  intro unit hunit
  have hmem : (unit.skeleton, unit.scopes)
      ∈ batch.map fun unit => (unit.skeleton, (Linkage.imported ⟨set, unit⟩).1) :=
    hlink ▸ List.mem_map_of_mem hunit
  obtain ⟨given, -, heq⟩ := List.mem_map.1 hmem
  obtain ⟨hskeleton, hscopes⟩ := Prod.mk.inj heq
  rw [← hscopes]
  exact congrArg Prod.fst (@Linkage.imported_congr ⟨set, unit⟩ ⟨set, given⟩ rfl
    (SourceUnit.tree_of_skeleton_eq hskeleton) (congrArg (·.library) hskeleton))

end Linkages

/-! ## In step -/

/-- Position by position, the declarations of a document, the nodes of its tree and its scopes
belong together.  The records are those in `set`; what directives mean is read in `origin`. -/
structure SourceUnit.InStep (unit : SourceUnit) (set origin : LibrarySet) : Prop where
  declarations : unit.declarations.length = unit.nodes.length
  scopes : unit.scopes.length = unit.nodes.length
  record : ∀ (i : Nat) (node : DeclNode), unit.nodes[i]? = some node → ∃ id entry,
    unit.declarations[i]? = some id ∧ set.find? id = some entry ∧ entry.name = node.name.name ∧
      entry.nameRange = node.name.range ∧ entry.visibility = node.visibility ∧
      entry.category = node.category ∧ entry.document = unit.path
  scope : ∀ (i : Nat) (node : DeclNode), unit.nodes[i]? = some node → ∃ id entry scope blocks,
    unit.declarations[i]? = some id ∧ set.find? id = some entry ∧ unit.scopes[i]? = some scope ∧
      unit.tree.root.nested[i]? = some (blocks, node) ∧ scope.space = entry.space ∧
      scope.imports.Nodup ∧
      scope.imports
        = addAllNew [] (LinkImports.broughtBy origin unit.library (unit.tree.root :: blocks))

lemma exists_getElem?_of_forall₂ {α β : Type} {R : α → β → Prop} {xs : List α} {ys : List β}
    (h : List.Forall₂ R xs ys) {i : Nat} {y : β} (hy : ys[i]? = some y) :
    ∃ x, xs[i]? = some x ∧ R x y := by
  induction h generalizing i with
  | nil => simp at hy
  | @cons x y' xs ys hxy _ ih =>
    cases i with
    | zero => exact ⟨x, rfl, by simpa using (Option.some.inj hy) ▸ hxy⟩
    | succ i => exact ih hy

namespace LibrarySet

variable {set origin : LibrarySet} {units : List SourceUnit} {unit : SourceUnit}

/-- The record at a position of a document is that of the node, in the namespace of its blocks. -/
lemma Arranged.exists_record (arranged : set.Arranged units) (hunit : unit ∈ units) {lib : Library}
    (hlib : set.get? unit.library = some lib) {i : Nat} {blocks : List SpaceNode} {node : DeclNode}
    (hnested : unit.tree.root.nested[i]? = some (blocks, node)) : ∃ id entry,
      unit.declarations[i]? = some id ∧ set.find? id = some entry ∧
        lib.spaces.PathTo (SpaceNode.place blocks) entry.space ∧
        entry.skeleton = Tidy.entry unit.path entry.space id node ∧
        id.category = node.category := by
  obtain ⟨id, hid, entry, hpath, hslot, heq⟩ :=
    exists_getElem?_of_forall₂ (arranged.settled.aligned hunit hlib).nested hnested
  have hpair : (id, node) ∈ unit.declarations.zip unit.nodes :=
    List.mem_iff_getElem?.2 ⟨i, List.getElem?_zip_eq_some.2 ⟨hid, SpaceNode.getElem?_nodes hnested⟩⟩
  obtain ⟨hcategory, -, hlibrary, -⟩ := arranged.settled.paired hunit hpair
  have hslot' : set.slot? id.library id.category id.index = some entry := by
    rw [slot?, hlibrary, hlib, Option.bind_some, hslot]
  obtain ⟨-, hfind⟩ := arranged.legible.finds_slot hslot'
  rw [show entry.id = id from congrArg Symbol.id heq] at hfind
  exact ⟨id, entry, hid, hfind, hpath, heq, hcategory⟩

/-- A document is in step if it has the scopes that it was given in a model with the same headers of
its library. -/
lemma Arranged.inStep (arranged : set.Arranged units) (hunit : unit ∈ units)
    (horigin : set.skeleton.get? unit.library = origin.skeleton.get? unit.library)
    (hscopes : unit.scopes = (Linkage.imported ⟨origin, unit⟩).1) : unit.InStep set origin := by
  obtain ⟨lib, hlib⟩ := arranged.settled.loaded hunit
  rw [get?_skeleton, get?_skeleton, hlib, Option.map_some] at horigin
  obtain ⟨before, hbefore, hskeleton⟩ := Option.map_eq_some_iff.1 horigin.symm
  have coherent := arranged.legible.coherent hlib
  have aligned : unit.Aligned lib := arranged.settled.aligned hunit hlib
  -- The scopes were opened in the order of the nested blocks, when the spaces were the ones tidying
  -- made; linking leaves spaces alone.
  have follows : List.Forall₂
      (LinkImports.Follows origin unit.library before [] [] [unit.tree.root]) unit.scopes
      unit.tree.root.nested := by
    rw [hscopes]
    exact (aligned.of_skeleton_eq rfl hskeleton).follows
      (coherent.of_skeleton_eq hskeleton).tree hbefore
  refine ⟨arranged.settled.length_declarations hunit,
    follows.length_eq.trans (SpaceNode.length_nested _), fun i node hnode => ?_,
    fun i node hnode => ?_⟩
  · obtain ⟨blocks, hblocks⟩ := SpaceNode.exists_nested hnode
    obtain ⟨id, entry, hid, hfind, -, heq, hcategory⟩ := arranged.exists_record hunit hlib hblocks
    refine ⟨id, entry, hid, hfind, congrArg Symbol.name heq, congrArg Symbol.nameRange heq,
      congrArg Symbol.visibility heq, ?_, congrArg Symbol.document heq⟩
    rw [Symbol.category, show entry.id = id from congrArg Symbol.id heq, hcategory]
  · obtain ⟨blocks, hblocks⟩ := SpaceNode.exists_nested hnode
    obtain ⟨id, entry, hid, hfind, hpath, -⟩ := arranged.exists_record hunit hlib hblocks
    obtain ⟨scope, hscope, hspace, himports⟩ := exists_getElem?_of_forall₂ follows hblocks
    have hspace' : lib.spaces.PathTo (SpaceNode.place blocks) scope.space :=
      Library.pathTo_of_skeleton_eq hskeleton hspace
    refine ⟨id, entry, scope, blocks, hid, hfind, hscope, hblocks,
      hspace'.id_unique coherent.tree hpath, ?_, himports⟩
    rw [himports]
    exact nodup_addAllNew List.nodup_nil _

end LibrarySet

/-! ## Runs -/

namespace Linking.Lasts

variable {linking : Linking} {libraries : LibrarySet} {units : List SourceUnit} {unit : SourceUnit}

/-- Every document comes from the linking, and is one of the library that was linked. -/
lemma exists_linked (lasts : linking.Lasts libraries units)
    (home : ∀ unit ∈ linking.units, unit.library = linking.library) (hunit : unit ∈ units) :
    unit.library = linking.library ∧
      ∃ linked ∈ linking.linked.units, linked.unchecked = unit.unchecked := by
  have hmem : unit.unchecked ∈ linking.linked.units.map SourceUnit.unchecked :=
    lasts.units ▸ List.mem_map_of_mem hunit
  obtain ⟨linked, hlinked, heq⟩ := List.mem_map.1 hmem
  obtain ⟨given, hgiven, hsame⟩ := SourceUnit.exists_of_skeleton_eq
    (Linkages.skeleton_link ⟨linking.libraries, linking.units⟩ linking.options).2 hlinked
  have hlibrary : unit.library = linked.library := (congrArg (·.library) heq).symm
  have hlibrary' : linked.library = given.library := congrArg (·.library) hsame
  exact ⟨hlibrary.trans (hlibrary'.trans (home given hgiven)), linked, hlinked, heq⟩

/-- The scopes of a document are those that its directives gave it when it was linked. -/
lemma scopes_eq (lasts : linking.Lasts libraries units)
    (home : ∀ unit ∈ linking.units, unit.library = linking.library) {lib : Library}
    (hlib : linking.libraries.get? linking.library = some lib) (hunit : unit ∈ units) :
    unit.scopes = (Linkage.imported ⟨linking.libraries, unit⟩).1 := by
  obtain ⟨-, linked, hlinked, heq⟩ := lasts.exists_linked home hunit
  have hgave := Linkages.scopes_link linking.libraries linking.units linking.options
    (fun unit hunit => ⟨lib, by rw [home unit hunit, hlib]⟩) linked hlinked
  have hscopes : linked.scopes = unit.scopes := congrArg (·.scopes) heq
  rw [← hscopes, hgave]
  exact congrArg Prod.fst (@Linkage.imported_congr ⟨linking.libraries, unit⟩
    ⟨linking.libraries, linked⟩ rfl (congrArg (·.tree) heq) (congrArg (·.library) heq))

end Linking.Lasts

namespace Session

/-- Once every library is linked, each document is in step with the last linking of its library. -/
lemma Chronicled.inStep {P : LibrarySet → IndexPool → List SourceUnit → Prop}
    {journal : List Linking} {before session : Session}
    (chronicled : Chronicled P journal before session)
    (arranged : session.libraries.Arranged session.units) {unit : SourceUnit}
    (hunit : unit ∈ session.units) {units : List SourceUnit} {linking : Linking}
    (hlast : Linking.last? linking.library journal = some linking)
    (lasts : linking.Lasts session.libraries units) (hmem : unit ∈ units) :
    unit.library = linking.library ∧
      (∃ linked ∈ linking.linked.units, linked.unchecked = unit.unchecked) ∧
      unit.InStep session.libraries linking.libraries := by
  have home := (chronicled.poised linking (Linking.last?_mem hlast).1).home
  obtain ⟨hlibrary, hlinked⟩ := lasts.exists_linked home hmem
  obtain ⟨lib, hlib⟩ := arranged.settled.loaded hunit
  have hskeleton := lasts.skeleton
  rw [← hlibrary] at hskeleton
  have hbefore := hskeleton
  rw [LibrarySet.get?_skeleton, LibrarySet.get?_skeleton, hlib, Option.map_some] at hbefore
  obtain ⟨before, hget, -⟩ := Option.map_eq_some_iff.1 hbefore.symm
  exact ⟨hlibrary, hlinked,
    arranged.inStep hunit hskeleton (lasts.scopes_eq home (hlibrary ▸ hget) hmem)⟩

/-- In every state of every run, every document has been linked and is in step with the last linking
of its library. -/
theorem inStep_run (manifest : Manifest) (sources : Sources) :
    ∃ initial, Session.start manifest sources = .ok initial ∧ ∀ requests : List Request,
      let session := initial.run requests
      ∀ unit ∈ session.units, ∃ linking,
        Linking.last? unit.library (journal manifest sources initial requests) = some linking ∧
        (∃ linked ∈ linking.linked.units, linked.unchecked = unit.unchecked) ∧
        unit.InStep session.libraries linking.libraries := by
  obtain ⟨initial, hstart, hrun⟩ := chronicled_journal manifest sources
  refine ⟨initial, hstart, fun requests => ?_⟩
  obtain ⟨-, arranged, chronicled⟩ := hrun requests
  intro session unit hunit
  have ranked : session.Ranked := chronicled.ranked ⟨by simp [unloaded], by simp [unloaded]⟩
  obtain ⟨library, units, hunits, hmem⟩ := ranked.exists_documents hunit
  rcases chronicled.documents library units hunits with ⟨linking, hlast, lasts⟩ | ⟨-, hold, -⟩
  · obtain rfl := (Linking.last?_mem hlast).2
    obtain ⟨hlibrary, hlinked, inStep⟩ := chronicled.inStep arranged hunit hlast lasts hmem
    exact ⟨linking, hlibrary ▸ hlast, hlinked, inStep⟩
  · rw [eq_nil_of_documents_unloaded hold] at hmem
    cases hmem

/-- Right after a rebuild, in any run, the declarations of every document, the nodes of its tree and
its scopes are in step: the imports of a scope are what the directives around the node brought into
scope when the document was last linked. -/
theorem declarations_nodes_scopes_in_step (manifest : Manifest) (sources : Sources) :
    ∃ initial, Session.start manifest sources = .ok initial ∧ ∀ requests : List Request,
      let session := (initial.run requests).rebuild.1
      ∀ unit ∈ session.units, ∃ linking,
        Linking.last? unit.library (journal manifest sources initial (requests ++ [.rebuild]))
          = some linking ∧
        (∃ linked ∈ linking.linked.units, linked.unchecked = unit.unchecked) ∧
        unit.InStep session.libraries linking.libraries := by
  obtain ⟨initial, hstart, hrun⟩ := inStep_run manifest sources
  refine ⟨initial, hstart, fun requests => ?_⟩
  have hrebuilt := hrun (requests ++ [.rebuild])
  rw [initial.run_concat requests .rebuild] at hrebuilt
  exact hrebuilt

/-- A document that imports its own namespace `outer`.  In there is a block without a name that
imports `outer.inner` and holds the class `A`, and the namespace `inner` with the class `B`;
the class `C` is at the top level. -/
def shelvesTree : FileTree :=
  ⟨"a.rk", ⟨none, [⟨[wordAt 0 "outer"], .onLine 0 0 1⟩],
    [⟨some (wordAt 1 "outer"), [],
      [⟨none, [⟨[wordAt 2 "outer", wordAt 2 "inner"], .onLine 2 0 1⟩], [], [classAt 3 "A" [] []]⟩,
        ⟨some (wordAt 6 "inner"), [], [], [classAt 7 "B" [] []]⟩], []⟩],
    [classAt 10 "C" [] []]⟩⟩

set_option maxRecDepth 20000 in
lemma scopes_shelves :
    (Session.start (.new "demo") { libraries := [("kernel", [])] }).toOption.map (fun initial =>
      (initial.run [.insert shelvesTree, .changed "a.rk"]).rebuild.1.files.map fun unit =>
        (unit.tree, unit.scopes))
      = some [(shelvesTree, [⟨1, [⟨.project, 1⟩, ⟨.project, 2⟩]⟩, ⟨2, [⟨.project, 1⟩]⟩,
          ⟨Arena.root, [⟨.project, 1⟩]⟩])] := by
  cbv

/-- The class in the block without a name has a second import, and the one after it does not. -/
theorem in_step_shelves :
    ∃ initial, Session.start (.new "demo") { libraries := [("kernel", [])] } = .ok initial ∧
      let session := (initial.run [.insert shelvesTree, .changed "a.rk"]).rebuild.1
      ∃ unit ∈ session.units, unit.tree = shelvesTree ∧
        unit.scopes = [⟨1, [⟨.project, 1⟩, ⟨.project, 2⟩]⟩, ⟨2, [⟨.project, 1⟩]⟩,
          ⟨Arena.root, [⟨.project, 1⟩]⟩] ∧
        ∃ linking, Linking.last? unit.library (journal (.new "demo")
            { libraries := [("kernel", [])] } initial
            [.insert shelvesTree, .changed "a.rk", .rebuild]) = some linking ∧
          unit.InStep session.libraries linking.libraries := by
  obtain ⟨initial, hstart, hinStep⟩ :=
    declarations_nodes_scopes_in_step (.new "demo") { libraries := [("kernel", [])] }
  have hrun := scopes_shelves
  rw [hstart] at hrun
  obtain ⟨unit, hunits, hshown⟩ := List.map_eq_singleton_iff.1 (Option.some.inj hrun)
  obtain ⟨htree, hscopes⟩ := Prod.mk.inj hshown
  have hunit : unit ∈ (initial.run [.insert shelvesTree, .changed "a.rk"]).rebuild.1.units :=
    List.mem_append_left _ (hunits ▸ List.mem_singleton_self unit)
  obtain ⟨linking, hlast, -, inStep⟩ := hinStep [.insert shelvesTree, .changed "a.rk"] unit hunit
  exact ⟨initial, hstart, unit, hunit, htree, hscopes, linking, hlast, inStep⟩

end Session

end SymbolGraph
