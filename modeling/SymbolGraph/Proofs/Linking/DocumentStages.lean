import SymbolGraph.Proofs.Linking.EnclosingBlocks
import SymbolGraph.Proofs.Linking.RealizedRecords

/-!
# Documents on their way through linking

`unit.Reaches E set` says that every record of a document has got as far as `E`.  A pass over a
document takes its records from one stage to the next, and a pass over another document leaves them
where they are: it touches no core of theirs, and no target goes away.  So after the four passes all
records of all documents are realized (`Linkages.realized_link`).

The scopes of a document are as many as its declarations once its import directives are linked,
since every block of its tree has a namespace; this is what makes the later passes visit every
declaration.
-/

namespace SymbolGraph

/-! ## Records of a document -/

/-- Every record of the document has got as far as `E` says. -/
def SourceUnit.Reaches (E : LibrarySet → List Diagnostic → DeclNode → Body → Prop)
    (set : LibrarySet) (unit : SourceUnit) : Prop :=
  ∀ id node, (id, node) ∈ unit.declarations.zip unit.nodes →
    ∃ entry, set.slot? id.library id.category id.index = some entry ∧
      E set unit.diagnostics.link node entry.body

lemma durable_blank : Durable fun _ _ node body => body.core = Body.fresh node.category :=
  ⟨fun _ _ hcore h => hcore.trans h⟩

variable {E : LibrarySet → List Diagnostic → DeclNode → Body → Prop}

/-- What a document has reached it keeps while the cores of its records stay. -/
lemma SourceUnit.Reaches.of_sameCores {set set' : LibrarySet} {unit unit' : SourceUnit}
    (reaches : unit.Reaches E set) (durable : Durable E) {own : DeclId → Prop}
    (cores : LibrarySet.SameCores own set set')
    (hown : ∀ id ∈ unit.declarations, ¬ own ⟨id.library, id.category, id.index, none⟩)
    (hlive : ∀ {target}, set.Live target → set'.Live target)
    (hskeleton : unit'.skeleton = unit.skeleton)
    (hreports : ∀ d ∈ unit.diagnostics.link, d ∈ unit'.diagnostics.link) :
    unit'.Reaches E set' := by
  intro id node hpair
  rw [declarations_of_skeleton_eq hskeleton, nodes, tree_of_skeleton_eq hskeleton] at hpair
  obtain ⟨entry, hslot, hentry⟩ := reaches id node hpair
  have hcore := cores.cores _ _ _ (hown id (List.of_mem_zip hpair).1)
  rw [LibrarySet.core?, LibrarySet.core?, hslot, Option.map_some] at hcore
  obtain ⟨entry', hslot', heq⟩ := Option.map_eq_some_iff.1 hcore
  have hbody : entry'.core.body = entry.core.body := by rw [heq]
  exact ⟨entry', hslot', durable.keep hlive hreports hbody hentry⟩

/-- Where there are as many scopes as nodes, each declaration has its scope. -/
lemma SourceUnit.exists_scope {unit : SourceUnit}
    (hscopes : unit.scopes.length = unit.nodes.length) {id : DeclId} {node : DeclNode}
    (hpair : (id, node) ∈ unit.declarations.zip unit.nodes) :
    ∃ scope, ((id, node), scope) ∈ (unit.declarations.zip unit.nodes).zip unit.scopes := by
  obtain ⟨position, hlt, hget⟩ := List.mem_iff_getElem.1 hpair
  have hscope : position < unit.scopes.length := by
    rw [List.length_zip] at hlt
    have hnodes : position < unit.nodes.length := Nat.lt_of_lt_of_le hlt (Nat.min_le_right ..)
    omega
  refine ⟨unit.scopes[position], List.mem_iff_getElem.2 ⟨position, ?_, ?_⟩⟩
  · rw [List.length_zip]
    exact Nat.lt_min.2 ⟨hlt, hscope⟩
  · rw [List.getElem_zip]
    exact Prod.ext hget rfl

/-! ## Writing findings down -/

lemma map_fst_zip_sublist {α β : Type} (xs : List α) (ys : List β) :
    ((xs.zip ys).map Prod.fst).Sublist xs := by
  induction xs generalizing ys with
  | nil => simp
  | cons x xs ih =>
    cases ys with
    | nil => simp
    | cons y ys => simpa using ih ys

/-- Only one element of a list contributes, the one with a given key. -/
lemma flatMap_eq_of_key {α β κ : Type} {xs : List α} {key : α → κ} (hnodup : (xs.map key).Nodup)
    {f : α → List β} {x : α} (hx : x ∈ xs) (hf : ∀ y ∈ xs, key y ≠ key x → f y = []) :
    xs.flatMap f = f x := by
  induction xs with
  | nil => simp at hx
  | cons y ys ih =>
    obtain ⟨hfresh, hnodup⟩ := List.nodup_cons.1 hnodup
    rw [List.flatMap_cons]
    rcases List.mem_cons.1 hx with rfl | hx
    · rw [List.flatMap_eq_nil_iff.2, List.append_nil]
      intro z hz
      refine hf z (List.mem_cons_of_mem _ hz) fun heq => hfresh ?_
      exact heq ▸ List.mem_map_of_mem hz
    · rw [hf y (List.mem_cons_self ..) ?_, List.nil_append]
      · exact ih hnodup hx fun z hz => hf z (List.mem_cons_of_mem _ hz)
      · exact fun heq => hfresh (heq ▸ List.mem_map_of_mem hx)

namespace LibrarySet

variable {set : LibrarySet}

/-- Updates change the entry of a slot by those among them that have their seat there. -/
lemma slot?_updates (hid : set.Identified) (updates : List Update) (library : LibraryId)
    (category : Category) (index : Nat) :
    (updates.foldl Update.apply set).slot? library category index
      = (set.slot? library category index).map fun entry => entry.revise (updates.filter
          fun update => update.target.library = library ∧
          update.target.seat = (category, index)) := by
  induction updates generalizing set with
  | nil =>
    rw [List.foldl_nil, List.filter_nil]
    exact (Option.map_id' ..).symm
  | cons update rest ih =>
    have hid' : (update.apply set).Identified := by
      rw [Update.apply_eq]
      exact hid.edit _ _
    rw [List.foldl_cons, ih hid', Update.apply_eq, slot?_edit hid, List.filter_cons]
    split
    · next hseat =>
      rw [if_pos (by simpa using hseat), Option.map_map]
      rfl
    · next hseat => rw [if_neg (by simpa using hseat)]

end LibrarySet

namespace Linkage

variable {state : Linkage} {others : List SourceUnit}

lemma reports_apply (state : Linkage) (found : Findings) :
    (state.apply found).unit.diagnostics.link
      = state.unit.diagnostics.link ++ found.diagnostics := by
  obtain ⟨unit, hunit, h⟩ := state.apply_unit found
    (P := fun unit => unit.diagnostics = state.unit.diagnostics) rfl (fun _ h => h) (fun h => h)
  rw [hunit, ← h]
  rfl

/-- Writing findings down revises an entry, and leaves traces in it at most. -/
lemma exists_revised (hid : state.libraries.Identified) (found : Findings)
    {library : LibraryId} {category : Category} {index : Nat} {entry : Entry}
    (hslot : state.libraries.slot? library category index = some entry) :
    ∃ entry', (state.apply found).libraries.slot? library category index = some entry' ∧
      entry'.body.core = (entry.revise (found.updates.filter fun update =>
        update.target.library = library ∧ update.target.seat = (category, index))).body.core := by
  have hslot' := LibrarySet.slot?_updates hid found.updates library category index
  have hid' : (found.updates.foldl Update.apply state.libraries).Identified := by
    have hcores : LibrarySet.SameCores (fun _ => True) state.libraries
        (found.updates.foldl Update.apply state.libraries) := by
      refine LibrarySet.SameCores.foldl found.updates (fun set hset update _ => ?_) hid
      rw [Update.apply_eq]
      exact LibrarySet.sameCores_edit_own hset _ trivial
    exact hcores.identified
  have htraces := (@sameCores_traces state (fun _ => False) found hid').cores library category index
    (fun h => h)
  rw [hslot, Option.map_some] at hslot'
  rw [LibrarySet.core?, LibrarySet.core?, hslot', Option.map_some] at htraces
  obtain ⟨entry', hentry', hcore⟩ := Option.map_eq_some_iff.1 htraces
  exact ⟨entry', hentry', congrArg Symbol.body hcore⟩

/-- A pass visits each declaration of its document once. -/
lemma nodup_linked (settled : state.libraries.Settled (state.unit :: others)) :
    (((state.unit.declarations.zip state.unit.nodes).zip state.unit.scopes).map
      fun triple => triple.1.1).Nodup := by
  have hsub := ((map_fst_zip_sublist _ state.unit.scopes).map Prod.fst).trans
    (map_fst_zip_sublist state.unit.declarations state.unit.nodes)
  rw [List.map_map] at hsub
  exact hsub.nodup (settled.nodup_declarations (List.mem_cons_self ..))

/-- Of all updates that a pass finds, those with their seat at a declaration are those that it finds
for it. -/
lemma filter_found (settled : state.libraries.Settled (state.unit :: others))
    (options : LinkOptions) {find : Context → DeclId → DeclNode → Findings}
    (hfind : ∀ (ctx : Context) (id : DeclId) (node : DeclNode), ctx.libraries = state.libraries →
      id.define = none → id.category = node.category →
      ∀ update ∈ (find ctx id node).updates, update.target.holder = id)
    {id : DeclId} {node : DeclNode} {scope : DeclScope}
    (hmem : ((id, node), scope) ∈ (state.unit.declarations.zip state.unit.nodes).zip
      state.unit.scopes) :
    (state.found options find).updates.filter (fun update => update.target.library = id.library ∧
        update.target.seat = (id.category, id.index))
      = (find (state.context options scope) id node).updates := by
  -- The target of an update lies in the declaration for which it was found, and its seat tells
  -- which one this is.
  have hseat : ∀ {id node scope}, ((id, node), scope) ∈ (state.unit.declarations.zip
      state.unit.nodes).zip state.unit.scopes → id.define = none ∧
      ∀ update ∈ (find (state.context options scope) id node).updates,
        id = ⟨update.target.library, update.target.seat.1, update.target.seat.2, none⟩ := by
    intro id node scope hmem
    obtain ⟨hcategory, hdefine, -⟩ := settled.paired (List.mem_cons_self ..)
      (List.of_mem_zip hmem).1
    refine ⟨hdefine, fun update hupdate => ?_⟩
    have hholder := hfind _ id node rfl hdefine hcategory update hupdate
    rw [← DeclId.holder_eq (by rw [hholder, hdefine]), hholder]
  rw [found, Findings.updates_join, List.filter_flatMap, List.flatMap_map]
  refine (flatMap_eq_of_key (nodup_linked settled) hmem ?_).trans ?_
  · rintro ⟨⟨other, node'⟩, scope'⟩ hother hne
    refine List.filter_eq_nil_iff.2 fun update hupdate hkey => hne ?_
    obtain ⟨hlibrary, hposition⟩ : update.target.library = id.library ∧
      update.target.seat = (id.category, id.index) := by simpa using hkey
    show other = id
    rw [(hseat hother).2 update hupdate, hlibrary, hposition, ← (hseat hmem).1]
  · refine List.filter_eq_self.2 fun update hupdate => ?_
    have hid := (hseat hmem).2 update hupdate
    simp only [decide_eq_true_eq]
    rw [hid]
    exact ⟨rfl, rfl⟩

/-- A pass takes the records of its document from one stage to the next, if it does so for a record
that is revised as found. -/
lemma reaches_linkEach (settled : state.libraries.Settled (state.unit :: others))
    (hid : state.libraries.Identified) (options : LinkOptions)
    {find : Context → DeclId → DeclNode → Findings}
    (hfind : ∀ (ctx : Context) (id : DeclId) (node : DeclNode), ctx.libraries = state.libraries →
      id.define = none → id.category = node.category →
      ∀ update ∈ (find ctx id node).updates, update.target.holder = id)
    (hlive : ∀ {target}, state.libraries.Live target →
      (state.linkEach options find).libraries.Live target)
    (hscopes : state.unit.scopes.length = state.unit.nodes.length)
    {E E' : LibrarySet → List Diagnostic → DeclNode → Body → Prop} (durable : Durable E')
    (reaches : state.unit.Reaches E state.libraries)
    (hstep : ∀ (ctx : Context) (id : DeclId) (node : DeclNode) (entry : Entry)
      (reports : List Diagnostic), ctx.libraries = state.libraries → id.define = none →
      id.category = node.category → node ∈ state.unit.nodes →
      state.libraries.slot? id.library id.category id.index = some entry →
      (∀ d ∈ state.unit.diagnostics.link, d ∈ reports) →
      (∀ d ∈ (find ctx id node).diagnostics, d ∈ reports) →
      E state.libraries state.unit.diagnostics.link node entry.body →
      E' state.libraries reports node (entry.revise (find ctx id node).updates).body) :
    (state.linkEach options find).unit.Reaches E' (state.linkEach options find).libraries := by
  intro id node hpair
  have hskeleton : (state.linkEach options find).unit.skeleton = state.unit.skeleton := by
    rw [linkEach_eq]
    exact (sameSkeleton_apply state _).2
  rw [SourceUnit.declarations_of_skeleton_eq hskeleton, SourceUnit.nodes,
    SourceUnit.tree_of_skeleton_eq hskeleton] at hpair
  obtain ⟨hcategory, hdefine, -, -, hnode⟩ := settled.paired (List.mem_cons_self ..) hpair
  obtain ⟨entry, hslot, hentry⟩ := reaches id node hpair
  obtain ⟨scope, hscope⟩ := SourceUnit.exists_scope hscopes hpair
  obtain ⟨entry', hslot', hcore⟩ := exists_revised hid (state.found options find) hslot
  rw [filter_found settled options hfind hscope] at hcore
  refine ⟨entry', hslot', ?_⟩
  -- The new stage holds of the record as revised by its own updates, and lasts through the rest of
  -- what is written.
  refine durable.keep hlive (fun _ h => h) hcore (hstep _ id node entry _ rfl hdefine hcategory
    hnode hslot ?_ ?_ hentry)
  · intro d hd
    rw [linkEach_eq, reports_apply]
    exact List.mem_append_left _ hd
  · intro d hd
    rw [linkEach_eq, reports_apply, found, Findings.diagnostics_join, List.flatMap_map]
    exact List.mem_append_right _ (List.mem_flatMap_of_mem hscope hd)

lemma holder_of_bases {ctx : Context} (legible : ctx.libraries.Legible) {id : DeclId}
    {node : DeclNode} (hcategory : id.category = node.category) :
    ∀ update ∈ (LinkBases.findings ctx id node).updates, update.target.holder = id := by
  intro update hupdate
  have hfound := @LinkBases.among_findings ctx (fun _ => True) [id] ctx.among_everywhere legible id
    (List.mem_singleton_self id) (DeclId.owner?_of_top (by rw [hcategory]; simp)) node
    (fun _ _ _ _ _ _ _ _ => trivial)
  exact List.mem_singleton.1 (hfound.updates hupdate).2.1

lemma holder_of_signatures {ctx : Context} (legible : ctx.libraries.Legible) {id : DeclId}
    (hdefine : id.define = none) {node : DeclNode} (hcategory : id.category = node.category) :
    ∀ update ∈ (LinkSignatures.findings ctx id node).updates, update.target.holder = id := by
  intro update hupdate
  have hfound := @LinkSignatures.among_findings ctx (fun _ => True) [id] ctx.among_everywhere
    legible id (List.mem_singleton_self id) hdefine node hcategory trivial
    (fun _ _ _ _ _ _ _ _ => trivial)
  exact List.mem_singleton.1 (hfound.updates hupdate).2.1

lemma Booked.reaches_linkBases (booked : state.Booked others) (options : LinkOptions)
    (hscopes : state.unit.scopes.length = state.unit.nodes.length)
    (hpaths : ∀ ref ∈ state.unit.tree.types, ref.path ≠ [])
    (reaches : state.unit.Reaches (fun _ _ => DeclNode.Meets .form) state.libraries) :
    (state.linkBases options).unit.Reaches (fun set reports => DeclNode.Meets (.based set reports))
      (state.linkBases options).libraries := by
  refine reaches_linkEach booked.settled booked.books.orderly.identified options
    (fun ctx id node hset _ hcategory => ?_) (keeps_linkBases booked options).live hscopes
      durable_based reaches ?_
  · exact holder_of_bases (hset ▸ booked.books.legible) hcategory
  · intro ctx id node entry reports hset _ hcategory hnode _ _ hsub hentry
    have htop : id.owner? = none := DeclId.owner?_of_top (by rw [hcategory]; simp)
    have hbased := @LinkBases.based_revise ctx (hset ▸ booked.books.legible) id htop node
      (fun ref href => hpaths ref (List.mem_flatMap.2 ⟨node, hnode, href⟩)) entry hentry
    exact durable_based.keep (fun h => hset ▸ h) hsub rfl hbased

lemma Booked.reaches_linkSignatures (booked : state.Booked others) (options : LinkOptions)
    (hscopes : state.unit.scopes.length = state.unit.nodes.length)
    (hpaths : ∀ ref ∈ state.unit.tree.types, ref.path ≠ [])
    (reaches : state.unit.Reaches (fun set reports => DeclNode.Meets (.based set reports))
      state.libraries) :
    (state.linkSignatures options).unit.Reaches DeclNode.Realized
      (state.linkSignatures options).libraries := by
  refine reaches_linkEach booked.settled booked.books.orderly.identified options
    (fun ctx id node hset hdefine hcategory => ?_) (keeps_linkSignatures booked options).live
      hscopes durable_realized reaches ?_
  · exact holder_of_signatures (hset ▸ booked.books.legible) hdefine hcategory
  · intro ctx id node entry reports hset hdefine hcategory hnode hslot hold hsub hentry
    rw [← hset] at hslot hentry ⊢
    refine LinkSignatures.realized_revise (hset ▸ booked.books.legible) hdefine hslot
      (DeclId.owner?_of_top (by rw [hcategory]; simp))
      (fun ref href => hpaths ref (List.mem_flatMap.2 ⟨node, hnode, href⟩)) hsub ?_
    exact durable_based.keep (fun h => h) hold rfl hentry

/-! ### Import directives -/

lemma Booked.reaches_linkImports (booked : state.Booked others)
    {E : LibrarySet → List Diagnostic → DeclNode → Body → Prop} (durable : Durable E)
    (reaches : state.unit.Reaches E state.libraries) :
    state.linkImports.unit.Reaches E state.linkImports.libraries := by
  have keeps := keeps_linkImports booked
  have hnone : ∀ update, update ∉ state.imported.2.updates := by
    intro update hupdate
    obtain ⟨-, hmem, -⟩ := (@LinkImports.among_block _ (fun _ => True) _ booked.books.legible
      trivial trivial state.unit.path [] Arena.root _ (fun _ _ => trivial) state.unit.tree.root
      fun _ _ _ _ => trivial).1.updates hupdate
    simp at hmem
  have hcores : LibrarySet.SameCores (fun _ => False) state.libraries
      state.linkImports.libraries := by
    rw [linkImports_eq booked.settled]
    exact @Linkage.sameCores_apply ⟨state.libraries, { state.unit with scopes := state.imported.1 }⟩
      _ booked.books.orderly.identified _ fun update h => absurd h (hnone update)
  refine reaches.of_sameCores durable hcores (fun _ _ h => h) keeps.live
    keeps.becomes.skeleton_eq ?_
  intro d hd
  rw [linkImports_eq booked.settled, reports_apply]
  exact List.mem_append_left _ hd

lemma length_scopes (arranged : state.libraries.Arranged (state.unit :: others)) :
    state.linkImports.unit.scopes.length = state.linkImports.unit.nodes.length := by
  have hskeleton := (sameSkeleton_linkImports state).2
  rw [SourceUnit.nodes, SourceUnit.tree_of_skeleton_eq hskeleton, linkImports_eq arranged.settled,
    scopes_apply]
  obtain ⟨lib, hlib⟩ := arranged.settled.loaded (List.mem_cons_self ..)
  have aligned := arranged.settled.aligned (List.mem_cons_self ..) hlib
  have follows := aligned.follows (arranged.legible.coherent hlib).tree hlib
  exact follows.length_eq.trans (SpaceNode.length_nested _)

/-! ### Members -/

lemma slot?_declareFor_of_ne (hid : state.libraries.Identified) {declared : DeclId × DeclNode}
    {id : DeclId} (htop : declared.1.define = none ∧ declared.1.category.isMember = false)
    (hdefine : id.define = none) (hne : declared.1 ≠ id) :
    (LinkMembers.declareFor state declared).libraries.slot? id.library id.category id.index
      = state.libraries.slot? id.library id.category id.index := by
  obtain ⟨target, node⟩ := declared
  simp only [LinkMembers.declareFor]
  split
  · rfl
  · rw [LibrarySet.slot?_edit hid, if_neg]
    rw [DeclId.seat_of_top htop.2]
    rintro ⟨hlibrary, hseat⟩
    obtain ⟨hcategory, hindex⟩ := Prod.mk.inj hseat
    obtain ⟨_, _, _, _⟩ := target
    obtain ⟨_, _, _, _⟩ := id
    simp_all

/-- Declaring members changes the entry of each declaration once. -/
lemma slot?_declareAll (pairs : List (DeclId × DeclNode)) (hid : state.libraries.Identified)
    (hnodup : (pairs.map Prod.fst).Nodup)
    (htop : ∀ pair ∈ pairs, pair.1.define = none ∧ pair.1.category.isMember = false)
    {id : DeclId} {node : DeclNode} (hpair : (id, node) ∈ pairs) {entry : Entry}
    (hslot : state.libraries.slot? id.library id.category id.index = some entry) :
    (pairs.foldl LinkMembers.declareFor state).libraries.slot? id.library id.category id.index
      = some (entry.map fun body =>
        (node.memberNodes.map (LinkMembers.member state.unit.path id entry)).foldl
          (fun body m => LinkMembers.addMember m body) body) := by
  have hidentified (state : Linkage) (hid : state.libraries.Identified)
      (declared : DeclId × DeclNode) :
      (LinkMembers.declareFor state declared).libraries.Identified :=
    (@sameCores_declareFor state (fun _ => True) hid declared trivial).identified
  -- Once a declaration has had its turn, the others leave it alone.
  have hrest : ∀ (rest : List (DeclId × DeclNode)) (state : Linkage),
      state.libraries.Identified → id ∉ rest.map Prod.fst →
      (∀ pair ∈ rest, pair.1.define = none ∧ pair.1.category.isMember = false) →
      (rest.foldl LinkMembers.declareFor state).libraries.slot? id.library id.category id.index
        = state.libraries.slot? id.library id.category id.index := by
    intro rest
    induction rest with
    | nil => exact fun _ _ _ _ => rfl
    | cons pair rest ih =>
      intro state hid hfresh hrest
      obtain ⟨hne, hfresh⟩ := not_or.1 (mt List.mem_cons.2 hfresh)
      rw [List.foldl_cons, ih _ (hidentified state hid pair) hfresh
        fun other hother => hrest other (List.mem_cons_of_mem _ hother)]
      exact slot?_declareFor_of_ne hid (hrest pair (List.mem_cons_self ..)) (htop _ hpair).1
        (Ne.symm hne)
  induction pairs generalizing state with
  | nil => simp at hpair
  | cons first rest ih =>
    obtain ⟨hfresh, hnodup⟩ := List.nodup_cons.1 hnodup
    rw [List.foldl_cons]
    rcases List.mem_cons.1 hpair with rfl | hpair
    · have howner := DeclId.owner?_of_top (htop _ (List.mem_cons_self ..)).2
      have hseat := DeclId.seat_of_top (htop _ (List.mem_cons_self ..)).2
      have hfind : state.libraries.find? id = some entry := by
        rw [LibrarySet.find?_eq hid, hseat, hslot, Option.bind_some, DeclId.part?, howner]
      rw [hrest rest _ (hidentified state hid _) hfresh
        fun other hother => htop other (List.mem_cons_of_mem _ hother)]
      simp only [LinkMembers.declareFor, hfind]
      rw [LibrarySet.slot?_edit hid, if_pos ⟨rfl, hseat⟩, hslot,
        Option.map_some, Edit.atSeat, howner]
      rfl
    · have hpath : (LinkMembers.declareFor state first).unit.path = state.unit.path :=
        congrArg (fun unit => unit.path) (sameSkeleton_declareFor state first).2
      rw [← hpath]
      refine ih (hidentified state hid first) hnodup
        (fun other hother => htop other (List.mem_cons_of_mem _ hother)) hpair ?_
      rw [slot?_declareFor_of_ne hid (htop first (List.mem_cons_self ..))
        (htop _ (List.mem_cons_of_mem _ hpair)).1 ?_, hslot]
      rintro rfl
      exact hfresh (List.mem_map.2 ⟨_, hpair, rfl⟩)

lemma slot?_declareMembers (settled : state.libraries.Settled (state.unit :: others))
    (hid : state.libraries.Identified) {id : DeclId} {node : DeclNode}
    (hpair : (id, node) ∈ state.unit.declarations.zip state.unit.nodes) {entry : Entry}
    (hslot : state.libraries.slot? id.library id.category id.index = some entry) :
    state.declareMembers.libraries.slot? id.library id.category id.index
      = some (entry.map fun body =>
        (node.memberNodes.map (LinkMembers.member state.unit.path id entry)).foldl
          (fun body m => LinkMembers.addMember m body) body) := by
  have hnodup := (map_fst_zip_sublist state.unit.declarations state.unit.nodes).nodup
    (settled.nodup_declarations (List.mem_cons_self ..))
  refine slot?_declareAll _ hid hnodup ?_ hpair hslot
  rintro ⟨id, node⟩ hmem
  obtain ⟨hcategory, hdefine, -⟩ := settled.paired (List.mem_cons_self ..) hmem
  exact ⟨hdefine, by rw [hcategory]; simp⟩

lemma Booked.reaches_declareMembers (booked : state.Booked others)
    (undeclared : state.unit.Undeclared)
    (reaches : state.unit.Reaches (fun _ _ node body => body.core = Body.fresh node.category)
      state.libraries) :
    state.declareMembers.unit.Reaches (fun _ _ => DeclNode.Meets .form)
      state.declareMembers.libraries := by
  intro id node hpair
  have hskeleton := (keeps_declareMembers booked undeclared).becomes.skeleton_eq
  rw [SourceUnit.declarations_of_skeleton_eq hskeleton, SourceUnit.nodes,
    SourceUnit.tree_of_skeleton_eq hskeleton] at hpair
  obtain ⟨entry, hslot, hblank⟩ := reaches id node hpair
  have hslot' := slot?_declareMembers booked.settled booked.books.orderly.identified hpair hslot
  exact ⟨_, hslot', DeclNode.form_declared hblank state.unit.path id entry⟩

end Linkage

/-! ## Declared members -/

/-- What linking declares in the document are members of its declarations. -/
def SourceUnit.Declared (unit : SourceUnit) : Prop :=
  ∀ occurrence ∈ unit.occurrences, occurrence.linked = true → occurrence.definition = true →
    ∃ id node m, (id, node) ∈ unit.declarations.zip unit.nodes ∧ m ∈ node.memberNodes ∧
      occurrence.target = .declaration (LinkMembers.memberId id m)

lemma SourceUnit.Undeclared.declared {unit : SourceUnit} (undeclared : unit.Undeclared) :
    unit.Declared := by
  intro occurrence hoccurrence hlinked hdefinition
  rw [undeclared occurrence hoccurrence hlinked] at hdefinition
  cases hdefinition

/-- A record with the form of its node has a member for each member of the node. -/
lemma DeclNode.Meets.exists_member {asked : Criteria} {node : DeclNode} {body : Body}
    (h : node.Meets asked body) {m : MemberNode} (hm : m ∈ node.memberNodes) :
    ∃ list, body.members? m.category = some list ∧ m.position < list.length := by
  have hlist {α : Type} {category : Category} {name : α → Ident} {visibility : α → Visibility}
      {P : α → Leaf → Prop} {nodes : List α} {list : List Member}
      (hlist : Members name P nodes list) (hbody : body.members? category = some list)
      (hm : m ∈ membersOf category name visibility nodes) :
      ∃ list, body.members? m.category = some list ∧ m.position < list.length := by
    obtain ⟨⟨node, position⟩, hmem, rfl⟩ := List.mem_map.1 hm
    refine ⟨list, hbody, ?_⟩
    rw [← hlist.length_eq]
    exact List.snd_lt_of_mem_zipIdx hmem
  cases node <;> cases body <;> try exact h.elim
  case enum.enum node elements =>
    have helements : Members (fun element => element) (fun _ part => part = .element)
      node.elements elements := h
    rw [memberNodes] at hm
    exact hlist helements rfl hm
  case struct.struct node fields functions =>
    rcases List.mem_append.1 hm with hm | hm
    · exact hlist h.1 rfl hm
    · exact hlist h.2 rfl hm
  case interface.interface node info =>
    rw [memberNodes] at hm
    exact hlist h.1 rfl hm
  case class.class node info =>
    rcases List.mem_append.1 hm with hm | hm
    · rcases List.mem_append.1 hm with hm | hm
      · exact hlist h.1 rfl hm
      · exact hlist h.2.1 rfl hm
    · exact hlist h.2.2.1 rfl hm
  all_goals simp [memberNodes] at hm

namespace Linkage

variable {state : Linkage} {others : List SourceUnit}

lemma declared_of_sub {unit unit' : SourceUnit} (declared : unit.Declared)
    (hskeleton : unit'.skeleton = unit.skeleton)
    (hsub : ∀ occurrence ∈ unit'.occurrences, occurrence.linked = true →
      occurrence.definition = true → occurrence ∈ unit.occurrences ∨
        ∃ id node m, (id, node) ∈ unit.declarations.zip unit.nodes ∧ m ∈ node.memberNodes ∧
          occurrence.target = .declaration (LinkMembers.memberId id m)) : unit'.Declared := by
  intro occurrence hoccurrence hlinked hdefinition
  rw [SourceUnit.declarations_of_skeleton_eq hskeleton, SourceUnit.nodes,
    SourceUnit.tree_of_skeleton_eq hskeleton]
  rcases hsub occurrence hoccurrence hlinked hdefinition with hold | hnew
  · exact declared occurrence hold hlinked hdefinition
  · exact hnew

lemma declared_apply (declared : state.unit.Declared) (found : Findings) :
    (state.apply found).unit.Declared := by
  refine declared_of_sub declared (sameSkeleton_apply state found).2 ?_
  obtain ⟨unit, hunit, h⟩ := state.apply_unit found
    (P := fun unit => ∀ occurrence ∈ unit.occurrences, occurrence.definition = true →
      occurrence ∈ state.unit.occurrences)
    (fun _ h _ => h)
    (fun _ h occurrence hoccurrence hdefinition => by
      rcases List.mem_append.1 hoccurrence with hold | hnew
      · exact h occurrence hold hdefinition
      · rw [List.mem_singleton.1 hnew] at hdefinition
        cases hdefinition)
    (fun h => h)
  rw [hunit]
  exact fun occurrence hoccurrence _ hdefinition => Or.inl (h occurrence hoccurrence hdefinition)

/-- The names that declaring members adds are those of members. -/
lemma occurrences_declareMembers (state : Linkage) :
    ∀ occurrence ∈ state.declareMembers.unit.occurrences, occurrence ∈ state.unit.occurrences ∨
      ∃ id node m, (id, node) ∈ state.unit.declarations.zip state.unit.nodes ∧
        m ∈ node.memberNodes ∧ occurrence.target = .declaration (LinkMembers.memberId id m) := by
  have hall : ∀ (pairs : List (DeclId × DeclNode)) (state : Linkage),
      ∀ occurrence ∈ (pairs.foldl LinkMembers.declareFor state).unit.occurrences,
        occurrence ∈ state.unit.occurrences ∨
        ∃ id node m, (id, node) ∈ pairs ∧ m ∈ node.memberNodes ∧
          occurrence.target = .declaration (LinkMembers.memberId id m) := by
    intro pairs
    induction pairs with
    | nil => exact fun _ _ h => Or.inl h
    | cons pair rest ih =>
      intro state occurrence hoccurrence
      rcases ih _ occurrence hoccurrence with hold | ⟨id, node, m, hpair, hm⟩
      · obtain ⟨id, node⟩ := pair
        simp only [LinkMembers.declareFor] at hold
        split at hold
        · exact Or.inl hold
        · rcases List.mem_append.1 hold with hold | hnew
          · exact Or.inl hold
          · obtain ⟨member, hmember, rfl⟩ := List.mem_map.1 hnew
            obtain ⟨m, hm, rfl⟩ := List.mem_map.1 hmember
            exact Or.inr ⟨id, node, m, List.mem_cons_self .., hm, rfl⟩
      · exact Or.inr ⟨id, node, m, List.mem_cons_of_mem _ hpair, hm⟩
  exact hall _ state

lemma declared_declareMembers (declared : state.unit.Declared) :
    state.declareMembers.unit.Declared :=
  declared_of_sub declared (sameSkeleton_declareMembers state).2
    fun occurrence hoccurrence _ _ => state.occurrences_declareMembers occurrence hoccurrence

/-- A pass over a document leaves the records of others where they are. -/
lemma Booked.reaches_other (booked : state.Booked others) {after : Linkage}
    (keeps : Keeps others state after)
    (cores : LibrarySet.SameCores (· ∈ state.unit.declarations) state.libraries after.libraries)
    {other : SourceUnit} (hother : other ∈ others)
    {E : LibrarySet → List Diagnostic → DeclNode → Body → Prop} (durable : Durable E)
    (reaches : other.Reaches E state.libraries) : other.Reaches E after.libraries := by
  refine reaches.of_sameCores durable cores ?_ keeps.live rfl fun _ h => h
  intro id hid hmine
  obtain ⟨hid', -⟩ := booked.settled.declared (List.mem_cons_of_mem _ hother) hid
  have hlibrary : id.library = other.library := congrArg DeclId.library hid'
  rw [hlibrary, ← hid'] at hmine
  exact booked.settled.disjoint hother hmine hid

end Linkage

/-! ## Groups of documents -/

/-- What the passes ask of a document: its types have names, what is declared in it are members,
and each of its declarations has a scope. -/
structure SourceUnit.Ready (unit : SourceUnit) : Prop where
  named : ∀ ref ∈ unit.tree.types, ref.path ≠ []
  declared : unit.Declared
  scopes : unit.scopes.length = unit.nodes.length

lemma SourceUnit.Ready.of_skeleton_eq {unit unit' : SourceUnit} (ready : unit.Ready)
    (hskeleton : unit'.skeleton = unit.skeleton) (declared : unit'.Declared)
    (hscopes : unit'.scopes = unit.scopes) : unit'.Ready where
  named := by
    rw [tree_of_skeleton_eq hskeleton]
    exact ready.named
  declared := declared
  scopes := by
    rw [hscopes, nodes, tree_of_skeleton_eq hskeleton]
    exact ready.scopes

namespace Linkages

/-- One pass over documents that have all reached a stage takes them to the next. -/
lemma Booked.each_stage (pass : Linkage → Linkage) (Q Q' : SourceUnit → Prop)
    {E E' : LibrarySet → List Diagnostic → DeclNode → Body → Prop} (durable : Durable E)
    (durable' : Durable E')
    (hstep : ∀ {state : Linkage} {others}, state.Booked others → Q state.unit →
      state.unit.Reaches E state.libraries → Linkage.Keeps others state (pass state) ∧
        LibrarySet.SameCores (· ∈ state.unit.declarations) state.libraries (pass state).libraries ∧
        Q' (pass state).unit ∧ (pass state).unit.Reaches E' (pass state).libraries)
    {set : LibrarySet} {units others : List SourceUnit} (booked : Booked set (units ++ others))
    (hunits : ∀ unit ∈ units, Q unit ∧ unit.Reaches E set) :
    Booked (each pass set units).libraries ((each pass set units).units ++ others) ∧
      ∀ unit ∈ (each pass set units).units,
        Q' unit ∧ unit.Reaches E' (each pass set units).libraries := by
  have hall := each_established pass Booked (fun set unit => Q unit ∧ unit.Reaches E set)
    (fun set unit => Q' unit ∧ unit.Reaches E' set) Booked.perm (fun {set unit others} h hunit => by
      have hstate : Linkage.Booked ⟨set, unit⟩ others := ⟨h.1, h.2⟩
      obtain ⟨keeps, cores, hQ', hreaches⟩ := hstep hstate hunit.1 hunit.2
      refine ⟨⟨keeps.booked.books, keeps.booked.anchored⟩, ⟨hQ', hreaches⟩, fun other hother => ?_⟩
      exact ⟨fun h => ⟨h.1, hstate.reaches_other keeps cores hother durable h.2⟩,
        fun h => ⟨h.1, hstate.reaches_other keeps cores hother durable' h.2⟩⟩) booked hunits
  exact ⟨hall.1, hall.2.1⟩

/-- Linking documents whose records are blank realizes all of their records. -/
theorem Booked.realized_link {set : LibrarySet} {batch others : List SourceUnit}
    (booked : Booked set (batch ++ others)) (options : LinkOptions)
    (hbatch : ∀ unit ∈ batch, unit.Undeclared ∧ (∀ ref ∈ unit.tree.types, ref.path ≠ []) ∧
      unit.Reaches (fun _ _ node body => body.core = Body.fresh node.category) set) :
    ∀ unit ∈ (Linkages.link ⟨set, batch⟩ options).units, unit.Declared ∧
      unit.Reaches DeclNode.Realized (Linkages.link ⟨set, batch⟩ options).libraries := by
  -- Stages of the records around the four passes: blank, formed, based, realized.
  obtain ⟨booked₁, h₁⟩ := booked.each_stage Linkage.linkImports
    (fun unit => unit.Undeclared ∧ ∀ ref ∈ unit.tree.types, ref.path ≠ [])
    (fun unit => unit.Undeclared ∧ unit.Ready) durable_blank durable_blank
    (fun {state others} booked h reaches => by
      have keeps := Linkage.keeps_linkImports booked
      have undeclared := Linkage.undeclared_linkImports h.1
      refine ⟨keeps, booked.sameCores_linkImports, ⟨undeclared, ?_, undeclared.declared,
        Linkage.length_scopes booked.arranged⟩, booked.reaches_linkImports durable_blank reaches⟩
      rw [SourceUnit.tree_of_skeleton_eq keeps.becomes.skeleton_eq]
      exact h.2) fun unit hunit => ⟨⟨(hbatch unit hunit).1, (hbatch unit hunit).2.1⟩,
        (hbatch unit hunit).2.2⟩
  obtain ⟨booked₂, h₂⟩ := booked₁.each_stage Linkage.declareMembers
    (fun unit => unit.Undeclared ∧ unit.Ready) SourceUnit.Ready durable_blank durable_form
    (fun {state others} booked h reaches => by
      have keeps := Linkage.keeps_declareMembers booked h.1
      exact ⟨keeps, booked.sameCores_declareMembers, h.2.of_skeleton_eq keeps.becomes.skeleton_eq
        (Linkage.declared_declareMembers h.2.declared) state.linked_declareMembers.1,
        booked.reaches_declareMembers h.1 reaches⟩) h₁
  obtain ⟨booked₃, h₃⟩ := booked₂.each_stage (·.linkBases options) SourceUnit.Ready
    SourceUnit.Ready durable_form durable_based (fun {state others} booked ready reaches => by
      have keeps := Linkage.keeps_linkBases booked options
      exact ⟨keeps, booked.sameCores_apply ((Linkage.among_everywhere state).foundBases
        booked.arranged options),
        ready.of_skeleton_eq keeps.becomes.skeleton_eq (Linkage.declared_apply ready.declared _)
          (Linkage.scopes_apply ..),
        booked.reaches_linkBases options ready.scopes ready.named reaches⟩) h₂
  obtain ⟨-, h₄⟩ := booked₃.each_stage (·.linkSignatures options) SourceUnit.Ready
    SourceUnit.Ready durable_based durable_realized (fun {state others} booked ready reaches => by
      have keeps := Linkage.keeps_linkSignatures booked options
      exact ⟨keeps,
        booked.sameCores_apply ((Linkage.among_everywhere state).foundSignatures
          booked.arranged options),
        ready.of_skeleton_eq keeps.becomes.skeleton_eq (Linkage.declared_apply ready.declared _)
          (Linkage.scopes_apply ..),
        booked.reaches_linkSignatures options ready.scopes ready.named reaches⟩) h₃
  exact fun unit hunit => ⟨(h₄ unit hunit).1.declared, (h₄ unit hunit).2⟩

end Linkages

end SymbolGraph
