import SymbolGraph.Proofs.Linking.DocumentOrder

/-!
# Copies of a model under other numbers

A document is *matched* under a renumbering by one with the same tree, with the same declarations
and scopes under the new numbers, and with reports that have the same marks (`SourceUnit.Matches`).
What a link pass finds for such documents in models with matching contents corresponds, and once it
has been written down on both sides, the contents match again (`Linkage.matches_apply`).

A model is *copied* by another one if it has the same contents under the new numbers, and for every
target the same references and heirs up to order (`LibrarySet.Copies`).  A document is copied by a
matching one that also has the same namespaces, occurrences and back-links (`SourceUnit.Copies`).
Copies stay copies, too (`Linkage.copies_apply`).
-/

namespace SymbolGraph

/-! ## Records and documents under other numbers -/

namespace Renumbering

variable (r : Renumbering)

def occurrence (occurrence : Occurrence) : Occurrence :=
  { occurrence with target := r.target occurrence.target }

def backLink : BackLink → BackLink
  | .reference target location => .reference (r.target target) location
  | .implementor base heir => .implementor (r.decl base) (r.decl heir)

lemma target_injective : Function.Injective r.target :=
  Function.LeftInverse.injective r.target_symm_target

lemma define_decl_eq_none_iff (id : DeclId) : (r.decl id).define = none ↔ id.define = none := by
  unfold decl
  split <;> simp

lemma proper_target (target : Target) : (r.target target).Proper ↔ target.Proper := by
  cases target with
  | space ref => exact Iff.rfl
  | declaration id =>
    have hsome : (r.decl id).define.isSome = id.define.isSome := by
      unfold decl
      split <;> simp
    simp only [Renumbering.target, Target.Proper, DeclId.Proper, hsome, r.category_decl]

lemma proper_decl (id : DeclId) : (r.decl id).Proper ↔ id.Proper :=
  r.proper_target (.declaration id)

lemma content_member (member : Member) : (r.member member).content = r.member member.content := rfl

lemma content_body (body : Body) : (r.body body).content = r.body body.content := by
  cases body <;> simp [Body.content, Renumbering.body, content_member, Function.comp_def]

lemma content_entry (entry : Entry) : (r.entry entry).content = r.entry entry.content := by
  simp [Entry.content, Renumbering.entry, Renumbering.symbol, Symbol.map, content_body]

end Renumbering

lemma Entry.shape_content (entry : Entry) : entry.content.shape = entry.shape := by
  rw [← Entry.shape_core, entry.core_content, Entry.shape_core]

/-- The marks of the reports of each phase. -/
def Diagnostics.marks (reports : Diagnostics) : Phase → List (Range × Severity × DiagnosticCode)
  | .tidy => reports.tidy.map Diagnostic.mark
  | .link => reports.link.map Diagnostic.mark
  | .check => reports.check.map Diagnostic.mark

lemma Diagnostics.marks_append {reports reports' : Diagnostics} (h : reports'.marks = reports.marks)
    (phase : Phase) {found found' : List Diagnostic}
    (hfound : found'.map Diagnostic.mark = found.map Diagnostic.mark) :
    (reports'.append phase found').marks = (reports.append phase found).marks := by
  funext other
  have hother := congrFun h other
  cases phase <;> cases other <;>
    simpa [marks, append, changePhase, hfound] using hother

/-- The document under the new numbers, as far as the contents of the model and the marks of reports
depend on it. -/
structure SourceUnit.Matches (r : Renumbering) (unit unit' : SourceUnit) : Prop where
  tree : unit'.tree = unit.tree
  library : unit'.library = r.library unit.library
  declarations : unit'.declarations = unit.declarations.map r.decl
  scopes : unit'.scopes = unit.scopes.map (r.scope unit.library)
  marks : unit'.diagnostics.marks = unit.diagnostics.marks

/-- The document under the new numbers. -/
structure SourceUnit.Copies (r : Renumbering) (unit unit' : SourceUnit) : Prop
    extends unit.Matches r unit' where
  spaces : unit'.spaces = unit.spaces.map (r.place unit.library)
  occurrences : unit'.occurrences = unit.occurrences.map r.occurrence
  links : unit'.links = unit.links.map r.backLink

lemma SourceUnit.Matches.path {r : Renumbering} {unit unit' : SourceUnit}
    (h : unit.Matches r unit') :
    unit'.path = unit.path := congrArg FileTree.path h.tree

lemma SourceUnit.Matches.nodes {r : Renumbering} {unit unit' : SourceUnit}
    (h : unit.Matches r unit') :
    unit'.nodes = unit.nodes := congrArg (fun tree : FileTree => tree.root.nodes) h.tree

/-- Whether namespaces match depends on their skeletons only. -/
lemma Namespace.rel_matches_of_skeleton_eq {r : Renumbering} {library : LibraryId}
    {before before' after after' : Option Namespace}
    (h : Option.Rel (Namespace.Matches r library) before before')
    (hold : after.map Namespace.skeleton = before.map Namespace.skeleton)
    (hold' : after'.map Namespace.skeleton = before'.map Namespace.skeleton) :
    Option.Rel (Namespace.Matches r library) after after' := by
  obtain ⟨rfl, rfl⟩ | ⟨space, space', rfl, rfl, matching⟩ := rel_cases h
  · rw [Option.map_none, Option.map_eq_none_iff] at hold hold'
    rw [hold, hold']
    exact .none
  · obtain ⟨now, rfl, heq⟩ := Option.map_eq_some_iff.1 hold
    obtain ⟨now', rfl, heq'⟩ := Option.map_eq_some_iff.1 hold'
    simp only [Namespace.skeleton, Namespace.mk.injEq] at heq heq'
    obtain ⟨hid, hparent, hname, hchildren, hgroups, -⟩ := heq
    obtain ⟨hid', hparent', hname', hchildren', hgroups', -⟩ := heq'
    refine .some ⟨?_, ?_, ?_, fun name => ?_, fun name => ?_⟩
    · rw [hid, hid', matching.id]
    · rw [hparent, hparent', matching.parent]
    · rw [hname, hname', matching.name]
    · rw [hchildren, hchildren', matching.child]
    · have hgroup : now.group name = space.group name := by rw [Namespace.group, hgroups]; rfl
      have hgroup' : now'.group name = space'.group name := by rw [Namespace.group, hgroups']; rfl
      rw [hgroup, hgroup']
      exact matching.group name

namespace LibrarySet

/-- The model under the new numbers, up to the order of references and heirs. -/
structure Copies (r : Renumbering) (set set' : LibrarySet) : Prop where
  contents : set.Matches Entry.content r .all set'
  citations : ∀ target : Target, target.Proper →
    set'.citations? (r.target target) = set.citations? target
  progeny : ∀ base : DeclId, base.define = none →
    set'.progeny? (r.decl base) = (set.heirs? base).map fun heirs =>
      Multiset.ofList (heirs.map r.decl)

variable {r : Renumbering} {area : Area} {v : Entry → Entry} {set set' after after' : LibrarySet}

/-- Matching depends on skeletons, and on what the view shows of records. -/
lemma Matches.congr (h : set.Matches v r area set') (hid : after.Identified)
    (hid' : after'.Identified)
    (hskeleton : after.skeleton = set.skeleton) (hskeleton' : after'.skeleton = set'.skeleton)
    (hslots : ∀ library category index, area.near library →
      (after'.slot? (r.library library) category (r.slot library category index)).map v
        = (after.slot? library category index).map fun entry => r.entry (v entry)) :
    after.Matches v r area after' := by
  have hloaded {set after : LibrarySet} (h : after.skeleton = set.skeleton) (library : LibraryId) :
      (after.get? library).isSome = (set.get? library).isSome := by
    have hget := congrArg (fun set => (set.get? library).isSome) h
    simpa [get?_skeleton] using hget
  have hspace {set after : LibrarySet} (h : after.skeleton = set.skeleton) (ref : SpaceRef) :
      (after.space? ref).map Namespace.skeleton = (set.space? ref).map Namespace.skeleton := by
    rw [← space?_skeleton, h, space?_skeleton]
  refine ⟨hid, hid', h.kernel, fun name hname library hlibrary => ?_, fun name hname => ?_,
    fun library hnear => ?_, fun ref hnear => ?_, h.root, hslots⟩
  · rw [named?, names_of_skeleton_eq hskeleton] at hlibrary
    exact h.near name hname library hlibrary
  · rw [named?, names_of_skeleton_eq hskeleton', named?, names_of_skeleton_eq hskeleton]
    exact h.names name hname
  · rw [hloaded hskeleton', hloaded hskeleton]
    exact h.loaded library hnear
  · exact Namespace.rel_matches_of_skeleton_eq (h.spaces ref hnear) (hspace hskeleton ref)
      (hspace hskeleton' (r.ref ref))

/-- An edit of contents and another that does the same to the corresponding record. -/
lemma Matches.edit_content (h : set.Matches Entry.content r area set') {id : DeclId}
    {edit edit' : Edit} (hkeeps : edit.KeepsHeader) (hkeeps' : edit'.KeepsHeader)
    (hcontents : edit.OnContents) (hcontents' : edit'.OnContents)
    (hedit : ∀ entry, set.slot? id.library id.seat.1 id.seat.2 = some entry →
      edit'.atSeat (r.decl id) (r.entry entry.content) = r.entry (edit.atSeat id entry.content)) :
    (set.edit id edit).Matches Entry.content r area (set'.edit (r.decl id) edit') := by
  refine h.congr (h.identified.edit id edit) (h.identified'.edit _ edit')
    (set.skeleton_edit id hkeeps)
    (set'.skeleton_edit _ hkeeps') fun library category index hnear => ?_
  -- A renumbering is injective on slots, so the edit falls on the copy of the slot only.
  have hseat : (r.decl id).library = r.library library ∧
      (r.decl id).seat = (category, r.slot library category index)
      ↔ id.library = library ∧ id.seat = (category, index) := by
    rw [r.library_decl, r.library.injective.eq_iff, r.seat_decl, Prod.mk.injEq, Prod.ext_iff]
    refine and_congr_right fun hlibrary => and_congr_right fun hcategory => ?_
    rw [hlibrary, hcategory]
    exact (Function.LeftInverse.injective (r.slot_symm_slot library category)).eq_iff
  have hslot := h.slots library category index hnear
  rw [slot?_edit h.identified', slot?_edit h.identified]
  simp only [hseat]
  split
  · next hkey =>
    obtain ⟨rfl, hid⟩ := hkey
    cases hentry : set.slot? id.library category index with
    | none =>
      rw [hentry, Option.map_none, Option.map_eq_none_iff] at hslot
      rw [hslot]
      rfl
    | some entry =>
      rw [hentry] at hslot
      obtain ⟨entry', hentry', heq⟩ := Option.map_eq_some_iff.1 hslot
      simp only [hentry', Option.map_some, hcontents'.atSeat, hcontents.atSeat, heq,
        hedit entry (by rw [hid, hentry])]
  · exact hslot

/-- Matching of contents depends on contents. -/
lemma Matches.of_contents_eq (h : set.Matches Entry.content r area set') (hid : after.Identified)
    (hid' : after'.Identified) (hset : after.contents = set.contents)
    (hset' : after'.contents = set'.contents) : after.Matches Entry.content r area after' := by
  refine h.congr hid hid' (skeleton_of_contents_eq hset) (skeleton_of_contents_eq hset')
    fun library category index hnear => ?_
  have hslot := congrArg (Option.map r.entry) (slot?_of_contents_eq hset library category index)
  simp only [Option.map_map] at hslot
  rw [slot?_of_contents_eq hset', h.slots _ _ _ hnear]
  exact hslot.symm

/-- Targets exist in both models. -/
lemma Matches.isSome_references? (h : set.Matches Entry.content r .all set') (target : Target) :
    (set'.references? (r.target target)).isSome = (set.references? target).isSome := by
  cases target with
  | declaration id =>
    have hshape : (set'.find? (r.decl id)).map Entry.shape
        = (set.find? id).map fun entry => r.entry entry.shape :=
      (h.mono Entry.shape_content r.shape_entry).find?_shape trivial
    have hfind := congrArg Option.isSome hshape
    simpa only [references?, Renumbering.target, Option.isSome_map] using hfind
  | space ref =>
    simp only [references?, Renumbering.target, Option.isSome_map]
    obtain ⟨hnone, hnone'⟩ | ⟨space, space', hspace, hspace', -⟩ := rel_cases (h.spaces ref trivial)
    · rw [hnone, hnone']
    · rw [hspace, hspace']
      rfl

/-- Copies stay copies when they get corresponding new targets. -/
lemma Copies.widen (copies : set.Copies r set') (widens : set.Widens after)
    (widens' : set'.Widens after') (kin : set.SameKin after) (kin' : set'.SameKin after')
    (h : after.Matches Entry.content r .all after') : after.Copies r after' := by
  refine ⟨h, fun target htarget => ?_, fun base hdefine => ?_⟩
  · exact widens.citations? widens' htarget ((r.proper_target target).2 htarget)
      (h.isSome_references? target) (copies.citations target htarget)
  · rw [progeny?, kin'.heirs?_eq, kin.heirs?_eq]
    exact copies.progeny base hdefine

end LibrarySet

/-! ## Edits -/

/-- The two edits do the same under the new numbers. -/
structure Edit.Copies (r : Renumbering) (edit edit' : Edit) : Prop where
  onEntry : ∀ entry, edit'.onEntry (r.entry entry) = r.entry (edit.onEntry entry)
  onMember : ∀ m, edit'.onMember (r.member m) = r.member (edit.onMember m)

lemma Edit.Copies.atSeat {r : Renumbering} {edit edit' : Edit} (h : edit.Copies r edit')
    (id : DeclId) (entry : Entry) : edit'.atSeat (r.decl id) (r.entry entry)
      = r.entry (edit.atSeat id entry) := by
  unfold Edit.atSeat
  rw [r.owner?_decl]
  cases howner : id.owner? with
  | none => exact h.onEntry entry
  | some owner =>
    have hbody := r.body_overMembers entry.body id.category
      (f := fun list => list.modify id.index edit.onMember)
      (g := fun list => list.modify (r.decl id).index edit'.onMember) fun list => by
        rw [r.index_decl_of_owner howner]
        exact map_modify (fun m => (h.onMember m).symm) list id.index
    simp only [Option.map_some, r.category_decl]
    simp only [Renumbering.entry, Renumbering.symbol, Symbol.map, hbody]

lemma Update.copies (r : Renumbering) (update : Update) :
    update.edit.Copies r (r.update update).edit := by
  cases update with
  | «variable» target info => exact ⟨fun _ => rfl, fun _ => rfl⟩
  | callable target params returns =>
    refine ⟨fun entry => ?_, fun m => ?_⟩
    · simp only [Renumbering.update, Update.edit, Edit.callable, Renumbering.entry,
        Renumbering.symbol, Symbol.map]
      cases entry.body with
      | leaf part => cases part <;> rfl
      | _ => rfl
    · simp only [Renumbering.update, Update.edit, Edit.callable, Renumbering.member,
        Renumbering.symbol, Symbol.map]
      cases m.body <;> rfl
  | task target returns => exact ⟨fun _ => rfl, fun _ => rfl⟩
  | inheritance target parent inherits =>
    refine ⟨fun entry => ?_, fun _ => rfl⟩
    simp only [Renumbering.update, Update.edit, Edit.body, Renumbering.entry, Renumbering.symbol,
      Symbol.map]
    cases entry.body <;> rfl

lemma Update.keepsHeader (update : Update) : update.edit.KeepsHeader := by
  cases update with
  | «variable» => exact .setLeaf _
  | callable => exact .callable _
  | task => exact .body _
  | inheritance => exact .body _

lemma Renumbering.target_update (r : Renumbering) (update : Update) :
    (r.update update).target = r.decl update.target := by
  cases update <;> rfl

namespace LibrarySet

variable {r : Renumbering} {area : Area} {set set' : LibrarySet}

lemma Matches.updates (h : set.Matches Entry.content r area set') (updates : List Update) :
    (updates.foldl Update.apply set).Matches Entry.content r area
      ((updates.map r.update).foldl Update.apply set') := by
  induction updates generalizing set set' with
  | nil => exact h
  | cons update rest ih =>
    refine ih ?_
    rw [Update.apply_eq, Update.apply_eq, r.target_update]
    exact h.edit_content update.keepsHeader (r.update update).keepsHeader update.onContents
      (r.update update).onContents fun entry _ => (update.copies r).atSeat _ _

end LibrarySet

/-! ## Writing down what is found -/

/-- References and heirs in no order, after one more has been added on both sides. -/
lemma ofList_addNew_map {α β : Type} [DecidableEq α] [DecidableEq β] {f : α → β}
    (hf : Function.Injective f) {known : Option (List α)} {known' : Option (List β)}
    (h : known'.map Multiset.ofList = known.map fun list => Multiset.ofList (list.map f)) (x : α) :
    (known'.map (addNew · (f x))).map Multiset.ofList
      = (known.map (addNew · x)).map fun list => Multiset.ofList (list.map f) := by
  have hadd (list : List α) : (addNew list x).map f = addAllNew (list.map f) [f x] :=
    (addAllNew_map hf list [x]).symm
  have heq : (known'.map (addAllNew · [f x])).map Multiset.ofList
      = ((known.map (List.map f)).map (addAllNew · [f x])).map Multiset.ofList :=
    ofList_addAllNew (by rw [h, Option.map_map]; rfl) (.refl [f x])
  simp only [Option.map_map, Function.comp_def] at heq ⊢
  simp only [hadd]
  exact heq

namespace Linkage

/-- The contents of the model and the document at hand, under the new numbers. -/
structure Matches (r : Renumbering) (area : Area) (state state' : Linkage) : Prop where
  libraries : state.libraries.Matches Entry.content r area state'.libraries
  unit : state.unit.Matches r state'.unit

/-- What is found for a document, written down under the old and the new numbers. -/
theorem matches_apply {r : Renumbering} {area : Area} {state state' : Linkage}
    (h : Matches r area state state') {found found' : Findings}
    (hfound : found.Renumbered r found') :
    Matches r area (state.apply found) (state'.apply found') := by
  have hcontents (state : Linkage) (found : Findings) : (state.apply found).libraries.contents
      = (found.updates.foldl Update.apply state.libraries).contents :=
    (state.contents_apply found).trans (LibrarySet.contents_updates _ _).symm
  refine ⟨?_, ?_⟩
  · have hupdated := h.libraries.updates found.updates
    rw [← hfound.updates] at hupdated
    exact hupdated.of_contents_eq
      (h.libraries.identified.of_skeleton_eq (state.sameSkeleton_apply found).1)
      (h.libraries.identified'.of_skeleton_eq (state'.sameSkeleton_apply found').1)
      (hcontents state found) (hcontents state' found')
  · -- apart from the report, only occurrences and back-links are added
    have hunit (state : Linkage) (found : Findings) : ∃ occurrences links, (state.apply found).unit
        = { state.unit with
            occurrences
            links
            diagnostics := state.unit.diagnostics.append .link found.diagnostics } := by
      obtain ⟨unit, hafter, occurrences, links, rfl⟩ := state.apply_unit found
        (P := fun unit => ∃ occurrences links, unit = { state.unit with occurrences, links })
        ⟨_, _, rfl⟩
        (by rintro unit target location - ⟨occurrences, links, rfl⟩; exact ⟨_, _, rfl⟩)
        (by rintro unit base heir ⟨occurrences, links, rfl⟩; exact ⟨_, _, rfl⟩)
      exact ⟨occurrences, links, hafter⟩
    obtain ⟨occurrences, links, heq⟩ := hunit state found
    obtain ⟨occurrences', links', heq'⟩ := hunit state' found'
    rw [heq, heq']
    exact { h.unit with marks := Diagnostics.marks_append h.unit.marks .link hfound.marks }

/-- The model and the document at hand, under the new numbers. -/
structure Copies (r : Renumbering) (state state' : Linkage) : Prop where
  orderly : state.libraries.Orderly
  orderly' : state'.libraries.Orderly
  libraries : state.libraries.Copies r state'.libraries
  unit : state.unit.Copies r state'.unit

variable {r : Renumbering} {state state' : Linkage} {others others' : List SourceUnit}
  {near near' : LibraryId → Prop}

lemma Copies.addReference (copies : Copies r state state') {target : Target}
    (htarget : target.Proper) (location : Location) :
    Copies r (state.addReference (target, location))
      (state'.addReference (r.target target, location)) := by
  obtain ⟨orderly, orderly', ⟨contents, citations, progeny⟩, hunit⟩ := copies
  have htarget' := (r.proper_target target).2 htarget
  refine ⟨orderly_addReference orderly _, orderly_addReference orderly' _, ⟨?_, ?_, ?_⟩, ?_⟩
  · -- In turn: contents, citations, heirs, and the unit's own lists.
    exact contents.of_contents_eq (orderly_addReference orderly _).identified
      (orderly_addReference orderly' _).identified (contents_addReference state _)
      (contents_addReference state' _)
  · intro other hother
    have hother' := (r.proper_target other).2 hother
    rw [LibrarySet.citations?, LibrarySet.citations?,
      references?_addReference orderly htarget hother,
      references?_addReference orderly' htarget' hother']
    simp only [r.target_injective.eq_iff]
    split
    · exact ofList_addAllNew (citations other hother) (.refl [location])
    · simpa [LibrarySet.citations?] using citations other hother
  · intro base hdefine
    rw [LibrarySet.progeny?, (sameKin_addReference orderly'.identified _).1.heirs?_eq,
      (sameKin_addReference orderly.identified _).1.heirs?_eq]
    exact progeny base hdefine
  · have hknown := citations target htarget
    simp only [Linkage.addReference]
    cases hrefs : state.libraries.references? target with
    | none =>
      rw [LibrarySet.citations?, LibrarySet.citations?, hrefs, Option.map_none,
        Option.map_eq_none_iff] at hknown
      rw [hknown]
      exact hunit
    | some known =>
      rw [LibrarySet.citations?, LibrarySet.citations?, hrefs] at hknown
      obtain ⟨known', hrefs', heq⟩ := Option.map_eq_some_iff.1 hknown
      simp only [hrefs', (Multiset.coe_eq_coe.1 heq).mem_iff]
      split
      · exact hunit
      · exact { hunit with
          occurrences := by
            simp only [SourceUnit.occur, hunit.occurrences, List.map_append]
            rfl
          links := by
            simp only [SourceUnit.occur, hunit.links, List.map_append]
            rfl }

lemma Copies.addHeir (copies : Copies r state state') {base : DeclId} (hbase : base.Proper)
    (heir : DeclId) :
    Copies r (state.addHeir (base, heir)) (state'.addHeir (r.decl base, r.decl heir)) := by
  obtain ⟨orderly, orderly', ⟨contents, citations, progeny⟩, hunit⟩ := copies
  have hbase' := (r.proper_decl base).2 hbase
  have hafter := (keepsOrder_addHeir orderly (base, heir)).orderly
  have hafter' := (keepsOrder_addHeir orderly' (r.decl base, r.decl heir)).orderly
  refine ⟨hafter, hafter', ⟨?_, ?_, ?_⟩, ?_⟩
  · exact contents.of_contents_eq hafter.identified hafter'.identified (contents_addHeir state _)
      (contents_addHeir state' _)
  · intro target htarget
    rw [LibrarySet.citations?, LibrarySet.citations?, references?_addHeir orderly,
      references?_addHeir orderly']
    exact citations target htarget
  · intro other hdefine
    rw [LibrarySet.progeny?, heirs?_addHeir orderly.identified hbase hdefine,
      heirs?_addHeir orderly'.identified hbase' ((r.define_decl_eq_none_iff other).2 hdefine)]
    simp only [r.decl_injective.eq_iff]
    split
    · exact ofList_addNew_map r.decl_injective (progeny other hdefine) heir
    · simpa [LibrarySet.progeny?] using progeny other hdefine
  · have hsome : ((state'.libraries.find? (r.decl base)).bind fun entry =>
          entry.body.implementors?).isSome
        = ((state.libraries.find? base).bind fun entry => entry.body.implementors?).isSome := by
      rw [LibrarySet.implementors?_find? orderly.identified hbase,
        LibrarySet.implementors?_find? orderly'.identified hbase']
      simp only [r.define_decl_eq_none_iff]
      split
      · next hdefine =>
        have hprogeny := congrArg Option.isSome (progeny base hdefine)
        simpa only [LibrarySet.progeny?, LibrarySet.heirs?, Option.isSome_map] using hprogeny
      · rfl
    simp only [Linkage.addHeir]
    cases hlist : (state.libraries.find? base).bind fun entry => entry.body.implementors? with
    | none =>
      rw [hlist, Option.isSome_none, Option.isSome_eq_false_iff, Option.isNone_iff_eq_none] at hsome
      rw [hsome]
      exact hunit
    | some list =>
      rw [hlist] at hsome
      obtain ⟨list', hlist'⟩ := Option.isSome_iff_exists.1 hsome
      rw [hlist']
      exact { hunit with
        links := by
          simp only [hunit.links, List.map_append]
          rfl }

lemma Copies.foldl (copies : Copies r state state') {α β : Type} (step : Linkage → α → Linkage)
    (step' : Linkage → β → Linkage) (f : α → β) (xs : List α)
    (h : ∀ {state state'}, ∀ x ∈ xs, Copies r state state' →
      Copies r (step state x) (step' state' (f x))) :
    Copies r (xs.foldl step state) ((xs.map f).foldl step' state') := by
  induction xs generalizing state state' with
  | nil => exact copies
  | cons x rest ih =>
    exact ih (h x List.mem_cons_self copies) fun y hy => h y (List.mem_cons_of_mem _ hy)

/-- What is found for a document and for its copy, written down in a model and in its copy. -/
theorem copies_apply (copies : Copies r state state')
    (arranged : state.libraries.Arranged (state.unit :: others))
    (arranged' : state'.libraries.Arranged (state'.unit :: others')) {found found' : Findings}
    (among : found.Among state.libraries near state.unit.path state.unit.declarations)
    (among' : found'.Among state'.libraries near' state'.unit.path state'.unit.declarations)
    (hfound : found.Renumbered r found') : Copies r (state.apply found) (state'.apply found') := by
  have hproper {target : Target} {location : Location} (h : (target, location) ∈ found.references) :
      target.Proper := ((arranged.orderly.live_iff _).1 (among.references h).1.1).1
  have hfits {state : Linkage} {others : List SourceUnit} {near : LibraryId → Prop}
    {found : Findings}
      (arranged : state.libraries.Arranged (state.unit :: others))
      (among : found.Among state.libraries near state.unit.path state.unit.declarations) :
      ∀ update ∈ found.updates, update.Fits ∧ update.target.holder.define = none := fun update h =>
    ⟨(among.updates h).1, define_declarations arranged.settled _ (among.updates h).2.1⟩
  -- updates change contents, and leave references and lists of heirs alone
  have hupdated : Copies r
      { state with libraries := found.updates.foldl Update.apply state.libraries }
      { state' with libraries := found'.updates.foldl Update.apply state'.libraries } := by
    have htags {set : LibrarySet} (orderly : set.Orderly) {updates : List Update}
        (h : ∀ update ∈ updates, update.Fits ∧ update.target.holder.define = none) :
        set.SameTags (updates.foldl Update.apply set) :=
      .foldl updates (fun _ orderly update hupdate =>
        LibrarySet.sameTags_update orderly (h update hupdate).1) orderly
    have same := htags copies.orderly (hfits arranged among)
    have same' := htags copies.orderly' (hfits arranged' among')
    refine ⟨same.orderly copies.orderly, same'.orderly copies.orderly', ⟨?_, ?_, ?_⟩, copies.unit⟩
    · rw [hfound.updates]
      exact copies.libraries.contents.updates found.updates
    · intro target htarget
      rw [LibrarySet.citations?, LibrarySet.citations?,
        same.references?_eq copies.orderly.identified,
        same'.references?_eq copies.orderly'.identified]
      exact copies.libraries.citations target htarget
    · intro base hdefine
      rw [LibrarySet.progeny?, LibrarySet.heirs?_updates copies.orderly
        (hfits arranged among) hdefine,
        LibrarySet.heirs?_updates copies.orderly' (hfits arranged' among')
          ((r.define_decl_eq_none_iff base).2 hdefine)]
      exact copies.libraries.progeny base hdefine
  have hnoted := hupdated.foldl Linkage.addReference Linkage.addReference
    (fun pair => (r.target pair.1, pair.2)) found.references
    fun pair hpair copies => copies.addReference (hproper hpair) pair.2
  have hlisted := hnoted.foldl Linkage.addHeir Linkage.addHeir
    (fun pair => (r.decl pair.1, r.decl pair.2)) found.heirs fun pair hpair copies =>
      copies.addHeir ((arranged.orderly.live_iff _).1 (among.heirs hpair).1.1).1 pair.2
  rw [← hfound.references, ← hfound.heirs] at hlisted
  exact ⟨hlisted.orderly, hlisted.orderly', hlisted.libraries, { hlisted.unit with
    marks := Diagnostics.marks_append hlisted.unit.marks .link hfound.marks }⟩

end Linkage

end SymbolGraph
