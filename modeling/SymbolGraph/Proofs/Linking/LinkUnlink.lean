import Mathlib
import SymbolGraph.Proofs.Linking.Unlinking

/-!
# Unlinking is inverse to linking

Documents that have been tidied and not linked yet have left no traces in the model but their blank
declarations (`Linkages.Unlinked`).  Tidying keeps this up (`Linkages.Unlinked.tidy`), so it holds
of any documents that are about to be linked.

Linking such documents and unlinking them again gives back the model and the documents, exactly, and
the documents can be unlinked in any order (`Linkages.unlink_link`).

Mathlib is imported whole because `cbv`, which links two documents at the end, takes the equations
of basic functions such as `Option.join` from all over it.
-/

namespace SymbolGraph

/-! ## Documents -/

namespace SourceUnit

variable {unit : SourceUnit}

/-- The document when it has been unlinked. -/
def stripped (unit : SourceUnit) : SourceUnit :=
  { unit with
    links := []
    occurrences := unit.occurrences.filter fun occurrence => !occurrence.linked
    scopes := []
    diagnostics := unit.diagnostics.clear .link }

lemma Unlinked.stripped_eq (unlinked : unit.Unlinked) : unit.stripped = unit := by
  obtain ⟨tree, library, declarations, spaces, scopes, links, occurrences, tidy, link, check⟩ :=
    unit
  simp only [Unlinked, skeleton, Diagnostics.clear, Diagnostics.changePhase,
    SourceUnit.mk.injEq, Diagnostics.mk.injEq, true_and, and_true] at unlinked
  obtain ⟨hscopes, hlinks, hoccurrences, hlink⟩ := unlinked
  simp only [stripped, Diagnostics.clear, Diagnostics.changePhase, ← hoccurrences, hscopes, hlinks,
    hlink]

lemma Unlinked.heirs_eq (unlinked : unit.Unlinked) : unit.heirs = [] := by
  rw [← unlinked.stripped_eq]
  rfl

lemma Unlinked.links_eq (unlinked : unit.Unlinked) : unit.links = [] := by
  rw [← unlinked.stripped_eq]
  rfl

end SourceUnit

namespace Linkage

/-- What a step keeps of the document holds after any number of steps. -/
lemma unit_foldl {α β : Type} {f : SourceUnit → β} {step : Linkage → α → Linkage}
    (h : ∀ state x, f (step state x).unit = f state.unit) (xs : List α) (state : Linkage) :
    f (xs.foldl step state).unit = f state.unit :=
  List.foldlRecOn (motive := fun after => f after.unit = f state.unit) xs step rfl
    fun after hafter x _ => (h after x).trans hafter

lemma stripped_addReference (state : Linkage) (found : Target × Location) :
    (state.addReference found).unit.stripped = state.unit.stripped := by
  simp only [addReference]
  split
  · rfl
  · split
    · rfl
    · simp [SourceUnit.stripped, SourceUnit.occur]

lemma stripped_addHeir (state : Linkage) (found : DeclId × DeclId) :
    (state.addHeir found).unit.stripped = state.unit.stripped := by
  simp only [addHeir]
  split <;> rfl

lemma stripped_apply (state : Linkage) (found : Findings) :
    (state.apply found).unit.stripped = state.unit.stripped := by
  have hheirs := unit_foldl stripped_addHeir found.heirs (found.references.foldl addReference
    { state with libraries := found.updates.foldl Update.apply state.libraries })
  exact hheirs.trans (unit_foldl stripped_addReference found.references _)

lemma stripped_linkImports (state : Linkage) :
    state.linkImports.unit.stripped = state.unit.stripped := by
  unfold linkImports
  exact stripped_apply _ _

lemma stripped_declareMembers (state : Linkage) :
    state.declareMembers.unit.stripped = state.unit.stripped := by
  refine unit_foldl (fun state declared => ?_) _ state
  simp only [LinkMembers.declareFor]
  split
  · rfl
  · simp [SourceUnit.stripped, List.filter_map, Function.comp_def, Diagnostics.append,
      Diagnostics.clear, Diagnostics.changePhase]

end Linkage

namespace Linkages

/-- What a pass keeps of each document. -/
lemma map_units_each {β : Type} {f : SourceUnit → β} {pass : Linkage → Linkage}
    (h : ∀ state, f (pass state).unit = f state.unit) (set : LibrarySet) (units : List SourceUnit) :
    (each pass set units).units.map f = units.map f := by
  induction units generalizing set with
  | nil => rfl
  | cons unit rest ih => rw [each, List.map_cons, List.map_cons, ih, h]

lemma map_stripped_link (state : Linkages) (options : LinkOptions) :
    (state.link options).units.map SourceUnit.stripped
      = state.units.map SourceUnit.stripped := by
  have hbases (state : Linkage) : (state.linkBases options).unit.stripped = state.unit.stripped :=
    Linkage.stripped_apply _ _
  have hsignatures (state : Linkage) :
      (state.linkSignatures options).unit.stripped = state.unit.stripped :=
    Linkage.stripped_apply _ _
  unfold link applyPass
  rw [map_units_each hsignatures, map_units_each hbases,
    map_units_each Linkage.stripped_declareMembers, map_units_each Linkage.stripped_linkImports]

lemma each_unlink_eq (set : LibrarySet) (units : List SourceUnit) :
    each Linkage.unlink set units = ⟨undo units set, units.map SourceUnit.stripped⟩ := by
  induction units generalizing set with
  | nil => rfl
  | cons unit rest ih =>
    rw [each, ih]
    rfl

/-! ## Documents that have not been linked -/

/-- Documents as they are before they are linked, in a well-formed model of them and of `others`:
tidying alone has left traces in them, and nothing is known of their declarations. -/
structure Unlinked (state : Linkages) (others : List SourceUnit) : Prop where
  arranged : state.libraries.Arranged (state.units ++ others)
  noted : state.libraries.Noted (state.units ++ others)
  unlinked : ∀ unit ∈ state.units, unit.Unlinked
  blank : ∀ unit ∈ state.units, ∀ id ∈ unit.declarations, state.libraries.Blank id

variable {set : LibrarySet} {batch others : List SourceUnit}

/-- One more document, newly tidied. -/
lemma Unlinked.add (unlinked : Unlinked ⟨set, batch⟩ others) {library : LibraryId} {lib : Library}
    (hloaded : set.get? library = some lib) {set' : LibrarySet} (grows : set.Grows library set')
    {unit : SourceUnit} (settled : set'.Settled (unit :: (batch ++ others)))
    (hunit : unit.skeleton = unit) : Unlinked ⟨set', batch ++ [unit]⟩ others := by
  have hperm : ([unit] ++ (batch ++ others)).Perm (batch ++ [unit] ++ others) := by
    rw [List.append_assoc]
    exact List.perm_append_comm_assoc ..
  refine ⟨(unlinked.arranged.tidy hloaded settled grows).perm hperm,
    (unlinked.noted.tidy hloaded grows).perm hperm, fun other hother =>
      ?_, fun other hother id hid => ?_⟩
  · rcases List.mem_append.1 hother with hother | hother
    · exact unlinked.unlinked other hother
    · rw [List.mem_singleton.1 hother]
      exact .of_skeleton_eq hunit
  · rcases List.mem_append.1 hother with hother | hother
    · obtain ⟨entry, hslot, hblank⟩ := unlinked.blank other hother id hid
      exact ⟨entry, grows.slot_keep hloaded hslot, hblank⟩
    · obtain rfl := List.mem_singleton.1 hother
      obtain ⟨heq, -, entry, hslot, -⟩ := settled.declared List.mem_cons_self hid
      rw [← show id.library = other.library from congrArg DeclId.library heq] at hslot
      refine ⟨entry, hslot, ?_⟩
      rcases grows.slot_only hloaded hslot with hold | ⟨-, hfresh⟩
      · -- it would be declared by one of the documents before
        obtain ⟨owner, howner, hmine⟩ := unlinked.arranged.settled.exists_unit hold
          (congrArg DeclId.define heq)
        exact (settled.disjoint howner hid hmine).elim
      · rw [Entry.Blank, ← hfresh]
        rfl

/-- Tidying documents of any loaded library, whatever has been loaded and linked before. -/
theorem Unlinked.tidy {library : LibraryId} (trees : List FileTree) {start : Batch}
    (unlinked : Unlinked ⟨start.libraries, start.units⟩ others)
    (hloaded : ∃ lib, start.libraries.get? library = some lib)
    (hpool : start.pool.Matches start.libraries.project []) :
    ∃ batch, Outcome.forEach (Batch.tidy library) trees start = ⟨batch, none⟩ ∧
      Unlinked ⟨batch.libraries, batch.units⟩ others := by
  induction trees generalizing start with
  | nil => exact ⟨start, rfl, unlinked⟩
  | cons tree rest ih =>
    obtain ⟨lib, hlib⟩ := hloaded
    obtain ⟨bench, htidy, settled, hpool', grows, -, -, hunit⟩ :=
      unlinked.arranged.settled.tidy hlib hpool tree
    have hstep : Batch.tidy library tree start
        = ⟨⟨bench.libraries, bench.pool, start.units ++ [bench.unit]⟩, none⟩ := by
      simp only [Batch.tidy, htidy]
    obtain ⟨lib', hlib', -⟩ := grows.grown hlib
    rw [Outcome.forEach, hstep, Outcome.andThen_of_none]
    exact @ih ⟨bench.libraries, bench.pool, start.units ++ [bench.unit]⟩
      (unlinked.add hlib grows settled hunit) ⟨lib', hlib'⟩ hpool'

/-- None of their declarations stands in a list of heirs. -/
lemma Unlinked.unlisted (unlinked : Unlinked ⟨set, batch⟩ others) {unit : SourceUnit}
    (hunit : unit ∈ batch) : unit.Unlisted set := by
  intro id hid base hbase hlists
  obtain ⟨other, hother, hdecl, hpair⟩ := unlinked.noted base id hbase hlists
  rcases List.mem_append.1 hother with h | h
  · rw [(unlinked.unlinked other h).heirs_eq] at hpair
    cases hpair
  · obtain ⟨before, after, rfl⟩ := List.append_of_mem hunit
    have hsettled : set.Settled (unit :: (before ++ after ++ others)) := by
      refine unlinked.arranged.settled.perm ?_
      rw [List.append_assoc, List.cons_append, List.append_assoc]
      exact List.perm_middle
    exact hsettled.disjoint (List.mem_append_right _ h) hid hdecl

/-- Unlinking changes nothing as long as nothing is linked. -/
lemma Unlinked.undo_eq_self (unlinked : Unlinked ⟨set, batch⟩ others) : undo batch set = set := by
  refine foldl_eq_self fun unit hunit => ?_
  rw [SourceUnit.undo_eq, (unlinked.unlinked unit hunit).links_eq, List.foldl_nil]
  refine foldl_eq_self fun id hid => LibrarySet.edit_eq_self set fun lib entry hlib _ hentry => ?_
  obtain ⟨-, htop, -⟩ := unlinked.arranged.settled.declared (List.mem_append_left _ hunit) hid
  refine Edit.atSeat_eq_self (fun _ => ?_) fun howner => ?_
  · obtain ⟨entry', hslot, hblank⟩ := unlinked.blank unit hunit id hid
    obtain rfl : entry = entry' := by
      rw [DeclId.seat_of_top htop] at hentry
      rw [LibrarySet.slot?_of_get? hlib] at hslot
      exact Option.some.inj (hentry.symm.trans hslot)
    exact congrArg (fun body => ({ entry with body } : Entry)) hblank.symm
  · simp [DeclId.owner?_of_top htop] at howner

/-- Linking and then unlinking, in any order of the documents, gives back the model and each
document.  In `order`, every linked document is paired with what it was before. -/
theorem unlink_link (unlinked : Unlinked ⟨set, batch⟩ others) (options : LinkOptions)
    {order : List (SourceUnit × SourceUnit)}
    (horder : order.Perm ((link ⟨set, batch⟩ options).units.zip batch)) :
    each Linkage.unlink (link ⟨set, batch⟩ options).libraries (order.map Prod.fst)
      = ⟨set, order.map Prod.snd⟩ := by
  -- Undoing the links of all documents leads back, since nothing was linked before.
  have hunlisted : ∀ unit ∈ batch, unit.Unlisted (undo (batch ++ []) set) := by
    intro unit hunit
    rw [List.append_nil, unlinked.undo_eq_self]
    exact unlinked.unlisted hunit
  have hundo := undo_link_append unlinked.arranged
    (fun unit hunit => (unlinked.unlinked unit hunit).undeclared) hunlisted options
  rw [List.append_nil, List.append_nil, unlinked.undo_eq_self] at hundo
  have hunits : (link ⟨set, batch⟩ options).units.map SourceUnit.stripped = batch := by
    rw [map_stripped_link]
    exact (List.map_congr_left fun unit hunit => (unlinked.unlinked unit hunit).stripped_eq).trans
      (List.map_id batch)
  generalize link ⟨set, batch⟩ options = linked at horder hundo hunits ⊢
  have hzip : linked.units.zip batch
      = linked.units.map fun unit => (unit, unit.stripped) := by
    rw [← hunits, ← List.map_prod_left_eq_zip]
  rw [hzip] at horder
  have hperm : (order.map Prod.fst).Perm linked.units := by
    have hmap := horder.map Prod.fst
    rwa [List.map_map, Function.comp_def, List.map_id'] at hmap
  -- Unlinking one after another undoes all links at once, in whichever order.
  rw [each_unlink_eq, undo_perm hperm, hundo, List.map_map]
  refine congrArg (Linkages.mk set) (List.map_congr_left fun pair hpair => ?_)
  obtain ⟨unit, -, rfl⟩ := List.mem_map.1 (horder.mem_iff.1 hpair)
  rfl

/-- A document with an interface that inherits the one of the other document. -/
def heirTree : FileTree :=
  ⟨"heir.rk", ⟨none, [], [], [.interface ⟨.pub, ⟨"Heir", ⟨⟨0, 10⟩, ⟨0, 14⟩⟩⟩,
    [⟨[⟨"Base", ⟨⟨0, 17⟩, ⟨0, 21⟩⟩⟩], 0, ⟨⟨0, 17⟩, ⟨0, 21⟩⟩⟩], []⟩]⟩⟩

/-- A document with an interface, and a variable whose type is that of the other document. -/
def baseTree : FileTree :=
  ⟨"base.rk", ⟨none, [], [], [.interface ⟨.pub, ⟨"Base", ⟨⟨0, 10⟩, ⟨0, 14⟩⟩⟩, [], []⟩,
    .variable ⟨.pub, false, ⟨"next", ⟨⟨1, 5⟩, ⟨1, 9⟩⟩⟩,
      ⟨[⟨"Heir", ⟨⟨1, 0⟩, ⟨1, 4⟩⟩⟩], 0, ⟨⟨1, 0⟩, ⟨1, 4⟩⟩⟩⟩]⟩⟩

/-- The two documents as tidying leaves them in an empty project. -/
def kinDocuments : Linkages :=
  let batch := (Outcome.forEach (Batch.tidy .project) [heirTree, baseTree]
    ⟨.new "demo" "kernel", {}, []⟩).state
  ⟨batch.libraries, batch.units⟩

lemma unlinked_kinDocuments : kinDocuments.Unlinked [] := by
  have hnew : Unlinked ⟨.new "demo" "kernel", []⟩ [] :=
    ⟨LibrarySet.arranged_new .., Session.noted_new "demo" "kernel", by simp, by simp⟩
  obtain ⟨batch, htidy, hunlinked⟩ := @Unlinked.tidy [] .project [heirTree, baseTree]
    ⟨.new "demo" "kernel", {}, []⟩ hnew ⟨_, rfl⟩ (IndexPool.matches_new "demo")
  rw [kinDocuments, htidy]
  exact hunlinked

/-- Each of the two documents leaves back-links in the other, and they can be unlinked in the other
order. -/
theorem unlink_link_kinDocuments : kinDocuments.Unlinked [] ∧
    let linked := kinDocuments.link {}
    let order := (linked.units.zip kinDocuments.units).reverse
    linked.units.map (fun unit => unit.links.length) = [2, 1] ∧
      each Linkage.unlink linked.libraries (order.map Prod.fst)
        = ⟨kinDocuments.libraries, order.map Prod.snd⟩ :=
  ⟨unlinked_kinDocuments, by cbv, unlink_link unlinked_kinDocuments {} (List.reverse_perm _)⟩

end Linkages

end SymbolGraph
