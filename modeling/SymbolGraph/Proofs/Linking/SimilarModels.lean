import Mathlib.Data.Multiset.Basic
import SymbolGraph.Proofs.Linking.PassInputs
import SymbolGraph.Proofs.Linking.Unlinking

/-!
# Models that are alike

Two models resemble each other if they have the same contents, and the same references and heirs up
to order (`LibrarySet.Resembles`).  Order is set aside by comparing multisets.

Writing findings down has three effects on a model, and each can be stated by itself: updates change
contents (`Linkage.contents_apply`), references get the places that are new
(`Linkage.references?_apply`), and lists of heirs get the heirs that are new
(`Linkage.heirs?_apply`).  So resemblance is kept when the same is written down in both models, and
the findings for two documents can be written down in either order
(`LibrarySet.Arranged.resembles_apply_apply`).

What becomes of the document itself depends on little: which targets and lists exist, and which of
its own places are known already (`LibrarySet.Welcomes`).
-/

namespace SymbolGraph

/-! ## The contents of all libraries -/

/-- The edit reads contents and changes contents only. -/
structure Edit.OnContents (edit : Edit) : Prop where
  onEntry : ∀ entry, (edit.onEntry entry).content = edit.onEntry entry.content
  onMember : ∀ m, (edit.onMember m).content = edit.onMember m.content

lemma Edit.OnContents.atSeat {edit : Edit} (h : edit.OnContents) (id : DeclId) (entry : Entry) :
    (edit.atSeat id entry).content = edit.atSeat id entry.content := by
  unfold Edit.atSeat
  split
  · exact h.onEntry entry
  · have hbody := entry.body.content_overMembers id.category
      fun list => map_modify h.onMember list id.index
    simp only [Entry.content, Symbol.map, hbody]
    rfl

lemma Update.onContents (update : Update) : update.edit.OnContents := by
  cases update with
  | «variable» target info => exact ⟨fun _ => rfl, fun _ => rfl⟩
  | callable target params returns =>
    refine ⟨fun entry => ?_, fun _ => rfl⟩
    simp only [Update.edit, Edit.callable, Entry.content, Symbol.map]
    cases entry.body <;> rfl
  | task target returns => exact ⟨fun _ => rfl, fun _ => rfl⟩
  | inheritance target parent inherits =>
    refine ⟨fun entry => ?_, fun _ => rfl⟩
    simp only [Update.edit, Edit.body, Entry.content, Symbol.map]
    cases entry.body <;> rfl

/-- Declaring the members of a declaration. -/
def Edit.declare (document : String) (id : DeclId) (node : DeclNode) : Edit where
  onEntry owner := owner.map fun body =>
    (node.memberNodes.map (LinkMembers.member document id owner)).foldl
      (fun body m => LinkMembers.addMember m body) body
  onMember m := m

lemma Edit.onContents_declare (document : String) (id : DeclId) (node : DeclNode) :
    (Edit.declare document id node).OnContents := by
  have hadd (members : List Member) (hfresh : ∀ m ∈ members, m.content = m) (body : Body) :
      (members.foldl (fun body m => LinkMembers.addMember m body) body).content
        = members.foldl (fun body m => LinkMembers.addMember m body) body.content := by
    induction members generalizing body with
    | nil => rfl
    | cons m rest ih =>
      have hm : (LinkMembers.addMember m body).content = LinkMembers.addMember m body.content :=
        body.content_overMembers _ fun list => by simp [hfresh m List.mem_cons_self]
      rw [List.foldl_cons, List.foldl_cons, ← hm]
      exact ih (fun m' hm' => hfresh m' (List.mem_cons_of_mem _ hm')) _
  refine ⟨fun owner => ?_, fun _ => rfl⟩
  have hfresh : ∀ m ∈ node.memberNodes.map (LinkMembers.member document id owner),
      m.content = m := by
    intro m hm
    obtain ⟨member, -, rfl⟩ := List.mem_map.1 hm
    rfl
  have hbody := hadd _ hfresh owner.body
  simp only [Edit.declare, Entry.content, Symbol.map, hbody]
  rfl

namespace LibrarySet

variable {set set' set'' : LibrarySet}

/-- All libraries without references and heirs. -/
def contents (set : LibrarySet) : LibrarySet :=
  { set with
    project := set.project.contents
    kernel := set.kernel.contents
    imports := set.imports.map Library.contents }

lemma get?_contents (set : LibrarySet) (id : LibraryId) :
    set.contents.get? id = (set.get? id).map Library.contents := by
  simp only [get?, contents]
  split
  · rfl
  · split
    · rfl
    · cases id.slot? with
      | none => rfl
      | some slot => simp

lemma slot?_contents (set : LibrarySet) (library : LibraryId) (category : Category) (index : Nat) :
    set.contents.slot? library category index
      = (set.slot? library category index).map Entry.content := by
  rw [slot?, get?_contents, slot?]
  cases set.get? library with
  | none => rfl
  | some lib => exact lib.slot?_view Entry.content category index

lemma skeleton_contents (set : LibrarySet) : set.contents.skeleton = set.skeleton := by
  simp only [skeleton, contents, Library.skeleton_contents, List.map_map, LibrarySet.mk.injEq,
    true_and, and_true]
  exact List.map_congr_left fun lib _ => lib.skeleton_contents

lemma contents_adjust (set : LibrarySet) (id : LibraryId) {f f' : Library → Library}
    (h : ∀ lib, (f lib).contents = f' lib.contents) :
    (set.adjust id f).contents = set.contents.adjust id f' := by
  unfold adjust
  split
  · simp [contents, h]
  · split
    · simp [contents, h]
    · split
      · simp only [contents, LibrarySet.mk.injEq, true_and, and_true]
        exact map_modify h set.imports _
      · rfl

lemma contents_adjust_eq_self (set : LibrarySet) (id : LibraryId) {f : Library → Library}
    (h : ∀ lib, (f lib).contents = lib.contents) : (set.adjust id f).contents = set.contents :=
  (set.contents_adjust id h).trans (adjust_eq_self _ fun _ _ => rfl)

lemma contents_edit (set : LibrarySet) (id : DeclId) {edit : Edit} (h : edit.OnContents) :
    (set.edit id edit).contents = set.contents.edit id edit :=
  set.contents_adjust _ fun lib => lib.view_edit id (h.atSeat id)

lemma contents_overReferences (set : LibrarySet) (f : List Location → List Location)
    (target : Target) : (set.overReferences f target).contents = set.contents := by
  obtain ⟨library, change, heq, hcontents⟩ := set.overReferences_eq_adjust f target
  rw [heq, set.contents_adjust_eq_self library hcontents]

lemma contents_overImplementors (set : LibrarySet) (base : DeclId)
    (f : List DeclId → List DeclId) : (set.overImplementors base f).contents = set.contents := by
  obtain ⟨library, change, heq, hcontents⟩ := set.overImplementors_eq_adjust base f
  rw [heq, set.contents_adjust_eq_self library hcontents]

lemma contents_update (set : LibrarySet) (update : Update) :
    (update.apply set).contents = update.apply set.contents := by
  rw [update.apply_eq, update.apply_eq]
  exact set.contents_edit _ update.onContents

lemma contents_updates (updates : List Update) (set : LibrarySet) :
    (updates.foldl Update.apply set).contents = updates.foldl Update.apply set.contents := by
  induction updates generalizing set with
  | nil => rfl
  | cons update rest ih => rw [List.foldl_cons, ih, set.contents_update, List.foldl_cons]

end LibrarySet

/-! ## Likeness -/

/-- Elements that are new are added without regard to order. -/
lemma addAllNew_perm {α : Type} [DecidableEq α] {xs xs' ys ys' : List α} (h : xs.Perm xs')
    (k : ys.Perm ys') : (addAllNew xs ys).Perm (addAllNew xs' ys') := by
  refine List.perm_iff_count.2 fun x => ?_
  simp only [count_addAllNew, h.count_eq, h.mem_iff, k.mem_iff]

namespace LibrarySet

variable {set set' set'' : LibrarySet}

/-- The places that refer to a target, in no order. -/
def citations? (set : LibrarySet) (target : Target) : Option (Multiset Location) :=
  (set.references? target).map Multiset.ofList

/-- The heirs of a class or interface, in no order. -/
def progeny? (set : LibrarySet) (base : DeclId) : Option (Multiset DeclId) :=
  (set.heirs? base).map Multiset.ofList

/-- The two models have the same contents, and the same references and heirs up to order. -/
structure Resembles (set set' : LibrarySet) : Prop where
  contents : set'.contents = set.contents
  citations : ∀ target, target.Proper → set'.citations? target = set.citations? target
  progeny : ∀ base, base.define = none → set'.progeny? base = set.progeny? base

lemma Resembles.refl (set : LibrarySet) : set.Resembles set := ⟨rfl, fun _ _ => rfl, fun _ _ => rfl⟩

lemma Resembles.trans (h : set.Resembles set') (k : set'.Resembles set'') : set.Resembles set'' :=
  ⟨k.contents.trans h.contents, fun t ht => (k.citations t ht).trans (h.citations t ht),
    fun b hb => (k.progeny b hb).trans (h.progeny b hb)⟩

section

variable (h : set'.contents = set.contents)

include h

lemma skeleton_of_contents_eq : set'.skeleton = set.skeleton := by
  rw [← skeleton_contents, h, skeleton_contents]

lemma slot?_of_contents_eq (library : LibraryId) (category : Category) (index : Nat) :
    (set'.slot? library category index).map Entry.content
      = (set.slot? library category index).map Entry.content := by
  rw [← slot?_contents, h, slot?_contents]

lemma sameFronts_of_contents_eq : set.SameFronts set' := by
  refine ⟨skeleton_of_contents_eq h, fun library category index => ?_⟩
  have hslot := congrArg (Option.map Entry.front) (slot?_of_contents_eq h library category index)
  simpa only [front?, Option.map_map, Function.comp_def, Entry.front_content] using hslot

lemma sameShapes_of_contents_eq : set.SameShapes set' := by
  refine ⟨skeleton_of_contents_eq h, fun library category index => ?_⟩
  have hshape (entry : Entry) : entry.content.shape = entry.shape := by
    rw [← Entry.shape_core, entry.core_content, Entry.shape_core]
  have hslot := congrArg (Option.map Entry.shape) (slot?_of_contents_eq h library category index)
  simpa only [Option.map_map, Function.comp_def, hshape] using hslot

end

end LibrarySet

/-! ## Findings that are written down -/

/-- The places that are found to refer to a target. -/
def Findings.locationsOf (found : Findings) (target : Target) : List Location :=
  (found.references.filter fun pair => pair.1 = target).map Prod.snd

namespace Linkage

variable {state : Linkage} {others : List SourceUnit} {near : LibraryId → Prop}

lemma contents_addReference (state : Linkage) (found : Target × Location) :
    (state.addReference found).libraries.contents = state.libraries.contents := by
  obtain ⟨target, location⟩ := found
  simp only [addReference]
  split
  · rfl
  · split
    · rfl
    · exact LibrarySet.contents_overReferences _ _ target

lemma contents_addHeir (state : Linkage) (found : DeclId × DeclId) :
    (state.addHeir found).libraries.contents = state.libraries.contents := by
  obtain ⟨base, heir⟩ := found
  simp only [addHeir]
  split
  · rfl
  · exact LibrarySet.contents_overImplementors _ base _

/-- Of all that is found, updates alone change contents. -/
theorem contents_apply (state : Linkage) (found : Findings) :
    (state.apply found).libraries.contents
      = found.updates.foldl Update.apply state.libraries.contents := by
  have hfold {α : Type} {step : Linkage → α → Linkage}
      (h : ∀ state x, (step state x).libraries.contents = state.libraries.contents) (xs : List α)
      (state : Linkage) : (xs.foldl step state).libraries.contents = state.libraries.contents := by
    induction xs generalizing state with
    | nil => rfl
    | cons x rest ih => rw [List.foldl_cons, ih, h]
  rw [← LibrarySet.contents_updates]
  exact (hfold contents_addHeir found.heirs _).trans
    (hfold contents_addReference found.references _)

lemma references?_addReference (orderly : state.libraries.Orderly) {target other : Target}
    (htarget : target.Proper) (hother : other.Proper) (location : Location) :
    (state.addReference (target, location)).libraries.references? other
      = (state.libraries.references? other).map fun known =>
          if target = other then addNew known location else known := by
  simp only [addReference]
  split
  · next hnone =>
    by_cases heq : target = other
    · rw [← heq, hnone]
      rfl
    · simp [heq]
  · next known hknown =>
    -- A location that is known is not recorded again, which is what `addNew` says of it.
    split
    · next hmem =>
      by_cases heq : target = other
      · rw [← heq, hknown]
        simp [addNew, hmem]
      · simp [heq]
    · next hmem =>
      rw [orderly.references?_overReferences _ htarget hother]
      by_cases heq : target = other
      · rw [← heq, hknown]
        simp [addNew, hmem]
      · simp [heq]

lemma orderly_addReference (orderly : state.libraries.Orderly) (found : Target × Location) :
    (state.addReference found).libraries.Orderly := (keepsOrder_addReference orderly found).orderly

lemma references?_addReferences (references : List (Target × Location))
    (orderly : state.libraries.Orderly) (hproper : ∀ pair ∈ references, pair.1.Proper)
    {target : Target} (htarget : target.Proper) :
    (references.foldl addReference state).libraries.references? target
      = (state.libraries.references? target).map
          (addAllNew · ((references.filter fun pair => pair.1 = target).map Prod.snd)) := by
  induction references generalizing state with
  | nil => simp [addAllNew]
  | cons pair rest ih =>
    obtain ⟨other, location⟩ := pair
    rw [List.foldl_cons, ih (orderly_addReference orderly _)
      fun pair hpair => hproper pair (List.mem_cons_of_mem _ hpair),
      references?_addReference orderly (hproper _ List.mem_cons_self) htarget, Option.map_map]
    congr 1
    funext known
    by_cases heq : other = target <;> simp [heq, addAllNew]

/-- An heir changes no references. -/
lemma references?_addHeir (orderly : state.libraries.Orderly) (found : DeclId × DeclId)
    (target : Target) :
    (state.addHeir found).libraries.references? target = state.libraries.references? target := by
  simp only [addHeir]
  split
  · rfl
  · exact (LibrarySet.sameTags_overImplementors orderly.identified _ _).references?_eq
      orderly.identified target

/-- What writing one heir down makes of the lists of heirs. -/
lemma heirs?_addHeir (hid : state.libraries.Identified) {base heir other : DeclId}
    (hbase : base.Proper) (hdefine : other.define = none) :
    (state.addHeir (base, heir)).libraries.heirs? other
      = (state.libraries.heirs? other).map fun heirs =>
          if base = other then addNew heirs heir else heirs := by
  obtain ⟨-, hkin, -⟩ := kin?_addHeir hid hbase
  rw [LibrarySet.heirs?, hkin other hdefine, LibrarySet.heirs?]
  cases state.libraries.kin? other with
  | none => rfl
  | some kin =>
    simp only [Option.map_some, Option.bind_some]
    split
    · exact kin.implementors?_overImplementors _
    · simp

/-- Writing findings down adds the places that were found to the references of each target. -/
theorem references?_apply (orderly : state.libraries.Orderly) {found : Findings} {own : List DeclId}
    (among : found.Among state.libraries near state.unit.path own) {target : Target}
    (htarget : target.Proper) : (state.apply found).libraries.references? target
      = (state.libraries.references? target).map (addAllNew · (found.locationsOf target)) := by
  have hupdates := LibrarySet.SameTags.foldl found.updates (fun _ orderly update hupdate =>
    LibrarySet.sameTags_update orderly (among.updates hupdate).1) orderly
  have hproper : ∀ pair ∈ found.references, pair.1.Proper := fun pair hpair =>
    ((orderly.live_iff _).1 (among.references hpair).1.1).1
  have hreferences := @references?_addReferences
    { state with libraries := found.updates.foldl Update.apply state.libraries } found.references
    (hupdates.orderly orderly) hproper target htarget
  -- Updates keep tags, and heirs keep references, so only the references that are found count.
  have hheirs {state : Linkage} (orderly : state.libraries.Orderly)
    (heirs : List (DeclId × DeclId)) :
      (heirs.foldl addHeir state).libraries.references? target
        = state.libraries.references? target := by
    induction heirs generalizing state with
    | nil => rfl
    | cons pair rest ih =>
      rw [List.foldl_cons, ih (keepsOrder_addHeir orderly pair).orderly,
        references?_addHeir orderly]
  refine (hheirs ?_ found.heirs).trans (hreferences.trans ?_)
  · exact (keepsOrder_foldl (fun _ reference orderly => keepsOrder_addReference orderly reference)
      found.references (hupdates.orderly orderly)).orderly
  · rw [hupdates.references?_eq orderly.identified]
    rfl

end Linkage

/-! ## Documents -/

namespace LibrarySet

variable {set set' : LibrarySet}

/-- Writing findings for the document comes to the same for it in both models: the same targets and
the same lists of heirs exist, and the same places in the document are known already. -/
structure Welcomes (path : String) (set set' : LibrarySet) : Prop where
  orderly : set.Orderly
  orderly' : set'.Orderly
  places : ∀ target, target.Proper → ∀ location : Location, location.document = path →
    (set'.references? target).map (location ∈ ·) = (set.references? target).map (location ∈ ·)
  bases : ∀ base, base.define = none → (set'.heirs? base).isSome = (set.heirs? base).isSome

/-- Updates change no list of heirs. -/
lemma heirs?_updates (orderly : set.Orderly) {updates : List Update}
    (h : ∀ update ∈ updates, update.Fits ∧ update.target.holder.define = none) {base : DeclId}
    (hdefine : base.define = none) :
    (updates.foldl Update.apply set).heirs? base = set.heirs? base := by
  rw [heirs?, kin?_updates orderly updates h hdefine, heirs?]
  cases set.kin? base with
  | none => rfl
  | some kin => exact Update.implementors?_onKin base updates kin

end LibrarySet

namespace Linkage

variable {state state' : Linkage} {others others' : List SourceUnit} {near near' : LibraryId → Prop}
  {path : String}

/-- What two runs through the same findings keep in common. -/
structure InStep (path : String) (state state' : Linkage) : Prop where
  welcomes : state.libraries.Welcomes path state'.libraries
  unit : state'.unit.plain = state.unit.plain

lemma InStep.addReference (inStep : InStep path state state') {target : Target}
    (htarget : target.Proper) {location : Location} (hdocument : location.document = path) :
    InStep path (state.addReference (target, location))
      (state'.addReference (target, location)) := by
  obtain ⟨⟨orderly, orderly', places, bases⟩, hunit⟩ := inStep
  refine ⟨⟨orderly_addReference orderly _, orderly_addReference orderly' _, ?_, ?_⟩, ?_⟩
  · intro other hother place hplace
    have hmem (known : List Location) :
        (place ∈ if target = other then addNew known location else known)
          = (place ∈ known ∨ target = other ∧ place = location) := by
      split <;> simp_all
    rw [references?_addReference orderly htarget hother,
      references?_addReference orderly' htarget hother]
    have hplaces := congrArg (Option.map fun p => p ∨ target = other ∧ place = location)
      (places other hother place hplace)
    simpa only [Option.map_map, Function.comp_def, hmem] using hplaces
  · intro base hbase
    rw [(sameKin_addReference orderly.identified _).1.heirs?_eq,
      (sameKin_addReference orderly'.identified _).1.heirs?_eq]
    exact bases base hbase
  · have hknown := places target htarget location hdocument
    have hnote (unit : SourceUnit) :
        ({ unit.occur location.range target false true with
          links := unit.links ++ [.reference target location] } : SourceUnit).plain
        = { unit.plain.occur location.range target false true with
          links := unit.plain.links ++ [.reference target location] } := rfl
    simp only [Linkage.addReference]
    cases hrefs : state.libraries.references? target with
    | none =>
      rw [hrefs, Option.map_none, Option.map_eq_none_iff] at hknown
      rw [hknown]
      exact hunit
    | some known =>
      rw [hrefs] at hknown
      obtain ⟨known', hrefs', hmem⟩ := Option.map_eq_some_iff.1 hknown
      simp only [hrefs', hmem]
      split
      · exact hunit
      · exact (hnote _).trans (Eq.trans (by rw [hunit]) (hnote _).symm)

lemma InStep.addHeir (inStep : InStep path state state') {base : DeclId} (hbase : base.Proper)
    (heir : DeclId) : InStep path (state.addHeir (base, heir)) (state'.addHeir (base, heir)) := by
  obtain ⟨⟨orderly, orderly', places, bases⟩, hunit⟩ := inStep
  refine ⟨⟨(keepsOrder_addHeir orderly _).orderly, (keepsOrder_addHeir orderly' _).orderly,
    ?_, ?_⟩, ?_⟩
  · intro target htarget location hdocument
    rw [references?_addHeir orderly, references?_addHeir orderly']
    exact places target htarget location hdocument
  · intro other hdefine
    rw [heirs?_addHeir orderly.identified hbase hdefine, Option.isSome_map,
      heirs?_addHeir orderly'.identified hbase hdefine, Option.isSome_map]
    exact bases other hdefine
  · -- An heir is noted in the document as soon as the base has a list at all.
    have hsome : ((state'.libraries.find? base).bind fun entry => entry.body.implementors?).isSome
        = ((state.libraries.find? base).bind fun entry => entry.body.implementors?).isSome := by
      rw [LibrarySet.implementors?_find? orderly.identified hbase,
        LibrarySet.implementors?_find? orderly'.identified hbase]
      split
      · next hdefine => exact bases base hdefine
      · rfl
    have hnote (unit : SourceUnit) :
        ({ unit with links := unit.links ++ [.implementor base heir] } : SourceUnit).plain
        = { unit.plain with links := unit.plain.links ++ [.implementor base heir] } := rfl
    simp only [Linkage.addHeir]
    cases hlist : (state.libraries.find? base).bind fun entry => entry.body.implementors? with
    | none =>
      rw [hlist, Option.isSome_none, Option.isSome_eq_false_iff, Option.isNone_iff_eq_none] at hsome
      rw [hsome]
      exact hunit
    | some list =>
      rw [hlist] at hsome
      obtain ⟨list', hlist'⟩ := Option.isSome_iff_exists.1 hsome
      rw [hlist']
      exact (hnote _).trans (Eq.trans (by rw [hunit]) (hnote _).symm)

lemma InStep.foldl {α : Type} (step : Linkage → α → Linkage) (xs : List α)
    (h : ∀ {state state'}, ∀ x ∈ xs, InStep path state state' →
      InStep path (step state x) (step state' x)) (inStep : InStep path state state') :
    InStep path (xs.foldl step state) (xs.foldl step state') := by
  induction xs generalizing state state' with
  | nil => exact inStep
  | cons x rest ih =>
    exact ih (fun y hy => h y (List.mem_cons_of_mem _ hy)) (h x List.mem_cons_self inStep)

/-- What writing findings down makes of a document. -/
lemma plain_unit_apply (arranged : state.libraries.Arranged (state.unit :: others))
    {found found' : Findings}
    (among : found.Among state.libraries near state.unit.path state.unit.declarations)
    (hfound : found'.plain = found.plain) (hunit : state'.unit.plain = state.unit.plain)
    (welcomes : state.libraries.Welcomes state.unit.path state'.libraries) :
    (state'.apply found').unit.plain = (state.apply found).unit.plain := by
  have hreferences : found'.references = found.references := congrArg (·.references) hfound
  have hheirs : found'.heirs = found.heirs := congrArg (·.heirs) hfound
  have hupdates : found'.updates = found.updates := congrArg (·.updates) hfound
  have hdiagnostics : found'.diagnostics.map Diagnostic.plain
      = found.diagnostics.map Diagnostic.plain := congrArg (·.diagnostics) hfound
  have hfits : ∀ update ∈ found.updates, update.Fits ∧ update.target.holder.define = none :=
    fun update h => ⟨(among.updates h).1,
      define_declarations arranged.settled _ (among.updates h).2.1⟩
  have hproper {target : Target} {location : Location} (h : (target, location) ∈ found.references) :
      target.Proper := ((arranged.orderly.live_iff _).1 (among.references h).1.1).1
  -- updates leave references and lists of heirs alone
  have hsame {set : LibrarySet} (orderly : set.Orderly) :
      set.SameTags (found.updates.foldl Update.apply set) :=
    .foldl found.updates (fun _ orderly update hupdate =>
      LibrarySet.sameTags_update orderly (hfits update hupdate).1) orderly
  have hstart : InStep state.unit.path
      { state with libraries := found.updates.foldl Update.apply state.libraries }
      { state' with libraries := found.updates.foldl Update.apply state'.libraries } := by
    obtain ⟨orderly, orderly', places, bases⟩ := welcomes
    refine ⟨⟨(hsame orderly).orderly orderly, (hsame orderly').orderly orderly', ?_, ?_⟩, hunit⟩
    · intro target htarget location hdocument
      rw [(hsame orderly).references?_eq orderly.identified,
        (hsame orderly').references?_eq orderly'.identified]
      exact places target htarget location hdocument
    · intro base hdefine
      rw [LibrarySet.heirs?_updates orderly hfits hdefine,
        LibrarySet.heirs?_updates orderly' hfits hdefine]
      exact bases base hdefine
  have hnoted := InStep.foldl Linkage.addReference found.references
    (fun pair hpair inStep => inStep.addReference (hproper hpair) (among.references hpair).2) hstart
  have hlisted := InStep.foldl Linkage.addHeir found.heirs
    (fun pair hpair inStep => inStep.addHeir
      ((arranged.orderly.live_iff _).1 (among.heirs hpair).1.1).1 pair.2) hnoted
  have hreport (unit : SourceUnit) (reports : List Diagnostic) :
      (unit.report .link reports).plain
        = unit.plain.report .link (reports.map Diagnostic.plain) := by
    simp [SourceUnit.plain, SourceUnit.report, Diagnostics.append, Diagnostics.changePhase]
  simp only [apply, hreferences, hheirs, hupdates]
  rw [hreport, hreport, hdiagnostics, hlisted.unit]

end Linkage

/-! ## Writing the same down -/

lemma ofList_addAllNew {α : Type} [DecidableEq α] {known known' : Option (List α)}
    (h : known'.map Multiset.ofList = known.map Multiset.ofList) {ys ys' : List α}
    (k : ys'.Perm ys) : (known'.map (addAllNew · ys')).map Multiset.ofList
      = (known.map (addAllNew · ys)).map Multiset.ofList := by
  cases known with
  | none =>
    rw [Option.map_none, Option.map_eq_none_iff] at h
    rw [h]
    rfl
  | some list =>
    obtain ⟨list', rfl, heq⟩ := Option.map_eq_some_iff.1 h
    exact congrArg some (Multiset.coe_eq_coe.2 (addAllNew_perm (Multiset.coe_eq_coe.1 heq) k))

lemma map_addAllNew_addAllNew {α : Type} [DecidableEq α] (known : Option (List α))
    (xs ys : List α) : (known.map (addAllNew · xs)).map (addAllNew · ys)
      = known.map (addAllNew · (xs ++ ys)) := by
  rw [Option.map_map]
  congr 1
  funext list
  simp [addAllNew]

lemma Findings.locationsOf_of_plain_eq {found found' : Findings} (h : found'.plain = found.plain)
    (target : Target) : found'.locationsOf target = found.locationsOf target := by
  have hreferences : found'.references = found.references := congrArg (·.references) h
  rw [locationsOf, hreferences, locationsOf]

lemma Findings.heirsOf_of_plain_eq {found found' : Findings} (h : found'.plain = found.plain)
    (base : DeclId) : found'.heirsOf base = found.heirsOf base := by
  have hheirs : found'.heirs = found.heirs := congrArg (·.heirs) h
  rw [heirsOf, hheirs, heirsOf]

/-- Models that are alike welcome every document alike. -/
lemma LibrarySet.Resembles.welcomes {set set' : LibrarySet} (alike : set.Resembles set')
    (orderly : set.Orderly) (orderly' : set'.Orderly) (path : String) : set.Welcomes path set' := by
  refine ⟨orderly, orderly', fun target htarget location _ => ?_, fun base hdefine => ?_⟩
  · have hcitations := congrArg (Option.map fun places => location ∈ places)
      (alike.citations target htarget)
    simpa [citations?, Function.comp_def] using hcitations
  · have hprogeny := congrArg Option.isSome (alike.progeny base hdefine)
    simpa [progeny?] using hprogeny

namespace Linkage

variable {state state' : Linkage} {others others' : List SourceUnit} {near near' : LibraryId → Prop}

/-- Writing the same down in models that are alike. -/
lemma resembles_apply (arranged : state.libraries.Arranged (state.unit :: others))
    (arranged' : state'.libraries.Arranged (state'.unit :: others')) {found found' : Findings}
    (among : found.Among state.libraries near state.unit.path state.unit.declarations)
    (among' : found'.Among state'.libraries near' state'.unit.path state'.unit.declarations)
    (hfound : found'.plain = found.plain) (alike : state.libraries.Resembles state'.libraries) :
    (state.apply found).libraries.Resembles (state'.apply found').libraries := by
  have hupdates : found'.updates = found.updates := congrArg (·.updates) hfound
  refine ⟨?_, fun target htarget => ?_, fun base hdefine => ?_⟩
  · rw [contents_apply, contents_apply, hupdates, alike.contents]
  · rw [LibrarySet.citations?, LibrarySet.citations?,
      references?_apply arranged.orderly among htarget,
      references?_apply arranged'.orderly among' htarget]
    exact ofList_addAllNew (alike.citations target htarget)
      (.of_eq (Findings.locationsOf_of_plain_eq hfound target))
  · rw [LibrarySet.progeny?, LibrarySet.progeny?, heirs?_apply arranged among hdefine,
      heirs?_apply arranged' among' hdefine]
    exact ofList_addAllNew (alike.progeny base hdefine)
      (.of_eq (Findings.heirsOf_of_plain_eq hfound base))

/-- Writing findings for one document down changes nothing for another. -/
lemma welcomes_apply (arranged : state.libraries.Arranged (state.unit :: others)) {found : Findings}
    (among : found.Among state.libraries near state.unit.path state.unit.declarations)
    {path : String} (hpath : state.unit.path ≠ path) :
    state.libraries.Welcomes path (state.apply found).libraries := by
  refine ⟨arranged.orderly, (arranged_apply arranged among).orderly, ?_, ?_⟩
  · intro target htarget location hdocument
    rw [references?_apply arranged.orderly among htarget, Option.map_map]
    congr 1
    funext known
    rw [Function.comp_apply, mem_addAllNew, eq_iff_iff, or_iff_left]
    intro hmem
    obtain ⟨pair, hpair, rfl⟩ := List.mem_map.1 hmem
    exact hpath ((among.references (List.mem_of_mem_filter hpair)).2.symm.trans hdocument)
  · intro base hdefine
    rw [heirs?_apply arranged among hdefine, Option.isSome_map]

end Linkage

namespace LibrarySet

variable {set : LibrarySet} {a b : SourceUnit} {others : List SourceUnit}

/-- Declarations of two documents sit in different slots. -/
lemma Settled.seat_ne (settled : set.Settled (a :: b :: others)) {id id' : DeclId}
    (hid : id.holder ∈ a.declarations) (hid' : id'.holder ∈ b.declarations)
    (hlibrary : id.library = id'.library) : id.seat ≠ id'.seat := by
  have hread (id : DeclId) : id.seat = (id.holder.category, id.holder.index) := by
    unfold DeclId.seat DeclId.holder
    cases id.owner? <;> rfl
  have hholder (id : DeclId) : id.holder.library = id.library := by
    unfold DeclId.holder DeclId.owner?
    split <;> rfl
  intro hseat
  rw [hread, hread, Prod.mk.injEq] at hseat
  obtain ⟨heq, -⟩ := settled.declared List.mem_cons_self hid
  obtain ⟨heq', -⟩ := settled.declared (List.mem_cons_of_mem _ List.mem_cons_self) hid'
  have hunits : a.library = b.library := by
    have ha : id.holder.library = a.library := congrArg DeclId.library heq
    have hb : id'.holder.library = b.library := congrArg DeclId.library heq'
    rw [← ha, ← hb, hholder, hholder, hlibrary]
  have hsame : id.holder = id'.holder := by
    rw [heq, heq', hseat.1, hseat.2, hunits]
  exact settled.disjoint List.mem_cons_self hid (hsame ▸ hid')

lemma commute_updates (settled : set.Settled (a :: b :: others)) {updates updates' : List Update}
    (h : ∀ update ∈ updates, update.target.holder ∈ a.declarations)
    (h' : ∀ update ∈ updates', update.target.holder ∈ b.declarations) :
    Function.Commute (fun set => updates.foldl Update.apply set)
      fun set => updates'.foldl Update.apply set := by
  refine commute_foldl updates' fun update' hupdate' => ?_
  refine (commute_foldl updates fun update hupdate set => ?_).symm
  simp only [Update.apply_eq]
  exact (edit_comm _ fun hlibrary hseat => absurd hseat
    (settled.seat_ne (h update hupdate) (h' update' hupdate') hlibrary)).symm

end LibrarySet

/-- Findings for two documents can be written down in either order. -/
theorem LibrarySet.Arranged.resembles_apply_apply {set : LibrarySet} {a b : SourceUnit}
    {others : List SourceUnit} (arranged : set.Arranged (a :: b :: others))
    {near near' : LibraryId → Prop} {found found' foundThen foundThen' : Findings}
    (among : found.Among set near a.path a.declarations)
    (among' : found'.Among set near' b.path b.declarations)
    (amongThen : foundThen.Among (Linkage.apply ⟨set, b⟩ found').libraries near
      a.path a.declarations)
    (amongThen' : foundThen'.Among (Linkage.apply ⟨set, a⟩ found).libraries near' b.path
      b.declarations)
    (hfound : foundThen.plain = found.plain) (hfound' : foundThen'.plain = found'.plain) :
    (Linkage.apply ⟨(Linkage.apply ⟨set, a⟩ found).libraries, b⟩ foundThen').libraries.Resembles
      (Linkage.apply ⟨(Linkage.apply ⟨set, b⟩ found').libraries, a⟩ foundThen).libraries := by
  have arranged' : set.Arranged (b :: a :: others) := arranged.perm (.swap ..)
  have harranged : (Linkage.apply ⟨set, a⟩ found).libraries.Arranged
      (b :: (Linkage.apply ⟨set, a⟩ found).unit :: others) :=
    (@Linkage.arranged_apply ⟨set, a⟩ _ _ arranged _ _ among).perm (.swap ..)
  have harranged' : (Linkage.apply ⟨set, b⟩ found').libraries.Arranged
      (a :: (Linkage.apply ⟨set, b⟩ found').unit :: others) :=
    (@Linkage.arranged_apply ⟨set, b⟩ _ _ arranged' _ _ among').perm (.swap ..)
  have hupdates : foundThen.updates = found.updates := congrArg (·.updates) hfound
  have hupdates' : foundThen'.updates = found'.updates := congrArg (·.updates) hfound'
  refine ⟨?_, fun target htarget => ?_, fun base hdefine => ?_⟩
  · rw [Linkage.contents_apply, Linkage.contents_apply, Linkage.contents_apply,
      Linkage.contents_apply, hupdates, hupdates']
    exact LibrarySet.commute_updates arranged.settled (fun _ h => (among.updates h).2.1)
      (fun _ h => (among'.updates h).2.1) set.contents
  · -- A target gets the new references of both documents, first those of the one that comes first.
    rw [LibrarySet.citations?, LibrarySet.citations?,
      @Linkage.references?_apply ⟨_, a⟩ _ harranged'.orderly _ _ amongThen _ htarget,
      @Linkage.references?_apply ⟨set, b⟩ _ arranged.orderly _ _ among' _ htarget,
      @Linkage.references?_apply ⟨_, b⟩ _ harranged.orderly _ _ amongThen' _ htarget,
      @Linkage.references?_apply ⟨set, a⟩ _ arranged.orderly _ _ among _ htarget,
      Findings.locationsOf_of_plain_eq hfound, Findings.locationsOf_of_plain_eq hfound',
      map_addAllNew_addAllNew, map_addAllNew_addAllNew]
    exact ofList_addAllNew rfl List.perm_append_comm
  · rw [LibrarySet.progeny?, LibrarySet.progeny?,
      @Linkage.heirs?_apply ⟨_, a⟩ _ _ harranged' _ amongThen _ hdefine,
      @Linkage.heirs?_apply ⟨set, b⟩ _ _ arranged' _ among' _ hdefine,
      @Linkage.heirs?_apply ⟨_, b⟩ _ _ harranged _ amongThen' _ hdefine,
      @Linkage.heirs?_apply ⟨set, a⟩ _ _ arranged _ among _ hdefine,
      Findings.heirsOf_of_plain_eq hfound, Findings.heirsOf_of_plain_eq hfound',
      map_addAllNew_addAllNew, map_addAllNew_addAllNew]
    exact ofList_addAllNew rfl List.perm_append_comm

end SymbolGraph
