import SymbolGraph.Proofs.Linking.PassFindings
import SymbolGraph.Proofs.Session.LoadInvariants

/-!
# References and back-links balance

A reference is written twice: into the record of its target, and as a back-link into the document
that makes it.  `set.Ledger units` says that the two sides agree: the references of every target are
those that the documents have on record for it, each once.

The agreement passes along three kinds of steps.  A step that only brings new targets into being
keeps it, as long as no document points to a target that does not exist (`Anchored`); a step that
only takes targets away keeps it in any case; and writing or erasing one reference changes both
sides alike.
-/

namespace SymbolGraph

/-! ## What a document has on record -/

/-- A back-link as a reference. -/
def BackLink.reference? : BackLink → Option (Target × Location)
  | .reference target location => some (target, location)
  | .implementor _ _ => none

namespace SourceUnit

/-- The references that a document has written. -/
def references (unit : SourceUnit) : List (Target × Location) :=
  unit.links.filterMap BackLink.reference?

/-- The places in a document that refer to a target. -/
def pointers (target : Target) (unit : SourceUnit) : List Location :=
  (unit.references.filter fun reference => reference.1 = target).map Prod.snd

/-- The references of a document are its occurrences that are no definitions. -/
def Faithful (unit : SourceUnit) : Prop :=
  (unit.occurrences.filter fun occurrence => !occurrence.definition).map
    (fun occurrence => (occurrence.target, Location.mk unit.path occurrence.range))
      = unit.references

/-- No member has been declared for the document. -/
def Undeclared (unit : SourceUnit) : Prop :=
  ∀ occurrence ∈ unit.occurrences, occurrence.linked = true → occurrence.definition = false

/-- `unit.Becomes unit'`: the document is as tidying left it, and what linking found stays. -/
structure Becomes (unit unit' : SourceUnit) : Prop where
  skeleton_eq : unit'.skeleton = unit.skeleton
  occurrences_sub : ∀ occurrence ∈ unit.occurrences, occurrence ∈ unit'.occurrences

variable {unit unit' : SourceUnit}

lemma Becomes.undeclared (h : unit.Becomes unit') (undeclared : unit'.Undeclared) :
    unit.Undeclared := fun o ho => undeclared o (h.occurrences_sub o ho)

lemma declarations_of_skeleton_eq (h : unit'.skeleton = unit.skeleton) :
    unit'.declarations = unit.declarations := by
  have hclaims := claims_of_skeleton_eq h
  simp only [claims, Prod.mk.injEq] at hclaims
  exact hclaims.2.1

lemma mem_pointers {target : Target} {location : Location} :
    location ∈ unit.pointers target ↔ (target, location) ∈ unit.references := by
  simp [pointers]

lemma pointers_of_references_eq (h : unit'.references = unit.references) (target : Target) :
    unit'.pointers target = unit.pointers target := by
  rw [pointers, h, pointers]

end SourceUnit

namespace LibrarySet

/-- The references of every target are those that the documents have on record, each once. -/
structure Ledger (set : LibrarySet) (units : List SourceUnit) : Prop where
  exact : ∀ {target refs}, target.Proper → set.references? target = some refs →
    refs.Nodup ∧ refs.Perm (units.flatMap (SourceUnit.pointers target))
  proper : ∀ {unit target location}, unit ∈ units → (target, location) ∈ unit.references →
    target.Proper

/-- Every document refers to targets that exist. -/
def Anchored (set : LibrarySet) (units : List SourceUnit) : Prop :=
  ∀ unit ∈ units, ∀ reference ∈ unit.references,
    ∃ refs, set.references? reference.1 = some refs

/-- `set.Widens set'`: targets that exist stay as they are, and new ones have no references. -/
structure Widens (set set' : LibrarySet) : Prop where
  keep : ∀ {target refs}, target.Proper → set.references? target = some refs →
    set'.references? target = some refs
  only : ∀ {target refs}, target.Proper → set'.references? target = some refs →
    set.references? target = some refs ∨ set.references? target = none ∧ refs = []

/-- `set.Narrows set'`: targets that still exist stay as they are. -/
def Narrows (set set' : LibrarySet) : Prop :=
  ∀ {target refs}, target.Proper → set'.references? target = some refs →
    set.references? target = some refs

variable {set set' set'' : LibrarySet} {units units' : List SourceUnit}

lemma Widens.refl (set : LibrarySet) : set.Widens set := ⟨fun _ h => h, fun _ h => Or.inl h⟩

lemma Widens.trans (h : set.Widens set') (k : set'.Widens set'') : set.Widens set'' where
  keep proper hrefs := k.keep proper (h.keep proper hrefs)
  only := by
    intro target refs proper hrefs
    rcases k.only proper hrefs with h' | ⟨hnone, hnil⟩
    · exact h.only proper h'
    · cases hold : set.references? target with
      | none => exact Or.inr ⟨rfl, hnil⟩
      | some old => simp [h.keep proper hold] at hnone

lemma SameTags.narrows (h : SameTags set set') (hid : set.Identified) : set.Narrows set' :=
  fun _ hrefs => (h.references?_eq hid _).symm.trans hrefs

lemma Ledger.perm (ledger : set.Ledger units) (h : units.Perm units') : set.Ledger units' where
  exact proper hrefs := by
    obtain ⟨hnodup, hperm⟩ := ledger.exact proper hrefs
    exact ⟨hnodup, hperm.trans (h.flatMap_right _)⟩
  proper hunit := ledger.proper (h.mem_iff.2 hunit)

lemma Anchored.perm (anchored : set.Anchored units) (h : units.Perm units') :
    set.Anchored units' := fun unit hunit => anchored unit (h.mem_iff.2 hunit)

lemma Ledger.widens (ledger : set.Ledger units) (anchored : set.Anchored units)
    (widens : set.Widens set') : set'.Ledger units ∧ set'.Anchored units := by
  refine ⟨⟨?_, ledger.proper⟩, ?_⟩
  · intro target refs proper hrefs
    rcases widens.only proper hrefs with hold | ⟨hnone, rfl⟩
    · exact ledger.exact proper hold
    · -- Nothing points to a target that did not exist.
      have hnil : units.flatMap (SourceUnit.pointers target) = [] := by
        rw [List.flatMap_eq_nil_iff]
        intro unit hunit
        rw [List.eq_nil_iff_forall_not_mem]
        intro location hlocation
        obtain ⟨refs, h⟩ := anchored unit hunit _ (SourceUnit.mem_pointers.1 hlocation)
        simp [hnone] at h
      rw [hnil]
      exact ⟨List.nodup_nil, List.Perm.refl _⟩
  · intro unit hunit reference hreference
    obtain ⟨refs, hrefs⟩ := anchored unit hunit reference hreference
    exact ⟨refs, widens.keep (ledger.proper hunit hreference) hrefs⟩

lemma Ledger.narrows (ledger : set.Ledger units) (narrows : set.Narrows set') :
    set'.Ledger units :=
  ⟨fun proper hrefs => ledger.exact proper (narrows proper hrefs), ledger.proper⟩

/-- The other fields of a document do not matter. -/
lemma Ledger.congr {unit unit' : SourceUnit} (ledger : set.Ledger (unit :: units))
    (hreferences : unit'.references = unit.references) : set.Ledger (unit' :: units) := by
  refine ⟨?_, ?_⟩
  · intro target refs proper hrefs
    obtain ⟨hnodup, hperm⟩ := ledger.exact proper hrefs
    rw [List.flatMap_cons] at hperm ⊢
    rw [SourceUnit.pointers_of_references_eq hreferences]
    exact ⟨hnodup, hperm⟩
  · intro other target location hother hreference
    rcases List.mem_cons.1 hother with rfl | hother
    · rw [hreferences] at hreference
      exact ledger.proper (List.mem_cons_self ..) hreference
    · exact ledger.proper (List.mem_cons_of_mem _ hother) hreference

lemma Anchored.congr {unit unit' : SourceUnit} (anchored : set.Anchored (unit :: units))
    (hreferences : unit'.references = unit.references) : set.Anchored (unit' :: units) := by
  intro other hother reference hreference
  rcases List.mem_cons.1 hother with rfl | hother
  · rw [hreferences] at hreference
    exact anchored unit (List.mem_cons_self ..) reference hreference
  · exact anchored other (List.mem_cons_of_mem _ hother) reference hreference

/-- One reference more, on both sides. -/
lemma Ledger.write {unit unit' : SourceUnit} (ledger : set.Ledger (unit :: units))
    (orderly : set.Orderly) {target : Target} (proper : target.Proper) {known : List Location}
    (hknown : set.references? target = some known) {location : Location}
    (hnew : location ∉ known)
    (hreferences : unit'.references = unit.references ++ [(target, location)]) :
    (set.overReferences (· ++ [location]) target).Ledger (unit' :: units) := by
  refine ⟨?_, ?_⟩
  · intro other refs hother hrefs
    have hpointers : unit'.pointers other = unit.pointers other ++
        if target = other then [location] else [] := by
      rw [SourceUnit.pointers, hreferences, List.filter_append, List.map_append]
      by_cases heq : target = other <;> simp [SourceUnit.pointers, heq]
    rw [orderly.references?_overReferences _ proper hother] at hrefs
    rw [List.flatMap_cons, hpointers]
    split at hrefs
    · next heq =>
      subst heq
      rw [hknown, Option.map_some, Option.some.injEq] at hrefs
      obtain ⟨hnodup, hperm⟩ := ledger.exact proper hknown
      rw [List.flatMap_cons] at hperm
      subst hrefs
      refine ⟨List.nodup_append.2 ⟨hnodup, by simp, ?_⟩, ?_⟩
      · intro a ha b hb hab
        rw [List.mem_singleton.1 hb] at hab
        -- No location is entered twice, since this one was not known.
        exact hnew (hab ▸ ha)
      · rw [if_pos rfl, List.append_assoc]
        refine (hperm.append_right [location]).trans ?_
        rw [List.append_assoc]
        exact List.perm_append_comm.append_left _
    · next hne =>
      rw [if_neg hne, List.append_nil, ← List.flatMap_cons]
      exact ledger.exact hother hrefs
  · intro other t l hother hreference
    rcases List.mem_cons.1 hother with rfl | hother
    · rw [hreferences, List.mem_append, List.mem_singleton] at hreference
      rcases hreference with h | h
      · exact ledger.proper (List.mem_cons_self ..) h
      · rw [(Prod.mk.inj h).1]
        exact proper
    · exact ledger.proper (List.mem_cons_of_mem _ hother) hreference

/-- One reference less, on both sides. -/
lemma Ledger.erase {unit unit' : SourceUnit} (ledger : set.Ledger (unit :: units))
    (orderly : set.Orderly) {target : Target} {location : Location}
    (hreferences : unit.references = (target, location) :: unit'.references) :
    (set.overReferences (·.erase location) target).Ledger (unit' :: units) := by
  have proper : target.Proper :=
    ledger.proper (List.mem_cons_self ..) (hreferences ▸ List.mem_cons_self ..)
  refine ⟨?_, ?_⟩
  · intro other refs hother hrefs
    have hpointers : unit.pointers other =
        (if target = other then [location] else []) ++ unit'.pointers other := by
      rw [SourceUnit.pointers, hreferences, List.filter_cons]
      by_cases heq : target = other <;> simp [SourceUnit.pointers, heq]
    rw [orderly.references?_overReferences _ proper hother] at hrefs
    rw [List.flatMap_cons]
    split at hrefs
    · next heq =>
      subst heq
      obtain ⟨known, hknown, rfl⟩ := Option.map_eq_some_iff.1 hrefs
      obtain ⟨hnodup, hperm⟩ := ledger.exact proper hknown
      rw [List.flatMap_cons, hpointers, if_pos rfl, List.singleton_append,
        List.cons_append] at hperm
      refine ⟨hnodup.erase location, ?_⟩
      have herase := hperm.erase location
      rwa [List.erase_cons_head] at herase
    · next hne =>
      obtain ⟨hnodup, hperm⟩ := ledger.exact hother hrefs
      rw [List.flatMap_cons, hpointers, if_neg hne, List.nil_append] at hperm
      exact ⟨hnodup, hperm⟩
  · intro other t l hother hreference
    rcases List.mem_cons.1 hother with rfl | hother
    · have hold : (t, l) ∈ unit.references := hreferences ▸ List.mem_cons_of_mem _ hreference
      exact ledger.proper (List.mem_cons_self ..) hold
    · exact ledger.proper (List.mem_cons_of_mem _ hother) hreference

/-! ## The whole record -/

/-- A declaration without members. -/
def BareAt (set : LibrarySet) (id : DeclId) : Prop :=
  ∀ tags, set.tags? id.library id.category id.index = some tags → tags.Bare

/-- The model is settled, its tags are in order, and documents whose members have not been declared
have none. -/
structure Arranged (set : LibrarySet) (units : List SourceUnit) : Prop where
  settled : set.Settled units
  orderly : set.Orderly
  bare : ∀ {unit id}, unit ∈ units → unit.Undeclared → id ∈ unit.declarations → set.BareAt id

/-- The model is arranged, and references and back-links balance. -/
structure Booked (set : LibrarySet) (units : List SourceUnit) : Prop extends
    Arranged set units where
  ledger : set.Ledger units
  faithful : ∀ {unit}, unit ∈ units → unit.Faithful

lemma Arranged.legible (arranged : set.Arranged units) : set.Legible :=
  ⟨arranged.orderly, fun hlib => (arranged.settled.hosts hlib).coherent⟩

lemma Arranged.perm (arranged : set.Arranged units) (h : units.Perm units') :
    set.Arranged units' :=
  ⟨arranged.settled.perm h, arranged.orderly, fun hunit => arranged.bare (h.mem_iff.2 hunit)⟩

lemma Booked.perm (booked : set.Booked units) (h : units.Perm units') : set.Booked units' where
  toArranged := booked.toArranged.perm h
  ledger := booked.ledger.perm h
  faithful hunit := booked.faithful (h.mem_iff.2 hunit)

/-- `set.KeepsOrder set'`: the tags of `set'` are in order, and no bare declaration has got
members. -/
structure KeepsOrder (set set' : LibrarySet) : Prop where
  orderly : set'.Orderly
  bare : ∀ {id}, set.BareAt id → set'.BareAt id

lemma KeepsOrder.refl (orderly : set.Orderly) : set.KeepsOrder set := ⟨orderly, fun h => h⟩

lemma KeepsOrder.trans (h : set.KeepsOrder set') (k : set'.KeepsOrder set'') :
    set.KeepsOrder set'' := ⟨k.orderly, fun hbare => k.bare (h.bare hbare)⟩

lemma KeepsOrder.foldl {α : Type} {step : LibrarySet → α → LibrarySet} (xs : List α)
    (h : ∀ set : LibrarySet, set.Orderly → ∀ x ∈ xs, set.KeepsOrder (step set x))
    (orderly : set.Orderly) : set.KeepsOrder (xs.foldl step set) := by
  induction xs generalizing set with
  | nil => exact .refl orderly
  | cons x xs ih =>
    have hfirst := h set orderly x (List.mem_cons_self ..)
    exact hfirst.trans (ih (fun set orderly y hy => h set orderly y (List.mem_cons_of_mem _ hy))
      hfirst.orderly)

lemma SameTags.keepsOrder (same : SameTags set set') (orderly : set.Orderly) :
    set.KeepsOrder set' :=
  ⟨same.orderly orderly, fun hbare tags htags => hbare tags ((same.tags _ _ _).symm.trans htags)⟩

lemma keepsOrder_overReferences (orderly : set.Orderly) (f : List Location → List Location)
    (target : Target) : set.KeepsOrder (set.overReferences f target) := by
  refine ⟨orderly.overReferences f target, ?_⟩
  intro id hbare tags htags
  cases target with
  | declaration other =>
    rw [overReferences, tags?_references orderly.identified] at htags
    split at htags
    · obtain ⟨old, hold, rfl⟩ := Option.map_eq_some_iff.1 htags
      exact Tags.Bare.adjust (hbare old hold) other f
    · exact hbare tags htags
  | space ref =>
    rw [tags?, overReferences, slot?_adjustSpace] at htags
    exact hbare tags htags

section Steps

variable {unit unit' : SourceUnit} {others : List SourceUnit}

lemma Arranged.settled_cons (arranged : set.Arranged (unit :: others))
    (hset : set'.skeleton = set.skeleton) (hunit : unit'.skeleton = unit.skeleton) :
    set'.Settled (unit' :: others) :=
  arranged.settled.of_skeleton_eq hset (by rw [List.map_cons, List.map_cons, hunit])

/-- A step over one document that keeps the order. -/
lemma Arranged.step (arranged : set.Arranged (unit :: others))
    (hset : set'.skeleton = set.skeleton) (hunit : unit'.skeleton = unit.skeleton)
    (hundeclared : unit'.Undeclared → unit.Undeclared) (keeps : set.KeepsOrder set') :
    set'.Arranged (unit' :: others) := by
  refine ⟨arranged.settled_cons hset hunit, keeps.orderly, ?_⟩
  intro other id hother undeclared hid
  rcases List.mem_cons.1 hother with rfl | hother
  · rw [SourceUnit.declarations_of_skeleton_eq hunit] at hid
    exact keeps.bare (arranged.bare (List.mem_cons_self ..) (hundeclared undeclared) hid)
  · exact keeps.bare (arranged.bare (List.mem_cons_of_mem _ hother) undeclared hid)

lemma Booked.faithful_cons (booked : set.Booked (unit :: others)) (hunit : unit'.Faithful)
    {other : SourceUnit} (hother : other ∈ unit' :: others) : other.Faithful := by
  rcases List.mem_cons.1 hother with rfl | hother
  · exact hunit
  · exact booked.faithful (List.mem_cons_of_mem _ hother)

/-- A step that changes no tag and records no reference. -/
lemma Booked.of_sameTags (booked : set.Booked (unit :: others))
    (hset : set'.skeleton = set.skeleton) (same : SameTags set set')
    (becomes : unit.Becomes unit') (hreferences : unit'.references = unit.references)
    (hfaithful : unit'.Faithful) : set'.Booked (unit' :: others) where
  toArranged := booked.toArranged.step hset becomes.skeleton_eq becomes.undeclared
    (same.keepsOrder booked.orderly)
  ledger := (booked.ledger.narrows (same.narrows booked.orderly.identified)).congr hreferences
  faithful := booked.faithful_cons hfaithful

lemma Anchored.of_sameTags (anchored : set.Anchored (unit :: others)) (hid : set.Identified)
    (same : SameTags set set') (hreferences : unit'.references = unit.references) :
    set'.Anchored (unit' :: others) := by
  intro other hother reference hreference
  rw [same.references?_eq hid]
  exact anchored.congr hreferences other hother reference hreference

end Steps

end LibrarySet

/-! ## Writing findings down -/

namespace Linkage

variable {state : Linkage} {others : List SourceUnit}

/-- The records of a state of linking, with the documents beside the one at hand. -/
structure Booked (state : Linkage) (others : List SourceUnit) : Prop where
  books : state.libraries.Booked (state.unit :: others)
  anchored : state.libraries.Anchored (state.unit :: others)

/-- A step of linking that keeps the records and loses no target. -/
structure Keeps (others : List SourceUnit) (before after : Linkage) : Prop where
  booked : after.Booked others
  becomes : before.unit.Becomes after.unit
  live : ∀ {target}, before.libraries.Live target → after.libraries.Live target

lemma Keeps.refl (booked : state.Booked others) : Keeps others state state :=
  ⟨booked, ⟨rfl, fun _ h => h⟩, fun h => h⟩

lemma Keeps.trans {a b c : Linkage} (h : Keeps others a b) (k : Keeps others b c) :
    Keeps others a c where
  booked := k.booked
  becomes := ⟨k.becomes.skeleton_eq.trans h.becomes.skeleton_eq,
    fun o ho => k.becomes.occurrences_sub o (h.becomes.occurrences_sub o ho)⟩
  live hlive := k.live (h.live hlive)

lemma keeps_foldl {α : Type} {step : Linkage → α → Linkage} (good : Linkage → α → Prop)
    (xs : List α) (booked : state.Booked others)
    (hstep : ∀ state x, x ∈ xs → state.Booked others → good state x →
      Keeps others state (step state x))
    (hgood : ∀ before after x, Keeps others before after → good before x → good after x)
    (h : ∀ x ∈ xs, good state x) : Keeps others state (xs.foldl step state) := by
  induction xs generalizing state with
  | nil => exact .refl booked
  | cons x xs ih =>
    have hfirst := hstep state x (List.mem_cons_self ..) booked (h x (List.mem_cons_self ..))
    refine hfirst.trans (ih hfirst.booked
      (fun state y hy => hstep state y (List.mem_cons_of_mem _ hy)) fun y hy => ?_)
    exact hgood _ _ y hfirst (h y (List.mem_cons_of_mem _ hy))

lemma keeps_of_sameTags (booked : state.Booked others) {after : Linkage}
    (hskeleton : SameSkeleton state after) (same : LibrarySet.SameTags state.libraries
      after.libraries) (hsub : ∀ o ∈ state.unit.occurrences, o ∈ after.unit.occurrences)
    (hreferences : after.unit.references = state.unit.references)
    (hfaithful : after.unit.Faithful) : Keeps others state after := by
  have orderly := booked.books.orderly
  have becomes : state.unit.Becomes after.unit := ⟨hskeleton.2, hsub⟩
  refine ⟨⟨booked.books.of_sameTags hskeleton.1 same becomes hreferences hfaithful,
    booked.anchored.of_sameTags orderly.identified same hreferences⟩, becomes, ?_⟩
  intro target hlive
  rw [(same.orderly orderly).live_iff, same.references?_eq orderly.identified]
  exact (orderly.live_iff target).1 hlive

lemma faithful_unit (booked : state.Booked others) : state.unit.Faithful :=
  booked.books.faithful (List.mem_cons_self ..)

lemma keeps_updates (booked : state.Booked others) (updates : List Update)
    (hfits : ∀ update ∈ updates, update.Fits) :
    Keeps others state { state with libraries := updates.foldl Update.apply state.libraries } := by
  have hskeleton : SameSkeleton state
      { state with libraries := updates.foldl Update.apply state.libraries } :=
    ⟨LibrarySet.skeleton_foldl LibrarySet.skeleton_update _ _, rfl⟩
  have same := LibrarySet.SameTags.foldl updates (fun _ orderly update hupdate =>
    LibrarySet.sameTags_update orderly (hfits update hupdate)) booked.books.orderly
  have hfaithful : state.unit.Faithful := faithful_unit booked
  exact keeps_of_sameTags booked hskeleton same (fun _ h => h) rfl hfaithful

/-- The other fields of the document do not matter. -/
lemma keeps_unit (booked : state.Booked others) {unit : SourceUnit}
    (hskeleton : unit.skeleton = state.unit.skeleton)
    (hoccurrences : unit.occurrences = state.unit.occurrences)
    (hlinks : unit.links = state.unit.links) : Keeps others state { state with unit } := by
  have hpath : unit.path = state.unit.path :=
    congrArg FileTree.path (SourceUnit.tree_of_skeleton_eq hskeleton)
  have hreferences : unit.references = state.unit.references := by
    rw [SourceUnit.references, hlinks, SourceUnit.references]
  have hfaithful : unit.Faithful := by
    have hold := faithful_unit booked
    unfold SourceUnit.Faithful at hold ⊢
    rw [hoccurrences, hpath, hreferences, hold]
  exact keeps_of_sameTags booked ⟨rfl, hskeleton⟩ (.refl _) (fun _ h => hoccurrences ▸ h)
    hreferences hfaithful

theorem keeps_addHeir (booked : state.Booked others) (found : DeclId × DeclId) :
    Keeps others state (state.addHeir found) := by
  obtain ⟨base, heir⟩ := found
  have hskeleton := sameSkeleton_addHeir state (base, heir)
  revert hskeleton
  simp only [addHeir]
  split
  · exact fun _ => .refl booked
  · intro hskeleton
    have hreferences : (state.unit.links ++ [BackLink.implementor base heir]).filterMap
        BackLink.reference? = state.unit.references := by
      rw [List.filterMap_append]
      simp [SourceUnit.references, BackLink.reference?]
    exact keeps_of_sameTags booked hskeleton
      (LibrarySet.sameTags_overImplementors booked.books.orderly.identified base _)
      (fun _ h => h) hreferences ((faithful_unit booked).trans hreferences.symm)

/-- Once a reference to a known target is written down, every reference of the documents is to a
target of the model. -/
lemma anchored_addReference (booked : state.Booked others) {target : Target} {location : Location}
    {known : List Location} (proper : target.Proper)
    (hknown : state.libraries.references? target = some known)
    {set : LibrarySet} {unit : SourceUnit}
    (hrefs : ∀ {other : Target} {refs : List Location}, other.Proper →
      state.libraries.references? other = some refs → ∃ refs', set.references? other = some refs')
    (hreferences : unit.references = state.unit.references ++ [(target, location)]) :
    set.Anchored (unit :: others) := by
  intro other hother reference hreference
  have hold : reference.1.Proper ∧
      ∃ refs, state.libraries.references? reference.1 = some refs := by
    rcases List.mem_cons.1 hother with rfl | hother
    · rw [hreferences, List.mem_append, List.mem_singleton] at hreference
      rcases hreference with h | rfl
      · exact ⟨booked.books.ledger.proper List.mem_cons_self h,
          booked.anchored _ List.mem_cons_self _ h⟩
      · exact ⟨proper, known, hknown⟩
    · exact ⟨booked.books.ledger.proper (List.mem_cons_of_mem _ hother) hreference,
        booked.anchored _ (List.mem_cons_of_mem _ hother) _ hreference⟩
  obtain ⟨hproper, refs, h⟩ := hold
  exact hrefs hproper h

/-- A reference to a live target is written into both places, or is in both already. -/
theorem keeps_addReference (booked : state.Booked others) {target : Target} {location : Location}
    (hlive : state.libraries.Live target) (hdocument : location.document = state.unit.path) :
    Keeps others state (state.addReference (target, location)) := by
  have orderly := booked.books.orderly
  obtain ⟨proper, known, hknown⟩ := (orderly.live_iff target).1 hlive
  have hskeleton := sameSkeleton_addReference state (target, location)
  revert hskeleton
  simp only [addReference, hknown]
  split
  · -- A known location is not recorded again.
    exact fun _ => .refl booked
  · next hnew =>
    intro hskeleton
    generalize hafter : Linkage.mk (state.libraries.overReferences (· ++ [location]) target)
      { state.unit.occur location.range target false true with
        links := (state.unit.occur location.range target false true).links ++
          [.reference target location] } = after at hskeleton ⊢
    have hlibraries : after.libraries
        = state.libraries.overReferences (· ++ [location]) target := by rw [← hafter]
    have hreferences : after.unit.references = state.unit.references ++ [(target, location)] := by
      rw [← hafter]
      simp [SourceUnit.references, SourceUnit.occur, BackLink.reference?]
    have hoccurrences : after.unit.occurrences
        = state.unit.occurrences ++ [⟨location.range, target, false, true⟩] := by rw [← hafter]; rfl
    have hpath : after.unit.path = state.unit.path := by rw [← hafter]; rfl
    have hfaithful : after.unit.Faithful := by
      have hold := faithful_unit booked
      unfold SourceUnit.Faithful at hold ⊢
      rw [hreferences, hoccurrences, hpath, List.filter_append, List.map_append, hold]
      simp [← hdocument]
    have becomes : state.unit.Becomes after.unit :=
      ⟨hskeleton.2, fun o ho => by rw [hoccurrences]; exact List.mem_append_left _ ho⟩
    have orderly' : after.libraries.Orderly := hlibraries ▸ orderly.overReferences _ target
    have hrefs {other : Target} {refs : List Location} (hother : other.Proper)
        (h : state.libraries.references? other = some refs) :
        ∃ refs', after.libraries.references? other = some refs' := by
      rw [hlibraries, orderly.references?_overReferences _ proper hother, h]
      split <;> exact ⟨_, rfl⟩
    refine ⟨⟨⟨?_, ?_, booked.books.faithful_cons hfaithful⟩, ?_⟩, becomes, ?_⟩
    · refine booked.books.toArranged.step hskeleton.1 hskeleton.2 becomes.undeclared ?_
      rw [hlibraries]
      exact LibrarySet.keepsOrder_overReferences orderly _ target
    · rw [hlibraries]
      exact booked.books.ledger.write orderly proper hknown hnew hreferences
    · exact anchored_addReference booked proper hknown hrefs hreferences
    · intro other hother
      obtain ⟨hproper, refs, h⟩ := (orderly.live_iff other).1 hother
      exact (orderly'.live_iff other).2 ⟨hproper, hrefs hproper h⟩

end Linkage

end SymbolGraph
