import SymbolGraph.Proofs.Model.SettledLibraries
import SymbolGraph.Session.Loading

/-!
# Loading a library keeps what holds of the model

A load may start further loads before its own documents are linked.  `LoadInvariant P` lists what a
property `P` of the libraries, the pool and all documents must survive for a load to keep it:
registering a library, tidying one document, and linking and checking the documents of one library.
The induction over nested loads is done once, for every such property (`Session.Keeps.load`), and
shows at the same time that no load meets a fault.  Documents of libraries whose load is still going
on are not part of the session yet; they are carried beside it as `extra`.

That the model is settled and the pool matches is the first such property.
-/

namespace SymbolGraph

/-! ## Passes over several documents -/

namespace Linkages

lemma skeleton_each {pass : Linkage → Linkage}
    (h : ∀ state, Linkage.SameSkeleton state (pass state)) (set : LibrarySet)
    (units : List SourceUnit) :
    (each pass set units).libraries.skeleton = set.skeleton ∧
      (each pass set units).units.map SourceUnit.skeleton = units.map SourceUnit.skeleton := by
  induction units generalizing set with
  | nil => exact ⟨rfl, rfl⟩
  | cons unit rest ih =>
    obtain ⟨hset, hunit⟩ := h ⟨set, unit⟩
    obtain ⟨hlibraries, hrest⟩ := ih (pass ⟨set, unit⟩).libraries
    refine ⟨hlibraries.trans hset, ?_⟩
    simp only [each, List.map_cons, hrest]
    rw [hunit]

lemma skeleton_link (state : Linkages) (options : LinkOptions) :
    (state.link options).libraries.skeleton = state.libraries.skeleton ∧
      (state.link options).units.map SourceUnit.skeleton
        = state.units.map SourceUnit.skeleton := by
  have hpass {pass : Linkage → Linkage} (h : ∀ state, Linkage.SameSkeleton state (pass state))
      (state : Linkages) : (state.applyPass pass).libraries.skeleton = state.libraries.skeleton ∧
        (state.applyPass pass).units.map SourceUnit.skeleton
          = state.units.map SourceUnit.skeleton :=
    skeleton_each h state.libraries state.units
  unfold link
  generalize h₁ : state.applyPass Linkage.linkImports = s₁
  generalize h₂ : s₁.applyPass Linkage.declareMembers = s₂
  generalize h₃ : s₂.applyPass (·.linkBases options) = s₃
  have k₁ := hpass Linkage.sameSkeleton_linkImports state
  have k₂ := hpass Linkage.sameSkeleton_declareMembers s₁
  have k₃ := hpass (fun s => Linkage.sameSkeleton_linkEach s options LinkBases.findings) s₂
  have k₄ := hpass (fun s => Linkage.sameSkeleton_linkEach s options LinkSignatures.findings) s₃
  rw [h₁] at k₁
  rw [h₂] at k₂
  have k₃' : s₃.libraries.skeleton = s₂.libraries.skeleton ∧
      s₃.units.map SourceUnit.skeleton = s₂.units.map SourceUnit.skeleton := h₃ ▸ k₃
  exact ⟨k₄.1.trans (k₃'.1.trans (k₂.1.trans k₁.1)), k₄.2.trans (k₃'.2.trans (k₂.2.trans k₁.2))⟩

end Linkages

lemma skeleton_handOut (report : Report) (units : List SourceUnit) :
    (handOut report units).map SourceUnit.skeleton = units.map SourceUnit.skeleton := by
  induction units generalizing report with
  | nil => rfl
  | cons unit rest ih =>
    rw [handOut, List.map_cons, List.map_cons, ih]
    rfl

/-- The documents of a library as they stand when it has been loaded. -/
def Linkages.finish (state : Linkages) (options : LinkOptions) (library : LibraryId) : Linkages :=
  let linked := state.link options
  let (libraries, report) := linked.libraries.check library
  ⟨libraries, handOut report linked.units⟩

lemma Linkages.skeleton_finish (state : Linkages) (options : LinkOptions)
    (library : LibraryId) :
    (state.finish options library).libraries.skeleton = state.libraries.skeleton ∧
      (state.finish options library).units.map SourceUnit.skeleton
        = state.units.map SourceUnit.skeleton := by
  obtain ⟨hlibraries, hunits⟩ := state.skeleton_link options
  refine ⟨?_, ?_⟩
  · exact ((state.link options).libraries.skeleton_check library).trans hlibraries
  · exact (skeleton_handOut _ _).trans hunits

/-! ## What a load keeps -/

/-- A property of the libraries, the pool and all documents that every load keeps.  A load writes
documents into new libraries only, so those that are `old` from the start are out of its reach. -/
structure LoadInvariant (P : LibrarySet → IndexPool → List SourceUnit → Prop)
    (old : LibraryId → Prop := (· = .project)) : Prop where
  old_project : old .project := by rfl
  old_loaded : ∀ {set pool units library}, P set pool units → old library →
    ∃ lib, set.get? library = some lib := by rintro _ _ _ _ _ rfl; exact ⟨_, rfl⟩
  settled : ∀ {set pool units}, P set pool units → set.Settled units
  pool : ∀ {set pool units}, P set pool units → pool.Matches set.project []
  perm : ∀ {set pool units units'}, P set pool units → units.Perm units' → P set pool units'
  addImport : ∀ {set pool units} name, P set pool units → P (set.addImport name).2 pool units
  tidy : ∀ {set pool units library lib tree bench}, P set pool units → ¬ old library →
    set.get? library = some lib →
    Workbench.tidy ⟨set, pool, .new tree library⟩ = ⟨bench, none⟩ →
    P bench.libraries bench.pool (bench.unit :: units)
  finish : ∀ {set pool units batch library} options, P set pool (batch ++ units) →
    ¬ old library → (∀ unit ∈ batch, unit.library = library ∧ unit.skeleton = unit) →
    P (Linkages.finish ⟨set, batch⟩ options library).libraries pool
      ((Linkages.finish ⟨set, batch⟩ options library).units ++ units)

/-- The first such property. -/
theorem loadInvariant_settled :
    LoadInvariant fun set pool units => set.Settled units ∧ pool.Matches set.project [] where
  settled h := h.1
  pool h := h.2
  perm h hperm := ⟨h.1.perm hperm, h.2⟩
  addImport name h := ⟨h.1.addImport name, h.2⟩
  tidy := by
    intro set pool units library lib tree bench h _ hloaded htidy
    obtain ⟨bench', htidy', hsettled, hpool, -⟩ := h.1.tidy hloaded h.2 tree
    rw [htidy] at htidy'
    obtain rfl : bench = bench' := by simpa using htidy'
    exact ⟨hsettled, hpool⟩
  finish := by
    intro set pool units batch library options h _ _
    obtain ⟨hset, hunits⟩ := Linkages.skeleton_finish ⟨set, batch⟩ options library
    refine ⟨h.1.of_skeleton_eq hset ?_, ?_⟩
    · rw [List.map_append, hunits, List.map_append]
    · exact h.2.of_skeleton_eq (congrArg LibrarySet.project hset)

/-! ## Tidying a batch -/

lemma Batch.tidy_eq {P : LibrarySet → IndexPool → List SourceUnit → Prop}
    {old : LibraryId → Prop} (inv : LoadInvariant P old) {library : LibraryId}
    (hlibrary : ¬ old library)
    (trees : List FileTree) (batch : Batch) {units : List SourceUnit}
    (h : P batch.libraries batch.pool (batch.units ++ units))
    (hloaded : ∃ lib, batch.libraries.get? library = some lib)
    (hbatch : ∀ unit ∈ batch.units, unit.library = library ∧ unit.skeleton = unit) :
    ∃ batch', Outcome.forEach (Batch.tidy library) trees batch = ⟨batch', none⟩ ∧
      P batch'.libraries batch'.pool (batch'.units ++ units) ∧
      batch.libraries.Grows library batch'.libraries ∧
      (∀ unit ∈ batch'.units, unit.library = library ∧ unit.skeleton = unit) := by
  induction trees generalizing batch with
  | nil => exact ⟨batch, rfl, h, .refl _ _, hbatch⟩
  | cons tree rest ih =>
    obtain ⟨lib, hlib⟩ := hloaded
    obtain ⟨bench, htidy, -, -, grows, -, hunit, hunlinked⟩ :=
      (inv.settled h).tidy hlib (inv.pool h) tree
    have hstep : Batch.tidy library tree batch
        = ⟨⟨bench.libraries, bench.pool, batch.units ++ [bench.unit]⟩, none⟩ := by
      simp only [Batch.tidy, htidy]
    have hnext : P bench.libraries bench.pool ((batch.units ++ [bench.unit]) ++ units) := by
      refine inv.perm (inv.tidy h hlibrary hlib htidy) ?_
      rw [List.append_assoc, List.singleton_append]
      exact List.perm_middle.symm
    have hunits : ∀ unit ∈ batch.units ++ [bench.unit],
        unit.library = library ∧ unit.skeleton = unit := by
      intro unit hmem
      rcases List.mem_append.1 hmem with hmem | hmem
      · exact hbatch unit hmem
      · rw [List.mem_singleton.1 hmem]
        exact ⟨hunit, hunlinked⟩
    obtain ⟨batch', hrest, hP, hgrows, hunits'⟩ := ih
      ⟨bench.libraries, bench.pool, batch.units ++ [bench.unit]⟩ hnext (grows.keeps hlib) hunits
    refine ⟨batch', ?_, hP, grows.trans hgrows, hunits'⟩
    rw [Outcome.forEach, hstep, Outcome.andThen_of_none, hrest]

/-! ## Sessions -/

namespace Session

/-- A property of the model holds in a session, with the documents `extra` beside it. -/
structure Keeps (P : LibrarySet → IndexPool → List SourceUnit → Prop) (extra : List SourceUnit)
    (session : Session) : Prop where
  holds : P session.libraries session.pool (extra ++ session.units)
  foreign_library : ∀ unit ∈ session.foreign.values.flatten, unit.library ≠ .project
  foreign_loaded : ∀ library ∈ session.foreign.keys,
    ∃ lib, session.libraries.get? library = some lib

/-- What a load leaves alone. -/
structure Loaded (before after : Session) : Prop where
  manifest_eq : after.manifest = before.manifest
  sources_eq : after.sources = before.sources
  files_eq : after.files = before.files
  dirty_eq : after.dirty = before.dirty
  removed_eq : after.removed = before.removed
  keeps : ∀ id lib, before.libraries.get? id = some lib →
    ∃ lib', after.libraries.get? id = some lib'
  foreign_units : ∀ unit ∈ before.foreign.values.flatten, unit ∈ after.foreign.values.flatten
  foreign_at : ∀ library units, before.foreign.at? library = some units →
    after.foreign.at? library = some units

/-- The libraries whose documents have been added are new ones. -/
def AddsNew (before after : Session) : Prop :=
  ∀ library ∈ after.foreign.keys,
    library ∈ before.foreign.keys ∨ before.libraries.get? library = none

lemma Loaded.refl (session : Session) : Loaded session session :=
  ⟨rfl, rfl, rfl, rfl, rfl, fun _ lib h => ⟨lib, h⟩, fun _ h => h, fun _ _ h => h⟩

lemma Loaded.trans {a b c : Session} (h : Loaded a b) (k : Loaded b c) : Loaded a c where
  manifest_eq := k.manifest_eq.trans h.manifest_eq
  sources_eq := k.sources_eq.trans h.sources_eq
  files_eq := k.files_eq.trans h.files_eq
  dirty_eq := k.dirty_eq.trans h.dirty_eq
  removed_eq := k.removed_eq.trans h.removed_eq
  keeps id lib hlib := by
    obtain ⟨lib', hlib'⟩ := h.keeps id lib hlib
    exact k.keeps id lib' hlib'
  foreign_units unit hunit := k.foreign_units unit (h.foreign_units unit hunit)
  foreign_at library units hunits := k.foreign_at library units (h.foreign_at library units hunits)

lemma AddsNew.trans {a b c : Session} (h : AddsNew a b) (hloaded : Loaded a b)
    (k : AddsNew b c) : AddsNew a c := by
  intro library hmem
  rcases k library hmem with hmem | hnone
  · exact h library hmem
  · refine Or.inr ?_
    cases hlib : a.libraries.get? library with
    | none => rfl
    | some lib =>
      obtain ⟨lib', hlib'⟩ := hloaded.keeps library lib hlib
      simp [hnone] at hlib'

/-- Loads one after the other. -/
lemma Loaded.foldl {P : Session → Prop} {step : Session → String → Session}
    (hstep : ∀ session name, P session → P (step session name) ∧
      Loaded session (step session name) ∧ AddsNew session (step session name))
    (names : List String) {session : Session} (h : P session) :
    P (names.foldl step session) ∧ Loaded session (names.foldl step session) ∧
      AddsNew session (names.foldl step session) := by
  induction names generalizing session with
  | nil => exact ⟨h, .refl session, fun _ h => Or.inl h⟩
  | cons name rest ih =>
    obtain ⟨hfirst, loaded₁, added₁⟩ := hstep session name h
    obtain ⟨hrest, loaded₂, added₂⟩ := ih hfirst
    exact ⟨hrest, loaded₁.trans loaded₂, added₁.trans loaded₁ added₂⟩

variable {P : LibrarySet → IndexPool → List SourceUnit → Prop} {old : LibraryId → Prop}
  {extra : List SourceUnit} {session : Session}

lemma keys_putSorted (foreign : Assoc LibraryId (List SourceUnit)) (library id : LibraryId)
    (units : List SourceUnit) :
    id ∈ (foreign.putSorted library units).keys ↔ id ∈ foreign.keys ∨ id = library := by
  induction foreign with
  | nil => simp [Assoc.putSorted]
  | cons entry rest ih =>
    obtain ⟨key, value⟩ := entry
    simp only [Assoc.putSorted]
    split
    · next heq =>
      subst heq
      simp only [Assoc.keys_cons, List.mem_cons]
      tauto
    · split
      · simp only [Assoc.keys_cons, List.mem_cons]
        tauto
      · simp only [Assoc.keys_cons, List.mem_cons, ih]
        tauto

lemma values_putSorted (foreign : Assoc LibraryId (List SourceUnit)) {library : LibraryId}
    (units : List SourceUnit) (h : library ∉ foreign.keys) :
    (foreign.putSorted library units).values.flatten.Perm (units ++ foreign.values.flatten) := by
  induction foreign with
  | nil => simp [Assoc.putSorted, Assoc.values]
  | cons entry rest ih =>
    obtain ⟨key, value⟩ := entry
    simp only [Assoc.keys_cons, List.mem_cons, not_or] at h
    have ih := ih h.2
    simp only [Assoc.putSorted, if_neg (Ne.symm h.1)]
    split
    · exact List.Perm.refl _
    · simp only [Assoc.values, List.map_cons, List.flatten_cons] at ih ⊢
      refine (ih.append_left value).trans ?_
      rw [← List.append_assoc, ← List.append_assoc]
      exact List.perm_append_comm.append_right _

lemma at?_putSorted (foreign : Assoc LibraryId (List SourceUnit)) (library id : LibraryId)
    (units : List SourceUnit) : (foreign.putSorted library units).at? id =
      if library = id then some units else foreign.at? id := by
  induction foreign with
  | nil => rfl
  | cons entry rest ih =>
    obtain ⟨key, value⟩ := entry
    simp only [Assoc.putSorted]
    split
    · next heq =>
      subst heq
      simp only [Assoc.at?_cons]
      split <;> rfl
    · next hne =>
      split
      · rfl
      · rw [Assoc.at?_cons, ih, Assoc.at?_cons]
        split
        · next heq => rw [if_neg (heq ▸ Ne.symm hne)]
        · rfl

/-- The documents of a registered library once they are tidied, before the loads that they ask
for. -/
lemma Keeps.tidied (inv : LoadInvariant P old) (keeps : session.Keeps P extra)
    {library : LibraryId} (hlibrary : ¬ old library)
    (hloaded : ∃ lib, session.libraries.get? library = some lib) (trees : List FileTree) :
    ∃ batch, Outcome.forEach (Batch.tidy library) trees ⟨session.libraries, session.pool, []⟩
        = ⟨batch, none⟩ ∧
      (∀ unit ∈ batch.units, unit.library = library ∧ unit.skeleton = unit) ∧
      session.libraries.Grows library batch.libraries ∧
      Keeps P (batch.units ++ extra)
        { session with libraries := batch.libraries, pool := batch.pool } ∧
      Loaded session { session with libraries := batch.libraries, pool := batch.pool } := by
  obtain ⟨batch, hbatch, hP, hgrows, hunits⟩ := Batch.tidy_eq inv hlibrary trees
    ⟨session.libraries, session.pool, []⟩ keeps.holds hloaded (by simp)
  refine ⟨batch, hbatch, hunits, hgrows, ⟨?_, keeps.foreign_library, ?_⟩,
    ⟨rfl, rfl, rfl, rfl, rfl, fun _ _ hlib => hgrows.keeps hlib, fun _ h => h, fun _ _ h => h⟩⟩
  · rw [List.append_assoc]
    exact hP
  · intro id hid
    obtain ⟨lib, hlib⟩ := keeps.foreign_loaded id hid
    exact hgrows.keeps hlib

/-- A session with the documents of a library, linked and filed under it. -/
def filed (session : Session) (library : LibraryId) (units : List SourceUnit) : Session :=
  let linked := Linkages.finish ⟨session.libraries, units⟩ session.options library
  { session with
    libraries := linked.libraries
    foreign := session.foreign.putSorted library linked.units }

lemma exists_library_filed {library id : LibraryId} {units : List SourceUnit} {lib : Library}
    (h : session.libraries.get? id = some lib) :
    ∃ lib', (session.filed library units).libraries.get? id = some lib' := by
  have hset := (Linkages.skeleton_finish ⟨session.libraries, units⟩ session.options library).1
  obtain ⟨lib', hlib', -⟩ := LibrarySet.get?_of_skeleton_eq hset.symm h
  exact ⟨lib', hlib'⟩

/-- Linking keeps the documents in the library that they were tidied into. -/
lemma library_of_mem_finish {library id : LibraryId} {units : List SourceUnit}
    (hunits : ∀ unit ∈ units, unit.library = library) {unit : SourceUnit}
    (h : unit ∈ (Linkages.finish ⟨session.libraries, units⟩ session.options id).units) :
    unit.library = library := by
  have hskeletons := (Linkages.skeleton_finish ⟨session.libraries, units⟩ session.options id).2
  obtain ⟨before, hbefore, he⟩ := SourceUnit.exists_of_skeleton_eq hskeletons h
  exact (congrArg (·.library) he).trans (hunits before hbefore)

/-- Documents that stood beside the session are among its own once they are filed. -/
lemma Keeps.filed (inv : LoadInvariant P old) {units : List SourceUnit}
    (keeps : session.Keeps P (units ++ extra)) {library : LibraryId} (hlibrary : ¬ old library)
    (hloaded : ∃ lib, session.libraries.get? library = some lib)
    (hkey : library ∉ session.foreign.keys)
    (hunits : ∀ unit ∈ units, unit.library = library ∧ unit.skeleton = unit) :
    (session.filed library units).Keeps P extra := by
  have hP : P session.libraries session.pool (units ++ (extra ++ session.units)) := by
    rw [← List.append_assoc]
    exact keeps.holds
  have hvalues := values_putSorted session.foreign
    (Linkages.finish ⟨session.libraries, units⟩ session.options library).units hkey
  refine ⟨inv.perm (inv.finish session.options hP hlibrary hunits) ?_, ?_, ?_⟩
  · refine List.Perm.trans ?_ ((hvalues.symm.append_left session.files).append_left extra)
    unfold Session.units
    rw [← List.append_assoc, ← List.append_assoc, ← List.append_assoc extra,
      ← List.append_assoc (extra ++ session.files)]
    refine List.Perm.append_right _ ?_
    rw [List.append_assoc]
    exact List.perm_append_comm
  · intro unit hunit
    rcases List.mem_append.1 (hvalues.mem_iff.1 hunit) with h | h
    · rw [library_of_mem_finish (fun unit hunit => (hunits unit hunit).1) h]
      rintro rfl
      exact hlibrary inv.old_project
    · exact keeps.foreign_library unit h
  · intro id hid
    rcases (keys_putSorted _ _ _ _).1 hid with h | rfl
    · obtain ⟨lib, hlib⟩ := keeps.foreign_loaded id h
      exact exists_library_filed hlib
    · obtain ⟨lib, hlib⟩ := hloaded
      exact exists_library_filed hlib

lemma loaded_filed {library : LibraryId} (hkey : library ∉ session.foreign.keys)
    (units : List SourceUnit) : Loaded session (session.filed library units) := by
  refine ⟨rfl, rfl, rfl, rfl, rfl, fun _ _ => exists_library_filed, ?_, ?_⟩
  · intro unit hunit
    exact (values_putSorted _ _ hkey).mem_iff.2 (List.mem_append_right _ hunit)
  · intro id units' hat
    have hne : library ≠ id := by
      rintro rfl
      rw [(Assoc.at?_eq_none_iff _ _).2 hkey] at hat
      cases hat
    exact (at?_putSorted ..).trans ((if_neg hne).trans hat)

/-- Compiling a registered library whose documents the session does not have yet. -/
lemma Keeps.compile (inv : LoadInvariant P old) (keeps : session.Keeps P extra)
    (loadNames : List String → Session → Session)
    (hnames : ∀ names extra session, session.Keeps P extra →
      (loadNames names session).Keeps P extra ∧ Loaded session (loadNames names session) ∧
        AddsNew session (loadNames names session))
    {library : LibraryId} (hlibrary : ¬ old library)
    (hloaded : ∃ lib, session.libraries.get? library = some lib)
    (hkey : library ∉ session.foreign.keys) (trees : List FileTree) :
    ∃ session', compile loadNames library trees session = ⟨session', none⟩ ∧
      session'.Keeps P extra ∧ Loaded session session' ∧
      ∀ id ∈ session'.foreign.keys, id = library ∨ id ∈ session.foreign.keys ∨
        session.libraries.get? id = none := by
  obtain ⟨batch, hbatch, hunits, -, keeps₀, loaded₀⟩ := keeps.tidied inv hlibrary hloaded trees
  obtain ⟨mid, hmid, keeps₁, loaded₁, added₁⟩ : ∃ mid,
      mid = (if library = .kernel then
          { session with libraries := batch.libraries, pool := batch.pool }
        else loadNames (importNames batch.units)
          { session with libraries := batch.libraries, pool := batch.pool }) ∧
      mid.Keeps P (batch.units ++ extra) ∧ Loaded session mid ∧ AddsNew session mid := by
    have added₀ : AddsNew session
        { session with libraries := batch.libraries, pool := batch.pool } :=
      fun _ h => Or.inl h
    split
    · exact ⟨_, rfl, keeps₀, loaded₀, added₀⟩
    · obtain ⟨keeps₁, loaded₁, added₁⟩ := hnames (importNames batch.units) _ _ keeps₀
      exact ⟨_, rfl, keeps₁, loaded₀.trans loaded₁, added₀.trans loaded₀ added₁⟩
  have hfinish : Session.compile loadNames library trees session
      = ⟨mid.filed library batch.units, none⟩ := by
    simp only [Session.compile, hbatch, ← hmid]
    rfl
  obtain ⟨lib, hlib⟩ := hloaded
  have hkey₁ : library ∉ mid.foreign.keys := by
    intro hmem
    rcases added₁ library hmem with h | h
    · exact hkey h
    · simp [h] at hlib
  refine ⟨_, hfinish, keeps₁.filed inv hlibrary (loaded₁.keeps library lib hlib) hkey₁ hunits,
    loaded₁.trans (loaded_filed hkey₁ batch.units), fun id hid => ?_⟩
  rcases (keys_putSorted _ _ _ _).1 hid with h | rfl
  · exact Or.inr (added₁ id h)
  · exact Or.inl rfl

/-- Registering an import under its identity, which nothing has yet. -/
lemma Keeps.register (inv : LoadInvariant P old) (keeps : session.Keeps P extra) (name : String) :
    Keeps P extra { session with libraries := (session.libraries.addImport name).2 } ∧
      Loaded session { session with libraries := (session.libraries.addImport name).2 } ∧
      (session.libraries.addImport name).1 ∉ session.foreign.keys ∧
      ¬ old (session.libraries.addImport name).1 := by
  have hnone := session.libraries.get?_addImport_fst name
  have registered : Loaded session
      { session with libraries := (session.libraries.addImport name).2 } := by
    refine ⟨rfl, rfl, rfl, rfl, rfl, ?_, fun _ h => h, fun _ _ h => h⟩
    intro id lib hlib
    rw [LibrarySet.get?_addImport]
    split
    · exact ⟨_, rfl⟩
    · exact ⟨lib, hlib⟩
  refine ⟨⟨inv.addImport name keeps.holds, keeps.foreign_library, ?_⟩, registered, ?_, ?_⟩
  · intro id hid
    obtain ⟨lib, hlib⟩ := keeps.foreign_loaded id hid
    exact registered.keeps id lib hlib
  · intro hmem
    obtain ⟨lib, hlib⟩ := keeps.foreign_loaded _ hmem
    simp [hnone] at hlib
  · intro hold
    obtain ⟨lib, hlib⟩ := inv.old_loaded keeps.holds hold
    simp [hnone] at hlib

/-- Loading an import keeps the property and meets no fault. -/
theorem Keeps.load (inv : LoadInvariant P old) (depth : Nat) (name : String)
    (keeps : session.Keeps P extra) :
    ∃ session', load depth name session = ⟨session', none⟩ ∧ session'.Keeps P extra ∧
      Loaded session session' ∧ AddsNew session session' := by
  -- The induction is on the depth, which bounds how far loads may be nested.
  induction depth generalizing name session extra with
  | zero => exact ⟨session, rfl, keeps, .refl session, fun _ h => Or.inl h⟩
  | succ depth ih =>
    cases hsources : session.sources.library? name with
    | none =>
      refine ⟨session, ?_, keeps, .refl session, fun _ h => Or.inl h⟩
      simp only [Session.load, hsources]
    | some trees =>
      -- One step of the nested loads; a name that is not wanted is passed over.
      have hstep (extra : List SourceUnit) (session : Session) (name : String)
          (keeps : session.Keeps P extra) :
          let next := if session.wants name then (Session.load depth name session).state
            else session
          next.Keeps P extra ∧ Loaded session next ∧ AddsNew session next := by
        obtain ⟨next, hnext, h⟩ := ih name keeps
        simp only [hnext]
        split
        · exact h
        · exact ⟨keeps, .refl session, fun _ h => Or.inl h⟩
      obtain ⟨keeps₀, registered, hkey, hnew⟩ := keeps.register inv name
      obtain ⟨after, hcompile, keeps₁, loaded₁, hkeys⟩ := keeps₀.compile inv _
        (fun names extra session keeps => Loaded.foldl (hstep extra) names keeps) hnew
        ⟨_, by rw [LibrarySet.get?_addImport, if_pos rfl]⟩ hkey trees
      refine ⟨after, ?_, keeps₁, registered.trans loaded₁, ?_⟩
      · simp only [Session.load, hsources]
        exact hcompile
      · intro id hid
        rcases hkeys id hid with rfl | h | h
        · exact Or.inr (session.libraries.get?_addImport_fst name)
        · exact Or.inl h
        · rw [LibrarySet.get?_addImport] at h
          split at h
          · cases h
          · exact Or.inr h

/-- Loading an import if it is wanted. -/
lemma Keeps.loadIfWanted (inv : LoadInvariant P old) (depth : Nat) (name : String)
    (keeps : session.Keeps P extra) :
    let next := if session.wants name then (Session.load depth name session).state else session
    next.Keeps P extra ∧ Loaded session next ∧ AddsNew session next := by
  obtain ⟨next, hnext, h⟩ := keeps.load inv depth name
  simp only [hnext]
  split
  · exact h
  · exact ⟨keeps, .refl session, fun _ h => Or.inl h⟩

/-- Loading the wanted imports among some names. -/
lemma Keeps.loadWanted (inv : LoadInvariant P old) (keeps : session.Keeps P extra)
    (names : List String) : (session.loadImports names).Keeps P extra ∧
      Loaded session (session.loadImports names) ∧
      AddsNew session (session.loadImports names) :=
  Loaded.foldl (fun _ name keeps => keeps.loadIfWanted inv _ name) names keeps

lemma Keeps.loadImports (inv : LoadInvariant P old) (keeps : session.Keeps P extra)
    (names : List String) :
    (session.loadImports names).Keeps P extra ∧ Loaded session (session.loadImports names) :=
  ⟨(keeps.loadWanted inv names).1, (keeps.loadWanted inv names).2.1⟩

/-- The documents of libraries that are there already stay as they are. -/
lemma Loaded.foreign_eq {after : Session} (loaded : Loaded session after)
    (added : AddsNew session after) {library : LibraryId} {lib : Library}
    (hlib : session.libraries.get? library = some lib) :
    after.foreign.at? library = session.foreign.at? library := by
  cases hunits : session.foreign.at? library with
  | some units => exact loaded.foreign_at library units hunits
  | none =>
    rw [Assoc.at?_eq_none_iff] at hunits ⊢
    intro hmem
    rcases added library hmem with h | h
    · exact hunits h
    · simp [h] at hlib

end Session

end SymbolGraph
