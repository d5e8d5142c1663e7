import SymbolGraph.Proofs.Linking.Unlinking

/-!
# A rebuild with nothing to do

Without waiting edits a rebuild still unlinks every document of the project, loads what is named,
links every document and checks the project.  It leads back to the very same session:

* unlinking leads back to the session that was linked, but for the reports of the last check
  (`Session.Sound.unlinkAll_linked`), provided that loading did not write into the project, which it
  does not do as long as no library names the project (`loadInvariant_quiet`);
* nothing that is named is left to be loaded (`Session.Sound.wants_loadImports`);
* linking and checking do not look at the reports of the last check (`Session.linked_congr`).
-/

namespace SymbolGraph

/-! ## Quiet loads -/

namespace LibrarySet

lemma project_adjust (set : LibrarySet) {id : LibraryId} (h : id ≠ .project)
    (f : Library → Library) : (set.adjust id f).project = set.project := by
  have hget := set.get?_adjust id .project f
  rw [if_neg h] at hget
  simpa [get?] using hget

lemma project_overReferences (set : LibrarySet) (f : List Location → List Location)
    {target : Target} (h : target.library ≠ .project) :
    (set.overReferences f target).project = set.project := by
  cases target with
  | declaration id => exact set.project_adjust h _
  | space ref => exact set.project_adjust h _

lemma Orderly.project_check {set : LibrarySet} (orderly : set.Orderly) {library : LibraryId}
    (h : library ≠ .project) : (set.check library).1.project = set.project := by
  refine orderly.check_induction (P := fun set' => set'.project = set.project) rfl ?_ ?_
  · exact fun hset hid => (project_adjust _ (hid ▸ h) _).trans hset
  · exact fun f hset hid => (project_adjust _ (hid ▸ h) _).trans hset

end LibrarySet

namespace Linkage

variable {state : Linkage} {others : List SourceUnit}

lemma project_addReference (state : Linkage) {found : Target × Location}
    (h : found.1.library ≠ .project) :
    (state.addReference found).libraries.project = state.libraries.project := by
  unfold addReference
  dsimp only
  split
  · rfl
  · split
    · rfl
    · exact state.libraries.project_overReferences _ h

lemma project_addHeir (state : Linkage) {found : DeclId × DeclId}
    (h : found.1.library ≠ .project) :
    (state.addHeir found).libraries.project = state.libraries.project := by
  unfold addHeir
  dsimp only
  split
  · rfl
  · exact state.libraries.project_adjust h _

/-- What is found for a document of another library that does not lead to the project. -/
lemma project_apply (settled : state.libraries.Settled (state.unit :: others))
    (hlibrary : state.unit.library ≠ .project) {found : Findings}
    (among : found.Among state.libraries (· ≠ .project) state.unit.path state.unit.declarations) :
    (state.apply found).libraries.project = state.libraries.project := by
  have hupdates : (found.updates.foldl Update.apply state.libraries).project
      = state.libraries.project := by
    refine List.foldlRecOn (motive := fun set => set.project = state.libraries.project)
      found.updates Update.apply rfl fun set hset update hupdate => ?_
    obtain ⟨edit, -, happly⟩ := update.exists_passing
    obtain ⟨hid, -⟩ := settled.declared List.mem_cons_self (among.updates hupdate).2.1
    have htarget : update.target.library = state.unit.library :=
      update.target.holder_seat.1.symm.trans (congrArg DeclId.library hid)
    rw [happly]
    exact (set.project_adjust (htarget ▸ hlibrary) _).trans hset
  have hreferences := List.foldlRecOn
    (motive := fun mid : Linkage => mid.libraries.project = state.libraries.project)
    found.references addReference (b := ⟨_, state.unit⟩) hupdates fun mid hmid reference h =>
      (mid.project_addReference (among.references h).1.2).trans hmid
  exact List.foldlRecOn
    (motive := fun mid : Linkage => mid.libraries.project = state.libraries.project)
    found.heirs addHeir hreferences fun mid hmid pair h =>
      (mid.project_addHeir (among.heirs h).1.2).trans hmid

lemma project_declareMembers (settled : state.libraries.Settled (state.unit :: others))
    (hlibrary : state.unit.library ≠ .project) :
    state.declareMembers.libraries.project = state.libraries.project := by
  refine List.foldlRecOn
    (motive := fun mid : Linkage => mid.libraries.project = state.libraries.project)
    _ LinkMembers.declareFor rfl ?_
  rintro mid hmid ⟨id, node⟩ hpair
  obtain ⟨hid, -⟩ := settled.declared List.mem_cons_self (List.of_mem_zip hpair).1
  have hid : id.library = state.unit.library := congrArg DeclId.library hid
  unfold LinkMembers.declareFor
  dsimp only
  split
  · exact hmid
  · exact (mid.libraries.project_adjust (hid ▸ hlibrary) _).trans hmid

end Linkage

variable {name : String} {set : LibrarySet}

/-- Linking documents that keep away from the project leaves it as it is. -/
lemma Insular.project_link {batch others : List SourceUnit}
    (insular : Insular name set (batch ++ others)) (booked : Linkages.Booked set (batch ++ others))
    (hundeclared : ∀ unit ∈ batch, unit.Undeclared) (haloof : ∀ unit ∈ batch, unit.Aloof name)
    (options : LinkOptions) :
    (Linkages.link ⟨set, batch⟩ options).libraries.project = set.project := by
  have habroad {state : Linkage} {others : List SourceUnit}
      (insular : Insular name state.libraries (state.unit :: others))
      (aloof : state.unit.Aloof name) : state.Among (· ≠ .project) :=
    Linkage.among_abroad insular aloof.library aloof.shuns aloof.scopes
  have hpass {state after : Linkage} {others : List SourceUnit}
      (h : Insular name after.libraries (after.unit :: others) ∧ after.unit.Aloof name)
      (hbefore : state.libraries.project = set.project)
      (hproject : after.libraries.project = state.libraries.project) :
      (Insular name after.libraries (after.unit :: others) ∧
        after.libraries.project = set.project) ∧ after.unit.Aloof name :=
    ⟨⟨h.1, hproject.trans hbefore⟩, h.2⟩
  refine (Linkages.Booked.link_induction options
    (fun set' units => Insular name set' units ∧ set'.project = set.project)
    (SourceUnit.Aloof name) (fun h hperm => ⟨h.1.perm hperm, h.2⟩) ?_ ?_ ?_ ?_ booked ⟨insular, rfl⟩
    fun unit hunit => ⟨hundeclared unit hunit, haloof unit hunit⟩).2.2
  · intro state others booked h hunit
    refine hpass (Linkage.aloof_linkImports h.1 booked hunit) h.2 ?_
    obtain ⟨hamong, -⟩ := (habroad h.1 hunit).imported booked.books.legible
    have keeps : Linkage.Keeps others state
        { state with unit := { state.unit with scopes := state.imported.1 } } :=
      Linkage.keeps_unit booked rfl rfl rfl
    rw [Linkage.linkImports_eq booked.settled]
    exact Linkage.project_apply keeps.booked.settled hunit.library hamong
  · intro state others booked h hunit
    exact hpass (Linkage.aloof_declareMembers h.1 booked hunit) h.2
      (Linkage.project_declareMembers booked.settled hunit.library)
  · intro state others booked h hunit
    have hamong := (habroad h.1 hunit).foundBases booked.arranged options
    exact hpass (Linkage.aloof_apply h.1 booked hunit hamong) h.2
      (Linkage.project_apply booked.settled hunit.library hamong)
  · intro state others booked h hunit
    have hamong := (habroad h.1 hunit).foundSignatures booked.arranged options
    exact hpass (Linkage.aloof_apply h.1 booked hunit hamong) h.2
      (Linkage.project_apply booked.settled hunit.library hamong)

/-- Loading leaves the project as it is, as long as the libraries shun its name. -/
theorem loadInvariant_quiet (name : String) (project : Library) :
    LoadInvariant fun set pool units => ((Linkages.Booked set units ∧ pool.Matches set.project []) ∧
      (Shunned name units → Insular name set units)) ∧
      (Shunned name units → set.project = project) where
  settled h := (loadInvariant_insular name).settled h.1
  pool h := (loadInvariant_insular name).pool h.1
  perm h hperm := ⟨(loadInvariant_insular name).perm h.1 hperm, fun shunned =>
    h.2 fun unit hunit => shunned unit (hperm.mem_iff.1 hunit)⟩
  addImport library h := ⟨(loadInvariant_insular name).addImport library h.1, h.2⟩
  tidy := by
    intro set pool units library lib tree bench h hproject hloaded htidy
    refine ⟨(loadInvariant_insular name).tidy h.1 hproject hloaded htidy, fun shunned => ?_⟩
    obtain ⟨bench', htidy', -, -, hgrows, -⟩ := h.1.1.1.1.settled.tidy hloaded h.1.1.2 tree
    obtain rfl : bench = bench' := by simpa [htidy] using htidy'
    have hsame : bench.libraries.project = set.project :=
      Option.some.inj (hgrows.other (Ne.symm hproject))
    exact hsame.trans (h.2 fun unit hunit => shunned unit (List.mem_cons_of_mem _ hunit))
  finish := by
    intro set pool units batch library options h hproject hbatch
    refine ⟨(loadInvariant_insular name).finish options h.1 hproject hbatch, fun shunned => ?_⟩
    have shunned' : Shunned name (batch ++ units) := shunned.of_finish
    have hundeclared : ∀ unit ∈ batch, unit.Undeclared :=
      fun unit hunit => undeclared_of_skeleton_eq (hbatch unit hunit).2
    have haloof := shunned'.aloof hproject hbatch
    have hlinked := (h.1.2 shunned').project_link h.1.1.1 hundeclared haloof options
    have hbooked := h.1.1.1.link hundeclared options
    exact (hbooked.1.orderly.project_check hproject).trans (hlinked.trans (h.2 shunned'))

/-! ## Loading again -/

/-- A name that is registered stays registered. -/
theorem loadInvariant_named (name : String) : LoadInvariant fun set pool units =>
    (set.Settled units ∧ pool.Matches set.project []) ∧ (set.named? name).isSome where
  settled h := h.1.1
  pool h := h.1.2
  perm h hperm := ⟨loadInvariant_settled.perm h.1 hperm, h.2⟩
  addImport := by
    intro set pool units other h
    refine ⟨loadInvariant_settled.addImport other h.1, ?_⟩
    rw [LibrarySet.named?, LibrarySet.addImport, Assoc.at?_put]
    split
    · rfl
    · exact h.2
  tidy := by
    intro set pool units library lib tree bench h hproject hloaded htidy
    refine ⟨loadInvariant_settled.tidy h.1 hproject hloaded htidy, ?_⟩
    obtain ⟨bench', htidy', -, -, hgrows, -⟩ := h.1.1.tidy hloaded h.1.2 tree
    obtain rfl : bench = bench' := by simpa [htidy] using htidy'
    rw [LibrarySet.named?, hgrows.names_eq]
    exact h.2
  finish := by
    intro set pool units batch library options h hproject hbatch
    refine ⟨loadInvariant_settled.finish options h.1 hproject hbatch, ?_⟩
    obtain ⟨hset, -⟩ := Linkages.skeleton_finish ⟨set, batch⟩ options library
    rw [LibrarySet.named?, LibrarySet.names_of_skeleton_eq hset]
    exact h.2

namespace Session

variable {session : Session} {extra : List SourceUnit}
  {P : LibrarySet → IndexPool → List SourceUnit → Prop} {old : LibraryId → Prop}

/-- A load registers the library, if its sources are at hand. -/
lemma Sound.named?_load (sound : session.Sound) (depth : Nat) {name : String}
    {trees : List FileTree} (hsources : session.sources.library? name = some trees) :
    ((load (depth + 1) name session).state.libraries.named? name).isSome := by
  obtain ⟨registered, -, hkey, hnew⟩ :=
    (sound.keeps ⟨sound.settled, sound.pool⟩).register loadInvariant_settled name
  have hnamed : ((session.libraries.addImport name).2.named? name).isSome := by
    simp [LibrarySet.named?, LibrarySet.addImport]
  have keeps : Keeps (fun set pool units => (set.Settled units ∧ pool.Matches set.project []) ∧
      (set.named? name).isSome) []
      { session with libraries := (session.libraries.addImport name).2 } :=
    ⟨⟨registered.holds, hnamed⟩, registered.foreign_library, registered.foreign_loaded⟩
  obtain ⟨after, hcompile, keeps', -⟩ := keeps.compile (loadInvariant_named name) _
    (fun names extra session keeps => Loaded.foldl
      (fun _ name' keeps => keeps.loadIfWanted (loadInvariant_named name) depth name') names keeps)
    hnew ⟨_, by rw [LibrarySet.get?_addImport, if_pos rfl]⟩ hkey trees
  have hload : load (depth + 1) name session = ⟨after, none⟩ := by
    simp only [load, hsources]
    exact hcompile
  rw [hload]
  exact keeps'.holds.2

lemma Sound.named?_loadImports (sound : session.Sound) (names : List String) {name : String}
    (h : (session.libraries.named? name).isSome) :
    ((session.loadImports names).libraries.named? name).isSome :=
  ((sound.keeps ⟨⟨sound.settled, sound.pool⟩, h⟩).loadImports
    (loadInvariant_named name) names).1.holds.2

/-- What is still wanted after loading has no sources. -/
theorem Sound.wants_loadImports (sound : session.Sound) (names : List String) {name : String}
    (hname : name ∈ names) (hwants : (session.loadImports names).wants name = true) :
    session.sources.library? name = none := by
  induction names generalizing session with
  | nil => simp at hname
  | cons first rest ih =>
    obtain ⟨next, hnext⟩ : ∃ next, next = if session.wants first then
      (load session.manifest.libraries.length first session).state else session := ⟨_, rfl⟩
    have hstep : session.loadImports (first :: rest) = next.loadImports rest := by
      rw [hnext]
      rfl
    obtain ⟨keeps, loaded, -⟩ := (sound.keeps ⟨sound.settled, sound.pool⟩).loadIfWanted
      loadInvariant_settled session.manifest.libraries.length first
    rw [← hnext] at keeps loaded
    have sound' : next.Sound := sound.of_keeps loaded keeps
    rw [hstep] at hwants
    rcases List.mem_cons.1 hname with rfl | hrest
    · -- A name that is wanted in the end has not been registered, although its turn came.
      by_contra hsources
      obtain ⟨trees, htrees⟩ := Option.ne_none_iff_exists'.1 hsources
      obtain ⟨hdeclares, hunnamed⟩ := Bool.and_eq_true_iff.1 hwants
      rw [(sound'.loadImports rest).2.manifest_eq, loaded.manifest_eq] at hdeclares
      have hnamed : (next.libraries.named? name).isSome := by
        rw [hnext]
        split
        · obtain ⟨depth, hdepth⟩ : ∃ depth, session.manifest.libraries.length = depth + 1 :=
            Nat.exists_eq_succ_of_ne_zero fun h => by
              simp [Manifest.declares, List.eq_nil_of_length_eq_zero h] at hdeclares
          rw [hdepth]
          exact sound.named?_load depth htrees
        · next hnot => simpa [wants, hdeclares, Option.isSome_iff_ne_none] using hnot
      have hnamed' := sound'.named?_loadImports rest hnamed
      simp [Option.isNone_iff_eq_none.1 hunnamed] at hnamed'
    · rw [← loaded.sources_eq]
      exact ih sound' hrest hwants

/-- Loading changes nothing if nothing that is wanted has sources. -/
lemma loadImports_eq_self {names : List String} (h : ∀ name ∈ names, session.wants name = true →
      session.sources.library? name = none) : session.loadImports names = session := by
  refine foldl_eq_self fun name hname => ?_
  split
  · next hwants =>
    have hsources := h name hname hwants
    cases session.manifest.libraries.length with
    | zero => rfl
    | succ depth => simp only [load, hsources]
  · rfl

end Session

/-! ## Reports of the last check -/

/-- A document without the report of the last check. -/
def SourceUnit.unchecked (unit : SourceUnit) : SourceUnit :=
  { unit with diagnostics := unit.diagnostics.clear .check }

namespace Linkage

def unchecked (state : Linkage) : Linkage := { state with unit := state.unit.unchecked }

lemma commute_addReference (found : Target × Location) :
    Function.Commute unchecked (addReference · found) := by
  intro state
  simp only [addReference, unchecked]
  split
  · rfl
  · split <;> rfl

lemma commute_addHeir (found : DeclId × DeclId) :
    Function.Commute unchecked (addHeir · found) := by
  intro state
  simp only [addHeir, unchecked]
  split <;> rfl

lemma commute_apply (found : Findings) : Function.Commute unchecked (apply · found) := by
  intro state
  have hreferences := commute_foldl found.references
    fun reference _ => commute_addReference reference
  have hheirs := commute_foldl found.heirs fun pair _ => commute_addHeir pair
  have h := (hheirs.comp_right hreferences)
    ⟨found.updates.foldl Update.apply state.libraries, state.unit⟩
  exact congrArg (fun mid : Linkage =>
    { mid with unit := mid.unit.report .link found.diagnostics }) h

lemma commute_linkImports : Function.Commute unchecked linkImports := by
  intro state
  unfold linkImports
  dsimp only
  cases hlib : state.libraries.get? state.unit.library with
  | none =>
    simp only [unchecked, SourceUnit.unchecked, hlib]
    exact commute_apply {} { state with unit := { state.unit with scopes := [] } }
  | some lib =>
    simp only [unchecked, SourceUnit.unchecked, hlib]
    exact commute_apply _ { state with unit := { state.unit with scopes := _ } }

lemma commute_declareMembers : Function.Commute unchecked declareMembers := by
  intro state
  refine commute_foldl (state.unit.declarations.zip state.unit.nodes)
    (fun declared _ mid => ?_) state
  simp only [LinkMembers.declareFor, unchecked]
  split <;> rfl

lemma commute_linkEach (options : LinkOptions) (find : Context → DeclId → DeclNode → Findings) :
    Function.Commute unchecked (linkEach · options find) :=
  fun state => commute_apply (state.found options find) state

end Linkage

namespace Linkages

/-- A pass over several documents that does not look at the reports of the last check. -/
lemma each_unchecked {pass : Linkage → Linkage} (h : Function.Commute Linkage.unchecked pass)
    (set : LibrarySet) (units : List SourceUnit) :
    each pass set (units.map SourceUnit.unchecked) = ⟨(each pass set units).libraries,
      (each pass set units).units.map SourceUnit.unchecked⟩ := by
  induction units generalizing set with
  | nil => rfl
  | cons unit rest ih =>
    have hunit : pass ⟨set, unit.unchecked⟩ = (pass ⟨set, unit⟩).unchecked := (h ⟨set, unit⟩).symm
    simp only [each, List.map_cons, hunit, Linkage.unchecked, ih]

lemma link_unchecked (set : LibrarySet) (units : List SourceUnit) (options : LinkOptions) :
    link ⟨set, units.map SourceUnit.unchecked⟩ options = ⟨(link ⟨set, units⟩ options).libraries,
      (link ⟨set, units⟩ options).units.map SourceUnit.unchecked⟩ := by
  simp only [link, applyPass, each_unchecked Linkage.commute_linkImports,
    each_unchecked Linkage.commute_declareMembers, Linkage.linkBases, Linkage.linkSignatures,
    each_unchecked (Linkage.commute_linkEach options _)]

end Linkages

/-! ## Rebuilds -/

namespace Session

variable {session : Session}

/-- A report counts the documents and their findings as they stand after the rebuild. -/
theorem report_of_rebuild {after : Session} {report : RebuildReport}
    (h : session.rebuild = (after, .ok report)) :
    report.linked = after.files.length ∧ report.diagnostics
      = after.files.foldl (fun total unit => total + unit.diagnostics.size) 0 := by
  simp only [rebuild] at h
  split at h
  · exact absurd (Prod.mk.inj h).2 (by simp)
  · split at h
    · exact absurd (Prod.mk.inj h).2 (by simp)
    · obtain ⟨hafter, hreport⟩ := Prod.mk.inj h
      rw [← hafter, ← Except.ok.inj hreport]
      simp only [and_self]

/-- Without waiting edits, a rebuild unlinks the project and links it again. -/
lemma rebuild_of_idle (hdirty : session.dirty = []) (hremoved : session.removed = []) :
    ∃ linked diagnostics,
      session.rebuild = (session.unlinkAll.relink, .ok ⟨0, 0, linked, diagnostics⟩) := by
  obtain ⟨manifest, sources, libraries, pool, files, foreign, dirty, removed⟩ := session
  obtain rfl : dirty = [] := hdirty
  obtain rfl : removed = [] := hremoved
  exact ⟨_, _, rfl⟩

/-- A session without the reports of the last check. -/
def unchecked (session : Session) : Session :=
  { session with files := session.files.map SourceUnit.unchecked }

lemma unchecked_overFiles_link (session : Session) (options : LinkOptions) :
    (session.overFiles (·.link options)).unchecked
      = session.unchecked.overFiles (·.link options) := by
  simp only [overFiles, unchecked, Linkages.link_unchecked]

/-- Checking the project replaces the reports of the last check. -/
lemma checkProject_unchecked (session : Session) :
    session.unchecked.checkProject = session.checkProject := by
  simp only [checkProject, unchecked, List.map_map]
  rfl

/-- Linking and checking do not look at the reports of the last check. -/
theorem linked_congr {other : Session} (h : other.unchecked = session.unchecked)
    (options : LinkOptions) : (other.overFiles (·.link options)).checkProject
      = (session.overFiles (·.link options)).checkProject := by
  rw [← checkProject_unchecked, ← checkProject_unchecked (session.overFiles _),
    unchecked_overFiles_link, unchecked_overFiles_link, h]

end Session

namespace Linkages

lemma undo_congr {units units' : List SourceUnit}
    (h : units'.map (fun unit => (unit.declarations, unit.links))
      = units.map fun unit => (unit.declarations, unit.links)) (set : LibrarySet) :
    undo units' set = undo units set := by
  have hundo (units : List SourceUnit) : undo units set
      = (units.map fun unit => (unit.declarations, unit.links)).foldl (fun set record =>
        record.1.foldl (·.edit · .reset) (record.2.foldl Linkage.dropLink set)) set := by
    rw [List.foldl_map]
    rfl
  rw [hundo, hundo, h]

lemma unchecked_unlink (set : LibrarySet) (units : List SourceUnit) :
    (each Linkage.unlink set units).units.map SourceUnit.unchecked
      = units.map SourceUnit.skeleton := by
  induction units generalizing set with
  | nil => rfl
  | cons unit rest ih =>
    have hunit : (Linkage.unlink ⟨set, unit⟩).unit.unchecked = unit.skeleton :=
      (SourceUnit.Unlinked.unlink ⟨set, unit⟩).trans (Linkage.sameSkeleton_unlink ⟨set, unit⟩).2
    simp only [each, List.map_cons, hunit, ih]

end Linkages

namespace Session

variable {session : Session}

/-- Unlinking depends on the skeletons of the documents and on their back-links. -/
lemma unchecked_unlinkAll (session : Session) : session.unlinkAll.unchecked = { session with
    libraries := Linkages.undo session.files session.libraries
    files := session.files.map SourceUnit.skeleton } := by
  simp only [unchecked, unlinkAll, overFiles, Linkages.applyPass, Linkages.libraries_unlink,
    Linkages.unchecked_unlink]

/-- Checking changes neither the skeletons of the documents nor their back-links. -/
lemma unlinked_checkProject (session : Session) : ({ session.checkProject with
      libraries := Linkages.undo session.checkProject.files session.checkProject.libraries
      files := session.checkProject.files.map SourceUnit.skeleton } : Session)
    = { session with
      libraries := Linkages.undo session.files (session.libraries.check .project).1
      files := session.files.map SourceUnit.skeleton } := by
  have hfiles : session.checkProject.files.map (fun unit => (unit.declarations, unit.links))
      = session.files.map fun unit => (unit.declarations, unit.links) := by
    simp only [checkProject, List.map_map]
    rfl
  rw [Linkages.undo_congr hfiles]
  simp only [checkProject, List.map_map]
  rfl

/-- The documents of the project are those of the session. -/
lemma Sound.own_units (sound : session.Sound) {files : List SourceUnit}
    (hfiles : files.map SourceUnit.skeleton = session.files.map SourceUnit.skeleton) :
    Linkages.own (files ++ session.foreign.values.flatten) = files := by
  have hproject : ∀ unit ∈ files, unit.library = .project := by
    intro unit hunit
    obtain ⟨old, hold, hskeleton⟩ := SourceUnit.exists_of_skeleton_eq hfiles hunit
    exact (congrArg (·.library) hskeleton : unit.library = old.library).trans
      (sound.files_library old hold)
  rw [Linkages.own, List.filter_append, List.filter_eq_self.2 (by simpa using hproject),
    List.filter_eq_nil_iff.2 (by simpa using sound.foreign_library), List.append_nil]

/-- There is nothing to undo in a blank project. -/
lemma Sound.undo_of_blank (sound : session.Sound) (blank : session.libraries.ProjectBlank)
    (hunlinked : ∀ unit ∈ session.files, unit.Unlinked) :
    Linkages.undo session.files session.libraries = session.libraries := by
  have hown : Linkages.own session.units = session.files := sound.own_units rfl
  have hundo := sound.settled.undo_of_blank blank (by
    rw [hown]
    exact fun unit hunit => congrArg (·.links) (hunlinked unit hunit))
  rwa [hown] at hundo

/-- Unlinking takes back what linking and checking have done to a blank project, but for the reports
of the check. -/
theorem Sound.unlinkAll_linked (sound : session.Sound)
    (arranged : session.libraries.Arranged session.units)
    (noted : session.libraries.Noted session.units) (blank : session.libraries.ProjectBlank)
    (hunlinked : ∀ unit ∈ session.files, unit.Unlinked) (options : LinkOptions) :
    (session.overFiles (·.link options)).checkProject.unlinkAll.unchecked = session.unchecked := by
  have hundeclared : ∀ unit ∈ session.files, unit.Undeclared :=
    fun unit hunit => (hunlinked unit hunit).undeclared
  have hlinks : ∀ unit ∈ session.files, unit.links = [] :=
    fun unit hunit => congrArg (·.links) (hunlinked unit hunit)
  obtain ⟨hset, hfiles⟩ := Linkages.skeleton_link ⟨session.libraries, session.files⟩ options
  have hlinked : (Linkages.link ⟨session.libraries, session.files⟩ options).libraries.Arranged
      ((Linkages.link ⟨session.libraries, session.files⟩ options).units
        ++ session.foreign.values.flatten) := Linkages.arranged_link arranged hundeclared options
  have hblank := sound.undo_of_blank blank hunlinked
  have hunlisted := sound.unlisted noted fun unit hunit => by
    rw [SourceUnit.heirs, hlinks unit hunit, List.filterMap_nil]
  have hundo := Linkages.undo_link arranged hundeclared sound.files_library (by
    rw [sound.own_units rfl, hblank]
    exact hunlisted) options
  have hcheck := hlinked.undo_check
  rw [sound.own_units rfl, sound.own_units hfiles, hblank] at hundo
  rw [sound.own_units hfiles, hundo] at hcheck
  have hunchecked : session.files.map SourceUnit.unchecked
      = session.files.map SourceUnit.skeleton := List.map_congr_left hunlinked
  rw [unchecked_unlinkAll, unlinked_checkProject]
  simp only [overFiles, unchecked, hcheck, hfiles, hunchecked]

lemma importNames_unchecked (units : List SourceUnit) :
    importNames (units.map SourceUnit.unchecked) = importNames units := by
  rw [importNames, List.flatMap_map]
  rfl

/-- What a session wants does not depend on the reports of the last check. -/
lemma wants_of_unchecked_eq {other : Session} (h : other.unchecked = session.unchecked)
    (name : String) : other.wants name = session.wants name := by
  have hmanifest : other.manifest = session.manifest := congrArg (·.manifest) h
  have hlibraries : other.libraries = session.libraries := congrArg (·.libraries) h
  rw [wants, wants, hmanifest, hlibraries]

/-- Linking once more what has been linked and unlinked again finds nothing new to load, and does
the same as before. -/
lemma Sound.relink_unlinkAll (sound : session.Sound)
    (h : session.relink.unlinkAll.unchecked
      = (session.loadImports (importNames session.files)).unchecked) :
    session.relink.unlinkAll.relink = session.relink := by
  obtain ⟨-, loaded⟩ := sound.loadImports (importNames session.files)
  have hdefinition : session.relink = ((session.loadImports (importNames session.files)).overFiles
    (·.link (session.loadImports (importNames session.files)).options)).checkProject := rfl
  generalize session.relink.unlinkAll = unlinked at h ⊢
  have hsources : unlinked.sources = session.sources :=
    (congrArg (·.sources) h : unlinked.sources = _).trans loaded.sources_eq
  have hnames : importNames unlinked.files = importNames session.files := by
    have hfiles : unlinked.files.map SourceUnit.unchecked
      = session.files.map SourceUnit.unchecked := loaded.files_eq ▸ congrArg (·.files) h
    rw [← importNames_unchecked, hfiles, importNames_unchecked]
  have hloads : unlinked.loadImports (importNames unlinked.files) = unlinked := by
    refine loadImports_eq_self fun name hname hwants => ?_
    rw [hsources]
    rw [hnames] at hname
    exact sound.wants_loadImports _ hname (wants_of_unchecked_eq h name ▸ hwants)
  have hoptions : unlinked.options = (session.loadImports (importNames session.files)).options := by
    have hmanifest : unlinked.manifest
      = (session.loadImports (importNames session.files)).manifest := congrArg (·.manifest) h
    rw [options, options, hmanifest]
  rw [Session.relink, hloads, hoptions, hdefinition]
  exact linked_congr h _

lemma idle_relink (session : Session) :
    session.relink.dirty = (session.loadImports (importNames session.files)).dirty ∧
      session.relink.removed = (session.loadImports (importNames session.files)).removed := by
  simp only [relink, checkProject, overFiles, and_self]

/-- Linking again adds no other library than those it loads. -/
lemma quiet_relink (session : Session) : session.relink.Quiet ↔
    (session.loadImports (importNames session.files)).Quiet := by
  obtain ⟨hforeign, hmanifest⟩ := foreign_checkProject
    ((session.loadImports (importNames session.files)).overFiles
      (·.link (session.loadImports (importNames session.files)).options))
  rw [relink, Quiet, hforeign, hmanifest]
  rfl

/-- A second rebuild in a row finds everything as the first one left it. -/
theorem Sound.rebuild_rebuild (sound : session.Sound)
    (arranged : session.libraries.Arranged session.units)
    (noted : session.libraries.Noted session.units) (balanced : session.Balanced)
    (quiet : session.rebuild.1.Quiet) : ∃ report, session.rebuild.2 = .ok report ∧
      session.rebuild.1.rebuild
        = (session.rebuild.1, .ok ⟨0, 0, report.linked, report.diagnostics⟩) := by
  obtain ⟨torn, pool, tidied, report, hperm, hcleared, hsound, htidied, hrebuild⟩ :=
    sound.rebuild_eq
  have readied := sound.readied_tidied balanced.booked (balanced.lasting sound) hperm hcleared
    hsound htidied
  obtain ⟨hnoted, -⟩ := sound.noted_of_tidied arranged noted hperm htidied
  obtain ⟨hlinked, hdiagnostics⟩ := report_of_rebuild hrebuild
  rw [hrebuild] at quiet ⊢
  refine ⟨report, rfl, ?_⟩
  obtain ⟨hdirty, hremoved⟩ := tidied.idle_relink
  obtain ⟨keeps, loaded⟩ := (hsound.keeps
    ⟨⟨readied.booked.1.toArranged, hsound.pool⟩, hnoted⟩).loadImports loadInvariant_noted
      (importNames tidied.files)
  obtain ⟨keeps', -⟩ := (hsound.keeps ⟨⟨⟨readied.booked, hsound.pool⟩, fun _ =>
    balanced.insular_readied readied⟩, fun _ => rfl⟩).loadImports
    (loadInvariant_quiet session.manifest.name tidied.libraries.project) (importNames tidied.files)
  obtain ⟨hmid, -⟩ := hsound.loadImports (importNames tidied.files)
  -- Quiet sessions load nothing that names the project, which stays as tidied.
  have hproject : (tidied.loadImports (importNames tidied.files)).libraries.project
      = tidied.libraries.project := by
    refine keeps'.holds.2 ?_
    rw [← readied.manifest, ← loaded.manifest_eq]
    exact hmid.shunned_iff.2 (tidied.quiet_relink.1 quiet)
  -- Hence unlinking everything leads back, and linking again does the same.
  have hunlinked : tidied.relink.unlinkAll.unchecked
      = (tidied.loadImports (importNames tidied.files)).unchecked := by
    refine hmid.unlinkAll_linked keeps.holds.1.1 keeps.holds.2 ?_ ?_ _
    · intro category index entry hslot
      refine readied.blank category index entry ?_
      rw [← hslot]
      exact congrArg (fun lib : Library => lib.slot? category index) hproject.symm
    · rw [loaded.files_eq]
      exact readied.unlinked
  have hrelink := hsound.relink_unlinkAll hunlinked
  obtain ⟨linked, diagnostics, hagain⟩ := rebuild_of_idle
    (hdirty.trans (loaded.dirty_eq.trans htidied.dirty_eq))
    (hremoved.trans (loaded.removed_eq.trans htidied.removed_eq))
  rw [hrelink] at hagain
  obtain ⟨hlinked', hdiagnostics'⟩ := report_of_rebuild hagain
  rw [hagain, hlinked, hdiagnostics, ← hlinked', ← hdiagnostics']

/-- Right after a rebuild in any run, as long as no other library names the project, a rebuild has
nothing to do: it tears nothing down, reads nothing, counts what the last one counted, and leaves
the whole session as it is. -/
theorem rebuild_again_changes_nothing (manifest : Manifest) (sources : Sources) :
    ∃ initial, Session.start manifest sources = .ok initial ∧ ∀ requests : List Request,
      let session := (initial.run requests).rebuild.1
      session.Quiet → ∃ report, (initial.run requests).rebuild.2 = .ok report ∧
        session.rebuild = (session, .ok
          { tornDown := 0, tidied := 0, linked := report.linked,
            diagnostics := report.diagnostics }) := by
  obtain ⟨initial, hstart, hbalanced⟩ := balanced_run manifest sources
  obtain ⟨initial', hstart', hnoted⟩ := noted_run manifest sources
  obtain rfl : initial = initial' := by simpa [hstart] using hstart'
  refine ⟨initial, hstart, fun requests => ?_⟩
  intro session quiet
  obtain ⟨sound, balanced⟩ := hbalanced requests
  obtain ⟨-, arranged, noted⟩ := hnoted requests
  have before : (initial.run requests).Quiet := @Sound.quiet_of_perform _ sound .rebuild quiet
  exact sound.rebuild_rebuild arranged noted (balanced before) quiet

theorem rebuild_again_changes_nothing_flag :
    ∃ initial, Session.start (.new "demo") bitKernel = .ok initial ∧
      let session := (initial.run [.insert flagTree, .changed "main.rk"]).rebuild.1
      session.Quiet ∧
        ∃ report, (initial.run [.insert flagTree, .changed "main.rk"]).rebuild.2 = .ok report ∧
          session.rebuild = (session, .ok
            { tornDown := 0, tidied := 0, linked := report.linked,
              diagnostics := report.diagnostics }) := by
  obtain ⟨initial, hstart, hidle⟩ := rebuild_again_changes_nothing (.new "demo") bitKernel
  exact ⟨initial, hstart, quiet_flag hstart, hidle _ (quiet_flag hstart)⟩

end Session

end SymbolGraph
