import SymbolGraph.Proofs.Linking.TypeLookups
import SymbolGraph.Proofs.Session.IdleRebuilds
import SymbolGraph.Proofs.Session.References
import SymbolGraph.Proofs.Session.RunLogs

/-!
# When documents were last linked

The documents of a library other than the project are linked once, when the library is loaded, and
those of the project in every rebuild.  What they were linked against is gone afterwards: more
libraries have names by then, and the documents of the project have changed.  To speak of it, a
*journal* lists the linkings of a run in order, each with the model that the documents were linked
into and with the other documents that stood in the session (`Session.journal`).

The journal only watches.  What it says is what has happened: the documents of every library are
those that the last linking of the library has left, and so are the headers of the library
(`Session.Chronicled`).  A property that loads keep holds at each linking; if it is that the books
are in order, the journal tells which references were written down (`Session.Journaled`).
-/

namespace SymbolGraph

namespace Linking

/-- The documents and the model once they are linked. -/
def linked (linking : Linking) : Linkages :=
  Linkages.link ⟨linking.libraries, linking.units⟩ linking.options

/-- What linking looks up for each of the documents. -/
def inquiries (linking : Linking) : List (List Inquiry) :=
  Linkages.inquiries ⟨linking.libraries, linking.units⟩ linking.options

/-- The last linking of a library. -/
def last? (library : LibraryId) (journal : List Linking) : Option Linking :=
  (journal.filter fun linking => linking.library = library).getLast?

lemma last?_append (library : LibraryId) (earlier later : List Linking) :
    last? library (earlier ++ later) = (last? library later).or (last? library earlier) := by
  rw [last?, List.filter_append, List.getLast?_append]
  rfl

lemma last?_concat (library : LibraryId) (journal : List Linking) (linking : Linking) :
    last? library (journal ++ [linking])
      = if linking.library = library then some linking else last? library journal := by
  rw [last?_append]
  by_cases h : linking.library = library <;> simp [last?, h]

lemma last?_mem {library : LibraryId} {journal : List Linking} {linking : Linking}
    (h : last? library journal = some linking) : linking ∈ journal ∧ linking.library = library := by
  simpa using List.mem_filter.1 (List.mem_of_getLast? h)

end Linking

/-- A journal notes the linkings, and not what is tidied. -/
def Watch.linkings : Watch Linking where
  linking linking := [linking]

namespace Session

/-- The linkings of a run from the start, where the kernel is compiled. -/
def journal (manifest : Manifest) (sources : Sources) (initial : Session)
    (requests : List Request) : List Linking :=
  log .linkings manifest sources initial requests

/-! ## Documents by library -/

/-- The documents of a library, if it has been loaded. -/
def documents? (session : Session) (library : LibraryId) : Option (List SourceUnit) :=
  if library = .project then some session.files else session.foreign.at? library

lemma pairwise_keys_putSorted {foreign : Assoc LibraryId (List SourceUnit)}
    (h : foreign.keys.Pairwise (· < ·)) (library : LibraryId) (units : List SourceUnit) :
    (foreign.putSorted library units).keys.Pairwise (· < ·) := by
  induction foreign with
  | nil => simp [Assoc.putSorted]
  | cons entry rest ih =>
    obtain ⟨key, value⟩ := entry
    rw [Assoc.keys_cons, List.pairwise_cons] at h
    obtain ⟨hkey, hrest⟩ := h
    rw [Assoc.putSorted]
    split
    · exact List.pairwise_cons.2 ⟨hkey, hrest⟩
    · next hne =>
      split
      · next hlt =>
        refine List.pairwise_cons.2 ⟨fun id hid => ?_, List.pairwise_cons.2 ⟨hkey, hrest⟩⟩
        rcases List.mem_cons.1 hid with rfl | hid
        · exact hlt
        · exact Int.lt_trans hlt (hkey id hid)
      · next hnlt =>
        -- The new key goes further behind, and the order is total.
        refine List.pairwise_cons.2 ⟨fun id hid => ?_, ih hrest⟩
        rcases (keys_putSorted rest library id units).1 hid with hid | rfl
        · exact hkey id hid
        · have hdiffer : key.number ≠ id.number := fun heq => hne (by
            cases key
            cases id
            exact congrArg LibraryId.mk heq)
          have hle : ¬ id.number < key.number := hnlt
          show key.number < id.number
          omega

/-- The other libraries stand in order, each once, and the project is not among them. -/
structure Ranked (session : Session) : Prop where
  sorted : session.foreign.keys.Pairwise (· < ·)
  others : LibraryId.project ∉ session.foreign.keys

lemma Ranked.congr {session session' : Session} (ranked : session.Ranked)
    (h : session'.foreign = session.foreign) : session'.Ranked := by
  refine ⟨?_, ?_⟩
  · rw [h]
    exact ranked.sorted
  · rw [h]
    exact ranked.others

lemma exists_at?_of_mem_values {foreign : Assoc LibraryId (List SourceUnit)}
    (sorted : foreign.keys.Pairwise (· < ·)) {unit : SourceUnit}
    (hunit : unit ∈ foreign.values.flatten) :
    ∃ library units, foreign.at? library = some units ∧ unit ∈ units := by
  induction foreign with
  | nil => simp [Assoc.values] at hunit
  | cons entry rest ih =>
    obtain ⟨key, value⟩ := entry
    rw [Assoc.keys_cons, List.pairwise_cons] at sorted
    rcases List.mem_append.1 hunit with h | h
    · exact ⟨key, value, by rw [Assoc.at?_cons, if_pos rfl], h⟩
    · obtain ⟨library, units, hat, hmem⟩ := ih sorted.2 h
      refine ⟨library, units, ?_, hmem⟩
      rw [Assoc.at?_cons, if_neg, hat]
      rintro rfl
      have hkey : key ∈ Assoc.keys rest := by
        by_contra hnot
        rw [(Assoc.at?_eq_none_iff rest key).2 hnot] at hat
        cases hat
      exact absurd (sorted.1 key hkey) (Int.lt_irrefl _)

lemma mem_values_of_at? {foreign : Assoc LibraryId (List SourceUnit)} {library : LibraryId}
    {units : List SourceUnit} (h : foreign.at? library = some units) : units ∈ foreign.values := by
  induction foreign with
  | nil => cases h
  | cons entry rest ih =>
    obtain ⟨key, value⟩ := entry
    rw [Assoc.at?_cons] at h
    split at h
    · exact List.mem_cons.2 (Or.inl (Option.some.inj h).symm)
    · exact List.mem_cons_of_mem _ (ih h)

/-- The documents of a library are documents of the session. -/
lemma mem_units_of_documents {session : Session} {library : LibraryId} {units : List SourceUnit}
    (hunits : session.documents? library = some units) {unit : SourceUnit} (hunit : unit ∈ units) :
    unit ∈ session.units := by
  rw [documents?] at hunits
  split at hunits
  · exact List.mem_append_left _ (Option.some.inj hunits ▸ hunit)
  · exact List.mem_append_right _ (List.mem_flatten.2 ⟨units, mem_values_of_at? hunits, hunit⟩)

/-- Before the kernel is compiled there are no documents. -/
lemma eq_nil_of_documents_unloaded {manifest : Manifest} {sources : Sources} {library : LibraryId}
    {units : List SourceUnit} (h : (unloaded manifest sources).documents? library = some units) :
    units = [] := by
  rw [documents?] at h
  split at h
  · exact (Option.some.inj h).symm
  · cases h

/-- In a session whose libraries are in order, every document is one of a library's. -/
lemma Ranked.exists_documents {session : Session} (ranked : session.Ranked) {unit : SourceUnit}
    (hunit : unit ∈ session.units) :
    ∃ library units, session.documents? library = some units ∧ unit ∈ units := by
  rcases List.mem_append.1 hunit with h | h
  · exact ⟨.project, session.files, if_pos rfl, h⟩
  · obtain ⟨library, units, hat, hmem⟩ := exists_at?_of_mem_values ranked.sorted h
    refine ⟨library, units, ?_, hmem⟩
    rw [documents?, if_neg, hat]
    rintro rfl
    rw [(Assoc.at?_eq_none_iff _ _).2 ranked.others] at hat
    cases hat

end Session

/-! ## What a journal says -/

lemma unchecked_handOut (report : Report) (units : List SourceUnit) :
    (handOut report units).map SourceUnit.unchecked = units.map SourceUnit.unchecked := by
  induction units generalizing report with
  | nil => rfl
  | cons unit rest ih =>
    rw [handOut, List.map_cons, List.map_cons, ih]
    rfl

lemma Session.unchecked_checkProject (session : Session) :
    session.checkProject.files.map SourceUnit.unchecked
      = session.files.map SourceUnit.unchecked := by
  simp only [checkProject, List.map_map]
  rfl

/-- When the documents are linked, they are those of the library, and `P` holds of the model and all
documents.  Documents of libraries whose load is still going on stand beside, and refer to nothing
yet. -/
structure Linking.Poised (P : LibrarySet → IndexPool → List SourceUnit → Prop) (linking : Linking) :
    Prop where
  home : ∀ unit ∈ linking.units, unit.library = linking.library
  undeclared : ∀ unit ∈ linking.units, unit.Undeclared
  holds : ∃ (pool : IndexPool) (pending : List SourceUnit), (∀ unit ∈ pending, unit.links = []) ∧
    P linking.libraries pool (linking.units ++ (pending ++ linking.others))

/-- What the linking has left is still there: the documents, but for reports of checks, and the
namespaces and headers of their library. -/
structure Linking.Lasts (linking : Linking) (libraries : LibrarySet) (units : List SourceUnit) :
    Prop where
  units : units.map SourceUnit.unchecked = linking.linked.units.map SourceUnit.unchecked
  skeleton : libraries.skeleton.get? linking.library
    = linking.libraries.skeleton.get? linking.library

/-- When the documents are linked, the books are in order.  Documents of libraries whose load is
still going on stand beside, and refer to nothing yet. -/
structure Linking.Fit (linking : Linking) : Prop where
  undeclared : ∀ unit ∈ linking.units, unit.Undeclared
  booked : ∃ pending : List SourceUnit, (∀ unit ∈ pending, unit.links = []) ∧
    Linkages.Booked linking.libraries (linking.units ++ (pending ++ linking.others))

/-- The documents are those that the linking has left, but for reports of checks. -/
def Linking.Left (linking : Linking) (units : List SourceUnit) : Prop :=
  units.map (fun unit => (unit.skeleton, unit.occurrences, unit.links))
    = linking.linked.units.map fun unit => (unit.skeleton, unit.occurrences, unit.links)

lemma Linking.Lasts.left {linking : Linking} {libraries : LibrarySet} {units : List SourceUnit}
    (lasts : linking.Lasts libraries units) : linking.Left units := by
  have h := congrArg (List.map fun unit : SourceUnit =>
    (unit.skeleton, unit.occurrences, unit.links)) lasts.units
  rwa [List.map_map, List.map_map] at h

namespace Session

variable {P : LibrarySet → IndexPool → List SourceUnit → Prop} {session : Session}
  {extra : List SourceUnit}

/-- What the journal says of the way from one session to another, if `P` holds on the way: the
documents of each library are those that its last linking has left, if there was one. -/
structure Chronicled (P : LibrarySet → IndexPool → List SourceUnit → Prop) (journal : List Linking)
    (before after : Session) : Prop where
  poised : ∀ linking ∈ journal, linking.Poised P
  documents : ∀ library units, after.documents? library = some units →
    (∃ linking, Linking.last? library journal = some linking ∧
      linking.Lasts after.libraries units) ∨
    Linking.last? library journal = none ∧ before.documents? library = some units ∧
      after.libraries.skeleton.get? library = before.libraries.skeleton.get? library
  ranked : before.Ranked → after.Ranked

/-- Without a linking the documents stay as they are, and so do the headers of their libraries. -/
lemma Chronicled.of_documents_eq {before after : Session} (hfiles : after.files = before.files)
    (hforeign : after.foreign = before.foreign)
    (hskeleton : ∀ library units, before.documents? library = some units →
      after.libraries.skeleton.get? library = before.libraries.skeleton.get? library) :
    Chronicled P [] before after := by
  refine ⟨by simp, fun library units hunits => ?_, fun ranked => ranked.congr hforeign⟩
  have hunits' : before.documents? library = some units := by
    rwa [documents?, hfiles, hforeign, ← documents?] at hunits
  exact Or.inr ⟨rfl, hunits', hskeleton library units hunits'⟩

lemma Chronicled.refl (session : Session) : Chronicled P [] session session :=
  .of_documents_eq rfl rfl fun _ _ _ => rfl

lemma Chronicled.trans {a b c : Session} {earlier later : List Linking}
    (h : Chronicled P earlier a b) (k : Chronicled P later b c) :
    Chronicled P (earlier ++ later) a c := by
  refine ⟨fun linking hlinking => ?_, fun library units hunits => ?_, fun ranked =>
    k.ranked (h.ranked ranked)⟩
  · rcases List.mem_append.1 hlinking with hlinking | hlinking
    · exact h.poised linking hlinking
    · exact k.poised linking hlinking
  · rw [Linking.last?_append]
    rcases k.documents library units hunits with ⟨linking, hlast, lasts⟩ | ⟨hlast, hold, hsame⟩
    · exact Or.inl ⟨linking, by rw [hlast, Option.some_or], lasts⟩
    · rw [hlast, Option.none_or]
      rcases h.documents library units hold with ⟨linking, hlast', lasts⟩ | ⟨hlast', hold', hsame'⟩
      · obtain rfl := (Linking.last?_mem hlast').2
        exact Or.inl ⟨linking, hlast', lasts.units, hsame.trans lasts.skeleton⟩
      · exact Or.inr ⟨hlast', hold', hsame.trans hsame'⟩

/-- The libraries that have documents are loaded, and the one at hand is not among them. -/
lemma ne_of_documents {library id : LibraryId} {units : List SourceUnit}
    (hlibrary : library ≠ .project) (hkey : library ∉ session.foreign.keys)
    (hunits : session.documents? id = some units) : id ≠ library := by
  rintro rfl
  rw [documents?, if_neg hlibrary, (Assoc.at?_eq_none_iff _ _).2 hkey] at hunits
  cases hunits

/-- Documents that are linked and filed are the ones that their library has afterwards. -/
lemma InOrder.chronicled_filed {library : LibraryId} {units : List SourceUnit}
    (inOrder : session.InOrder P (units ++ extra)) (hlibrary : library ≠ .project)
    (hunits : ∀ unit ∈ units, unit.library = library ∧ unit.skeleton = unit) :
    Chronicled P [⟨library, session.libraries, session.options, units, session.units⟩] session
      (session.filed library units) := by
  obtain ⟨hskeleton, -⟩ :=
    Linkages.skeleton_finish ⟨session.libraries, units⟩ session.options library
  refine ⟨fun linking hlinking => ?_, fun id units' hunits' => ?_, fun ranked =>
    ⟨pairwise_keys_putSorted ranked.sorted library _, fun h => ?_⟩⟩
  · rw [List.mem_singleton.1 hlinking]
    refine ⟨fun unit hunit => (hunits unit hunit).1, fun unit hunit =>
      undeclared_of_skeleton_eq (hunits unit hunit).2, session.pool, extra,
      fun unit hunit => inOrder.pending unit (List.mem_append_right _ hunit), ?_⟩
    rw [← List.append_assoc]
    exact inOrder.keeps.holds
  · rw [← List.nil_append [_], Linking.last?_concat]
    simp only [documents?, filed, at?_putSorted] at hunits' ⊢
    -- The library that is filed gets its linking, and the others keep theirs.
    by_cases heq : library = id
    · rw [if_pos heq]
      rw [if_neg (heq ▸ hlibrary), if_pos heq] at hunits'
      refine Or.inl ⟨_, rfl, ?_, congrArg (·.get? library) hskeleton⟩
      rw [← Option.some.inj hunits']
      exact unchecked_handOut _ _
    · rw [if_neg heq]
      rw [if_neg heq] at hunits'
      exact Or.inr ⟨rfl, hunits', congrArg (·.get? id) hskeleton⟩
  · rcases (keys_putSorted _ _ _ _).1 h with h | h
    · exact ranked.others h
    · exact hlibrary h.symm

/-- A journal says where the documents come from that loads bring. -/
theorem logInvariant_chronicled (inv : LoadInvariant P) :
    LogInvariant .linkings P fun before journal after => Chronicled P journal before after where
  loads := inv
  refl := .refl
  trans := Chronicled.trans
  registered {session _} name keeps := by
    obtain ⟨-, -, hkey, hnew⟩ := keeps.register inv name
    refine .of_documents_eq rfl rfl fun id units hunits => ?_
    rw [LibrarySet.get?_skeleton, LibrarySet.get?_skeleton, LibrarySet.get?_addImport,
      if_neg (ne_of_documents hnew hkey hunits)]
  tidied {session _ library trees batch} keeps hlibrary hloaded hkey hbatch := by
    obtain ⟨batch', hbatch', -, hgrows, -⟩ := keeps.tidied inv hlibrary hloaded trees
    obtain rfl : batch = batch' := congrArg Outcome.state (hbatch.symm.trans hbatch')
    have hnothing : Outcome.trace (Batch.tidy library) (Batch.tidyLog .linkings library) trees
        ⟨session.libraries, session.pool, []⟩ = [] := Outcome.trace_nil ..
    rw [hnothing]
    refine .of_documents_eq rfl rfl fun id units hunits => ?_
    rw [LibrarySet.get?_skeleton, hgrows.other (ne_of_documents hlibrary hkey hunits),
      ← LibrarySet.get?_skeleton]
  filed inOrder hlibrary hunits := inOrder.chronicled_filed hlibrary hunits

/-! ## Runs -/

/-- Linking the project again: what matters of the session before is what other libraries it has. -/
lemma InOrder.chronicled_relink (inv : LoadInvariant P) {tidied : Session}
    (inOrder : tidied.InOrder P [])
    (hfiles : ∀ unit ∈ tidied.files, unit.library = .project ∧ unit.Undeclared)
    (hforeign : tidied.foreign = session.foreign)
    (hskeleton : ∀ library, library ≠ .project →
      tidied.libraries.skeleton.get? library = session.libraries.skeleton.get? library) :
    Chronicled P (relinkLog .linkings tidied) session tidied.relink := by
  obtain ⟨inOrder', chronicled⟩ :=
    inOrder.tells_loadImports (logInvariant_chronicled inv) (importNames tidied.files)
  obtain ⟨-, loaded⟩ := inOrder.keeps.loadImports inv (importNames tidied.files)
  unfold relinkLog Session.relink
  dsimp only [Watch.linkings]
  generalize tidied.loadImports (importNames tidied.files) = mid at inOrder' chronicled loaded ⊢
  have hfiles' : ∀ unit ∈ mid.files, unit.library = .project ∧ unit.Undeclared :=
    fun unit hunit => hfiles unit (loaded.files_eq ▸ hunit)
  -- Linking and checking keep skeletons, hence the documents of the log entry.
  have hafter : (mid.overFiles (·.link mid.options)).checkProject.libraries.skeleton
      = mid.libraries.skeleton := by
    rw [libraries_checkProject, LibrarySet.skeleton_check]
    exact (Linkages.skeleton_link ⟨mid.libraries, mid.files⟩ mid.options).1
  refine ⟨fun linking hlinking => ?_, fun library units hunits => ?_, fun ranked => ?_⟩
  · rcases List.mem_append.1 hlinking with h | h
    · exact chronicled.poised linking h
    · rw [List.mem_singleton.1 h]
      refine ⟨fun unit hunit => (hfiles' unit hunit).1, fun unit hunit => (hfiles' unit hunit).2,
        mid.pool, [], by simp, ?_⟩
      rw [List.nil_append]
      exact inOrder'.keeps.holds
  · rw [Linking.last?_concat]
    -- The last entry is that of the project; for every other library the loads before it speak.
    by_cases hproject : library = .project
    · subst hproject
      rw [documents?, if_pos rfl] at hunits
      refine Or.inl ⟨_, if_pos rfl, ?_, congrArg (·.get? .project) hafter⟩
      rw [← Option.some.inj hunits]
      exact unchecked_checkProject _
    · rw [documents?, if_neg hproject, (foreign_checkProject _).1] at hunits
      rw [if_neg (Ne.symm hproject)]
      have hbefore : session.documents? library = tidied.documents? library := by
        rw [documents?, documents?, if_neg hproject, if_neg hproject, hforeign]
      have hmid : mid.documents? library = some units := (if_neg hproject).trans hunits
      rw [hbefore, ← hskeleton library hproject, hafter]
      rcases chronicled.documents library units hmid with ⟨linking, hlast, lasts⟩ | hold
      · exact Or.inl ⟨linking, hlast, lasts.units,
          (congrArg (·.get? linking.library) hafter).trans lasts.skeleton⟩
      · exact Or.inr hold
  · exact (chronicled.ranked (ranked.congr hforeign)).congr (foreign_checkProject _).1

/-- The journal of a rebuild is that of linking the project again. -/
theorem performLog_linkings_rebuild {tidied : Session} (h : session.groundwork? = some tidied) :
    performLog .linkings session .rebuild = relinkLog .linkings tidied := by
  have hnothing (trees : List FileTree) (session : Session) :
      Outcome.trace tidyFile (fileLog .linkings) trees session = [] := Outcome.trace_nil ..
  simp only [performLog, hnothing, Outcome.follow_nil, h, Option.elim_some, List.nil_append]

/-- Clearing the project and tidying it again leaves the headers of other libraries alone. -/
lemma Sound.skeleton_tidied (sound : session.Sound)
    (arranged : session.libraries.Arranged session.units) {torn : List SourceUnit}
    (hperm : (torn ++ session.untouched).Perm session.files) {pool : IndexPool} {tidied : Session}
    (htidied : Tidied { session.cleared torn pool with dirty := [] } tidied session.pendingTrees)
    {library : LibraryId} (hlibrary : library ≠ .project) :
    tidied.libraries.skeleton.get? library = session.libraries.skeleton.get? library := by
  have hcontents (set : LibrarySet) :
      set.skeleton.get? library = (set.contents? library).map Library.skeleton := by
    rw [LibrarySet.get?_skeleton, LibrarySet.contents?, Option.map_map]
    exact congrArg (Option.map · _) (funext fun lib => lib.skeleton_contents.symm)
  have hdrop (pairs : List (DeclId × DeclId)) (lib : Library) :
      (pairs.foldl Library.dropRelation lib).skeleton = lib.skeleton := by
    induction pairs generalizing lib with
    | nil => rfl
    | cons pair rest ih =>
      rw [List.foldl_cons, ih]
      exact lib.skeleton_edit pair.1 (.callable _)
  rw [LibrarySet.get?_skeleton, htidied.grows.other hlibrary, ← LibrarySet.get?_skeleton, hcontents,
    hcontents]
  refine (congrArg _ (sound.contents_cleared arranged hperm pool hlibrary)).trans ?_
  rw [Option.map_map]
  exact congrArg (Option.map · _) (funext fun lib => hdrop _ lib)

/-- The journal of a request says what the request does, if `P` holds before it and whenever the
project is about to be linked again. -/
lemma Sound.chronicled_perform (inv : LoadInvariant P) (sound : session.Sound)
    (arranged : session.libraries.Arranged session.units)
    (hP : P session.libraries session.pool session.units)
    (hground : ∀ tidied, session.groundwork? = some tidied → tidied.Sound →
      tidied.libraries.Arranged tidied.units → P tidied.libraries tidied.pool tidied.units)
    (request : Request) :
    Chronicled P (performLog .linkings session request) session (session.perform request) := by
  -- Only a rebuild and a load write the log.
  cases request with
  | rebuild =>
    obtain ⟨torn, pool, tidied, report, hperm, -, hsound, htidied, hgroundwork, hrebuild⟩ :=
      sound.groundwork_eq
    obtain ⟨harranged, hundeclared⟩ := sound.arranged_tidied arranged hperm hsound htidied
    have inOrder : tidied.InOrder P [] :=
      ⟨hsound.keeps (hground tidied hgroundwork hsound harranged), by simp⟩
    rw [Session.perform, performLog_linkings_rebuild hgroundwork, hrebuild]
    exact inOrder.chronicled_relink inv
      (fun unit hunit => ⟨hsound.files_library unit hunit, hundeclared unit hunit⟩)
      htidied.foreign_eq fun library hlibrary =>
        sound.skeleton_tidied arranged hperm htidied hlibrary
  | load name =>
    rw [Session.perform]
    rcases loadLibrary_log .linkings session name with ⟨hsession, hjournal⟩ | ⟨hsession, hjournal⟩
    · rw [hsession, hjournal]
      exact .refl session
    · rw [hsession, hjournal]
      have inOrder : session.InOrder P [] := ⟨sound.keeps hP, by simp⟩
      exact (inOrder.tells_load (logInvariant_chronicled inv) _ name).2
  | insert tree => exact .of_documents_eq rfl rfl fun _ _ _ => rfl
  | erase path => exact .of_documents_eq rfl rfl fun _ _ _ => rfl
  | insertLibrary name trees => exact .of_documents_eq rfl rfl fun _ _ _ => rfl
  | changed path => exact .of_documents_eq rfl rfl fun _ _ _ => rfl
  | dropped path => exact .of_documents_eq rfl rfl fun _ _ _ => rfl

/-! ## Books in order -/

/-- What the journal says of the way from one session to another: the documents of each library are
those that its last linking has left, if there was one. -/
structure Journaled (journal : List Linking) (before after : Session) : Prop where
  fit : ∀ linking ∈ journal, linking.Fit
  documents : ∀ library units, after.documents? library = some units →
    (∃ linking, Linking.last? library journal = some linking ∧ linking.Left units) ∨
      Linking.last? library journal = none ∧ before.documents? library = some units
  ranked : before.Ranked → after.Ranked

/-- The property `P` of the journals in which the books are in order. -/
abbrev BooksKept (set : LibrarySet) (pool : IndexPool) (units : List SourceUnit) : Prop :=
  Linkages.Booked set units ∧ pool.Matches set.project []

lemma Chronicled.journaled {journal : List Linking} {before after : Session}
    (chronicled : Chronicled BooksKept journal before after) : Journaled journal before after := by
  refine ⟨fun linking hlinking => ?_, fun library units hunits => ?_, chronicled.ranked⟩
  · obtain ⟨-, hundeclared, pool, pending, hpending, booked, -⟩ :=
      chronicled.poised linking hlinking
    exact ⟨hundeclared, pending, hpending, booked⟩
  · exact (chronicled.documents library units hunits).imp
      (fun ⟨linking, hlast, lasts⟩ => ⟨linking, hlast, lasts.left⟩)
      fun ⟨hlast, hold, _⟩ => ⟨hlast, hold⟩

/-- The journal of a request says what the request does. -/
lemma Balanced.chronicled_perform (balanced : session.Balanced) (sound : session.Sound)
    (request : Request) :
    Chronicled BooksKept (performLog .linkings session request) session
      (session.perform request) := by
  refine sound.chronicled_perform loadInvariant_booked balanced.booked.1.toArranged
    ⟨balanced.booked, sound.pool⟩ (fun tidied hgroundwork _ _ => ?_) request
  obtain ⟨tidied', report, hgroundwork', -, readied⟩ :=
    sound.readied_groundwork balanced.booked (balanced.lasting sound)
  obtain rfl : tidied' = tidied := Option.some.inj (hgroundwork'.symm.trans hgroundwork)
  exact ⟨readied.booked, readied.sound.pool⟩

theorem Sound.quiet_of_run (sound : session.Sound) (requests : List Request)
    (quiet : (session.run requests).Quiet) : session.Quiet := by
  induction requests generalizing session with
  | nil => exact quiet
  | cons request rest ih => exact sound.quiet_of_perform (ih (sound.perform request) quiet)

/-- The journal of several requests says what they do, as long as no library that is loaded names
the project. -/
theorem Balanced.chronicled_run (balanced : session.Balanced) (sound : session.Sound)
    (requests : List Request) (quiet : (session.run requests).Quiet) :
    Chronicled BooksKept (runLog .linkings session requests) session (session.run requests) := by
  induction requests generalizing session with
  | nil => exact .refl session
  | cons request rest ih =>
    have hsound := sound.perform request
    have hquiet := hsound.quiet_of_run rest quiet
    exact (balanced.chronicled_perform sound request).trans
      (ih (balanced.perform sound request hquiet) hsound quiet)

/-- The journal of a run says where the documents of every library come from, as long as no other
library names the project. -/
lemma journaled_journal (manifest : Manifest) (sources : Sources) :
    ∃ initial, Session.start manifest sources = .ok initial ∧ ∀ requests : List Request,
      (initial.run requests).Quiet → (initial.run requests).Balanced ∧
        Journaled (journal manifest sources initial requests) (unloaded manifest sources)
          (initial.run requests) := by
  obtain ⟨initial, hstart, hrun⟩ := balanced_run manifest sources
  refine ⟨initial, hstart, fun requests quiet => ⟨(hrun requests).2 quiet, ?_⟩⟩
  obtain ⟨sound, hbalanced⟩ := hrun []
  have balanced : initial.Balanced := hbalanced (sound.quiet_of_run requests quiet)
  have started := tells_start (logInvariant_chronicled loadInvariant_booked) hstart
    ⟨LibrarySet.booked_new .., IndexPool.matches_new manifest.name⟩
  exact (started.trans (balanced.chronicled_run sound requests quiet)).journaled

/-! ## Any run -/

/-- The journal of several requests says what they do, whatever libraries are loaded. -/
theorem Sound.chronicled_run (sound : session.Sound)
    (arranged : session.libraries.Arranged session.units) (requests : List Request) :
    Chronicled (fun set pool units => set.Arranged units ∧ pool.Matches set.project [])
      (runLog .linkings session requests) session (session.run requests) := by
  induction requests generalizing session with
  | nil => exact .refl session
  | cons request rest ih =>
    exact (sound.chronicled_perform loadInvariant_arranged arranged ⟨arranged, sound.pool⟩
      (fun _ _ hsound harranged => ⟨harranged, hsound.pool⟩) request).trans
        (ih (sound.perform request) (sound.arranged_perform arranged request))

/-- The journal of a run says where the documents of every library come from. -/
lemma chronicled_journal (manifest : Manifest) (sources : Sources) :
    ∃ initial, Session.start manifest sources = .ok initial ∧ ∀ requests : List Request,
      (initial.run requests).Sound ∧
        (initial.run requests).libraries.Arranged (initial.run requests).units ∧
        Chronicled (fun set pool units => set.Arranged units ∧ pool.Matches set.project [])
          (journal manifest sources initial requests) (unloaded manifest sources)
          (initial.run requests) := by
  obtain ⟨initial, hstart, hrun⟩ := arranged_run manifest sources
  have started := tells_start (logInvariant_chronicled loadInvariant_arranged) hstart
    ⟨LibrarySet.arranged_new .., IndexPool.matches_new manifest.name⟩
  refine ⟨initial, hstart, fun requests => ?_⟩
  obtain ⟨sound, arranged⟩ := hrun []
  exact ⟨(hrun requests).1, (hrun requests).2,
    started.trans (sound.chronicled_run arranged requests)⟩

end Session

end SymbolGraph
