import Mathlib.Data.List.Nodup
import SymbolGraph.Proofs.Session.LoadInvariants
import SymbolGraph.Session.Rebuild

/-!
# A rebuild never fails

`session.Sound` is what holds of a session between two requests: the model is settled, the pool
matches the tables of the project, and the project's documents stand in the order of their paths.
The phases of a rebuild are followed one after the other.  While documents are torn down their
indices are free and their slots are not empty yet, so the pool matches the tables up to the
declarations that are marked (`Session.Marking`); disposing of the documents evens that out, and
from then on every index that tidying asks for is that of an empty slot.
-/

namespace SymbolGraph

namespace Linkage

/-- Marking a document without giving its indices back. -/
def detach (state : Linkage) : Linkage :=
  unlink ⟨state.unit.declarations.foldl LibrarySet.stripRelations state.libraries, state.unit⟩

lemma sameSkeleton_detach (state : Linkage) : SameSkeleton state state.detach := by
  have hstrip : SameSkeleton state
      ⟨state.unit.declarations.foldl LibrarySet.stripRelations state.libraries, state.unit⟩ :=
    ⟨LibrarySet.skeleton_foldl LibrarySet.skeleton_stripRelations _ _, rfl⟩
  exact hstrip.trans (sameSkeleton_unlink _)

end Linkage

namespace Workbench

/-- Giving back indices of distinct live declarations that are not marked. -/
lemma recycle_eq {lib : Library} {bench : Workbench} {marked : List DeclId} (decls : List DeclId)
    (hpool : bench.pool.Matches lib marked)
    (hlive : ∀ decl ∈ decls, decl = ⟨.project, decl.category, decl.index, none⟩ ∧
      decl.category.isMember = false ∧ ∃ entry, lib.slot? decl.category decl.index = some entry)
    (hnodup : decls.Nodup) (hnew : ∀ decl ∈ decls, decl ∉ marked) :
    ∃ pool, Outcome.forEach recycle decls bench = ⟨{ bench with pool }, none⟩ ∧
      pool.Matches lib (decls ++ marked) := by
  induction decls generalizing bench marked with
  | nil => exact ⟨bench.pool, rfl, hpool⟩
  | cons decl rest ih =>
    obtain ⟨hdecl, htop, entry, hentry⟩ := hlive decl (List.mem_cons_self ..)
    obtain ⟨hfresh, hnodup⟩ := List.nodup_cons.1 hnodup
    obtain ⟨pool, hrecycle, hmatch⟩ := hpool.recycle hentry hdecl htop
      (hnew decl (List.mem_cons_self ..))
    have hstep : recycle decl bench = ⟨{ bench with pool }, none⟩ := by
      simp only [recycle, hrecycle]
    obtain ⟨pool', hrest, hmatch'⟩ := @ih { bench with pool } (decl :: marked) hmatch
      (fun d hd => hlive d (List.mem_cons_of_mem _ hd)) hnodup
      (fun d hd hmem => by
        rcases List.mem_cons.1 hmem with rfl | hmem
        · exact hfresh hd
        · exact hnew d (List.mem_cons_of_mem _ hd) hmem)
    refine ⟨pool', ?_, hmatch'.perm fun d => ?_⟩
    · rw [Outcome.forEach, hstep, Outcome.andThen_of_none, hrest]
    · simp only [List.cons_append, List.mem_cons, List.mem_append]
      tauto

end Workbench

/-! ## Sessions between two requests -/

namespace Session

/-- What holds of a session whenever no request is being served. -/
structure Sound (session : Session) : Prop where
  settled : session.libraries.Settled session.units
  pool : session.pool.Matches session.libraries.project []
  sorted : session.files.Pairwise fun a b => a.path < b.path
  files_library : ∀ unit ∈ session.files, unit.library = .project
  foreign_library : ∀ unit ∈ session.foreign.values.flatten, unit.library ≠ .project
  foreign_loaded : ∀ library ∈ session.foreign.keys,
    ∃ lib, session.libraries.get? library = some lib
  dirty_sorted : session.dirty.Pairwise (· < ·)

/-- Taking one document out of a list ordered by path. -/
lemma perm_of_mem_files {files : List SourceUnit}
    (h : files.Pairwise fun a b => a.path < b.path) {unit : SourceUnit} (hunit : unit ∈ files) :
    (unit :: files.filter fun u => u.path ≠ unit.path).Perm files := by
  induction files with
  | nil => simp at hunit
  | cons first rest ih =>
    obtain ⟨hfirst, hrest⟩ := List.pairwise_cons.1 h
    rcases List.mem_cons.1 hunit with rfl | hunit
    · have hkeep : rest.filter (fun u => u.path ≠ unit.path) = rest := by
        rw [List.filter_eq_self]
        intro u hu
        simpa using (ne_of_lt (hfirst u hu)).symm
      rw [List.filter_cons_of_neg (by simp), hkeep]
    · have hne : first.path ≠ unit.path := ne_of_lt (hfirst unit hunit)
      rw [List.filter_cons_of_pos (by simpa using hne)]
      exact (List.Perm.swap first unit _).trans ((ih hrest hunit).cons first)

variable {session : Session}

/-! ## Teardown -/

lemma file?_some {path : String} {unit : SourceUnit} (h : session.file? path = some unit) :
    unit ∈ session.files ∧ unit.path = path :=
  ⟨List.mem_of_find?_eq_some h, by simpa using List.find?_some h⟩

lemma file?_none {path : String} (h : session.file? path = none) :
    ∀ unit ∈ session.files, unit.path ≠ path := by
  intro unit hunit
  simpa using List.find?_eq_none.1 h unit hunit

/-- What holds while documents are marked: `marked` have left the session, their indices are free,
and their slots are not empty yet. -/
structure Marking (session : Session) (marked : List SourceUnit) : Prop where
  settled : session.libraries.Settled (marked ++ session.units)
  pool : session.pool.Matches session.libraries.project (marked.flatMap SourceUnit.declarations)
  marked_library : ∀ unit ∈ marked, unit.library = .project
  sorted : session.files.Pairwise fun a b => a.path < b.path
  files_library : ∀ unit ∈ session.files, unit.library = .project

lemma Sound.marking (sound : session.Sound) : session.Marking [] :=
  ⟨sound.settled, sound.pool, by simp, sound.sorted, sound.files_library⟩

/-- The session that a document has left. -/
def parted (session : Session) (unit : SourceUnit) (pool : IndexPool) : Session :=
  { session with
    libraries := (Linkage.detach ⟨session.libraries, unit⟩).libraries
    pool
    files := session.files.filter fun u => u.path ≠ unit.path }

/-- The declarations of a document are live, and none of them is marked, so all their indices can be
given back. -/
lemma Marking.mark_eq {marked : List SourceUnit} (marking : session.Marking marked)
    {unit : SourceUnit} (hunit : unit ∈ session.files) :
    ∃ pool, Workbench.mark ⟨session.libraries, session.pool, unit⟩
        = ⟨⟨(Linkage.detach ⟨session.libraries, unit⟩).libraries, pool,
          (Linkage.detach ⟨session.libraries, unit⟩).unit⟩, none⟩ ∧
      pool.Matches session.libraries.project
        (unit.declarations ++ marked.flatMap SourceUnit.declarations) := by
  have hproject : session.libraries.get? .project = some session.libraries.project := rfl
  have hosts := marking.settled.hosts hproject
  have hid := marking.settled.id_eq hproject
  have hmine : unit ∈ session.units.filter fun u => u.library = .project :=
    List.mem_filter.2 ⟨List.mem_append_left _ hunit,
      by simpa using marking.files_library unit hunit⟩
  have hlive : ∀ decl ∈ unit.declarations,
      decl = ⟨.project, decl.category, decl.index, none⟩ ∧ decl.category.isMember = false ∧
        ∃ entry, session.libraries.project.slot? decl.category decl.index = some entry := by
    intro decl hdecl
    have hlisted : unit ∈ (marked ++ session.units).filter fun u => u.library = .project := by
      rw [List.filter_append]
      exact List.mem_append_right _ hmine
    obtain ⟨heq, htop, entry, hentry, -⟩ :=
      hosts.declared (List.mem_flatMap.2 ⟨unit, hlisted, hdecl⟩)
    exact ⟨hid ▸ heq, htop, entry, hentry⟩
  -- No identity is recycled twice, neither within the document nor with earlier ones.
  have hnodup := hosts.declarations_nodup
  rw [List.filter_append, List.filter_eq_self.2 (by simpa using marking.marked_library),
    List.flatMap_append, List.nodup_append] at hnodup
  obtain ⟨-, hown, hdisjoint⟩ := hnodup
  exact @Workbench.recycle_eq session.libraries.project
    ⟨(Linkage.detach ⟨session.libraries, unit⟩).libraries, session.pool,
      (Linkage.detach ⟨session.libraries, unit⟩).unit⟩ _ unit.declarations marking.pool hlive
    ((List.nodup_flatMap.1 hown).1 unit hmine)
    (fun decl hdecl hmem => hdisjoint decl hmem decl (List.mem_flatMap.2 ⟨unit, hmine, hdecl⟩) rfl)

/-- Marking one document that is live. -/
lemma Marking.markFile_eq {marked : List SourceUnit} (marking : session.Marking marked)
    {path : String} {unit : SourceUnit} (hfile : session.file? path = some unit) :
    ∃ pool, markFile path ⟨session, marked⟩ = ⟨⟨session.parted unit pool,
        marked ++ [(Linkage.detach ⟨session.libraries, unit⟩).unit]⟩, none⟩ ∧
      (session.parted unit pool).Marking
        (marked ++ [(Linkage.detach ⟨session.libraries, unit⟩).unit]) := by
  obtain ⟨hunit, rfl⟩ := file?_some hfile
  obtain ⟨pool, hmark, hmatch⟩ := marking.mark_eq hunit
  have hskeleton := Linkage.sameSkeleton_detach ⟨session.libraries, unit⟩
  refine ⟨pool, ?_, ?_, ?_, ?_, ?_, ?_⟩
  · simp only [markFile, hfile, hmark, parted]
  · have htaken := (perm_of_mem_files marking.sorted hunit).symm
    -- Taken out of the files, the document comes to stand behind the marked ones.
    have hshuffle : (marked ++ session.units).Perm ((marked ++ [unit]) ++
        (session.files.filter (fun u => u.path ≠ unit.path) ++
          session.foreign.values.flatten)) := by
      rw [List.append_assoc, List.singleton_append, ← List.cons_append]
      exact (htaken.append_right _).append_left marked
    refine (marking.settled.perm hshuffle).of_skeleton_eq hskeleton.1 ?_
    have hsame : (Linkage.detach ⟨session.libraries, unit⟩).unit.skeleton = unit.skeleton :=
      hskeleton.2
    simp [parted, Session.units, hsame]
  · have hset : (session.parted unit pool).libraries.project.skeleton
        = session.libraries.project.skeleton := congrArg LibrarySet.project hskeleton.1
    have hdecls : (Linkage.detach ⟨session.libraries, unit⟩).unit.declarations
        = unit.declarations := rfl
    refine (hmatch.of_skeleton_eq hset).perm fun decl => ?_
    rw [List.flatMap_append, List.flatMap_singleton, hdecls, List.mem_append, List.mem_append]
    exact or_comm
  · intro u hu
    rcases List.mem_append.1 hu with hu | hu
    · exact marking.marked_library u hu
    · rw [List.mem_singleton.1 hu]
      exact (congrArg (·.library) hskeleton.2).trans (marking.files_library unit hunit)
  · exact marking.sorted.sublist List.filter_sublist
  · exact fun u hu => marking.files_library u (List.mem_of_mem_filter hu)

/-- Marking the live documents among some paths takes exactly them out. -/
lemma Marking.markAll_eq {marked : List SourceUnit} (marking : session.Marking marked)
    (paths : List String) :
    ∃ torn pool, Outcome.forEach markFile paths ⟨session, marked⟩ = ⟨⟨{ session with
          libraries := (Linkages.each Linkage.detach session.libraries torn).libraries
          pool
          files := session.files.filter fun u => u.path ∉ paths },
        marked ++ (Linkages.each Linkage.detach session.libraries torn).units⟩, none⟩ ∧
      (torn ++ session.files.filter fun u => u.path ∉ paths).Perm session.files ∧
      pool.Matches (Linkages.each Linkage.detach session.libraries torn).libraries.project
        ((marked ++ (Linkages.each Linkage.detach session.libraries torn).units).flatMap
          SourceUnit.declarations) := by
  induction paths generalizing session marked with
  | nil =>
    refine ⟨[], session.pool, ?_, ?_, ?_⟩
    · simp [Linkages.each]
    · simp
    · simpa [Linkages.each] using marking.pool
  | cons path rest ih =>
    -- The induction is on the paths. A path without a document is skipped.
    cases hfile : session.file? path with
    | none =>
      obtain ⟨torn, pool, hrest, hperm, hmatch⟩ := ih marking
      have hskip : markFile path ⟨session, marked⟩ = ⟨⟨session, marked⟩, none⟩ := by
        simp only [markFile, hfile]
      have hfilter : session.files.filter (fun u => u.path ∉ path :: rest)
          = session.files.filter fun u => u.path ∉ rest := by
        refine List.filter_congr fun u hu => ?_
        simp [file?_none hfile u hu]
      refine ⟨torn, pool, ?_, ?_, hmatch⟩
      · rw [Outcome.forEach, hskip, Outcome.andThen_of_none, hrest, hfilter]
      · rw [hfilter]
        exact hperm
    | some unit =>
      obtain ⟨hunit, rfl⟩ := file?_some hfile
      obtain ⟨pool₁, hmark, marking₁⟩ := marking.markFile_eq hfile
      obtain ⟨torn, pool, hrest, hperm, hmatch⟩ := ih marking₁
      have hboth : (session.parted unit pool₁).files.filter (fun u => u.path ∉ rest)
          = session.files.filter fun u => u.path ∉ unit.path :: rest := by
        rw [parted, List.filter_filter]
        refine List.filter_congr fun u _ => ?_
        simp [not_or, Bool.and_comm]
      have heach : Linkages.each Linkage.detach session.libraries (unit :: torn)
          = ⟨(Linkages.each Linkage.detach (session.parted unit pool₁).libraries torn).libraries,
            (Linkage.detach ⟨session.libraries, unit⟩).unit ::
              (Linkages.each Linkage.detach (session.parted unit pool₁).libraries torn).units⟩ := by
        rfl
      rw [hboth] at hrest hperm
      refine ⟨unit :: torn, pool, ?_, ?_, ?_⟩
      · rw [Outcome.forEach, hmark, Outcome.andThen_of_none, hrest, heach]
        simp [parted]
      · rw [List.cons_append]
        exact (hperm.cons unit).trans (perm_of_mem_files marking.sorted hunit)
      · rw [heach]
        simpa using hmatch

lemma loaded_disposeAll {set : LibrarySet} (torn : List SourceUnit) {id : LibraryId}
    {lib : Library} (h : set.get? id = some lib) :
    ∃ lib', (Linkages.each Linkage.dispose set torn).libraries.get? id = some lib' := by
  induction torn generalizing set lib with
  | nil => exact ⟨lib, h⟩
  | cons unit rest ih =>
    have hstep : ∃ lib', (Linkage.dispose ⟨set, unit⟩).libraries.get? id = some lib' := by
      cases hunit : set.get? unit.library with
      | none => exact ⟨lib, by simp only [Linkage.dispose, hunit, h]⟩
      | some old =>
        simp only [Linkage.dispose, hunit, LibrarySet.get?_adjust, h]
        split <;> exact ⟨_, rfl⟩
    obtain ⟨lib', hlib'⟩ := hstep
    exact ih hlib'

/-- Marking documents and disposing of documents takes no library away. -/
lemma loaded_tornDown {set : LibrarySet} (torn order : List SourceUnit) {id : LibraryId}
    {lib : Library} (h : set.get? id = some lib) :
    ∃ lib', (Linkages.each Linkage.dispose (Linkages.each Linkage.detach set torn).libraries
      order).libraries.get? id = some lib' := by
  obtain ⟨hset, -⟩ := Linkages.skeleton_each Linkage.sameSkeleton_detach set torn
  obtain ⟨lib', hlib', -⟩ := LibrarySet.get?_of_skeleton_eq hset.symm h
  exact loaded_disposeAll order hlib'

/-- Disposing of marked documents of the project, whose paths differ among each other and from
those of the rest. -/
lemma disposeAll_eq {set : LibrarySet} {pool : IndexPool} {torn units : List SourceUnit}
    (settled : set.Settled (torn ++ units))
    (hpool : pool.Matches set.project (torn.flatMap SourceUnit.declarations))
    (hlibrary : ∀ unit ∈ torn, unit.library = .project)
    (hpaths : ((torn ++ units.filter fun u => u.library = .project).map
      SourceUnit.path).Nodup) :
    (Linkages.each Linkage.dispose set torn).libraries.Settled units ∧
      pool.Matches (Linkages.each Linkage.dispose set torn).libraries.project [] := by
  induction torn generalizing set with
  | nil => exact ⟨settled, hpool⟩
  | cons unit rest ih =>
    have hunit := hlibrary unit (List.mem_cons_self ..)
    rw [List.cons_append, List.map_cons, List.nodup_cons] at hpaths
    -- The paths differ, so no other document of the project keeps a namespace open under this one.
    have hdistinct : ∀ u ∈ rest ++ units, u.library = unit.library → u.path ≠ unit.path := by
      intro u hu hsame hpath
      refine hpaths.1 (hpath ▸ List.mem_map_of_mem ?_)
      rcases List.mem_append.1 hu with hu | hu
      · exact List.mem_append_left _ hu
      · exact List.mem_append_right _ (List.mem_filter.2 ⟨hu, by simpa [hunit] using hsame⟩)
    obtain ⟨hsettled, hsheds⟩ := settled.dispose hdistinct
    have hproject : set.get? .project = some set.project := rfl
    rw [hunit] at hsheds
    obtain ⟨lib', hlib', sheds⟩ := hsheds.shed hproject
    obtain rfl : (Linkage.dispose ⟨set, unit⟩).libraries.project = lib' := by
      simpa [LibrarySet.get?] using hlib'
    rw [List.flatMap_cons] at hpool
    exact ih hsettled (hpool.sheds (settled.id_eq hproject) sheds)
      (fun u hu => hlibrary u (List.mem_cons_of_mem _ hu)) hpaths.2

/-- The documents that no waiting edit touches. -/
def untouched (session : Session) : List SourceUnit :=
  session.files.filter fun unit => unit.path ∉ session.doomed

/-- The session after the documents `torn` have been torn down and the others unlinked. -/
def cleared (session : Session) (torn : List SourceUnit) (pool : IndexPool) : Session :=
  let detached := Linkages.each Linkage.detach session.libraries torn
  let disposed := Linkages.each Linkage.dispose detached.libraries detached.units
  unlinkAll { session with
    libraries := disposed.libraries, pool, files := session.untouched, removed := [] }

section

variable {torn kept : List SourceUnit} (hperm : (torn ++ kept).Perm session.files)

include hperm

/-- All documents, those of the project that go apart from those that stay. -/
lemma units_perm : session.units.Perm (torn ++ (kept ++ session.foreign.values.flatten)) := by
  rw [← List.append_assoc]
  exact hperm.symm.append_right _

/-- Marking documents of the project keeps the model settled. -/
lemma Sound.settled_detached (sound : session.Sound) :
    (Linkages.each Linkage.detach session.libraries torn).libraries.Settled
        ((Linkages.each Linkage.detach session.libraries torn).units ++
          (kept ++ session.foreign.values.flatten)) ∧
      ∀ unit ∈ (Linkages.each Linkage.detach session.libraries torn).units,
        unit.library = .project := by
  obtain ⟨hset, hunits⟩ :=
    Linkages.skeleton_each Linkage.sameSkeleton_detach session.libraries torn
  refine ⟨(sound.settled.perm (units_perm hperm)).of_skeleton_eq hset ?_, fun unit hunit => ?_⟩
  · rw [List.map_append, hunits, ← List.map_append]
  · obtain ⟨old, hold, he⟩ := SourceUnit.exists_of_skeleton_eq hunits hunit
    have hsame : unit.library = old.library := congrArg (·.library) he
    exact hsame.trans (sound.files_library old (hperm.mem_iff.1 (List.mem_append_left _ hold)))

/-- Documents of the project differ in their paths, those that are marked included. -/
lemma Sound.nodup_paths (sound : session.Sound) :
    (((Linkages.each Linkage.detach session.libraries torn).units ++
      (kept ++ session.foreign.values.flatten).filter
        fun u => u.library = .project).map SourceUnit.path).Nodup := by
  have hproject : (kept ++ session.foreign.values.flatten).filter
      (fun u => u.library = .project) = kept := by
    rw [List.filter_append, List.filter_eq_self.2, List.filter_eq_nil_iff.2, List.append_nil]
    · intro u hu
      simpa using sound.foreign_library u hu
    · intro u hu
      simpa using sound.files_library u (hperm.mem_iff.1 (List.mem_append_right _ hu))
  have hmap : (Linkages.each Linkage.detach session.libraries torn).units.map SourceUnit.path
      = torn.map SourceUnit.path := by
    obtain ⟨-, hunits⟩ :=
      Linkages.skeleton_each Linkage.sameSkeleton_detach session.libraries torn
    have h := congrArg (List.map SourceUnit.path) hunits
    rw [List.map_map, List.map_map] at h
    exact h
  have hsorted : (session.files.map SourceUnit.path).Nodup := by
    refine nodup_of_pairwise_lt ?_
    rw [List.pairwise_map]
    exact sound.sorted
  rw [hproject, List.map_append, hmap, ← List.map_append, (hperm.map _).nodup_iff]
  exact hsorted

end

lemma Sound.tearDown_eq (sound : session.Sound) : ∃ torn pool,
    (torn ++ session.untouched).Perm session.files ∧
      (∃ gone, session.tearDown = ⟨⟨{ session with
          libraries := (Linkages.each Linkage.dispose
            (Linkages.each Linkage.detach session.libraries torn).libraries
            (Linkages.each Linkage.detach session.libraries torn).units).libraries
          pool
          files := session.untouched
          removed := [] }, gone⟩, none⟩) ∧
      (Linkages.each Linkage.dispose
          (Linkages.each Linkage.detach session.libraries torn).libraries
          (Linkages.each Linkage.detach session.libraries torn).units).libraries.Settled
        (session.untouched ++ session.foreign.values.flatten) ∧
      pool.Matches (Linkages.each Linkage.dispose
          (Linkages.each Linkage.detach session.libraries torn).libraries
          (Linkages.each Linkage.detach session.libraries torn).units).libraries.project [] := by
  obtain ⟨torn, pool, hmark, hperm, hmatch⟩ := sound.marking.markAll_eq session.doomed
  change (torn ++ session.untouched).Perm session.files at hperm
  rw [List.nil_append] at hmark hmatch
  obtain ⟨hsettled, hlibrary⟩ := sound.settled_detached hperm
  obtain ⟨hsettled', hpool'⟩ := disposeAll_eq hsettled hmatch hlibrary (sound.nodup_paths hperm)
  refine ⟨torn, pool, hperm, ?_, hsettled', hpool'⟩
  rw [tearDown, hmark, Outcome.andThen_of_none]
  exact ⟨_, rfl⟩

/-! ## Reading documents again -/

/-- What tidying some trees makes of a session.  The new documents get the next indices of the
project, one document after the other. -/
structure Tidied (before after : Session) (trees : List FileTree) : Prop where
  manifest_eq : after.manifest = before.manifest
  sources_eq : after.sources = before.sources
  foreign_eq : after.foreign = before.foreign
  dirty_eq : after.dirty = before.dirty
  removed_eq : after.removed = before.removed
  grows : before.libraries.Grows .project after.libraries
  files_perm : ∃ fresh, (fresh ++ before.files).Perm after.files ∧
    fresh.map SourceUnit.tree = trees ∧ (∀ unit ∈ fresh, unit.skeleton = unit) ∧
    ∀ category, ∃ n, fresh.flatMap (·.indices category)
      = before.pool.next before.libraries.project category n

lemma placeUnit_perm (unit : SourceUnit) {files : List SourceUnit}
    (h : ∀ u ∈ files, u.path ≠ unit.path) : (placeUnit unit files).Perm (unit :: files) := by
  induction files with
  | nil => exact List.Perm.refl _
  | cons first rest ih =>
    rw [placeUnit, if_neg (h first (List.mem_cons_self ..))]
    split
    · exact List.Perm.refl _
    · exact ((ih fun u hu => h u (List.mem_cons_of_mem _ hu)).cons first).trans
        (List.Perm.swap unit first rest)

lemma placeUnit_sorted (unit : SourceUnit) {files : List SourceUnit}
    (hpath : ∀ u ∈ files, u.path ≠ unit.path)
    (h : files.Pairwise fun a b => a.path < b.path) :
    (placeUnit unit files).Pairwise fun a b => a.path < b.path := by
  induction files with
  | nil => simp [placeUnit]
  | cons first rest ih =>
    obtain ⟨hfirst, hrest⟩ := List.pairwise_cons.1 h
    have hne := hpath first (List.mem_cons_self ..)
    have hothers : ∀ u ∈ rest, u.path ≠ unit.path :=
      fun u hu => hpath u (List.mem_cons_of_mem _ hu)
    rw [placeUnit, if_neg hne]
    split
    · next hlt =>
      refine List.pairwise_cons.2 ⟨fun u hu => ?_, h⟩
      rcases List.mem_cons.1 hu with rfl | hu
      · exact hlt
      · exact lt_trans hlt (hfirst u hu)
    · next hlt =>
      refine List.pairwise_cons.2 ⟨fun u hu => ?_, ih hothers hrest⟩
      rcases List.mem_cons.1 ((placeUnit_perm unit hothers).mem_iff.1 hu) with rfl | hu
      · exact lt_of_le_of_ne (not_lt.1 hlt) hne
      · exact hfirst u hu

/-- The session with one more document of the project, which has just been tidied. -/
def place (session : Session) (bench : Workbench) : Session :=
  { session with
    libraries := bench.libraries
    pool := bench.pool
    files := placeUnit bench.unit session.files }

lemma tidyFile_eq {tree : FileTree} {bench : Workbench}
    (h : Workbench.tidy ⟨session.libraries, session.pool, .new tree .project⟩ = ⟨bench, none⟩) :
    tidyFile tree session = ⟨session.place bench, none⟩ := by
  simp only [tidyFile, h]
  rfl

/-- A session with a new document of the project, whose path is not in use. -/
lemma Sound.place (sound : session.Sound) {bench : Workbench}
    (hsettled : bench.libraries.Settled (bench.unit :: session.units))
    (hpool : bench.pool.Matches bench.libraries.project [])
    (hgrows : session.libraries.Grows .project bench.libraries)
    (hlibrary : bench.unit.library = .project)
    (hfree : ∀ unit ∈ session.files, unit.path ≠ bench.unit.path) :
    (session.place bench).Sound := by
  have hperm := placeUnit_perm bench.unit hfree
  refine ⟨hsettled.perm (hperm.symm.append_right _), hpool, placeUnit_sorted _ hfree sound.sorted,
    fun u hu => ?_, sound.foreign_library, fun id hid => ?_, sound.dirty_sorted⟩
  · rcases List.mem_cons.1 (hperm.mem_iff.1 hu) with rfl | hu
    · exact hlibrary
    · exact sound.files_library u hu
  · obtain ⟨lib, hlib⟩ := sound.foreign_loaded id hid
    exact hgrows.keeps hlib

lemma Tidied.refl (session : Session) : Tidied session session [] :=
  ⟨rfl, rfl, rfl, rfl, rfl, .refl _ _, [], List.Perm.refl _, rfl, by simp, fun _ => ⟨0, by simp⟩⟩

/-- One document more, before the others: its indices are drawn first. -/
lemma Tidied.cons {bench : Workbench} {tree : FileTree} {trees : List FileTree} {after : Session}
    (tidied : Tidied (session.place bench) after trees)
    (hgrows : session.libraries.Grows .project bench.libraries) (htree : bench.unit.tree = tree)
    (hself : bench.unit.skeleton = bench.unit)
    (hfree : ∀ unit ∈ session.files, unit.path ≠ bench.unit.path)
    (hdrawn : ∀ category, ∃ n,
      session.pool.Draws session.libraries.project category n bench.pool bench.libraries.project ∧
        bench.unit.indices category = session.pool.next session.libraries.project category n) :
    Tidied session after (tree :: trees) := by
  obtain ⟨fresh, hfresh, htrees, hselves, hnext⟩ := tidied.files_perm
  refine ⟨tidied.manifest_eq, tidied.sources_eq, tidied.foreign_eq, tidied.dirty_eq,
    tidied.removed_eq, hgrows.trans tidied.grows, bench.unit :: fresh, ?_, ?_, ?_, ?_⟩
  · refine List.Perm.trans ?_ hfresh
    rw [List.cons_append]
    exact List.perm_middle.symm.trans ((placeUnit_perm bench.unit hfree).symm.append_left fresh)
  · rw [List.map_cons, htree, htrees]
  · intro u hu
    rcases List.mem_cons.1 hu with rfl | hu
    · exact hself
    · exact hselves u hu
  · intro category
    obtain ⟨n, hdraws, hindices⟩ := hdrawn category
    obtain ⟨m, hrest⟩ := hnext category
    refine ⟨n + m, ?_⟩
    rw [List.flatMap_cons, hindices, hrest, hdraws.next_add]
    rfl

/-- Tidying documents whose paths are not in use. -/
lemma Sound.tidyAll_eq (sound : session.Sound) (trees : List FileTree)
    (hpaths : (trees.map FileTree.path).Nodup)
    (hnew : ∀ tree ∈ trees, ∀ unit ∈ session.files, unit.path ≠ tree.path) :
    ∃ after, Outcome.forEach tidyFile trees session = ⟨after, none⟩ ∧ after.Sound ∧
      Tidied session after trees := by
  induction trees generalizing session with
  | nil => exact ⟨session, rfl, sound, .refl session⟩
  | cons tree rest ih =>
    have hproject : session.libraries.get? .project = some session.libraries.project := rfl
    obtain ⟨bench, htidy, hsettled, hpool, hgrows, htree, hlibrary, hunlinked⟩ :=
      sound.settled.tidy hproject sound.pool tree
    have hpath : bench.unit.path = tree.path := congrArg FileTree.path htree
    have hfree : ∀ u ∈ session.files, u.path ≠ bench.unit.path := by
      rw [hpath]
      exact hnew tree List.mem_cons_self
    have sound₁ := sound.place hsettled hpool hgrows hlibrary hfree
    rw [List.map_cons, List.nodup_cons] at hpaths
    have hnew₁ : ∀ t ∈ rest, ∀ unit ∈ (session.place bench).files, unit.path ≠ t.path := by
      intro t ht u hu
      rcases List.mem_cons.1 ((placeUnit_perm bench.unit hfree).mem_iff.1 hu) with rfl | hu
      · rw [hpath]
        exact fun heq => hpaths.1 (heq ▸ List.mem_map_of_mem ht)
      · exact hnew t (List.mem_cons_of_mem _ ht) u hu
    obtain ⟨after, hrest, sound₂, tidied⟩ := ih sound₁ hpaths.2 hnew₁
    refine ⟨after, ?_, sound₂, tidied.cons hgrows htree hunlinked hfree
      fun category => sound.settled.drawn_tidy sound.pool htidy category⟩
    rw [Outcome.forEach, tidyFile_eq htidy, Outcome.andThen_of_none, hrest]

/-! ## Whole rebuilds -/

/-- Linking, unlinking and checking keep a session sound. -/
lemma Sound.of_skeleton_eq (sound : session.Sound) {session' : Session}
    (hset : session'.libraries.skeleton = session.libraries.skeleton)
    (hfiles : session'.files.map SourceUnit.skeleton = session.files.map SourceUnit.skeleton)
    (hpool : session'.pool = session.pool) (hforeign : session'.foreign = session.foreign)
    (hdirty : session'.dirty.Pairwise (· < ·)) : session'.Sound := by
  refine ⟨?_, ?_, ?_, ?_, ?_, ?_, hdirty⟩
  · refine sound.settled.of_skeleton_eq hset ?_
    rw [Session.units, Session.units, List.map_append, List.map_append, hfiles, hforeign]
  · rw [hpool]
    exact sound.pool.of_skeleton_eq (congrArg LibrarySet.project hset)
  · -- Paths stand in the trees, which skeletons keep.
    have hpaths : session'.files.map SourceUnit.path = session.files.map SourceUnit.path := by
      have h := congrArg (List.map SourceUnit.path) hfiles
      rw [List.map_map, List.map_map] at h
      exact h
    have hsorted := sound.sorted
    rw [← List.pairwise_map] at hsorted ⊢
    rw [hpaths]
    exact hsorted
  · intro unit hunit
    obtain ⟨old, hold, he⟩ := SourceUnit.exists_of_skeleton_eq hfiles hunit
    have hsame : unit.library = old.library := congrArg (·.library) he
    exact hsame.trans (sound.files_library old hold)
  · rw [hforeign]
    exact sound.foreign_library
  · intro id hid
    rw [hforeign] at hid
    obtain ⟨lib, hlib⟩ := sound.foreign_loaded id hid
    obtain ⟨lib', hlib', -⟩ := LibrarySet.get?_of_skeleton_eq hset.symm hlib
    exact ⟨lib', hlib'⟩

lemma document?_path {sources : Sources} {path : String} {tree : FileTree}
    (h : sources.document? path = some tree) : tree.path = path := by
  simpa using List.find?_some h

lemma pendingTrees_paths (session : Session) :
    (session.pendingTrees.map FileTree.path).Sublist session.dirty := by
  unfold pendingTrees
  induction session.dirty with
  | nil => simp
  | cons path rest ih =>
    cases hdoc : session.sources.document? path with
    | none =>
      rw [List.filterMap_cons_none hdoc]
      exact ih.cons path
    | some tree =>
      rw [List.filterMap_cons_some hdoc, List.map_cons, document?_path hdoc]
      exact ih.cons_cons path

/-- A document that waits to be read again is torn down, so no other has its path. -/
lemma ne_path_of_pending {tree : FileTree} (htree : tree ∈ session.pendingTrees)
    {unit : SourceUnit} (hunit : unit ∈ session.untouched) : unit.path ≠ tree.path := by
  intro heq
  obtain ⟨hin, hspared⟩ := List.mem_filter.1 hunit
  have hdirty : unit.path ∈ session.dirty := by
    rw [heq]
    exact session.pendingTrees_paths.subset (List.mem_map_of_mem htree)
  have hlive : (session.file? unit.path).isSome := by
    rw [file?, List.find?_isSome]
    exact ⟨unit, hin, by simp⟩
  have hdoomed : unit.path ∈ session.doomed :=
    List.mem_filter.2 ⟨List.mem_append_left _ hdirty, hlive⟩
  simp [hdoomed] at hspared

lemma Sound.unlinkAll (sound : session.Sound) : session.unlinkAll.Sound := by
  obtain ⟨hset, hfiles⟩ :=
    Linkages.skeleton_each Linkage.sameSkeleton_unlink session.libraries session.files
  exact sound.of_skeleton_eq hset hfiles rfl rfl sound.dirty_sorted

/-- A sound session, seen as one that keeps an invariant of loading. -/
lemma Sound.keeps {P : LibrarySet → IndexPool → List SourceUnit → Prop} (sound : session.Sound)
    (h : P session.libraries session.pool session.units) : session.Keeps P [] :=
  ⟨h, sound.foreign_library, sound.foreign_loaded⟩

lemma Sound.of_keeps {after : Session} (sound : session.Sound) (loaded : Loaded session after)
    (keeps : after.Keeps (fun set pool units => set.Settled units ∧
      pool.Matches set.project []) []) :
    after.Sound where
  settled := keeps.holds.1
  pool := keeps.holds.2
  sorted := by
    rw [loaded.files_eq]
    exact sound.sorted
  files_library := by
    rw [loaded.files_eq]
    exact sound.files_library
  foreign_library := keeps.foreign_library
  foreign_loaded := keeps.foreign_loaded
  dirty_sorted := by
    rw [loaded.dirty_eq]
    exact sound.dirty_sorted

lemma Sound.loadImports (sound : session.Sound) (names : List String) :
    (session.loadImports names).Sound ∧ Loaded session (session.loadImports names) := by
  obtain ⟨keeps, loaded⟩ :=
    (sound.keeps ⟨sound.settled, sound.pool⟩).loadImports loadInvariant_settled names
  exact ⟨sound.of_keeps loaded keeps, loaded⟩

lemma Sound.overFiles_link (sound : session.Sound) (options : LinkOptions) :
    (session.overFiles (·.link options)).Sound := by
  obtain ⟨hset, hfiles⟩ := Linkages.skeleton_link ⟨session.libraries, session.files⟩ options
  exact sound.of_skeleton_eq hset hfiles rfl rfl sound.dirty_sorted

lemma libraries_checkProject (session : Session) :
    session.checkProject.libraries = (session.libraries.check .project).1 := by
  simp only [checkProject]

lemma foreign_checkProject (session : Session) :
    session.checkProject.foreign = session.foreign ∧
      session.checkProject.manifest = session.manifest := by
  simp only [checkProject, and_self]

lemma skeleton_checkProject (session : Session) :
    session.checkProject.files.map SourceUnit.skeleton = session.files.map SourceUnit.skeleton := by
  simp only [checkProject, List.map_map]
  rfl

lemma Sound.checkProject (sound : session.Sound) : session.checkProject.Sound := by
  refine sound.of_skeleton_eq ?_ session.skeleton_checkProject ?_
    session.foreign_checkProject.1 ?_
  · rw [libraries_checkProject]
    exact session.libraries.skeleton_check .project
  · simp only [Session.checkProject]
  · simp only [Session.checkProject]
    exact sound.dirty_sorted

lemma Sound.relink (sound : session.Sound) : session.relink.Sound :=
  ((sound.loadImports _).1.overFiles_link _).checkProject

/-- The session that a rebuild links again, unless a fault stops it before that. -/
def groundwork? (session : Session) : Option Session :=
  let demolished := session.tearDown
  match demolished.fault with
  | some _ => none
  | none =>
    let tidied := demolished.state.session.unlinkAll.tidyPending
    match tidied.fault with
    | some _ => none
    | none => some tidied.state

/-- The course of a rebuild: some documents are torn down and the others unlinked, then those that
wait are tidied, and everything is linked and checked. -/
theorem Sound.groundwork_eq (sound : session.Sound) : ∃ torn pool tidied report,
    (torn ++ session.untouched).Perm session.files ∧ (session.cleared torn pool).Sound ∧
      tidied.Sound ∧
      Tidied { session.cleared torn pool with dirty := [] } tidied session.pendingTrees ∧
      session.groundwork? = some tidied ∧ session.rebuild = (tidied.relink, .ok report) := by
  obtain ⟨torn, pool, hperm, ⟨gone, htear⟩, hsettled, hpool⟩ := sound.tearDown_eq
  have hsub : session.untouched.Sublist session.files := List.filter_sublist
  -- `sound₁` to `sound₄`: after teardown, with links undone, with no marks left, and tidied.
  obtain ⟨torndown, htorndown⟩ : ∃ torndown : Session, torndown = { session with
      libraries := (Linkages.each Linkage.dispose
        (Linkages.each Linkage.detach session.libraries torn).libraries
        (Linkages.each Linkage.detach session.libraries torn).units).libraries
      pool
      files := session.untouched
      removed := [] } := ⟨_, rfl⟩
  have hcleared : session.cleared torn pool = torndown.unlinkAll := by
    rw [htorndown]
    rfl
  have sound₁ : torndown.Sound := by
    rw [htorndown]
    refine ⟨hsettled, hpool, sound.sorted.sublist hsub,
      fun u hu => sound.files_library u (hsub.subset hu), sound.foreign_library, ?_,
      sound.dirty_sorted⟩
    intro id hid
    obtain ⟨lib, hlib⟩ := sound.foreign_loaded id hid
    exact loaded_tornDown torn _ hlib
  have sound₂ := sound₁.unlinkAll
  have sound₃ : Sound { torndown.unlinkAll with dirty := [] } :=
    sound₂.of_skeleton_eq rfl rfl rfl rfl List.Pairwise.nil
  have hpending : torndown.unlinkAll.pendingTrees = session.pendingTrees := by
    rw [htorndown]
    rfl
  have hpaths : (session.pendingTrees.map FileTree.path).Nodup :=
    session.pendingTrees_paths.nodup (nodup_of_pairwise_lt sound.dirty_sorted)
  have hnew : ∀ tree ∈ session.pendingTrees, ∀ unit ∈ torndown.unlinkAll.files,
      unit.path ≠ tree.path := by
    intro tree htree unit hunit
    obtain ⟨-, hfiles⟩ :=
      Linkages.skeleton_each Linkage.sameSkeleton_unlink torndown.libraries torndown.files
    obtain ⟨old, hold, he⟩ := SourceUnit.exists_of_skeleton_eq hfiles hunit
    have hpath : unit.path = old.path := congrArg (fun u => u.path) he
    rw [htorndown] at hold
    rw [hpath]
    exact ne_path_of_pending htree hold
  obtain ⟨tidied, htidy, sound₄, htidied⟩ := sound₃.tidyAll_eq session.pendingTrees hpaths hnew
  have htidy' : torndown.unlinkAll.tidyPending = ⟨tidied, none⟩ := by
    rw [tidyPending, hpending, htidy]
  obtain ⟨report, hrebuild⟩ : ∃ report, session.rebuild = (tidied.relink, .ok report) := by
    simp only [rebuild, htear, ← htorndown, htidy']
    exact ⟨_, rfl⟩
  have hgroundwork : session.groundwork? = some tidied := by
    simp only [groundwork?, htear, ← htorndown, htidy']
  rw [← hcleared] at sound₂ htidied
  exact ⟨torn, pool, tidied, report, hperm, sound₂, sound₄, htidied, hgroundwork, hrebuild⟩

theorem Sound.rebuild_eq (sound : session.Sound) : ∃ torn pool tidied report,
    (torn ++ session.untouched).Perm session.files ∧ (session.cleared torn pool).Sound ∧
      tidied.Sound ∧
      Tidied { session.cleared torn pool with dirty := [] } tidied session.pendingTrees ∧
      session.rebuild = (tidied.relink, .ok report) := by
  obtain ⟨torn, pool, tidied, report, hperm, hcleared, hsound, htidied, -, hrebuild⟩ :=
    sound.groundwork_eq
  exact ⟨torn, pool, tidied, report, hperm, hcleared, hsound, htidied, hrebuild⟩

lemma Sound.skeleton_relink (sound : session.Sound) :
    session.relink.files.map SourceUnit.skeleton = session.files.map SourceUnit.skeleton := by
  obtain ⟨-, loaded⟩ := sound.loadImports (importNames session.files)
  unfold Session.relink
  generalize session.loadImports (importNames session.files) = mid at loaded ⊢
  obtain ⟨-, hlinked⟩ := Linkages.skeleton_link ⟨mid.libraries, mid.files⟩ mid.options
  rw [← loaded.files_eq]
  exact (skeleton_checkProject _).trans hlinked

/-- The trees after a rebuild are those that waited to be read and those that were not touched. -/
theorem Sound.trees_rebuild (sound : session.Sound) :
    (session.rebuild.1.files.map SourceUnit.tree).Perm
      (session.pendingTrees ++ session.untouched.map SourceUnit.tree) := by
  have htree {units units' : List SourceUnit}
      (h : units'.map SourceUnit.skeleton = units.map SourceUnit.skeleton) :
      units'.map SourceUnit.tree = units.map SourceUnit.tree := by
    have heq (units : List SourceUnit) : units.map SourceUnit.tree
        = (units.map SourceUnit.skeleton).map SourceUnit.tree := by
      rw [List.map_map]
      rfl
    rw [heq, h, ← heq]
  obtain ⟨torn, pool, tidied, report, -, -, hsound, htidied, hrebuild⟩ := sound.rebuild_eq
  obtain ⟨fresh, hfresh, htrees, -⟩ := htidied.files_perm
  have hcleared : (session.cleared torn pool).files.map SourceUnit.tree
      = session.untouched.map SourceUnit.tree :=
    htree (Linkages.skeleton_each Linkage.sameSkeleton_unlink _ _).2
  rw [hrebuild, htree hsound.skeleton_relink, ← htrees, ← hcleared, ← List.map_append]
  exact (hfresh.map SourceUnit.tree).symm

end Session

end SymbolGraph
