import SymbolGraph.Proofs.Queries.Definitions
import SymbolGraph.Proofs.Session.RereadDocuments
import SymbolGraph.Query

/-!
# Questions have answers

A question about a position resolves nothing: it picks an occurrence and looks its target up.  Right
after a rebuild the project is on firm ground (`Session.Readied.grounded`): the rebuild has emptied
its records, keeps of its documents the names that tidying has recorded, and everything that it then
adds is something that it has just found.  So the target of an occurrence exists, and with it
everything that a hover shows; and a declaration is defined where its record says
(`Session.announced_run`).
-/

namespace SymbolGraph

/-! ## The name at a position -/

lemma innermost_mem {occurrences : List Occurrence} {occurrence : Occurrence}
    (h : innermost occurrences = some occurrence) : occurrence ∈ occurrences := by
  cases occurrences with
  | nil => cases h
  | cons first rest =>
    rw [← Option.some.inj h]
    refine List.foldlRecOn (motive := (· ∈ first :: rest)) rest _ List.mem_cons_self ?_
    intro best hbest other hother
    split
    · exact List.mem_cons_of_mem _ hother
    · exact hbest

lemma exists_innermost {occurrences : List Occurrence} (h : occurrences ≠ []) :
    ∃ occurrence, innermost occurrences = some occurrence := by
  cases occurrences with
  | nil => exact absurd rfl h
  | cons first rest => exact ⟨_, rfl⟩

namespace SourceUnit

variable {unit : SourceUnit} {position : Position}

/-- What is picked for a position is an occurrence that covers it. -/
lemma occurrenceAt_mem {occurrence : Occurrence}
    (h : unit.occurrenceAt position = some occurrence) :
    occurrence ∈ unit.occurrences ∧ occurrence.range.Contains position := by
  simpa using List.mem_filter.1 (innermost_mem h)

lemma exists_occurrenceAt {occurrence : Occurrence} (hmem : occurrence ∈ unit.occurrences)
    (hcovers : occurrence.range.Contains position) :
    ∃ picked, unit.occurrenceAt position = some picked :=
  exists_innermost (List.ne_nil_of_mem (List.mem_filter.2 ⟨hmem, by simpa using hcovers⟩))

end SourceUnit

/-! ## Hovers -/

namespace LibrarySet

variable {set : LibrarySet}

@[simp] lemma range_describeBody (set : LibrarySet) (hover : Hover) (body : Body) :
    (set.describeBody hover body).range = hover.range := by
  unfold describeBody
  split <;> rfl

/-- What exists has a dotted name: a member has an owner. -/
lemma Legible.exists_fullName (legible : set.Legible) {id : DeclId}
    (hlive : set.Live (.declaration id)) : ∃ name, set.fullName? id = some name := by
  have howned (owner : DeclId) (howner : id.owner? = some owner) :
      set.Finds (fun _ => True) (.declaration owner) := legible.finds_owner ⟨hlive, trivial⟩ howner
  obtain ⟨entry, hfind, -⟩ := hlive
  obtain ⟨lib, hlib, hentry⟩ := Option.bind_eq_some_iff.1 hfind
  rw [fullName?, hlib, Option.bind_some, Library.fullName?, hentry]
  cases howner : id.owner? with
  | none => exact ⟨_, rfl⟩
  | some owner =>
    obtain ⟨ownerEntry, hownerFind, -⟩ := (howned owner howner).1
    rw [find?, DeclId.library_of_owner? howner, hlib, Option.bind_some] at hownerFind
    simp [hownerFind]

/-- There is something to show for an occurrence of what exists. -/
lemma Legible.exists_hover (legible : set.Legible) {occurrence : Occurrence}
    (hlive : set.Live occurrence.target) :
    ∃ hover, set.hover? occurrence = some hover ∧ hover.range = occurrence.range := by
  unfold hover?
  cases htarget : occurrence.target with
  | space ref =>
    rw [htarget] at hlive
    obtain ⟨lib, hlib⟩ := exists_library hlive
    have hlib : set.get? ref.library = some lib := hlib
    exact ⟨_, by simp only [hlib]; rfl, rfl⟩
  | declaration id =>
    rw [htarget] at hlive
    obtain ⟨lib, hlib⟩ := exists_library hlive
    have hlib : set.get? id.library = some lib := hlib
    obtain ⟨name, hname⟩ := legible.exists_fullName hlive
    obtain ⟨entry, hfind, -⟩ := hlive
    refine ⟨_, by simp only [hfind, hname, hlib]; rfl, ?_⟩
    rw [range_describeBody]

end LibrarySet

namespace Session

variable {session : Session}

/-! ## Firm ground -/

/-- A project that is about to be linked again refers to nothing but what tidying has recorded. -/
theorem Readied.grounded {tidied : Session} (readied : Readied session tidied) :
    tidied.libraries.Grounded tidied.units .project := by
  refine ⟨fun category index entry hslot ty hty => ?_,
    fun unit hunit hlibrary occurrence hmem => ?_,
    ?_⟩
  · rw [readied.blank category index entry hslot] at hty
    intro id hid
    rw [Body.types_fresh hty] at hid
    cases hid
  · refine readied.booked.1.live_tidied hunit occurrence ?_
    rcases List.mem_append.1 hunit with hfile | hforeign
    · have hsame : unit.occurrences = unit.skeleton.occurrences := by
        rw [← readied.unlinked unit hfile]
      exact hsame ▸ hmem
    · exact absurd hlibrary (readied.sound.foreign_library unit hforeign)
  · rintro id kin hlibrary - hkin base hbase
    obtain ⟨entry, hslot, rfl⟩ := Option.map_eq_some_iff.1 hkin
    rw [hlibrary] at hslot
    rw [Body.bases_kin, readied.blank _ _ entry hslot, Body.bases_fresh] at hbase
    cases hbase

/-- Right after a rebuild the project is on firm ground. -/
theorem Balanced.grounded_rebuild (balanced : session.Balanced) (sound : session.Sound) :
    session.rebuild.1.libraries.Grounded session.rebuild.1.units .project := by
  obtain ⟨tidied, report, hrebuild, readied⟩ :=
    sound.readied balanced.booked (balanced.lasting sound)
  rw [hrebuild]
  exact (readied.sound.admits_relink readied.booked.1.toArranged
    fun unit hunit => (readied.unlinked unit hunit).undeclared).grounded .project readied.grounded

/-! ## Questions -/

/-- A path of the project means the document of the project, whatever other libraries have. -/
lemma Sound.unit?_path (sound : session.Sound) {unit : SourceUnit} (hunit : unit ∈ session.files) :
    session.unit? unit.path = some unit := by
  have hfile : session.files.find? (fun other => other.path = unit.path) = some unit :=
    sound.file?_path hunit
  rw [unit?, units, List.find?_append, hfile, Option.some_or]

/-- Right after a rebuild in any run, as long as no other library names the project: at every
position that a name in a document of the project covers, there is something to show, for a range
that covers the position; and if the name there means a declaration, the place of its definition is
that of the declaration's record, and some document has the definition there. -/
theorem queries_answered (manifest : Manifest) (sources : Sources) :
    ∃ initial, Session.start manifest sources = .ok initial ∧ ∀ requests : List Request,
      let session := (initial.run requests).rebuild.1
      session.Quiet → ∀ unit ∈ session.files, ∀ position,
        (∃ occurrence ∈ unit.occurrences, occurrence.range.Contains position) →
        (∃ hover, session.hover unit.path position = some hover ∧
          hover.range.Contains position) ∧
        ∀ occurrence id, session.occurrenceAt unit.path position = some occurrence →
          occurrence.target = .declaration id →
          ∃ entry, session.libraries.find? id = some entry ∧
            session.definition unit.path position = some ⟨entry.document, entry.nameRange⟩ ∧
            ∃ other ∈ session.units, other.path = entry.document ∧
              ∃ mention ∈ other.occurrences, mention.range = entry.nameRange ∧
                mention.target = occurrence.target ∧ mention.definition = true := by
  obtain ⟨initial, hstart, hrun⟩ := balanced_run manifest sources
  obtain ⟨initial', hstart', hannounced⟩ := announced_run manifest sources
  obtain rfl : initial = initial' := by simpa [hstart] using hstart'
  refine ⟨initial, hstart, fun requests => ?_⟩
  obtain ⟨sound, hbalanced⟩ := hrun requests
  intro session quiet unit hunit position hcovered
  have hsession : session = initial.run (requests ++ [.rebuild]) :=
    (initial.run_concat requests .rebuild).symm
  obtain ⟨arranged, hdefined⟩ := hannounced (requests ++ [.rebuild])
  rw [← hsession] at arranged hdefined
  have balanced := hbalanced (@Sound.quiet_of_perform _ sound .rebuild quiet)
  have grounded : session.libraries.Grounded session.units .project :=
    balanced.grounded_rebuild sound
  have hsound : session.Sound := sound.perform .rebuild
  have hat : session.occurrenceAt unit.path position = unit.occurrenceAt position := by
    rw [Session.occurrenceAt, hsound.unit?_path hunit, Option.bind_some]
  obtain ⟨first, hfirst, hcovers⟩ := hcovered
  obtain ⟨picked, hpicked⟩ := SourceUnit.exists_occurrenceAt hfirst hcovers
  obtain ⟨hmem, hcontains⟩ := SourceUnit.occurrenceAt_mem hpicked
  have hlive := grounded.occurrences unit (List.mem_append_left _ hunit)
    (hsound.files_library unit hunit) picked hmem
  refine ⟨?_, fun occurrence id hoccurrence htarget => ?_⟩
  · obtain ⟨hover, hhover, hrange⟩ := arranged.legible.exists_hover hlive
    refine ⟨hover, ?_, hrange ▸ hcontains⟩
    rw [Session.hover, hat, hpicked, Option.bind_some, hhover]
  · rw [hat, hpicked] at hoccurrence
    obtain rfl := Option.some.inj hoccurrence
    rw [htarget] at hlive
    obtain ⟨entry, hfind, hid⟩ := hlive
    obtain ⟨other, hother, hpath, mention, hmention, hrange, hmeans, hdefinition⟩ :=
      hdefined id entry hfind hid
    refine ⟨entry, hfind, ?_, other, hother, hpath, mention, hmention, hrange, ?_, hdefinition⟩
    · simp [Session.definition, hat, hpicked, htarget, hfind, Symbol.location]
    · rw [hmeans, hid, htarget]

/-- The type of `flag` in the text of its document. -/
def bitOccurrence : Occurrence :=
  ⟨⟨⟨0, 0⟩, ⟨0, 3⟩⟩, .declaration ⟨.kernel, .struct, 0, none⟩, false, true⟩

set_option maxRecDepth 20000 in
lemma occurrences_flag {initial : Session}
    (hstart : Session.start (.new "demo") bitKernel = .ok initial) :
    let session := (initial.run [.insert flagTree, .changed "main.rk"]).rebuild.1
    ∃ unit ∈ session.files, unit.path = "main.rk" ∧ bitOccurrence ∈ unit.occurrences ∧
      session.occurrenceAt "main.rk" ⟨0, 1⟩ = some bitOccurrence := by
  have hrun : (Session.start (.new "demo") bitKernel).toOption.map (fun initial =>
      let session := (initial.run [.insert flagTree, .changed "main.rk"]).rebuild.1
      (session.files.map fun unit => (unit.path, unit.occurrences.drop 1),
        session.occurrenceAt "main.rk" ⟨0, 1⟩))
      = some ([("main.rk", [bitOccurrence])], some bitOccurrence) := by
    cbv
  rw [hstart] at hrun
  obtain ⟨hfiles, hat⟩ := Prod.mk.inj (Option.some.inj hrun)
  obtain ⟨unit, hunits, hunit⟩ := List.map_eq_singleton_iff.1 hfiles
  obtain ⟨hpath, hoccurrences⟩ := Prod.mk.inj hunit
  refine ⟨unit, hunits ▸ List.mem_singleton_self unit, hpath, ?_, hat⟩
  exact List.mem_of_mem_drop (hoccurrences ▸ List.mem_singleton_self _)

/-- The type of `flag` is defined in the kernel. -/
theorem queries_answered_flag :
    ∃ initial, Session.start (.new "demo") bitKernel = .ok initial ∧
      let session := (initial.run [.insert flagTree, .changed "main.rk"]).rebuild.1
      session.Quiet ∧ ∃ unit ∈ session.files, unit.path = "main.rk" ∧
        (∃ hover, session.hover "main.rk" ⟨0, 1⟩ = some hover ∧ hover.range.Contains ⟨0, 1⟩) ∧
        session.occurrenceAt "main.rk" ⟨0, 1⟩ = some bitOccurrence ∧
        ∃ entry, session.libraries.find? ⟨.kernel, .struct, 0, none⟩ = some entry ∧
          session.definition "main.rk" ⟨0, 1⟩ = some ⟨entry.document, entry.nameRange⟩ ∧
          ∃ other ∈ session.units, other.path = entry.document ∧
            ∃ mention ∈ other.occurrences, mention.range = entry.nameRange ∧
              mention.target = bitOccurrence.target ∧ mention.definition = true := by
  obtain ⟨initial, hstart, hanswered⟩ := queries_answered (.new "demo") bitKernel
  obtain ⟨unit, hunit, hpath, hmem, hat⟩ := occurrences_flag hstart
  obtain ⟨hhover, hdefinition⟩ := hanswered [.insert flagTree, .changed "main.rk"]
    (quiet_flag hstart) unit hunit ⟨0, 1⟩ ⟨bitOccurrence, hmem, by decide⟩
  rw [hpath] at hhover hdefinition
  exact ⟨initial, hstart, quiet_flag hstart, unit, hunit, hpath, hhover, hat,
    hdefinition bitOccurrence _ hat rfl⟩

end Session

end SymbolGraph
