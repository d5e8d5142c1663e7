import Mathlib.Data.Fintype.Card
import Mathlib.Data.Set.Finite.Basic
import SymbolGraph.Proofs.Renumbering.LibraryAgreement
import SymbolGraph.Proofs.Session.ImportOrigins
import SymbolGraph.Proofs.Session.LoadedLibraries

/-!
# The order of loads

Two sessions with the same sources load the same libraries in different orders.  The libraries get
different identities, and each is linked and checked at a time when different other libraries are
there.

A library that leads into no circle is explained by what its own directives lead to
(`Compilation.Explains`), so the two sessions agree on it if they agree on all of that.  Hence they
agree on every such library, by induction along its directives (`Session.loads_agree`), whatever
circles there are among others.  One thing more has to be excluded: a dotted type is looked up in
the library that its first segment names, whether or not this library is imported.

The order does matter in these two cases (`Session.loads_differ`).  In a circle the library that is
loaded last is linked before the one that it imports has its members.  A dotted type that begins
with a library that is not imported means something only if this library happens to be there
already.
-/

namespace SymbolGraph

/-! ## Induction along imports -/

variable {manifest : Manifest} {sources : Sources}

lemma LeadsTo.importable {name other : String} (h : LeadsTo manifest sources name other)
    (hne : other ≠ name) : Importable manifest sources other := by
  rcases h.cases_tail with heq | ⟨_, -, huse⟩
  · exact absurd heq hne
  · exact huse.importable

/-- A dotted type of a library begins with the name of no library but those that the library leads
to. -/
def TypesImported (manifest : Manifest) (sources : Sources) (name : String) : Prop :=
  ∀ trees, sources.library? name = some trees →
    ∀ tree ∈ trees, ∀ ty ∈ tree.types, ∀ first rest, ty.path = first :: rest → rest ≠ [] →
      Importable manifest sources first.name → LeadsTo manifest sources name first.name

/-- The library leads into no circle, and neither it nor a library that it leads to names one in a
dotted type without leading to it. -/
structure SelfContained (manifest : Manifest) (sources : Sources) (name : String) : Prop where
  untangled : Untangled manifest sources name
  types : ∀ other, LeadsTo manifest sources name other → TypesImported manifest sources other

lemma SelfContained.of_leadsTo {name other : String} (self : SelfContained manifest sources name)
    (h : LeadsTo manifest sources name other) : SelfContained manifest sources other :=
  ⟨self.untangled.of_leadsTo h, fun far hfar => self.types far (h.trans hfar)⟩

/-- What holds of a library if it holds of all that the library leads to holds of every
self-contained library, as there are finitely many that can be imported. -/
lemma SelfContained.induction {P : String → Prop}
    (step : ∀ name, Importable manifest sources name → SelfContained manifest sources name →
      (∀ other, LeadsTo manifest sources name other → other ≠ name → P other) → P name)
    {name : String} (importable : Importable manifest sources name)
    (self : SelfContained manifest sources name) : P name := by
  let Good (name : String) : Prop := Importable manifest sources name ∧
    SelfContained manifest sources name
  have hfinite : {name | Good name}.Finite :=
    (List.finite_toSet manifest.libraries).subset fun name h => of_decide_eq_true h.1.declared
  have : Finite {name // Good name} := hfinite.to_subtype
  let below (a b : {name // Good name}) : Prop := LeadsTo manifest sources b.1 a.1 ∧ a.1 ≠ b.1
  have : IsTrans _ below := ⟨fun a b c hab hbc => ⟨hbc.1.trans hab.1, fun heq =>
    hbc.2 (c.2.2.untangled .refl hbc.1 (heq ▸ hab.1)).symm⟩⟩
  have : Std.Irrefl below := ⟨fun a h => h.2 rfl⟩
  have hwf : WellFounded below := Finite.wellFounded_of_trans_of_irrefl below
  suffices h : ∀ a : {name // Good name}, P a.1 from h ⟨name, importable, self⟩
  refine fun a => hwf.induction a fun b ih => step b.1 b.2.1 b.2.2 fun other hleads hne => ?_
  exact ih ⟨other, hleads.importable hne, b.2.2.of_leadsTo hleads⟩ ⟨hleads, hne⟩

/-! ## Two compilations of a library -/

/-- In what a library is linked and checked. -/
structure Compilation.Prepared (c : Compilation) (library : LibraryId) : Prop where
  units : ∀ unit ∈ c.batch.units, unit.library = library ∧ unit.skeleton = unit
  arranged : ∃ others, c.model.Arranged (c.batch.units ++ others)

lemma Compilation.Explains.prepared {c : Compilation} {origin session : Session} {name : String}
    {library : LibraryId} (h : c.Explains origin session name library) : c.Prepared library :=
  ⟨h.units, h.arranged⟩

/-- A library is the same whatever identity it has, if it was tidied alike, and linked and checked
in models that match where its documents ask for something. -/
lemma Compilation.agree_result {c c' : Compilation} {r : Renumbering} {area : Area}
    {library : LibraryId} (prepared : c.Prepared library)
    (prepared' : c'.Prepared (r.library library))
    (only : r.OnlyLibraries) (hnear : area.near library) (hproject : library ≠ .project)
    (contents : Linkage.Contents r area c.model c'.model)
    (skeletons : LibrarySet.SameSkeletons r library c.model c'.model)
    (units : List.Forall₂ (SourceUnit.Matches r) c.batch.units c'.batch.units)
    (himports : ∀ unit ∈ c.batch.units, ∀ name ∈ unit.tree.root.importRoots, area.known name)
    (htypes : ∀ unit ∈ c.batch.units, ∀ ty ∈ unit.tree.types, area.Covers ty.path)
    (options : LinkOptions) :
    LibrarySet.Agree r area.near library (c.result options library).libraries
        (c'.result options (r.library library)).libraries ∧
      List.Forall₂ (SourceUnit.Matches r) (c.result options library).units
        (c'.result options (r.library library)).units := by
  obtain ⟨others, arranged⟩ := prepared.arranged
  obtain ⟨others', arranged'⟩ := prepared'.arranged
  -- A unit just tidied has no scopes yet, so its imports and types are all that it can reach.
  have within : ∀ unit ∈ c.batch.units, unit.Within area := fun unit hunit => by
    obtain ⟨hlibrary, hskeleton⟩ := prepared.units unit hunit
    refine ⟨hlibrary ▸ hnear, fun scope hscope => ?_, himports unit hunit, htypes unit hunit⟩
    rw [← hskeleton] at hscope
    cases hscope
  have documents : List.Forall₂ (Linkage.Documents r area) c.batch.units c'.batch.units :=
    ((List.forall₂_and_left _ _).2 ⟨within, units⟩).imp fun _ _ h => h.symm
  have related : Linkages.Related SourceUnit.Undeclared (Linkage.Contents r area)
      (Linkage.Documents r area) others others' ⟨c.model, c.batch.units⟩
        ⟨c'.model, c'.batch.units⟩ := by
    refine ⟨arranged, arranged', fun unit hunit => ?_, fun unit hunit => ?_, contents, documents⟩
    · exact undeclared_of_skeleton_eq (prepared.units unit hunit).2
    · exact undeclared_of_skeleton_eq (prepared'.units unit hunit).2
  exact Linkages.agree_finish related only options hnear hproject skeletons

/-! ## The kernel -/

/-- The project and the kernel. -/
def LibraryId.IsHome (library : LibraryId) : Prop := library = .project ∨ library = .kernel

lemma LibraryId.IsHome.library_eq {library : LibraryId} (hhome : library.IsHome) (r : Renumbering) :
    r.library library = library := by
  rcases hhome with rfl | rfl
  · exact r.library_project
  · exact r.library_kernel

lemma LibrarySet.isHome_of_named?_new {projectName kernelName name : String} {library : LibraryId}
    (h : (new projectName kernelName).named? name = some library) : library.IsHome := by
  rw [named?, new, Assoc.at?_put] at h
  split at h
  · exact .inr (Option.some.inj h).symm
  · rw [Assoc.at?] at h
    split at h
    · exact .inl (Option.some.inj h).symm
    · cases h

/-- How the kernel was compiled at the start of a session. -/
structure Compilation.Starts (c : Compilation) (manifest : Manifest) (sources : Sources)
    (initial : Session) : Prop extends c.Prepared .kernel where
  model : c.model = c.batch.libraries
  grows : (LibrarySet.new manifest.name manifest.kernel).Grows .kernel c.model
  tidied : Outcome.forEach (Batch.tidy .kernel) (Session.kernelTrees manifest sources)
    ⟨.new manifest.name manifest.kernel, {}, []⟩ = ⟨c.batch, none⟩
  libraries : initial.libraries = (c.result initial.options .kernel).libraries
  foreign : initial.foreign.at? .kernel = some (c.result initial.options .kernel).units

namespace Session

lemma exists_starts {initial : Session} (h : start manifest sources = .ok initial) :
    ∃ c : Compilation, c.Starts manifest sources initial := by
  have keeps : (unloaded manifest sources).Keeps
      (fun set pool units => set.Arranged units ∧ pool.Matches set.project []) [] :=
    ⟨⟨LibrarySet.arranged_new manifest.name manifest.kernel, IndexPool.matches_new manifest.name⟩,
      by simp [unloaded, Assoc.values], by simp [unloaded]⟩
  obtain ⟨batch, hbatch, hunits, grows, tidied, -⟩ := keeps.tidied loadInvariant_arranged
    LibraryId.kernel_ne_project ⟨_, rfl⟩ (kernelTrees manifest sources)
  obtain ⟨linked, hlinked⟩ : ∃ linked, linked
      = (Compilation.mk [] batch batch.libraries).result
        (unloaded manifest sources).options .kernel :=
    ⟨_, rfl⟩
  -- The kernel is compiled with no imports to load first, and cannot fail.
  have hcompile : compile (fun _ session => session) .kernel (kernelTrees manifest sources)
      (unloaded manifest sources) = ⟨{ unloaded manifest sources with
        libraries := linked.libraries
        pool := batch.pool
        foreign := Assoc.putSorted [] .kernel linked.units }, none⟩ := by
    rw [hlinked]
    simp only [compile, hbatch]
    rfl
  rw [start, hcompile] at h
  have hinitial := Except.ok.inj h
  have hoptions : initial.options = (unloaded manifest sources).options := by
    rw [options, ← hinitial]
    rfl
  refine ⟨⟨[], batch, batch.libraries⟩, ⟨hunits, [] ++ (unloaded manifest sources).units, ?_⟩, rfl,
    grows, hbatch, ?_, ?_⟩
  · rw [← List.append_assoc]
    exact tidied.holds.1
  · rw [hoptions, ← hlinked, ← hinitial]
  · rw [hoptions, ← hlinked, ← hinitial]
    rfl

end Session

namespace Compilation.Starts

variable {c : Compilation} {initial : Session} (h : c.Starts manifest sources initial)

include h

/-- The kernel, once it is tidied, is the same under new identities of imports. -/
lemma alike (r : Renumbering) : c.batch.Alike r .kernel c.batch := by
  have hnew : Batch.Alike r .kernel ⟨.new manifest.name manifest.kernel, {}, []⟩
      ⟨.new manifest.name manifest.kernel, {}, []⟩ := by
    refine ⟨.nil, ?_⟩
    rw [r.library_kernel]
    exact congrArg some (congrArg (Library.new · manifest.kernel) r.library_kernel.symm)
  have htidied := (Batch.alike_tidyAll LibraryId.kernel_ne_project
    (Session.kernelTrees manifest sources) hnew).state
  rwa [r.library_kernel, h.tidied] at htidied

/-- The kernel and the empty project name nothing but each other, so they agree with themselves
under new identities of imports. -/
lemma agree_model {r : Renumbering} {near : LibraryId → Prop} {library : LibraryId}
    (hhome : library.IsHome) : LibrarySet.Agree r near library c.model c.model := by
  rcases hhome with rfl | rfl
  · have hproject : c.model.get? .project = some (.new .project manifest.name) :=
      h.grows.other LibraryId.kernel_ne_project.symm
    refine LibrarySet.agree_of_grows hproject (.refl _ _) ?_
    rw [r.library_project, hproject]
    exact congrArg some (congrArg (Library.new · manifest.name) r.library_project.symm)
  · exact LibrarySet.agree_of_grows rfl h.grows (h.model ▸ (h.alike r).loaded)

lemma agree_initial {r : Renumbering} (only : r.OnlyLibraries) :
    (∀ library : LibraryId, library.IsHome →
        LibrarySet.Agree r LibraryId.IsHome library initial.libraries initial.libraries) ∧
      ∃ units, initial.foreign.at? .kernel = some units ∧
        List.Forall₂ (SourceUnit.Matches r) units units := by
  have hkernel : LibraryId.IsHome .kernel := .inr rfl
  have hnames (name : String) (library : LibraryId) (hname : c.model.named? name = some library) :
      library.IsHome := by
    rw [LibrarySet.named?, h.grows.names_eq] at hname
    exact LibrarySet.isHome_of_named?_new hname
  obtain ⟨others, arranged⟩ := h.arranged
  have hid := arranged.orderly.identified
  have contents : Linkage.Contents r ⟨LibraryId.IsHome, fun _ => True⟩ c.model c.model := by
    refine LibrarySet.contents_of_agree only hid hid hkernel (fun name _ => hnames name)
      (fun name _ => ?_) fun library hhome => h.agree_model hhome
    cases hname : c.model.named? name with
    | none => rfl
    | some library => exact congrArg some ((hnames name library hname).library_eq r).symm
  -- Every renumbering fixes the kernel, so one compilation serves on both sides.
  have prepared' : c.Prepared (r.library .kernel) := by
    rw [r.library_kernel]
    exact h.toPrepared
  have hmodel : LibrarySet.Agree r (fun _ => True) .kernel c.model c.model := h.agree_model hkernel
  have hresult := agree_result h.toPrepared prepared' only hkernel LibraryId.kernel_ne_project
    contents hmodel.sameSkeletons (h.alike r).units
    (fun _ _ _ _ => trivial) (fun _ _ _ _ _ _ _ _ => trivial) initial.options
  rw [r.library_kernel, ← h.libraries] at hresult
  obtain ⟨hagree, hunits⟩ := hresult
  refine ⟨fun library hhome => ?_, _, h.foreign, hunits⟩
  -- Linking the kernel leaves the project alone; the kernel itself is the compilation's result.
  rcases hhome with rfl | rfl
  · have unchanged : LibrarySet.SameContents (· = .project) c.model initial.libraries := by
      rw [h.libraries]
      exact arranged.sameContents_finish h.units LibraryId.kernel_ne_project initial.options
    have hproject := unchanged .project rfl
    exact (h.agree_model (.inl rfl)).congr hproject (by rwa [r.library_project])
  · exact hagree

end Compilation.Starts

/-! ## Imports -/

namespace Session

open Compilation (Explains)

/-- The libraries that a library can name in a session, and the names that mean these libraries or
none. -/
def reach (origin session : Session) (name : String) : Area where
  near library := library.IsHome ∨ ∃ other, LeadsTo origin.manifest origin.sources name other ∧
    session.libraries.named? other = some library
  known other := (origin.libraries.named? other).isSome ∨
    LeadsTo origin.manifest origin.sources name other ∨
    ¬ Importable origin.manifest origin.sources other

/-- The project, the kernel and the libraries that a library leads to agree in two sessions, as do
the documents of the latter. -/
structure AgreeOn (r : Renumbering) (origin session session' : Session) (name : String)
    (library : LibraryId) : Prop where
  libraries : LibrarySet.Agree r (origin.reach session name).near library session.libraries
    session'.libraries
  documents : ∃ units units', session.foreign.at? library = some units ∧
    session'.foreign.at? (r.library library) = some units' ∧
    List.Forall₂ (SourceUnit.Matches r) units units'

lemma near_reach_of_leadsTo {origin session : Session} {name other : String}
    (h : LeadsTo origin.manifest origin.sources name other) {library : LibraryId}
    (hnear : (origin.reach session other).near library) :
      (origin.reach session name).near library :=
  hnear.imp_right fun ⟨far, hleads, hfar⟩ => ⟨far, h.trans hleads, hfar⟩

/-- Two sessions that have loaded the same libraries since one session, under identities that
correspond. -/
structure Twins (r : Renumbering) (origin session session' : Session) : Prop where
  loading : Loading origin [] [] session
  loading' : Loading origin [] [] session'
  names : ∀ name, session'.libraries.named? name = (session.libraries.named? name).map r.library
  only : r.OnlyLibraries
  home : ∀ library : LibraryId, library.IsHome →
    LibrarySet.Agree r LibraryId.IsHome library origin.libraries origin.libraries

section

variable {r : Renumbering} {origin session session' : Session}
  (twins : Twins r origin session session')
  (bare : origin.Bare) {c c' : Compilation} {name : String} {library : LibraryId}
  (h : c.Explains origin session name library)
  (h' : c'.Explains origin session' name (r.library library))

include h h'

/-- A library is tidied alike in two sessions. -/
lemma alike_of_explains : c.batch.Alike r library c'.batch := by
  obtain ⟨set, pool, hnew, -, htidied⟩ := h.tidied
  obtain ⟨set', pool', hnew', -, htidied'⟩ := h'.tidied
  have hstart : Batch.Alike r library ⟨set, pool, []⟩ ⟨set', pool', []⟩ := by
    refine ⟨.nil, ?_⟩
    rw [hnew, hnew']
    rfl
  have hrelated := (Batch.alike_tidyAll h.ne_project c.trees hstart).state
  rwa [htidied, Option.some.inj (h.sources.symm.trans h'.sources), htidied'] at hrelated

include twins bare

/-- What names of the area mean in the two models in which a library was linked. -/
lemma Twins.named_model {other : String} (hknown : (origin.reach session name).known other) :
    (∀ id, c.model.named? other = some id → (origin.reach session name).near id) ∧
      c'.model.named? other = (c.model.named? other).map r.library := by
  have hfrom (id : LibraryId) (horigin : origin.libraries.named? other = some id) :
      (∀ id, c.model.named? other = some id → (origin.reach session name).near id) ∧
        c'.model.named? other = (c.model.named? other).map r.library := by
    have hhome : id.IsHome := bare.cases horigin
    rw [h.origin_named other id horigin, h'.origin_named other id horigin, Option.map_some,
      hhome.library_eq r]
    exact ⟨fun _ heq => Option.some.inj heq ▸ .inl hhome, rfl⟩
  cases horigin : origin.libraries.named? other with
  | some id => exact hfrom id horigin
  | none =>
    rcases hknown with hsome | hleads | hother
    · rw [horigin] at hsome
      cases hsome
    · obtain ⟨id, hid⟩ := Option.isSome_iff_exists.1 (h.closed other hleads)
      obtain ⟨id', hid'⟩ := Option.isSome_iff_exists.1 (h'.closed other hleads)
      have hsession := h.named other id hid
      have hsession' := h'.named other id' hid'
      rw [twins.names, hsession] at hsession'
      rw [hid, hid']
      exact ⟨fun _ heq => Option.some.inj heq ▸ .inr ⟨other, hleads, hsession⟩, hsession'.symm⟩
    · -- Nothing else has a name in either session.
      have hnone {session : Session} {c : Compilation} {library : LibraryId}
          (loading : Loading origin [] [] session) (h : c.Explains origin session name library) :
          c.model.named? other = none := by
        refine Option.eq_none_iff_forall_ne_some.2 fun id hid => ?_
        rcases loading.importable (h.named other id hid) with hnamed | ⟨himportable, -⟩
        · rw [horigin] at hnamed
          cases hnamed
        · exact hother himportable
      rw [hnone twins.loading h, hnone twins.loading' h']
      exact ⟨nofun, rfl⟩

/-- The libraries that a library leads to agree in the two models in which it was linked, if they do
in the two sessions. -/
lemma Twins.agree_model
    (below : ∀ other id, LeadsTo origin.manifest origin.sources name other → other ≠ name →
      session.libraries.named? other = some id → AgreeOn r origin session session' other id)
    {id : LibraryId} (hnear : (origin.reach session name).near id) :
    LibrarySet.Agree r (origin.reach session name).near id c.model c'.model := by
  rcases hnear with hhome | ⟨other, hleads, hother⟩
  · refine ((twins.home id hhome).congr (h.origin_contents id hhome) ?_).mono fun _ => .inl
    rw [hhome.library_eq r]
    exact h'.origin_contents id hhome
  · obtain ⟨id₀, hmodel⟩ := Option.isSome_iff_exists.1 (h.closed other hleads)
    obtain rfl : id₀ = id := Option.some.inj ((h.named other id₀ hmodel).symm.trans hother)
    have hmodel' := (twins.named_model bare h h' (.inr (.inl hleads))).2
    rw [hmodel, Option.map_some] at hmodel'
    by_cases hne : other = name
    · subst hne
      obtain rfl : id₀ = library := Option.some.inj (hmodel.symm.trans h.meaning)
      obtain ⟨_, _, hnew, grows, -⟩ := h.tidied
      exact (LibrarySet.agree_of_grows hnew grows (alike_of_explains h h').loaded).congr
        h.own h'.own
    · exact ((below other id₀ hleads hne hother).libraries.congr
        (h.settled other id₀ hleads hne hmodel).symm
        (h'.settled other (r.library id₀) hleads hne hmodel').symm).mono
        fun _ => near_reach_of_leadsTo hleads

/-- Two sessions agree on a library if they agree on all that it leads to. -/
lemma Twins.agreeOn (imported : TypesImported origin.manifest origin.sources name)
    (below : ∀ other id, LeadsTo origin.manifest origin.sources name other → other ≠ name →
      session.libraries.named? other = some id → AgreeOn r origin session session' other id) :
    AgreeOn r origin session session' name library := by
  have hnear : (origin.reach session name).near library :=
    .inr ⟨name, .refl, h.named name library h.meaning⟩
  have agree {id : LibraryId} := @Twins.agree_model r origin session session' twins bare c c' name
    library h h' below id
  obtain ⟨others, arranged⟩ := h.arranged
  obtain ⟨others', arranged'⟩ := h'.arranged
  have contents : Linkage.Contents r (origin.reach session name) c.model c'.model :=
    LibrarySet.contents_of_agree twins.only arranged.orderly.identified arranged'.orderly.identified
      (.inl (.inr rfl)) (fun _ hknown => (twins.named_model bare h h' hknown).1)
      (fun _ hknown => (twins.named_model bare h h' hknown).2) fun _ => agree
  have htree : ∀ unit ∈ c.batch.units, unit.tree ∈ c.trees := fun unit hunit => by
    obtain ⟨set, pool, -, -, htidied⟩ := h.tidied
    have htrees := trees_tidyAll htidied
    rw [List.map_nil, List.nil_append] at htrees
    exact htrees ▸ List.mem_map_of_mem hunit
  -- A name that cannot be imported is unknown on both sides; one that can is in reach, by import
  -- directly and by type through the hypothesis.
  have himports : ∀ unit ∈ c.batch.units, ∀ other ∈ unit.tree.root.importRoots,
      (origin.reach session name).known other := fun unit hunit other hother => by
    by_cases himportable : Importable origin.manifest origin.sources other
    · exact .inr (.inl (.single ⟨himportable, c.trees, h.sources, unit.tree, htree
        unit hunit, hother⟩))
    · exact .inr (.inr himportable)
  have htypes : ∀ unit ∈ c.batch.units, ∀ ty ∈ unit.tree.types,
      (origin.reach session name).Covers ty.path :=
        fun unit hunit ty hty first rest hpath hrest => by
    by_cases himportable : Importable origin.manifest origin.sources first.name
    · exact .inr (.inl (imported c.trees h.sources unit.tree (htree unit hunit) ty hty first rest
        hpath hrest himportable))
    · exact .inr (.inr himportable)
  obtain ⟨hagree, hunits⟩ := Compilation.agree_result h.prepared h'.prepared twins.only hnear
    h.ne_project contents (agree hnear).sameSkeletons (alike_of_explains h h').units himports htypes
    origin.options
  exact ⟨hagree.congr h.contents h'.contents, _, _, h.foreign, h'.foreign, hunits⟩

end

variable {r : Renumbering} {origin session session' : Session}

/-- Two sessions agree on all imports that are self-contained. -/
lemma Twins.agreeOn_imports (twins : Twins r origin session session') (bare : origin.Bare)
    {name : String} (importable : Importable origin.manifest origin.sources name)
    (self : SelfContained origin.manifest origin.sources name) :
    ∀ library, session.libraries.named? name = some library →
      AgreeOn r origin session session' name library := by
  refine SelfContained.induction (P := fun name => ∀ library,
    session.libraries.named? name = some library → AgreeOn r origin session session' name library)
    (fun name importable self ih library hname => ?_) importable self
  have hnone := Loading.not_named_of_importable bare importable
  have hexplained {session : Session} (loading : Loading origin [] [] session) {library : LibraryId}
      (hname : session.libraries.named? name = some library) :
      ∃ c : Compilation, c.Explains origin session name library := by
    rcases loading.explained hname with horigin | hopened | hexplained
    · rw [hnone] at horigin
      cases horigin
    · cases hopened
    · exact (hexplained self.untangled).1
  obtain ⟨c, h⟩ := hexplained twins.loading hname
  obtain ⟨c', h'⟩ := @hexplained _ twins.loading' (r.library library)
    (by rw [twins.names, hname, Option.map_some])
  exact twins.agreeOn bare h h' (self.types name .refl) fun other id hleads hne =>
    ih other hleads hne id

/-! ## The identities of two sessions -/

/-- The identity that a name means. -/
def identityOf (session : Session) (name : String) : LibraryId :=
  (session.libraries.named? name).getD .project

/-- Imports have identities of their own. -/
lemma Loading.nodup_identities (loading : Loading origin [] [] session) {names : List String}
    (hnodup : names.Nodup) (hnames : ∀ name ∈ names, origin.libraries.named? name = none ∧
      (session.libraries.named? name).isSome) :
    (LibraryId.project :: .kernel :: names.map session.identityOf).Nodup := by
  have himport : ∀ name ∈ names, ∃ library, session.libraries.named? name = some library ∧
      session.identityOf name = library ∧ library ≠ .project ∧ library ≠ .kernel := by
    intro name hname
    obtain ⟨horigin, hsome⟩ := hnames name hname
    obtain ⟨library, hlibrary⟩ := Option.isSome_iff_exists.1 hsome
    refine ⟨library, hlibrary, by rw [identityOf, hlibrary, Option.getD_some], ?_⟩
    rcases loading.importable hlibrary with hold | ⟨-, himport⟩
    · rw [horigin] at hold
      cases hold
    · exact himport
  have hidentities : (names.map session.identityOf).Nodup := by
    refine hnodup.map_on fun name hname other hother heq => ?_
    obtain ⟨library, hlibrary, rfl, hproject, hkernel⟩ := himport name hname
    obtain ⟨library', hlibrary', rfl, -, -⟩ := himport other hother
    exact loading.wellNamed.injective hproject hkernel hlibrary (heq ▸ hlibrary')
  refine List.nodup_cons.2 ⟨fun hmem => ?_, List.nodup_cons.2 ⟨fun hmem => ?_, hidentities⟩⟩
  · rcases List.mem_cons.1 hmem with heq | hmem
    · cases heq
    · obtain ⟨name, hname, heq⟩ := List.mem_map.1 hmem
      obtain ⟨_, -, hlibrary, hproject, -⟩ := himport name hname
      exact hproject (hlibrary ▸ heq)
  · obtain ⟨name, hname, heq⟩ := List.mem_map.1 hmem
    obtain ⟨_, -, hlibrary, -, hkernel⟩ := himport name hname
    exact hkernel (hlibrary ▸ heq)

/-- Sessions that have loaded the same libraries give them identities that correspond. -/
lemma Loading.exists_renumbering (loading : Loading origin [] [] session)
    (loading' : Loading origin [] [] session') (bare : origin.Bare)
    (hsame : ∀ name, (session.libraries.named? name).isSome =
      (session'.libraries.named? name).isSome) :
    ∃ r : Renumbering, r.OnlyLibraries ∧
      ∀ name, session'.libraries.named? name = (session.libraries.named? name).map r.library := by
  let names := origin.manifest.libraries.dedup.filter fun name =>
    (origin.libraries.named? name).isNone && (session.libraries.named? name).isSome
  have hnames : ∀ name ∈ names, origin.libraries.named? name = none ∧
      (session.libraries.named? name).isSome := fun name hname => by
    simpa using (List.mem_filter.1 hname).2
  have hnodup : names.Nodup := (List.nodup_dedup _).filter _
  -- Two lists of distinct identities of one length are a permutation apart.
  obtain ⟨σ, hσ⟩ := exists_perm_map_eq (by simp) (loading.nodup_identities hnodup hnames)
    (loading'.nodup_identities hnodup fun name hname => by rw [← hsame]; exact hnames name hname)
  obtain ⟨hproject, hσ⟩ := List.cons.inj hσ
  obtain ⟨hkernel, hσ⟩ := List.cons.inj hσ
  rw [List.map_map] at hσ
  let r : Renumbering := ⟨fun _ => Equiv.refl Nat, Equiv.refl SpaceId, σ, hproject, hkernel⟩
  refine ⟨r, ⟨fun _ => rfl, rfl⟩, fun name => ?_⟩
  cases horigin : origin.libraries.named? name with
  | some library =>
    rw [loading.since.named name library horigin, loading'.since.named name library horigin,
      Option.map_some, LibraryId.IsHome.library_eq (bare.cases horigin) r]
  | none =>
    cases hname : session.libraries.named? name with
    | none =>
      have hnone := hsame name
      rw [hname, Option.isSome_none, eq_comm, Option.isSome_eq_false_iff,
        Option.isNone_iff_eq_none] at hnone
      rw [hnone, Option.map_none]
    | some library =>
      have hdeclared : origin.manifest.declares name = true := by
        rcases loading.importable hname with hold | ⟨himportable, -⟩
        · rw [horigin] at hold
          cases hold
        · exact himportable.declared
      have hmem : name ∈ names := by
        refine List.mem_filter.2 ⟨List.mem_dedup.2 (of_decide_eq_true hdeclared), ?_⟩
        simp [horigin, hname]
      obtain ⟨library', hname'⟩ := Option.isSome_iff_exists.1
        (by rw [← hsame, hname]; rfl : (session'.libraries.named? name).isSome)
      have heq := List.map_inj_left.1 hσ name hmem
      rw [Function.comp_apply, identityOf, identityOf, hname, hname'] at heq
      rw [hname', Option.map_some]
      exact congrArg some heq.symm

/-! ## Runs that load the same libraries -/

/-- A library of the second session is the one of the first session under the new identities: the
same records in the same slots, with the same types, members, bases and relations, and the same
documents, with the same marks of reports. -/
structure SameLibrary (r : Renumbering) (session session' : Session)
    (library : LibraryId) : Prop where
  records : ∃ lib lib', session.libraries.get? library = some lib ∧
    session'.libraries.get? (r.library library) = some lib' ∧ lib.Matches r lib'
  documents : ∃ units units', session.foreign.at? library = some units ∧
    session'.foreign.at? (r.library library) = some units' ∧
    List.Forall₂ (SourceUnit.Matches r) units units'

/-- The sessions have loaded the same libraries, and those with certain names are the same. -/
structure SameLibraries (r : Renumbering) (among : String → Prop)
    (session session' : Session) : Prop where
  names : ∀ name, session'.libraries.named? name = (session.libraries.named? name).map r.library
  same : ∀ name library, session.libraries.named? name = some library → library ≠ .project →
    among name → SameLibrary r session session' library

lemma Twins.sameLibraries (twins : Twins r origin session session') (bare : origin.Bare)
    (kernel : ∃ units, origin.foreign.at? .kernel = some units ∧
      List.Forall₂ (SourceUnit.Matches r) units units) :
    SameLibraries r (fun name => name = origin.manifest.kernel ∨
      SelfContained origin.manifest origin.sources name) session session' := by
  have hkept {session : Session} (loading : Loading origin [] [] session) :
      session.libraries.contents? .kernel = origin.libraries.contents? .kernel :=
    loading.since.contents .kernel ⟨_, rfl⟩
  refine ⟨twins.names, fun name library hname hproject hamong => ?_⟩
  obtain ⟨lib, hlib⟩ := twins.loading.wellNamed.loaded hname
  suffices h : Option.Rel (Library.Matches r) (session.libraries.get? library)
        (session'.libraries.get? (r.library library)) ∧
      ∃ units units', session.foreign.at? library = some units ∧
        session'.foreign.at? (r.library library) = some units' ∧
        List.Forall₂ (SourceUnit.Matches r) units units' by
    obtain ⟨hlibraries, hdocuments⟩ := h
    obtain ⟨hnone, -⟩ | ⟨_, lib', heq, hlib', matching⟩ := rel_cases hlibraries
    · rw [hnone] at hlib
      cases hlib
    · exact ⟨⟨_, lib', heq, hlib', matching⟩, hdocuments⟩
  -- The kernel was there before the loads; everything else is an import.
  rcases twins.loading.importable hname with horigin | ⟨importable, -⟩
  · obtain rfl : library = .kernel := (bare.cases horigin).resolve_left hproject
    obtain ⟨units, hunits, hdocuments⟩ := kernel
    refine ⟨((twins.home .kernel (.inr rfl)).congr (hkept twins.loading) ?_).libraries, units,
      units, twins.loading.since.foreign_at .kernel units hunits, ?_, hdocuments⟩
    · rw [r.library_kernel]
      exact hkept twins.loading'
    · rw [r.library_kernel]
      exact twins.loading'.since.foreign_at .kernel units hunits
  · have self := hamong.resolve_left importable.ne_kernel
    have agree := twins.agreeOn_imports bare importable self library hname
    exact ⟨agree.libraries.libraries, agree.documents⟩

/-- Two orders of loads that load the same libraries differ only in the identities of imports, as
far as these are self-contained: their directives do not lead into a circle, and no dotted type that
is met on the way begins with a library to which they do not lead. -/
theorem loads_agree (manifest : Manifest) (sources : Sources) :
    ∃ initial, start manifest sources = .ok initial ∧ ∀ names names' : List String,
      (∀ name, ((initial.run (names.map .load)).libraries.named? name).isSome
        = ((initial.run (names'.map .load)).libraries.named? name).isSome) →
      ∃ r : Renumbering, r.OnlyLibraries ∧
        SameLibraries r (fun name => name = manifest.kernel ∨ SelfContained manifest sources name)
          (initial.run (names.map .load)) (initial.run (names'.map .load)) := by
  obtain ⟨initial, hstart, rfl, rfl, bare, hloading⟩ := loading_start manifest sources
  obtain ⟨c, starts⟩ := exists_starts hstart
  refine ⟨initial, hstart, fun names names' hsame => ?_⟩
  obtain ⟨r, only, hnames⟩ := (hloading names).exists_renumbering (hloading names') bare hsame
  obtain ⟨home, hkernel⟩ := starts.agree_initial only
  exact ⟨r, only, Twins.sameLibraries ⟨hloading names, hloading names', hnames, only, home⟩
    bare hkernel⟩

/-! ## Where the order matters

The class `Q` of the library `heir` implements the interface `P` of the library `base`, but has no
function for that of `P`.  If `base` imports `heir` as well, this is noticed only if `heir` is
loaded first, as otherwise `heir` is checked while `P` has no functions yet.

The variable `X` of the library `left` has a type of the library `right`, which `left` does not
import. -/

def heirManifest : Manifest := { name := "app", libraries := ["base", "heir"] }

/-- The sources of an interface and its heir.  The library of the interface has some imports. -/
def heirSources (imports : List String) : Sources :=
  { libraries := [("kernel", []),
      ("base", [classTree "base.rk" imports
        [.interface ⟨.pub, wordAt 1 "P", [], [⟨.pub, wordAt 2 "F", [], []⟩]⟩]]),
      ("heir", [classTree "heir.rk" ["base"] [classAt 1 "Q" ["P"] []]])] }

def strayManifest : Manifest := { name := "app", libraries := ["left", "right"] }

def straySources : Sources :=
  { libraries := [("kernel", []),
      ("left", [classTree "left.rk" []
        [.variable ⟨.pub, false, wordAt 1 "X",
          .ofPath [wordAt 2 "right", ⟨"T", .onLine 2 6 1⟩] 0⟩]]),
      ("right", [classTree "right.rk" [] [classAt 1 "T" [] []]])] }

/-- The names that a session knows after some loads, and what a phase reports of a library. -/
def loadReport (initial : Session) (names : List String) (library : LibraryId) (phase : Phase) :
    Assoc String LibraryId × Option (List (List (Range × Severity × DiagnosticCode))) :=
  let session := initial.run (names.map .load)
  (session.libraries.names,
    (session.foreign.at? library).map (List.map fun unit => unit.diagnostics.marks phase))

/-- The names after two libraries have been loaded. -/
def pairNames (first second : String) : Assoc String LibraryId :=
  [("app", .project), ("kernel", .kernel), (first, .ofSlot 0), (second, .ofSlot 1)]

lemma isSome_pairNames (first second name : String) :
    ((pairNames first second).at? name).isSome = ((pairNames second first).at? name).isSome := by
  simp only [pairNames, Assoc.at?]
  split_ifs <;> rfl

set_option maxRecDepth 20000 in
lemma loadReport_circle :
    (start heirManifest (heirSources ["heir"])).toOption.map (fun initial =>
      (loadReport initial ["base", "heir"] (.ofSlot 1) .check,
        loadReport initial ["heir", "base"] (.ofSlot 0) .check))
      = some ((pairNames "base" "heir", some [[]]),
        (pairNames "heir" "base", some [[(.onLine 1 0 1, .error, .notImplemented)]])) := by
  cbv

set_option maxRecDepth 20000 in
lemma loadReport_stray :
    (start strayManifest straySources).toOption.map (fun initial =>
      (loadReport initial ["left", "right"] (.ofSlot 0) .link,
        loadReport initial ["right", "left"] (.ofSlot 1) .link))
      = some ((pairNames "left" "right", some [[(.onLine 2 0 1, .error, .notFound)]]),
        (pairNames "right" "left", some [[]])) := by
  cbv

/-- The two orders load the same libraries, and these differ whatever the new identities are. -/
def OrderMatters (manifest : Manifest) (sources : Sources) (names names' : List String) : Prop :=
  ∃ initial, start manifest sources = .ok initial ∧
    let session := initial.run (names.map .load)
    let session' := initial.run (names'.map .load)
    (∀ name, (session.libraries.named? name).isSome = (session'.libraries.named? name).isSome) ∧
      ¬ ∃ r : Renumbering, SameLibraries r (fun _ => True) session session'

/-- Two libraries differ if their reports do. -/
lemma orderMatters_of_reports {manifest : Manifest} {sources : Sources} {first second : String}
    (name : String) {library library' : LibraryId} {phase : Phase}
    {marks marks' : List (List (Range × Severity × DiagnosticCode))}
    (h : (start manifest sources).toOption.map (fun initial =>
        (loadReport initial [first, second] library phase,
          loadReport initial [second, first] library' phase))
      = some ((pairNames first second, some marks), (pairNames second first, some marks')))
    (hname : (pairNames first second).at? name = some library)
    (hname' : (pairNames second first).at? name = some library')
    (hproject : library ≠ .project) (hmarks : marks ≠ marks') :
    OrderMatters manifest sources [first, second] [second, first] := by
  obtain ⟨initial, hstart, -⟩ := arranged_run manifest sources
  rw [hstart] at h
  obtain ⟨hreport, hreport'⟩ := Prod.mk.inj (Option.some.inj h)
  obtain ⟨hnames, hunits⟩ := Prod.mk.inj hreport
  obtain ⟨hnames', hunits'⟩ := Prod.mk.inj hreport'
  refine ⟨initial, hstart, fun other => ?_, fun ⟨r, sameLibraries⟩ => ?_⟩
  · rw [LibrarySet.named?, LibrarySet.named?, hnames, hnames', isSome_pairNames]
  · have hnamed : (initial.run ([first, second].map .load)).libraries.named? name
        = some library := by
      rw [LibrarySet.named?, hnames, hname]
    have hlibrary := sameLibraries.names name
    rw [hnamed, LibrarySet.named?, hnames', hname'] at hlibrary
    -- A renumbering keeps names, so it would have to match the two documents whose reports differ.
    obtain rfl : library' = r.library library := Option.some.inj hlibrary
    obtain ⟨units, units', hforeign, hforeign', hmatches⟩ :=
      (sameLibraries.same name library hnamed hproject trivial).documents
    rw [hforeign, Option.map_some, Option.some.injEq] at hunits
    rw [hforeign', Option.map_some, Option.some.injEq] at hunits'
    refine hmarks (hunits.symm.trans (Eq.trans ?_ hunits'))
    exact (map_eq_of_forall₂ hmatches fun unit unit' matching => by rw [matching.marks]).symm

/-- The order matters in circles, and for types of libraries that are not imported. -/
theorem loads_differ :
    OrderMatters heirManifest (heirSources ["heir"]) ["base", "heir"] ["heir", "base"] ∧
      OrderMatters strayManifest straySources ["left", "right"] ["right", "left"] :=
  ⟨orderMatters_of_reports "heir" loadReport_circle rfl rfl (by decide) (by decide),
    orderMatters_of_reports "left" loadReport_stray rfl rfl (by decide) (by decide)⟩


/-- The only import is that of `base` by `heir`. -/
lemma uses_heirSources {name other : String} (h : Uses heirManifest (heirSources []) name other) :
    name = "heir" ∧ other = "base" := by
  obtain ⟨trees, htrees, tree, htree, hother⟩ := h.directive
  simp only [heirSources, Sources.library?, Assoc.at?] at htrees
  split_ifs at htrees with hkernel hbase hheir
  all_goals obtain rfl := Option.some.inj htrees
  · cases htree
  · obtain rfl := List.mem_singleton.1 htree
    cases hother
  · obtain rfl := List.mem_singleton.1 htree
    exact ⟨hheir.symm, List.mem_singleton.1 hother⟩

lemma leadsTo_heirSources {name other : String}
    (h : LeadsTo heirManifest (heirSources []) name other) :
    name = other ∨ name = "heir" ∧ other = "base" := by
  induction h with
  | refl => exact .inl rfl
  | tail _ huse ih =>
    obtain ⟨rfl, rfl⟩ := uses_heirSources huse
    rcases ih with rfl | ⟨-, heq⟩
    · exact .inr ⟨rfl, rfl⟩
    · exact absurd heq (by decide)

lemma selfContained_heirSources (name : String) :
    SelfContained heirManifest (heirSources []) name where
  untangled _ _ _ h h' := by
    rcases leadsTo_heirSources h with heq | ⟨rfl, rfl⟩
    · exact heq
    · rcases leadsTo_heirSources h' with heq | ⟨heq, -⟩ <;> exact absurd heq (by decide)
  types _ _ := by
    intro trees htrees tree htree ty hty first rest hpath hrest _
    simp only [heirSources, Sources.library?, Assoc.at?] at htrees
    split_ifs at htrees
    all_goals obtain rfl := Option.some.inj htrees
    · cases htree
    · obtain rfl := List.mem_singleton.1 htree
      cases hty
    · obtain rfl := List.mem_singleton.1 htree
      obtain rfl := List.mem_singleton.1 hty
      obtain ⟨-, rfl⟩ := List.cons.inj hpath
      exact absurd rfl hrest

set_option maxRecDepth 20000 in
lemma loadReport_chain :
    (start heirManifest (heirSources [])).toOption.map (fun initial =>
      (loadReport initial ["base", "heir"] (.ofSlot 1) .check,
        loadReport initial ["heir", "base"] (.ofSlot 0) .check))
      = some ((pairNames "base" "heir", some [[(.onLine 1 0 1, .error, .notImplemented)]]),
        (pairNames "heir" "base", some [[(.onLine 1 0 1, .error, .notImplemented)]])) := by
  cbv

/-- In either order it is noticed that `Q` does not implement `P`, if `base` does not import
`heir`. -/
theorem loads_agree_chain :
    ∃ initial, start heirManifest (heirSources []) = .ok initial ∧
      ∃ r : Renumbering, r.OnlyLibraries ∧ r.library (.ofSlot 0) = .ofSlot 1 ∧
        SameLibraries r (fun _ => True) (initial.run (["base", "heir"].map .load))
          (initial.run (["heir", "base"].map .load)) := by
  obtain ⟨initial, hstart, h⟩ := loads_agree heirManifest (heirSources [])
  have hreport := loadReport_chain
  rw [hstart] at hreport
  obtain ⟨hreport, hreport'⟩ := Prod.mk.inj (Option.some.inj hreport)
  obtain ⟨hnames, -⟩ := Prod.mk.inj hreport
  obtain ⟨hnames', -⟩ := Prod.mk.inj hreport'
  obtain ⟨r, only, same⟩ := h ["base", "heir"] ["heir", "base"] fun name => by
    rw [LibrarySet.named?, LibrarySet.named?, hnames, hnames', isSome_pairNames]
  have hlibrary := same.names "base"
  rw [LibrarySet.named?, LibrarySet.named?, hnames, hnames'] at hlibrary
  exact ⟨initial, hstart, r, only, (Option.some.inj hlibrary).symm, same.names,
    fun name library hname hproject _ => same.same name library hname hproject
      (.inr (selfContained_heirSources name))⟩

end Session

end SymbolGraph
