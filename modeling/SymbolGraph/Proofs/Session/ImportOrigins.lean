import Mathlib.Logic.Relation
import SymbolGraph.Proofs.Model.LibraryContents
import SymbolGraph.Proofs.Session.ImportedOnce

/-!
# How imports come about

An import is tidied, then the libraries that it names are loaded, then it is linked and checked in
the model that there is by then.  Where libraries name each other in circles, some of those that it
names are only tidied at that time.

If an import leads into no such circle (`Untangled`), every library that it leads to is linked and
checked before the import itself, and its contents never change again.  So its contents are
explained by its own documents and by the contents of the libraries that it leads to
(`Compilation.Explains`), in whatever order the libraries are loaded (`Session.loading_start`), and
whatever circles there are among others.
-/

namespace SymbolGraph

open LibrarySet (SameContents)

/-! ## What libraries lead to -/

/-- A declared import that has sources, and whose name is that of neither the project nor the
kernel. -/
structure Importable (manifest : Manifest) (sources : Sources) (name : String) : Prop where
  declared : manifest.declares name = true
  ne_project : name ≠ manifest.name
  ne_kernel : name ≠ manifest.kernel
  available : (sources.library? name).isSome

/-- A document of the first library imports the second one, which can be loaded. -/
structure Uses (manifest : Manifest) (sources : Sources) (name other : String) : Prop where
  importable : Importable manifest sources other
  directive : ∃ trees, sources.library? name = some trees ∧
    ∃ tree ∈ trees, other ∈ tree.root.importRoots

/-- Import directives lead from the first library to the second one. -/
def LeadsTo (manifest : Manifest) (sources : Sources) : String → String → Prop :=
  Relation.ReflTransGen (Uses manifest sources)

/-- The library leads into no circle: no two libraries that it leads to lead to each other. -/
def Untangled (manifest : Manifest) (sources : Sources) (name : String) : Prop :=
  ∀ ⦃first second⦄, LeadsTo manifest sources name first → LeadsTo manifest sources first second →
    LeadsTo manifest sources second first → first = second

lemma Untangled.of_leadsTo {manifest : Manifest} {sources : Sources} {name other : String}
    (untangled : Untangled manifest sources name) (h : LeadsTo manifest sources name other) :
    Untangled manifest sources other := fun _ _ hfirst => untangled (h.trans hfirst)

/-! ## Registered names -/

/-- Every name is that of the project, of the kernel, or of the import that it means. -/
def Registry.Faithful (registry : Registry) : Prop :=
  ∀ name id, registry.names.at? name = some id →
    id = .project ∨ id = .kernel ∨ (id, name) ∈ registry.imports

lemma Registry.Faithful.add {registry : Registry} (faithful : registry.Faithful) (name : String) :
    (registry.add name).Faithful := by
  intro other id h
  rw [Registry.add, Assoc.at?_put] at h
  split at h
  · next heq =>
    obtain rfl := Option.some.inj h
    exact .inr (.inr (heq ▸ List.mem_append_right _ (List.mem_singleton.2 rfl)))
  · exact (faithful other id h).imp_right (Or.imp_right (List.mem_append_left _))

namespace LibrarySet

/-- The names of imports are in order. -/
structure WellNamed (set : LibrarySet) : Prop where
  regular : set.registry.Regular
  faithful : set.registry.Faithful

variable {set : LibrarySet}

/-- A name is that of the project, of the kernel, or of the import that it means. -/
lemma WellNamed.cases (named : set.WellNamed) {name : String} {library : LibraryId}
    (h : set.named? name = some library) : library = .project ∨ library = .kernel ∨
      ∃ lib, set.get? library = some lib ∧ lib.name = name := by
  refine (named.faithful name library h).imp_right (Or.imp_right fun hmem => ?_)
  obtain ⟨i, hi⟩ := List.mem_iff_getElem?.1 hmem
  obtain rfl := named.regular.numbered i library name hi
  rw [registry, List.getElem?_map] at hi
  obtain ⟨lib, hlib, heq⟩ := Option.map_eq_some_iff.1 hi
  exact ⟨lib, by simp [get?, hlib], congrArg Prod.snd heq⟩

lemma WellNamed.loaded (named : set.WellNamed) {name : String} {library : LibraryId}
    (h : set.named? name = some library) : ∃ lib, set.get? library = some lib := by
  obtain rfl | rfl | ⟨lib, hlib, -⟩ := named.cases h
  · exact ⟨_, rfl⟩
  · exact ⟨_, rfl⟩
  · exact ⟨lib, hlib⟩

/-- Different imports have different names. -/
lemma WellNamed.injective (named : set.WellNamed) {name other : String} {library : LibraryId}
    (hproject : library ≠ .project) (hkernel : library ≠ .kernel)
    (h : set.named? name = some library) (k : set.named? other = some library) : name = other := by
  obtain rfl | rfl | ⟨lib, hlib, rfl⟩ := named.cases h
  · exact absurd rfl hproject
  · exact absurd rfl hkernel
  · obtain rfl | rfl | ⟨lib', hlib', rfl⟩ := named.cases k
    · exact absurd rfl hproject
    · exact absurd rfl hkernel
    · rw [Option.some.inj (hlib.symm.trans hlib')]

end LibrarySet

namespace Session

/-! ## What later loads leave alone -/

/-- What loads leave alone, with the contents of the libraries that are there already. -/
structure Extends (before after : Session) : Prop extends Loaded before after where
  contents : SameContents (fun library => ∃ lib, before.libraries.get? library = some lib)
    before.libraries after.libraries
  named : ∀ name library, before.libraries.named? name = some library →
    after.libraries.named? name = some library

lemma Extends.trans {a b c : Session} (h : Extends a b) (k : Extends b c) : Extends a c where
  toLoaded := h.toLoaded.trans k.toLoaded
  contents library hold := by
    obtain ⟨lib, hlib⟩ := hold
    exact (k.contents library (h.keeps library lib hlib)).trans (h.contents library ⟨lib, hlib⟩)
  named name library hname := k.named name library (h.named name library hname)

/-- Well-formed libraries and documents, some of which belong to loads that are still going on. -/
abbrev Arranged (extra : List SourceUnit) (session : Session) : Prop :=
  session.Keeps (fun set pool units => set.Arranged units ∧ pool.Matches set.project []) extra

variable {session : Session} {extra : List SourceUnit}

/-- Well-formed libraries have the contents that they have. -/
lemma Arranged.since (arranged : session.Arranged extra) : session.Keeps (fun set pool units =>
    (set.Arranged units ∧ pool.Matches set.project []) ∧
      SameContents (fun library => ∃ lib, session.libraries.get? library = some lib)
        session.libraries set) extra :=
  ⟨⟨arranged.holds, .refl _⟩, arranged.foreign_library, arranged.foreign_loaded⟩

/-- Names keep their meanings when others are registered. -/
lemma named?_of_charter {after : Session} {log : List String}
    (h : after.charter = (session.manifest, log.foldl Registry.add session.libraries.registry))
    (hlog : ∀ name ∈ log, session.wants name = true) {name : String} {library : LibraryId}
    (hname : session.libraries.named? name = some library) :
    after.libraries.named? name = some library := by
  have hnew : name ∉ log := fun hmem => by
    have hnone := Option.isNone_iff_eq_none.1 (Bool.and_eq_true_iff.1 (hlog name hmem)).2
    rw [hname] at hnone
    cases hnone
  have hkept := Registry.at?_foldl_add hnew session.libraries.registry
  rw [← (Prod.mk.inj h).2] at hkept
  exact hkept.trans hname

lemma Imports.named? {log : List String} {name : String} {outcome : Outcome Session}
    (h : Imports session name log outcome) (hwants : session.wants name = true) {other : String}
    {library : LibraryId} (hother : session.libraries.named? other = some library) :
    outcome.state.libraries.named? other = some library :=
  named?_of_charter h.charter_eq (h.fresh hwants).2 hother

lemma ImportsAll.named? {log names : List String} {after : Session}
    (h : ImportsAll session names log after) {other : String} {library : LibraryId}
    (hother : session.libraries.named? other = some library) :
    after.libraries.named? other = some library :=
  named?_of_charter h.charter_eq h.fresh.2 hother

/-- A load leaves well-formed libraries. -/
lemma Imports.extends {log : List String} {name : String} {outcome : Outcome Session}
    (h : Imports session name log outcome) (hwants : session.wants name = true)
    (arranged : session.Arranged extra) :
    outcome.state.Arranged extra ∧ Extends session outcome.state := by
  obtain ⟨_, hload⟩ := imports_load session.manifest.libraries.length name session hwants
    session.card_unmet_le
  obtain ⟨after, heq, keeps, loaded, -⟩ := arranged.since.load
    (loadInvariant_contents session.libraries) session.manifest.libraries.length name
  obtain ⟨-, rfl⟩ := h.unique hload
  rw [heq] at h ⊢
  exact ⟨⟨keeps.holds.1, keeps.foreign_library, keeps.foreign_loaded⟩, loaded, keeps.holds.2,
    fun _ _ hother => h.named? hwants hother⟩

lemma ImportsAll.extends {log names : List String} {after : Session}
    (h : ImportsAll session names log after) (arranged : session.Arranged extra) :
    after.Arranged extra ∧ Extends session after := by
  obtain ⟨_, hload⟩ := importsAll_loadImports session names
  obtain ⟨keeps, loaded⟩ := arranged.since.loadImports
    (loadInvariant_contents session.libraries) names
  obtain ⟨-, rfl⟩ := h.unique hload
  exact ⟨⟨keeps.holds.1, keeps.foreign_library, keeps.foreign_loaded⟩, loaded, keeps.holds.2,
    fun _ _ hother => h.named? hother⟩

/-- The documents of a new import, once they are tidied. -/
lemma Arranged.opened (arranged : session.Arranged extra) {name : String}
    (hwants : session.wants name = true) (trees : List FileTree) :
    ∃ batch, (session.registered name).tidiedBatch session.nextImport trees = ⟨batch, none⟩ ∧
      (∀ unit ∈ batch.units, unit.library = session.nextImport ∧ unit.skeleton = unit) ∧
      (session.registered name).libraries.Grows session.nextImport batch.libraries ∧
      ((session.registered name).opened session.nextImport trees).Arranged (batch.units ++ extra) ∧
      Extends session ((session.registered name).opened session.nextImport trees) := by
  have inv := loadInvariant_contents session.libraries
  obtain ⟨keeps, registered, -, hnew⟩ := arranged.since.register inv name
  obtain ⟨batch, hbatch, hunits, hgrows, keeps', tidied⟩ := keeps.tidied inv hnew
    ⟨_, by rw [LibrarySet.get?_addImport, if_pos rfl]⟩ trees
  have htidied : (session.registered name).tidiedBatch session.nextImport trees = ⟨batch, none⟩ :=
    hbatch
  have hopened : (session.registered name).opened session.nextImport trees
      = { session.registered name with libraries := batch.libraries, pool := batch.pool } := by
    rw [Session.opened, htidied]
  have hcharter : ((session.registered name).opened session.nextImport trees).charter
      = (session.manifest, [name].foldl Registry.add session.libraries.registry) := by
    rw [charter_opened, charter_registered]
    rfl
  refine ⟨batch, htidied, hunits, hgrows, ?_, ⟨?_, ?_, fun other library hother => ?_⟩⟩
  · rw [hopened]
    exact ⟨keeps'.holds.1, keeps'.foreign_library, keeps'.foreign_loaded⟩
  · rw [hopened]
    exact registered.trans tidied
  · rw [hopened]
    exact keeps'.holds.2
  · exact named?_of_charter hcharter (by simpa using hwants) hother

end Session

/-! ## Explanations -/

/-- How an import was compiled: the batch into which its documents were tidied, and the model in
which they were linked. -/
structure Compilation where
  trees : List FileTree
  batch : Batch
  model : LibrarySet

namespace Compilation

open Session (Extends)

/-- The model and the documents after the compilation. -/
def result (c : Compilation) (options : LinkOptions) (library : LibraryId) : Linkages :=
  Linkages.finish ⟨c.model, c.batch.units⟩ options library

/-- In a session that has loaded libraries since the session `origin` the import is what has been
compiled, and all that it leads to was there at the time and has not changed since. -/
structure Explains (c : Compilation) (origin session : Session) (name : String)
    (library : LibraryId) : Prop where
  sources : origin.sources.library? name = some c.trees
  ne_project : library ≠ .project
  ne_kernel : library ≠ .kernel
  tidied : ∃ set pool, set.get? library = some (.new library name) ∧
    set.Grows library c.batch.libraries ∧
    Outcome.forEach (Batch.tidy library) c.trees ⟨set, pool, []⟩ = ⟨c.batch, none⟩
  units : ∀ unit ∈ c.batch.units, unit.library = library ∧ unit.skeleton = unit
  arranged : ∃ others, c.model.Arranged (c.batch.units ++ others)
  own : c.model.contents? library = c.batch.libraries.contents? library
  origin_contents : SameContents (fun other => other = .project ∨ other = .kernel) origin.libraries
    c.model
  origin_named : ∀ other id, origin.libraries.named? other = some id →
    c.model.named? other = some id
  meaning : c.model.named? name = some library
  named : ∀ other id, c.model.named? other = some id → session.libraries.named? other = some id
  closed : ∀ other, LeadsTo origin.manifest origin.sources name other →
    (c.model.named? other).isSome
  settled : ∀ other id, LeadsTo origin.manifest origin.sources name other → other ≠ name →
    c.model.named? other = some id → session.libraries.contents? id = c.model.contents? id
  contents : session.libraries.contents? library
    = (c.result origin.options library).libraries.contents? library
  foreign : session.foreign.at? library = some (c.result origin.options library).units

variable {c : Compilation} {origin session after : Session} {name : String} {library : LibraryId}

/-- What is explained stays so as long as nothing changes that it leads to. -/
lemma Explains.congr (h : c.Explains origin session name library)
    (hnamed : ∀ other id, session.libraries.named? other = some id →
      after.libraries.named? other = some id)
    (hcontents : ∀ other id, LeadsTo origin.manifest origin.sources name other →
      session.libraries.named? other = some id →
      after.libraries.contents? id = session.libraries.contents? id)
    (hforeign : after.foreign.at? library = session.foreign.at? library) :
    c.Explains origin after name library :=
  { h with
    named := fun other id hother => hnamed other id (h.named other id hother)
    settled := fun other id hleads hne hother =>
      (hcontents other id hleads (h.named other id hother)).trans
      (h.settled other id hleads hne hother)
    contents := (hcontents name library .refl (h.named name library h.meaning)).trans h.contents
    foreign := hforeign.trans h.foreign }

lemma Explains.later (h : c.Explains origin session name library)
    (wellNamed : session.libraries.WellNamed) (k : Extends session after) :
    c.Explains origin after name library :=
  h.congr k.named (fun _ id _ hother => k.contents id (wellNamed.loaded hother))
    ((k.foreign_at library _ h.foreign).trans h.foreign.symm)

end Compilation

/-! ## Loads in progress -/

namespace Session

/-- What holds while imports are loaded one inside the other: those of `opened` have been tidied and
wait for what they name, and all others that lead into no circle are explained and lead to none of
them. -/
structure Loading (origin : Session) (opened : List (String × LibraryId)) (extra : List SourceUnit)
    (session : Session) : Prop where
  arranged : session.Arranged extra
  since : Extends origin session
  wellNamed : session.libraries.WellNamed
  importable : ∀ {name library}, session.libraries.named? name = some library →
    origin.libraries.named? name = some library ∨
      Importable origin.manifest origin.sources name ∧ library ≠ .project ∧ library ≠ .kernel
  opened_named : ∀ entry ∈ opened, session.libraries.named? entry.1 = some entry.2
  explained : ∀ {name library}, session.libraries.named? name = some library →
    origin.libraries.named? name = some library ∨ (name, library) ∈ opened ∨
      (Untangled origin.manifest origin.sources name →
        (∃ c : Compilation, c.Explains origin session name library) ∧
          ∀ entry ∈ opened, ¬ LeadsTo origin.manifest origin.sources name entry.1)

/-- A session in which the project and the kernel have their names, and nothing has been
imported. -/
structure Bare (origin : Session) : Prop where
  names : ∀ name, (origin.libraries.named? name).isSome ↔
    name = origin.manifest.name ∨ name = origin.manifest.kernel
  cases : ∀ {name library}, origin.libraries.named? name = some library →
    library = .project ∨ library = .kernel

variable {origin session : Session} {opened : List (String × LibraryId)} {extra : List SourceUnit}

namespace Loading

/-- What is wanted and has sources can be imported. -/
lemma importable_of_wants (loading : Loading origin opened extra session) (bare : origin.Bare)
    {name : String} (hwants : session.wants name = true)
    (hsources : (session.sources.library? name).isSome) :
    Importable origin.manifest origin.sources name := by
  obtain ⟨hdeclares, hnamed⟩ := Bool.and_eq_true_iff.1 hwants
  rw [Option.isNone_iff_eq_none] at hnamed
  rw [loading.since.manifest_eq] at hdeclares
  rw [loading.since.sources_eq] at hsources
  have hnone : origin.libraries.named? name = none := by
    cases hname : origin.libraries.named? name with
    | none => rfl
    | some library =>
      rw [loading.since.named name library hname] at hnamed
      cases hnamed
  have hother : ¬ (name = origin.manifest.name ∨ name = origin.manifest.kernel) := by
    rw [← bare.names, hnone]
    simp
  exact ⟨hdeclares, fun heq => hother (.inl heq), fun heq => hother (.inr heq), hsources⟩

lemma not_named_of_importable (bare : origin.Bare) {name : String}
    (importable : Importable origin.manifest origin.sources name) :
    origin.libraries.named? name = none := by
  cases hname : origin.libraries.named? name with
  | none => rfl
  | some library =>
    rcases (bare.names name).1 (hname ▸ rfl) with heq | heq
    · exact absurd heq importable.ne_project
    · exact absurd heq importable.ne_kernel

end Loading

/-- Loading an import that has sources registers it. -/
lemma Imports.isSome_named? {session : Session} {name : String} {log : List String}
    {outcome : Outcome Session} (h : Imports session name log outcome)
    (hsources : (session.sources.library? name).isSome) :
    (outcome.state.libraries.named? name).isSome := by
  cases h with
  | absent hnone => simp [hnone] at hsources
  | @present _ _ _ rest _ htrees hall =>
    have hcharter := (Imports.present htrees hall).charter_eq
    have hmem : name ∈ name :: rest := List.mem_cons_self
    have hsome := Registry.isSome_at?_foldl_add session.libraries.registry (.inl hmem)
    rw [← (Prod.mk.inj hcharter).2] at hsome
    exact hsome

/-- Every declared import with sources that is asked for has a meaning after the loads. -/
lemma ImportsAll.named_of_mem {session after : Session} {names log : List String}
    (h : ImportsAll session names log after) {extra : List SourceUnit}
    (arranged : session.Arranged extra)
    {name : String} (hname : name ∈ names) (hdeclares : session.manifest.declares name = true)
    (hsources : (session.sources.library? name).isSome) : (after.libraries.named? name).isSome := by
  induction names generalizing session log with
  | nil => cases hname
  | cons other names ih =>
    cases h with
    | skip hwants h =>
      rcases List.mem_cons.1 hname with rfl | hname
      · rw [wants, hdeclares, Bool.true_and, Option.isNone_eq_false_iff] at hwants
        obtain ⟨library, hlibrary⟩ := Option.isSome_iff_exists.1 hwants
        rw [h.named? hlibrary]
        rfl
      · exact ih h arranged hname hdeclares hsources
    | load hwants himports h =>
      obtain ⟨arranged', loaded⟩ := himports.extends hwants arranged
      rcases List.mem_cons.1 hname with rfl | hname
      · obtain ⟨library, hlibrary⟩ := Option.isSome_iff_exists.1 (himports.isSome_named? hsources)
        rw [h.named? hlibrary]
        rfl
      · exact ih h arranged' hname (loaded.manifest_eq ▸ hdeclares) (loaded.sources_eq ▸ hsources)

namespace Loading

variable {name : String} {trees : List FileTree}

lemma named?_opened (session : Session) (name : String) (trees : List FileTree) (other : String) :
    ((session.registered name).opened session.nextImport trees).libraries.named? other
      = if name = other then some session.nextImport else session.libraries.named? other := by
  have hcharter := charter_opened (session.registered name) session.nextImport trees
  have hnames := congrArg (fun charter => charter.2.names.at? other) hcharter
  refine hnames.trans ?_
  rw [charter_registered]
  exact (Assoc.at?_put ..).trans (by rw [LibrarySet.registry, List.length_map]; rfl)

/-- A wanted import is registered and tidied. -/
lemma opening (loading : Loading origin opened extra session) (bare : origin.Bare)
    (hwants : session.wants name = true) (hsources : session.sources.library? name = some trees) :
    ∃ batch, (session.registered name).tidiedBatch session.nextImport trees = ⟨batch, none⟩ ∧
      (∀ unit ∈ batch.units, unit.library = session.nextImport ∧ unit.skeleton = unit) ∧
      (session.registered name).libraries.Grows session.nextImport batch.libraries ∧
      Loading origin ((name, session.nextImport) :: opened) (batch.units ++ extra)
        ((session.registered name).opened session.nextImport trees) := by
  obtain ⟨batch, hbatch, hunits, hgrows, arranged, since⟩ := loading.arranged.opened hwants trees
  have hnone : session.libraries.named? name = none :=
    Option.isNone_iff_eq_none.1 (Bool.and_eq_true_iff.1 hwants).2
  have hregistry : ((session.registered name).opened session.nextImport trees).libraries.registry
      = session.libraries.registry.add name := by
    have hcharter := charter_opened (session.registered name) session.nextImport trees
    rw [charter_registered] at hcharter
    exact (Prod.mk.inj hcharter).2
  refine ⟨batch, hbatch, hunits, hgrows, arranged, loading.since.trans since, ⟨?_, ?_⟩, ?_, ?_, ?_⟩
  · rw [hregistry]
    exact loading.wellNamed.regular.add hnone
  · rw [hregistry]
    exact loading.wellNamed.faithful.add name
  · intro other library hother
    rw [named?_opened] at hother
    split at hother
    · next heq =>
      subst heq
      obtain rfl := Option.some.inj hother
      exact .inr ⟨loading.importable_of_wants bare hwants (hsources ▸ rfl),
        LibraryId.ofSlot_ne_project _, LibraryId.ofSlot_ne_kernel _⟩
    · exact loading.importable hother
  · intro entry hentry
    rcases List.mem_cons.1 hentry with rfl | hentry
    · rw [named?_opened, if_pos rfl]
    · exact since.named _ _ (loading.opened_named entry hentry)
  · intro other library hother
    rw [named?_opened] at hother
    split at hother
    · next heq =>
      subst heq
      obtain rfl := Option.some.inj hother
      exact .inr (.inl List.mem_cons_self)
    · rcases loading.explained hother with horigin | hopened | hexplained
      · exact .inl horigin
      · exact .inr (.inl (List.mem_cons_of_mem _ hopened))
      · refine .inr (.inr fun untangled => ?_)
        obtain ⟨⟨c, hc⟩, haside⟩ := hexplained untangled
        refine ⟨⟨c, hc.later loading.wellNamed since⟩, fun entry hentry hleads => ?_⟩
        rcases List.mem_cons.1 hentry with rfl | hentry
        · -- What it leads to had a meaning already, the new import has none.
          obtain ⟨id, hid⟩ := Option.isSome_iff_exists.1 (hc.closed _ hleads)
          rw [hc.named _ _ hid] at hnone
          cases hnone
        · exact haside entry hentry hleads

/-- What an open import leads to is registered once all that its documents name is. -/
lemma isSome_named? (loading : Loading origin opened extra session) (bare : origin.Bare)
    (untangled : Untangled origin.manifest origin.sources name)
    (importable : Importable origin.manifest origin.sources name)
    (hnamed : (session.libraries.named? name).isSome)
    (hopened : ∀ entry ∈ opened, LeadsTo origin.manifest origin.sources entry.1 name)
    (huses : ∀ other, Uses origin.manifest origin.sources name other →
      (session.libraries.named? other).isSome) {other : String}
    (h : LeadsTo origin.manifest origin.sources name other) :
    (session.libraries.named? other).isSome := by
  induction h with
  | refl => exact hnamed
  | @tail between other hbetween huse ih =>
    have himportable : Importable origin.manifest origin.sources between := by
      rcases hbetween.cases_tail with rfl | ⟨_, -, h⟩
      · exact importable
      · exact h.importable
    obtain ⟨library, hlibrary⟩ := Option.isSome_iff_exists.1 ih
    rcases loading.explained hlibrary with horigin | hmem | hexplained
    · rw [not_named_of_importable bare himportable] at horigin
      cases horigin
    · -- An open import leads to this one, and would close a circle.
      obtain rfl := untangled .refl hbetween (hopened _ hmem)
      exact huses other huse
    · obtain ⟨⟨c, hc⟩, -⟩ := hexplained (untangled.of_leadsTo hbetween)
      obtain ⟨id, hid⟩ := Option.isSome_iff_exists.1 (hc.closed other (.single huse))
      rw [hc.named other id hid]
      rfl

section

variable {library : LibraryId} {c : Compilation} {mid after : Session}
  (loading : Loading origin ((name, library) :: opened) (c.batch.units ++ extra) mid)
  (hmodel : c.model = mid.libraries)
  (hunits : ∀ unit ∈ c.batch.units, unit.library = library ∧ unit.skeleton = unit)
  (hlibraries : after.libraries = (c.result origin.options library).libraries)

include hmodel hlibraries

/-- Linking and checking register nothing. -/
lemma registry_closed : after.libraries.registry = mid.libraries.registry := by
  rw [hlibraries, ← hmodel]
  exact LibrarySet.registry_of_skeleton_eq (Linkages.skeleton_finish ..).1

lemma named?_closed (other : String) :
    after.libraries.named? other = mid.libraries.named? other :=
  congrArg (fun registry => registry.names.at? other) (registry_closed hmodel hlibraries)

include loading hunits

/-- An import that is linked and checked last leaves the contents of all others alone. -/
lemma contents_closed {id : LibraryId} (hne : id ≠ library) :
    after.libraries.contents? id = mid.libraries.contents? id := by
  rw [hlibraries, ← hmodel]
  have arranged : c.model.Arranged (c.batch.units ++ (extra ++ mid.units)) := by
    rw [hmodel, ← List.append_assoc]
    exact loading.arranged.holds.1
  exact @LibrarySet.Arranged.sameContents_finish _ _ _ arranged _ hunits (· ≠ library)
    (fun h => h rfl) origin.options id hne

variable (hproject : library ≠ .project) (hkernel : library ≠ .kernel)
  (hforeign : after.foreign
    = mid.foreign.putSorted library (c.result origin.options library).units)

include hproject hkernel hforeign

/-- Linking and checking an import leaves what is explained explained, if it does not lead there. -/
lemma explains_closed {other : String} {id : LibraryId} {c' : Compilation}
    (h : c'.Explains origin mid other id)
    (haside : ¬ LeadsTo origin.manifest origin.sources other name) :
    c'.Explains origin after other id := by
  have hname : mid.libraries.named? name = some library :=
    loading.opened_named _ List.mem_cons_self
  have hne {between : String} {id : LibraryId}
      (hleads : LeadsTo origin.manifest origin.sources other between)
      (hbetween : mid.libraries.named? between = some id) : id ≠ library := by
    rintro rfl
    exact haside (loading.wellNamed.injective hproject hkernel hname hbetween ▸ hleads)
  refine h.congr (fun between id hbetween => ?_) (fun between id hleads hbetween => ?_) ?_
  · rw [named?_closed hmodel hlibraries, hbetween]
  · exact contents_closed loading hmodel hunits hlibraries (hne hleads hbetween)
  · rw [hforeign, at?_putSorted, if_neg (hne .refl (h.named _ _ h.meaning)).symm]

variable (bare : origin.Bare) (importable : Importable origin.manifest origin.sources name)
  (htrees : origin.sources.library? name = some c.trees)
  (htidied : ∃ set pool, set.get? library = some (.new library name) ∧
    set.Grows library c.batch.libraries ∧
    Outcome.forEach (Batch.tidy library) c.trees ⟨set, pool, []⟩ = ⟨c.batch, none⟩)
  (hown : mid.libraries.contents? library = c.batch.libraries.contents? library)
  (huses : ∀ other, Uses origin.manifest origin.sources name other →
    (mid.libraries.named? other).isSome)
  (hopened : ∀ entry ∈ opened, LeadsTo origin.manifest origin.sources entry.1 name)

include bare importable htrees htidied hown huses hopened

/-- An import that has been linked and checked is explained, if it leads into no circle. -/
lemma explains_new (untangled : Untangled origin.manifest origin.sources name) :
    c.Explains origin after name library where
  sources := htrees
  ne_project := hproject
  ne_kernel := hkernel
  tidied := htidied
  units := hunits
  arranged := ⟨extra ++ mid.units, by
    rw [hmodel, ← List.append_assoc]
    exact loading.arranged.holds.1⟩
  own := hmodel ▸ hown
  origin_contents id hid := by
    rw [hmodel]
    exact loading.since.contents id (by rcases hid with rfl | rfl <;> exact ⟨_, rfl⟩)
  origin_named other id hother := hmodel ▸ loading.since.named other id hother
  meaning := hmodel ▸ loading.opened_named _ List.mem_cons_self
  named other id hother := by rwa [named?_closed hmodel hlibraries, ← hmodel]
  -- Whatever the new import leads to is loaded, since no circle goes through it.
  closed other hleads := by
    rw [hmodel]
    have hname := loading.opened_named _ List.mem_cons_self
    refine loading.isSome_named? bare untangled importable (hname ▸ rfl) (fun entry hentry => ?_)
      huses hleads
    rcases List.mem_cons.1 hentry with rfl | hentry
    · exact .refl
    · exact hopened entry hentry
  settled other id _ hne hother := by
    rw [hmodel] at hother ⊢
    refine contents_closed loading hmodel hunits hlibraries fun heq => hne ?_
    have hname := loading.opened_named _ List.mem_cons_self
    exact loading.wellNamed.injective hproject hkernel (heq ▸ hother) hname
  contents := by rw [hlibraries]
  foreign := by rw [hforeign, at?_putSorted, if_pos rfl]

/-- An import has been linked and checked. -/
lemma closing (hnew : ∀ entry ∈ opened, entry.1 ≠ name) (arranged : after.Arranged extra)
    (since : Extends origin after) : Loading origin opened extra after := by
  have hregistry := registry_closed hmodel hlibraries
  refine ⟨arranged, since, ⟨hregistry ▸ loading.wellNamed.regular,
    hregistry ▸ loading.wellNamed.faithful⟩, fun {other id} hother => ?_, fun entry hentry => ?_,
    fun {other id} hother => ?_⟩
  · rw [named?_closed hmodel hlibraries] at hother
    exact loading.importable hother
  · rw [named?_closed hmodel hlibraries]
    exact loading.opened_named entry (List.mem_cons_of_mem _ hentry)
  · rw [named?_closed hmodel hlibraries] at hother
    rcases loading.explained hother with horigin | hmem | hexplained
    · exact .inl horigin
    · rcases List.mem_cons.1 hmem with heq | hmem
      · obtain ⟨rfl, rfl⟩ := Prod.mk.inj heq
        refine .inr (.inr fun untangled => ⟨⟨c,
          explains_new loading hmodel hunits hlibraries hproject
          hkernel hforeign bare importable htrees htidied hown huses hopened untangled⟩,
          fun entry hentry hleads => ?_⟩)
        exact hnew entry hentry (untangled .refl hleads (hopened entry hentry)).symm
      · exact .inr (.inl hmem)
    · refine .inr (.inr fun untangled => ?_)
      obtain ⟨⟨c', hc'⟩, haside⟩ := hexplained untangled
      exact ⟨⟨c', explains_closed loading hmodel hunits hlibraries hproject hkernel hforeign hc'
        (haside _ List.mem_cons_self)⟩,
        fun entry hentry => haside entry (List.mem_cons_of_mem _ hentry)⟩

end

end Loading

/-! ## Whole loads -/

/-- The documents of a batch are those that have been tidied. -/
lemma trees_tidyAll {library : LibraryId} {trees : List FileTree} {start batch : Batch}
    (h : Outcome.forEach (Batch.tidy library) trees start = ⟨batch, none⟩) :
    batch.units.map SourceUnit.tree = start.units.map SourceUnit.tree ++ trees := by
  induction trees generalizing start with
  | nil =>
    obtain ⟨⟩ := h
    exact (List.append_nil _).symm
  | cons tree rest ih =>
    rw [Outcome.forEach, Batch.tidy] at h
    have htree := Workbench.tree_tidy ⟨start.libraries, start.pool, .new tree library⟩
    split at h
    · rw [Outcome.andThen_of_none] at h
      rw [ih h, List.map_append, List.map_cons, List.map_nil, htree, List.append_assoc]
      rfl
    · cases h

/-- The names that the documents of a library import. -/
lemma mem_importsOf {session : Session} {library : LibraryId} {trees : List FileTree}
    {batch : Batch} (h : session.tidiedBatch library trees = ⟨batch, none⟩) {name : String} :
    name ∈ session.importsOf library trees ↔ ∃ tree ∈ trees, name ∈ tree.root.importRoots := by
  have hnames : session.importsOf library trees = importNames batch.units := by
    rw [importsOf, h]
    rfl
  have htrees : batch.units.map SourceUnit.tree = [] ++ trees := trees_tidyAll h
  rw [List.nil_append] at htrees
  rw [hnames, importNames, mem_foldl_addSorted, ← htrees]
  simp

/-- An import is compiled in what its imports have made of the session in which it was opened. -/
lemma compile_eq_result {mid : Session} {library : LibraryId} {trees : List FileTree}
    {batch : Batch}
    (h : session.tidiedBatch library trees = ⟨batch, none⟩) (hkernel : library ≠ .kernel) :
    (compile (fun _ _ => mid) library trees session).state = { mid with
      libraries := (Linkages.finish ⟨mid.libraries, batch.units⟩ mid.options library).libraries
      foreign := mid.foreign.putSorted library
        (Linkages.finish ⟨mid.libraries, batch.units⟩ mid.options library).units } := by
  have hbatch : Outcome.forEach (Batch.tidy library) trees ⟨session.libraries, session.pool, []⟩
      = ⟨batch, none⟩ := h
  simp only [compile, hbatch, if_neg hkernel]
  rfl

/-- An import is linked and checked once all that it names is loaded. -/
lemma Loading.finishing {name : String} {log : List String} {trees : List FileTree} {batch : Batch}
    {mid : Session} (loading : Loading origin opened extra session) (bare : origin.Bare)
    (hwants : session.wants name = true)
    (htrees : session.sources.library? name = some trees)
    (hbatch : (session.registered name).tidiedBatch session.nextImport trees = ⟨batch, none⟩)
    (hunits : ∀ unit ∈ batch.units, unit.library = session.nextImport ∧ unit.skeleton = unit)
    (hgrows : (session.registered name).libraries.Grows session.nextImport batch.libraries)
    (opening : Loading origin ((name, session.nextImport) :: opened) (batch.units ++ extra)
      ((session.registered name).opened session.nextImport trees))
    (hall : ImportsAll ((session.registered name).opened session.nextImport trees)
      ((session.registered name).importsOf session.nextImport trees) log mid)
    (finished : Loading origin ((name, session.nextImport) :: opened) (batch.units ++ extra) mid)
    (hopened : ∀ entry ∈ opened, LeadsTo origin.manifest origin.sources entry.1 name) :
    Loading origin opened extra
      (compile (fun _ _ => mid) session.nextImport trees (session.registered name)).state := by
  have htrees' : origin.sources.library? name = some trees := loading.since.sources_eq ▸ htrees
  have importable := loading.importable_of_wants bare hwants (htrees ▸ rfl)
  have hkernel : session.nextImport ≠ .kernel := LibraryId.ofSlot_ne_kernel _
  have hproject : session.nextImport ≠ .project := LibraryId.ofSlot_ne_project _
  have hstate := @compile_eq_result _ mid _ _ _ hbatch hkernel
  have hoptions : mid.options = origin.options := by
    rw [options, finished.since.manifest_eq, options]
  obtain ⟨arranged, since⟩ := (Imports.present htrees hall).extends hwants loading.arranged
  refine finished.closing (c := ⟨trees, batch, mid.libraries⟩) rfl hunits ?_ hproject hkernel ?_
    bare importable htrees' ⟨_, _, ?_, hgrows, hbatch⟩ ?_ (fun other huse => ?_) hopened
    (fun entry hentry heq => ?_) arranged (loading.since.trans since)
  · rw [hstate, hoptions]
    rfl
  · rw [hstate, hoptions]
    rfl
  · rw [registered, LibrarySet.get?_addImport]
    exact if_pos rfl
  · have hopening := opening.opened_named _ List.mem_cons_self
    have hcontents := (hall.extends opening.arranged).2.contents _
      (opening.wellNamed.loaded hopening)
    rw [Session.opened, hbatch] at hcontents
    exact hcontents
  · obtain ⟨trees', htrees'', hdirective⟩ := huse.directive
    obtain rfl := Option.some.inj (htrees'.symm.trans htrees'')
    refine hall.named_of_mem opening.arranged ((mem_importsOf hbatch).2 hdirective) ?_ ?_
    · rw [opening.since.manifest_eq]
      exact huse.importable.declared
    · rw [opening.since.sources_eq]
      exact huse.importable.available
  · -- A library that is open is registered, and so is not wanted.
    have hnamed := loading.opened_named entry hentry
    have hnone := Option.isNone_iff_eq_none.1 (Bool.and_eq_true_iff.1 hwants).2
    rw [heq, hnone] at hnamed
    cases hnamed

mutual

/-- A load leaves all explained that it compiles. -/
theorem Imports.loading (bare : origin.Bare) :
    ∀ {session name log outcome}, Imports session name log outcome →
      ∀ {opened : List (String × LibraryId)} {extra : List SourceUnit}, session.wants name = true →
      Loading origin opened extra session →
      (Importable origin.manifest origin.sources name →
        ∀ entry ∈ opened, LeadsTo origin.manifest origin.sources entry.1 name) →
      Loading origin opened extra outcome.state
  | _, _, _, _, .absent _, _, _, _, loading, _ => loading
  | session, name, _, _, .present htrees hall, opened, extra, hwants, loading, hopened => by
    obtain ⟨batch, hbatch, hunits, hgrows, opening⟩ := loading.opening bare hwants htrees
    have importable := loading.importable_of_wants bare hwants (htrees ▸ rfl)
    -- All open imports, this one included, lead to what its documents name.
    have finished := hall.loading bare opening fun other hother himportable entry hentry => by
      have huse : Uses origin.manifest origin.sources name other :=
        ⟨himportable, _, loading.since.sources_eq ▸ htrees, (mem_importsOf hbatch).1 hother⟩
      rcases List.mem_cons.1 hentry with rfl | hentry
      · exact Relation.ReflTransGen.single huse
      · exact (hopened importable entry hentry).tail huse
    exact loading.finishing bare hwants htrees hbatch hunits hgrows opening hall finished
      (hopened importable)

theorem ImportsAll.loading (bare : origin.Bare) :
    ∀ {session names log after}, ImportsAll session names log after →
      ∀ {opened : List (String × LibraryId)} {extra : List SourceUnit},
      Loading origin opened extra session →
      (∀ name ∈ names, Importable origin.manifest origin.sources name →
        ∀ entry ∈ opened, LeadsTo origin.manifest origin.sources entry.1 name) →
      Loading origin opened extra after
  | _, _, _, _, .nil, _, _, loading, _ => loading
  | _, _, _, _, .skip _ h, _, _, loading, hopened =>
    h.loading bare loading fun name hname => hopened name (List.mem_cons_of_mem _ hname)
  | _, _, _, _, .load hwants himports h, _, _, loading, hopened =>
    h.loading bare
      (himports.loading bare hwants loading (hopened _ List.mem_cons_self))
      fun name hname => hopened name (List.mem_cons_of_mem _ hname)

end

/-! ## Runs -/

/-- A request to load a library leaves all explained. -/
lemma Loading.load (loading : Loading origin [] [] session) (bare : origin.Bare)
    (name : String) :
    Loading origin [] [] (session.perform (.load name)) := by
  by_cases hasks : session.Asks name
  · obtain ⟨_, hload⟩ := imports_load session.manifest.libraries.length name session hasks.2.2
      session.card_unmet_le
    rw [perform, loadLibrary_of_asks hasks]
    exact hload.loading bare hasks.2.2 loading fun _ entry hentry => by cases hentry
  · rw [perform, loadLibrary_of_not_asks hasks]
    exact loading

lemma Loading.runLoads (loading : Loading origin [] [] session) (bare : origin.Bare)
    (names : List String) :
    Loading origin [] [] (session.run (names.map .load)) := by
  induction names generalizing session with
  | nil => exact loading
  | cons name rest ih => exact ih (loading.load bare name)

/-- A session that has just started has the names of the project and of the kernel. -/
lemma bare_start {manifest : Manifest} {sources : Sources} {initial : Session}
    (h : start manifest sources = .ok initial) : initial.Bare := by
  obtain ⟨hmanifest, hregistry⟩ := Prod.mk.inj (charter_start h)
  have hnamed (name : String) : initial.libraries.named? name
      = if manifest.kernel = name then some .kernel
        else if manifest.name = name then some .project else none := by
    have hnames := congrArg (fun registry => registry.names.at? name) hregistry
    refine hnames.trans ?_
    simp [LibrarySet.registry, LibrarySet.new]
  refine ⟨fun name => ?_, fun {name library} hlibrary => ?_⟩
  · rw [hnamed, hmanifest]
    split
    · next heq => simp [heq]
    · next hkernel =>
      split
      · next heq => simp [heq]
      · next hproject => simp [Ne.symm hkernel, Ne.symm hproject]
  · rw [hnamed] at hlibrary
    split at hlibrary
    · exact .inr (Option.some.inj hlibrary).symm
    · split at hlibrary
      · exact .inl (Option.some.inj hlibrary).symm
      · cases hlibrary

/-- Whatever libraries are loaded after the start of a session, each import that leads into no
circle is what its compilation has made of it. -/
theorem loading_start (manifest : Manifest) (sources : Sources) :
    ∃ initial, start manifest sources = .ok initial ∧ initial.manifest = manifest ∧
      initial.sources = sources ∧ initial.Bare ∧
      ∀ names : List String, Loading initial [] [] (initial.run (names.map .load)) := by
  obtain ⟨initial, hstart, keeps, loaded⟩ := Keeps.start loadInvariant_arranged manifest sources
    ⟨LibrarySet.arranged_new manifest.name manifest.kernel, IndexPool.matches_new manifest.name⟩
  have bare := bare_start hstart
  have hregistry := (Prod.mk.inj (charter_start hstart)).2
  refine ⟨initial, hstart, loaded.manifest_eq, loaded.sources_eq, bare,
    fun names => Loading.runLoads
    ⟨?_, ⟨.refl initial, .refl _, fun _ _ h => h⟩, ⟨?_, ?_⟩, fun h => .inl h,
      by simp, fun h => .inl h⟩
    bare names⟩
  · exact keeps
  · rw [hregistry]
    exact ⟨by simp [LibrarySet.registry, LibrarySet.new],
      by simp [LibrarySet.registry, LibrarySet.new]⟩
  · exact fun name library h => (bare.cases h).imp_right .inl

end Session

end SymbolGraph
