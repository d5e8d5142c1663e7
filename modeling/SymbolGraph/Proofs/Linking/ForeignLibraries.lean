import SymbolGraph.Proofs.Linking.BalanceThroughLoads
import SymbolGraph.Proofs.Model.RecordCores

/-!
# Libraries that do not name the project

The kernel and the imports are compiled once, while the project is rebuilt again and again.  What
they refer to in the project would go stale.  A tree *shuns* a name if no import directive and no
dotted type of it begins with the name; as long as all documents of other libraries shun the name
of the project, they refer to nothing in it (`Insular`), since every other way to the project leads
through a parent class or an import that is insular itself.
-/

namespace SymbolGraph

/-- No import directive and no dotted type of the tree begins with the name. -/
structure FileTree.Shuns (tree : FileTree) (name : String) : Prop where
  imports : name ∉ tree.root.importRoots
  types : ∀ ty ∈ tree.types, ∀ first rest, ty.path = first :: rest → rest ≠ [] →
    first.name ≠ name

/-- The documents of other libraries refer to nothing of the project, which is known by the name
alone. -/
structure Insular (name : String) (set : LibrarySet) (units : List SourceUnit) : Prop where
  names : ∀ other, set.named? other = some .project → other = name
  parents : ∀ {id parent}, id.library ≠ .project → parent ∈ set.parents id →
    parent.library ≠ .project
  references : ∀ unit ∈ units, unit.library ≠ .project → ∀ reference ∈ unit.references,
    reference.1.library ≠ .project

/-- All documents of other libraries shun the name. -/
def Shunned (name : String) (units : List SourceUnit) : Prop :=
  ∀ unit ∈ units, unit.library ≠ .project → unit.tree.Shuns name

variable {name : String} {set set' : LibrarySet} {units units' : List SourceUnit}

lemma Insular.perm (insular : Insular name set units) (h : units.Perm units') :
    Insular name set units' :=
  ⟨insular.names, insular.parents, fun unit hunit => insular.references unit (h.mem_iff.2 hunit)⟩

lemma Shunned.of_skeleton_eq (shunned : Shunned name units)
    (h : units'.map SourceUnit.skeleton = units.map SourceUnit.skeleton) : Shunned name units' := by
  intro unit hunit hlibrary
  obtain ⟨old, hold, he⟩ := SourceUnit.exists_of_skeleton_eq h hunit
  have hsame : unit.library = old.library := congrArg (·.library) he
  rw [SourceUnit.tree_of_skeleton_eq he]
  exact shunned old hold (hsame ▸ hlibrary)

lemma LibrarySet.names_of_skeleton_eq (h : set'.skeleton = set.skeleton) :
    set'.names = set.names := by
  have hnames : set'.skeleton.names = set.skeleton.names := congrArg LibrarySet.names h
  exact hnames

/-- A step that keeps the names and gives no declaration a parent. -/
lemma Insular.of_parents (insular : Insular name set units) (hnames : set'.names = set.names)
    (hparents : ∀ {id parent}, id.library ≠ .project → parent ∈ set'.parents id →
      parent ∈ set.parents id)
    (hunits : ∀ unit ∈ units', unit.library ≠ .project → unit.references = [] ∨
      ∃ old ∈ units, old.library = unit.library ∧ unit.references = old.references) :
    Insular name set' units' where
  names other h := insular.names other (by rwa [LibrarySet.named?, hnames] at h)
  parents hid hparent := insular.parents hid (hparents hid hparent)
  references := by
    intro unit hunit hlibrary reference hreference
    rcases hunits unit hunit hlibrary with h | ⟨old, hold, hsame, h⟩
    · simp [h] at hreference
    · exact insular.references old hold (hsame ▸ hlibrary) reference (h ▸ hreference)

/-! ## Linking -/

namespace Linkage

variable {state : Linkage} {others : List SourceUnit}

/-- What is on record for a document after findings are written down was there before or has been
found. -/
lemma references_apply {found : Findings} {reference : Target × Location}
    (h : reference ∈ (state.apply found).unit.references) :
    reference ∈ state.unit.references ∨ reference ∈ found.references := by
  obtain ⟨unit, hunit, hsub⟩ := state.apply_unit found
    (P := fun unit => ∀ reference ∈ unit.references,
      reference ∈ state.unit.references ∨ reference ∈ found.references)
    (fun _ h => Or.inl h)
    (fun {unit target location} hmem h other hother => by
      simp only [SourceUnit.references, List.filterMap_append, List.mem_append,
        List.filterMap_cons, BackLink.reference?, List.filterMap_nil, List.mem_singleton] at hother
      rcases hother with hother | rfl
      · exact h other hother
      · exact Or.inr hmem)
    (fun h other hother => h other (by
      simpa [SourceUnit.references, BackLink.reference?] using hother))
  rw [hunit] at h
  exact hsub reference h

lemma scopes_apply (state : Linkage) (found : Findings) :
    (state.apply found).unit.scopes = state.unit.scopes := by
  obtain ⟨unit, hunit, h⟩ := state.apply_unit found
    (P := fun unit => unit.scopes = state.unit.scopes) rfl (fun _ h => h) (fun h => h)
  rw [hunit]
  exact h

/-- What a document of another library can name is not in the project. -/
lemma among_abroad (insular : Insular name state.libraries (state.unit :: others))
    (hlibrary : state.unit.library ≠ .project) (hshuns : state.unit.tree.Shuns name)
    (hscopes : ∀ scope ∈ state.unit.scopes, ∀ imported ∈ scope.imports,
      imported.library ≠ .project) : state.Among (· ≠ .project) := by
  refine ⟨hlibrary, LibraryId.kernel_ne_project, hscopes, insular.parents, ?_, ?_⟩
  · rintro first hfirst library hnamed rfl
    exact hshuns.imports (insular.names first hnamed ▸ hfirst)
  · rintro ty hty first rest hpath hrest library hnamed rfl
    exact hshuns.types ty hty first rest hpath hrest (insular.names _ hnamed)

lemma insular_apply (insular : Insular name state.libraries (state.unit :: others))
    (hid : state.libraries.Identified) {found : Findings} {own : List DeclId}
    (among : found.Among state.libraries (· ≠ .project) state.unit.path own) :
    Insular name (state.apply found).libraries ((state.apply found).unit :: others) := by
  have hupdated : (found.updates.foldl Update.apply state.libraries).Identified := by
    have hfits := @LibrarySet.SameCores.foldl state.libraries (fun _ => True) Update
      Update.apply found.updates (fun set hid update _ => by
        cases update <;> exact LibrarySet.sameCores_edit_own hid _ trivial) hid
    exact hfits.identified
  have hskeleton := sameSkeleton_apply state found
  refine ⟨?_, ?_, ?_⟩
  · intro other h
    rw [LibrarySet.named?, LibrarySet.names_of_skeleton_eq hskeleton.1] at h
    exact insular.names other h
  · intro id parent hlibrary hparent
    have htraces := @sameCores_traces state (fun _ => False) found hupdated
    rcases LibrarySet.parents_updates hid found.updates
      (htraces.parents hupdated (fun h => h) hparent) with h | ⟨update, hupdate, h⟩
    · exact insular.parents hlibrary h
    · exact (among.updates hupdate).2.2 parent h
  · intro unit hunit hlibrary reference hreference
    rcases List.mem_cons.1 hunit with rfl | hunit
    · have hsame : (state.apply found).unit.library = state.unit.library :=
        congrArg (·.library) hskeleton.2
      rcases references_apply hreference with h | h
      · exact insular.references _ (List.mem_cons_self ..) (hsame ▸ hlibrary) reference h
      · exact (among.references h).1.2
    · exact insular.references unit (List.mem_cons_of_mem _ hunit) hlibrary reference hreference

lemma linked_declareMembers (state : Linkage) :
    state.declareMembers.unit.scopes = state.unit.scopes ∧
      state.declareMembers.unit.links = state.unit.links := by
  have hstep (state : Linkage) (pair : DeclId × DeclNode) :
      (LinkMembers.declareFor state pair).unit.scopes = state.unit.scopes ∧
        (LinkMembers.declareFor state pair).unit.links = state.unit.links := by
    obtain ⟨id, node⟩ := pair
    simp only [LinkMembers.declareFor]
    split <;> exact ⟨rfl, rfl⟩
  unfold declareMembers
  generalize state.unit.declarations.zip state.unit.nodes = pairs
  induction pairs generalizing state with
  | nil => exact ⟨rfl, rfl⟩
  | cons pair rest ih =>
    obtain ⟨hscopes, hlinks⟩ := ih (LinkMembers.declareFor state pair)
    exact ⟨hscopes.trans (hstep state pair).1, hlinks.trans (hstep state pair).2⟩

/-- The cores of a document's declarations are its own. -/
lemma Booked.own_seat (booked : state.Booked others) {id : DeclId}
    (hid : id ∈ state.unit.declarations) :
    (⟨id.library, id.seat.1, id.seat.2, none⟩ : DeclId) ∈ state.unit.declarations := by
  obtain ⟨heq, htop, -⟩ := booked.settled.declared (List.mem_cons_self ..) hid
  have hseat : (⟨id.library, id.seat.1, id.seat.2, none⟩ : DeclId) = id := by
    rw [DeclId.seat_of_top htop]
    obtain ⟨l, c, i, d⟩ := id
    obtain rfl : d = none := congrArg DeclId.define heq
    rfl
  rwa [hseat]

/-- What is found for a document changes no core but those of its own declarations. -/
lemma Booked.sameCores_apply (booked : state.Booked others) {near : LibraryId → Prop}
    {found : Findings}
    (among : found.Among state.libraries near state.unit.path state.unit.declarations) :
    LibrarySet.SameCores (· ∈ state.unit.declarations) state.libraries
      (state.apply found).libraries := by
  refine Linkage.sameCores_apply booked.books.orderly.identified fun update hupdate => ?_
  have hown := (among.updates hupdate).2.1
  exact ⟨hown, congrArg DeclId.define (booked.settled.declared (List.mem_cons_self ..) hown).1⟩

lemma Booked.sameCores_linkImports (booked : state.Booked others) :
    LibrarySet.SameCores (· ∈ state.unit.declarations) state.libraries
      state.linkImports.libraries := by
  obtain ⟨hamong, -⟩ := state.among_everywhere.imported booked.books.legible
  rw [linkImports_eq booked.settled]
  have hscopes : Keeps others state
      { state with unit := { state.unit with scopes := state.imported.1 } } :=
    keeps_unit booked rfl rfl rfl
  exact hscopes.booked.sameCores_apply hamong

lemma Booked.sameCores_declareMembers (booked : state.Booked others) :
    LibrarySet.SameCores (· ∈ state.unit.declarations) state.libraries
      state.declareMembers.libraries :=
  Linkage.sameCores_declareMembers booked.books.orderly.identified fun _ hid => booked.own_seat hid

end Linkage

/-- A document of another library that shuns the name and has imported nothing of the project. -/
structure SourceUnit.Aloof (name : String) (unit : SourceUnit) : Prop where
  library : unit.library ≠ .project
  shuns : unit.tree.Shuns name
  scopes : ∀ scope ∈ unit.scopes, ∀ imported ∈ scope.imports, imported.library ≠ .project

lemma SourceUnit.Aloof.of_skeleton_eq {unit unit' : SourceUnit} (aloof : unit.Aloof name)
    (h : unit'.skeleton = unit.skeleton) (hscopes : ∀ scope ∈ unit'.scopes,
      ∀ imported ∈ scope.imports, imported.library ≠ .project) : unit'.Aloof name where
  library := by
    have hsame : unit'.library = unit.library := congrArg (·.library) h
    exact hsame ▸ aloof.library
  shuns := SourceUnit.tree_of_skeleton_eq h ▸ aloof.shuns
  scopes := hscopes

namespace Linkage

variable {state : Linkage} {others : List SourceUnit}

lemma aloof_apply (insular : Insular name state.libraries (state.unit :: others))
    (booked : state.Booked others) (aloof : state.unit.Aloof name) {found : Findings}
    (among : found.Among state.libraries (· ≠ .project) state.unit.path state.unit.declarations) :
    Insular name (state.apply found).libraries ((state.apply found).unit :: others) ∧
      (state.apply found).unit.Aloof name := by
  refine ⟨insular_apply insular booked.books.orderly.identified among,
    aloof.of_skeleton_eq (sameSkeleton_apply state found).2 ?_⟩
  rw [scopes_apply]
  exact aloof.scopes

lemma aloof_linkImports (insular : Insular name state.libraries (state.unit :: others))
    (booked : state.Booked others) (aloof : state.unit.Aloof name) :
    Insular name state.linkImports.libraries (state.linkImports.unit :: others) ∧
      state.linkImports.unit.Aloof name := by
  obtain ⟨hfound, hscopes⟩ := (among_abroad insular aloof.library aloof.shuns
    aloof.scopes).imported booked.books.legible
  rw [linkImports_eq booked.settled]
  have keeps : Keeps others state
      { state with unit := { state.unit with scopes := state.imported.1 } } :=
    keeps_unit booked rfl rfl rfl
  refine @aloof_apply _ { state with unit := { state.unit with scopes := state.imported.1 } }
    others (insular.of_parents rfl (fun _ h => h) ?_) keeps.booked
    (aloof.of_skeleton_eq rfl hscopes) _ hfound
  intro unit hunit _
  rcases List.mem_cons.1 hunit with rfl | hunit
  · exact Or.inr ⟨state.unit, List.mem_cons_self .., rfl, rfl⟩
  · exact Or.inr ⟨unit, List.mem_cons_of_mem _ hunit, rfl, rfl⟩

lemma aloof_declareMembers (insular : Insular name state.libraries (state.unit :: others))
    (booked : state.Booked others) (aloof : state.unit.Aloof name) :
    Insular name state.declareMembers.libraries (state.declareMembers.unit :: others) ∧
      state.declareMembers.unit.Aloof name := by
  have hskeleton := sameSkeleton_declareMembers state
  obtain ⟨hscopes, hlinks⟩ := linked_declareMembers state
  refine ⟨insular.of_parents (LibrarySet.names_of_skeleton_eq hskeleton.1) (fun _ h =>
    parents_declareMembers booked.books.orderly.identified h) ?_,
    aloof.of_skeleton_eq hskeleton.2 (hscopes ▸ aloof.scopes)⟩
  intro unit hunit _
  rcases List.mem_cons.1 hunit with rfl | hunit
  · refine Or.inr ⟨state.unit, List.mem_cons_self .., ?_, ?_⟩
    · exact (congrArg (·.library) hskeleton.2 : state.declareMembers.unit.library = _).symm
    · rw [SourceUnit.references, hlinks, SourceUnit.references]
  · exact Or.inr ⟨unit, List.mem_cons_of_mem _ hunit, rfl, rfl⟩

end Linkage

/-- Linking documents that keep away from the project. -/
lemma Insular.link {batch others : List SourceUnit} (insular : Insular name set (batch ++ others))
    (booked : Linkages.Booked set (batch ++ others)) (hundeclared : ∀ unit ∈ batch, unit.Undeclared)
    (haloof : ∀ unit ∈ batch, unit.Aloof name) (options : LinkOptions) :
    Insular name (Linkages.link ⟨set, batch⟩ options).libraries
      ((Linkages.link ⟨set, batch⟩ options).units ++ others) := by
  have habroad {state : Linkage} {others : List SourceUnit}
      (insular : Insular name state.libraries (state.unit :: others))
      (aloof : state.unit.Aloof name) : state.Among (· ≠ .project) :=
    Linkage.among_abroad insular aloof.library aloof.shuns aloof.scopes
  exact (Linkages.Booked.link_induction options (Insular name) (SourceUnit.Aloof name)
    Insular.perm (fun booked h hunit => Linkage.aloof_linkImports h booked hunit)
    (fun booked h hunit => Linkage.aloof_declareMembers h booked hunit)
    (fun booked h hunit => Linkage.aloof_apply h booked hunit
      ((habroad h hunit).foundBases booked.arranged options))
    (fun booked h hunit => Linkage.aloof_apply h booked hunit
      ((habroad h hunit).foundSignatures booked.arranged options))
    booked insular fun unit hunit => ⟨hundeclared unit hunit, haloof unit hunit⟩).2

/-- Linking the documents of one library changes no core of another. -/
lemma Linkages.Booked.sameCores_link {batch others : List SourceUnit}
    (booked : Linkages.Booked set (batch ++ others)) (hundeclared : ∀ unit ∈ batch, unit.Undeclared)
    {library : LibraryId} (hlibrary : ∀ unit ∈ batch, unit.library = library)
    (options : LinkOptions) : LibrarySet.SameCores (fun id => id.library = library) set
      (Linkages.link ⟨set, batch⟩ options).libraries := by
  -- A pass over a document writes cores of its own declarations, which lie in the library.
  have hkeep {before after : Linkage} {others : List SourceUnit} (booked : before.Booked others)
      (horigin : LibrarySet.SameCores (fun id => id.library = library) set before.libraries)
      (hunit : before.unit.library = library) (keeps : Linkage.SameSkeleton before after)
      (h : LibrarySet.SameCores (· ∈ before.unit.declarations) before.libraries after.libraries) :
      LibrarySet.SameCores (fun id => id.library = library) set after.libraries ∧
        after.unit.library = library := by
    refine ⟨horigin.trans (h.mono fun id hid => ?_), ?_⟩
    · obtain ⟨heq, -⟩ := booked.settled.declared (List.mem_cons_self ..) hid
      exact (congrArg DeclId.library heq).trans hunit
    · exact (congrArg (·.library) keeps.2 : after.unit.library = _).trans hunit
  refine (link_induction options
    (fun current _ => LibrarySet.SameCores (fun id => id.library = library) set current)
    (fun unit => unit.library = library) (fun h _ => h)
    (fun booked h hunit => hkeep booked h hunit (Linkage.sameSkeleton_linkImports _)
      booked.sameCores_linkImports)
    (fun booked h hunit => hkeep booked h hunit (Linkage.sameSkeleton_declareMembers _)
      booked.sameCores_declareMembers)
    (fun {state} _ booked h hunit => hkeep booked h hunit (Linkage.sameSkeleton_linkEach ..)
      (booked.sameCores_apply (state.among_everywhere.foundBases booked.arranged options)))
    (fun {state} _ booked h hunit => hkeep booked h hunit (Linkage.sameSkeleton_linkEach ..)
      (booked.sameCores_apply (state.among_everywhere.foundSignatures booked.arranged options)))
    booked (.refl booked.1.orderly.identified)
    fun unit hunit => ⟨hundeclared unit hunit, hlibrary unit hunit⟩).2

/-! ## Loads -/

lemma Insular.check (insular : Insular name set units) (hid : set.Identified)
    (library : LibraryId) : Insular name (set.check library).1 units := by
  have hcores := @LibrarySet.sameCores_check set (fun _ => False) hid library
  refine insular.of_parents (LibrarySet.names_of_skeleton_eq (set.skeleton_check library))
    (fun _ h => hcores.parents hid (fun h => h) h) ?_
  exact fun unit hunit _ => Or.inr ⟨unit, hunit, rfl, rfl⟩

/-- Of documents, only the libraries and the back-links matter. -/
lemma Insular.congr (insular : Insular name set units)
    (h : units'.map (fun unit => (unit.skeleton, unit.occurrences, unit.links))
      = units.map fun unit => (unit.skeleton, unit.occurrences, unit.links)) :
    Insular name set units' := by
  refine insular.of_parents rfl (fun _ h => h) fun unit hunit _ => Or.inr ?_
  have hmem : (unit.skeleton, unit.occurrences, unit.links)
      ∈ units.map fun unit => (unit.skeleton, unit.occurrences, unit.links) :=
    h ▸ List.mem_map_of_mem hunit
  obtain ⟨old, hold, heq⟩ := List.mem_map.1 hmem
  simp only [Prod.mk.injEq] at heq
  refine ⟨old, hold, ?_, ?_⟩
  · exact (congrArg (·.library) heq.1 : old.library = unit.library)
  · rw [SourceUnit.references, SourceUnit.references, heq.2.2]

/-- Growth gives no declaration a parent. -/
lemma LibrarySet.Grows.parents {library : LibraryId} {lib : Library}
    (grows : set.Grows library set') (hloaded : set.get? library = some lib)
    (hid : set.Identified) (hid' : set'.Identified) {id parent : DeclId}
    (hparent : parent ∈ set'.parents id) : parent ∈ set.parents id := by
  obtain ⟨htop, entry, hslot, hentry⟩ := (mem_parents hid').1 hparent
  refine (mem_parents hid).2 ⟨htop, entry, ?_, hentry⟩
  rcases grows.slot_only hloaded hslot with hkept | ⟨-, hfresh⟩
  · exact hkept
  · have hnone : entry.body.parent? = none := by
      rw [← hfresh]
      simp only [Entry.skeleton]
      cases entry.id.category <;> rfl
    simp [hnone] at hentry

/-- Linking and checking change no tree. -/
lemma Shunned.of_finish {batch : List SourceUnit} {options : LinkOptions} {library : LibraryId}
    (shunned : Shunned name ((Linkages.finish ⟨set, batch⟩ options library).units ++ units)) :
    Shunned name (batch ++ units) := by
  obtain ⟨-, hunits⟩ := Linkages.skeleton_finish ⟨set, batch⟩ options library
  refine shunned.of_skeleton_eq ?_
  rw [List.map_append, List.map_append, hunits]

/-- New documents of another library keep away from the project. -/
lemma Shunned.aloof {batch : List SourceUnit} (shunned : Shunned name (batch ++ units))
    {library : LibraryId} (hproject : library ≠ .project)
    (hbatch : ∀ unit ∈ batch, unit.library = library ∧ unit.skeleton = unit) :
    ∀ unit ∈ batch, unit.Aloof name := by
  intro unit hunit
  obtain ⟨hlibrary, hskeleton⟩ := hbatch unit hunit
  have hforeign : unit.library ≠ .project := hlibrary ▸ hproject
  refine ⟨hforeign, shunned unit (List.mem_append_left _ hunit) hforeign, ?_⟩
  rw [← hskeleton]
  simp [SourceUnit.skeleton]

/-- Loading keeps libraries insular, as long as they shun the name of the project. -/
theorem loadInvariant_insular (name : String) : LoadInvariant fun set pool units =>
    (Linkages.Booked set units ∧ pool.Matches set.project []) ∧
      (Shunned name units → Insular name set units) where
  settled h := loadInvariant_booked.settled h.1
  pool h := loadInvariant_booked.pool h.1
  perm h hperm := ⟨loadInvariant_booked.perm h.1 hperm, fun shunned =>
    (h.2 fun unit hunit => shunned unit (hperm.mem_iff.1 hunit)).perm hperm⟩
  addImport := by
    intro set pool units library h
    refine ⟨loadInvariant_booked.addImport library h.1, fun shunned => ?_⟩
    have insular := h.2 shunned
    have hid := h.1.1.1.orderly.identified
    have hid' := (loadInvariant_booked.addImport library h.1).1.1.orderly.identified
    refine ⟨?_, ?_, insular.references⟩
    · -- A new name is not that of the project, and the new library has no records yet.
      intro other hother
      rw [LibrarySet.named?, LibrarySet.addImport, Assoc.at?_put] at hother
      split at hother
      · cases hother
      · exact insular.names other hother
    · intro id parent hlibrary hparent
      obtain ⟨htop, entry, hslot, hentry⟩ := (LibrarySet.mem_parents hid').1 hparent
      rw [LibrarySet.slot?, LibrarySet.get?_addImport] at hslot
      split at hslot
      · simp [Library.slot?_new] at hslot
      · exact insular.parents hlibrary ((LibrarySet.mem_parents hid).2 ⟨htop, entry, hslot, hentry⟩)
  tidy := by
    intro set pool units library lib tree bench h hproject hloaded htidy
    have hbooked := loadInvariant_booked.tidy h.1 hproject hloaded htidy
    refine ⟨hbooked, fun shunned => ?_⟩
    obtain ⟨bench', htidy', -, -, hgrows, -, -, hunit⟩ := h.1.1.1.settled.tidy hloaded h.1.2 tree
    rw [htidy] at htidy'
    obtain rfl : bench = bench' := by simpa using htidy'
    have insular := h.2 fun unit hunit => shunned unit (List.mem_cons_of_mem _ hunit)
    refine insular.of_parents hgrows.names_eq (fun _ h' => hgrows.parents hloaded
      h.1.1.1.orderly.identified hbooked.1.1.orderly.identified h') ?_
    intro unit hmem _
    rcases List.mem_cons.1 hmem with rfl | hmem
    · refine Or.inl ?_
      rw [← hunit]
      rfl
    · exact Or.inr ⟨unit, hmem, rfl, rfl⟩
  finish := by
    intro set pool units batch library options h hproject hbatch
    refine ⟨loadInvariant_booked.finish options h.1 hproject hbatch, fun shunned => ?_⟩
    -- The documents of the batch keep their trees, so they shun the name before and after.
    have shunned' : Shunned name (batch ++ units) := shunned.of_finish
    have hundeclared : ∀ unit ∈ batch, unit.Undeclared :=
      fun unit hunit => undeclared_of_skeleton_eq (hbatch unit hunit).2
    have hlinked := (h.2 shunned').link h.1.1 hundeclared (shunned'.aloof hproject hbatch) options
    have hbooked := h.1.1.link hundeclared options
    refine (hlinked.check hbooked.1.orderly.identified library).congr ?_
    rw [List.map_append, List.map_append]
    exact congrArg (· ++ _) (record_handOut _ _)

end SymbolGraph
