import SymbolGraph.Proofs.Linking.RecordIdentities

/-!
# The books through loads and teardown

Tidying a document and registering a library bring targets into being that nothing refers to, so
the books stay in order (`Booked.tidy`, `Extends.booked`), and with linking this makes them an
invariant of loading.

Unlinking a document erases its references one by one and drops the members of its declarations.
References of other documents to those members go with them, so from then on some back-links lead
nowhere; the two sides still agree on every target that exists, which is all that `Booked` says.
-/

namespace SymbolGraph

namespace LibrarySet

variable {set set' : LibrarySet} {units : List SourceUnit}

/-! ## Growth -/

/-- Growth keeps the books of the documents that are there. -/
theorem Extends.booked (h : set.Extends set') (booked : set.Booked units)
    (anchored : set.Anchored units) (settled : set'.Settled units) :
    set'.Booked units ∧ set'.Anchored units := by
  obtain ⟨ledger, anchored'⟩ := booked.ledger.widens anchored (h.widens booked.orderly.identified)
  exact ⟨⟨h.arranged booked.toArranged settled, ledger, booked.faithful⟩, anchored'⟩

/-- A document that refers to nothing changes no balance. -/
lemma Ledger.cons {unit : SourceUnit} (ledger : set.Ledger units)
    (hreferences : unit.references = []) : set.Ledger (unit :: units) := by
  have hpointers (target : Target) : unit.pointers target = [] := by
    rw [SourceUnit.pointers, hreferences]
    rfl
  refine ⟨?_, ?_⟩
  · intro target refs proper hrefs
    rw [List.flatMap_cons, hpointers, List.nil_append]
    exact ledger.exact proper hrefs
  · intro other target location hother hreference
    rcases List.mem_cons.1 hother with rfl | hother
    · simp [hreferences] at hreference
    · exact ledger.proper hother hreference

lemma Ledger.of_cons {unit : SourceUnit} (ledger : set.Ledger (unit :: units))
    (hreferences : unit.references = []) : set.Ledger units := by
  have hpointers (target : Target) : unit.pointers target = [] := by
    rw [SourceUnit.pointers, hreferences]
    rfl
  refine ⟨?_, fun hother => ledger.proper (List.mem_cons_of_mem _ hother)⟩
  intro target refs proper hrefs
  obtain ⟨hnodup, hperm⟩ := ledger.exact proper hrefs
  rw [List.flatMap_cons, hpointers, List.nil_append] at hperm
  exact ⟨hnodup, hperm⟩

end LibrarySet

/-- A document without back-links is faithful, as tidying records definitions only. -/
lemma SourceUnit.AlignedWith.faithful {unit : SourceUnit} {lib : Library} {marks : List Mark}
    (aligned : unit.AlignedWith lib marks) (hoccurrences : unit.skeleton.occurrences
      = unit.occurrences) (hreferences : unit.references = []) : unit.Faithful := by
  have hdefinitions := aligned.definitions
  rw [hoccurrences] at hdefinitions
  have hnone : unit.occurrences.filter (fun occurrence => !occurrence.definition) = [] := by
    rw [List.filter_eq_nil_iff]
    intro occurrence hoccurrence
    simp [hdefinitions occurrence hoccurrence]
  rw [Faithful, hnone, hreferences]
  rfl

namespace LibrarySet

variable {set set' : LibrarySet} {units : List SourceUnit}

lemma Ledger.append {fresh : List SourceUnit} (ledger : set.Ledger units)
    (hreferences : ∀ unit ∈ fresh, unit.references = []) : set.Ledger (fresh ++ units) := by
  induction fresh with
  | nil => exact ledger
  | cons unit rest ih =>
    exact (ih fun other hother => hreferences other (List.mem_cons_of_mem _ hother)).cons
      (hreferences unit (List.mem_cons_self ..))

/-- Tidying new documents keeps the books. -/
theorem Booked.tidy (booked : set.Booked units) (anchored : set.Anchored units)
    {library : LibraryId} {lib : Library} (hloaded : set.get? library = some lib)
    {fresh : List SourceUnit} (settled : set'.Settled (fresh ++ units))
    (grows : set.Grows library set') (hfresh : ∀ unit ∈ fresh, unit.skeleton = unit) :
    set'.Booked (fresh ++ units) ∧ set'.Anchored (fresh ++ units) := by
  have hextends := grows.extends hloaded booked.orderly settled
  have hreferences : ∀ unit ∈ fresh, unit.references = [] := by
    intro unit hunit
    rw [← hfresh unit hunit]
    rfl
  obtain ⟨ledger, anchored'⟩ :=
    booked.ledger.widens anchored (hextends.widens booked.orderly.identified)
  refine ⟨⟨booked.toArranged.tidy hloaded settled grows, ledger.append hreferences, ?_⟩, ?_⟩
  · intro unit hunit
    rcases List.mem_append.1 hunit with hnew | hold
    · obtain ⟨lib', hlib'⟩ := settled.loaded hunit
      exact (settled.aligned hunit hlib').faithful (by rw [hfresh unit hnew])
        (hreferences unit hnew)
    · exact booked.faithful hold
  · intro unit hunit reference hreference
    rcases List.mem_append.1 hunit with hnew | hold
    · simp [hreferences unit hnew] at hreference
    · exact anchored' unit hold reference hreference

end LibrarySet

/-! ## Loads -/

/-- Of documents, only the skeletons, the occurrences and the back-links matter. -/
lemma Linkages.Booked.congr {set : LibrarySet} {units units' others : List SourceUnit}
    (booked : Booked set (units ++ others))
    (h : units'.map (fun unit => (unit.skeleton, unit.occurrences, unit.links))
      = units.map fun unit => (unit.skeleton, unit.occurrences, unit.links)) :
    Booked set (units' ++ others) := by
  induction units generalizing units' others with
  | nil =>
    obtain rfl : units' = [] := by simpa using h
    exact booked
  | cons unit rest ih =>
    cases units' with
    | nil => simp at h
    | cons unit' rest' =>
      simp only [List.map_cons, List.cons.injEq, Prod.mk.injEq] at h
      obtain ⟨⟨hskeleton, hoccurrences, hlinks⟩, hrest⟩ := h
      have hfirst := @Linkage.keeps_unit ⟨set, unit⟩ (rest ++ others) ⟨booked.1, booked.2⟩ unit'
        hskeleton hoccurrences hlinks
      have hshuffled : Booked set (rest ++ unit' :: others) :=
        Booked.perm ⟨hfirst.booked.books, hfirst.booked.anchored⟩ List.perm_middle.symm
      exact (ih hshuffled hrest).perm List.perm_middle

lemma record_handOut (report : Report) (units : List SourceUnit) :
    (handOut report units).map (fun unit => (unit.skeleton, unit.occurrences, unit.links))
      = units.map fun unit => (unit.skeleton, unit.occurrences, unit.links) := by
  induction units generalizing report with
  | nil => rfl
  | cons unit rest ih =>
    rw [handOut, List.map_cons, List.map_cons, ih]
    rfl

/-- Checking a library keeps the books. -/
lemma Linkages.Booked.check {set : LibrarySet} {units : List SourceUnit}
    (booked : Booked set units) (library : LibraryId) : Booked (set.check library).1 units := by
  have orderly := booked.1.orderly
  have same := LibrarySet.sameTags_check orderly library
  refine ⟨⟨booked.1.toArranged.check library,
    booked.1.ledger.narrows (same.narrows orderly.identified), booked.1.faithful⟩, ?_⟩
  intro unit hunit reference hreference
  rw [same.references?_eq orderly.identified]
  exact booked.2 unit hunit reference hreference

/-- Loading keeps the books. -/
theorem loadInvariant_booked : LoadInvariant fun set pool units =>
    Linkages.Booked set units ∧ pool.Matches set.project [] where
  settled h := h.1.1.settled
  pool h := h.2
  perm h hperm := ⟨h.1.perm hperm, h.2⟩
  addImport := by
    intro set pool units name h
    have hextends := LibrarySet.extends_addImport h.1.1.orderly name
    exact ⟨hextends.booked h.1.1 h.1.2 (h.1.1.settled.addImport name), h.2⟩
  tidy := by
    intro set pool units library lib tree bench h _ hloaded htidy
    obtain ⟨bench', htidy', hsettled, hpool, hgrows, -, -, hunit⟩ :=
      h.1.1.settled.tidy hloaded h.2 tree
    rw [htidy] at htidy'
    obtain rfl : bench = bench' := by simpa using htidy'
    -- A document that has just been tidied refers to nothing, so the books stay balanced.
    refine ⟨@LibrarySet.Booked.tidy set bench.libraries units h.1.1 h.1.2 library lib hloaded
      [bench.unit] hsettled hgrows ?_, hpool⟩
    intro unit hmem
    rw [List.mem_singleton.1 hmem]
    exact hunit
  finish := by
    intro set pool units batch library options h _ hbatch
    obtain ⟨hset, -⟩ := Linkages.skeleton_finish ⟨set, batch⟩ options library
    have hlinked := h.1.link (fun unit hunit => undeclared_of_skeleton_eq (hbatch unit hunit).2)
      options
    exact ⟨(hlinked.check library).congr (record_handOut _ _),
      h.2.of_skeleton_eq (congrArg LibrarySet.project hset)⟩

/-! ## Teardown -/

/-- A target that no rebuild takes away: it is not the project's, or it is the project's root. -/
def Target.Lasting (target : Target) : Prop :=
  target.library ≠ .project ∨ target = .space ⟨.project, Arena.root⟩

namespace LibrarySet

variable {set set' : LibrarySet} {units others : List SourceUnit} {unit : SourceUnit}

/-- `set.Outlives set'`: lasting targets that exist still exist. -/
def Outlives (set set' : LibrarySet) : Prop :=
  ∀ target, target.Proper → target.Lasting → (∃ refs, set.references? target = some refs) →
    ∃ refs, set'.references? target = some refs

/-- Documents of other libraries refer to lasting targets that exist. -/
def Abroad (set : LibrarySet) (units : List SourceUnit) : Prop :=
  ∀ unit ∈ units, unit.library ≠ .project → ∀ reference ∈ unit.references,
    reference.1.Lasting ∧ ∃ refs, set.references? reference.1 = some refs

lemma Outlives.trans {a b c : LibrarySet} (h : a.Outlives b) (k : b.Outlives c) : a.Outlives c :=
  fun target proper lasting hrefs => k target proper lasting (h target proper lasting hrefs)

lemma SameTags.outlives (same : SameTags set set') (hid : set.Identified) : set.Outlives set' := by
  intro target _ _ hrefs
  rwa [same.references?_eq hid]

lemma Abroad.outlives (abroad : set.Abroad units) (ledger : set.Ledger units)
    (h : set.Outlives set') : set'.Abroad units := by
  intro unit hunit hlibrary reference hreference
  obtain ⟨lasting, hrefs⟩ := abroad unit hunit hlibrary reference hreference
  exact ⟨lasting, h _ (ledger.proper hunit hreference) lasting hrefs⟩

/-- Erasing the back-links of a document leaves those of the others. -/
lemma dropLinks (links : List BackLink) (orderly : set.Orderly)
    (ledger : set.Ledger ({ unit with links } :: others)) :
    (links.foldl Linkage.dropLink set).Ledger ({ unit with links := [] } :: others) ∧
      set.Outlives (links.foldl Linkage.dropLink set) := by
  induction links generalizing set with
  | nil => exact ⟨ledger, fun _ _ _ h => h⟩
  | cons link rest ih =>
    have hstep : (Linkage.dropLink set link).Ledger ({ unit with links := rest } :: others) ∧
        set.Outlives (Linkage.dropLink set link) := by
      cases link with
      | reference target location =>
        have proper : target.Proper := ledger.proper (List.mem_cons_self ..)
          (by simp [SourceUnit.references, BackLink.reference?] : (target, location) ∈ _)
        refine ⟨ledger.erase orderly rfl, ?_⟩
        intro other hother _ hrefs
        obtain ⟨refs, hrefs⟩ := hrefs
        rw [Linkage.dropLink, orderly.references?_overReferences _ proper hother, hrefs]
        split <;> exact ⟨_, rfl⟩
      | implementor base heir =>
        have same := sameTags_overImplementors orderly.identified base (·.filter (· ≠ heir))
        exact ⟨(ledger.narrows (same.narrows orderly.identified)).congr rfl,
          same.outlives orderly.identified⟩
    obtain ⟨ledger₁, outlives₁⟩ := hstep
    obtain ⟨ledger₂, outlives₂⟩ := ih (keepsOrder_dropLink orderly link).orderly ledger₁
    exact ⟨ledger₂, outlives₁.trans outlives₂⟩

/-- Resetting a declaration takes its members away and nothing else. -/
lemma narrows_reset (orderly : set.Orderly) {id : DeclId} (htop : id.category.isMember = false) :
    set.Narrows (set.edit id .reset) ∧
      (id.library = .project → set.Outlives (set.edit id .reset)) := by
  have htags := tags?_reset orderly htop
  have hid := orderly.identified.edit id Edit.reset
  refine ⟨?_, ?_⟩
  · intro target refs _ hrefs
    cases target with
    | declaration other =>
      rw [references?_declaration hid, htags] at hrefs
      rw [references?_declaration orderly.identified]
      split at hrefs
      · cases hold : set.tags? other.library other.seat.1 other.seat.2 with
        | none => simp [hold] at hrefs
        | some tags =>
          simp only [hold, Option.map_some, Option.bind_some, Tags.part?] at hrefs ⊢
          -- After the reset the record has no members, so what is left is the record itself.
          cases howner : other.owner? with
          | none => simpa [howner, Tags.bare] using hrefs
          | some owner =>
            rw [howner] at hrefs
            obtain ⟨tag, htag, -⟩ := Option.map_eq_some_iff.1 hrefs
            obtain ⟨list, hlist, hget⟩ := Option.bind_eq_some_iff.1 htag
            rw [Tags.bare_bare tags _ hlist] at hget
            simp at hget
      · exact hrefs
    | space ref => rwa [references?, space?_edit] at hrefs
  · intro hproject target _ lasting hrefs
    cases target with
    | declaration other =>
      have hne : other.library ≠ .project := by
        rcases lasting with h | h
        · exact h
        · cases h
      rw [references?_declaration hid, htags, if_neg, ← references?_declaration orderly.identified]
      · exact hrefs
      · exact fun h => hne (h.1 ▸ hproject)
    | space ref => rwa [references?, space?_edit]

/-- Resetting all declarations of a document. -/
lemma narrows_resetAll (decls : List DeclId) (orderly : set.Orderly)
    (htop : ∀ id ∈ decls, id.category.isMember = false ∧ id.library = .project) :
    set.Narrows (decls.foldl (fun set id => set.edit id .reset) set) ∧
      set.Outlives (decls.foldl (fun set id => set.edit id .reset) set) := by
  induction decls generalizing set with
  | nil => exact ⟨fun _ h => h, fun _ _ _ h => h⟩
  | cons id rest ih =>
    obtain ⟨hmember, hproject⟩ := htop id (List.mem_cons_self ..)
    obtain ⟨narrows₁, outlives₁⟩ := narrows_reset orderly hmember
    obtain ⟨narrows₂, outlives₂⟩ := ih (keepsOrder_reset orderly hmember).1.orderly
      fun other hother => htop other (List.mem_cons_of_mem _ hother)
    exact ⟨fun proper h => narrows₁ proper (narrows₂ proper h),
      (outlives₁ hproject).trans outlives₂⟩

/-- Unlinking a document of the project. -/
lemma Booked.unlink (booked : set.Booked (unit :: others)) (hproject : unit.library = .project) :
    (Linkage.unlink ⟨set, unit⟩).libraries.Booked ((Linkage.unlink ⟨set, unit⟩).unit :: others) ∧
      set.Outlives (Linkage.unlink ⟨set, unit⟩).libraries := by
  have arranged := booked.toArranged.unlink
  obtain ⟨ledger₁, outlives₁⟩ := dropLinks unit.links booked.orderly booked.ledger
  have hlinks := KeepsOrder.foldl unit.links
    (fun _ orderly link _ => keepsOrder_dropLink orderly link) booked.orderly
  have htop : ∀ id ∈ unit.declarations, id.category.isMember = false ∧ id.library = .project := by
    intro id hid
    obtain ⟨heq, hmember, -⟩ := booked.settled.declared (List.mem_cons_self ..) hid
    exact ⟨hmember, (congrArg DeclId.library heq).trans hproject⟩
  obtain ⟨narrows₂, outlives₂⟩ := narrows_resetAll unit.declarations hlinks.orderly htop
  have hreferences : (Linkage.unlink ⟨set, unit⟩).unit.references = [] := rfl
  refine ⟨⟨arranged, (ledger₁.narrows narrows₂).congr rfl, ?_⟩, outlives₁.trans outlives₂⟩
  intro other hother
  rcases List.mem_cons.1 hother with rfl | hother
  · obtain ⟨lib, hlib⟩ := arranged.settled.loaded (List.mem_cons_self ..)
    refine (arranged.settled.aligned (List.mem_cons_self ..) hlib).faithful ?_ hreferences
    simp [SourceUnit.skeleton, Linkage.unlink]
  · exact booked.faithful (List.mem_cons_of_mem _ hother)

end LibrarySet

end SymbolGraph
