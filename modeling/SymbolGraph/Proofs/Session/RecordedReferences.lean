import SymbolGraph.Proofs.Session.LinkLog

/-!
# Which document has a reference on record

Writing down a reference, linking looks whether its place is new to the target.  Only then does the
document get an occurrence, and the back-link by which it takes the place away again.  A place is a
path and a range, without a library; so of several documents that share a path and refer to one
declaration at one range, only the first has the reference on record.

That is all that goes wrong: a type that has led to one declaration is on record for its document
and among the references of the declaration, unless another document with the same path has recorded
the place by the end of the same linking (`Session.resolved_types_recorded`).  The books decide it,
in which every reference is the record of exactly one document (`LibrarySet.Ledger`); the journal of
the run tells what stood in the session at that time.
-/

namespace SymbolGraph

/-! ## One document for each reference -/

/-- The document refers to the target at the range. -/
def SourceUnit.Refers (unit : SourceUnit) (target : Target) (range : Range) : Prop :=
  ∃ occurrence ∈ unit.occurrences, occurrence.range = range ∧ occurrence.target = target ∧
    occurrence.definition = false

/-- One of the documents other than the `i`-th refers to the target from the same place. -/
def TakenElsewhere (units : List SourceUnit) (i : Nat) (target : Target)
    (place : Location) : Prop :=
  ∃ (j : Nat) (other : SourceUnit), j ≠ i ∧ units[j]? = some other ∧ other.path = place.document ∧
    other.Refers target place.range

lemma SourceUnit.Faithful.refers_iff {unit : SourceUnit} (faithful : unit.Faithful)
    {target : Target} {range : Range} :
    unit.Refers target range ↔ ⟨unit.path, range⟩ ∈ unit.pointers target := by
  rw [SourceUnit.mem_pointers, ← faithful, List.mem_map]
  constructor
  · rintro ⟨occurrence, hoccurrence, rfl, rfl, hdefinition⟩
    exact ⟨occurrence, List.mem_filter.2 ⟨hoccurrence, by simpa using hdefinition⟩, rfl⟩
  · rintro ⟨occurrence, hmem, heq⟩
    obtain ⟨hoccurrence, hdefinition⟩ := List.mem_filter.1 hmem
    obtain ⟨htarget, hplace⟩ := Prod.mk.inj heq
    exact ⟨occurrence, hoccurrence, (Location.mk.inj hplace).2, htarget, by simpa using hdefinition⟩

/-- What a document has on record names its path. -/
lemma SourceUnit.Faithful.path_eq {unit : SourceUnit} (faithful : unit.Faithful) {target : Target}
    {place : Location} (h : place ∈ unit.pointers target) : place.document = unit.path := by
  rw [SourceUnit.mem_pointers, ← faithful, List.mem_map] at h
  obtain ⟨occurrence, -, heq⟩ := h
  exact congrArg (Location.document ∘ Prod.snd) heq.symm

/-- If the lists of all elements have nothing in common, then each member is from one place. -/
lemma eq_of_nodup_flatMap {α β : Type} {f : α → List β} {xs : List α} (h : (xs.flatMap f).Nodup)
    {i j : Nat} {x y : α} (hx : xs[i]? = some x) (hy : xs[j]? = some y) {b : β} (hbx : b ∈ f x)
    (hby : b ∈ f y) : i = j := by
  have hapart := List.pairwise_iff_getElem.1 (List.nodup_flatMap.1 h).2
  obtain ⟨hi, rfl⟩ := List.getElem?_eq_some_iff.1 hx
  obtain ⟨hj, rfl⟩ := List.getElem?_eq_some_iff.1 hy
  rcases Nat.lt_trichotomy i j with hlt | heq | hlt
  · exact absurd hby (hapart i j hi hj hlt hbx)
  · exact heq
  · exact absurd hbx (hapart j i hj hi hlt hby)

/-- Of the documents that refer to a target from one place, exactly one has it on record. -/
lemma LibrarySet.Booked.refers_iff {set : LibrarySet} {units : List SourceUnit}
    (booked : set.Booked units) {i : Nat} {unit : SourceUnit} (hunit : units[i]? = some unit)
    {target : Target} {range : Range} (hcites : set.Cites target ⟨unit.path, range⟩) :
    unit.Refers target range ↔ ¬ TakenElsewhere units i target ⟨unit.path, range⟩ := by
  obtain ⟨proper, refs, hrefs, hmem⟩ := hcites
  obtain ⟨hnodup, hperm⟩ := booked.ledger.exact proper hrefs
  constructor
  · rintro hrefers ⟨j, other, hne, hother, hpath, hrefers'⟩
    have hplace := (booked.faithful (List.mem_of_getElem? hunit)).refers_iff.1 hrefers
    have hplace' := (booked.faithful (List.mem_of_getElem? hother)).refers_iff.1 hrefers'
    rw [hpath] at hplace'
    exact hne (eq_of_nodup_flatMap (hperm.nodup_iff.1 hnodup) hother hunit hplace' hplace)
  · intro hfree
    obtain ⟨other, hother, hplace⟩ := List.mem_flatMap.1 (hperm.mem_iff.1 hmem)
    obtain ⟨j, hj⟩ := List.mem_iff_getElem?.1 hother
    have faithful := booked.faithful hother
    have hpath : unit.path = other.path := faithful.path_eq hplace
    by_cases heq : j = i
    · subst heq
      obtain rfl : unit = other := by simpa [hunit] using hj
      exact faithful.refers_iff.2 hplace
    · refine absurd ⟨j, other, heq, hj, hpath.symm, ?_⟩ hfree
      rw [hpath] at hplace
      exact faithful.refers_iff.2 hplace

/-! ## Linkings -/

namespace Linking

variable {linking : Linking}

/-- When the documents are linked, another one than the `i`-th has the place on record. -/
def Taken (linking : Linking) (i : Nat) (target : Target) (place : Location) : Prop :=
  TakenElsewhere (linking.linked.units ++ linking.others) i target place

/-- A linked document has a place on record that is among the references of the target, unless
another document has. -/
lemma Fit.refers_iff (fit : linking.Fit) {i : Nat} {unit : SourceUnit}
    (hunit : linking.linked.units[i]? = some unit) {target : Target} {range : Range}
    (hcites : linking.linked.libraries.Cites target ⟨unit.path, range⟩) :
    unit.Refers target range ↔ ¬ linking.Taken i target ⟨unit.path, range⟩ := by
  obtain ⟨pending, hpending, hbooked⟩ := fit.booked
  obtain ⟨booked, -⟩ := (Linkages.Booked.link hbooked fit.undeclared linking.options).perm
    (show (linking.linked.units ++ (pending ++ linking.others)).Perm
      ((linking.linked.units ++ linking.others) ++ pending) by
        rw [List.append_assoc]
        exact List.perm_append_comm.append_left _)
  have hstood : (linking.linked.units ++ linking.others)[i]? = some unit := by
    rw [List.getElem?_append_left (List.getElem?_eq_some_iff.1 hunit).1, hunit]
  have hall : ((linking.linked.units ++ linking.others) ++ pending)[i]? = some unit := by
    rw [List.getElem?_append_left (List.getElem?_eq_some_iff.1 hstood).1, hstood]
  rw [booked.refers_iff hall hcites]
  refine not_congr ⟨?_, ?_⟩
  · rintro ⟨j, other, hne, hother, hpath, hrefers⟩
    refine ⟨j, other, hne, ?_, hpath, hrefers⟩
    rw [List.getElem?_append] at hother
    split at hother
    · exact hother
    · -- What is still waiting to be linked has nothing on record.
      have hmem := List.mem_of_getElem? hother
      have faithful := booked.faithful (List.mem_append_right _ hmem)
      have hplace := faithful.refers_iff.1 hrefers
      simp [SourceUnit.pointers, SourceUnit.references, hpending other hmem] at hplace
  · rintro ⟨j, other, hne, hother, hpath, hrefers⟩
    refine ⟨j, other, hne, ?_, hpath, hrefers⟩
    rw [List.getElem?_append_left (List.getElem?_eq_some_iff.1 hother).1, hother]

/-- The documents that a linking has left are those that it was given, as far as tidying made
them. -/
lemma Left.exists_units {units : List SourceUnit} (left : linking.Left units) {i : Nat}
    {unit : SourceUnit} (hunit : units[i]? = some unit) : ∃ given linked,
      linking.units[i]? = some given ∧ given.tree = unit.tree ∧
      linking.linked.units[i]? = some linked ∧ linked.tree = unit.tree ∧
      linked.occurrences = unit.occurrences := by
  obtain ⟨-, hskeletons⟩ := Linkages.skeleton_link ⟨linking.libraries, linking.units⟩
    linking.options
  have hrecord := congrArg (·[i]?) left
  simp only [List.getElem?_map, hunit, Option.map_some] at hrecord
  obtain ⟨linked, hlinked, heq⟩ := Option.map_eq_some_iff.1 hrecord.symm
  obtain ⟨hskeleton, heq⟩ := Prod.mk.inj heq
  have hgiven := congrArg (·[i]?) hskeletons
  simp only [List.getElem?_map] at hgiven
  rw [show (Linkages.link ⟨linking.libraries, linking.units⟩ linking.options).units[i]?
    = some linked from hlinked, Option.map_some] at hgiven
  obtain ⟨given, hgiven, hsame⟩ := Option.map_eq_some_iff.1 hgiven.symm
  exact ⟨given, linked, hgiven, SourceUnit.tree_of_skeleton_eq (hsame.trans hskeleton), hlinked,
    SourceUnit.tree_of_skeleton_eq hskeleton, (Prod.mk.inj heq).1⟩

/-- What a linking has found for one of its documents is on record for the document, unless another
one has the place. -/
lemma Fit.recorded (fit : linking.Fit) {units : List SourceUnit} (left : linking.Left units)
    {i : Nat} {unit : SourceUnit} (hunit : units[i]? = some unit) :
    ∃ inquiries, linking.inquiries[i]? = some inquiries ∧
      (inquiries.map Inquiry.ty).Perm unit.tree.types ∧
      ∀ inquiry ∈ inquiries, ∀ id, inquiry.declarations = [id] →
        ∃ name, inquiry.ty.name? = some name ∧ (unit.Refers (.declaration id) name.range ↔
          ¬ linking.Taken i (.declaration id) ⟨unit.path, name.range⟩) := by
  obtain ⟨given, linked, hgiven, htree, hlinked, htree', hoccurrences⟩ := left.exists_units hunit
  obtain ⟨pending, -, booked⟩ := fit.booked
  obtain ⟨inquiries, hinquiries, htypes, hanswers⟩ :=
    Linkages.answers_link booked.1.toArranged fit.undeclared linking.options hgiven
  refine ⟨inquiries, hinquiries, htree ▸ htypes, fun inquiry hinquiry id hid => ?_⟩
  obtain ⟨name, hname, hcites⟩ := hanswers inquiry hinquiry id hid
  have hpath : given.path = unit.path := congrArg FileTree.path htree
  have hpath' : linked.path = unit.path := congrArg FileTree.path htree'
  refine ⟨name, hname, ?_⟩
  rw [hpath, ← hpath'] at hcites
  have hrefers := fit.refers_iff hlinked hcites
  rw [hpath'] at hrefers
  rw [← hrefers, SourceUnit.Refers, SourceUnit.Refers, hoccurrences]

end Linking

/-! ## Runs -/

/-- What a document has on record is among the references of its target. -/
lemma Linkages.Booked.cites_of_refers {set : LibrarySet} {units : List SourceUnit}
    (booked : Linkages.Booked set units) {unit : SourceUnit} (hunit : unit ∈ units)
    {target : Target}
    {range : Range} (hrefers : unit.Refers target range) : set.Cites target ⟨unit.path, range⟩ := by
  obtain ⟨books, anchored⟩ := booked
  have hplace := (books.faithful hunit).refers_iff.1 hrefers
  have hreference := SourceUnit.mem_pointers.1 hplace
  have proper := books.ledger.proper hunit hreference
  obtain ⟨refs, hrefs⟩ := anchored unit hunit _ hreference
  obtain ⟨-, hperm⟩ := books.ledger.exact proper hrefs
  exact ⟨proper, refs, hrefs, hperm.mem_iff.2 (List.mem_flatMap_of_mem hunit hplace)⟩

namespace Session

/-- Right after a rebuild in any run, as long as no other library names the project: every type in
every document that led to one declaration when the document was last linked is on record for the
document and among the references of the declaration, unless another document with the same path had
recorded the place by the end of that linking. -/
theorem resolved_types_recorded (manifest : Manifest) (sources : Sources) :
    ∃ initial, Session.start manifest sources = .ok initial ∧ ∀ requests : List Request,
      let session := (initial.run requests).rebuild.1
      session.Quiet →
        (∀ unit ∈ session.units, ∃ library units,
          session.documents? library = some units ∧ unit ∈ units) ∧
        ∀ library units, session.documents? library = some units →
          ∀ (i : Nat) (unit : SourceUnit), units[i]? = some unit → ∃ linking,
            Linking.last? library (journal manifest sources initial (requests ++ [.rebuild]))
              = some linking ∧ linking.Left units ∧
            ∃ inquiries, linking.inquiries[i]? = some inquiries ∧
              (inquiries.map Inquiry.ty).Perm unit.tree.types ∧
              ∀ inquiry ∈ inquiries, ∀ id, inquiry.declarations = [id] →
                ∃ name, inquiry.ty.name? = some name ∧
                  ((unit.Refers (.declaration id) name.range ∧
                      session.libraries.Cites (.declaration id) ⟨unit.path, name.range⟩) ↔
                    ¬ linking.Taken i (.declaration id) ⟨unit.path, name.range⟩) := by
  obtain ⟨initial, hstart, hrun⟩ := journaled_journal manifest sources
  refine ⟨initial, hstart, fun requests => ?_⟩
  have hlast : (initial.run requests).rebuild.1 = initial.run (requests ++ [.rebuild]) := by
    rw [run, run, List.foldl_append]
    rfl
  intro session quiet
  obtain ⟨balanced, journaled⟩ : session.Balanced ∧
      Journaled (journal manifest sources initial (requests ++ [.rebuild]))
        (unloaded manifest sources) session := by
    have h := hrun (requests ++ [.rebuild])
    rw [← hlast] at h
    exact h quiet
  have ranked : session.Ranked := journaled.ranked ⟨by simp [unloaded], by simp [unloaded]⟩
  refine ⟨fun unit hunit => ranked.exists_documents hunit,
    fun library units hunits i unit hunit => ?_⟩
  -- The documents of a library are those that its last linking has left, or there are none.
  rcases journaled.documents library units hunits with ⟨linking, hlinking, left⟩ | ⟨-, hold⟩
  · have fit := journaled.fit linking (Linking.last?_mem hlinking).1
    obtain ⟨inquiries, hinquiries, htypes, hrecorded⟩ := fit.recorded left hunit
    refine ⟨linking, hlinking, left, inquiries, hinquiries, htypes,
      fun inquiry hinquiry id hid => ?_⟩
    obtain ⟨name, hname, hrefers⟩ := hrecorded inquiry hinquiry id hid
    have hmem := mem_units_of_documents hunits (List.mem_of_getElem? hunit)
    exact ⟨name, hname, (and_iff_left_of_imp fun h =>
      balanced.booked.cites_of_refers hmem h).trans hrefers⟩
  · rw [eq_nil_of_documents_unloaded hold] at hunit
    cases hunit

/-- What a run shows of other libraries (their trees, next to the name of the project), of the
documents of the project (their occurrences) and of their last linking (what it has looked up). -/
def shown (manifest : Manifest) (sources : Sources) (requests : List Request) :
    Option ((String × List FileTree) × Option (List (List Occurrence)) ×
      Option (List (List (List DeclId × TypeRef)))) :=
  (start manifest sources).toOption.map fun initial =>
    let session := initial.run requests
    ((session.manifest.name, session.foreign.values.flatten.map SourceUnit.tree),
      (session.documents? .project).map (List.map SourceUnit.occurrences),
      (Linking.last? .project (journal manifest sources initial requests)).map fun linking =>
        linking.inquiries.map (List.map fun inquiry => (inquiry.declarations, inquiry.ty)))

/-- A run in which the project has one document, and one type in it that leads to one
declaration. -/
lemma of_shown {manifest : Manifest} {sources : Sources} {requests : List Request}
    {trees : List FileTree} {occurrences : List Occurrence} {id : DeclId} {ty : TypeRef}
    (h : shown manifest sources requests
      = some ((manifest.name, trees), some [occurrences], some [[([id], ty)]]))
    (htrees : ∀ tree ∈ trees, tree.Shuns manifest.name) {initial : Session}
    (hstart : start manifest sources = .ok initial) :
    let session := initial.run requests
    session.Quiet ∧ ∃ unit linking inquiry, session.documents? .project = some [unit] ∧
      unit.occurrences = occurrences ∧
      Linking.last? .project (journal manifest sources initial requests) = some linking ∧
      linking.inquiries = [[inquiry]] ∧ inquiry.declarations = [id] ∧ inquiry.ty = ty := by
  rw [shown, hstart] at h
  obtain ⟨hforeign, h⟩ := Prod.mk.inj (Option.some.inj h)
  obtain ⟨hname, htrees'⟩ := Prod.mk.inj hforeign
  obtain ⟨hdocuments, hlooked⟩ := Prod.mk.inj h
  obtain ⟨units, hunits, hoccurrences⟩ := Option.map_eq_some_iff.1 hdocuments
  obtain ⟨unit, rfl, hunit⟩ := List.map_eq_singleton_iff.1 hoccurrences
  obtain ⟨linking, hlinking, hinquiries⟩ := Option.map_eq_some_iff.1 hlooked
  obtain ⟨inquiries, hsingle, hmap⟩ := List.map_eq_singleton_iff.1 hinquiries
  obtain ⟨inquiry, rfl, hinquiry⟩ := List.map_eq_singleton_iff.1 hmap
  obtain ⟨hid, hty⟩ := Prod.mk.inj hinquiry
  refine ⟨fun other hother => ?_, unit, linking, inquiry, hunits, hunit,
    hlinking, hsingle, hid, hty⟩
  rw [hname]
  exact htrees other.tree (htrees' ▸ List.mem_map_of_mem hother)

lemma shuns_bitKernel : ∀ tree ∈ bitKernel.libraries.values.flatten, tree.Shuns "demo" := by
  intro tree htree
  rw [List.mem_singleton.1 htree]
  exact ⟨by decide, by simp [FileTree.types, DeclNode.types, SpaceNode.nodes, SpaceNode.nodesOf]⟩

set_option maxRecDepth 20000 in
lemma shown_flag :
    shown (.new "demo") bitKernel [.insert flagTree, .changed "main.rk", .rebuild]
      = some (("demo", bitKernel.libraries.values.flatten),
        some [[⟨⟨⟨0, 4⟩, ⟨0, 8⟩⟩, .declaration ⟨.project, .variable, 0, none⟩, true, false⟩,
          ⟨⟨⟨0, 0⟩, ⟨0, 3⟩⟩, .declaration ⟨.kernel, .struct, 0, none⟩, false, true⟩]],
        some [[([⟨.kernel, .struct, 0, none⟩], ⟨[⟨"bit", ⟨⟨0, 0⟩, ⟨0, 3⟩⟩⟩], 0,
          ⟨⟨0, 0⟩, ⟨0, 3⟩⟩⟩)]]) := by
  cbv

/-- The variable `flag` has its type on record. -/
theorem resolved_types_recorded_flag :
    ∃ initial, Session.start (.new "demo") bitKernel = .ok initial ∧
      let session := (initial.run [.insert flagTree, .changed "main.rk"]).rebuild.1
      session.Quiet ∧ ∃ unit linking inquiries inquiry,
        session.documents? .project = some [unit] ∧
        Linking.last? .project (journal (.new "demo") bitKernel initial
          [.insert flagTree, .changed "main.rk", .rebuild]) = some linking ∧
        linking.inquiries[0]? = some inquiries ∧ inquiry ∈ inquiries ∧
        inquiry.declarations = [⟨.kernel, .struct, 0, none⟩] ∧
        ∃ name, inquiry.ty.name? = some name ∧
          unit.Refers (.declaration ⟨.kernel, .struct, 0, none⟩) name.range ∧
          session.libraries.Cites (.declaration ⟨.kernel, .struct, 0, none⟩)
            ⟨unit.path, name.range⟩ ∧
          ¬ linking.Taken 0 (.declaration ⟨.kernel, .struct, 0, none⟩) ⟨unit.path, name.range⟩ := by
  obtain ⟨initial, hstart, hrecorded⟩ := resolved_types_recorded (.new "demo") bitKernel
  obtain ⟨quiet, unit, linking, inquiry, hunits, hoccurrences, hlinking, hinquiries, hid, hty⟩ :=
    of_shown shown_flag shuns_bitKernel hstart
  obtain ⟨-, hdocuments⟩ := hrecorded [.insert flagTree, .changed "main.rk"] quiet
  obtain ⟨linking', hlinking', -, inquiries, hinquiries', -, hrecord⟩ :=
    hdocuments .project [unit] hunits 0 unit rfl
  obtain rfl : linking = linking' := Option.some.inj (hlinking.symm.trans hlinking')
  obtain rfl : [inquiry] = inquiries := by
    rw [hinquiries] at hinquiries'
    exact Option.some.inj hinquiries'
  obtain ⟨name, hname, hiff⟩ := hrecord inquiry (List.mem_singleton.2 rfl) _ hid
  obtain rfl : name = ⟨"bit", ⟨⟨0, 0⟩, ⟨0, 3⟩⟩⟩ := by
    rw [hty] at hname
    exact (Option.some.inj hname).symm
  have hrefers : unit.Refers (.declaration ⟨.kernel, .struct, 0, none⟩) ⟨⟨0, 0⟩, ⟨0, 3⟩⟩ := by
    rw [SourceUnit.Refers, hoccurrences]
    exact ⟨_, List.mem_cons_of_mem _ (List.mem_singleton.2 rfl), rfl, rfl, rfl⟩
  obtain ⟨initial', hstart', hbalanced⟩ := balanced_run (.new "demo") bitKernel
  obtain rfl : initial = initial' := Except.ok.inj (hstart.symm.trans hstart')
  have balanced := (hbalanced [.insert flagTree, .changed "main.rk", .rebuild]).2 quiet
  have hcites := balanced.booked.cites_of_refers
    (mem_units_of_documents hunits (List.mem_singleton.2 rfl)) hrefers
  exact ⟨initial, hstart, quiet, unit, linking, [inquiry], inquiry, hunits, hlinking,
    by rw [hinquiries]; rfl, List.mem_singleton.2 rfl, hid, _, hname, hrefers, hcites,
    hiff.1 ⟨hrefers, hcites⟩⟩

/-- A kernel with one struct, `K`, and a library and a project that have the same document:
a variable `X` of type `K`. -/
def twinTree : FileTree :=
  ⟨"a.rk", ⟨none, [], [], [.variable ⟨.pub, false, ⟨"X", ⟨⟨1, 4⟩, ⟨1, 5⟩⟩⟩,
    ⟨[⟨"K", ⟨⟨0, 4⟩, ⟨0, 5⟩⟩⟩], 0, ⟨⟨0, 4⟩, ⟨0, 5⟩⟩⟩⟩]⟩⟩

def twinManifest : Manifest := { name := "app", libraries := ["lib"] }

def twinSources : Sources :=
  { documents := [twinTree]
    libraries := [("kernel", [⟨"k.rk",
        ⟨none, [], [], [.struct ⟨.pub, ⟨"K", ⟨⟨0, 4⟩, ⟨0, 5⟩⟩⟩, [], []⟩]⟩⟩]),
      ("lib", [twinTree])] }

set_option maxRecDepth 20000 in
lemma shown_twin : shown twinManifest twinSources [.load "lib", .changed "a.rk", .rebuild]
    = some (("app", twinSources.libraries.values.flatten),
      some [[⟨⟨⟨1, 4⟩, ⟨1, 5⟩⟩, .declaration ⟨.project, .variable, 0, none⟩, true, false⟩]],
      some [[([⟨.kernel, .struct, 0, none⟩], ⟨[⟨"K", ⟨⟨0, 4⟩, ⟨0, 5⟩⟩⟩], 0,
        ⟨⟨0, 4⟩, ⟨0, 5⟩⟩⟩)]]) := by
  cbv

lemma shuns_twin : ∀ tree ∈ twinSources.libraries.values.flatten, tree.Shuns "app" := by
  intro tree htree
  rcases List.mem_cons.1 htree with rfl | htree
  · exact ⟨by decide, by simp [FileTree.types, DeclNode.types, SpaceNode.nodes, SpaceNode.nodesOf]⟩
  · rw [List.mem_singleton.1 htree]
    exact ⟨by decide, by
      simp [twinTree, FileTree.types, DeclNode.types, SpaceNode.nodes, SpaceNode.nodesOf]⟩

/-- The document of the project comes second: its type has led to `K`, and it does not have it on
record. -/
theorem twin_unrecorded :
    ∃ initial, Session.start twinManifest twinSources = .ok initial ∧
      let session := (initial.run [.load "lib", .changed "a.rk"]).rebuild.1
      session.Quiet ∧ ∃ unit linking inquiries inquiry,
        session.documents? .project = some [unit] ∧
        Linking.last? .project (journal twinManifest twinSources initial
          [.load "lib", .changed "a.rk", .rebuild]) = some linking ∧
        linking.inquiries[0]? = some inquiries ∧ inquiry ∈ inquiries ∧
        inquiry.declarations = [⟨.kernel, .struct, 0, none⟩] ∧
        ∃ name, inquiry.ty.name? = some name ∧ ∀ occurrence ∈ unit.occurrences,
          ¬ (occurrence.range = name.range ∧
            occurrence.target = .declaration ⟨.kernel, .struct, 0, none⟩) := by
  obtain ⟨initial, hstart, -⟩ := balanced_run twinManifest twinSources
  obtain ⟨quiet, unit, linking, inquiry, hunits, hoccurrences, hlinking, hinquiries, hid, hty⟩ :=
    of_shown shown_twin shuns_twin hstart
  refine ⟨initial, hstart, quiet, unit, linking, [inquiry], inquiry, hunits, hlinking,
    by rw [hinquiries]; rfl, List.mem_singleton.2 rfl, hid, ⟨"K", ⟨⟨0, 4⟩, ⟨0, 5⟩⟩⟩,
    by rw [hty]; rfl, ?_⟩
  rw [hoccurrences]
  decide

end Session

end SymbolGraph
