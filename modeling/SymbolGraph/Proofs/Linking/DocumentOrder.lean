import SymbolGraph.Proofs.Linking.LinkUnlink
import SymbolGraph.Proofs.Linking.SimilarModels

/-!
# Linking does not depend on the order of documents

Each link pass writes into the model for one document before it reads the model for the next.  Still
no pass reads what it writes itself (`Linkage.Indifferent`): import directives are resolved in
the namespace tree, members are made from headers, bases are found by headers, and signatures are
found by headers, members and bases.  So two documents that follow each other can change places in a
pass, and by induction the documents can be put in any order (`Linkages.each_perm`).

Through all four passes, documents in another order give the same model, up to the order of
references and heirs, and the same documents, up to the places that reports point to
(`Linkages.link_perm`).  The paths of the documents have to differ, since a place names a document
by its path alone.
-/

namespace SymbolGraph

/-! ## Passes that are indifferent to order -/

namespace Linkage

/-- A pass over documents with the property `Q` makes the same of each document in models that are
alike, and also when another document comes first; and two documents can change places. -/
structure Indifferent (Q : SourceUnit → Prop) (pass : Linkage → Linkage) : Prop where
  arranged : ∀ {set unit others}, set.Arranged (unit :: others) → Q unit →
    (pass ⟨set, unit⟩).libraries.Arranged ((pass ⟨set, unit⟩).unit :: others)
  alike : ∀ {set set' unit unit' others others'}, set.Arranged (unit :: others) →
    set'.Arranged (unit' :: others') → Q unit → Q unit' → set.Resembles set' →
    unit'.plain = unit.plain →
    (pass ⟨set, unit⟩).libraries.Resembles (pass ⟨set', unit'⟩).libraries ∧
      (pass ⟨set', unit'⟩).unit.plain = (pass ⟨set, unit⟩).unit.plain
  first : ∀ {set a b others}, set.Arranged (a :: b :: others) → Q a → Q b → a.path ≠ b.path →
    (pass ⟨(pass ⟨set, a⟩).libraries, b⟩).unit.plain = (pass ⟨set, b⟩).unit.plain
  swap : ∀ {set a b others}, set.Arranged (a :: b :: others) → Q a → Q b → a.path ≠ b.path →
    (pass ⟨(pass ⟨set, a⟩).libraries, b⟩).libraries.Resembles
      (pass ⟨(pass ⟨set, b⟩).libraries, a⟩).libraries

lemma Indifferent.mono {Q Q' : SourceUnit → Prop} {pass : Linkage → Linkage}
    (indifferent : Indifferent Q pass) (h : ∀ unit, Q' unit → Q unit) : Indifferent Q' pass where
  arranged arranged hunit := indifferent.arranged arranged (h _ hunit)
  alike arranged arranged' hunit hunit' :=
    indifferent.alike arranged arranged' (h _ hunit) (h _ hunit')
  first arranged ha hb := indifferent.first arranged (h _ ha) (h _ hb)
  swap arranged ha hb := indifferent.swap arranged (h _ ha) (h _ hb)

end Linkage

namespace Linkages

variable {Q : SourceUnit → Prop} {pass : Linkage → Linkage} {set set' : LibrarySet}
  {units units' others others' : List SourceUnit}

/-- The two groups of documents, with their models, are the same up to order. -/
structure Resembles (state state' : Linkages) : Prop where
  libraries : state.libraries.Resembles state'.libraries
  units : (state.units.map SourceUnit.plain).Perm (state'.units.map SourceUnit.plain)

lemma Resembles.trans {a b c : Linkages} (h : a.Resembles b) (k : b.Resembles c) : a.Resembles c :=
  ⟨h.libraries.trans k.libraries, h.units.trans k.units⟩

lemma each_resembles (indifferent : Linkage.Indifferent Q pass)
    (h : units'.map SourceUnit.plain = units.map SourceUnit.plain)
    (arranged : set.Arranged (units ++ others)) (arranged' : set'.Arranged (units' ++ others'))
    (hQ : ∀ unit ∈ units, Q unit) (hQ' : ∀ unit ∈ units', Q unit) (alike : set.Resembles set') :
    (each pass set units).Resembles (each pass set' units') := by
  induction units generalizing set set' units' others others' with
  | nil =>
    obtain rfl : units' = [] := by simpa using h
    exact ⟨alike, .refl _⟩
  | cons unit rest ih =>
    obtain ⟨unit', rest', rfl⟩ : ∃ unit' rest', units' = unit' :: rest' :=
      List.exists_cons_of_ne_nil (by rintro rfl; simp at h)
    rw [List.map_cons, List.map_cons, List.cons.injEq] at h
    have hunit := hQ unit List.mem_cons_self
    have hunit' := hQ' unit' List.mem_cons_self
    -- The induction is on the documents, with the model general: each step hands on two models that
    -- resemble each other.
    obtain ⟨hset, hplain⟩ := indifferent.alike arranged arranged' hunit hunit' alike h.1
    obtain ⟨hlibraries, hunits⟩ := ih h.2
      ((indifferent.arranged arranged hunit).perm List.perm_middle.symm)
      ((indifferent.arranged arranged' hunit').perm List.perm_middle.symm)
      (fun other hother => hQ other (List.mem_cons_of_mem _ hother))
      (fun other hother => hQ' other (List.mem_cons_of_mem _ hother)) hset
    refine ⟨hlibraries, ?_⟩
    rw [each, each, List.map_cons, List.map_cons, hplain]
    exact hunits.cons _

/-- A pass over documents in another order. -/
theorem each_perm (indifferent : Linkage.Indifferent Q pass) (hperm : units.Perm units')
    (arranged : set.Arranged (units ++ others)) (hQ : ∀ unit ∈ units, Q unit)
    (hpaths : (units.map SourceUnit.path).Nodup) :
    (each pass set units).Resembles (each pass set units') := by
  induction hperm generalizing set others with
  | nil => exact ⟨.refl _, .refl _⟩
  | cons unit hrest ih =>
    have hunit := hQ unit List.mem_cons_self
    obtain ⟨hlibraries, hunits⟩ := ih
      ((indifferent.arranged arranged hunit).perm List.perm_middle.symm)
      (fun other hother => hQ other (List.mem_cons_of_mem _ hother)) (List.nodup_cons.1 hpaths).2
    exact ⟨hlibraries, hunits.cons _⟩
  | swap a b rest =>
    have ha : Q a := hQ a (List.mem_cons_of_mem _ List.mem_cons_self)
    have hb : Q b := hQ b List.mem_cons_self
    have hne : b.path ≠ a.path := by
      rw [List.map_cons, List.map_cons, List.nodup_cons, List.mem_cons, not_or] at hpaths
      exact hpaths.1.1
    have arranged' : set.Arranged (a :: b :: (rest ++ others)) := arranged.perm (.swap ..)
    -- the model when both documents are done, in either order
    have hdone {a b : SourceUnit} (ha : Q a) (hb : Q b)
        (arranged : set.Arranged (a :: b :: (rest ++ others))) :
        (pass ⟨(pass ⟨set, a⟩).libraries, b⟩).libraries.Arranged
          (rest ++ ((pass ⟨(pass ⟨set, a⟩).libraries, b⟩).unit :: (pass
            ⟨set, a⟩).unit :: others)) := by
      have hfirst := (indifferent.arranged arranged ha).perm (.swap ..)
      refine (indifferent.arranged hfirst hb).perm ?_
      refine .trans (.cons _ List.perm_middle.symm) List.perm_middle.symm
    have hrest := each_resembles indifferent (rfl : rest.map SourceUnit.plain = _)
      (hdone hb ha arranged) (hdone ha hb arranged')
      (fun unit h => hQ unit (List.mem_cons_of_mem _ (List.mem_cons_of_mem _ h)))
      (fun unit h => hQ unit (List.mem_cons_of_mem _ (List.mem_cons_of_mem _ h)))
      (indifferent.swap arranged hb ha hne)
    refine ⟨hrest.libraries, ?_⟩
    simp only [each, List.map_cons]
    rw [indifferent.first arranged hb ha hne, indifferent.first arranged' ha hb hne.symm]
    exact (hrest.units.cons _).cons _ |>.trans (.swap ..)
  | trans hfirst hsecond ih₁ ih₂ =>
    refine (ih₁ arranged hQ hpaths).trans (ih₂ (arranged.perm (hfirst.append_right _))
      (fun unit h => hQ unit (hfirst.mem_iff.2 h)) ((hfirst.map _).nodup_iff.1 hpaths))

/-- Documents that are the same up to order and related places stay so in a pass. -/
lemma Resembles.each (indifferent : Linkage.Indifferent Q pass)
    (alike : Resembles ⟨set, units⟩ ⟨set', units'⟩) (arranged : set.Arranged (units ++ others))
    (arranged' : set'.Arranged (units' ++ others')) (hQ : ∀ unit ∈ units, Q unit)
    (hQ' : ∀ unit ∈ units', Q unit) (hpaths : (units.map SourceUnit.path).Nodup) :
    (Linkages.each pass set units).Resembles (Linkages.each pass set' units') := by
  obtain ⟨mid, hperm, hmid⟩ : ∃ mid, units.Perm mid ∧ mid.map SourceUnit.plain
      = units'.map SourceUnit.plain := by
    have hplain : Relation.Comp (List.Forall₂ fun (unit : SourceUnit) plain => unit.plain = plain)
        List.Perm units (units'.map SourceUnit.plain) :=
      ⟨units.map SourceUnit.plain, by simp [List.forall₂_map_right_iff, List.forall₂_same],
        alike.units⟩
    rw [List.forall₂_comp_perm_eq_perm_comp_forall₂] at hplain
    obtain ⟨mid, hperm, hmid⟩ := hplain
    refine ⟨mid, hperm, ?_⟩
    rw [← List.forall₂_eq_eq_eq, List.forall₂_map_left_iff]
    exact hmid
  have hpass := each_perm indifferent hperm arranged hQ hpaths
  refine hpass.trans (each_resembles indifferent hmid.symm
    (arranged.perm (hperm.append_right _)) arranged'
    (fun unit h => hQ unit (hperm.mem_iff.2 h)) hQ' alike.libraries)

end Linkages

/-! ## The passes -/

namespace Linkage

/-- What findings make of the model does not depend on the document that they are for. -/
lemma libraries_apply (set : LibrarySet) (unit unit' : SourceUnit) (found : Findings) :
    (apply ⟨set, unit⟩ found).libraries = (apply ⟨set, unit'⟩ found).libraries := by
  have hfold {α : Type} {step : Linkage → α → Linkage}
      (h : ∀ (set : LibrarySet) (unit unit' : SourceUnit) (x : α),
        (step ⟨set, unit⟩ x).libraries = (step ⟨set, unit'⟩ x).libraries)
      (xs : List α) {state state' : Linkage} (heq : state.libraries = state'.libraries) :
      (xs.foldl step state).libraries = (xs.foldl step state').libraries := by
    induction xs generalizing state state' with
    | nil => exact heq
    | cons x rest ih =>
      obtain ⟨set, unit⟩ := state
      obtain ⟨set', unit'⟩ := state'
      obtain rfl : set = set' := heq
      exact ih (h set unit unit' x)
  have hreference (set : LibrarySet) (unit unit' : SourceUnit) (pair : Target × Location) :
      (addReference ⟨set, unit⟩ pair).libraries = (addReference ⟨set, unit'⟩ pair).libraries := by
    simp only [addReference]
    split
    · rfl
    · split <;> rfl
  have hheir (set : LibrarySet) (unit unit' : SourceUnit) (pair : DeclId × DeclId) :
      (addHeir ⟨set, unit⟩ pair).libraries = (addHeir ⟨set, unit'⟩ pair).libraries := by
    simp only [addHeir]
    split <;> rfl
  exact hfold hheir found.heirs (hfold hreference found.references rfl)

/-- A pass prepares its document, which keeps what it declares, and writes down what it has found.
What it finds depends on the model by what `Same` models have in common, and that is kept by all
that is written down. -/
structure WritesFindings (Same : LibrarySet → LibrarySet → Prop)
    (prepared : Linkage → SourceUnit) (found : Linkage → Findings) (pass : Linkage → Linkage) :
    Prop where
  pass_eq : ∀ {state others}, state.libraries.Arranged (state.unit :: others) →
    pass state = apply ⟨state.libraries, prepared state⟩ (found state)
  prepared_eq : ∀ state, (prepared state).skeleton = state.unit.skeleton ∧
    (prepared state).occurrences = state.unit.occurrences
  among : ∀ {state others}, state.libraries.Arranged (state.unit :: others) →
    (found state).Among state.libraries (fun _ => True) state.unit.path state.unit.declarations
  same : ∀ {set set'}, set.Resembles set' → Same set set'
  writes : ∀ {state others}, state.libraries.Arranged (state.unit :: others) →
    Same state.libraries (pass state).libraries
  reads : ∀ {state state' others others'}, state.libraries.Arranged (state.unit :: others) →
    state'.libraries.Arranged (state'.unit :: others') → Same state.libraries state'.libraries →
    state'.unit.plain = state.unit.plain → (found state').plain = (found state).plain ∧
      (prepared state').plain = (prepared state).plain

namespace WritesFindings

variable {Same : LibrarySet → LibrarySet → Prop} {prepared : Linkage → SourceUnit}
  {found : Linkage → Findings} {pass : Linkage → Linkage} {set set' : LibrarySet}
  {unit unit' a b : SourceUnit} {others others' : List SourceUnit}

lemma path_prepared (writes : WritesFindings Same prepared found pass) (state : Linkage) :
    (prepared state).path = state.unit.path :=
  congrArg FileTree.path (SourceUnit.tree_of_skeleton_eq (writes.prepared_eq state).1)

lemma arranged_prepared (writes : WritesFindings Same prepared found pass)
    (arranged : set.Arranged (unit :: others)) :
    set.Arranged (prepared ⟨set, unit⟩ :: others) := by
  refine arranged.step rfl (writes.prepared_eq ⟨set, unit⟩).1 (fun h => ?_) (.refl arranged.orderly)
  unfold SourceUnit.Undeclared at h ⊢
  rwa [(writes.prepared_eq ⟨set, unit⟩).2] at h

lemma among_prepared (writes : WritesFindings Same prepared found pass)
    (arranged : set.Arranged (unit :: others)) :
    (found ⟨set, unit⟩).Among set (fun _ => True) (prepared ⟨set, unit⟩).path
      (prepared ⟨set, unit⟩).declarations := by
  rw [writes.path_prepared,
    SourceUnit.declarations_of_skeleton_eq (writes.prepared_eq ⟨set, unit⟩).1]
  exact @among _ _ _ _ writes ⟨set, unit⟩ _ arranged

lemma libraries_eq (writes : WritesFindings Same prepared found pass)
    (arranged : set.Arranged (unit :: others)) :
    (pass ⟨set, unit⟩).libraries = (apply ⟨set, unit⟩ (found ⟨set, unit⟩)).libraries := by
  rw [@pass_eq _ _ _ _ writes ⟨set, unit⟩ _ arranged]
  exact libraries_apply ..

lemma arranged (writes : WritesFindings Same prepared found pass)
    (arranged : set.Arranged (unit :: others)) :
    (pass ⟨set, unit⟩).libraries.Arranged ((pass ⟨set, unit⟩).unit :: others) := by
  rw [@pass_eq _ _ _ _ writes ⟨set, unit⟩ _ arranged]
  exact @arranged_apply ⟨set, _⟩ _ _ (writes.arranged_prepared arranged) _ _
    (writes.among_prepared arranged)

/-- Where another document comes first, this one is arranged after it all the same. -/
lemma arranged_then (writes : WritesFindings Same prepared found pass)
    (arranged : set.Arranged (a :: b :: others)) :
    (pass ⟨set, a⟩).libraries.Arranged (b :: (pass ⟨set, a⟩).unit :: others) :=
  (writes.arranged arranged).perm (.swap ..)

/-- A document that comes after another one finds what it would find without it. -/
lemma reads_then (writes : WritesFindings Same prepared found pass)
    (arranged : set.Arranged (a :: b :: others)) :
    (found ⟨(pass ⟨set, a⟩).libraries, b⟩).plain = (found ⟨set, b⟩).plain ∧
      (prepared ⟨(pass ⟨set, a⟩).libraries, b⟩).plain = (prepared ⟨set, b⟩).plain :=
  @reads _ _ _ _ writes ⟨set, b⟩ ⟨(pass ⟨set, a⟩).libraries, b⟩ _ _ (arranged.perm (.swap ..))
    (writes.arranged_then arranged) (@WritesFindings.writes _ _ _ _ writes ⟨set, a⟩ _ arranged) rfl

lemma alike (writes : WritesFindings Same prepared found pass)
    (arranged : set.Arranged (unit :: others)) (arranged' : set'.Arranged (unit' :: others'))
    (alike : set.Resembles set') (hunit : unit'.plain = unit.plain) :
    (pass ⟨set, unit⟩).libraries.Resembles (pass ⟨set', unit'⟩).libraries ∧
      (pass ⟨set', unit'⟩).unit.plain = (pass ⟨set, unit⟩).unit.plain := by
  -- Both sides read alike models, so they find the same and write it down at the same places.
  obtain ⟨hfound, hprepared⟩ := @reads _ _ _ _ writes ⟨set, unit⟩ ⟨set', unit'⟩ _ _ arranged
    arranged' (writes.same alike) hunit
  rw [@pass_eq _ _ _ _ writes ⟨set, unit⟩ _ arranged,
    @pass_eq _ _ _ _ writes ⟨set', unit'⟩ _ arranged']
  have hprep := writes.arranged_prepared arranged
  have hprep' := writes.arranged_prepared arranged'
  have among := writes.among_prepared arranged
  exact ⟨@resembles_apply ⟨set, _⟩ ⟨set', _⟩ _ _ _ _ hprep hprep' _ _ among
      (writes.among_prepared arranged') hfound alike,
    @plain_unit_apply ⟨set, _⟩ ⟨set', _⟩ _ _ hprep _ _ among hfound hprepared
      (alike.welcomes arranged.orderly arranged'.orderly _)⟩

/-- The other document welcomes all that this one has references to, as it is of another path. -/
lemma first (writes : WritesFindings Same prepared found pass)
    (arranged : set.Arranged (a :: b :: others)) (hne : a.path ≠ b.path) :
    (pass ⟨(pass ⟨set, a⟩).libraries, b⟩).unit.plain = (pass ⟨set, b⟩).unit.plain := by
  have arranged' : set.Arranged (b :: a :: others) := arranged.perm (.swap ..)
  obtain ⟨hfound, hprepared⟩ := writes.reads_then arranged
  -- The occurrences of the second document depend on which references are new to a target.
  have hwelcomes : set.Welcomes b.path (pass ⟨set, a⟩).libraries := by
    rw [writes.libraries_eq arranged]
    exact @welcomes_apply ⟨set, a⟩ _ _ arranged _ (@among _ _ _ _ writes ⟨set, a⟩ _ arranged) _ hne
  rw [@pass_eq _ _ _ _ writes ⟨(pass ⟨set, a⟩).libraries, b⟩ _ (writes.arranged_then arranged),
    @pass_eq _ _ _ _ writes ⟨set, b⟩ _ arranged']
  refine @plain_unit_apply ⟨set, _⟩ ⟨_, _⟩ _ _ (writes.arranged_prepared arranged') _ _
    (writes.among_prepared arranged') hfound hprepared ?_
  rw [writes.path_prepared]
  exact hwelcomes

/-- In either order each document writes down the same, so it is enough that two sets of findings
can be written down in either order. -/
lemma swap (writes : WritesFindings Same prepared found pass)
    (arranged : set.Arranged (a :: b :: others)) :
    (pass ⟨(pass ⟨set, a⟩).libraries, b⟩).libraries.Resembles
      (pass ⟨(pass ⟨set, b⟩).libraries, a⟩).libraries := by
  have arranged' : set.Arranged (b :: a :: others) := arranged.perm (.swap ..)
  have hthen := writes.arranged_then arranged
  have hthen' := writes.arranged_then arranged'
  have hb := (writes.reads_then arranged).1
  have ha := (writes.reads_then arranged').1
  have amongThen := @among _ _ _ _ writes ⟨(pass ⟨set, a⟩).libraries, b⟩ _ hthen
  have amongThen' := @among _ _ _ _ writes ⟨(pass ⟨set, b⟩).libraries, a⟩ _ hthen'
  rw [writes.libraries_eq hthen, writes.libraries_eq hthen']
  rw [writes.libraries_eq arranged] at hb amongThen ⊢
  rw [writes.libraries_eq arranged'] at ha amongThen' ⊢
  exact arranged.resembles_apply_apply (@among _ _ _ _ writes ⟨set, a⟩ _ arranged)
    (@among _ _ _ _ writes ⟨set, b⟩ _ arranged') amongThen' amongThen ha hb

/-- A pass that writes down what it has found is indifferent to order if its findings do not depend
on anything that it writes down. -/
theorem indifferent (writes : WritesFindings Same prepared found pass) :
    Indifferent (fun _ => True) pass where
  arranged arranged _ := writes.arranged arranged
  alike arranged arranged' _ _ alike hunit := writes.alike arranged arranged' alike hunit
  first arranged _ _ hne := writes.first arranged hne
  swap arranged _ _ _ := writes.swap arranged

end WritesFindings

/-- Import directives are resolved in the namespace tree, and only references are written. -/
lemma writesFindings_linkImports : WritesFindings (fun set set' => set'.skeleton = set.skeleton)
    (fun state => { state.unit with scopes := state.imported.1 })
    (fun state => state.imported.2) linkImports where
  pass_eq arranged := linkImports_eq arranged.settled
  prepared_eq _ := ⟨rfl, rfl⟩
  among {state _} arranged := (state.among_everywhere.imported arranged.legible).1
  same alike := LibrarySet.skeleton_of_contents_eq alike.contents
  writes {state _} _ := (sameSkeleton_linkImports state).1
  reads {state state' _ _} _ _ hskeleton hunit := by
    rw [imported_congr hskeleton (congrArg (·.tree) hunit) (congrArg (·.library) hunit)]
    exact ⟨rfl, congrArg (fun unit : SourceUnit => { unit with scopes := state.imported.1 }) hunit⟩

/-- Bases are found by headers, and no header is written. -/
lemma writesFindings_linkBases (options : LinkOptions) :
    WritesFindings LibrarySet.SameFronts Linkage.unit
      (fun state => state.found options LinkBases.findings) (·.linkBases options) where
  pass_eq _ := rfl
  prepared_eq _ := ⟨rfl, rfl⟩
  among {state _} arranged := state.among_everywhere.foundBases arranged options
  same alike := LibrarySet.sameFronts_of_contents_eq alike.contents
  writes {state _} arranged := ⟨(sameSkeleton_linkEach state options _).1,
    front?_apply arranged (state.among_everywhere.foundBases arranged options)⟩
  reads arranged arranged' same hunit :=
    ⟨plain_foundBases hunit options arranged.orderly.identified arranged'.orderly.identified same,
      hunit⟩

/-- Signatures are found by shapes, and no shape is written. -/
lemma writesFindings_linkSignatures (options : LinkOptions) :
    WritesFindings LibrarySet.SameShapes Linkage.unit
      (fun state => state.found options LinkSignatures.findings) (·.linkSignatures options) where
  pass_eq _ := rfl
  prepared_eq _ := ⟨rfl, rfl⟩
  among {state _} arranged := state.among_everywhere.foundSignatures arranged options
  same alike := LibrarySet.sameShapes_of_contents_eq alike.contents
  writes {state _} arranged := .of_front_kin (sameSkeleton_linkEach state options _).1
    (front?_apply arranged (state.among_everywhere.foundSignatures arranged options))
    (sameKin_linkSignatures arranged options).kin
  reads arranged _ same hunit :=
    ⟨plain_foundSignatures hunit options arranged.orderly.identified same, hunit⟩

end Linkage

/-! ## Members -/

namespace LibrarySet

variable {set set' after after' : LibrarySet}

/-- Models with the same contents have the same targets. -/
lemma isSome_references?_of_contents_eq (h : set'.contents = set.contents) (hid : set.Identified)
    (hid' : set'.Identified) (target : Target) :
    (set'.references? target).isSome = (set.references? target).isSome := by
  cases target with
  | declaration id =>
    have hfind := congrArg Option.isSome ((sameFronts_of_contents_eq h).find?_skeleton hid hid' id)
    simpa [references?] using hfind
  | space ref =>
    have hspace := congrArg (fun set => (set.space? ref).isSome) (skeleton_of_contents_eq h)
    simpa [references?, space?_skeleton] using hspace

/-- Targets that have the same references, up to order, still do when both models get new
targets. -/
lemma Widens.citations? (widens : set.Widens after) (widens' : set'.Widens after')
    {target target' : Target} (htarget : target.Proper) (htarget' : target'.Proper)
    (hsome : (after'.references? target').isSome = (after.references? target).isSome)
    (h : set'.citations? target' = set.citations? target) :
    after'.citations? target' = after.citations? target := by
  rw [LibrarySet.citations?, LibrarySet.citations?] at h ⊢
  cases hrefs : after.references? target with
  | none =>
    rw [hrefs, Option.isSome_none, Option.isSome_eq_false_iff, Option.isNone_iff_eq_none] at hsome
    rw [hsome]
  | some refs =>
    rw [hrefs] at hsome
    obtain ⟨refs', hrefs'⟩ := Option.isSome_iff_exists.1 hsome
    rw [hrefs']
    rcases widens.only htarget hrefs with hold | ⟨hnew, rfl⟩ <;>
      rcases widens'.only htarget' hrefs' with hold' | ⟨hnew', rfl⟩
    · rwa [hold, hold'] at h
    · simp [hold, hnew'] at h
    · simp [hnew, hold'] at h
    · rfl

/-- Models that are alike stay so when they get the same new targets. -/
lemma Resembles.widen (alike : set.Resembles set') (widens : set.Widens after)
    (widens' : set'.Widens after') (kin : set.SameKin after) (kin' : set'.SameKin after')
    (h : after'.contents = after.contents) : after.Resembles after' := by
  refine ⟨h, fun target htarget => ?_, fun base hdefine => ?_⟩
  · exact widens.citations? widens' htarget htarget
      (isSome_references?_of_contents_eq h kin.identified kin'.identified target)
      (alike.citations target htarget)
  · rw [progeny?, kin'.heirs?_eq, progeny?, kin.heirs?_eq]
    exact alike.progeny base hdefine

end LibrarySet

namespace SourceUnit

variable {set : LibrarySet} {a b : SourceUnit} {others : List SourceUnit}

/-- The model when the members of all declarations of a document have been declared. -/
def enlist (unit : SourceUnit) (set : LibrarySet) : LibrarySet :=
  (unit.declarations.zip unit.nodes).foldl
    (fun set pair => set.edit pair.1 (.declare unit.path pair.1 pair.2)) set

lemma enlist_of_plain_eq {unit unit' : SourceUnit} (h : unit'.plain = unit.plain) :
    unit'.enlist = unit.enlist := by
  have hdecls : unit'.declarations = unit.declarations := congrArg (·.declarations) h
  have htree : unit'.tree = unit.tree := congrArg (·.tree) h
  funext set
  rw [enlist, hdecls, nodes, path, htree]
  rfl

lemma contents_enlist (unit : SourceUnit) (set : LibrarySet) :
    (unit.enlist set).contents = unit.enlist set.contents := by
  unfold enlist
  induction unit.declarations.zip unit.nodes generalizing set with
  | nil => rfl
  | cons pair rest ih =>
    rw [List.foldl_cons, ih, set.contents_edit _ (Edit.onContents_declare ..), List.foldl_cons]

lemma commute_enlist (settled : set.Settled (a :: b :: others)) :
    Function.Commute a.enlist b.enlist := by
  refine commute_foldl _ fun pair' hpair' => (commute_foldl _ fun pair hpair set => ?_).symm
  have ha : pair.1 ∈ a.declarations := (List.of_mem_zip hpair).1
  have hb : pair'.1 ∈ b.declarations := (List.of_mem_zip hpair').1
  have hholder {unit : SourceUnit} (hunit : unit ∈ a :: b :: others) {id : DeclId}
      (hid : id ∈ unit.declarations) : id.holder ∈ unit.declarations := by
    rw [DeclId.holder, DeclId.owner?_of_top (settled.declared hunit hid).2.1]
    exact hid
  exact (LibrarySet.edit_comm _ fun hlibrary hseat => absurd hseat
    (settled.seat_ne (hholder List.mem_cons_self ha)
      (hholder (List.mem_cons_of_mem _ List.mem_cons_self) hb) hlibrary)).symm

end SourceUnit

namespace Linkage

variable {state state' : Linkage} {others others' : List SourceUnit}

/-- Declaring the members of one declaration, as an edit of its record. -/
lemma libraries_declareFor (state : Linkage) {id : DeclId} (htop : id.owner? = none)
    (node : DeclNode) : (LinkMembers.declareFor state (id, node)).libraries
      = state.libraries.edit id (.declare state.unit.path id node) := by
  have hslot {lib : Library} {entry : Entry} (hlib : state.libraries.get? id.library = some lib)
      (hid : id.library = lib.id) (hentry : lib.slot? id.seat.1 id.seat.2 = some entry) :
      state.libraries.find? id = some entry := by
    rw [LibrarySet.find?, hlib, Option.bind_some, Library.find?_eq, if_pos hid, hentry,
      Option.bind_some, DeclId.part?, htop]
  simp only [LinkMembers.declareFor]
  cases hfind : state.libraries.find? id with
  | none =>
    refine (LibrarySet.edit_eq_self _ fun lib entry hlib hid hentry => ?_).symm
    rw [hslot hlib hid hentry] at hfind
    cases hfind
  | some owner =>
    refine LibrarySet.edit_congr _ fun lib entry hlib hid hentry => ?_
    rw [hslot hlib hid hentry] at hfind
    obtain rfl := Option.some.inj hfind
    simp only [Edit.atSeat, htop]
    rfl

/-- The declarations of a document are looked up as such. -/
lemma owner?_declarations (settled : state.libraries.Settled (state.unit :: others)) :
    ∀ pair ∈ state.unit.declarations.zip state.unit.nodes, pair.1.owner? = none := fun _ hpair =>
  DeclId.owner?_of_top (settled.declared List.mem_cons_self (List.of_mem_zip hpair).1).2.1

lemma libraries_declareMembers (settled : state.libraries.Settled (state.unit :: others)) :
    state.declareMembers.libraries = state.unit.enlist state.libraries := by
  have hall (pairs : List (DeclId × DeclNode)) (htop : ∀ pair ∈ pairs, pair.1.owner? = none)
      (state : Linkage) : (pairs.foldl LinkMembers.declareFor state).libraries
        = pairs.foldl (fun set pair => set.edit pair.1 (.declare state.unit.path pair.1 pair.2))
          state.libraries := by
    induction pairs generalizing state with
    | nil => rfl
    | cons pair rest ih =>
      have hpath : (LinkMembers.declareFor state pair).unit.path = state.unit.path :=
        congrArg FileTree.path
          (SourceUnit.tree_of_skeleton_eq (sameSkeleton_declareFor state pair).2)
      rw [List.foldl_cons, ih (fun p hp => htop p (List.mem_cons_of_mem _ hp)), hpath,
        libraries_declareFor state (htop pair List.mem_cons_self), List.foldl_cons]
  exact hall _ (owner?_declarations settled) state

/-- What declaring the members of a declaration makes of a document depends on headers only. -/
lemma plain_unit_declareFor {id : DeclId} (node : DeclNode) (htop : id.owner? = none)
    (hid : state.libraries.Identified)
    (hskeleton : state'.libraries.skeleton = state.libraries.skeleton)
    (hunit : state'.unit.plain = state.unit.plain) :
    (LinkMembers.declareFor state' (id, node)).unit.plain
      = (LinkMembers.declareFor state (id, node)).unit.plain := by
  have hpath : state'.unit.path = state.unit.path := congrArg (·.tree.path) hunit
  have hfind := (LibrarySet.Matches.of_skeleton_eq hid hskeleton).find?_top trivial htop
  have hnote (unit : SourceUnit) (occurrences : List Occurrence) (reports : List Diagnostic) :
      ({ unit with
        occurrences := unit.occurrences ++ occurrences
        diagnostics := unit.diagnostics.append .link reports } : SourceUnit).plain
      = { unit.plain with
        occurrences := unit.plain.occurrences ++ occurrences
        diagnostics := unit.plain.diagnostics.append .link (reports.map Diagnostic.plain) } := by
    simp [SourceUnit.plain, Diagnostics.append, Diagnostics.changePhase]
  simp only [LinkMembers.declareFor]
  cases howner : state.libraries.find? id with
  | none =>
    rw [howner] at hfind
    simp only [Renumbering.decl_refl, Option.map_none, Option.map_eq_none_iff] at hfind
    rw [hfind]
    exact hunit
  | some owner =>
    rw [howner] at hfind
    obtain ⟨owner', howner', heq⟩ := Option.map_eq_some_iff.1 hfind
    rw [Renumbering.decl_refl] at howner'
    rw [Renumbering.entry_refl] at heq
    -- members are made from the name and the namespace of their owner
    have hmember : LinkMembers.member state.unit.path id owner'
        = LinkMembers.member state.unit.path id owner := by
      have hsame := congrArg (LinkMembers.member state.unit.path id) heq
      exact hsame
    have hproblem : LinkMembers.nameProblem? owner' = LinkMembers.nameProblem? owner := by
      have hsame := congrArg LinkMembers.nameProblem? heq
      exact hsame
    simp only [howner', hpath, hmember, hproblem]
    rw [hnote, hnote, hunit]

/-- What declaring its members makes of a document depends on headers only. -/
lemma plain_unit_declareMembers (settled : state.libraries.Settled (state.unit :: others))
    (hid : state.libraries.Identified)
    (hskeleton : state'.libraries.skeleton = state.libraries.skeleton)
    (hunit : state'.unit.plain = state.unit.plain) :
    state'.declareMembers.unit.plain = state.declareMembers.unit.plain := by
  have hall (pairs : List (DeclId × DeclNode)) (htop : ∀ pair ∈ pairs, pair.1.owner? = none)
      (state state' : Linkage) (hid : state.libraries.Identified)
      (hskeleton : state'.libraries.skeleton = state.libraries.skeleton)
      (hunit : state'.unit.plain = state.unit.plain) :
      (pairs.foldl LinkMembers.declareFor state').unit.plain
        = (pairs.foldl LinkMembers.declareFor state).unit.plain := by
    induction pairs generalizing state state' with
    | nil => exact hunit
    | cons pair rest ih =>
      obtain ⟨id, node⟩ := pair
      refine ih (fun p hp => htop p (List.mem_cons_of_mem _ hp)) _ _ ?_ ?_ ?_
      · rw [libraries_declareFor state (htop _ List.mem_cons_self)]
        exact hid.edit id _
      · rw [(sameSkeleton_declareFor state' _).1, (sameSkeleton_declareFor state _).1, hskeleton]
      · exact plain_unit_declareFor node (htop _ List.mem_cons_self) hid hskeleton hunit
  have hdecls : state'.unit.declarations = state.unit.declarations :=
    congrArg (·.declarations) hunit
  have htree : state'.unit.tree = state.unit.tree := congrArg (·.tree) hunit
  rw [declareMembers, hdecls, SourceUnit.nodes, htree]
  exact hall _ (owner?_declarations settled) state state' hid hskeleton hunit

/-- Members are made from headers, and go to the declarations of their own document. -/
lemma indifferent_declareMembers : Indifferent SourceUnit.Undeclared declareMembers := by
  refine ⟨fun arranged => @arranged_declareMembers ⟨_, _⟩ _ arranged, ?_, ?_, ?_⟩
  · intro set set' unit unit' others others' arranged arranged' undeclared undeclared' alike hunit
    refine ⟨alike.widen (@widens_declareMembers ⟨set, unit⟩ _ arranged undeclared)
      (@widens_declareMembers ⟨set', unit'⟩ _ arranged' undeclared')
      (@sameKin_declareMembers ⟨set, unit⟩ arranged.orderly.identified)
      (@sameKin_declareMembers ⟨set', unit'⟩ arranged'.orderly.identified) ?_, ?_⟩
    · rw [@libraries_declareMembers ⟨set, unit⟩ _ arranged.settled,
        @libraries_declareMembers ⟨set', unit'⟩ _ arranged'.settled, SourceUnit.contents_enlist,
        SourceUnit.contents_enlist, alike.contents, SourceUnit.enlist_of_plain_eq hunit]
    · exact @plain_unit_declareMembers ⟨set, unit⟩ ⟨set', unit'⟩ _ arranged.settled
        arranged.orderly.identified (LibrarySet.skeleton_of_contents_eq alike.contents) hunit
  · intro set a b others arranged _ _ _
    have arranged' : set.Arranged (b :: a :: others) := arranged.perm (.swap ..)
    exact @plain_unit_declareMembers ⟨set, b⟩ ⟨_, b⟩ _ arranged'.settled arranged.orderly.identified
      (sameSkeleton_declareMembers _).1 rfl
  · intro set a b others arranged ha hb _
    have arranged' : set.Arranged (b :: a :: others) := arranged.perm (.swap ..)
    have hthen := (@arranged_declareMembers ⟨set, a⟩ _ arranged ha).perm (.swap ..)
    have hthen' := (@arranged_declareMembers ⟨set, b⟩ _ arranged' hb).perm (.swap ..)
    rw [@libraries_declareMembers ⟨_, b⟩ _ hthen.settled,
      @libraries_declareMembers ⟨_, a⟩ _ hthen'.settled,
      @libraries_declareMembers ⟨set, a⟩ _ arranged.settled,
      @libraries_declareMembers ⟨set, b⟩ _ arranged'.settled]
    -- Two documents put members into different records, so the edits commute.
    rw [(SourceUnit.commute_enlist arranged.settled).eq set]
    exact .refl _

end Linkage

/-! ## Linking -/

namespace Linkages

variable {set : LibrarySet} {batch batch' others others' : List SourceUnit}
  {Q Q' : SourceUnit → Prop} {pass : Linkage → Linkage} {state state' : Linkages}

/-- Documents with the property `Q` and with different paths, in a well-formed model of them and of
`others`. -/
structure Ready (Q : SourceUnit → Prop) (state : Linkages) (others : List SourceUnit) : Prop where
  arranged : state.libraries.Arranged (state.units ++ others)
  units : ∀ unit ∈ state.units, Q unit
  paths : (state.units.map SourceUnit.path).Nodup

lemma Ready.applyPass (ready : Ready Q state others) (indifferent : Linkage.Indifferent Q pass)
    (hskeleton : ∀ state, Linkage.SameSkeleton state (pass state))
    (hQ : ∀ state : Linkage, Q state.unit → Q' (pass state).unit) :
    Ready Q' (state.applyPass pass) others := by
  obtain ⟨harranged, hunits⟩ := each_induction pass LibrarySet.Arranged Q Q'
    LibrarySet.Arranged.perm
    (fun arranged hunit => ⟨indifferent.arranged arranged hunit, hQ _ hunit⟩)
      ready.arranged ready.units
  refine ⟨harranged, hunits, ?_⟩
  have hpath (state : Linkage) : (pass state).unit.path = state.unit.path :=
    congrArg FileTree.path (SourceUnit.tree_of_skeleton_eq (hskeleton state).2)
  rw [Linkages.applyPass, map_units_each hpath]
  exact ready.paths

lemma Resembles.applyPass (alike : state.Resembles state')
    (indifferent : Linkage.Indifferent Q pass) (ready : Ready Q state others)
    (ready' : Ready Q state' others') :
    (state.applyPass pass).Resembles (state'.applyPass pass) :=
  Resembles.each indifferent alike ready.arranged ready'.arranged ready.units
    ready'.units ready.paths

/-! Documents are ready for each pass when they have been through those before it. -/

lemma Ready.imported (ready : Ready SourceUnit.Undeclared state others) :
    Ready SourceUnit.Undeclared (state.applyPass Linkage.linkImports) others :=
  ready.applyPass (Linkage.writesFindings_linkImports.indifferent.mono fun _ _ => trivial)
    Linkage.sameSkeleton_linkImports fun _ => Linkage.undeclared_linkImports

lemma Ready.declared (ready : Ready SourceUnit.Undeclared state others) :
    Ready (fun _ => True) (state.applyPass Linkage.declareMembers) others :=
  ready.applyPass Linkage.indifferent_declareMembers Linkage.sameSkeleton_declareMembers
    fun _ _ => trivial

lemma Ready.based (ready : Ready (fun _ => True) state others) (options : LinkOptions) :
    Ready (fun _ => True) (state.applyPass (·.linkBases options)) others :=
  ready.applyPass (Linkage.writesFindings_linkBases options).indifferent
    (fun state => state.sameSkeleton_linkEach options _) fun _ _ => trivial

/-- Linking documents in another order gives the same model, up to the order of references and
heirs, and the same documents, up to the places that reports point to. -/
theorem link_perm (arranged : set.Arranged (batch ++ others))
    (hundeclared : ∀ unit ∈ batch, unit.Undeclared) (hpaths : (batch.map SourceUnit.path).Nodup)
    (hperm : batch.Perm batch') (options : LinkOptions) :
    (link ⟨set, batch⟩ options).Resembles (link ⟨set, batch'⟩ options) := by
  have k₀ : Resembles ⟨set, batch⟩ ⟨set, batch'⟩ := ⟨.refl set, hperm.map _⟩
  have ready : Ready SourceUnit.Undeclared ⟨set, batch⟩ others := ⟨arranged, hundeclared, hpaths⟩
  have ready' : Ready SourceUnit.Undeclared ⟨set, batch'⟩ others :=
    ⟨arranged.perm (hperm.append_right _),
      fun unit hunit => hundeclared unit (hperm.mem_iff.2 hunit), (hperm.map _).nodup_iff.1 hpaths⟩
  -- Each pass hands on what the next one asks for.
  have k₁ := k₀.applyPass (Linkage.writesFindings_linkImports.indifferent.mono fun _ _ => trivial)
    ready ready'
  have k₂ := k₁.applyPass Linkage.indifferent_declareMembers ready.imported ready'.imported
  have k₃ := k₂.applyPass (Linkage.writesFindings_linkBases options).indifferent
    ready.imported.declared ready'.imported.declared
  exact k₃.applyPass (Linkage.writesFindings_linkSignatures options).indifferent
    (ready.imported.declared.based options) (ready'.imported.declared.based options)

/-- Two documents that refer to each other can be linked in either order. -/
theorem link_perm_kinDocuments :
    let state := kinDocuments
    (state.units.map SourceUnit.path) = ["heir.rk", "base.rk"] ∧
      (state.link {}).Resembles (link ⟨state.libraries, state.units.reverse⟩ {}) := by
  have hpaths : kinDocuments.units.map SourceUnit.path = ["heir.rk", "base.rk"] := by cbv
  refine ⟨hpaths, link_perm unlinked_kinDocuments.arranged (fun unit hunit =>
    (unlinked_kinDocuments.unlinked unit hunit).undeclared) ?_ (List.reverse_perm _).symm {}⟩
  rw [hpaths]
  decide

end Linkages

end SymbolGraph
