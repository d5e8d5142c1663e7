import SymbolGraph.Proofs.Renumbering.Verdicts

/-!
# Checking under other numbers

A check writes the verdict on a library down in its records, and reports it together with the names
that are declared twice.  In models that match, the verdicts correspond, so the records match after
the checks again.  If the namespaces of the library list corresponding declarations in the same
order, the reports have the same marks in the same order, too (`LibrarySet.Matches.check`).
-/

namespace SymbolGraph

/-! ## Lists that correspond -/

lemma forall₂_zipIdx {α β : Type} {R : α → β → Prop} {xs : List α} {ys : List β}
    (h : List.Forall₂ R xs ys) (n : Nat) :
    List.Forall₂ (fun a b => R a.1 b.1 ∧ b.2 = a.2) (xs.zipIdx n) (ys.zipIdx n) := by
  induction h generalizing n with
  | nil => exact .nil
  | cons h _ ih => exact .cons ⟨h, rfl⟩ (ih (n + 1))

lemma map_filterMap_of_forall₂ {α β γ δ : Type} {R : α → β → Prop} {xs : List α} {ys : List β}
    (h : List.Forall₂ R xs ys) {f : α → Option γ} {g : β → Option γ} {k : γ → δ}
    (hR : ∀ x y, R x y → (g y).map k = (f x).map k) :
    (ys.filterMap g).map k = (xs.filterMap f).map k := by
  rw [List.map_filterMap, List.map_filterMap]
  induction h with
  | nil => rfl
  | cons h _ ih => rw [List.filterMap_cons, List.filterMap_cons, hR _ _ h, ih]

lemma Report.marks_flatMap {α β : Type} {R : α → β → Prop} {xs : List α} {ys : List β}
    (h : List.Forall₂ R xs ys) {f : α → Report} {g : β → Report}
    (hR : ∀ x y, R x y → Report.marks (g y) = Report.marks (f x)) :
    Report.marks (ys.flatMap g) = Report.marks (xs.flatMap f) := by
  induction h with
  | nil => rfl
  | cons h _ ih => simp only [List.flatMap_cons, Report.marks_append, hR _ _ h, ih]

/-- Maps with the same keys, and with related values. -/
def Assoc.Related {κ ν ν' : Type} (R : ν → ν' → Prop) (m : Assoc κ ν) (m' : Assoc κ ν') : Prop :=
  List.Forall₂ (fun entry entry' => entry'.1 = entry.1 ∧ R entry.2 entry'.2) m m'

section

variable {κ ν ν' : Type} [DecidableEq κ] {R : ν → ν' → Prop} {m : Assoc κ ν} {m' : Assoc κ ν'}

lemma Assoc.Related.at? (h : Assoc.Related R m m') (k : κ) :
    Option.Rel R (m.at? k) (m'.at? k) := by
  induction h with
  | nil => exact .none
  | cons hentry _ ih =>
    rw [Assoc.at?, Assoc.at?, hentry.1]
    split
    · exact .some hentry.2
    · exact ih

lemma Assoc.Related.put (h : Assoc.Related R m m') (k : κ) {v : ν} {v' : ν'} (hv : R v v') :
    Assoc.Related R (m.put k v) (m'.put k v') := by
  induction h with
  | nil => exact .cons ⟨rfl, hv⟩ .nil
  | cons hentry hrest ih =>
    rw [Assoc.put, Assoc.put, hentry.1]
    split
    · exact .cons ⟨rfl, hv⟩ hrest
    · exact .cons ⟨rfl, hentry.2⟩ ih

end

/-! ## Duplicate names -/

section

variable {r : Renumbering} {entry entry' : Entry}

lemma Entry.Matches.category (h : entry.Matches r entry') : entry'.category = entry.category := by
  rw [Symbol.category, h.id, r.category_decl]
  rfl

lemma Entry.Matches.signature (h : entry.Matches r entry') :
    entry'.body.callable?.map Callable.signature
      = (entry.body.callable?.map Callable.signature).map (List.map r.ty) := by
  have hcore (body : Body) :
      body.core.callable?.map Callable.signature = body.callable?.map Callable.signature := by
    cases body with
    | leaf part => cases part <;> rfl
    | _ => rfl
  have hbody (body : Body) : (r.body body).callable?.map Callable.signature
      = (body.callable?.map Callable.signature).map (List.map r.ty) := by
    cases body with
    | leaf part => exact r.callable?_leaf part
    | _ => rfl
  rw [← hcore, h.body, hbody, hcore]

lemma Entry.Matches.allMembers (h : entry.Matches r entry') :
    List.Forall₂ (Member.Matches r) entry.body.allMembers entry'.body.allMembers := by
  have hcore (body : Body) : body.core.allMembers = body.allMembers.map Member.core := by
    cases body <;> simp [Body.core, Body.allMembers]
  refine forall₂_of_map_eq (f := fun m : Member => r.member m.core) (g := Member.core) ?_
  rw [← hcore, h.body, r.allMembers_body, hcore, List.map_map]
  rfl

lemma Member.Matches.toEntry {m m' : Member} (h : m.Matches r m') :
    m.toEntry.Matches r m'.toEntry := by
  have hcore (m : Member) : m.toEntry.core = m.core.toEntry := rfl
  rw [Entry.Matches, hcore, hcore, show m'.core = _ from h, r.toEntry_member]

end

namespace Duplicates

variable {r : Renumbering}

lemma matches_others {α β : Type} {R : α → β → Prop} {xs : List α} {ys : List β}
    (h : List.Forall₂ R xs ys) (position : Nat) {p : α → Bool} {q : β → Bool}
    (hpq : ∀ x y, R x y → q y = p x) :
    List.Forall₂ R (others xs position p) (others ys position q) := by
  unfold others
  rw [List.forall₂_map_left_iff, List.forall₂_map_right_iff]
  refine (forall₂_filter (forall₂_zipIdx h 0) fun x y hxy => ?_).imp fun _ _ h => h.1
  obtain ⟨x, i⟩ := x
  obtain ⟨y, j⟩ := y
  dsimp only at hxy ⊢
  rw [hxy.2, hpq _ _ hxy.1]

/-- The marks of reports on shared names. -/
lemma marks_sharedName (records : List Entry) : Report.marks (sharedName records)
    = records.map fun record => (record.document, record.nameRange, .error, .duplicateName) := by
  have hfst : records.map (fun record => (record.document, record.nameRange, Severity.error,
      DiagnosticCode.duplicateName)) = records.zipIdx.map fun x =>
        (x.1.document, x.1.nameRange, Severity.error, DiagnosticCode.duplicateName) := by
    conv_lhs => rw [← List.zipIdx_map_fst 0 records, List.map_map]
    rfl
  rw [hfst, Report.marks, sharedName, List.map_map]
  rfl

lemma matches_signed {records records' : List Entry}
    (h : List.Forall₂ (Entry.Matches r) records records') :
    List.Forall₂ (fun x x' => x.1.Matches r x'.1 ∧ x'.2 = x.2.map r.ty) (signed records)
      (signed records') := by
  refine List.rel_filterMap (fun record record' hrecord => ?_) h
  have hsignature := hrecord.signature
  cases hcallable : record.body.callable? with
  | none =>
    rw [hcallable, Option.map_none, Option.map_none, Option.map_eq_none_iff] at hsignature
    rw [hsignature]
    exact .none
  | some callable =>
    rw [hcallable] at hsignature
    obtain ⟨callable', hcallable', heq⟩ := Option.map_eq_some_iff.1 hsignature
    have hresolved : callable'.signature.isResolved = callable.signature.isResolved := by
      rw [heq]
      simp [Signature.isResolved, Function.comp_def]
    simp only [hcallable', hresolved]
    split
    · exact .some ⟨hrecord, heq⟩
    · exact .none

lemma marks_sameParameters {records records' : List Entry}
    (h : List.Forall₂ (Entry.Matches r) records records') :
    Report.marks (sameParameters records') = Report.marks (sameParameters records) := by
  have hsigned := matches_signed h
  refine map_filterMap_of_forall₂ (forall₂_zipIdx hsigned 0) fun x x' hx => ?_
  obtain ⟨⟨record, signature⟩, i⟩ := x
  obtain ⟨⟨record', signature'⟩, i'⟩ := x'
  dsimp only at hx
  obtain ⟨⟨hrecord, rfl⟩, rfl⟩ := hx
  have hothers := matches_others hsigned i' (p := fun other => other.2 = signature)
    (q := fun other => other.2 = signature.map r.ty) fun y y' hy => by
      rw [hy.2]
      simp [(List.map_injective_iff.2 r.ty_injective).eq_iff]
  dsimp only at hothers ⊢
  generalize others (signed records) i' _ = conflicts at hothers ⊢
  generalize others (signed records') i' _ = conflicts' at hothers ⊢
  cases hothers with
  | nil => rfl
  | cons =>
    simp only [Option.map_some, Diagnostic.mark, Diagnostic.relatedTo, Diagnostic.error,
      hrecord.document, hrecord.nameRange]

lemma marks_checkGroup {records records' : List Entry}
    (h : List.Forall₂ (Entry.Matches r) records records') :
    Report.marks (checkGroup records') = Report.marks (checkGroup records) := by
  have hoverloadable : (records'.all fun record => record.category.isOverloadable)
      = records.all fun record => record.category.isOverloadable := by
    induction h with
    | nil => rfl
    | cons h _ ih => rw [List.all_cons, List.all_cons, h.category, ih]
  unfold checkGroup
  rw [h.length_eq, hoverloadable]
  split
  · rfl
  · split
    · exact marks_sameParameters h
    · rw [marks_sharedName, marks_sharedName]
      exact map_eq_of_forall₂ h fun record record' hrecord => by
        rw [hrecord.document, hrecord.nameRange]

/-- Members of one name are collected in the same groups. -/
lemma matches_memberGroups {members members' : List Member}
    (h : List.Forall₂ (Member.Matches r) members members') :
    Assoc.Related (List.Forall₂ (Member.Matches r)) (memberGroups members)
      (memberGroups members') := by
  unfold memberGroups
  suffices hfold : ∀ groups groups', Assoc.Related (List.Forall₂ (Member.Matches r))
    groups groups' →
      Assoc.Related (List.Forall₂ (Member.Matches r))
        (members.foldl (fun groups member => Assoc.put groups member.name
          (((Assoc.at? groups member.name).getD []) ++ [member])) groups)
        (members'.foldl (fun groups member => Assoc.put groups member.name
          (((Assoc.at? groups member.name).getD []) ++ [member])) groups') from hfold [] [] .nil
  induction h with
  | nil => exact fun _ _ hgroups => hgroups
  | @cons m m' _ _ hmember _ ih =>
    refine fun groups groups' hgroups => ih _ _ ?_
    dsimp only
    rw [hmember.name]
    refine hgroups.put m.name (List.rel_append ?_ (.cons hmember .nil))
    obtain ⟨hnone, hnone'⟩ | ⟨list, list', hlist, hlist', hmatch⟩ := rel_cases (hgroups.at? m.name)
    · rw [hnone, hnone']
      exact .nil
    · rw [hlist, hlist']
      exact hmatch

lemma marks_checkMembers {entry entry' : Entry} (h : entry.Matches r entry') :
    Report.marks (checkMembers entry') = Report.marks (checkMembers entry) := by
  refine Report.marks_flatMap (matches_memberGroups (forall₂_filter h.allMembers
    fun _ _ hmember => hmember.valid)) fun group group' hgroup => marks_checkGroup (r := r) ?_
  rw [List.forall₂_map_left_iff, List.forall₂_map_right_iff]
  exact hgroup.2.imp fun _ _ hmember => hmember.toEntry

/-- The marks of reports on the name of a child namespace. -/
lemma marks_namespaceClash (lib : Library) (id : SpaceId) (name : String) (records : List Entry) :
    Report.marks (namespaceClash lib id name records)
      = records.map fun record => (record.document, record.nameRange, .error, .duplicateName) := by
  simp only [namespaceClash, Report.marks, List.map_map]
  rfl

/-- Groups that list corresponding declarations have corresponding valid records. -/
lemma matches_validRecords {lib lib' : Library}
    (hfind : ∀ id, Option.Rel (Entry.Matches r) (lib.find? id)
      (lib'.find? (r.decl id))) (group : List DeclId) : List.Forall₂ (Entry.Matches r)
    (validRecords lib group) (validRecords lib' (group.map r.decl)) := by
  refine forall₂_filter ?_ fun _ _ hrecord => hrecord.valid
  refine List.rel_filterMap (R := fun id id' => id' = r.decl id) ?_ ?_
  · rintro id _ rfl
    exact hfind id
  · rw [List.forall₂_map_right_iff]
    exact List.forall₂_same.2 fun _ _ => rfl

/-- The report on the groups of a namespace that lists corresponding declarations in the same
order. -/
lemma marks_checkSpace {lib lib' : Library} (hfind : ∀ id, Option.Rel
    (Entry.Matches r) (lib.find? id)
      (lib'.find? (r.decl id))) {space space' : Namespace}
    (h : space'.skeleton = space.skeleton.renumber r) :
    Report.marks (checkSpace lib' space') = Report.marks (checkSpace lib space) := by
  have hgroups : space'.groups = space.groups.map fun group => (group.1, group.2.map r.decl) :=
    congrArg (·.groups) h
  have hchildren : space'.children = space.children := congrArg (·.children) h
  refine Report.marks_flatMap (R := fun group group' : String × List DeclId =>
    group' = (group.1, group.2.map r.decl)) ?_ fun group group' hgroup => ?_
  · rw [hgroups, List.forall₂_map_right_iff]
    exact List.forall₂_same.2 fun _ _ => rfl
  · subst hgroup
    have hrecords := matches_validRecords hfind group.2
    dsimp only
    rw [hchildren, Report.marks_append, Report.marks_append, marks_checkGroup hrecords]
    refine congrArg (· ++ _) ?_
    split
    · rw [marks_namespaceClash, marks_namespaceClash]
      exact map_eq_of_forall₂ hrecords fun record record' hrecord => by
        rw [hrecord.document, hrecord.nameRange]
    · rfl

end Duplicates

lemma Arena.live_skeleton (arena : Arena) :
    arena.skeleton.live = arena.live.map fun space => (space.1, space.2.skeleton) := by
  rw [live, live, skeleton, List.map_filterMap, List.zipIdx_map, List.filterMap_map]
  refine List.filterMap_congr fun x _ => ?_
  obtain ⟨slot, id⟩ := x
  cases slot <;> rfl

lemma Arena.live_renumber (r : Renumbering) (arena : Arena) :
    (arena.renumber r).live = arena.live.map fun space => (space.1, space.2.renumber r) := by
  rw [live, live, renumber, List.map_filterMap, List.zipIdx_map, List.filterMap_map]
  refine List.filterMap_congr fun x _ => ?_
  obtain ⟨slot, id⟩ := x
  cases slot <;> rfl

namespace LibrarySet.Matches

variable {r : Renumbering} {area : Area} {set set' : LibrarySet}
  (h : set.Matches Entry.core r area set') {library : LibraryId} {lib lib' : Library}
  (hnear : area.near library) (hproject : library ≠ .project) (hlib : set.get? library = some lib)
  (hlib' : set'.get? (r.library library) = some lib')

include h hnear hlib hlib'

/-- Each of the two libraries finds what the other one does. -/
lemma find?_get? (id : DeclId) : Option.Rel (Entry.Matches r) (lib.find? id)
    (lib'.find? (r.decl id)) := by
  by_cases hid : id.library = library
  · have hrel : Option.Rel (Entry.Matches r) (set.find? id) (set'.find? (r.decl id)) :=
      h.find?_core (hid ▸ hnear)
    rw [LibrarySet.find?, LibrarySet.find?, r.library_decl, hid, hlib, hlib'] at hrel
    exact hrel
  · have hid' : (r.decl id).library ≠ r.library library := fun heq =>
      hid (r.library.injective ((r.library_decl id).symm.trans heq))
    rw [lib.find?_eq, if_neg (h.identified _ _ hlib ▸ hid), lib'.find?_eq,
      if_neg (h.identified' _ _ hlib' ▸ hid')]
    exact .none

include hproject

/-- The report on names that are declared twice. -/
lemma marks_checkDuplicates (hspaces : lib'.spaces.skeleton = lib.spaces.skeleton.renumber r) :
    Report.marks lib'.checkDuplicates = Report.marks lib.checkDuplicates := by
  have hfind := h.find?_get? hnear hlib hlib'
  have hlive : List.Forall₂ (fun space space' : SpaceId × Namespace =>
      (space'.1, space'.2.skeleton) = (space.1, space.2.skeleton.renumber r))
      lib.spaces.live lib'.spaces.live := by
    refine forall₂_of_map_eq ?_
    rw [← Arena.live_skeleton, hspaces, Arena.live_renumber, Arena.live_skeleton, List.map_map]
    rfl
  unfold Library.checkDuplicates
  rw [Report.marks_append, Report.marks_append]
  refine congrArg₂ _ ?_ ?_
  · refine Report.marks_flatMap hlive fun space space' hspace => ?_
    exact Duplicates.marks_checkSpace hfind (Prod.mk.inj hspace).2
  · refine Report.marks_flatMap (R := Entry.Matches r) ?_ fun _ _ hentry =>
      Duplicates.marks_checkMembers hentry
    refine List.rel_flatMap (R := Eq) (List.forall₂_eq_eq_eq ▸ rfl) ?_
    rintro category _ rfl
    exact h.entries hnear hproject hlib hlib' category

end LibrarySet.Matches

/-! ## Relations -/

namespace Edit

lemma onContents_relations (f : Relations → Relations) :
    (callable fun c => { c with relations := f c.relations }).OnContents := by
  refine ⟨fun entry => ?_, fun m => rfl⟩
  simp only [callable, Entry.content, Symbol.map]
  cases entry.body <;> rfl

variable {r : Renumbering}

lemma copies_relations {f f' : Relations → Relations}
    (h : ∀ relations, f' (r.relations relations) = r.relations (f relations)) :
    (callable fun c => { c with relations := f c.relations }).Copies r
      (callable fun c => { c with relations := f' c.relations }) := by
  have hleaf (part : Leaf) :
      (r.leaf part).overCallable (fun c => { c with relations := f' c.relations })
        = r.leaf (part.overCallable fun c => { c with relations := f c.relations }) := by
    cases part with
    | callable info => simp only [Renumbering.leaf, Leaf.overCallable, h]
    | _ => rfl
  refine ⟨fun entry => ?_, fun m => ?_⟩
  · simp only [callable, Renumbering.entry, Renumbering.symbol, Symbol.map]
    cases entry.body with
    | leaf part => simp only [Renumbering.body, hleaf]
    | _ => rfl
  · simp only [callable, Renumbering.member, Renumbering.symbol, Symbol.map, hleaf]

end Edit

/-- Forgetting the relations of functions commutes with views that go through members. -/
lemma Body.content_clearRelations (body : Body) :
    body.clearRelations.content = body.content.clearRelations := by
  have hclear (list : List Member) :
      (list.map fun m => m.map (Leaf.overCallable fun c => { c with relations := {} })).map
        Member.content = (list.map Member.content).map fun m =>
          m.map (Leaf.overCallable fun c => { c with relations := {} }) := by
    simp only [List.map_map]
    rfl
  rw [clearRelations, content_overMembers _ _ hclear, content_overMembers _ _ hclear,
    content_overMembers _ _ hclear]
  rfl

lemma Renumbering.body_clearRelations (r : Renumbering) (body : Body) :
    (r.body body).clearRelations = r.body body.clearRelations := by
  have hclear (list : List Member) :
      (list.map fun m => m.map (Leaf.overCallable fun c => { c with relations := {} })).map r.member
        = (list.map r.member).map fun m =>
          m.map (Leaf.overCallable fun c => { c with relations := {} }) := by
    simp only [List.map_map]
    refine List.map_congr_left fun m _ => ?_
    simp only [Function.comp_apply, member, symbol, Symbol.map]
    cases m.body <;> rfl
  rw [Body.clearRelations, Body.clearRelations, r.body_overMembers _ _ hclear,
    r.body_overMembers _ _ hclear, r.body_overMembers _ _ hclear]

lemma Edit.onContents_clear : (Edit.body Body.clearRelations).OnContents :=
  ⟨fun entry => by simp only [body, Entry.content, Symbol.map, Body.content_clearRelations],
    fun _ => rfl⟩

lemma Edit.copies_clear (r : Renumbering) :
    (Edit.body Body.clearRelations).Copies r (Edit.body Body.clearRelations) :=
  ⟨fun entry => by simp only [body, Renumbering.entry, Renumbering.symbol, Symbol.map,
    r.body_clearRelations], fun _ => rfl⟩

lemma Renumbering.addNew_decl (r : Renumbering) (ids : List DeclId) (id : DeclId) :
    addNew (ids.map r.decl) (r.decl id) = (addNew ids id).map r.decl :=
  addAllNew_map r.decl_injective ids [id]

namespace LibrarySet.Matches

variable {r : Renumbering} {area : Area} {set set' : LibrarySet}
  (h : set.Matches Entry.content r area set')

include h

lemma relate (library : LibraryId) (function : DeclId) {f g : Relations → Relations}
    (hf : ∀ relations, g (r.relations relations) = r.relations (f relations)) :
    (relate library set function f).Matches Entry.content r area
      (LibrarySet.relate (r.library library) set' (r.decl function) g) := by
  unfold LibrarySet.relate
  by_cases hlibrary : function.library = library
  · rw [if_pos hlibrary, if_pos (by rw [r.library_decl, hlibrary])]
    exact h.edit_content (.callable _) (.callable _) (Edit.onContents_relations f)
      (Edit.onContents_relations g) fun entry _ => (Edit.copies_relations hf).atSeat function _
  · rw [if_neg hlibrary, if_neg fun heq => hlibrary (r.library.injective (r.library_decl _ ▸ heq))]
    exact h

lemma addOverride (library : LibraryId) (pair : DeclId × DeclId) :
    (addOverride library set pair).Matches Entry.content r area
      (LibrarySet.addOverride (r.library library) set' (Prod.map r.decl r.decl pair)) := by
  obtain ⟨function, base⟩ := pair
  have hfunction := h.relate library function
    (f := fun relations => { relations with overrides := addNew relations.overrides base })
    (g := fun relations => { relations with overrides := addNew relations.overrides (r.decl base) })
    fun relations => by simp only [Renumbering.relations, Renumbering.addNew_decl]
  simp only [LibrarySet.addOverride, Prod.map_apply]
  exact hfunction.relate library base
    (f := fun relations =>
      { relations with overriddenBy := addNew relations.overriddenBy function })
    (g := fun relations =>
      { relations with overriddenBy := addNew relations.overriddenBy (r.decl function) })
    fun relations => by simp only [Renumbering.relations, Renumbering.addNew_decl]

lemma addImplementation (library : LibraryId) (pair : DeclId × DeclId) :
    (addImplementation library set pair).Matches Entry.content r area
      (LibrarySet.addImplementation (r.library library) set' (Prod.map r.decl r.decl pair)) := by
  obtain ⟨function, base⟩ := pair
  have hfunction := h.relate library function
    (f := fun relations => { relations with implements := addNew relations.implements base })
    (g := fun relations =>
      { relations with implements := addNew relations.implements (r.decl base) })
    fun relations => by simp only [Renumbering.relations, Renumbering.addNew_decl]
  simp only [LibrarySet.addImplementation, Prod.map_apply]
  exact hfunction.relate library base
    (f := fun relations =>
      { relations with implementedBy := addNew relations.implementedBy function })
    (g := fun relations =>
      { relations with implementedBy := addNew relations.implementedBy (r.decl function) })
    fun relations => by simp only [Renumbering.relations, Renumbering.addNew_decl]

omit h in
/-- Steps that keep models matching, one for each pair of functions. -/
lemma foldl_pairs {f f' : LibrarySet → DeclId × DeclId → LibrarySet}
    (hstep : ∀ {set set'}, set.Matches Entry.content r area set' → ∀ pair,
      (f set pair).Matches Entry.content r area (f' set' (Prod.map r.decl r.decl pair)))
    (pairs : List (DeclId × DeclId)) {set set' : LibrarySet}
    (h : set.Matches Entry.content r area set') : (pairs.foldl f set).Matches Entry.content r area
      ((pairs.map (Prod.map r.decl r.decl)).foldl f' set') := by
  induction pairs generalizing set set' with
  | nil => exact h
  | cons pair rest ih => exact ih (hstep h pair)

/-- Verdicts on the same pairs, written down. -/
lemma record (library : LibraryId) {verdict verdict' : Verdict}
    (hverdict : verdict.Renumbered r verdict') :
    (record library set verdict).Matches Entry.content r area
      (LibrarySet.record (r.library library) set' verdict') := by
  unfold LibrarySet.record
  rw [hverdict.overrides, hverdict.implements]
  exact foldl_pairs (fun h pair => h.addImplementation library pair) _
    (foldl_pairs (fun h pair => h.addOverride library pair) _ h)

lemma clearRelations {library : LibraryId} (hnear : area.near library)
    (hproject : library ≠ .project) :
    (set.clearRelations library).Matches Entry.content r area
      (set'.clearRelations (r.library library)) := by
  have hloaded := h.loaded library hnear
  unfold LibrarySet.clearRelations
  cases hlib : set.get? library with
  | none =>
    rw [hlib, Option.isSome_none, Option.isSome_eq_false_iff, Option.isNone_iff_eq_none] at hloaded
    rw [hloaded]
    exact h
  | some lib =>
    rw [hlib] at hloaded
    obtain ⟨lib', hlib'⟩ := Option.isSome_iff_exists.1 hloaded
    have howners : List.Forall₂ (Entry.Matches r)
        ([Category.struct, .interface, .class].flatMap lib.entries)
        ([Category.struct, .interface, .class].flatMap lib'.entries) := by
      refine List.rel_flatMap (R := Eq) (List.forall₂_eq_eq_eq ▸ rfl) ?_
      rintro category _ rfl
      exact (h.mono Entry.core_content r.core_entry).entries hnear hproject hlib hlib' category
    rw [hlib']
    dsimp only
    generalize [Category.struct, .interface, .class].flatMap lib.entries = owners at howners
    generalize [Category.struct, .interface, .class].flatMap lib'.entries = owners' at howners
    clear hlib hlib' hloaded
    induction howners generalizing set set' with
    | nil => exact h
    | @cons owner owner' _ _ howner _ ih =>
      refine ih ?_
      dsimp only
      rw [howner.id]
      exact h.edit_content (.body _) (.body _) (Edit.onContents_clear) Edit.onContents_clear
        fun entry _ => (Edit.copies_clear r).atSeat owner.id _

end LibrarySet.Matches

/-! ## The check -/

namespace LibrarySet

/-- The namespaces of a library, without references. -/
def arena? (set : LibrarySet) (library : LibraryId) : Option Arena :=
  (set.get? library).map fun lib => lib.spaces.skeleton

lemma arena?_of_skeleton_eq {set set' : LibrarySet} (h : set'.skeleton = set.skeleton)
    (library : LibraryId) : set'.arena? library = set.arena? library := by
  have hread (set : LibrarySet) :
      set.arena? library = (set.skeleton.get? library).map Library.spaces := by
    rw [arena?, get?_skeleton, Option.map_map]
    rfl
  rw [hread, h, hread]

/-- The libraries have the same namespaces, under the new numbers. -/
def SameSpaces (r : Renumbering) (library : LibraryId) (set set' : LibrarySet) : Prop :=
  set'.arena? (r.library library) = (set.arena? library).map (Arena.renumber r)

lemma Orderly.library_of_slot? {set : LibrarySet} (orderly : set.Orderly) {library : LibraryId}
    {category : Category} {index : Nat} {entry : Entry}
    (hslot : set.slot? library category index = some entry) : entry.id.library = library := by
  have htags : set.tags? library category index = some entry.tags := by rw [tags?, hslot]; rfl
  exact congrArg DeclId.library (orderly.tags htags).id_eq

variable {r : Renumbering} {area : Area} {set set' : LibrarySet} {library : LibraryId}

/-- In models that match, libraries match after their checks, which report the same if the libraries
have the same namespaces. -/
theorem Matches.check (h : set.Matches Entry.content r area set') (orderly : set.Orderly)
    (encloses : set.Encloses area.near) (hnear : area.near library)
    (hproject : library ≠ .project) :
    (set.check library).1.Matches Entry.content r area (set'.check (r.library library)).1 ∧
      (SameSpaces r library set set' →
        Report.marks (set'.check (r.library library)).2 = Report.marks (set.check library).2) := by
  have hclear := h.clearRelations hnear hproject
  have orderly : (set.clearRelations library).Orderly :=
    (sameTags_clearRelations orderly library).orderly orderly
  have encloses : (set.clearRelations library).Encloses area.near :=
    encloses.of_kin_eq fun id _ => (sameKin_clearRelations h.identified library).kin id
  -- Only the report on duplicate names reads the namespaces, in their order.
  have hspaces (hspaces : SameSpaces r library set set') : SameSpaces r library
      (set.clearRelations library) (set'.clearRelations (r.library library)) := by
    unfold SameSpaces
    rw [arena?_of_skeleton_eq (set'.skeleton_clearRelations _), hspaces,
      arena?_of_skeleton_eq (set.skeleton_clearRelations _)]
  have hloaded := hclear.loaded library hnear
  unfold LibrarySet.check
  cases hlib : (set.clearRelations library).get? library with
  | none =>
    rw [hlib, Option.isSome_none, Option.isSome_eq_false_iff, Option.isNone_iff_eq_none] at hloaded
    simp only [hlib, hloaded]
    exact ⟨hclear, fun _ => trivial⟩
  | some lib =>
    rw [hlib] at hloaded
    obtain ⟨lib', hlib'⟩ := Option.isSome_iff_exists.1 hloaded
    have hcores := hclear.mono Entry.core_content r.core_entry
    have hverdict := hcores.judge hnear hproject hlib hlib' encloses
      fun _ _ _ hslot => orderly.library_of_slot? hslot
    simp only [hlib, hlib', Report.marks_append, hverdict.marks]
    refine ⟨hclear.record library hverdict, fun hsame => ?_⟩
    have hnamespaces : lib'.spaces.skeleton = lib.spaces.skeleton.renumber r := by
      have hsame := hspaces hsame
      rw [SameSpaces, arena?, hlib', arena?, hlib] at hsame
      exact Option.some.inj hsame
    rw [hcores.marks_checkDuplicates hnear hproject hlib hlib' hnamespaces]

end LibrarySet

/-- The diagnostics of a document are found by their marks. -/
lemma Report.map_mark_of (report : Report) (document : String) :
    (report.of document).map Diagnostic.mark
      = (report.marks.filter fun mark => mark.1 = document).map Prod.snd := by
  simp only [Report.of, marks, List.filter_map, List.map_map]
  rfl

lemma Report.marks_of {report report' : Report} (h : report'.marks = report.marks)
    (document : String) : (report'.of document).map Diagnostic.mark
      = (report.of document).map Diagnostic.mark := by
  rw [map_mark_of, h, map_mark_of]

lemma Report.marks_except {report report' : Report} (h : report'.marks = report.marks)
    (document : String) : (report'.except document).marks = (report.except document).marks := by
  have hread (report : Report) : (report.except document).marks
      = report.marks.filter fun mark => mark.1 ≠ document := by
    simp only [except, marks, List.filter_map]
    rfl
  rw [hread, h, hread]

/-- Documents that match get reports with the same marks. -/
lemma matches_handOut {r : Renumbering} {units units' : List SourceUnit}
    (h : List.Forall₂ (SourceUnit.Matches r) units units') {report report' : Report}
    (hreport : report'.marks = report.marks) :
    List.Forall₂ (SourceUnit.Matches r) (handOut report units) (handOut report' units') := by
  induction h generalizing report report' with
  | nil => exact .nil
  | @cons unit unit' _ _ hunit _ ih =>
    rw [handOut, handOut, hunit.path]
    refine .cons ⟨hunit.tree, hunit.library, hunit.declarations, hunit.scopes, ?_⟩
      (ih (Report.marks_except hreport unit.path))
    exact Diagnostics.marks_append hunit.marks .check (Report.marks_of hreport unit.path)

/-- Linking matching documents of a library into models that match, and checking the library. -/
lemma Linkages.matches_finish {r : Renumbering} {area : Area} {others others' : List SourceUnit}
    {state state' : Linkages} (related : Related SourceUnit.Undeclared (Linkage.Contents r area)
      (Linkage.Documents r area) others others' state state') (options : LinkOptions)
    {library : LibraryId} (hnear : area.near library) (hproject : library ≠ .project)
    (hspaces : LibrarySet.SameSpaces r library state.libraries state'.libraries) :
    Linkage.Contents r area (state.finish options library).libraries
        (state'.finish options (r.library library)).libraries ∧
      List.Forall₂ (SourceUnit.Matches r) (state.finish options library).units
        (state'.finish options (r.library library)).units := by
  have linked := matches_link related options
  have hspaces : LibrarySet.SameSpaces r library (state.link options).libraries
      (state'.link options).libraries := by
    rw [LibrarySet.SameSpaces, LibrarySet.arena?_of_skeleton_eq (state'.skeleton_link options).1,
      hspaces, LibrarySet.arena?_of_skeleton_eq (state.skeleton_link options).1]
  obtain ⟨hcontents, hmarks⟩ := linked.libraries.1.check linked.arranged.orderly linked.libraries.2
    hnear hproject
  refine ⟨⟨hcontents, linked.libraries.2.of_kin_eq fun id _ => ?_⟩,
    matches_handOut (linked.units.imp fun _ _ h => h.1) (hmarks hspaces)⟩
  exact (LibrarySet.sameKin_check linked.arranged.orderly.identified library).kin id

end SymbolGraph
