import SymbolGraph.Proofs.Checking.ReturnTypes
import SymbolGraph.Proofs.Renumbering.Isomorphism

/-!
# Reports in another order

Under other numbers the declarations of the project stand in another order in their tables, the
namespaces in another order in the arena, and a name group may list the same declarations in another
order, after other groups.  A check goes through all of these, but what it has to say on each of
them does not depend on what comes before.  So checking a copy of a model reports the same, up to
order (`LibrarySet.Matches.perm_marks_check`).

In a name group the report on a record depends on the other records, but not on the order in which
they are listed: a record that clashes with another does so wherever the two stand
(`Duplicates.marks_sameParameters_eq`).
-/

namespace SymbolGraph

/-! ## Going through the same things in another order -/

section

variable {α β γ : Type}

/-- What is collected from a list is what is collected from another one without repetition, if the
two agree on what has something to contribute. -/
lemma perm_flatMap_of_nodup {f : α → List β} {xs ys : List α} (hxs : xs.Nodup) (hys : ys.Nodup)
    (h : ∀ x, f x ≠ [] → (x ∈ xs ↔ x ∈ ys)) : (xs.flatMap f).Perm (ys.flatMap f) := by
  have hempty (zs : List α) : (zs.filter fun x => !(f x).isEmpty).flatMap f = zs.flatMap f :=
    flatMap_filter_of_nil fun x _ hx => by simpa using hx
  rw [← hempty xs, ← hempty ys]
  refine List.Perm.flatMap_right f ?_
  rw [List.perm_ext_iff_of_nodup (hxs.filter _) (hys.filter _)]
  intro x
  simp only [List.mem_filter, Bool.not_eq_true', List.isEmpty_eq_false_iff]
  exact and_congr_left fun hx => h x hx

/-- The same for two lists of which one is the other under other names. -/
lemma perm_flatMap_of_equiv (e : α ≃ β) {f : α → List γ} {g : β → List γ}
    {xs : List α} {ys : List β}
    (hxs : xs.Nodup) (hys : ys.Nodup) (hf : ∀ x, f x ≠ [] → x ∈ xs) (hg : ∀ y, g y ≠ [] → y ∈ ys)
    (hfg : ∀ x, (g (e x)).Perm (f x)) : (ys.flatMap g).Perm (xs.flatMap f) := by
  have hback : ys.flatMap g = (ys.map e.symm).flatMap fun x => g (e x) := by
    rw [List.flatMap_map]
    exact List.flatMap_congr fun y _ => by rw [e.apply_symm_apply]
  rw [hback]
  refine (List.Perm.flatMap_left _ fun x _ => hfg x).trans ?_
  refine perm_flatMap_of_nodup (hys.map e.symm.injective) hxs fun x hx => ?_
  refine iff_of_true (List.mem_map.2 ⟨e x, hg _ fun hnil => hx ?_, e.symm_apply_apply x⟩) (hf x hx)
  exact (hnil ▸ hfg x).symm.eq_nil

/-- What is in the slots of a table, read slot by slot. -/
lemma flatMap_slots (slots : List (Option α)) (f : α → List β) :
    (slots.filterMap fun slot => slot).flatMap f
      = (List.range slots.length).flatMap fun i => slots[i]?.join.elim [] f := by
  induction slots using List.reverseRecOn with
  | nil => rfl
  | append_singleton rest slot ih =>
    have hrest : (List.range rest.length).flatMap (fun i => (rest ++ [slot])[i]?.join.elim [] f)
        = (List.range rest.length).flatMap fun i => rest[i]?.join.elim [] f :=
      List.flatMap_congr fun i hi => by rw [List.getElem?_append_left (List.mem_range.1 hi)]
    rw [List.filterMap_append, List.flatMap_append, ih, List.length_append, List.length_singleton,
      List.range_succ, List.flatMap_append, hrest]
    cases slot <;> simp

end

/-! ## Groups in another order -/

namespace Duplicates

lemma others_of_lt {α : Type} (xs : List α) {n i : Nat} (h : i < n) (p : α → Bool) :
    ((xs.zipIdx n).filter fun (x, j) => decide (j ≠ i) && p x).map Prod.fst = xs.filter p := by
  induction xs generalizing n with
  | nil => rfl
  | cons x rest ih =>
    have hne : n ≠ i := Nat.ne_of_gt h
    rw [List.zipIdx_cons, List.filter_cons, List.filter_cons, ← ih (Nat.lt_succ_of_lt h)]
    cases hp : p x <;> simp [hp, hne]

/-- The others are those that are left when the one at the position is taken out. -/
lemma others_eq {α : Type} (xs : List α) (i : Nat) (p : α → Bool) :
    others xs i p = (xs.eraseIdx i).filter p := by
  suffices hfrom : ∀ n, ((xs.zipIdx n).filter fun (x, j) => decide (j ≠ n + i) && p x).map Prod.fst
      = (xs.eraseIdx i).filter p by
    have hzero := hfrom 0
    simp only [Nat.zero_add] at hzero
    exact hzero
  induction xs generalizing i with
  | nil => exact fun _ => rfl
  | cons x rest ih =>
    intro n
    rw [List.zipIdx_cons, List.filter_cons]
    cases i with
    | zero =>
      simp only [Nat.add_zero, ne_eq, not_true_eq_false, decide_false, Bool.false_and,
        Bool.false_eq_true, if_false, List.eraseIdx_cons_zero]
      exact others_of_lt rest (Nat.lt_succ_self n) p
    | succ i =>
      have hrest := ih i (n + 1)
      rw [show n + 1 + i = n + (i + 1) by omega] at hrest
      rw [List.eraseIdx_cons_succ, List.filter_cons, ← hrest]
      cases hp : p x <;> simp [hp]

/-- A record has others like it exactly if there are two or more of its kind. -/
lemma others_eq_nil_iff {α : Type} {xs : List α} {x : α} {i : Nat} (h : (x, i) ∈ xs.zipIdx)
    {p : α → Bool} (hp : p x = true) : others xs i p = [] ↔ xs.countP p < 2 := by
  obtain ⟨hi, heq⟩ := List.mem_zipIdx' h
  have hcount := (List.getElem_cons_eraseIdx_perm hi).countP_eq p
  rw [← heq, List.countP_cons_of_pos hp] at hcount
  rw [others_eq, ← List.length_eq_zero_iff, ← List.countP_eq_length_filter, ← hcount]
  omega

/-- The marks of reports on overloads with the same parameters. -/
theorem marks_sameParameters_eq (records : List Entry) : Report.marks (sameParameters records)
    = (signed records).filterMap fun one =>
        if (signed records).countP (fun other => other.2 = one.2) < 2 then none
        else some (one.1.document, one.1.nameRange, .error, .invalidOverload) := by
  have hfst {δ : Type} (f : Entry × Signature → Option δ) : (signed records).filterMap f
      = (signed records).zipIdx.filterMap fun x => f x.1 := by
    conv_lhs => rw [← List.zipIdx_map_fst 0 (signed records), List.filterMap_map]
    rfl
  rw [hfst, Report.marks, sameParameters, List.map_filterMap]
  refine List.filterMap_congr fun x hx => ?_
  obtain ⟨⟨record, signature⟩, i⟩ := x
  have hnil := others_eq_nil_iff hx (p := fun other => decide (other.2 = signature))
    (decide_eq_true rfl)
  dsimp only
  split
  · next hothers =>
    rw [if_pos (hnil.1 hothers)]
    rfl
  · next hothers =>
    rw [if_neg fun hcount => hothers (hnil.2 hcount)]
    rfl

/-- The order of a group does not matter. -/
lemma perm_marks_checkGroup {records records' : List Entry} (h : records'.Perm records) :
    (Report.marks (checkGroup records')).Perm (Report.marks (checkGroup records)) := by
  have hall : (records'.all fun record => record.category.isOverloadable)
      = records.all fun record => record.category.isOverloadable := by
    rw [Bool.eq_iff_iff, List.all_eq_true, List.all_eq_true]
    simp only [h.mem_iff]
  unfold checkGroup
  rw [h.length_eq, hall]
  split
  · exact .refl _
  · split
    · have hsigned : (signed records').Perm (signed records) := h.filterMap _
      rw [marks_sameParameters_eq, marks_sameParameters_eq]
      simp only [hsigned.countP_eq]
      exact hsigned.filterMap _
    · rw [marks_sharedName, marks_sharedName]
      exact h.map _

/-- The report on one name of a namespace. -/
def nameReport (lib : Library) (space : Namespace) (name : String) : Report :=
  let records := validRecords lib (space.group name)
  (if space.children.has name then namespaceClash lib space.id name records else []) ++
  checkGroup records

lemma checkSpace_eq {space : Namespace} (hkeys : space.groups.keys.Nodup) (lib : Library) :
    checkSpace lib space = space.groups.keys.flatMap (nameReport lib space) := by
  rw [checkSpace, Assoc.keys, List.flatMap_map]
  refine List.flatMap_congr fun entry hentry => ?_
  obtain ⟨name, group⟩ := entry
  have hgroup : space.group name = group := by
    rw [Namespace.group, Assoc.at?_of_mem hkeys hentry, Option.getD_some]
  rw [nameReport, hgroup]

/-- There is nothing to report on a name that nothing has. -/
lemma nameReport_eq_nil {space : Namespace} {name : String} (h : name ∉ space.groups.keys)
    (lib : Library) : nameReport lib space name = [] := by
  have hgroup : space.group name = [] := by
    rw [Namespace.group, (Assoc.at?_eq_none_iff _ _).2 h, Option.getD_none]
  have hrecords : validRecords lib [] = [] := rfl
  simp [nameReport, hgroup, hrecords, namespaceClash, checkGroup]

section

variable {r : Renumbering} {lib lib' : Library} {library : LibraryId} {space space' : Namespace}
  (hfind : ∀ id, Option.Rel (Entry.Matches r) (lib.find? id) (lib'.find? (r.decl id)))
  (h : space.Matches r library space')

include hfind h

/-- A name has the same report, whatever the order of its group. -/
lemma perm_marks_nameReport (name : String) :
    (Report.marks (nameReport lib' space' name)).Perm
    (Report.marks (nameReport lib space name)) := by
  have hperm : (validRecords lib' (space'.group name)).Perm
      (validRecords lib' ((space.group name).map r.decl)) := ((h.group name).filterMap _).filter _
  have hrecords := matches_validRecords hfind (space.group name)
  have hhas : space'.children.has name = space.children.has name := by
    rw [Assoc.has, Assoc.has, h.child, Option.isSome_map]
  rw [nameReport, nameReport, Report.marks_append, Report.marks_append, hhas]
  refine List.Perm.append ?_ ?_
  · split
    · have hmarks : (validRecords lib' ((space.group name).map r.decl)).map (fun record =>
            (record.document, record.nameRange, Severity.error, DiagnosticCode.duplicateName))
          = (validRecords lib (space.group name)).map fun record =>
            (record.document, record.nameRange, .error, .duplicateName) :=
        map_eq_of_forall₂ hrecords fun _ _ hrecord => by rw [hrecord.document, hrecord.nameRange]
      rw [marks_namespaceClash, marks_namespaceClash, ← hmarks]
      exact hperm.map _
    · exact .refl _
  · rw [← marks_checkGroup hrecords]
    exact perm_marks_checkGroup hperm

lemma perm_marks_checkSpace (hkeys : space.groups.keys.Nodup) (hkeys' : space'.groups.keys.Nodup) :
    (Report.marks (checkSpace lib' space')).Perm (Report.marks (checkSpace lib space)) := by
  have hempty {lib : Library} {space : Namespace} (name : String)
      (hne : Report.marks (nameReport lib space name) ≠ []) : name ∈ space.groups.keys := by
    by_contra hname
    rw [nameReport_eq_nil hname] at hne
    exact hne rfl
  rw [checkSpace_eq hkeys, checkSpace_eq hkeys', Report.marks, Report.marks, List.map_flatMap,
    List.map_flatMap]
  exact perm_flatMap_of_equiv (Equiv.refl String) hkeys hkeys' hempty hempty
    fun name => perm_marks_nameReport hfind h name

end

end Duplicates

/-! ## Libraries in another order -/

namespace Renumbering

variable (r : Renumbering) (library : LibraryId)

/-- New slots and old ones correspond one to one. -/
def slots (category : Category) : Nat ≃ Nat where
  toFun := r.slot library category
  invFun := r.symm.slot library category
  left_inv := r.slot_symm_slot library category
  right_inv := r.slot_slot_symm library category

/-- New places and old ones correspond one to one. -/
def places : SpaceId ≃ SpaceId where
  toFun := r.place library
  invFun := r.symm.place library
  left_inv := r.place_symm_place library
  right_inv := r.place_place_symm library

end Renumbering

lemma Library.flatMap_entries {β : Type} (lib : Library) (category : Category)
    (f : Entry → List β) :
    (lib.entries category).flatMap f
      = (List.range (lib.tableSize category)).flatMap fun index =>
        (lib.slot? category index).elim [] f :=
  flatMap_slots (lib.table category) f

lemma Arena.flatMap_live {β : Type} (arena : Arena) (f : SpaceId × Namespace → List β) :
    arena.live.flatMap f
      = (arena.live.map Prod.fst).flatMap fun id => (arena.get? id).elim [] fun space =>
        f (id, space) := by
  rw [List.flatMap_map]
  refine List.flatMap_congr fun entry hentry => ?_
  rw [mem_live_iff.1 hentry, Option.elim_some]

namespace LibrarySet.Matches

variable {r : Renumbering} {set set' : LibrarySet} (h : set.Matches Entry.core r .all set')
  {library : LibraryId} {lib lib' : Library} (hlib : set.get? library = some lib)
  (hlib' : set'.get? (r.library library) = some lib')

include h hlib hlib'

lemma slot?_matches (category : Category) (index : Nat) : Option.Rel (Entry.Matches r)
    (lib.slot? category index) (lib'.slot? category (r.slot library category index)) := by
  have heq := h.slots library category index trivial
  rw [slot?, slot?, hlib, hlib', Option.bind_some, Option.bind_some] at heq
  exact rel_of_map_eq heq

lemma space?_matches (id : SpaceId) : Option.Rel (Namespace.Matches r library) (lib.spaces.get? id)
    (lib'.spaces.get? (r.place library id)) := by
  have hspace := h.spaces ⟨library, id⟩ trivial
  rw [Renumbering.ref, space?, space?, hlib, hlib'] at hspace
  exact hspace

/-- What is collected from the entries of a library, in another order. -/
lemma perm_flatMap_entries {β : Type} {f f' : Entry → List β} (category : Category)
    (hf : ∀ index entry entry', lib.slot? category index = some entry → entry.Matches r entry' →
      (f' entry').Perm (f entry)) :
    ((lib'.entries category).flatMap f').Perm ((lib.entries category).flatMap f) := by
  have hin {lib : Library} {f : Entry → List β} (index : Nat)
      (hne : (lib.slot? category index).elim [] f ≠ []) :
        index ∈ List.range (lib.tableSize category) := by
    refine List.mem_range.2 (Nat.lt_of_not_le fun hle => hne ?_)
    rw [Library.slot?, List.getElem?_eq_none hle]
    rfl
  rw [lib.flatMap_entries, lib'.flatMap_entries]
  refine perm_flatMap_of_equiv (r.slots library category) List.nodup_range List.nodup_range hin hin
    fun index => ?_
  change ((lib'.slot? category (r.slot library category index)).elim [] f').Perm _
  obtain ⟨hnone, hnone'⟩ | ⟨entry, entry', hslot, hslot', hentry⟩ :=
    rel_cases (h.slot?_matches hlib hlib' category index)
  · rw [hnone, hnone']
    exact .refl _
  · rw [hslot, hslot']
    exact hf index entry entry' hslot hentry

/-- The report on names that are declared twice. -/
lemma perm_marks_checkDuplicates (keyed : set.GroupsByName) (keyed' : set'.GroupsByName) :
    (Report.marks lib'.checkDuplicates).Perm (Report.marks lib.checkDuplicates) := by
  have hfind := h.find?_get? trivial hlib hlib'
  unfold Library.checkDuplicates Library.allEntries
  rw [Report.marks_append, Report.marks_append]
  -- First the groups of the namespaces, which correspond identity by identity, then the members of
  -- the entries, category by category.
  refine List.Perm.append ?_ ?_
  · have hin {arena : Arena} {f : SpaceId → Namespace →
      List (String × Range × Severity × DiagnosticCode)}
        (id : SpaceId) (hne : (arena.get? id).elim [] (f id) ≠ []) :
          id ∈ arena.live.map Prod.fst := by
      rw [Arena.mem_map_fst_live_iff]
      cases hspace : arena.get? id with
      | none => simp [hspace] at hne
      | some space => exact ⟨space, rfl⟩
    rw [Report.marks, Report.marks, List.map_flatMap, List.map_flatMap, Arena.flatMap_live,
      Arena.flatMap_live]
    refine perm_flatMap_of_equiv (r.places library) lib.spaces.nodup_map_fst_live
      lib'.spaces.nodup_map_fst_live hin hin fun id => ?_
    change ((lib'.spaces.get? (r.place library id)).elim [] _).Perm _
    obtain ⟨hnone, hnone'⟩ | ⟨space, space', hspace, hspace', hmatches⟩ :=
      rel_cases (h.space?_matches hlib hlib' id)
    · rw [hnone, hnone']
      exact List.Perm.nil
    · rw [hspace, hspace']
      refine Duplicates.perm_marks_checkSpace hfind hmatches (keyed ⟨library, id⟩ _ ?_)
        (keyed' ⟨r.library library, r.place library id⟩ _ ?_)
      · rw [space?, hlib, Option.bind_some, hspace]
      · rw [space?, hlib', Option.bind_some, hspace']
  · rw [List.flatMap_assoc, List.flatMap_assoc, Report.marks, Report.marks, List.map_flatMap,
      List.map_flatMap]
    refine List.Perm.flatMap_left _ fun category _ => ?_
    rw [List.map_flatMap, List.map_flatMap]
    exact h.perm_flatMap_entries hlib hlib' category fun _ _ _ _ hentry =>
      .of_eq (Duplicates.marks_checkMembers hentry)

/-- The report of a verdict. -/
lemma perm_marks_judge :
    (Report.marks (set'.judge lib').report).Perm (Report.marks (set.judge lib).report) := by
  have hvalid (category : Category) {f f' : Entry → Verdict}
      (hf : ∀ entry entry', entry.Matches r entry' → (f entry).Renumbered r (f' entry')) :
      (Report.marks
        (Verdict.join (((lib'.entries category).filter Symbol.valid).map f')).report).Perm
      (Report.marks
        (Verdict.join (((lib.entries category).filter Symbol.valid).map f)).report) := by
    -- Invalid entries report nothing, so the report may be read over all entries.
    have hread (lib : Library) (f : Entry → Verdict) :
        Report.marks ((Verdict.join (((lib.entries category).filter Symbol.valid).map f)).report)
          = (lib.entries category).flatMap fun entry =>
              if entry.valid then Report.marks (f entry).report else [] := by
      have hempty : ((lib.entries category).filter Symbol.valid).flatMap (fun entry =>
            if entry.valid then Report.marks (f entry).report else [])
          = (lib.entries category).flatMap fun entry =>
            if entry.valid then Report.marks (f entry).report else [] :=
        flatMap_filter_of_nil fun _ _ hentry => if_neg (Bool.eq_false_iff.1 hentry)
      rw [Verdict.report_join, List.flatMap_map, Report.marks, List.map_flatMap, ← hempty]
      exact List.flatMap_congr fun entry hentry => (if_pos (List.mem_filter.1 hentry).2).symm
    rw [hread, hread]
    refine h.perm_flatMap_entries hlib hlib' category fun _ entry entry' _ hentry => ?_
    rw [hentry.valid, (hf entry entry' hentry).marks]
  have hclosed (bases : DeclId → List DeclId) : Area.all.Closed bases := fun _ _ => trivial
  rw [LibrarySet.judge, LibrarySet.judge, Verdict.report_append, Verdict.report_append,
    Report.marks_append, Report.marks_append]
  refine List.Perm.append (hvalid .interface fun entry entry' hentry => ?_)
    (hvalid .class fun entry entry' hentry => ?_)
  · exact Overriding.renumbered_judgeInterface h hentry (hclosed _) fun _ _ => trivial
  · exact Overriding.renumbered_judgeClass h hentry (hclosed _) (hclosed _)
      trivial fun _ _ _ _ => trivial

end LibrarySet.Matches

namespace LibrarySet

variable {r : Renumbering} {set set' : LibrarySet}

/-- Checking a model and its copy reports the same, up to order. -/
theorem Matches.perm_marks_check (h : set.Matches Entry.core r .all set') (keyed : set.GroupsByName)
    (keyed' : set'.GroupsByName) (library : LibraryId) :
    (Report.marks (set'.check (r.library library)).2).Perm
    (Report.marks (set.check library).2) := by
  have hclear := @sameCores_clearRelations set (fun _ => False) h.identified library
  have hclear' := @sameCores_clearRelations set' (fun _ => False) h.identified' (r.library library)
  have cleared := h.of_sameCores hclear hclear' (set.skeleton_clearRelations library)
    (set'.skeleton_clearRelations _)
  have keyed := keyed.of_skeleton_eq (set.skeleton_clearRelations library)
  have keyed' := keyed'.of_skeleton_eq (set'.skeleton_clearRelations (r.library library))
  have hloaded := cleared.loaded library trivial
  unfold LibrarySet.check
  cases hlib : (set.clearRelations library).get? library with
  | none =>
    rw [hlib, Option.isSome_none, Option.isSome_eq_false_iff, Option.isNone_iff_eq_none] at hloaded
    simp only [hlib, hloaded]
    exact .refl _
  | some lib =>
    rw [hlib] at hloaded
    obtain ⟨lib', hlib'⟩ := Option.isSome_iff_exists.1 hloaded
    simp only [hlib, hlib', Report.marks_append]
    exact (cleared.perm_marks_checkDuplicates hlib hlib' keyed keyed').append
      (cleared.perm_marks_judge hlib hlib')

end LibrarySet

end SymbolGraph
