import SymbolGraph.Proofs.Checking.CircularInheritance
import SymbolGraph.Proofs.Checking.MissingImplementations

/-!
# Return types that differ

A verdict on a library consists of the verdicts on its declarations, and the pairs on a declaration
are pairs of functions of its own with others.  In an addressed model functions are told apart by
their identities, so the partners of a function can be picked out of the whole verdict
(`LibrarySet.Addressed.targetsOf_judge`), and they come in the order in which they were found.
Nothing is listed twice, and hence writing a verdict down drops nothing
(`LibrarySet.Addressed.overrides_tied`, `LibrarySet.Addressed.implements_tied`).

So after a check the reports on return types can be read off the relations that the check leaves,
and `LibrarySet.Addressed.check_reportsConflicts` says how.  An interface is judged function by
function.  A class is judged in the order of what is required of it as far as implementing goes,
while the relations are sorted by the functions of the class: there the reports agree up to their
order.
-/

namespace SymbolGraph

open Relation Overriding

/-! ## Lists put together from parts -/

/-- What one part of a list contributes to an identity's partners, if no other part has any. -/
lemma targetsOf_flatMap {α : Type} {id : DeclId} {xs : List α} {g : α → List (DeclId × DeclId)}
    (hnodup : xs.Nodup) {x : α} (hx : x ∈ xs)
    (hother : ∀ y ∈ xs, ∀ pair ∈ g y, pair.1 = id → y = x) :
    targetsOf id (xs.flatMap g) = targetsOf id (g x) := by
  induction xs with
  | nil => cases hx
  | cons y rest ih =>
    have happend (a b : List (DeclId × DeclId)) :
        targetsOf id (a ++ b) = targetsOf id a ++ targetsOf id b := by
      simp only [targetsOf, List.filter_append, List.map_append]
    obtain ⟨hnew, hrest⟩ := List.nodup_cons.1 hnodup
    rw [List.flatMap_cons, happend]
    rcases List.mem_cons.1 hx with rfl | hx
    · have hnone : targetsOf id (rest.flatMap g) = [] := by
        refine LibrarySet.targetsOf_eq_nil fun pair hpair heq => ?_
        obtain ⟨z, hz, hmem⟩ := List.mem_flatMap.1 hpair
        exact hnew (hother z (List.mem_cons_of_mem _ hz) pair hmem heq ▸ hz)
      rw [hnone, List.append_nil]
    · have hnone : targetsOf id (g y) = [] := by
        refine LibrarySet.targetsOf_eq_nil fun pair hpair heq => ?_
        exact hnew (hother y List.mem_cons_self pair hpair heq ▸ hx)
      rw [hnone, List.nil_append,
        ih hrest hx fun z hz => hother z (List.mem_cons_of_mem _ hz)]

/-- Parts that contribute nothing need not be left out. -/
lemma flatMap_filter_of_nil {α β : Type} {p : α → Bool} {g : α → List β} {xs : List α}
    (h : ∀ x ∈ xs, p x = false → g x = []) : (xs.filter p).flatMap g = xs.flatMap g := by
  induction xs with
  | nil => rfl
  | cons x rest ih =>
    have hrest := ih fun y hy => h y (List.mem_cons_of_mem _ hy)
    cases hp : p x with
    | true => rw [List.filter_cons_of_pos hp, List.flatMap_cons, List.flatMap_cons, hrest]
    | false =>
      rw [List.filter_cons_of_neg (by simp [hp]), List.flatMap_cons, h x List.mem_cons_self hp,
        List.nil_append, hrest]

/-- Sorting pairs by their left sides loses none, if each left side is listed once. -/
lemma perm_flatMap_filter {keys : List DeclId} {pairs : List (DeclId × DeclId)}
    (hnodup : keys.Nodup) (hkeys : ∀ pair ∈ pairs, pair.1 ∈ keys) :
    (keys.flatMap fun key => pairs.filter fun pair => pair.1 = key).Perm pairs := by
  induction keys generalizing pairs with
  | nil =>
    rw [List.eq_nil_iff_forall_not_mem.2 fun pair hpair => List.not_mem_nil (hkeys pair hpair)]
    exact .refl _
  | cons key rest ih =>
    obtain ⟨hnew, hrest⟩ := List.nodup_cons.1 hnodup
    have hothers (other : DeclId) (hother : other ∈ rest) :
        (pairs.filter fun pair => pair.1 = other)
          = (pairs.filter fun pair => !decide (pair.1 = key)).filter fun pair =>
            pair.1 = other := by
      rw [List.filter_filter]
      refine List.filter_congr fun pair _ => ?_
      have hne : other ≠ key := fun heq => hnew (heq ▸ hother)
      by_cases heq : pair.1 = other <;> simp [heq, hne]
    have hpairs : ∀ pair ∈ pairs.filter fun pair => !decide (pair.1 = key), pair.1 ∈ rest := by
      intro pair hpair
      obtain ⟨hmem, hne⟩ := List.mem_filter.1 hpair
      exact (List.mem_cons.1 (hkeys pair hmem)).resolve_left (by simpa using hne)
    rw [List.flatMap_cons, List.flatMap_congr hothers]
    exact ((ih hrest hpairs).append_left _).trans (List.filter_append_perm _ pairs)

lemma flatMap_linkedFunctions {β : Type} {g : Member → List β} {body : Body}
    (h : ∀ f ∈ body.functions, f ∉ linkedFunctions body → g f = []) :
    (linkedFunctions body).flatMap g = body.functions.flatMap g := by
  refine flatMap_filter_of_nil fun f hf hunlinked => h f hf fun hlinked => ?_
  rw [(List.mem_filter.1 hlinked).2] at hunlinked
  cases hunlinked

/-! ## Ties of one function -/

namespace LibrarySet

variable {set : LibrarySet}

/-- The verdict on a declaration. -/
def verdictOn (set : LibrarySet) : Category → Entry → Verdict
  | .interface, entry => judgeInterface set entry
  | .class, entry => judgeClass set entry
  | _, _ => {}

/-- The declarations above a declaration, in the order in which they are searched. -/
def above (set : LibrarySet) : Category → Entry → List DeclId
  | .interface, entry => set.interfaceClosure entry.body.superInterfaces (some entry.id)
  | .class, entry => set.classAncestors entry.id
  | _, _ => []

/-- The functions above a declaration that match a function of it. -/
def matched (set : LibrarySet) (category : Category) (entry : Entry) (f : Member) : List Member :=
  (functionsOf set (set.above category entry)).filter (sameSignature f)

lemma overrides_judge (lib : Library) : (set.judge lib).overrides =
    [Category.interface, .class].flatMap fun category => ((lib.entries category).filter
      Symbol.valid).flatMap fun entry => (set.verdictOn category entry).overrides := by
  simp [judge, verdictOn, List.flatMap_map]

lemma implements_judge (lib : Library) : (set.judge lib).implements =
    [Category.interface, .class].flatMap fun category => ((lib.entries category).filter
      Symbol.valid).flatMap fun entry => (set.verdictOn category entry).implements := by
  simp [judge, verdictOn, List.flatMap_map]

/-- A pair leads from a function of the declaration that the verdict is on to one further up. -/
lemma ends_verdictOn {category : Category} {entry : Entry} {pair : DeclId × DeclId}
    (hpair : pair ∈ (set.verdictOn category entry).overrides ∨
      pair ∈ (set.verdictOn category entry).implements) :
    (∃ f ∈ entry.body.functions, f.id = pair.1) ∧
      ∃ ids, ∃ g ∈ functionsOf set ids, g.id = pair.2 := by
  obtain ⟨a, b⟩ := pair
  have hmatches (ids : List DeclId) (hmem : (a, b) ∈ (linkedFunctions entry.body).flatMap fun f =>
        ((functionsOf set ids).filter (sameSignature f)).map fun base => (f.id, base.id)) :
      (∃ f ∈ entry.body.functions, f.id = a) ∧ ∃ ids, ∃ g ∈ functionsOf set ids, g.id = b := by
    obtain ⟨f, hf, ha, base, hbase, record, hrecord, g, hg, -, hb⟩ := mem_matches.1 hmem
    exact ⟨⟨f, (mem_functions_of_linked hf).1, ha⟩, ids, g,
      mem_functionsOf.2 ⟨base, hbase, record, hrecord, hg⟩, hb⟩
  cases category with
  | interface =>
    rw [verdictOn, implements_judgeInterface] at hpair
    obtain hpair := hpair.resolve_right List.not_mem_nil
    cases hinfo : entry.body.interface? with
    | none => simp [judgeInterface, hinfo] at hpair
    | some info =>
      rw [overrides_judgeInterface hinfo] at hpair
      exact hmatches _ hpair
  | «class» =>
    rw [verdictOn] at hpair
    cases hinfo : entry.body.class? with
    | none => simp [judgeClass, hinfo] at hpair
    | some info =>
      rw [overrides_judgeClass hinfo, mem_implements_judgeClass hinfo] at hpair
      rcases hpair with hpair | ⟨g, hg, own, hoffer, ha, hb⟩
      · exact hmatches _ hpair
      · exact ⟨⟨own, mem_functions_of_offer hinfo hoffer, ha⟩, _, g, hg, hb⟩
  | _ => simp [verdictOn] at hpair

section

variable (addressed : set.Addressed) {library : LibraryId} {category : Category} {index : Nat}
  {entry : Entry} {lib : Library}

include addressed

/-- Functions of interfaces and classes stand in bodies of interfaces and classes. -/
lemma Addressed.overrides_verdictOn (hcategory : category ∈ [Category.interface, .class])
    (hslot : set.slot? library category index = some entry) :
    (set.verdictOn category entry).overrides = (linkedFunctions entry.body).flatMap fun f =>
      (set.matched category entry f).map fun base => (f.id, base.id) := by
  have hnone (h : ∀ f, f ∉ linkedFunctions entry.body) : linkedFunctions entry.body = [] :=
    List.eq_nil_iff_forall_not_mem.2 h
  rcases List.mem_pair.1 hcategory with rfl | rfl
  · cases hinfo : entry.body.interface? with
    | none =>
      rw [hnone fun f hf => by
        obtain ⟨info, hbody⟩ := addressed.body_of_interface hslot (mem_functions_of_linked hf).1
        simp [hbody, Body.interface?] at hinfo]
      simp [verdictOn, judgeInterface, hinfo]
    | some info => rw [verdictOn, overrides_judgeInterface hinfo]; rfl
  · cases hinfo : entry.body.class? with
    | none =>
      rw [hnone fun f hf => by
        obtain ⟨info, hbody⟩ := addressed.body_of_class hslot (mem_functions_of_linked hf).1
        simp [hbody, Body.class?] at hinfo]
      simp [verdictOn, judgeClass, hinfo]
    | some info => rw [verdictOn, overrides_judgeClass hinfo]; rfl

/-- Every declaration of a library is listed once. -/
lemma Addressed.nodup_entries (hlib : set.get? library = some lib) (category : Category) :
    (lib.entries category).Nodup := by
  refine List.pairwise_filterMap.2 (List.pairwise_iff_getElem.2 fun i j hi hj hlt => ?_)
  have hseat {k : Nat} (hk : k < (lib.table category).length) {entry : Entry}
      (hentry : (lib.table category)[k] = some entry) : entry.id.seat = (category, k) := by
    have hslot : set.slot? library category k = some entry := by
      rw [LibrarySet.slot?_of_get? hlib, Library.slot?,
        List.getElem?_eq_getElem hk, hentry]
      rfl
    exact (addressed.seat_of_slot? hslot).2.1
  rintro entry hentry entry' hentry' rfl
  have hsame := (hseat hi hentry).symm.trans (hseat hj hentry')
  exact absurd (congrArg Prod.snd hsame) (Nat.ne_of_lt hlt)

/-- The partners of a function are told by the verdict on its declaration. -/
theorem Addressed.targetsOf_judge (hlib : set.get? library = some lib)
    (hcategory : category ∈ [Category.interface, .class])
    (hslot : set.slot? library category index = some entry) {f : Member}
    (hf : f ∈ entry.body.functions) :
    targetsOf f.id (set.judge lib).overrides =
      (if entry.valid then targetsOf f.id (set.verdictOn category entry).overrides else []) ∧
    targetsOf f.id (set.judge lib).implements =
      (if entry.valid then targetsOf f.id (set.verdictOn category entry).implements else []) := by
  have hparts {part : Verdict → List (DeclId × DeclId)} (hpart : ∀ v pair, pair ∈ part v →
        pair ∈ v.overrides ∨ pair ∈ v.implements) :
      targetsOf f.id ([Category.interface, .class].flatMap fun category => ((lib.entries
          category).filter Symbol.valid).flatMap fun entry => part (set.verdictOn category entry))
        = if entry.valid then targetsOf f.id (part (set.verdictOn category entry)) else [] := by
    -- only the declaration of the function speaks of it
    have honly {category' : Category} {entry' : Entry}
        (hentry' : entry' ∈ (lib.entries category').filter Symbol.valid) {pair : DeclId × DeclId}
        (hpair : pair ∈ part (set.verdictOn category' entry')) (heq : pair.1 = f.id) :
        category' = category ∧ entry' = entry := by
      obtain ⟨index', hindex'⟩ := mem_entries.1 (List.mem_filter.1 hentry').1
      have hslot' : set.slot? library category' index' = some entry' := by
        rw [LibrarySet.slot?_of_get? hlib, hindex']
      obtain ⟨f', hf', hid⟩ := (ends_verdictOn (hpart _ _ hpair)).1
      obtain ⟨-, hsame, -, hsame', -⟩ :=
        addressed.function_unique hslot' hf' hslot hf (hid.trans heq)
      exact ⟨hsame, hsame'⟩
    rw [targetsOf_flatMap (by decide) hcategory fun category' _ pair hpair heq => by
      obtain ⟨entry', hentry', hmem⟩ := List.mem_flatMap.1 hpair
      exact (honly hentry' hmem heq).1]
    split
    · next hvalid =>
      have hentry : entry ∈ lib.entries category := by
        rw [LibrarySet.slot?_of_get? hlib] at hslot
        exact mem_entries.2 ⟨index, hslot⟩
      exact targetsOf_flatMap ((addressed.nodup_entries hlib category).filter _)
        (List.mem_filter.2 ⟨hentry, hvalid⟩) fun entry' hentry' pair hpair heq =>
          (honly hentry' hpair heq).2
    · next hinvalid =>
      refine targetsOf_eq_nil fun pair hpair heq => ?_
      obtain ⟨entry', hentry', hmem⟩ := List.mem_flatMap.1 hpair
      obtain ⟨-, rfl⟩ := honly hentry' hmem heq
      exact hinvalid (List.mem_filter.1 hentry').2
  rw [overrides_judge, implements_judge]
  exact ⟨hparts fun _ _ => Or.inl, hparts fun _ _ => Or.inr⟩

/-- A function of some declarations is found under its identity. -/
lemma Addressed.find?_of_mem_functionsOf {ids : List DeclId} {g : Member}
    (hg : g ∈ functionsOf set ids) :
    set.find? g.id = some g.toEntry ∧ ∃ callable, g.body.callable? = some callable := by
  rw [functionsOf_eq] at hg
  obtain ⟨id, -, hlinked⟩ := List.mem_flatMap.1 hg
  obtain ⟨entry, -, -, hslot, hmem⟩ := slot?_of_linkedOf addressed.identified hlinked
  obtain ⟨-, -, -, -, -, -, -, -, hfind⟩ :=
    addressed.id_function hslot (mem_functions_of_linked hmem).1
  exact ⟨hfind, (mem_functions_of_linked hmem).2⟩

/-- What is above a declaration is top-level, and listed once. -/
lemma Addressed.nodup_matched (category : Category) (entry : Entry) (f : Member) :
    ((set.matched category entry f).map Symbol.id).Nodup := by
  have hall : ((functionsOf set (set.above category entry)).map Symbol.id).Nodup := by
    cases category with
    | interface =>
      exact addressed.nodup_functionsOf (nodup_interfaceClosure ..) fun _ =>
        define_of_mem_interfaceClosure fun _ => Body.define_of_mem_superInterfaces
    | «class» =>
      exact addressed.nodup_functionsOf (nodup_classAncestors _) fun _ =>
        define_of_mem_classAncestors
    | _ => exact List.nodup_nil
  exact hall.sublist (List.filter_sublist.map _)

/-- A linked function of a valid declaration overrides the functions above that match it, in the
order in which they are searched, and no other function overrides any. -/
lemma Addressed.targetsOf_overrides (hlib : set.get? library = some lib)
    (hcategory : category ∈ [Category.interface, .class])
    (hslot : set.slot? library category index = some entry) {f : Member}
    (hf : f ∈ entry.body.functions) : targetsOf f.id (set.judge lib).overrides =
      if entry.valid ∧ f ∈ linkedFunctions entry.body then
        (set.matched category entry f).map Symbol.id else [] := by
  -- No other function of the entry bears the identity of `f`.
  have hown {f' : Member} (hf' : f' ∈ linkedFunctions entry.body) (heq : f'.id = f.id) : f' = f :=
    (addressed.function_unique hslot (mem_functions_of_linked hf').1 hslot hf heq).2.2.2.2
  rw [(addressed.targetsOf_judge hlib hcategory hslot hf).1,
    addressed.overrides_verdictOn hcategory hslot]
  by_cases hlinked : f ∈ linkedFunctions entry.body
  · have hnodup : (linkedFunctions entry.body).Nodup :=
      (List.Nodup.of_map _ (addressed.nodup_functions hslot)).filter _
    rw [targetsOf_flatMap hnodup hlinked]
    · have hall : targetsOf f.id ((set.matched category entry f).map fun base => (f.id, base.id))
          = (set.matched category entry f).map Symbol.id := by
        rw [targetsOf, List.filter_eq_self.2 (by simp), List.map_map]
        rfl
      simp [hall, hlinked]
    · intro f' hf' pair hpair heq
      obtain ⟨base, -, rfl⟩ := List.mem_map.1 hpair
      exact hown hf' heq
  · rw [targetsOf_eq_nil, ite_self, if_neg fun h => hlinked h.2]
    intro pair hpair heq
    obtain ⟨f', hf', hmem⟩ := List.mem_flatMap.1 hpair
    obtain ⟨base, -, rfl⟩ := List.mem_map.1 hmem
    exact hlinked (hown hf' heq ▸ hf')

end

/-! ## Conflicts -/

/-- The report on a function and one that it is tied to, if their return types differ. -/
def conflict? (set : LibrarySet) (function base : DeclId) : Option (String × Diagnostic) := do
  let f ← set.find? function
  let g ← set.find? base
  if f.body.callable?.map Callable.returns = g.body.callable?.map Callable.returns then none
  else
    let name := (set.fullName? base).getD g.name
    some (f.document,
      { range := f.nameRange
        severity := .error
        code := .returnTypeMismatch
        message := s!"`{f.name}` has the parameters of `{name}` " ++ "but a different return type"
        related := [⟨g.location, s!"`{name}` declared here"⟩] })

lemma conflict?_eq {f g : Member} (hf : set.find? f.id = some f.toEntry)
    (hg : set.find? g.id = some g.toEntry) (hfcallable : ∃ callable,
      f.body.callable? = some callable)
    (hgcallable : ∃ callable, g.body.callable? = some callable) : set.conflict? f.id g.id =
      if sameReturns f g then none else some (returnMismatch set f g) := by
  obtain ⟨x, hx⟩ := hfcallable
  obtain ⟨y, hy⟩ := hgcallable
  have hx' : f.toEntry.body.callable? = some x := hx
  have hy' : g.toEntry.body.callable? = some y := hy
  simp only [conflict?, hf, hg, Option.bind_eq_bind, Option.bind_some, hx', hy', Option.map_some,
    Option.some.injEq, sameReturns, hx, hy, decide_eq_true_eq]
  split
  · rfl
  · rfl

/-- The conflicts of a function with several others. -/
lemma filterMap_conflict? {f : Member} {gs : List Member} (hf : set.find? f.id = some f.toEntry)
    (hfcallable : ∃ callable, f.body.callable? = some callable)
    (hgs : ∀ g ∈ gs, set.find? g.id = some g.toEntry ∧
      ∃ callable, g.body.callable? = some callable) :
    (gs.map Symbol.id).filterMap (set.conflict? f.id)
      = (gs.filter fun g => !sameReturns f g).map (returnMismatch set f) := by
  induction gs with
  | nil => rfl
  | cons g rest ih =>
    obtain ⟨⟨hg, hgcallable⟩, hrest⟩ := List.forall_mem_cons.1 hgs
    rw [List.map_cons, List.filterMap_cons, conflict?_eq hf hg hfcallable hgcallable, ih hrest]
    by_cases hsame : sameReturns f g = true <;> simp [hsame]

lemma findSome?_conflict? {f : Member} {gs : List Member} (hf : set.find? f.id = some f.toEntry)
    (hfcallable : ∃ callable, f.body.callable? = some callable)
    (hgs : ∀ g ∈ gs, set.find? g.id = some g.toEntry ∧
      ∃ callable, g.body.callable? = some callable) :
    (gs.map Symbol.id).findSome? (set.conflict? f.id)
      = (gs.find? fun g => !sameReturns f g).map (returnMismatch set f) := by
  rw [← List.head?_filterMap, filterMap_conflict? hf hfcallable hgs,
    List.head?_map, List.head?_filter]

section

variable (addressed : set.Addressed) {library : LibraryId} {category : Category} {index : Nat}
  {entry : Entry} {lib : Library}

include addressed

lemma Addressed.found_matched {f : Member} (category : Category) (entry : Entry) :
    ∀ g ∈ set.matched category entry f,
      set.find? g.id = some g.toEntry ∧ ∃ callable, g.body.callable? = some callable :=
  fun _ hg => addressed.find?_of_mem_functionsOf (List.mem_filter.1 hg).1

/-- On a valid interface a function is reported once if it overrides any that returns something
else: the first of these is the one that the report points to. -/
lemma Addressed.withCode_interface (hlib : set.get? library = some lib)
    (hslot : set.slot? library .interface index = some entry) (hvalid : entry.valid = true) :
    (judgeInterface set entry).report.withCode .returnTypeMismatch =
      entry.body.functions.flatMap fun f =>
        ((targetsOf f.id (set.judge lib).overrides).findSome? (set.conflict? f.id)).toList := by
  have htargets {f : Member} (hf : f ∈ entry.body.functions) :=
    addressed.targetsOf_overrides hlib List.mem_cons_self hslot hf
  cases hinfo : entry.body.interface? with
  | none =>
    have hnone : entry.body.functions = [] := List.eq_nil_iff_forall_not_mem.2 fun f hf => by
      obtain ⟨info, hbody⟩ := addressed.body_of_interface hslot hf
      simp [hbody, Body.interface?] at hinfo
    rw [judgeInterface, hinfo, hnone, Report.withCode_nil, List.flatMap_nil]
  | some info =>
    rw [(withCode_judgeInterface hinfo).2.1]
    refine Eq.trans (List.flatMap_congr fun f hlinked => ?_)
      (flatMap_linkedFunctions fun f hf hnot => ?_)
    · have hmem := (mem_functions_of_linked hlinked).1
      obtain ⟨-, -, -, -, -, -, -, -, hfind⟩ := addressed.id_function hslot hmem
      rw [htargets hmem, if_pos ⟨hvalid, hlinked⟩, findSome?_conflict? hfind
        (mem_functions_of_linked hlinked).2 (addressed.found_matched .interface entry)]
      rfl
    · rw [htargets hf, if_neg fun h => hnot h.2]
      rfl

/-- What a class is reported for in the order of what is required of it, it is reported for in the
order of its own functions. -/
lemma Addressed.perm_judgeOffer (hlib : set.get? library = some lib)
    (hslot : set.slot? library .class index = some entry) (hvalid : entry.valid = true)
    {info : ClassInfo} (hinfo : entry.body.class? = some info) :
    ((required set info).flatMap fun g => (judgeOffer set g (offer info.functions g)).report).Perm
      (entry.body.functions.flatMap fun f =>
        (targetsOf f.id (set.judge lib).implements).filterMap (set.conflict? f.id)) := by
  have hclass : Category.class ∈ [Category.interface, .class] := by decide
  have hpairs : (set.verdictOn .class entry).implements = (required set info).flatMap fun g =>
      (judgeOffer set g (offer info.functions g)).implements := implements_judgeClass hinfo
  -- Both sides list the conflicts of the implements pairs: the report in the order of the required
  -- functions ..
  have hreport : (required set info).flatMap (fun g =>
        (judgeOffer set g (offer info.functions g)).report)
      = (set.verdictOn .class entry).implements.filterMap fun pair =>
        set.conflict? pair.1 pair.2 := by
    rw [hpairs, List.filterMap_flatMap]
    refine List.flatMap_congr fun g hg => ?_
    cases hoffer : offer info.functions g with
    | implementation own =>
      obtain ⟨-, hcallable⟩ := offer_eq_implementation hoffer
      obtain ⟨-, -, -, -, -, -, -, -, hfind⟩ :=
        addressed.id_function hslot (mem_functions_of_offer hinfo hoffer)
      obtain ⟨hfind', hcallable'⟩ := addressed.find?_of_mem_functionsOf hg
      simp only [judgeOffer, List.filterMap_cons, List.filterMap_nil,
        conflict?_eq hfind hfind' (Option.isSome_iff_exists.1 hcallable) hcallable']
      by_cases hsame : sameReturns own g = true <;> simp [hsame]
    | _ => rfl
  -- .. and the relations grouped by the implementing function. Grouping permutes the pairs.
  have hgroups : entry.body.functions.flatMap (fun f =>
        (targetsOf f.id (set.judge lib).implements).filterMap (set.conflict? f.id))
      = ((entry.body.functions.map Symbol.id).flatMap fun key =>
          (set.verdictOn .class entry).implements.filter fun pair => pair.1 = key).filterMap
            fun pair => set.conflict? pair.1 pair.2 := by
    rw [List.flatMap_map, List.filterMap_flatMap]
    refine List.flatMap_congr fun f hf => ?_
    rw [(addressed.targetsOf_judge hlib hclass hslot hf).2, if_pos hvalid, targetsOf,
      List.filterMap_map]
    refine List.filterMap_congr fun pair hpair => ?_
    rw [Function.comp_apply, of_decide_eq_true (List.mem_filter.1 hpair).2]
  rw [hreport, hgroups]
  refine ((perm_flatMap_filter (addressed.nodup_functions hslot) fun pair hpair =>
    ?_).filterMap _).symm
  obtain ⟨f, hf, heq⟩ := (ends_verdictOn (Or.inr hpair)).1
  exact List.mem_map.2 ⟨f, hf, heq⟩

/-- On a valid class a function is reported for each function that it overrides or implements and
that returns something else. -/
lemma Addressed.perm_withCode_class (hlib : set.get? library = some lib)
    (hslot : set.slot? library .class index = some entry) (hvalid : entry.valid = true) :
    ((judgeClass set entry).report.withCode .returnTypeMismatch).Perm
      (entry.body.functions.flatMap fun f => (targetsOf f.id (set.judge lib).overrides ++
        targetsOf f.id (set.judge lib).implements).filterMap (set.conflict? f.id)) := by
  have hclass : Category.class ∈ [Category.interface, .class] := by decide
  have htargets {f : Member} (hf : f ∈ entry.body.functions) :=
    addressed.targetsOf_overrides hlib hclass hslot hf
  have hfind {f : Member} (hf : f ∈ entry.body.functions) : set.find? f.id = some f.toEntry := by
    obtain ⟨-, -, -, -, -, -, -, -, hfind⟩ := addressed.id_function hslot hf
    exact hfind
  -- The override part agrees in order, function by function; only the implements part is permuted.
  cases hinfo : entry.body.class? with
  | none =>
    have hnone : entry.body.functions = [] := List.eq_nil_iff_forall_not_mem.2 fun f hf => by
      obtain ⟨info, hbody⟩ := addressed.body_of_class hslot hf
      simp [hbody, Body.class?] at hinfo
    rw [judgeClass, hinfo, hnone, Report.withCode_nil, List.flatMap_nil]
  | some info =>
    have hoverrides : (linkedFunctions entry.body).flatMap (fun f => (judgeOverrides set
          (functionsOf set (set.classAncestors entry.id)) f).report)
        = entry.body.functions.flatMap fun f =>
          (targetsOf f.id (set.judge lib).overrides).filterMap (set.conflict? f.id) := by
      refine Eq.trans (List.flatMap_congr fun f hlinked => ?_)
        (flatMap_linkedFunctions fun f hf hnot => ?_)
      · have hmem := (mem_functions_of_linked hlinked).1
        rw [htargets hmem, if_pos ⟨hvalid, hlinked⟩, filterMap_conflict? (hfind hmem)
          (mem_functions_of_linked hlinked).2 (addressed.found_matched .class entry)]
        rfl
      · rw [htargets hf, if_neg fun h => hnot h.2]
        rfl
    rw [(withCode_judgeClass hinfo).2.1, hoverrides]
    simp only [List.filterMap_append]
    exact ((addressed.perm_judgeOffer hlib hslot hvalid hinfo).append_left _).trans
      (List.flatMap_append_perm ..)

/-- The functions that a function implements are listed once. -/
lemma Addressed.nodup_targetsOf_implements (hlib : set.get? library = some lib)
    (hslot : set.slot? library .class index = some entry) {f : Member}
    (hf : f ∈ entry.body.functions) : (targetsOf f.id (set.judge lib).implements).Nodup := by
  have hoffers (functions required : List Member) : ((required.flatMap fun g => (judgeOffer set g
      (offer functions g)).implements).map Prod.snd).Sublist (required.map Symbol.id) := by
    induction required with
    | nil => exact .slnil
    | cons g rest ih =>
      rw [List.flatMap_cons, List.map_append, List.map_cons]
      cases offer functions g with
      | implementation own => exact ih.cons_cons _
      | _ => exact ih.cons _
  rw [(addressed.targetsOf_judge hlib (by decide) hslot hf).2]
  split
  · cases hinfo : entry.body.class? with
    | none => simp [verdictOn, judgeClass, hinfo, targetsOf]
    | some info =>
      have hrequired : ((required set info).map Symbol.id).Nodup :=
        addressed.nodup_functionsOf (nodup_interfaceClosure ..) fun _ =>
          define_of_mem_interfaceClosure fun _ => Ty.define_of_mem
      rw [verdictOn, implements_judgeClass hinfo]
      exact (hrequired.sublist (hoffers ..)).sublist (List.filter_sublist.map _)
  · exact List.nodup_nil

/-- So the relations of a function list its partners as they are found. -/
theorem Addressed.overrides_tied (hlib : set.get? library = some lib)
    (hcategory : category ∈ [Category.interface, .class])
    (hslot : set.slot? library category index = some entry) {f : Member}
    (hf : f ∈ entry.body.functions) : (Relations.tied f.id (set.judge lib)).overrides =
      targetsOf f.id (set.judge lib).overrides := by
  refine addAllNew_of_nodup ?_
  rw [List.nil_append, addressed.targetsOf_overrides hlib hcategory hslot hf]
  split
  · exact addressed.nodup_matched category entry f
  · exact List.nodup_nil

theorem Addressed.implements_tied (hlib : set.get? library = some lib)
    (hslot : set.slot? library .class index = some entry) {f : Member}
    (hf : f ∈ entry.body.functions) : (Relations.tied f.id (set.judge lib)).implements =
      targetsOf f.id (set.judge lib).implements :=
  addAllNew_of_nodup (addressed.nodup_targetsOf_implements hlib hslot hf)

/-- What a function is tied to after a check is there. -/
lemma Addressed.exists_of_tie {f : Member} (howns : (set.check library).1.Owns library f)
    {id : DeclId} (hid : id ∈ f.relations.overrides ++ f.relations.implements) :
    ∃ g : Member, (set.check library).1.find? id = some g.toEntry := by
  have after := (@sameCores_check set (fun _ => False) addressed.identified
    library).addressed addressed
  obtain ⟨verdict, htied, hoverrides, himplements⟩ := addressed.relations_verdict library
  obtain ⟨library', g, ⟨c, i, owner, hslot, hg⟩, rfl, -⟩ : ∃ library',
      (set.check library).1.Ties library' id := by
    rw [htied f howns, List.mem_append] at hid
    simp only [Relations.tied, mem_addAllNew, List.not_mem_nil, false_or, mem_targetsOf,
      hoverrides, himplements] at hid
    exact hid.elim (fun h => (after.ties_of_overrides h).2) fun h => (after.ties_of_implements h).2
  obtain ⟨-, -, -, -, -, -, -, -, hfind⟩ := after.id_function hslot hg
  exact ⟨g, hfind⟩

end

/-- What a report says about return types is what the relations in a model say. -/
structure ReportsConflicts (set : LibrarySet) (library : LibraryId) (report : Report) : Prop where
  /-- An interface function is reported for the first function that it overrides and that returns
  something else, a class function for every function that it overrides or implements and that
  does. -/
  reports : ∀ lib, set.get? library = some lib → (report.withCode .returnTypeMismatch).Perm
    (((lib.entries .interface).flatMap fun entry => entry.body.functions.flatMap fun f =>
        (f.relations.overrides.findSome? (set.conflict? f.id)).toList) ++
      (lib.entries .class).flatMap fun entry => entry.body.functions.flatMap fun f =>
        (f.relations.overrides ++ f.relations.implements).filterMap (set.conflict? f.id))
  /-- Relations lead to functions, so it is only return types that make a conflict. -/
  found : ∀ f, set.Owns library f → ∀ id ∈ f.relations.overrides ++ f.relations.implements,
    ∃ g : Member, set.find? id = some g.toEntry
  /-- The overridden functions of an interface come in the order of what it inherits. -/
  in_order : ∀ lib, set.get? library = some lib → ∀ entry ∈ lib.entries .interface,
    ∀ f ∈ entry.body.functions, f.relations.overrides.Sublist ((functionsOf set
      (set.interfaceClosure entry.body.superInterfaces (some entry.id))).map Symbol.id)

section

variable (addressed : set.Addressed) {library : LibraryId} {lib : Library}
  (hlib : set.get? library = some lib)
  (htied : ∀ f, set.Owns library f → f.relations = Relations.tied f.id (set.judge lib))

include addressed hlib htied

lemma Addressed.overrides_eq {category : Category}
    (hcategory : category ∈ [Category.interface, .class])
    {entry : Entry} (hentry : entry ∈ lib.entries category) {f : Member}
    (hf : f ∈ entry.body.functions) :
    f.relations.overrides = targetsOf f.id (set.judge lib).overrides ∧
      f.relations.overrides = if entry.valid ∧ f ∈ linkedFunctions entry.body then
        (set.matched category entry f).map Symbol.id else [] := by
  obtain ⟨index, hindex⟩ := mem_entries.1 hentry
  have hslot : set.slot? library category index = some entry := by
    rw [LibrarySet.slot?_of_get? hlib, hindex]
  rw [htied f ⟨_, _, entry, hslot, hf⟩, addressed.overrides_tied hlib hcategory hslot hf]
  exact ⟨rfl, addressed.targetsOf_overrides hlib hcategory hslot hf⟩

/-- A verdict reports what its pairs say once they are written down. -/
lemma Addressed.perm_withCode_judge : ((set.judge lib).report.withCode .returnTypeMismatch).Perm
    (((lib.entries .interface).flatMap fun entry => entry.body.functions.flatMap fun f =>
        (f.relations.overrides.findSome? (set.conflict? f.id)).toList) ++
      (lib.entries .class).flatMap fun entry => entry.body.functions.flatMap fun f =>
        (f.relations.overrides ++ f.relations.implements).filterMap (set.conflict? f.id)) := by
  have hslot {category : Category} {entry : Entry} (hentry : entry ∈ lib.entries category) :
      ∃ index, set.slot? library category index = some entry := by
    obtain ⟨index, hindex⟩ := mem_entries.1 hentry
    exact ⟨index, by rw [LibrarySet.slot?_of_get? hlib, hindex]⟩
  have hinterface : Category.interface ∈ [Category.interface, .class] := by decide
  have hclass : Category.class ∈ [Category.interface, .class] := by decide
  have himplements {entry : Entry} (hentry : entry ∈ lib.entries .class) {f : Member}
      (hf : f ∈ entry.body.functions) :
      f.relations.implements = targetsOf f.id (set.judge lib).implements := by
    obtain ⟨index, hindex⟩ := hslot hentry
    rw [htied f ⟨_, _, entry, hindex, hf⟩, addressed.implements_tied hlib hindex hf]
  -- Interfaces report the first conflict of each function, in order. Classes report all of them, up
  -- to a permutation for each class. Invalid entries have no targets and no report.
  rw [withCode_judge]
  refine List.Perm.append (.of_eq ?_) ?_
  · refine Eq.trans (List.flatMap_congr fun entry hentry => ?_)
      (flatMap_filter_of_nil fun entry hentry hinvalid => ?_)
    · obtain ⟨hmem, hvalid⟩ := List.mem_filter.1 hentry
      obtain ⟨index, hindex⟩ := hslot hmem
      rw [addressed.withCode_interface hlib hindex hvalid]
      exact List.flatMap_congr fun f hf => by
        rw [(addressed.overrides_eq hlib htied hinterface hmem hf).1]
    · refine List.flatMap_eq_nil_iff.2 fun f hf => ?_
      rw [(addressed.overrides_eq hlib htied hinterface hentry hf).2,
        if_neg fun h => by simp [hinvalid] at h]
      rfl
  · refine (List.Perm.flatMap_left _ fun entry hentry => ?_).trans
      (.of_eq (flatMap_filter_of_nil fun entry hentry hinvalid => ?_))
    · obtain ⟨hmem, hvalid⟩ := List.mem_filter.1 hentry
      obtain ⟨index, hindex⟩ := hslot hmem
      refine (addressed.perm_withCode_class hlib hindex hvalid).trans (.of_eq ?_)
      exact List.flatMap_congr fun f hf => by
        rw [(addressed.overrides_eq hlib htied hclass hmem hf).1, himplements hmem hf]
    · obtain ⟨index, hindex⟩ := hslot hentry
      refine List.flatMap_eq_nil_iff.2 fun f hf => ?_
      rw [(addressed.overrides_eq hlib htied hclass hentry hf).2, himplements hentry hf,
        (addressed.targetsOf_judge hlib hclass hindex hf).2, if_neg fun h =>
          by simp [hinvalid] at h,
        if_neg (by simp [hinvalid])]
      rfl

end

/-- A check reports the return types that differ along the relations that it leaves. -/
theorem Addressed.check_reportsConflicts (addressed : set.Addressed) (library : LibraryId) :
    (set.check library).1.ReportsConflicts library (set.check library).2 := by
  have alike := @sameCores_check set (fun _ => False) addressed.identified library
  have after := alike.addressed addressed
  refine ⟨fun lib hlib => ?_, fun f howns id => addressed.exists_of_tie howns,
    fun lib hlib entry hentry f hf => ?_⟩
  · have hskeleton := set.skeleton_check library
    have hget := (set.check library).1.get?_skeleton library
    rw [hskeleton, get?_skeleton, hlib, Option.map_some] at hget
    obtain ⟨before, hbefore, -⟩ := Option.map_eq_some_iff.1 hget
    rw [withCode_check addressed.identified hbefore (by decide),
      ← alike.judge_eq addressed.identified hskeleton hbefore hlib]
    exact after.perm_withCode_judge hlib fun f => addressed.relations_judge hlib
  · rw [(after.overrides_eq hlib (fun f => addressed.relations_judge hlib) List.mem_cons_self hentry
      hf).2]
    split
    · exact List.filter_sublist.map _
    · exact List.nil_sublist _

/-- The function `run` of a class of the project, with the class as its return type. -/
def returning (index : Nat) : Member :=
  .declare ⟨"run", ⟨⟨index, 20⟩, ⟨index, 23⟩⟩⟩ "ring.rk" Arena.root
    ⟨.project, .classFunction, 0, some index⟩ .pub
    (.callable { returns := [⟨.project, .handle, index, 0⟩] })

/-- A class of the project whose parent is another one, with such a function. -/
def rival (index parent : Nat) : Entry :=
  .declare ⟨"Rival", ⟨⟨index, 6⟩, ⟨index, 11⟩⟩⟩ "ring.rk" Arena.root ⟨.project, .class, index, none⟩
    .pub (.class { parent := some ⟨.project, .handle, parent, 0⟩, functions := [returning index] })

/-- Two classes that inherit from each other, and whose functions return different things. -/
def rivals : LibrarySet :=
  { new "demo" "kernel" with
    project := { Library.new .project "demo" with
      tables := [(.class, [some (rival 0 1), some (rival 1 0)])] } }

lemma addressed_rivals : rivals.Addressed := by
  have hstands (index parent : Nat) : StandsAt .class index (rival index parent) :=
    standsAt_class rfl rfl rfl rfl (forall_getElem?_singleton rfl)
  exact addressed_of_pair (hstands 0 1) (hstands 1 0)

/-- Each of the rivals is reported for the function of the other. -/
theorem rivals_reportsConflicts : rivals.Addressed ∧
    (rivals.check .project).1.ReportsConflicts .project (rivals.check .project).2 ∧
    (rivals.check .project).2.withCode .returnTypeMismatch =
      [returnMismatch rivals (returning 0) (returning 1),
        returnMismatch rivals (returning 1) (returning 0)] := by
  refine ⟨addressed_rivals, addressed_rivals.check_reportsConflicts .project, ?_⟩
  have hreport (index parent : Nat)
      (hsame : sameReturns (returning index) (returning parent) = false)
      (habove : functionsOf rivals (rivals.classAncestors (rival index parent).id)
        = [returning parent]) :
      (judgeClass rivals (rival index parent)).report.withCode .returnTypeMismatch
        = [returnMismatch rivals (returning index) (returning parent)] := by
    have hlinked : linkedFunctions (rival index parent).body = [returning index] := rfl
    have hmatched : sameSignature (returning index) (returning parent) = true := rfl
    have hrequired (info : ClassInfo) (hinherits : info.inherits = []) :
        required rivals info = [] := by
      rw [required, interfaceClosure, hinherits, List.filterMap_nil, Walk.preorder_nil]
      rfl
    rw [(withCode_judgeClass rfl).2.1, habove, hlinked, hrequired _ rfl]
    simp [judgeOverrides, hmatched, hsame]
  have hup : rivals.classAncestors (rival 0 1).id = [(rival 1 0).id] :=
    classAncestors_of_pair (by decide) rfl rfl
  have hback : rivals.classAncestors (rival 1 0).id = [(rival 0 1).id] :=
    classAncestors_of_pair (by decide) rfl rfl
  have hclasses : (rivals.project.entries .class).filter Symbol.valid
      = [rival 0 1, rival 1 0] := rfl
  have hinterfaces : (rivals.project.entries .interface).filter Symbol.valid = [] := rfl
  rw [withCode_check addressed_rivals.identified rfl (by decide), withCode_judge]
  simp only [hclasses, hinterfaces, List.flatMap_nil, List.flatMap_cons, List.nil_append,
    hreport 0 1 rfl (by rw [hup]; rfl), hreport 1 0 rfl (by rw [hback]; rfl)]
  rfl

end LibrarySet

end SymbolGraph
