import Mathlib.Data.List.Induction
import SymbolGraph.Proofs.Lookup.NearestName
import SymbolGraph.Proofs.Model.Collections
import SymbolGraph.Proofs.Model.SettledLibraries

/-!
# The suggestion for a missing name

Where a lookup finds nothing and no searched namespace hides a declaration of the name, the report
may suggest another name.  `Context.find_suggests` says which one: of the names that the context
offers and that are one or two edits away, one of smallest distance, and among these the one that a
search comes to first.  There is a suggestion as soon as there is such a name, and it can be looked
up.

A name is offered at a `Spot`, which is a stop of the lookup and a position among the names of
the namespace at that stop.  As in the rule of the lookup itself, nothing is said of lists that are
searched: neither of the collected names, where a name that comes again is left out, nor of the scan
that keeps the best one so far.  That a position has one name and a name one position takes that the
groups of a namespace are a map from names, which they are whenever the model holds its documents
(`LibrarySet.Settled.groupsByName`).

The scan is `nearest`.  Its invariant `NearMiss.IsBest` says of the best name so far that it is the
first of its distance among the names seen, and that no near miss among them is nearer.
-/

namespace SymbolGraph

/-! ## The scan -/

/-- `other` is one or two edits away from `name`. -/
def IsNearMiss (name other : String) : Prop :=
  0 < editDistance name other ∧ editDistance name other ≤ 2

instance (name other : String) : Decidable (IsNearMiss name other) :=
  inferInstanceAs (Decidable (_ ∧ _))

namespace NearMiss

variable {name x : String} {xs : List String} {best : Option NearMiss}

/-- What the scan may keep after it has seen some names: nothing if none of them is a near miss,
else the first name of the smallest distance. -/
def IsBest (name : String) (xs : List String) : Option NearMiss → Prop
  | none => ∀ x ∈ xs, ¬ IsNearMiss name x
  | some best => IsNearMiss name best.candidate ∧
      best.distance = editDistance name best.candidate ∧
      (∀ x ∈ xs, IsNearMiss name x → best.distance ≤ editDistance name x) ∧
      xs.find? (fun x => editDistance name x = best.distance) = some best.candidate

lemma better_of_not (h : ¬ IsNearMiss name x) : better name best x = best := by
  unfold IsNearMiss at h
  exact if_pos (by omega)

lemma better_none (h : IsNearMiss name x) :
    better name none x = some ⟨editDistance name x, x⟩ := by
  unfold IsNearMiss at h
  exact if_neg (by omega)

lemma better_some (h : IsNearMiss name x) (found : NearMiss) : better name (some found) x =
    if found.distance ≤ editDistance name x then some found else some ⟨editDistance name x, x⟩ := by
  unfold IsNearMiss at h
  exact if_neg (by omega)

/-- A name that is nearer than all near misses before it is the first of its distance. -/
lemma isBest_append (h : IsNearMiss name x)
    (hbefore : ∀ y ∈ xs, IsNearMiss name y → editDistance name x < editDistance name y) :
    IsBest name (xs ++ [x]) (some ⟨editDistance name x, x⟩) := by
  refine ⟨h, rfl, fun y hy hnear => ?_, ?_⟩
  · rcases List.mem_append.1 hy with hy | hy
    · exact (hbefore y hy hnear).le
    · exact (List.mem_singleton.1 hy ▸ le_refl _)
  · have hnone : xs.find? (fun y => editDistance name y = editDistance name x) = none := by
      refine List.find?_eq_none.2 fun y hy heq => ?_
      have heq := of_decide_eq_true heq
      have hnear : IsNearMiss name y := by rwa [IsNearMiss, heq]
      exact absurd heq (hbefore y hy hnear).ne'
    simp [List.find?_append, hnone]

/-- One more name keeps the invariant. -/
lemma isBest_better (h : IsBest name xs best) : IsBest name (xs ++ [x]) (better name best x) := by
  -- The next name counts if it is a near miss, and wins if it is nearer than the best before.
  by_cases hnear : IsNearMiss name x
  · cases best with
    | none =>
      rw [better_none hnear]
      exact isBest_append hnear fun y hy hy' => absurd hy' (h y hy)
    | some found =>
      obtain ⟨hfound, hdistance, hleast, hfirst⟩ := h
      rw [better_some hnear]
      split
      · next hle =>
        refine ⟨hfound, hdistance, fun y hy hy' => ?_,
          by rw [List.find?_append, hfirst, Option.some_or]⟩
        rcases List.mem_append.1 hy with hy | hy
        · exact hleast y hy hy'
        · exact List.mem_singleton.1 hy ▸ hle
      · next hlt =>
        exact isBest_append hnear fun y hy hy' => (Nat.lt_of_not_le hlt).trans_le (hleast y hy hy')
  · rw [better_of_not hnear]
    have hkeeps (y : String) (hy : y ∈ xs ++ [x]) (hy' : IsNearMiss name y) : y ∈ xs :=
      (List.mem_append.1 hy).resolve_right fun heq => hnear (List.mem_singleton.1 heq ▸ hy')
    cases best with
    | none => exact fun y hy hy' => h y (hkeeps y hy hy') hy'
    | some found =>
      obtain ⟨hfound, hdistance, hleast, hfirst⟩ := h
      exact ⟨hfound, hdistance, fun y hy hy' => hleast y (hkeeps y hy hy') hy',
        by rw [List.find?_append, hfirst, Option.some_or]⟩

/-- The whole scan. -/
lemma isBest_foldl (name : String) (xs : List String) :
    IsBest name xs (xs.foldl (better name) none) := by
  induction xs using List.reverseRecOn with
  | nil => exact fun x hx => absurd hx List.not_mem_nil
  | append_singleton xs x ih =>
    rw [List.foldl_append]
    exact isBest_better ih

end NearMiss

lemma nearest_eq_none_iff {name : String} {candidates : List String} :
    nearest name candidates = none ↔ ∀ x ∈ candidates, ¬ IsNearMiss name x := by
  have hbest := NearMiss.isBest_foldl name candidates
  rw [nearest, Option.map_eq_none_iff]
  generalize candidates.foldl (NearMiss.better name) none = best at hbest
  cases best with
  | none => exact iff_of_true rfl hbest
  | some best =>
    obtain ⟨hnear, -, -, hfirst⟩ := hbest
    exact iff_of_false (Option.some_ne_none _) fun h =>
      h _ (List.mem_of_find?_eq_some hfirst) hnear

lemma nearest_eq_some {name near : String} {candidates : List String}
    (h : nearest name candidates = some near) :
    IsNearMiss name near ∧
      (∀ x ∈ candidates, IsNearMiss name x → editDistance name near ≤ editDistance name x) ∧
      candidates.find? (fun x => editDistance name x = editDistance name near) = some near := by
  obtain ⟨best, hscan, rfl⟩ := Option.map_eq_some_iff.1 h
  have hbest := NearMiss.isBest_foldl name candidates
  rw [hscan] at hbest
  obtain ⟨hnear, hdistance, hleast, hfirst⟩ := hbest
  rw [hdistance] at hleast hfirst
  exact ⟨hnear, hleast, hfirst⟩

/-! ## Spots -/

/-- Where a name stands: at a stop, and there at a position among the names of the namespace. -/
structure Spot where
  stop : Stop
  position : Nat
deriving DecidableEq, Repr

/-- `first.Before second`: a search comes to `first` before it comes to `second`. -/
def Spot.Before (first second : Spot) : Prop :=
  first.stop.Before second.stop ∨ first.stop = second.stop ∧ first.position < second.position

lemma Stop.before_trichotomy (first second : Stop) :
    first.Before second ∨ first = second ∨ second.Before first := by
  cases first <;> cases second <;> simp [Stop.Before, Nat.lt_trichotomy]

lemma Spot.before_trichotomy (first second : Spot) :
    first.Before second ∨ first = second ∨ second.Before first := by
  obtain ⟨stop, i⟩ := first
  obtain ⟨stop', j⟩ := second
  rcases stop.before_trichotomy stop' with h | rfl | h
  · exact Or.inl (Or.inl h)
  · rcases Nat.lt_trichotomy i j with h | rfl | h
    · exact Or.inl (Or.inr ⟨rfl, h⟩)
    · exact Or.inr (Or.inl rfl)
    · exact Or.inr (Or.inr (Or.inr ⟨rfl, h⟩))
  · exact Or.inr (Or.inr (Or.inl h))

namespace Context

section

variable (ctx : Context)

/-- The name at a spot. -/
def nameAt? (spot : Spot) : Option String :=
  ((ctx.spaceAt? spot.stop).bind ctx.libraries.space?).bind fun space =>
    space.groups.keys[spot.position]?

/-- The name stands at the spot, and something of the name is visible there. -/
structure Offers (spot : Spot) (name : String) : Prop where
  stands : ctx.nameAt? spot = some name
  visible : ctx.visible (ctx.groupAt name spot.stop) ≠ []

/-- Of the near misses that are offered, `near` is one of smallest distance, and its spot is the
first of those where a name of this distance is offered. -/
structure IsFirstNearest (name near : String) (spot : Spot) : Prop where
  offered : ctx.Offers spot near
  near_miss : IsNearMiss name near
  least : ∀ {spot' other}, ctx.Offers spot' other → IsNearMiss name other →
    editDistance name near ≤ editDistance name other
  first : ∀ {spot' other}, ctx.Offers spot' other →
    editDistance name other = editDistance name near → spot = spot' ∨ spot.Before spot'

/-- The names of which something is visible in a namespace. -/
def namesIn (scope : SpaceRef) : List String :=
  (ctx.libraries.space? scope).elim [] fun space =>
    (space.groups.filter fun (_, group) => !(ctx.visible group).isEmpty).map Prod.fst

end

variable {ctx : Context}

/-- The collected names are those of the searched namespaces, each where it comes first. -/
lemma namesInScope_eq : ctx.namesInScope = addAllNew [] (ctx.searchScopes.flatMap ctx.namesIn) := by
  rw [namesInScope, addAllNew, List.foldl_flatMap]
  congr 1
  funext names scope
  unfold namesIn
  cases ctx.libraries.space? scope <;> rfl

/-- What stands at a spot is a group of the namespace there, and the group of its name. -/
lemma offers_iff (hkeyed : ctx.libraries.GroupsByName) {stop : Stop}
    {scope : SpaceRef} {space : Namespace}
    {i : Nat} {name : String} (hstop : ctx.spaceAt? stop = some scope)
    (hspace : ctx.libraries.space? scope = some space) : ctx.Offers ⟨stop, i⟩ name ↔
      ∃ group, space.groups[i]? = some (name, group) ∧ ctx.visible group ≠ [] := by
  have hname : ctx.nameAt? ⟨stop, i⟩ = space.groups[i]?.map Prod.fst := by
    rw [nameAt?, hstop, Option.bind_some, hspace, Option.bind_some, Assoc.keys, List.getElem?_map]
  have hgroup : ctx.groupAt name stop = (space.groups.at? name).getD [] := by
    rw [groupAt_of_spaceAt? hstop, groupIn, hspace, Option.map_some,
      Option.getD_some, Namespace.group]
  have hat {group : List DeclId} (h : space.groups[i]? = some (name, group)) :
      ctx.groupAt name stop = group := by
    rw [hgroup, Assoc.at?_of_mem (hkeyed _ _ hspace) (List.mem_of_getElem? h), Option.getD_some]
  constructor
  · rintro ⟨hstands, hvisible⟩
    obtain ⟨⟨_, group⟩, hentry, rfl⟩ := Option.map_eq_some_iff.1 (hname ▸ hstands)
    exact ⟨group, hentry, hat hentry ▸ hvisible⟩
  · rintro ⟨group, hentry, hvisible⟩
    exact ⟨by rw [hname, hentry]; rfl, (hat hentry).symm ▸ hvisible⟩

lemma spaceAt?_of_offers {spot : Spot} {name : String} (h : ctx.Offers spot name) :
    ∃ scope space, ctx.spaceAt? spot.stop = some scope ∧
    ctx.libraries.space? scope = some space := by
  obtain ⟨space, hspace, -⟩ := Option.bind_eq_some_iff.1 h.stands
  obtain ⟨scope, hscope, hspace⟩ := Option.bind_eq_some_iff.1 hspace
  exact ⟨scope, space, hscope, hspace⟩

lemma live_of_namesIn {scope : SpaceRef} (h : ctx.namesIn scope ≠ []) :
    ∃ space, ctx.libraries.space? scope = some space := by
  unfold namesIn at h
  cases hspace : ctx.libraries.space? scope with
  | none => simp [hspace] at h
  | some space => exact ⟨space, rfl⟩

section

variable (hkeyed : ctx.libraries.GroupsByName) {stop : Stop} {scope : SpaceRef}
  (hstop : ctx.spaceAt? stop = some scope) {name : String}

include hkeyed hstop

/-- The first name of a kind in a namespace is offered there, before the others of the kind. -/
lemma exists_offers_of_find? {p : String → Bool} (h : (ctx.namesIn scope).find? p = some name) :
    ∃ i, ctx.Offers ⟨stop, i⟩ name ∧ ∀ j other, ctx.Offers ⟨stop, j⟩ other →
    p other = true → i ≤ j := by
  obtain ⟨space, hspace⟩ := live_of_namesIn (List.ne_nil_of_mem (List.mem_of_find?_eq_some h))
  rw [namesIn, hspace, Option.elim_some, List.find?_map, List.find?_filter] at h
  obtain ⟨⟨_, group⟩, hfind, rfl⟩ := Option.map_eq_some_iff.1 h
  obtain ⟨hgroup, i, hi, heq, hbefore⟩ := List.find?_eq_some_iff_getElem.1 hfind
  have hvisible : ctx.visible group ≠ [] := by simpa using (of_decide_eq_true hgroup).1
  refine ⟨i, (offers_iff hkeyed hstop hspace).2 ⟨group, ?_, hvisible⟩, fun j other hoffer hp => ?_⟩
  · rw [List.getElem?_eq_getElem hi, heq]
  · by_contra hlt
    obtain ⟨group', hentry, hvisible'⟩ := (offers_iff hkeyed hstop hspace).1 hoffer
    obtain ⟨hj, hentry⟩ := List.getElem?_eq_some_iff.1 hentry
    have hskipped := hbefore j (Nat.lt_of_not_le hlt)
    rw [hentry] at hskipped
    simp [hvisible', hp] at hskipped

lemma mem_namesIn_iff : name ∈ ctx.namesIn scope ↔ ∃ i, ctx.Offers ⟨stop, i⟩ name := by
  constructor
  · intro h
    have hfind : ∃ found, (ctx.namesIn scope).find? (· = name) = some found :=
      Option.isSome_iff_exists.1 (List.find?_isSome.2 ⟨name, h, decide_eq_true rfl⟩)
    obtain ⟨found, hfind⟩ := hfind
    obtain rfl : found = name := of_decide_eq_true (List.find?_some hfind :)
    obtain ⟨i, hoffer, -⟩ := exists_offers_of_find? hkeyed hstop hfind
    exact ⟨i, hoffer⟩
  · rintro ⟨i, hoffer⟩
    obtain ⟨scope', space, hscope, hspace⟩ := spaceAt?_of_offers hoffer
    obtain rfl : scope' = scope := Option.some.inj (hscope.symm.trans hstop)
    obtain ⟨group, hentry, hvisible⟩ := (offers_iff hkeyed hstop hspace).1 hoffer
    rw [namesIn, hspace, Option.elim_some]
    refine List.mem_map.2 ⟨(name, group), List.mem_filter.2 ⟨List.mem_of_getElem? hentry, ?_⟩, rfl⟩
    simpa using hvisible

end

/-- The collected names are those that the context offers. -/
lemma mem_namesInScope (hkeyed : ctx.libraries.GroupsByName) {name : String} :
    name ∈ ctx.namesInScope ↔ ∃ spot, ctx.Offers spot name := by
  rw [namesInScope_eq, mem_addAllNew, List.mem_flatMap]
  constructor
  · rintro (h | ⟨scope, hscope, hname⟩)
    · exact absurd h List.not_mem_nil
    · obtain ⟨stop, hstop⟩ := exists_spaceAt?_iff.2 (mem_searchScopes.1 hscope)
      obtain ⟨i, hoffer⟩ := (mem_namesIn_iff hkeyed hstop).1 hname
      exact ⟨_, hoffer⟩
  · rintro ⟨⟨stop, i⟩, hoffer⟩
    obtain ⟨scope, -, hstop, -⟩ := spaceAt?_of_offers hoffer
    exact Or.inr ⟨scope, mem_searchScopes.2 (exists_spaceAt?_iff.1 ⟨stop, hstop⟩),
      (mem_namesIn_iff hkeyed hstop).2 ⟨i, hoffer⟩⟩

/-- The first member of a kind is found in the first list that has one. -/
lemma find?_flatMap_eq_head? {α β : Type} (p : β → Bool) (f : α → List β) (xs : List α) :
    (xs.flatMap f).find? p = (firstNonEmpty (fun x => (f x).filter p) xs).head? := by
  induction xs with
  | nil => rfl
  | cons x xs ih =>
    rw [List.flatMap_cons, List.find?_append, ih, firstNonEmpty, ← List.head?_filter]
    cases (f x).filter p <;> rfl

/-- The first collected name of a kind stands at the first spot where a name of the kind is
offered. -/
lemma exists_first_of_find? (hkeyed : ctx.libraries.GroupsByName)
    {p : String → Bool} {name : String}
    (h : ctx.namesInScope.find? p = some name) : ∃ spot, ctx.Offers spot name ∧
      ∀ spot' other, ctx.Offers spot' other → p other = true → spot
        = spot' ∨ spot.Before spot' := by
  rw [namesInScope_eq, find?_addAllNew, List.nil_append, find?_flatMap_eq_head?] at h
  rcases ctx.firstAt_searchScopes fun scope =>
    (ctx.namesIn scope).filter p with ⟨stop, hne, hbefore, hfound⟩ | ⟨-, hfound⟩
  · beta_reduce at hne hbefore hfound
    obtain ⟨scope, hstop⟩ : ∃ scope, ctx.spaceAt? stop = some scope := by
      cases hstop : ctx.spaceAt? stop with
      | none => simp [hstop] at hne
      | some scope => exact ⟨scope, rfl⟩
    rw [hfound, hstop, Option.elim_some, List.head?_filter] at h
    obtain ⟨i, hoffer, hfirst⟩ := exists_offers_of_find? hkeyed hstop h
    refine ⟨⟨stop, i⟩, hoffer, fun ⟨stop', j⟩ other hother hp => ?_⟩
    rcases Stop.before_trichotomy stop stop' with hstops | rfl | hstops
    · exact Or.inr (Or.inl hstops)
    · rcases Nat.eq_or_lt_of_le (hfirst j other hother hp) with rfl | hlt
      · exact Or.inl rfl
      · exact Or.inr (Or.inr ⟨rfl, hlt⟩)
    · -- Nothing of the kind is offered at the stops before.
      obtain ⟨scope', -, hstop', -⟩ := spaceAt?_of_offers hother
      have hnil := hbefore stop' hstops
      rw [hstop', Option.elim_some] at hnil
      have hmem := (mem_namesIn_iff hkeyed hstop').2 ⟨j, hother⟩
      exact absurd hp (List.filter_eq_nil_iff.1 hnil other hmem)
  · rw [hfound] at h
    cases h

/-- The suggestion is made of the first nearest name, if there is a near miss. -/
lemma nearest_namesInScope (hkeyed : ctx.libraries.GroupsByName) (name : String) :
    ((nearest name ctx.namesInScope).isSome ↔ ∃ spot near, ctx.Offers spot near ∧
      IsNearMiss name near) ∧
      ∀ near, nearest name ctx.namesInScope = some near → ∃ spot,
      ctx.IsFirstNearest name near spot := by
  constructor
  · rw [← not_iff_not, Option.not_isSome_iff_eq_none, nearest_eq_none_iff]
    constructor
    · rintro h ⟨spot, near, hoffer, hnear⟩
      exact h near ((mem_namesInScope hkeyed).2 ⟨spot, hoffer⟩) hnear
    · intro h near hmem hnear
      obtain ⟨spot, hoffer⟩ := (mem_namesInScope hkeyed).1 hmem
      exact h ⟨spot, near, hoffer, hnear⟩
  · intro near h
    obtain ⟨hnear, hleast, hfind⟩ := nearest_eq_some h
    obtain ⟨spot, hoffer, hfirst⟩ := exists_first_of_find? hkeyed hfind
    exact ⟨spot, hoffer, hnear, fun hother => hleast _ ((mem_namesInScope hkeyed).2 ⟨_, hother⟩),
      fun hother heq => hfirst _ _ hother (decide_eq_true heq)⟩

/-- A lookup that finds nothing, where no namespace hides anything of the name, suggests the first
nearest of the offered names, if one is one or two edits away.  It is another name, and a lookup
finds it. -/
theorem find_suggests (ctx : Context) (hkeyed : ctx.libraries.GroupsByName)
    (hsuggestions : ctx.suggestions = true) (name : Ident) (hmissing : (ctx.find name).1 = [])
    (hhidden : ∀ stop scope, ctx.spaceAt? stop = some scope → ctx.groupAt name.name stop = []) :
    ∃ suggestion, ctx.find name = ([], [Message.notFound name "declaration" suggestion]) ∧
      (suggestion.isSome ↔ ∃ spot near, ctx.Offers spot near ∧ IsNearMiss name.name near) ∧
      ∀ near, suggestion = some near →
        (∃ spot, ctx.IsFirstNearest name.name near spot) ∧ near ≠ name.name ∧
          ∀ range, (ctx.find ⟨near, range⟩).1 ≠ [] := by
  obtain ⟨hsome, hfirst⟩ := nearest_namesInScope hkeyed name.name
  refine ⟨nearest name.name ctx.namesInScope, ?_, hsome, fun near h => ?_⟩
  · have hnone : ¬ ∃ stop scope, ctx.spaceAt? stop = some scope ∧ ctx.groupAt name.name stop ≠ [] :=
      fun ⟨stop, scope, hscope, hgroup⟩ => hgroup (hhidden stop scope hscope)
    have hreport : ctx.reportMissing name
        = Message.notFound name "declaration" (nearest name.name ctx.namesInScope) := by
      rw [reportMissing, if_neg (any_groupIn_iff.not.2 hnone), if_pos hsuggestions]
    exact Prod.ext hmissing (by rw [find_snd, if_pos hmissing, hreport])
  · obtain ⟨spot, hbest⟩ := hfirst near h
    have hvisible : ctx.visible (ctx.groupAt near spot.stop) ≠ [] := hbest.offered.visible
    refine ⟨⟨spot, hbest⟩, ?_, fun range => find_ne_nil_iff.2 ⟨spot.stop, hvisible⟩⟩
    rintro rfl
    exact find_ne_nil_iff.2 ⟨spot.stop, hvisible⟩ hmissing

/-- The name of the function with two letters swapped. -/
def coutn : Ident := ⟨"coutn", ⟨⟨4, 2⟩, ⟨4, 7⟩⟩⟩

/-- The function is all that there is to be found. -/
lemma groups_store {ref : SpaceRef} {space : Namespace} (h : store.space? ref = some space) :
    space.groups = [] ∨ space.groups = [("count", [counter.id])] := by
  obtain ⟨library, index⟩ := ref
  obtain ⟨lib, hlib, hspace⟩ := Option.bind_eq_some_iff.1 h
  rw [LibrarySet.get?] at hlib
  split at hlib
  · obtain rfl := Option.some.inj hlib
    rcases index with _ | _ | _ | index <;> cases hspace
    · exact Or.inl rfl
    · exact Or.inr rfl
    · exact Or.inl rfl
  · split at hlib
    · obtain rfl := Option.some.inj hlib
      rcases index with _ | index <;> cases hspace
      exact Or.inl rfl
    · obtain ⟨slot, -, hslot⟩ := Option.bind_eq_some_iff.1 hlib
      cases hslot

theorem find_suggests_count :
    inStore.libraries.GroupsByName ∧ inStore.suggestions = true ∧ (inStore.find coutn).1 = [] ∧
    (∀ stop scope, inStore.spaceAt? stop = some scope → inStore.groupAt coutn.name stop = []) ∧
    inStore.find coutn = ([], [Message.notFound coutn "declaration" (some "count")]) := by
  have hkeyed : inStore.libraries.GroupsByName := fun ref space hspace => by
    rcases groups_store hspace with h | h <;> rw [h] <;> decide
  -- The store has a single name, which is not the one that is looked up.
  have hhidden (stop : Stop) (scope : SpaceRef) (hstop : inStore.spaceAt? stop = some scope) :
      inStore.groupAt coutn.name stop = [] := by
    rw [groupAt_of_spaceAt? hstop]
    cases hspace : inStore.libraries.space? scope with
    | none => simp [groupIn, hspace]
    | some space =>
      rcases groups_store hspace with h | h <;> simp [groupIn, hspace, Namespace.group, h, coutn]
  have hmissing : (inStore.find coutn).1 = [] := by
    by_contra hfound
    obtain ⟨stop, hstop⟩ := find_ne_nil_iff.1 hfound
    cases hspace : inStore.spaceAt? stop with
    | some scope => exact hstop (by rw [hhidden stop scope hspace]; rfl)
    | none =>
      cases stop with
      | member k => exact hstop rfl
      | enclosing _ | imported _ | kernel => simp [groupAt, hspace, visible] at hstop
  obtain ⟨suggestion, hfind, hsome, hnear⟩ :=
    find_suggests inStore hkeyed rfl coutn hmissing hhidden
  have hoffer : inStore.Offers ⟨.enclosing 0, 0⟩ "count" := ⟨rfl, visible_count⟩
  obtain ⟨near, rfl⟩ := Option.isSome_iff_exists.1 (hsome.2 ⟨_, _, hoffer, by decide⟩)
  obtain ⟨⟨spot, hbest⟩, -⟩ := hnear near rfl
  obtain ⟨scope, space, hscope, hspace⟩ := spaceAt?_of_offers hbest.offered
  obtain ⟨group, hentry, -⟩ := (offers_iff hkeyed hscope hspace).1 hbest.offered
  -- What is suggested is offered somewhere, and there is only one name to offer.
  obtain rfl : near = "count" := by
    have hmem := List.mem_of_getElem? hentry
    rcases groups_store hspace with h | h <;> rw [h] at hmem
    · cases hmem
    · exact (Prod.ext_iff.1 (List.mem_singleton.1 hmem)).1
  exact ⟨hkeyed, rfl, hmissing, hhidden, hfind⟩

end Context

end SymbolGraph
