import SymbolGraph.Proofs.Checking.Verdicts

/-!
# What inherits from itself

The inheritance walks of a model are exact on every graph (`LibrarySet.ExactWalks`): they end, enter
nothing twice, and find what can be reached, however the graph is tangled.  Each is the only search
of its kind (`Walk.Search`), so its order is told as well.

A walk leaves its start out.  So the closure of some interfaces lists what can be reached over ways
that do not lead through the start; these are all ways when the start's own interfaces are among the
roots, as they are whenever a walk has a start.

The flag of a walk therefore tells whether a declaration reaches itself, and a check reports
circular inheritance on the valid interfaces and classes that do
(`LibrarySet.Addressed.walks_exact`).
-/

namespace SymbolGraph

open Relation Overriding

namespace LibrarySet

variable {set : LibrarySet}

/-! ## Circles -/

/-- A declaration of a category reaches itself over one or more bases. -/
def Circular (set : LibrarySet) (category : Category) (id : DeclId) : Prop :=
  TransGen (fun a b => b ∈ set.bases category a) id id

/-- The flag of the walk from a declaration. -/
def loops (set : LibrarySet) : Category → DeclId → Bool
  | .class, id => set.classLoops id
  | .interface, id => set.interfaceLoops id (set.superInterfaces id)
  | _, _ => false

lemma loops_iff {category : Category} {id : DeclId} :
    set.loops category id = true ↔ set.Circular category id := by
  cases category with
  | «class» => exact classLoops_iff id
  | interface => rw [loops, interfaceLoops_iff, Circular, TransGen.head'_iff, bases]
  | _ =>
    refine iff_of_false Bool.false_ne_true fun hway => ?_
    obtain ⟨_, hstep, -⟩ := TransGen.head'_iff.1 hway
    cases hstep

instance (category : Category) (id : DeclId) : Decidable (set.Circular category id) :=
  decidable_of_iff _ loops_iff

/-- The inheritance walks of a model find what there is to find, once, and in the order of a
search. -/
structure ExactWalks (set : LibrarySet) : Prop where
  /-- The ancestors of a class are the search up from its parent that leaves the class out. -/
  class_search : ∀ id order, Walk.Search set.parents (some id) [] (set.parents id) order ↔
    order = set.classAncestors id
  class_nodup : ∀ id, (set.classAncestors id).Nodup
  /-- Each ancestor is the parent of the one before. -/
  class_chain : ∀ id, List.IsChain (fun a b => b ∈ set.parents a) (id :: set.classAncestors id)
  class_mem : ∀ id base, base ∈ set.classAncestors id ↔
    base ≠ id ∧ TransGen (fun a b => b ∈ set.parents a) id base
  /-- The closure of some interfaces is the search down from them that leaves the start out. -/
  interface_search : ∀ roots start order,
    Walk.Search set.superInterfaces start [] roots order ↔ order = set.interfaceClosure roots start
  interface_nodup : ∀ roots start, (set.interfaceClosure roots start).Nodup
  interface_mem : ∀ roots start base, base ∈ set.interfaceClosure roots start ↔
    ∃ root ∈ roots, Walk.Reachable set.superInterfaces start root base
  /-- Without a start, or with its interfaces among the roots, no way is lost. -/
  interface_mem_all : ∀ roots start base,
    (∀ s, start = some s → ∀ own ∈ set.superInterfaces s, own ∈ roots) →
    (base ∈ set.interfaceClosure roots start ↔ some base ≠ start ∧
      ∃ root ∈ roots, ReflTransGen (fun a b => b ∈ set.superInterfaces a) root base)
  class_flag : ∀ id, set.classLoops id = true ↔ TransGen (fun a b => b ∈ set.parents a) id id
  interface_flag : ∀ roots start, set.interfaceLoops start roots = true ↔
    ∃ root ∈ roots, ReflTransGen (fun a b => b ∈ set.superInterfaces a) root start

lemma exactWalks (set : LibrarySet) : set.ExactWalks where
  class_search id order := by
    refine ⟨(search_classAncestors id).unique, ?_⟩
    rintro rfl
    exact search_classAncestors id
  class_nodup := nodup_classAncestors
  class_chain id := (isChain_classAncestors id).imp fun _ _ hparent => Option.mem_toList.2 hparent
  class_mem id base := mem_classAncestors
  interface_search roots start order := by
    refine ⟨(search_interfaceClosure roots start).unique, ?_⟩
    rintro rfl
    exact search_interfaceClosure roots start
  interface_nodup := nodup_interfaceClosure
  interface_mem _ _ _ := mem_interfaceClosure
  interface_mem_all roots start base hown := by
    cases start with
    | none => rw [mem_interfaceClosure_none, and_iff_right (Option.some_ne_none base)]
    | some s =>
      rw [mem_interfaceClosure]
      -- A base other than the start is reached by a way of one step or more; cutting the way at its
      -- last visit to the start makes it one that avoids the start.
      constructor
      · rintro ⟨root, hroot, hreach⟩
        refine ⟨?_, root, hroot, hreach.transGen⟩
        rcases ReflTransGen.cases_tail hreach.2 with rfl | ⟨_, -, hstep⟩
        · exact hreach.1
        · exact hstep.2
      · rintro ⟨hne, root, hroot, hway⟩
        exact Walk.exists_reachable_of_way (hown s rfl) hroot hway fun heq =>
          hne (congrArg some heq)
  class_flag := classLoops_iff
  interface_flag roots start := interfaceLoops_iff start roots

/-! ## The report -/

/-- The report on some declarations, each looked at on its own. -/
lemma flatMap_filter_ite {α β : Type} (p : α → Bool) (q : α → Prop) [DecidablePred q] (f : α → β)
    (xs : List α) : ((xs.filter p).flatMap fun x => if q x then [f x] else [])
      = (xs.filter fun x => p x && q x).map f := by
  induction xs with
  | nil => rfl
  | cons x rest ih =>
    by_cases hp : p x = true <;> by_cases hq : q x <;> simp [hp, hq, ih]

/-- The walks are exact, and a check reports exactly the valid declarations that reach
themselves. -/
theorem Addressed.walks_exact (addressed : set.Addressed) : set.ExactWalks ∧
    ∀ library lib, set.get? library = some lib →
      (set.check library).2.withCode .circularInheritance =
        [Category.interface, .class].flatMap fun category => ((lib.entries category).filter
          fun entry => entry.valid && set.Circular category entry.id).map circular := by
  refine ⟨set.exactWalks, fun library lib hlib => ?_⟩
  have hslot {category : Category} {entry : Entry} (hentry : entry ∈ lib.entries category) :
      set.find? entry.id = some entry := by
    obtain ⟨index, hindex⟩ := mem_entries.1 hentry
    exact addressed.find?_slot (by rw [LibrarySet.slot?_of_get? hlib, hindex])
  have hinterface (entry : Entry) (hentry : entry ∈ (lib.entries .interface).filter Symbol.valid) :
      (judgeInterface set entry).report.withCode .circularInheritance
        = if set.Circular .interface entry.id then [circular entry] else [] := by
    simp only [← loops_iff, loops, superInterfaces_eq (hslot (List.mem_filter.1 hentry).1)]
    cases hinfo : entry.body.interface? with
    | some info => exact (withCode_judgeInterface hinfo).1
    | none =>
      have hnone : ¬ set.interfaceLoops entry.id entry.body.superInterfaces = true := by
        simp [interfaceLoops_iff, Body.superInterfaces, hinfo]
      rw [if_neg hnone, judgeInterface, hinfo, Report.withCode_nil]
  have hclass (entry : Entry) (hentry : entry ∈ (lib.entries .class).filter Symbol.valid) :
      (judgeClass set entry).report.withCode .circularInheritance
        = if set.Circular .class entry.id then [circular entry] else [] := by
    simp only [← loops_iff, loops]
    cases hinfo : entry.body.class? with
    | some info => exact (withCode_judgeClass hinfo).1
    | none =>
      have hnone : ¬ set.classLoops entry.id = true := by
        rw [classLoops_iff, TransGen.head'_iff]
        simp [LibrarySet.parents, hslot (List.mem_filter.1 hentry).1, Body.parent?, hinfo]
      rw [if_neg hnone, judgeClass, hinfo, Report.withCode_nil]
  rw [withCode_check addressed.identified hlib (by decide), withCode_judge,
    List.flatMap_congr hinterface, List.flatMap_congr hclass,
    flatMap_filter_ite, flatMap_filter_ite]
  simp

/-- Of two classes that are each other's parents, each is the only ancestor of the other. -/
lemma classAncestors_of_pair {a b : DeclId} (hne : b ≠ a) (ha : set.parents a = [b])
    (hb : set.parents b = [a]) : set.classAncestors a = [b] := by
  have hstart : some b ≠ some a := fun heq => hne (Option.some.inj heq)
  have hinner : Walk.Search set.parents (some a) [b] (set.parents b) [] := by
    rw [hb]
    exact .pass (Or.inl rfl) .done
  have hsearch : Walk.Search set.parents (some a) [] (set.parents a) [b] := by
    rw [ha]
    exact .enter hstart List.not_mem_nil hinner .done
  exact hsearch.unique (search_classAncestors a)

/-- In the ring each class is the only ancestor of the other, and both are reported. -/
theorem ring_walks_exact : ring.Addressed ∧
    ring.classAncestors (heir 0 1).id = [(heir 1 0).id] ∧
    (ring.check .project).2.withCode .circularInheritance
      = [circular (heir 0 1), circular (heir 1 0)] := by
  obtain ⟨-, hreport⟩ := addressed_ring.walks_exact
  have hparent : ring.parents (heir 0 1).id = [(heir 1 0).id] := rfl
  have hparent' : ring.parents (heir 1 0).id = [(heir 0 1).id] := rfl
  refine ⟨addressed_ring, classAncestors_of_pair (by decide) hparent hparent', ?_⟩
  have hup : (heir 1 0).id ∈ ring.parents (heir 0 1).id := hparent ▸ List.mem_singleton_self _
  have hback : (heir 0 1).id ∈ ring.parents (heir 1 0).id := hparent' ▸ List.mem_singleton_self _
  have hcircle : ring.Circular .class (heir 0 1).id := .head hup (.single hback)
  have hcircle' : ring.Circular .class (heir 1 0).id := .head hback (.single hup)
  have hinterfaces : ring.project.entries .interface = [] := rfl
  have hclasses : ring.project.entries .class = [heir 0 1, heir 1 0] := rfl
  have hvalid (index parent : Nat) : (heir index parent).valid = true := rfl
  rw [hreport .project ring.project rfl]
  simp [hinterfaces, hclasses, hvalid, hcircle, hcircle']

end LibrarySet

end SymbolGraph
