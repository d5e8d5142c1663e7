import Mathlib.Data.List.Nodup
import Mathlib.Data.List.Perm.Basic
import Mathlib.Logic.Relation
import SymbolGraph.Inheritance
import SymbolGraph.Proofs.Model.LibrarySets

/-!
# What inheritance walks reach

A depth-first walk visits exactly the nodes that can be reached from its stack over nodes that were
fresh at its start, on every graph.  The two inheritance walks carry all bases of all declarations
as fresh nodes, so the ancestors of a class are the classes that its chain of parents reaches, and
the closure of some interfaces is what they reach along inheritance; a declaration that reaches
itself is not among its own bases.

Which of the fresh nodes come first does not matter, and neither do fresh nodes that the walk does
not come to, so a walk commutes with renaming the nodes that it can come to.
-/

namespace SymbolGraph

open Relation

/-! ## Walks -/

namespace Walk

variable {α : Type} {next : α → List α} {fresh stack : List α}

/-- `a` can be reached from `s` over nodes of `fresh`. -/
def Reaches (next : α → List α) (fresh : List α) (s a : α) : Prop :=
  s ∈ fresh ∧ ReflTransGen (fun x y => y ∈ next x ∧ y ∈ fresh) s a

/-- `base` lies above `start`: some edges lead to it, and it is another node. -/
def Above (next : α → List α) (start base : α) : Prop :=
  base ≠ start ∧ TransGen (fun x y => y ∈ next x) start base

lemma Reaches.tail {s b c : α} (h : Reaches next fresh s b) (hc : c ∈ next b)
    (hfresh : c ∈ fresh) : Reaches next fresh s c :=
  ⟨h.1, h.2.tail ⟨hc, hfresh⟩⟩

lemma Reaches.of_subset {fresh' : List α} (hsub : ∀ x ∈ fresh', x ∈ fresh) {s a : α}
    (h : Reaches next fresh' s a) : Reaches next fresh s a :=
  ⟨hsub s h.1, h.2.lift id fun _ _ hxy => ⟨hxy.1, hsub _ hxy.2⟩⟩

variable [DecidableEq α]

/-- A way either ends at a given node, or avoids it, or avoids it from its last visit on. -/
lemma Reaches.last_visit (node : α) {s a : α} (h : Reaches next fresh s a) :
    a = node ∨ Reaches next (fresh.erase node) s a ∨
      ∃ y ∈ next node, Reaches next (fresh.erase node) y a := by
  obtain ⟨hs, hway⟩ := h
  induction hway with
  | refl =>
    by_cases heq : s = node
    · exact Or.inl heq
    · exact Or.inr (Or.inl ⟨(List.mem_erase_of_ne heq).2 hs, .refl⟩)
  | @tail b c _ hstep ih =>
    by_cases heq : c = node
    · exact Or.inl heq
    · have hc := (List.mem_erase_of_ne heq).2 hstep.2
      rcases ih with rfl | hb | ⟨y, hy, hb⟩
      · exact Or.inr (Or.inr ⟨c, hstep.1, hc, .refl⟩)
      · exact Or.inr (Or.inl (hb.tail hstep.1 hc))
      · exact Or.inr (Or.inr ⟨y, hy, hb.tail hstep.1 hc⟩)

/-- A walk visits what its stack reaches. -/
lemma mem_preorder_iff {a : α} :
    a ∈ preorder next fresh stack ↔ ∃ s ∈ stack, Reaches next fresh s a := by
  fun_induction preorder next fresh stack with
  | case1 => simp
  | case2 fresh node rest hnode ih =>
    have hsub : ∀ x ∈ fresh.erase node, x ∈ fresh := fun _ hx => List.mem_of_mem_erase hx
    rw [List.mem_cons, ih]
    constructor
    · rintro (rfl | ⟨s, hs, hreach⟩)
      · exact ⟨a, List.mem_cons_self .., hnode, .refl⟩
      · rcases List.mem_append.1 hs with hs | hs
        · have hreach := hreach.of_subset hsub
          exact ⟨node, List.mem_cons_self .., hnode, hreach.2.head ⟨hs, hreach.1⟩⟩
        · exact ⟨s, List.mem_cons_of_mem _ hs, hreach.of_subset hsub⟩
    · rintro ⟨s, hs, hreach⟩
      rcases hreach.last_visit node with rfl | havoid | ⟨y, hy, havoid⟩
      · exact Or.inl rfl
      · rcases List.mem_cons.1 hs with rfl | hs
        · -- the way starts at the node, so its first step leads to the stack of the rest
          rcases ReflTransGen.cases_head havoid.2 with rfl | ⟨y, hy, hrest⟩
          · exact Or.inl rfl
          · exact Or.inr ⟨y, List.mem_append_left _ hy.1, hy.2, hrest⟩
        · exact Or.inr ⟨s, List.mem_append_right _ hs, havoid⟩
      · exact Or.inr ⟨y, List.mem_append_left _ hy, havoid⟩
  | case3 fresh node rest hnode ih =>
    rw [ih]
    constructor
    · rintro ⟨s, hs, hreach⟩
      exact ⟨s, List.mem_cons_of_mem _ hs, hreach⟩
    · rintro ⟨s, hs, hreach⟩
      rcases List.mem_cons.1 hs with rfl | hs
      · exact absurd hreach.1 hnode
      · exact ⟨s, hs, hreach⟩

/-- Walks over corresponding graphs visit corresponding nodes, in the same order.  The graphs need
to correspond only in a part `P` of the nodes that the edges do not leave. -/
lemma preorder_map {β : Type} [DecidableEq β] {f : α → β} (hf : Function.Injective f) {P : α → Prop}
    (hclosed : ∀ x, P x → ∀ y ∈ next x, P y) {next' : β → List β}
    (hnext : ∀ x, P x → next' (f x) = (next x).map f) {fresh' : List β} (hnodup : fresh.Nodup)
    (hnodup' : fresh'.Nodup) (hfresh : ∀ x, P x → (f x ∈ fresh' ↔ x ∈ fresh))
    (hstack : ∀ x ∈ stack, P x) :
    preorder next' fresh' (stack.map f) = (preorder next fresh stack).map f := by
  fun_induction preorder next fresh stack generalizing fresh' with
  | case1 fresh => simp
  | case2 fresh node rest hmem ih =>
    have hnode := hstack node List.mem_cons_self
    have hleft : ∀ x, P x → (f x ∈ fresh'.erase (f node) ↔ x ∈ fresh.erase node) := fun x hx => by
      rw [hnodup'.mem_erase_iff, hnodup.mem_erase_iff, hfresh x hx, hf.ne_iff]
    have hnow : ∀ x ∈ next node ++ rest, P x := fun x hx => (List.mem_append.1 hx).elim
      (hclosed node hnode x) fun h => hstack x (List.mem_cons_of_mem _ h)
    rw [List.map_cons, preorder_cons, if_pos ((hfresh node hnode).2 hmem), hnext node hnode,
      ← List.map_append, ih (hnodup.erase node) (hnodup'.erase _) hleft hnow, List.map_cons]
  | case3 fresh node rest hmem ih =>
    have hmem' : f node ∉ fresh' := (hfresh node (hstack node List.mem_cons_self)).not.2 hmem
    rw [List.map_cons, preorder_cons, if_neg hmem',
      ih hnodup hnodup' hfresh fun x hx => hstack x (List.mem_cons_of_mem _ hx)]

section

variable {nodes : List α} (hclosed : ∀ x, ∀ y ∈ next x, y ∈ nodes)

include hclosed

/-- Over all nodes that the edges lead to, a walk follows the edges without restriction. -/
lemma mem_preorder_of_closed (hstack : ∀ s ∈ stack, s ∈ nodes) {a : α} :
    a ∈ preorder next nodes stack ↔
      ∃ s ∈ stack, ReflTransGen (fun x y => y ∈ next x) s a := by
  have hstep : ∀ x y, y ∈ next x ∧ y ∈ nodes ↔ y ∈ next x :=
    fun x y => and_iff_left_of_imp fun hy => hclosed x y hy
  rw [mem_preorder_iff]
  refine exists_congr fun s => and_congr_right fun hs => ?_
  simp only [Reaches, hstep, hstack s hs, true_and]

/-- A walk from a node that does not enter the node again visits what lies above it. -/
lemma mem_preorder_above {start a : α} :
    a ∈ preorder next (nodes.filter (· ≠ start)) (next start) ↔ Above next start a := by
  rw [mem_preorder_iff]
  constructor
  · rintro ⟨s, hs, hreach⟩
    have hway : ReflTransGen (fun x y => y ∈ next x) s a :=
      hreach.2.lift id fun _ _ hxy => hxy.1
    have hfresh : a ∈ nodes.filter (· ≠ start) :=
      mem_of_mem_preorder (mem_preorder_iff.2 ⟨s, hs, hreach⟩)
    refine ⟨by simpa using (List.mem_filter.1 hfresh).2, TransGen.head' hs hway⟩
  · rintro ⟨hne, hway⟩
    have hfresh {x y : α} (hy : y ∈ next x) (hyne : y ≠ start) :
        y ∈ nodes.filter (· ≠ start) := List.mem_filter.2 ⟨hclosed x y hy, by simpa using hyne⟩
    -- follow the way from its last visit to the start on
    have hlast : a = start ∨ ∃ s ∈ next start, Reaches next (nodes.filter (· ≠ start)) s a := by
      clear hne
      induction hway with
      | @single y hy =>
        by_cases heq : y = start
        · exact Or.inl heq
        · exact Or.inr ⟨y, hy, hfresh hy heq, .refl⟩
      | @tail b c _ hc ih =>
        by_cases heq : c = start
        · exact Or.inl heq
        · rcases ih with rfl | ⟨s, hs, hreach⟩
          · exact Or.inr ⟨c, hc, hfresh hc heq, .refl⟩
          · exact Or.inr ⟨s, hs, hreach.tail hc (hfresh hc heq)⟩
    exact hlast.resolve_left hne

end

end Walk

/-! ## Bases of declarations -/

lemma nodup_eraseDups {α : Type} [DecidableEq α] : (xs : List α) → xs.eraseDups.Nodup
  | [] => by simp
  | x :: xs => by
    rw [List.eraseDups_cons]
    refine List.nodup_cons.2 ⟨fun h => ?_, nodup_eraseDups _⟩
    simpa using List.mem_eraseDups.1 h
termination_by xs => xs.length
decreasing_by
  have := List.length_filter_le (fun y => !y == x) xs
  simp only [List.length_cons]
  omega

namespace LibrarySet

variable {set : LibrarySet}

lemma mem_toList_of_get? {library : LibraryId} {lib : Library}
    (h : set.get? library = some lib) : lib ∈ set.toList := by
  unfold get? at h
  split at h
  · rw [← Option.some.inj h]
    exact List.mem_cons_self ..
  · split at h
    · rw [← Option.some.inj h]
      exact List.mem_cons_of_mem _ (List.mem_cons_self ..)
    · obtain ⟨slot, -, hslot⟩ := Option.bind_eq_some_iff.1 h
      exact List.mem_cons_of_mem _ (List.mem_cons_of_mem _ (List.mem_of_getElem? hslot))

lemma mem_toList {lib : Library} :
    lib ∈ set.toList ↔ ∃ library, set.get? library = some lib := by
  refine ⟨fun h => ?_, fun ⟨_, h⟩ => mem_toList_of_get? h⟩
  obtain rfl | h := List.mem_cons.1 h
  · exact ⟨.project, rfl⟩
  · obtain rfl | h := List.mem_cons.1 h
    · exact ⟨.kernel, rfl⟩
    · obtain ⟨slot, hslot⟩ := List.mem_iff_getElem?.1 h
      exact ⟨.ofSlot slot, by simp [get?, hslot]⟩

lemma mem_entries {lib : Library} {category : Category} {entry : Entry} :
    entry ∈ lib.entries category ↔ ∃ index, lib.slot? category index = some entry := by
  simp only [Library.entries, List.mem_filterMap, Library.slot?, Option.join_eq_some_iff]
  constructor
  · rintro ⟨slot, hslot, rfl⟩
    exact List.mem_iff_getElem?.1 hslot
  · rintro ⟨index, hindex⟩
    exact ⟨_, List.mem_of_getElem? hindex, rfl⟩

/-- The listed declarations are those in the slots. -/
lemma mem_allEntries {entry : Entry} : entry ∈ set.allEntries ↔
    ∃ library category index, set.slot? library category index = some entry := by
  simp only [allEntries, List.mem_flatMap, mem_toList, Library.allEntries, mem_entries, slot?,
    Option.bind_eq_some_iff]
  constructor
  · rintro ⟨lib, ⟨library, hlib⟩, category, -, index, hslot⟩
    exact ⟨library, category, index, lib, hlib, hslot⟩
  · rintro ⟨library, category, index, lib, hlib, hslot⟩
    exact ⟨lib, ⟨library, hlib⟩, category, category.mem_all, index, hslot⟩

/-- A declaration that lookup finds is a member, or one of the listed top-level ones. -/
lemma mem_allEntries_of_find? {id : DeclId} {entry : Entry} (h : set.find? id = some entry) :
    entry ∈ set.allEntries ∨ ∃ member : Member, entry = member.toEntry := by
  obtain ⟨lib, hlib, hfind⟩ := Option.bind_eq_some_iff.1 h
  unfold Library.find? at hfind
  split at hfind
  · cases hfind
  · split at hfind
    · obtain ⟨slot, hslot, heq⟩ := Option.bind_eq_some_iff.1 hfind
      refine Or.inl (mem_allEntries.2 ⟨id.library, id.category, id.index, ?_⟩)
      rw [slot?_of_get? hlib, Library.slot?, hslot]
      exact heq
    · obtain ⟨owner, -, hrest⟩ := Option.bind_eq_some_iff.1 hfind
      obtain ⟨members, -, hrest⟩ := Option.bind_eq_some_iff.1 hrest
      obtain ⟨member, -, heq⟩ := Option.bind_eq_some_iff.1 hrest
      exact Or.inr ⟨member, (Option.some.inj heq).symm⟩

lemma mem_parentNodes {id base : DeclId} (h : base ∈ set.parents id) :
    base ∈ set.parentNodes := by
  obtain ⟨entry, hentry, hbase⟩ := Option.bind_eq_some_iff.1 (Option.mem_toList.1 h)
  rcases mem_allEntries_of_find? hentry with hmem | ⟨member, rfl⟩
  · exact List.mem_eraseDups.2 (List.mem_filterMap.2 ⟨entry, hmem, hbase⟩)
  · cases hbase

lemma mem_interfaceNodes {roots : List DeclId} {id base : DeclId}
    (h : base ∈ set.superInterfaces id) : base ∈ set.interfaceNodes roots := by
  unfold superInterfaces at h
  cases hentry : set.find? id with
  | none => simp [hentry] at h
  | some entry =>
    rw [hentry, Option.map_some, Option.getD_some] at h
    rcases mem_allEntries_of_find? hentry with hmem | ⟨member, rfl⟩
    · exact List.mem_eraseDups.2 (List.mem_append_right _ (List.mem_flatMap.2 ⟨entry, hmem, h⟩))
    · simp [Member.toEntry, Body.superInterfaces, Body.interface?] at h

lemma superInterfaces_eq {id : DeclId} {entry : Entry} (h : set.find? id = some entry) :
    set.superInterfaces id = entry.body.superInterfaces := by
  rw [superInterfaces, h, Option.map_some, Option.getD_some]

/-- The ancestors of a class are what its chain of parents reaches, but for the class. -/
theorem mem_classAncestors {id base : DeclId} :
    base ∈ set.classAncestors id ↔ Walk.Above set.parents id base :=
  Walk.mem_preorder_above fun _ _ hy => mem_parentNodes hy

/-- The interfaces above an interface are what it reaches along inheritance, but for itself. -/
theorem mem_interfaceClosure_self {id base : DeclId} {entry : Entry}
    (h : set.find? id = some entry) :
    base ∈ set.interfaceClosure entry.body.superInterfaces (some id) ↔
      Walk.Above set.superInterfaces id base := by
  have hfilter : ((set.interfaceNodes entry.body.superInterfaces).filter
      fun node => some node ≠ some id)
        = (set.interfaceNodes entry.body.superInterfaces).filter (· ≠ id) :=
    List.filter_congr fun node _ => by simp
  rw [interfaceClosure, hfilter, ← superInterfaces_eq h]
  exact Walk.mem_preorder_above fun _ _ hy => mem_interfaceNodes hy

/-- The closure of some interfaces is what they reach along inheritance. -/
theorem mem_interfaceClosure_none {roots : List DeclId} {base : DeclId} :
    base ∈ set.interfaceClosure roots none ↔
      ∃ root ∈ roots, ReflTransGen (fun a b => b ∈ set.superInterfaces a) root base := by
  have hfilter : ((set.interfaceNodes roots).filter fun node => some node ≠ none)
      = set.interfaceNodes roots := List.filter_eq_self.2 fun node _ => by simp
  rw [interfaceClosure, hfilter]
  exact Walk.mem_preorder_of_closed (fun _ _ hy => mem_interfaceNodes hy)
    fun s hs => List.mem_eraseDups.2 (List.mem_append_left _ hs)

end LibrarySet

end SymbolGraph
