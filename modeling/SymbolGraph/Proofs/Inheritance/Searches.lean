import Mathlib.Data.List.Chain
import SymbolGraph.Proofs.Lookup.NearestName

/-!
# Inheritance walks as searches

`Walk.Search` is depth-first search as a recursion, with the nodes seen so far and nothing else: it
passes over a node that it has seen or is told to leave out, and otherwise enters it, searches what
it leads to, and goes on.  A derivation is a finite run, and there is at most one (`Search.unique`).

The two inheritance walks keep a stack and the nodes that are still fresh instead.  They are such
searches nevertheless (`Walk.search_preorder`), on every graph, so the closure of some interfaces is
their search without the start, and the ancestors of a class are that of its parent without the
class.  As a class has one parent, its ancestors are also a chain
(`LibrarySet.isChain_classAncestors`).

A walk that leaves its start out tells whether it came back to it (`LibrarySet.returnsTo_iff`).
-/

namespace SymbolGraph

open Relation

/-! ## Searches -/

namespace Walk

variable {α : Type}

/-- A depth-first search of some nodes, in their order, that enters no node twice and never `start`.
`Search next start seen roots order`: after the nodes of `seen`, it enters those of `order`. -/
inductive Search (next : α → List α) (start : Option α) : List α → List α → List α → Prop
  | done {seen : List α} : Search next start seen [] []
  | pass {seen rest order : List α} {node : α} : some node = start ∨ node ∈ seen →
      Search next start seen rest order → Search next start seen (node :: rest) order
  /-- What a node leads to is searched before the nodes that wait behind it. -/
  | enter {seen rest inner outer : List α} {node : α} : some node ≠ start → node ∉ seen →
      Search next start (node :: seen) (next node) inner →
      Search next start (inner ++ node :: seen) rest outer →
      Search next start seen (node :: rest) (node :: inner ++ outer)

/-- `a` can be reached from `s` over nodes other than `start`. -/
def Reachable (next : α → List α) (start : Option α) (s a : α) : Prop :=
  some s ≠ start ∧ ReflTransGen (fun x y => y ∈ next x ∧ some y ≠ start) s a

variable {next : α → List α} {start : Option α} {seen roots nodes fresh stack : List α}

/-- The order of a search is determined. -/
theorem Search.unique {order order' : List α} (h : Search next start seen roots order)
    (h' : Search next start seen roots order') : order' = order := by
  induction h generalizing order' with
  | done => cases h' with | done => rfl
  | pass hpass _ ih =>
    cases h' with
    | pass _ hrest => exact ih hrest
    | enter hstart hseen _ _ => exact (hpass.elim hstart hseen).elim
  | enter hstart hseen _ _ ihinner ihouter =>
    cases h' with
    | pass hpass _ => exact (hpass.elim hstart hseen).elim
    | enter _ _ hinner houter =>
      obtain rfl := ihinner hinner
      rw [ihouter houter]

variable [DecidableEq α]

/-- A walk deals with the front of its stack before it comes to the rest. -/
lemma preorder_append (hnodup : fresh.Nodup) (rest : List α) :
    preorder next fresh (stack ++ rest) = preorder next fresh stack ++
      preorder next (fresh.filter (· ∉ preorder next fresh stack)) rest := by
  fun_induction preorder next fresh stack with
  | case1 fresh => simp
  | case2 fresh node waiting hnode ih =>
    have hleft : (fresh.erase node).filter
          (· ∉ preorder next (fresh.erase node) (next node ++ waiting))
        = fresh.filter (· ∉ node :: preorder next (fresh.erase node) (next node ++ waiting)) := by
      rw [hnodup.erase_eq_filter, List.filter_filter]
      refine List.filter_congr fun x _ => Bool.eq_iff_iff.2 ?_
      simp [and_comm]
    rw [List.cons_append, preorder_cons, if_pos hnode, ← List.append_assoc, ih (hnodup.erase node),
      hleft, List.cons_append]
  | case3 fresh node waiting hnode ih =>
    rw [List.cons_append, preorder_cons, if_neg hnode, ih hnodup]

/-- A walk over the nodes that are fresh to a search enters the same nodes in the same order. -/
theorem search_preorder (hclosed : ∀ x, ∀ y ∈ next x, y ∈ nodes) (hroots : ∀ x ∈ roots, x ∈ nodes)
    (hnodup : fresh.Nodup) (hfresh : ∀ x ∈ nodes, x ∈ fresh ↔ some x ≠ start ∧ x ∉ seen) :
    Search next start seen roots (preorder next fresh roots) := by
  -- Entering a node leaves fewer fresh nodes, passing over one leaves fewer roots.
  induction hcount : fresh.length using Nat.strong_induction_on generalizing fresh seen roots with
  | _ count ih =>
    induction roots with
    | nil =>
      rw [preorder_nil]
      exact .done
    | cons node rest ihrest =>
      obtain ⟨hnode, hrest⟩ := List.forall_mem_cons.1 hroots
      rw [preorder_cons]
      split
      · next hmem =>
        have hinner : ∀ x ∈ nodes, x ∈ fresh.erase node ↔ some x ≠ start ∧ x ∉ node :: seen := by
          intro x hx
          rw [hnodup.mem_erase_iff, hfresh x hx, List.mem_cons]
          tauto
        have houter : ∀ x ∈ nodes, x ∈ (fresh.erase node).filter
              (· ∉ preorder next (fresh.erase node) (next node)) ↔
            some x ≠ start ∧ x ∉ preorder next (fresh.erase node) (next node) ++ node :: seen := by
          intro x hx
          rw [List.mem_filter, hinner x hx, decide_eq_true_eq, List.mem_append]
          tauto
        have hless : (fresh.erase node).length < count := by
          have := List.length_erase_of_mem hmem
          have := List.length_pos_of_mem hmem
          omega
        rw [preorder_append (hnodup.erase node), ← List.cons_append]
        exact .enter ((hfresh node hnode).1 hmem).1 ((hfresh node hnode).1 hmem).2
          (ih _ hless (hclosed node) (hnodup.erase node) hinner rfl)
          (ih _ (Nat.lt_of_le_of_lt (List.length_filter_le ..) hless) hrest
            ((hnodup.erase node).filter _) houter rfl)
      · next hmem =>
        refine .pass ?_ (ihrest hrest)
        rw [hfresh node hnode] at hmem
        tauto

/-- A walk without its start visits what can be reached without coming to the start. -/
lemma mem_preorder_avoiding (hclosed : ∀ x, ∀ y ∈ next x, y ∈ nodes)
    (hroots : ∀ x ∈ roots, x ∈ nodes) {a : α} :
    a ∈ preorder next (nodes.filter fun x => some x ≠ start) roots ↔
      ∃ root ∈ roots, Reachable next start root a := by
  rw [mem_preorder_iff]
  refine exists_congr fun root => and_congr_right fun hroot => ?_
  have hstep : ∀ x y, (y ∈ next x ∧ y ∈ nodes.filter fun x => some x ≠ start) ↔
      y ∈ next x ∧ some y ≠ start := by
    intro x y
    rw [List.mem_filter, decide_eq_true_eq]
    exact and_congr_right fun hy => and_iff_right (hclosed x y hy)
  rw [Reaches, Reachable, List.mem_filter, decide_eq_true_eq, and_iff_right (hroots root hroot)]
  simp only [hstep]

omit [DecidableEq α] in
lemma Reachable.transGen {s a : α} (h : Reachable next start s a) :
    ReflTransGen (fun x y => y ∈ next x) s a := h.2.lift id fun _ _ hstep => hstep.1

omit [DecidableEq α] in
/-- What can be reached by way of the start can be reached without it, if its own nodes are among
the roots. -/
lemma exists_reachable_of_way {s : α} (hown : ∀ x ∈ next s, x ∈ roots) {root a : α}
    (hroot : root ∈ roots) (hway : ReflTransGen (fun x y => y ∈ next x) root a) (hne : a ≠ s) :
    ∃ root ∈ roots, Reachable next (some s) root a := by
  -- Follow the way: at the start it begins anew.
  have hlast : a = s ∨ ∃ root ∈ roots, Reachable next (some s) root a := by
    clear hne
    induction hway with
    | refl =>
      by_cases heq : root = s
      · exact Or.inl heq
      · exact Or.inr ⟨root, hroot, by simpa using heq, .refl⟩
    | @tail b c _ hc ih =>
      by_cases heq : c = s
      · exact Or.inl heq
      · have hc' : some c ≠ some s := by simpa using heq
        rcases ih with rfl | ⟨other, hother, hreach⟩
        · exact Or.inr ⟨c, hown c hc, hc', .refl⟩
        · exact Or.inr ⟨other, hother, hreach.1, hreach.2.tail ⟨hc, hc'⟩⟩
  exact hlast.resolve_left hne

end Walk

namespace LibrarySet

variable {set : LibrarySet}

/-- A walk without its start tells whether the start can be reached. -/
theorem returnsTo_iff {next : DeclId → List DeclId} {nodes roots : List DeclId} {start : DeclId}
    (hclosed : ∀ x, ∀ y ∈ next x, y ∈ nodes) (hroots : ∀ x ∈ roots, x ∈ nodes) :
    returnsTo next start roots
        (Walk.preorder next (nodes.filter fun x => some x ≠ some start) roots) = true ↔
      ∃ root ∈ roots, ReflTransGen (fun x y => y ∈ next x) root start := by
  have hvisited := @Walk.mem_preorder_avoiding _ next (some start) roots nodes _ hclosed hroots
  rw [returnsTo, decide_eq_true_eq, List.mem_append, List.mem_flatMap]
  constructor
  · rintro (hroot | ⟨node, hnode, hstep⟩)
    · exact ⟨start, hroot, .refl⟩
    · obtain ⟨root, hroot, hreach⟩ := hvisited.1 hnode
      exact ⟨root, hroot, hreach.transGen.tail hstep⟩
  · rintro ⟨root, hroot, hway⟩
    by_contra hnone
    rw [not_or] at hnone
    -- The whole way stays away from the start, so it cannot end there.
    suffices ∀ a, ReflTransGen (fun x y => y ∈ next x) root a →
        ∃ root ∈ roots, Walk.Reachable next (some start) root a by
      obtain ⟨_, -, hstart, havoid⟩ := this start hway
      rcases ReflTransGen.cases_tail havoid with heq | ⟨_, -, hstep⟩
      · exact hstart (congrArg some heq.symm)
      · exact hstep.2 rfl
    intro a hway
    induction hway with
    | refl => exact ⟨root, hroot, fun heq => hnone.1 (Option.some.inj heq ▸ hroot), .refl⟩
    | @tail b c _ hc ih =>
      obtain ⟨other, hother, hreach⟩ := ih
      have hne : some c ≠ some start := fun heq =>
        hnone.2 ⟨b, hvisited.2 ⟨other, hother, hreach⟩, Option.some.inj heq ▸ hc⟩
      exact ⟨other, hother, hreach.1, hreach.2.tail ⟨hc, hne⟩⟩

/-! ## Ancestors of classes -/

lemma filter_ne_eq (nodes : List DeclId) (id : DeclId) :
    nodes.filter (· ≠ id) = nodes.filter fun node => some node ≠ some id :=
  List.filter_congr fun node _ => by simp

lemma nodup_classAncestors (id : DeclId) : (set.classAncestors id).Nodup :=
  Walk.nodup_preorder ((nodup_eraseDups _).filter _)

/-- A class is followed by its parent, and each ancestor by its own. -/
theorem isChain_classAncestors (id : DeclId) :
    List.IsChain (fun a b => set.parent? a = some b) (id :: set.classAncestors id) := by
  rw [List.isChain_iff_getElem]
  intro i hi
  have hclimb {k : Nat} (hk : k < (id :: set.classAncestors id).length) :
      Walk.climb set.parent? k id = some (id :: set.classAncestors id)[k] := by
    have hchain : (Walk.chain set.parent? (id :: set.parentNodes.filter (· ≠ id)) id)[k]?
        = some (id :: set.classAncestors id)[k] := by
      rw [← cons_classAncestors, List.getElem?_eq_getElem hk]
    exact Walk.climb_of_chain hchain
  have hnext := hclimb hi
  rwa [Walk.climb, hclimb (Nat.lt_of_succ_lt hi), Option.bind_some] at hnext

/-- The ancestors of a class are the search up from its parent. -/
lemma search_classAncestors (id : DeclId) :
    Walk.Search set.parents (some id) [] (set.parents id) (set.classAncestors id) := by
  rw [classAncestors, filter_ne_eq]
  have hfresh (x : DeclId) (hx : x ∈ set.parentNodes) :
      x ∈ set.parentNodes.filter (fun node => some node ≠ some id) ↔
        some x ≠ some id ∧ x ∉ ([] : List DeclId) := by simp [hx]
  exact Walk.search_preorder (fun _ _ => mem_parentNodes) (fun _ => mem_parentNodes)
    ((nodup_eraseDups _).filter _) hfresh

lemma classLoops_iff (id : DeclId) :
    set.classLoops id = true ↔ TransGen (fun a b => b ∈ set.parents a) id id := by
  rw [classLoops, classAncestors, filter_ne_eq,
    returnsTo_iff (fun _ _ => mem_parentNodes) fun _ => mem_parentNodes, TransGen.head'_iff]

/-! ## Closures of interfaces -/

lemma mem_interfaceNodes_of_root {roots : List DeclId} {root : DeclId} (h : root ∈ roots) :
    root ∈ set.interfaceNodes roots := List.mem_eraseDups.2 (List.mem_append_left _ h)

lemma nodup_interfaceClosure (roots : List DeclId) (start : Option DeclId) :
    (set.interfaceClosure roots start).Nodup :=
  Walk.nodup_preorder ((nodup_eraseDups _).filter _)

/-- The closure of some interfaces is their search. -/
lemma search_interfaceClosure (roots : List DeclId) (start : Option DeclId) :
    Walk.Search set.superInterfaces start [] roots (set.interfaceClosure roots start) := by
  have hfresh (x : DeclId) (hx : x ∈ set.interfaceNodes roots) :
      x ∈ (set.interfaceNodes roots).filter (fun node => some node ≠ start) ↔
        some x ≠ start ∧ x ∉ ([] : List DeclId) := by simp [hx]
  exact Walk.search_preorder (fun _ _ => mem_interfaceNodes) (fun _ => mem_interfaceNodes_of_root)
    ((nodup_eraseDups _).filter _) hfresh

/-- A closure depends on what is inherited only. -/
lemma interfaceClosure_congr {set' : LibrarySet} (h : set'.superInterfaces = set.superInterfaces)
    (roots : List DeclId) (start : Option DeclId) :
    set'.interfaceClosure roots start = set.interfaceClosure roots start := by
  have hsearch := @search_interfaceClosure set' roots start
  rw [h] at hsearch
  exact (search_interfaceClosure roots start).unique hsearch

lemma mem_interfaceClosure {roots : List DeclId} {start : Option DeclId} {base : DeclId} :
    base ∈ set.interfaceClosure roots start ↔
      ∃ root ∈ roots, Walk.Reachable set.superInterfaces start root base :=
  Walk.mem_preorder_avoiding (fun _ _ => mem_interfaceNodes) fun _ => mem_interfaceNodes_of_root

lemma interfaceLoops_iff (id : DeclId) (roots : List DeclId) :
    set.interfaceLoops id roots = true ↔
      ∃ root ∈ roots, ReflTransGen (fun a b => b ∈ set.superInterfaces a) root id :=
  returnsTo_iff (fun _ _ => mem_interfaceNodes) fun _ => mem_interfaceNodes_of_root

end LibrarySet

end SymbolGraph
