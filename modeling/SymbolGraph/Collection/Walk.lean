/-!
# Depth-first walks over graphs that may have cycles

`Walk.preorder next fresh stack` visits the nodes of `fresh` reachable from `stack` along
`next`, depth first and each node once.  The nodes still to be visited are carried in `fresh`;
a visited node leaves it, so the walk ends on every graph, cyclic or not, without a step bound.
-/

namespace SymbolGraph.Walk

variable {α : Type} [DecidableEq α]

/-- The nodes of `fresh` met from `stack` along `next`, in depth-first preorder. -/
def preorder (next : α → List α) (fresh stack : List α) : List α :=
  match stack with
  | [] => []
  | node :: rest =>
    if node ∈ fresh then node :: preorder next (fresh.erase node) (next node ++ rest)
    else preorder next fresh rest
termination_by (fresh.length, stack.length)
decreasing_by
  · apply Prod.Lex.left
    have := List.length_erase_of_mem ‹node ∈ fresh›
    have := List.length_pos_of_mem ‹node ∈ fresh›
    omega
  · apply Prod.Lex.right
    simp

@[simp] theorem preorder_nil (next : α → List α) (fresh : List α) :
    preorder next fresh [] = [] := by
  rw [preorder]

theorem preorder_cons (next : α → List α) (fresh rest : List α) (node : α) :
    preorder next fresh (node :: rest) =
      if node ∈ fresh then node :: preorder next (fresh.erase node) (next node ++ rest)
      else preorder next fresh rest := by
  rw [preorder]

/-- A walk enters only fresh nodes. -/
theorem mem_of_mem_preorder {next : α → List α} {fresh stack : List α} {a : α}
    (h : a ∈ preorder next fresh stack) : a ∈ fresh := by
  fun_induction preorder next fresh stack with
  | case1 => simp at h
  | case2 fresh node rest hn ih =>
    rcases List.mem_cons.1 h with rfl | h
    · exact hn
    · exact List.mem_of_mem_erase (ih h)
  | case3 fresh node rest hn ih => exact ih h

/-- A walk over distinct nodes enters each at most once. -/
theorem nodup_preorder {next : α → List α} {fresh stack : List α} (h : fresh.Nodup) :
    (preorder next fresh stack).Nodup := by
  fun_induction preorder next fresh stack with
  | case1 => simp
  | case2 fresh node rest hn ih =>
    refine List.nodup_cons.2 ⟨fun hm => ?_, ih (h.erase node)⟩
    exact (List.Nodup.not_mem_erase h) (mem_of_mem_preorder hm)
  | case3 fresh node rest hn ih => exact ih h

end SymbolGraph.Walk
