import Mathlib.Data.List.Forall2
import Mathlib.Data.String.Basic
import SymbolGraph.Collection.Assoc
import SymbolGraph.Collection.Roster

/-!
# Facts about ordered sets and maps

What the invariants need of the collections: a sorted set stays sorted and hence free of
repetition, what is new is added as it comes, and the entries of a map are found under their keys.
-/

namespace SymbolGraph

variable {α β : Type}

/-! ## Sorted sets -/

section

variable [DecidableEq α] [LT α] [DecidableLT α] [IsStrictTotalOrder α (· < ·)]

lemma pairwise_addSorted {xs : List α} (h : xs.Pairwise (· < ·)) (x : α) :
    (addSorted xs x).Pairwise (· < ·) := by
  induction xs with
  | nil => simp [addSorted]
  | cons y ys ih =>
    obtain ⟨hy, hys⟩ := List.pairwise_cons.1 h
    unfold addSorted
    split
    · exact h
    · next hne =>
      split
      · next hlt =>
        refine List.pairwise_cons.2 ⟨fun z hz => ?_, h⟩
        rcases List.mem_cons.1 hz with rfl | hz
        · exact hlt
        · exact trans_of (· < ·) hlt (hy z hz)
      · next hlt =>
        refine List.pairwise_cons.2 ⟨fun z hz => ?_, ih hys⟩
        rw [mem_addSorted] at hz
        rcases hz with hz | rfl
        · exact hy z hz
        · rcases trichotomous_of (· < ·) y z with h | h | h
          · exact h
          · exact absurd h hne
          · exact absurd h hlt

omit [IsStrictTotalOrder α (· < ·)] in
lemma mem_foldl_addSorted (xs list : List α) (x : α) :
    x ∈ xs.foldl addSorted list ↔ x ∈ list ∨ x ∈ xs := by
  induction xs generalizing list with
  | nil => simp
  | cons first rest ih => rw [List.foldl_cons, ih, mem_addSorted, List.mem_cons, or_assoc]

omit [DecidableEq α] [DecidableLT α] in
lemma nodup_of_pairwise_lt {xs : List α} (h : xs.Pairwise (· < ·)) : xs.Nodup := by
  apply h.imp
  rintro a b hlt rfl
  exact irrefl_of (· < ·) a hlt

/-- However they are ordered, elements end up sorted when they are added one by one. -/
lemma foldl_addSorted_of_perm {xs sorted : List α} (hperm : xs.Perm sorted)
    (hsorted : sorted.Pairwise (· < ·)) : xs.foldl addSorted [] = sorted := by
  have hall : (xs.foldl addSorted []).Pairwise (· < ·) :=
    List.foldlRecOn xs addSorted .nil fun _ hrest x _ => pairwise_addSorted hrest x
  have hmem : (xs.foldl addSorted []).Perm sorted := by
    rw [List.perm_ext_iff_of_nodup (nodup_of_pairwise_lt hall) (nodup_of_pairwise_lt hsorted)]
    intro x
    rw [mem_foldl_addSorted, hperm.mem_iff, List.mem_nil_iff, false_or]
  exact hmem.eq_of_pairwise (fun _ _ _ _ h k => absurd h (asymm k)) hall hsorted

end

/-! ## Members and entries -/

/-- Members that are new are all added. -/
lemma addAllNew_of_nodup [DecidableEq α] {xs ys : List α} (h : (xs ++ ys).Nodup) :
    addAllNew xs ys = xs ++ ys := by
  induction ys generalizing xs with
  | nil =>
    rw [List.append_nil]
    rfl
  | cons y rest ih =>
    have hnew : y ∉ xs := fun hy => (List.nodup_append.1 h).2.2 y hy y List.mem_cons_self rfl
    have hadd : addNew xs y = xs ++ [y] := if_neg hnew
    have hstep : (xs ++ [y] ++ rest).Nodup := by rwa [List.append_assoc]
    rw [addAllNew, List.foldl_cons, hadd]
    exact (ih hstep).trans (List.append_assoc ..)

/-- Leaving out repetitions does not change which member is the first of its kind. -/
lemma find?_addAllNew [DecidableEq α] (p : α → Bool) (xs ys : List α) :
    (addAllNew xs ys).find? p = (xs ++ ys).find? p := by
  induction ys generalizing xs with
  | nil => rw [List.append_nil]; rfl
  | cons y rest ih =>
    rw [addAllNew, List.foldl_cons]
    refine (ih (addNew xs y)).trans ?_
    by_cases hmem : y ∈ xs
    · rw [addNew, if_pos hmem, List.find?_append, List.find?_append]
      -- A repeated member is only looked at where the first occurrence did not qualify.
      cases hfind : xs.find? p with
      | some _ => rfl
      | none => rw [Option.none_or, Option.none_or,
        List.find?_cons_of_neg (List.find?_eq_none.1 hfind y hmem)]
    · rw [addNew, if_neg hmem, List.append_assoc, List.singleton_append]

/-- What is found under a key is an entry. -/
lemma Assoc.mem_of_at? [DecidableEq α] {entries : Assoc α β} {key : α} {value : β}
    (h : entries.at? key = some value) : (key, value) ∈ entries := by
  induction entries with
  | nil => cases h
  | cons entry rest ih =>
    rw [Assoc.at?_cons] at h
    split at h
    · next heq =>
      rw [← heq, ← Option.some.inj h]
      exact List.mem_cons_self
    · exact List.mem_cons_of_mem _ (ih h)

/-- Where no key repeats, every entry is found under its key. -/
lemma Assoc.at?_of_mem [DecidableEq α] {entries : Assoc α β} {key : α} {value : β}
    (hkeys : entries.keys.Nodup) (h : (key, value) ∈ entries) : entries.at? key = some value := by
  induction entries with
  | nil => cases h
  | cons entry rest ih =>
    rw [Assoc.keys_cons, List.nodup_cons] at hkeys
    rw [Assoc.at?_cons]
    rcases List.mem_cons.1 h with rfl | h
    · exact if_pos rfl
    · have hne : entry.1 ≠ key := fun heq => hkeys.1 (heq ▸ List.mem_map_of_mem h)
      rw [if_neg hne, ih hkeys.2 h]

end SymbolGraph
