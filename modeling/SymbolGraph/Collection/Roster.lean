/-!
# Sets that keep their order

A set whose order of iteration shows is a list without repetition.  `addNew` keeps insertion
order, `addSorted` keeps increasing order; removal is `List.erase` in both cases.
-/

namespace SymbolGraph

variable {α : Type} [DecidableEq α]

/-- Add a member at the end, unless it is there already. -/
def addNew (xs : List α) (x : α) : List α := if x ∈ xs then xs else xs ++ [x]

/-- Add several members in turn. -/
def addAllNew (xs ys : List α) : List α := ys.foldl addNew xs

/-- Add a member to a list in increasing order, unless it is there already. -/
def addSorted [LT α] [DecidableLT α] : List α → α → List α
  | [], x => [x]
  | y :: ys, x => if y = x then y :: ys else if x < y then x :: y :: ys else y :: addSorted ys x

@[simp] theorem mem_addNew (xs : List α) (x y : α) : y ∈ addNew xs x ↔ y ∈ xs ∨ y = x := by
  unfold addNew
  split
  · constructor
    · exact Or.inl
    · rintro (h | rfl)
      · exact h
      · assumption
  · simp

@[simp] theorem mem_addAllNew (xs ys : List α) (y : α) :
    y ∈ addAllNew xs ys ↔ y ∈ xs ∨ y ∈ ys := by
  induction ys generalizing xs with
  | nil => simp [addAllNew]
  | cons z ys ih =>
    have := ih (addNew xs z)
    simp only [addAllNew, List.foldl_cons] at this ⊢
    simp [this, or_assoc]

@[simp] theorem mem_addSorted [LT α] [DecidableLT α] (xs : List α) (x y : α) :
    y ∈ addSorted xs x ↔ y ∈ xs ∨ y = x := by
  induction xs with
  | nil => simp [addSorted]
  | cons z zs ih =>
    simp only [addSorted]
    split
    · next h => subst h; simp; exact fun h => Or.inl h
    · split
      · simp only [List.mem_cons]
        constructor
        · rintro (h | h | h)
          · exact Or.inr h
          · exact Or.inl (Or.inl h)
          · exact Or.inl (Or.inr h)
        · rintro ((h | h) | h)
          · exact Or.inr (Or.inl h)
          · exact Or.inr (Or.inr h)
          · exact Or.inl h
      · simp [ih, or_assoc]

theorem nodup_addNew {xs : List α} (h : xs.Nodup) (x : α) : (addNew xs x).Nodup := by
  unfold addNew
  split
  · exact h
  · next hx =>
    refine List.nodup_append.2 ⟨h, by simp, ?_⟩
    intro a ha b hb
    rw [List.mem_singleton] at hb
    subst hb
    exact fun hab => hx (hab ▸ ha)

theorem nodup_addAllNew {xs : List α} (h : xs.Nodup) (ys : List α) :
    (addAllNew xs ys).Nodup := by
  induction ys generalizing xs with
  | nil => exact h
  | cons y ys ih => exact ih (nodup_addNew h y)

end SymbolGraph
