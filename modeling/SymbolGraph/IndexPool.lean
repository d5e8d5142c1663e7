import SymbolGraph.Collection.Assoc
import SymbolGraph.Collection.Roster
import SymbolGraph.Fault

/-!
# The pool of free indices

Only the project is ever torn down, so only its indices come back.  The pool holds the free
indices of each library and category in increasing order and hands out the least one first:
a document that is torn down and read again unchanged gets back the identities it had, as long as
no lower index has become free in the meantime.
-/

namespace SymbolGraph

/-- The free indices of each library and category, in increasing order. -/
structure IndexPool where
  pools : Assoc (LibraryId × Category) (List Nat) := []
deriving Repr, Inhabited

namespace IndexPool

/-- The free indices of one library and category. -/
def free (pool : IndexPool) (library : LibraryId) (category : Category) : List Nat :=
  (pool.pools.at? (library, category)).getD []

/-- Replace the free indices of one library and category. -/
def setFree (pool : IndexPool) (library : LibraryId) (category : Category)
    (indices : List Nat) : IndexPool :=
  ⟨pool.pools.put (library, category) indices⟩

@[simp] theorem free_setFree (pool : IndexPool) (library library' : LibraryId)
    (category category' : Category) (indices : List Nat) :
    (pool.setFree library category indices).free library' category' =
      if library = library' ∧ category = category' then indices
      else pool.free library' category' := by
  simp only [free, setFree, Assoc.at?_put, Prod.mk.injEq]
  split <;> rfl

/-- Take the least free index of a category; `none` asks the caller to use the next index after
the end of the table. -/
def allocate (pool : IndexPool) (library : LibraryId) (category : Category) :
    Except Fault (Option Nat × IndexPool) :=
  if category.isMember then .error (.memberCategory category)
  else if library ≠ .project then .ok (none, pool)
  else match pool.free library category with
    | [] => .ok (none, pool)
    | index :: rest => .ok (some index, pool.setFree library category rest)

/-- Give an index back. -/
def recycle (pool : IndexPool) (library : LibraryId) (category : Category) (index : Nat) :
    Except Fault IndexPool :=
  if category.isMember then .error (.memberCategory category)
  else if library ≠ .project then .error (.foreignRecycle library category index)
  else if index ∈ pool.free library category then
    .error (.doubleRecycle library category index)
  else .ok (pool.setFree library category (addSorted (pool.free library category) index))

/-- Whether an index is free. -/
def isFree (pool : IndexPool) (library : LibraryId) (category : Category) (index : Nat) : Bool :=
  index ∈ pool.free library category

/-- The number of free indices. -/
def freeCount (pool : IndexPool) (library : LibraryId) (category : Category) : Nat :=
  (pool.free library category).length

end IndexPool

end SymbolGraph
