import SymbolGraph.Identity

/-!
# Faults

A `Fault` reports a broken rule of the model itself, never a mistake in the written program:
those are diagnostics.  A step that meets a fault keeps what it did before (`Outcome`).
-/

namespace SymbolGraph

/-- A broken rule of the model. -/
inductive Fault where
  /-- An index was given back while it was free. -/
  | doubleRecycle (library : LibraryId) (category : Category) (index : Nat)
  /-- An index of a library that is never rebuilt was given back. -/
  | foreignRecycle (library : LibraryId) (category : Category) (index : Nat)
  /-- A member category was used where only top-level categories have a place. -/
  | memberCategory (category : Category)
  /-- A declaration was put into a slot that holds one. -/
  | slotOccupied (category : Category) (index : Nat)
  /-- A declaration was put beyond the end of its table. -/
  | indexOutOfRange (category : Category) (index length : Nat)
deriving DecidableEq, Repr

namespace Fault

/-- The name of the rule that is broken. -/
def name : Fault → String
  | doubleRecycle .. => "DoubleRecycle"
  | foreignRecycle .. => "ForeignRecycle"
  | memberCategory .. => "MemberCategory"
  | slotOccupied .. => "SlotOccupied"
  | indexOutOfRange .. => "IndexOutOfRange"

/-- The text of a fault. -/
def message : Fault → String
  | doubleRecycle library category index =>
    s!"index {index} of {category.name} in library {library.text} recycled while already free"
  | foreignRecycle library category index =>
    s!"index {index} of {category.name} recycled in library {library.text}, " ++
      "only the project library is rebuilt"
  | memberCategory category =>
    s!"{category.name} is a member category and is owned by its parent's list"
  | slotOccupied category index =>
    s!"slot {index} of {category.name} already holds a live declaration"
  | indexOutOfRange category index length =>
    s!"index {index} of {category.name} is past the end of its table ({length})"

end Fault

/-- The state after a step, and the fault that cut the step short, if any. -/
structure Outcome (σ : Type) where
  state : σ
  fault : Option Fault := none

namespace Outcome

variable {σ : Type}

/-- Go on with a further step, unless a fault has been met. -/
def andThen (outcome : Outcome σ) (step : σ → Outcome σ) : Outcome σ :=
  match outcome.fault with
  | none => step outcome.state
  | some _ => outcome

/-- Run a step for each element in turn until a fault is met. -/
def forEach {α : Type} (step : α → σ → Outcome σ) : List α → σ → Outcome σ
  | [], state => ⟨state, none⟩
  | x :: xs, state => (step x state).andThen (forEach step xs)

@[simp] theorem andThen_of_none (state : σ) (step : σ → Outcome σ) :
    (Outcome.mk state none).andThen step = step state := rfl

@[simp] theorem andThen_of_some (state : σ) (fault : Fault) (step : σ → Outcome σ) :
    (Outcome.mk state (some fault)).andThen step = ⟨state, some fault⟩ := rfl

@[simp] theorem forEach_nil {α : Type} (step : α → σ → Outcome σ) (state : σ) :
    forEach step [] state = ⟨state, none⟩ := rfl

end Outcome

end SymbolGraph
