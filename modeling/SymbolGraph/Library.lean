import SymbolGraph.Collection.Assoc
import SymbolGraph.Fault
import SymbolGraph.Namespace
import SymbolGraph.Symbol

/-!
# Libraries

A library holds a namespace arena and, for each category, a table of top-level declarations.  A
slot of a table that has been emptied waits for its index to be used again.  Members are found
through their owner: `find?` takes a member's identity apart into the owner's slot, the member
list of the category and the position in it.
-/

namespace SymbolGraph

/-- One compiled library. -/
structure Library where
  id : LibraryId
  name : String
  spaces : Arena
  tables : Assoc Category (List (Option Entry)) := []
deriving Repr

namespace Library

/-- A library with nothing but a root namespace of its own name. -/
def new (id : LibraryId) (name : String) : Library := ⟨id, name, .new name, []⟩

/-- The table of a category. -/
def table (lib : Library) (category : Category) : List (Option Entry) :=
  (lib.tables.at? category).getD []

/-- Replace the table of a category. -/
def setTable (lib : Library) (category : Category) (table : List (Option Entry)) : Library :=
  { lib with tables := lib.tables.put category table }

@[simp] theorem table_new (id : LibraryId) (name : String) (category : Category) :
    (new id name).table category = [] := rfl

@[simp] theorem table_setTable (lib : Library) (category category' : Category)
    (table : List (Option Entry)) :
    (lib.setTable category table).table category' =
      if category = category' then table else lib.table category' := by
  simp only [Library.table, setTable, Assoc.at?_put]
  split <;> rfl

/-- The length of a table: the next index to append at. -/
def tableSize (lib : Library) (category : Category) : Nat := (lib.table category).length

/-- The top-level declaration in a slot. -/
def slot? (lib : Library) (category : Category) (index : Nat) : Option Entry :=
  (lib.table category)[index]?.join

/-- Put a top-level declaration into the slot of its identity: an empty slot of the table or the
one right behind its end. -/
def insert (lib : Library) (entry : Entry) : Except Fault Library :=
  let category := entry.id.category
  let table := lib.table category
  if category.isMember then .error (.memberCategory category)
  else if table.length < entry.id.index then
    .error (.indexOutOfRange category entry.id.index table.length)
  else if entry.id.index = table.length then .ok (lib.setTable category (table ++ [some entry]))
  else if (lib.slot? category entry.id.index).isSome then
    .error (.slotOccupied category entry.id.index)
  else .ok (lib.setTable category (table.set entry.id.index (some entry)))

/-- Empty the slot of a top-level declaration. -/
def remove (lib : Library) (id : DeclId) : Library :=
  lib.setTable id.category ((lib.table id.category).set id.index none)

/-- The declaration of an identity, top-level or member.  Identities of other libraries find
nothing. -/
def find? (lib : Library) (id : DeclId) : Option Entry :=
  if id.library ≠ lib.id then none
  else match id.owner? with
    | none => lib.slot? id.category id.index
    | some owner => do
      let entry ← lib.slot? owner.category owner.index
      let members ← entry.body.members? id.category
      return (← members[id.index]?).toEntry

/-- Change the declaration in a slot. -/
def adjustSlot (lib : Library) (category : Category) (index : Nat) (f : Entry → Entry) :
    Library :=
  { lib with tables := lib.tables.adjust category fun table => table.modify index (Option.map f) }

theorem slot?_adjustSlot (lib : Library) (category category' : Category) (index index' : Nat)
    (f : Entry → Entry) :
    (lib.adjustSlot category index f).slot? category' index' =
      if category = category' ∧ index = index' then (lib.slot? category' index').map f
      else lib.slot? category' index' := by
  unfold slot? table adjustSlot
  simp only [Assoc.at?_adjust]
  by_cases hc : category = category'
  · subst hc
    cases ht : lib.tables.at? category with
    | none => simp
    | some table =>
      simp only [if_true, Option.map_some, Option.getD_some, List.getElem?_modify, true_and]
      by_cases hi : index = index'
      · simp only [hi, if_true]
        cases table[index']? with
        | none => simp
        | some slot => cases slot <;> simp
      · simp [hi]
  · simp [hc]

/-- Change the declaration of an identity, if there is one. -/
def edit (lib : Library) (id : DeclId) (edit : Edit) : Library :=
  if id.library ≠ lib.id then lib
  else match id.owner? with
    | none => lib.adjustSlot id.category id.index edit.onEntry
    | some owner =>
      lib.adjustSlot owner.category owner.index fun entry =>
        entry.map (Body.overMembers id.category fun members =>
          members.modify id.index edit.onMember)

/-- The live top-level declarations of a category, by index. -/
def entries (lib : Library) (category : Category) : List Entry :=
  (lib.table category).filterMap fun slot => slot

/-- Every live top-level declaration, category by category. -/
def allEntries (lib : Library) : List Entry := Category.all.flatMap lib.entries

/-- A name below a dotted name, which may be empty. -/
def qualify (dotted name : String) : String := if dotted.isEmpty then name else s!"{dotted}.{name}"

/-- The dotted name of a declaration inside its library; a member's goes through its owner. -/
def fullName? (lib : Library) (id : DeclId) : Option String := do
  let entry ← lib.find? id
  match id.owner? with
  | none => return qualify (lib.spaces.fullName entry.space) entry.name
  | some owner =>
    let ownerEntry ← lib.find? owner
    return qualify (qualify (lib.spaces.fullName ownerEntry.space) ownerEntry.name) entry.name

end Library

end SymbolGraph
