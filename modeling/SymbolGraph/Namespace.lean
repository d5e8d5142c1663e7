import SymbolGraph.Collection.Assoc
import SymbolGraph.Collection.Roster
import SymbolGraph.Collection.Walk
import SymbolGraph.Identity
import SymbolGraph.Text.Dotted
import SymbolGraph.Text.Range

/-!
# The namespaces of a library

A library's namespaces form a tree, kept as an arena: a node is addressed by its slot, bears the
slot that it was made for as its identity, knows the slot of its parent, and maps the names of its
children to their slots.  Slot `0` is the root.  Slots of removed namespaces are used again, the one
freed last first.

Each namespace holds, by name, the *groups* of declarations that share the name, the places that
refer to the namespace, and the documents that open it.  A namespace below the root lives as long
as it has children, declarations or documents; `prune` removes one that has none, and then its
ancestors as far as the same holds of them.
-/

namespace SymbolGraph

/-- One namespace. -/
structure Namespace where
  /-- The slot that the namespace was made for. -/
  id : SpaceId
  parent : Option SpaceId
  name : String
  children : Assoc String SpaceId := []
  /-- The declarations of each name, in the order in which they were declared. -/
  groups : Assoc String (List DeclId) := []
  /-- The places that name this namespace. -/
  references : List Location := []
  /-- The documents that open this namespace, sorted. -/
  documents : List String := []
deriving Repr, Inhabited

namespace Namespace

/-- The group of a name, empty if there is none. -/
def group (space : Namespace) (name : String) : List DeclId := (space.groups.at? name).getD []

/-- Nothing keeps the namespace alive. -/
def isVacant (space : Namespace) : Bool :=
  space.children.isEmpty && space.groups.isEmpty && space.documents.isEmpty

end Namespace

/-- All namespaces of one library by slot, and the slots to use again, last freed first. -/
structure Arena where
  slots : List (Option Namespace)
  free : List SpaceId := []
deriving Repr, Inhabited

namespace Arena

/-- The slot of the root. -/
def root : SpaceId := 0

/-- The arena that holds only a root. -/
def new (rootName : String) : Arena := ⟨[some ⟨root, none, rootName, [], [], [], []⟩], []⟩

/-- The namespace in a slot. -/
def get? (arena : Arena) (id : SpaceId) : Option Namespace := arena.slots[id]?.join

/-- Change the namespace in a slot; an empty slot stays empty. -/
def adjust (arena : Arena) (id : SpaceId) (f : Namespace → Namespace) : Arena :=
  { arena with slots := arena.slots.modify id (Option.map f) }

@[simp] theorem get?_new_root (rootName : String) :
    (new rootName).get? root = some ⟨root, none, rootName, [], [], [], []⟩ := rfl

theorem get?_adjust (arena : Arena) (id id' : SpaceId) (f : Namespace → Namespace) :
    (arena.adjust id f).get? id' =
      if id = id' then (arena.get? id').map f else arena.get? id' := by
  simp only [get?, adjust, List.getElem?_modify]
  split
  · cases h : arena.slots[id']? with
    | none => simp
    | some slot => cases slot <;> simp
  · cases h : arena.slots[id']? <;> simp

/-- The live namespaces with their slots, in slot order. -/
def live (arena : Arena) : List (SpaceId × Namespace) :=
  arena.slots.zipIdx.filterMap fun (slot, id) => slot.map fun space => (id, space)

/-- The number of live namespaces. -/
def size (arena : Arena) : Nat := arena.live.length

/-- The child of a namespace with a given name. -/
def child? (arena : Arena) (parent : SpaceId) (name : String) : Option SpaceId :=
  (arena.get? parent).bind fun space => space.children.at? name

/-- Put a namespace into a slot, at the end if the slot is the next one. -/
def store (arena : Arena) (id : SpaceId) (space : Namespace) : Arena :=
  if id < arena.slots.length then { arena with slots := arena.slots.set id (some space) }
  else { arena with slots := arena.slots ++ [some space] }

/-- The child of a namespace with a given name, made if it does not exist. -/
def openChild (arena : Arena) (parent : SpaceId) (name : String) : SpaceId × Arena :=
  match arena.child? parent name with
  | some id => (id, arena)
  | none =>
    let (id, free) := match arena.free with
      | [] => (arena.slots.length, [])
      | id :: rest => (id, rest)
    let arena := { arena with free }.store id ⟨id, some parent, name, [], [], [], []⟩
    (id, arena.adjust parent fun space => { space with children := space.children.put name id })

/-- The namespaces on the path given by a list of names, made where they do not exist. -/
def openPath (arena : Arena) (start : SpaceId) : List String → SpaceId × Arena
  | [] => (start, arena)
  | name :: rest =>
    let (id, arena) := arena.openChild start name
    arena.openPath id rest

/-- The namespace reached along a list of names. -/
def walk? (arena : Arena) (start : SpaceId) : List String → Option SpaceId
  | [] => some start
  | name :: rest => (arena.child? start name).bind fun id => arena.walk? id rest

/-- The parent of a namespace, as a list of at most one. -/
def parents (arena : Arena) (id : SpaceId) : List SpaceId :=
  ((arena.get? id).bind Namespace.parent).toList

/-- The slots that lead from a namespace to its parent and on, nearest first. -/
def chain (arena : Arena) (id : SpaceId) : List SpaceId :=
  Walk.preorder arena.parents (arena.live.map Prod.fst) [id]

/-- A namespace followed by its ancestors, nearest first, by the identities they bear. -/
def ancestors (arena : Arena) (id : SpaceId) : List SpaceId :=
  (arena.chain id).filterMap fun slot => (arena.get? slot).map Namespace.id

/-- A namespace lies within itself and its ancestors. -/
def isWithin (arena : Arena) (id ancestor : SpaceId) : Bool := ancestor ∈ arena.ancestors id

/-- The dotted name below the root; the root's own is empty. -/
def fullName (arena : Arena) (id : SpaceId) : String :=
  Dotted.joinNames <|
    (((arena.ancestors id).filter (· ≠ root)).filterMap fun space =>
      (arena.get? space).map Namespace.name).reverse

/-- Add a declaration to the group of a name. -/
def declare (arena : Arena) (id : SpaceId) (name : String) (decl : DeclId) : Arena :=
  arena.adjust id fun space =>
    { space with groups := space.groups.put name (addNew (space.group name) decl) }

/-- Take a declaration out of the group of a name; a group that empties is dropped. -/
def undeclare (arena : Arena) (id : SpaceId) (name : String) (decl : DeclId) : Arena :=
  arena.adjust id fun space =>
    match space.groups.at? name with
    | none => space
    | some group =>
      let rest := group.filter (· ≠ decl)
      { space with
        groups := if rest.isEmpty then space.groups.without name
          else space.groups.put name rest }

/-- Empty a slot and drop the entry of its parent for it. -/
def remove (arena : Arena) (id : SpaceId) : Arena :=
  match arena.get? id with
  | none => arena
  | some space =>
    let arena := match space.parent with
      | none => arena
      | some parent =>
        arena.adjust parent fun node => { node with children := node.children.without space.name }
    ⟨arena.slots.set id none, id :: arena.free⟩

/-- Remove the namespaces of a chain from the front, as long as they are vacant and not the
root. -/
def pruneChain : List SpaceId → Arena → Arena
  | [], arena => arena
  | id :: rest, arena =>
    match arena.get? id with
    | none => arena
    | some space =>
      if id = root ∨ !space.isVacant then arena else pruneChain rest (arena.remove id)

/-- Remove a vacant namespace, then each ancestor that is left vacant by it. -/
def prune (arena : Arena) (id : SpaceId) : Arena := pruneChain (arena.chain id) arena

/-- Record that a document opens a namespace. -/
def addDocument (arena : Arena) (id : SpaceId) (document : String) : Arena :=
  arena.adjust id fun space => { space with documents := addSorted space.documents document }

/-- Forget that a document opens a namespace. -/
def dropDocument (arena : Arena) (id : SpaceId) (document : String) : Arena :=
  arena.adjust id fun space => { space with documents := space.documents.erase document }

end Arena

end SymbolGraph
