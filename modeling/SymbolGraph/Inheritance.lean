import SymbolGraph.Collection.Walk
import SymbolGraph.LibrarySet

/-!
# Inheritance walks

Classes have at most one parent, interfaces inherit any number of interfaces, and nothing stops
a program from writing a cycle.  Both walks are depth-first over the declarations that occur as a
parent or inherited interface anywhere (`parentNodes`, `interfaceNodes`), so they end on every
graph.

`classAncestors` is the parent chain of a class, nearest first and without the class itself.
`interfaceClosure` lists the interfaces reachable from some roots in depth-first preorder, with
one interface possibly left out.  `returnsTo` tells whether such a walk leads back to its origin.
-/

namespace SymbolGraph

namespace LibrarySet

/-- The parent of a class, as a list of at most one declaration. -/
def parents (set : LibrarySet) (id : DeclId) : List DeclId :=
  ((set.find? id).bind fun entry => entry.body.parent?).toList

/-- The interfaces that an interface inherits. -/
def superInterfaces (set : LibrarySet) (id : DeclId) : List DeclId :=
  ((set.find? id).map fun entry => entry.body.superInterfaces).getD []

/-- Every declaration that is the parent of some class. -/
def parentNodes (set : LibrarySet) : List DeclId :=
  (set.allEntries.filterMap fun entry => entry.body.parent?).eraseDups

/-- Every interface among the roots or inherited by some interface. -/
def interfaceNodes (set : LibrarySet) (roots : List DeclId) : List DeclId :=
  (roots ++ set.allEntries.flatMap fun entry => entry.body.superInterfaces).eraseDups

/-- The parent chain of a class, nearest first, without the class itself.  It stops before
a class that is already on it. -/
def classAncestors (set : LibrarySet) (id : DeclId) : List DeclId :=
  Walk.preorder set.parents (set.parentNodes.filter (· ≠ id)) (set.parents id)

/-- The interfaces reachable from the roots, in depth-first preorder, without `start`. -/
def interfaceClosure (set : LibrarySet) (roots : List DeclId) (start : Option DeclId) :
    List DeclId :=
  Walk.preorder set.superInterfaces
    ((set.interfaceNodes roots).filter fun node => some node ≠ start) roots

/-- A walk that began at `start` and visited `order` leads back to `start`. -/
def returnsTo (next : DeclId → List DeclId) (start : DeclId) (roots order : List DeclId) : Bool :=
  start ∈ roots ++ order.flatMap next

/-- Whether the parent chain of a class leads back to it. -/
def classLoops (set : LibrarySet) (id : DeclId) : Bool :=
  returnsTo set.parents id (set.parents id) (set.classAncestors id)

/-- Whether the interfaces inherited by an interface lead back to it. -/
def interfaceLoops (set : LibrarySet) (id : DeclId) (roots : List DeclId) : Bool :=
  returnsTo set.superInterfaces id roots (set.interfaceClosure roots (some id))

end LibrarySet

end SymbolGraph
