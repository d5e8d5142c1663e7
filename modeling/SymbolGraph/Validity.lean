import SymbolGraph.Validity.Duplicates
import SymbolGraph.Validity.Overriding

/-!
# Validity of a whole library

`LibrarySet.check` looks at a fully linked library for duplicate names and works out which member
functions override and implement which others.  The relations are rebuilt from nothing at every
call, and only records of the library itself are written: a function of another library is named
by the functions tied to it, and does not name them in return.
-/

namespace SymbolGraph

/-- Forget the relations of the member functions of a declaration. -/
def Body.clearRelations (body : Body) : Body :=
  let clear (members : List Member) : List Member :=
    members.map fun m => m.map (Leaf.overCallable fun c => { c with relations := {} })
  ((body.overMembers .structFunction clear).overMembers .interfaceFunction clear).overMembers
    .classFunction clear

namespace LibrarySet

/-- Forget the relations of all member functions of a library. -/
def clearRelations (set : LibrarySet) (library : LibraryId) : LibrarySet :=
  match set.get? library with
  | none => set
  | some lib =>
    let owners := [Category.struct, .interface, .class].flatMap lib.entries
    owners.foldl (fun set owner => set.edit owner.id (.body Body.clearRelations)) set

/-- Change the relations of a function of a library; functions of others are left alone. -/
def relate (library : LibraryId) (set : LibrarySet) (function : DeclId)
    (f : Relations → Relations) : LibrarySet :=
  if function.library = library then
    set.edit function (.callable fun c => { c with relations := f c.relations })
  else set

/-- Write down that one function overrides another, on both sides. -/
def addOverride (library : LibraryId) (set : LibrarySet) (pair : DeclId × DeclId) : LibrarySet :=
  let (function, base) := pair
  let set := relate library set function fun r => { r with overrides := addNew r.overrides base }
  relate library set base fun r => { r with overriddenBy := addNew r.overriddenBy function }

/-- Write down that a class function implements an interface function, on both sides. -/
def addImplementation (library : LibraryId) (set : LibrarySet) (pair : DeclId × DeclId) :
    LibrarySet :=
  let (function, base) := pair
  let set := relate library set function fun r => { r with implements := addNew r.implements base }
  relate library set base fun r => { r with implementedBy := addNew r.implementedBy function }

/-- Write a verdict down in the records of a library. -/
def record (library : LibraryId) (set : LibrarySet) (verdict : Verdict) : LibrarySet :=
  verdict.implements.foldl (addImplementation library)
    (verdict.overrides.foldl (addOverride library) set)

/-- Check a linked library: the model with its relations rebuilt, and the report. -/
def check (set : LibrarySet) (library : LibraryId) : LibrarySet × Report :=
  let set := set.clearRelations library
  match set.get? library with
  | none => (set, [])
  | some lib =>
    let verdict := set.judge lib
    (record library set verdict, lib.checkDuplicates ++ verdict.report)

end LibrarySet

end SymbolGraph
