import SymbolGraph.Identity

/-!
# Resolved types

A `Ty` says which declaration defines a type and how many array ranks are put on top of it.  The
*invalid* type stands for a reference that could not be resolved; it stays invalid whatever rank
is asked for.  A list of types is the key by which overloads are told apart.
-/

namespace SymbolGraph

/-- The table in which a type's defining declaration lives. -/
inductive TypeCode where
  | invalid
  | struct
  | enum
  /-- A reference type, defined by a class. -/
  | handle
  | interface
  | delegate
  | task
deriving DecidableEq, Repr, Inhabited

namespace TypeCode

/-- Every code in its fixed order. -/
def all : List TypeCode := [invalid, struct, enum, handle, interface, delegate, task]

/-- The category of the defining declarations. -/
def category? : TypeCode → Option Category
  | invalid => none
  | struct => some .struct
  | enum => some .enum
  | handle => some .class
  | interface => some .interface
  | delegate => some .delegate
  | task => some .task

/-- The code of the types that a category defines; `invalid` if it defines none. -/
def ofCategory : Category → TypeCode
  | .struct => struct
  | .enum => enum
  | .class => handle
  | .interface => interface
  | .delegate => delegate
  | .task => task
  | _ => invalid

/-- The name of a code as data. -/
def name : TypeCode → String
  | invalid => "Invalid"
  | struct => "Struct"
  | enum => "Enum"
  | handle => "Handle"
  | interface => "Interface"
  | delegate => "Delegate"
  | task => "Task"

/-- The code of a name. -/
def ofName? (text : String) : Option TypeCode := all.find? fun c => c.name = text

@[simp] theorem ofName?_name (c : TypeCode) : ofName? c.name = some c := by
  cases c <;> rfl

instance : Ord TypeCode := ⟨fun a b => Ord.compare a.ctorIdx b.ctorIdx⟩

end TypeCode

/-- A resolved type; `dimension` counts its array ranks. -/
structure Ty where
  library : LibraryId
  code : TypeCode
  index : Nat
  dimension : Nat
deriving DecidableEq, Repr

namespace Ty

/-- The type of a reference that did not resolve. -/
def invalid : Ty := ⟨.kernel, .invalid, 0, 0⟩

instance : Inhabited Ty := ⟨invalid⟩

/-- A type without a defining declaration. -/
def isInvalid (ty : Ty) : Bool := ty.code = .invalid

/-- A type with at least one array rank. -/
def isArray (ty : Ty) : Bool := 0 < ty.dimension

/-- The type that a declaration defines, `invalid` if it defines none. -/
def of (id : DeclId) : Ty :=
  match TypeCode.ofCategory id.category with
  | .invalid => invalid
  | code => ⟨id.library, code, id.index, 0⟩

/-- The same type with another number of ranks; the invalid type has none. -/
def withDimension (ty : Ty) (dimension : Nat) : Ty :=
  if ty.isInvalid then ty else { ty with dimension }

/-- The declaration that defines a type. -/
def declaration? (ty : Ty) : Option DeclId :=
  ty.code.category?.map fun category => ⟨ty.library, category, ty.index, none⟩

/-- What a resolved name stands for as a type: a type declaration for itself, a member of a
struct, class or interface for its owner, an enum's element for nothing. -/
def defining (id : DeclId) : Ty :=
  match id.owner? with
  | some owner => if owner.category = .enum then invalid else of owner
  | none => of id

/-- Types are ordered by library, code, index and dimension. -/
protected def compare (a b : Ty) : Ordering :=
  (Ord.compare a.library b.library).then <| (Ord.compare a.code b.code).then <|
    (Ord.compare a.index b.index).then <| Ord.compare a.dimension b.dimension

instance : Ord Ty := ⟨Ty.compare⟩

end Ty

/-- The parameter types of a callable, or its return types. -/
abbrev Signature := List Ty

namespace Signature

/-- A signature all of whose types resolved. -/
def isResolved (s : Signature) : Bool := s.all fun ty => !ty.isInvalid

/-- Signatures are ordered lexicographically. -/
protected def compare : Signature → Signature → Ordering
  | [], [] => .eq
  | [], _ :: _ => .lt
  | _ :: _, [] => .gt
  | a :: as, b :: bs => (Ord.compare a b).then (Signature.compare as bs)

end Signature

end SymbolGraph
