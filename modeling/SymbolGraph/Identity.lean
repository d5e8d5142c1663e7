/-!
# Identities

A `LibraryId` names a library, a `DeclId` one declaration slot, a `SpaceRef` one namespace.
Identities are plain values: they stay the same while a library is linked and unlinked, and two
of them are equal exactly when all their fields are.

A declaration is *top-level* or a *member*.  Top-level declarations live in one table per
category and are addressed by their index in it.  Members live in a list of their owner; their
index is the position in that list and `define` is the owner's own index.
-/

namespace SymbolGraph

/-! ## Libraries -/

/-- A library: `-1` is the project, `-2` the kernel, imports count from zero. -/
structure LibraryId where
  number : Int
deriving DecidableEq, Repr

namespace LibraryId

/-- The project itself. -/
def project : LibraryId := ⟨-1⟩

/-- The kernel, which every library sees. -/
def kernel : LibraryId := ⟨-2⟩

/-- The import at a position of the import list. -/
def ofSlot (slot : Nat) : LibraryId := ⟨slot⟩

instance : Inhabited LibraryId := ⟨project⟩

/-- The position in the import list, for imported libraries. -/
def slot? (id : LibraryId) : Option Nat := if 0 ≤ id.number then some id.number.toNat else none

@[simp] theorem slot?_ofSlot (slot : Nat) : (ofSlot slot).slot? = some slot := by
  simp [slot?, ofSlot]

/-- Libraries are ordered by number: kernel, project, imports. -/
instance : LT LibraryId := ⟨fun a b => a.number < b.number⟩

instance : DecidableLT LibraryId := fun a b => inferInstanceAs (Decidable (a.number < b.number))

instance : Ord LibraryId := ⟨fun a b => Ord.compare a.number b.number⟩

/-- The name by which messages mention a library. -/
def text (id : LibraryId) : String :=
  if id = project then "self"
  else if id = kernel then "kernel"
  else s!"import#{id.number}"

end LibraryId

/-! ## Categories -/

/-- What kind of slot a declaration occupies. -/
inductive Category where
  | invalid
  | «variable»
  | function
  | native
  | enum
  | enumElement
  | struct
  | structVariable
  | structFunction
  | «class»
  | classVariable
  | constructor
  | classFunction
  | interface
  | interfaceFunction
  | delegate
  | task
deriving DecidableEq, Repr, Inhabited

namespace Category

/-- Every category in its fixed order. -/
def all : List Category :=
  [invalid, «variable», function, native, enum, enumElement, struct, structVariable,
    structFunction, «class», classVariable, constructor, classFunction, interface,
    interfaceFunction, delegate, task]

theorem mem_all (c : Category) : c ∈ all := by cases c <;> decide

/-- The categories that have library tables of their own and whose indices are pooled. -/
def libraryScoped : List Category :=
  [«variable», function, native, enum, struct, «class», interface, delegate, task]

/-- The category of a member's owner; top-level categories have none. -/
def owner? : Category → Option Category
  | enumElement => some enum
  | structVariable | structFunction => some struct
  | classVariable | constructor | classFunction => some «class»
  | interfaceFunction => some interface
  | _ => none

/-- Member categories are those with an owner. -/
def isMember (c : Category) : Bool := c.owner?.isSome

/-- Categories with parameters. -/
def isCallable : Category → Bool
  | function | native | constructor | delegate | structFunction | classFunction
  | interfaceFunction => true
  | _ => false

/-- Categories that may share a name, told apart by their parameters. -/
def isOverloadable : Category → Bool
  | function | native | constructor | structFunction | classFunction | interfaceFunction => true
  | _ => false

/-- The word for a category in messages and hovers. -/
def keyword : Category → String
  | invalid => "invalid"
  | «variable» | structVariable | classVariable => "variable"
  | function | structFunction | classFunction | interfaceFunction => "function"
  | native => "native"
  | enum => "enum"
  | enumElement => "enum element"
  | struct => "struct"
  | «class» => "class"
  | constructor => "constructor"
  | interface => "interface"
  | delegate => "delegate"
  | task => "task"

/-- The name of a category as data and in fault messages. -/
def name : Category → String
  | invalid => "Invalid"
  | «variable» => "Variable"
  | function => "Function"
  | native => "Native"
  | enum => "Enum"
  | enumElement => "EnumElement"
  | struct => "Struct"
  | structVariable => "StructVariable"
  | structFunction => "StructFunction"
  | «class» => "Class"
  | classVariable => "ClassVariable"
  | constructor => "Constructor"
  | classFunction => "ClassFunction"
  | interface => "Interface"
  | interfaceFunction => "InterfaceFunction"
  | delegate => "Delegate"
  | task => "Task"

/-- The category of a name. -/
def ofName? (text : String) : Option Category := all.find? fun c => c.name = text

@[simp] theorem ofName?_name (c : Category) : ofName? c.name = some c := by
  cases c <;> rfl

/-- The place of a category in the fixed order. -/
def rank (c : Category) : Nat := c.ctorIdx

instance : Ord Category := ⟨fun a b => Ord.compare a.rank b.rank⟩

end Category

/-! ## Declarations and namespaces -/

/-- The identity of one declaration slot. -/
structure DeclId where
  library : LibraryId
  category : Category
  index : Nat
  define : Option Nat := none
deriving DecidableEq, Repr, Inhabited

namespace DeclId

/-- The identity of the owner of a member: a member category with the owner's index. -/
def owner? (id : DeclId) : Option DeclId :=
  match id.category.owner?, id.define with
  | some category, some index => some ⟨id.library, category, index, none⟩
  | _, _ => none

/-- Whether the category is one of members. -/
def isMember (id : DeclId) : Bool := id.category.isMember

/-- The order of two optional numbers: none comes first. -/
def compareDefine : Option Nat → Option Nat → Ordering
  | none, none => .eq
  | none, some _ => .lt
  | some _, none => .gt
  | some a, some b => Ord.compare a b

/-- Declarations are ordered by library, category, index and owner. -/
protected def compare (a b : DeclId) : Ordering :=
  (Ord.compare a.library b.library).then <| (Ord.compare a.category b.category).then <|
    (Ord.compare a.index b.index).then <| compareDefine a.define b.define

instance : Ord DeclId := ⟨DeclId.compare⟩

end DeclId

/-- The slot of a namespace inside its library. -/
abbrev SpaceId := Nat

/-- A namespace of a named library. -/
structure SpaceRef where
  library : LibraryId
  space : SpaceId
deriving DecidableEq, Repr, Inhabited

end SymbolGraph
