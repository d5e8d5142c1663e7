import SymbolGraph.Library

/-!
# All loaded libraries

The project, the kernel, and the imports in the order in which they were loaded.  Libraries are
addressed by identity, and by name where a program names one.
-/

namespace SymbolGraph

/-- Every loaded library. -/
structure LibrarySet where
  project : Library
  kernel : Library
  imports : List Library := []
  names : Assoc String LibraryId
deriving Repr

namespace LibrarySet

/-- An empty project and an empty kernel.  If both have one name, it means the kernel. -/
def new (projectName kernelName : String) : LibrarySet where
  project := .new .project projectName
  kernel := .new .kernel kernelName
  names := Assoc.put [(projectName, .project)] kernelName .kernel

/-- Register an empty import under the next free identity. -/
def addImport (set : LibrarySet) (name : String) : LibraryId × LibrarySet :=
  let id := LibraryId.ofSlot set.imports.length
  (id, { set with imports := set.imports ++ [.new id name], names := set.names.put name id })

/-- The library that a name means. -/
def named? (set : LibrarySet) (name : String) : Option LibraryId := set.names.at? name

/-- The library of an identity. -/
def get? (set : LibrarySet) (id : LibraryId) : Option Library :=
  if id = .project then some set.project
  else if id = .kernel then some set.kernel
  else id.slot?.bind fun slot => set.imports[slot]?

/-- Change the library of an identity, if it is loaded. -/
def adjust (set : LibrarySet) (id : LibraryId) (f : Library → Library) : LibrarySet :=
  if id = .project then { set with project := f set.project }
  else if id = .kernel then { set with kernel := f set.kernel }
  else match id.slot? with
    | some slot => { set with imports := set.imports.modify slot f }
    | none => set

/-- The declaration of an identity. -/
def find? (set : LibrarySet) (id : DeclId) : Option Entry :=
  (set.get? id.library).bind fun lib => lib.find? id

/-- Change the declaration of an identity, if there is one. -/
def edit (set : LibrarySet) (id : DeclId) (edit : Edit) : LibrarySet :=
  set.adjust id.library fun lib => lib.edit id edit

/-- The namespace that a reference means. -/
def space? (set : LibrarySet) (space : SpaceRef) : Option Namespace :=
  (set.get? space.library).bind fun lib => lib.spaces.get? space.space

/-- Change a namespace, if it exists. -/
def adjustSpace (set : LibrarySet) (space : SpaceRef) (f : Namespace → Namespace) : LibrarySet :=
  set.adjust space.library fun lib => { lib with spaces := lib.spaces.adjust space.space f }

/-- The child of a namespace with a given name. -/
def child? (set : LibrarySet) (parent : SpaceRef) (name : String) : Option SpaceRef := do
  let lib ← set.get? parent.library
  let child ← lib.spaces.child? parent.space name
  return ⟨parent.library, child⟩

/-- The root namespace of a loaded library. -/
def root? (set : LibrarySet) (library : LibraryId) : Option SpaceRef :=
  (set.get? library).map fun _ => ⟨library, Arena.root⟩

/-- The root namespace of the kernel. -/
def kernelRoot : SpaceRef := ⟨.kernel, Arena.root⟩

/-- The dotted name of a declaration inside its library. -/
def fullName? (set : LibrarySet) (id : DeclId) : Option String :=
  (set.get? id.library).bind fun lib => lib.fullName? id

/-- The libraries in search order: project, kernel, imports. -/
def toList (set : LibrarySet) : List Library := set.project :: set.kernel :: set.imports

/-- Every live top-level declaration of every library. -/
def allEntries (set : LibrarySet) : List Entry := set.toList.flatMap Library.allEntries

end LibrarySet

end SymbolGraph
