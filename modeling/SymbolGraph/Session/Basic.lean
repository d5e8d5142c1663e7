import SymbolGraph.Kernel
import SymbolGraph.Manifest
import SymbolGraph.Teardown
import SymbolGraph.Validity

/-!
# Sessions

A `Session` is a project being worked on: its manifest, the `Sources` from which documents and
libraries are read, the compiled libraries, the units of the project's documents and of the other
libraries, and the edits that wait for the next rebuild.

Project documents are kept in the order of their paths, foreign units in the order of their
libraries, so that every pass visits them in one fixed order.
-/

namespace SymbolGraph

/-! ## Sources -/

/-- Where trees come from: the documents of the project by path, the libraries by name. -/
structure Sources where
  /-- The documents, in the order of their paths. -/
  documents : List FileTree := []
  /-- The documents of each library that can be loaded. -/
  libraries : Assoc String (List FileTree) := []
deriving Repr, Inhabited

namespace Sources

/-- Put a tree into a list ordered by path, in place of one with the same path. -/
def place (tree : FileTree) : List FileTree → List FileTree
  | [] => [tree]
  | other :: rest =>
    if other.path = tree.path then tree :: rest
    else if tree.path < other.path then tree :: other :: rest
    else other :: place tree rest

/-- Add or replace a document. -/
def insert (sources : Sources) (tree : FileTree) : Sources :=
  { sources with documents := place tree sources.documents }

/-- Whether there is a document with a path. -/
def has (sources : Sources) (path : String) : Bool := sources.documents.any (·.path = path)

/-- Remove a document. -/
def erase (sources : Sources) (path : String) : Sources :=
  { sources with documents := sources.documents.filter (·.path ≠ path) }

/-- Add or replace the documents of a library. -/
def insertLibrary (sources : Sources) (name : String) (trees : List FileTree) : Sources :=
  { sources with libraries := sources.libraries.putSorted name trees }

/-- The document with a path. -/
def document? (sources : Sources) (path : String) : Option FileTree :=
  sources.documents.find? (·.path = path)

/-- The documents of a library. -/
def library? (sources : Sources) (name : String) : Option (List FileTree) :=
  sources.libraries.at? name

/-- The paths of all documents. -/
def paths (sources : Sources) : List String := sources.documents.map FileTree.path

theorem find?_place (tree : FileTree) (trees : List FileTree) (path : String) :
    (place tree trees).find? (·.path = path)
      = if tree.path = path then some tree else trees.find? (·.path = path) := by
  induction trees with
  | nil => by_cases h : tree.path = path <;> simp [place, h]
  | cons other rest ih =>
    rw [place]
    split
    · next same =>
      by_cases h : tree.path = path
      · simp [h]
      · have : ¬ other.path = path := fun h' => h (same ▸ h')
        simp [h, this]
    · next differ =>
      split
      · by_cases h : tree.path = path <;> simp [h]
      · by_cases hp : other.path = path
        · have h : ¬ tree.path = path := fun h => differ (hp.trans h.symm)
          simp [hp, h]
        · simp [hp, ih]

@[simp] theorem document?_insert (sources : Sources) (tree : FileTree) (path : String) :
    (sources.insert tree).document? path
      = if tree.path = path then some tree else sources.document? path :=
  find?_place tree sources.documents path

@[simp] theorem document?_erase (sources : Sources) (path other : String) :
    (sources.erase path).document? other
      = if path = other then none else sources.document? other := by
  unfold document? erase
  rw [List.find?_filter]
  split
  · next h =>
    subst h
    exact List.find?_eq_none.2 fun tree _ => by simp
  · next h =>
    congr 1
    funext tree
    by_cases ho : tree.path = other
    · simp [ho, Ne.symm h]
    · simp [ho]

@[simp] theorem library?_insertLibrary_self (sources : Sources) (name : String)
    (trees : List FileTree) : (sources.insertLibrary name trees).library? name = some trees := by
  simp only [library?, insertLibrary]
  induction sources.libraries with
  | nil => simp [Assoc.putSorted]
  | cons entry rest ih =>
    obtain ⟨key, value⟩ := entry
    simp only [Assoc.putSorted]
    split
    · simp_all
    · split
      · simp
      · next hk _ => simpa [hk] using ih

end Sources

/-! ## Sessions -/

/-- A project being worked on. -/
structure Session where
  manifest : Manifest
  sources : Sources
  libraries : LibrarySet
  pool : IndexPool := {}
  /-- The units of the project's documents, in the order of their paths. -/
  files : List SourceUnit := []
  /-- The units of the kernel and of loaded imports, in the order of their libraries. -/
  foreign : Assoc LibraryId (List SourceUnit) := []
  /-- The paths to read again at the next rebuild. -/
  dirty : List String := []
  /-- The paths to drop at the next rebuild. -/
  removed : List String := []

namespace Session

/-- How documents of this session are linked. -/
def options (session : Session) : LinkOptions := ⟨session.manifest.suggestions⟩

/-- Put a unit into a list ordered by path, in place of one with the same path. -/
def placeUnit (unit : SourceUnit) : List SourceUnit → List SourceUnit
  | [] => [unit]
  | other :: rest =>
    if other.path = unit.path then unit :: rest
    else if unit.path < other.path then unit :: other :: rest
    else other :: placeUnit unit rest

/-- The unit of a project document. -/
def file? (session : Session) (path : String) : Option SourceUnit :=
  session.files.find? (·.path = path)

/-- All units: those of the project by path, then those of the other libraries. -/
def units (session : Session) : List SourceUnit :=
  session.files ++ session.foreign.values.flatten

/-- The unit with a path, in any library; one of the project comes first. -/
def unit? (session : Session) (path : String) : Option SourceUnit :=
  session.units.find? (·.path = path)

/-- The paths of the project's documents. -/
def paths (session : Session) : List String := session.files.map SourceUnit.path

/-- Ask for a document to be read again. -/
def changed (session : Session) (path : String) : Session :=
  { session with
    removed := session.removed.erase path
    dirty := addSorted session.dirty path }

/-- Ask for a document to be dropped. -/
def dropped (session : Session) (path : String) : Session :=
  { session with
    dirty := session.dirty.erase path
    removed := addSorted session.removed path }

/-- Whether edits wait for a rebuild. -/
def isPending (session : Session) : Bool := !session.dirty.isEmpty || !session.removed.isEmpty

@[simp] theorem mem_dirty_changed (session : Session) (path other : String) :
    other ∈ (session.changed path).dirty ↔ other ∈ session.dirty ∨ other = path := by
  simp [changed]

@[simp] theorem mem_removed_dropped (session : Session) (path other : String) :
    other ∈ (session.dropped path).removed ↔ other ∈ session.removed ∨ other = path := by
  simp [dropped]

/-- An edit waits from the moment it is announced. -/
@[simp] theorem isPending_changed (session : Session) (path : String) :
    (session.changed path).isPending = true := by
  have h : path ∈ (session.changed path).dirty := by simp
  have hne : (session.changed path).dirty ≠ [] := List.ne_nil_of_mem h
  simp [isPending, hne]

@[simp] theorem isPending_dropped (session : Session) (path : String) :
    (session.dropped path).isPending = true := by
  have h : path ∈ (session.dropped path).removed := by simp
  have hne : (session.dropped path).removed ≠ [] := List.ne_nil_of_mem h
  simp [isPending, hne]

/-- The diagnostics of a document, in phase order. -/
def diagnostics (session : Session) (path : String) : List Diagnostic :=
  match session.unit? path with
  | some unit => unit.diagnostics.toList
  | none => []

/-- The diagnostics of every project document that has any. -/
def allDiagnostics (session : Session) : List (String × List Diagnostic) :=
  (session.files.filter fun unit => unit.diagnostics.size ≠ 0).map fun unit =>
    (unit.path, unit.diagnostics.toList)

end Session

end SymbolGraph
