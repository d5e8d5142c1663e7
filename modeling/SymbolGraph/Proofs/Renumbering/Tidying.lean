import SymbolGraph.Proofs.Renumbering.Copies

/-!
# Tidying under other numbers

Tidying a document writes into the library of the document only.  It reads the lengths of the tables
there and the names of the namespaces, and neither depends on the identity of the library.  So two
sessions in which an import has different identities get libraries that differ in the identities
only: the second one is the first one under the new numbers (`Batch.alike_tidyAll`).
-/

namespace SymbolGraph

/-! ## Maps with other values -/

section

variable {κ ν ν' : Type} [DecidableEq κ] (f : ν → ν')

lemma Assoc.at?_map_values (m : Assoc κ ν) (k : κ) :
    Assoc.at? (m.map fun entry => (entry.1, f entry.2)) k = (m.at? k).map f := by
  induction m with
  | nil => rfl
  | cons entry rest ih =>
    rw [List.map_cons, Assoc.at?, Assoc.at?, ih]
    split <;> rfl

lemma Assoc.put_map_values (m : Assoc κ ν) (k : κ) (v : ν) :
    Assoc.put (m.map fun entry => (entry.1, f entry.2)) k (f v)
      = (m.put k v).map fun entry => (entry.1, f entry.2) := by
  induction m with
  | nil => rfl
  | cons entry rest ih =>
    rw [List.map_cons, Assoc.put, Assoc.put, ih]
    split <;> rfl

end

/-! ## Namespaces -/

lemma Namespace.group_renumber (r : Renumbering) (space : Namespace) (name : String) :
    (space.renumber r).group name = (space.group name).map r.decl := by
  unfold group renumber
  rw [Assoc.at?_map_values]
  cases space.groups.at? name <;> rfl

namespace Arena

variable (r : Renumbering) (arena : Arena)

lemma get?_renumber (id : SpaceId) :
    (arena.renumber r).get? id = (arena.get? id).map (Namespace.renumber r) := by
  rw [get?, get?, renumber, List.getElem?_map]
  cases arena.slots[id]? with
  | none => rfl
  | some slot => cases slot <;> rfl

lemma adjust_renumber (id : SpaceId) {f g : Namespace → Namespace}
    (h : ∀ space : Namespace, g (space.renumber r) = (f space).renumber r) :
    (arena.renumber r).adjust id g = (arena.adjust id f).renumber r := by
  simp only [adjust, renumber, Arena.mk.injEq, and_true]
  refine (map_modify (fun slot => ?_) arena.slots id).symm
  cases slot with
  | none => rfl
  | some space => exact congrArg some (h space).symm

lemma store_renumber (id : SpaceId) (space : Namespace) :
    (arena.renumber r).store id (space.renumber r) = (arena.store id space).renumber r := by
  simp only [store, renumber, List.length_map]
  split
  · simp only [List.map_set, Option.map_some]
  · simp only [List.map_append, List.map_cons, List.map_nil, Option.map_some]

lemma openChild_renumber (parent : SpaceId) (name : String) :
    (arena.renumber r).openChild parent name
      = ((arena.openChild parent name).1, (arena.openChild parent name).2.renumber r) := by
  have hchild : (arena.renumber r).child? parent name = arena.child? parent name := by
    rw [child?, child?, get?_renumber]
    cases arena.get? parent <;> rfl
  have hfree : (arena.renumber r).free = arena.free := rfl
  have hlength : (arena.renumber r).slots.length = arena.slots.length := List.length_map _
  unfold openChild
  rw [hchild, hfree, hlength]
  cases arena.child? parent name with
  | some id => rfl
  | none =>
    dsimp only
    have hmade (id : SpaceId) (free : List SpaceId) :
        (({ arena.renumber r with free }.store id ⟨id, some parent, name, [], [],
          [], []⟩).adjust parent
          fun space => { space with children := space.children.put name id })
        = (({ arena with free }.store id ⟨id, some parent, name, [], [], [], []⟩).adjust parent
          fun space => { space with children := space.children.put name id }).renumber r := by
      rw [← adjust_renumber r _ parent (g := fun space =>
        { space with children := space.children.put name id }) fun _ => rfl, ← store_renumber]
      rfl
    cases arena.free with
    | nil => exact congrArg (Prod.mk _) (hmade _ _)
    | cons id rest => exact congrArg (Prod.mk _) (hmade _ _)

lemma addDocument_renumber (id : SpaceId) (document : String) :
    (arena.renumber r).addDocument id document = (arena.addDocument id document).renumber r :=
  arena.adjust_renumber r id fun _ => rfl

lemma declare_renumber (id : SpaceId) (name : String) (decl : DeclId) :
    (arena.renumber r).declare id name (r.decl decl) = (arena.declare id name decl).renumber r := by
  refine arena.adjust_renumber r id fun space => ?_
  have hadd : addNew ((space.group name).map r.decl) (r.decl decl)
      = (addNew (space.group name) decl).map r.decl := addAllNew_map r.decl_injective _ [decl]
  rw [space.group_renumber, hadd]
  simp only [Namespace.renumber, Assoc.put_map_values (List.map r.decl)]

end Arena

/-! ## Tables -/

namespace Library

variable (r : Renumbering) (lib : Library)

lemma table_renumber (category : Category) :
    (lib.renumber r).table category = (lib.table category).map (Option.map r.entry) := by
  rw [table, renumber, Assoc.at?_map_values, table]
  cases lib.tables.at? category <;> rfl

lemma slot?_renumber (category : Category) (index : Nat) :
    (lib.renumber r).slot? category index = (lib.slot? category index).map r.entry := by
  rw [slot?, slot?, table_renumber, List.getElem?_map]
  cases (lib.table category)[index]? with
  | none => rfl
  | some slot => cases slot <;> rfl

lemma tableSize_renumber (category : Category) :
    (lib.renumber r).tableSize category = lib.tableSize category := by
  rw [tableSize, table_renumber, List.length_map, tableSize]

lemma setTable_renumber (category : Category) (table : List (Option Entry)) :
    (lib.renumber r).setTable category (table.map (Option.map r.entry))
      = (lib.setTable category table).renumber r := by
  simp only [setTable, renumber, Assoc.put_map_values (List.map (Option.map r.entry))]

lemma insert_renumber {entry : Entry} (hindex : (r.decl entry.id).index = entry.id.index) :
    (lib.renumber r).insert (r.entry entry) = (lib.insert entry).map (renumber r) := by
  unfold insert
  simp only [r.id_entry, r.category_decl, hindex, table_renumber, slot?_renumber, List.length_map,
    Option.isSome_map]
  split
  · rfl
  · split
    · rfl
    · split
      · have htable : (lib.table entry.id.category).map (Option.map r.entry) ++
          [some (r.entry entry)]
            = (lib.table entry.id.category ++ [some entry]).map (Option.map r.entry) := by simp
        rw [htable, setTable_renumber]
        rfl
      · split
        · rfl
        · have htable : ((lib.table entry.id.category).map (Option.map r.entry)).set entry.id.index
              (some (r.entry entry)) = ((lib.table entry.id.category).set entry.id.index
                (some entry)).map (Option.map r.entry) := by simp [List.map_set]
          rw [htable, setTable_renumber]
          rfl

end Library

/-- Outside of the project a declaration keeps its index. -/
lemma Renumbering.decl_foreign (r : Renumbering) {id : DeclId} (h : id.library ≠ .project) :
    r.decl id = { id with library := r.library id.library } := by
  have hslot (category : Category) : r.slot id.library category = fun index => index :=
    funext fun index => if_neg fun hproject => h hproject.1
  unfold decl
  split <;> simp [hslot]

/-! ## Steps with the same outcome -/

/-- Two steps meet the same fault, if any, and lead to related states. -/
structure Outcome.Related {σ : Type} (R : σ → σ → Prop) (outcome outcome' : Outcome σ) : Prop where
  state : R outcome.state outcome'.state
  fault : outcome'.fault = outcome.fault

namespace Outcome.Related

variable {σ α : Type} {R : σ → σ → Prop}

lemma andThen {outcome outcome' : Outcome σ} (h : Related R outcome outcome')
    {step step' : σ → Outcome σ} (hstep : ∀ {state state'}, R state state' →
      Related R (step state) (step' state')) :
    Related R (outcome.andThen step) (outcome'.andThen step') := by
  unfold Outcome.andThen
  rw [h.fault]
  cases outcome.fault with
  | none => exact hstep h.state
  | some fault => exact h

lemma forEach {step step' : α → σ → Outcome σ} (hstep : ∀ x {state state'}, R state state' →
      Related R (step x state) (step' x state')) (xs : List α) {state state' : σ}
    (h : R state state') : Related R (Outcome.forEach step xs state)
    (Outcome.forEach step' xs state') := by
  induction xs generalizing state state' with
  | nil => exact ⟨h, rfl⟩
  | cons x xs ih => exact (hstep x h).andThen ih

end Outcome.Related

/-! ## Documents -/

/-- The documents at hand match, and the library that they belong to is the same on both sides under
the new numbers. -/
structure Workbench.Alike (r : Renumbering) (library : LibraryId) (bench bench' : Workbench) :
    Prop where
  library_eq : bench.unit.library = library
  unit : bench.unit.Matches r bench'.unit
  loaded : bench'.libraries.get? (r.library library)
    = (bench.libraries.get? library).map (Library.renumber r)

namespace Workbench.Alike

variable {r : Renumbering} {library : LibraryId} {bench bench' : Workbench}

lemma library_eq' (alike : bench.Alike r library bench') :
    bench'.unit.library = r.library library := by
  rw [alike.unit.library, alike.library_eq]

/-- Changing both libraries in the same way. -/
lemma adjust (alike : bench.Alike r library bench') {unit unit' : SourceUnit}
    (hunit : unit.Matches r unit') (hlibrary : unit.library = library) {f f' : Library → Library}
    (h : ∀ lib : Library, f' (lib.renumber r) = (f lib).renumber r) (pool pool' : IndexPool) :
    Alike r library ⟨bench.libraries.adjust library f, pool, unit⟩
      ⟨bench'.libraries.adjust (r.library library) f', pool', unit'⟩ := by
  refine ⟨hlibrary, hunit, ?_⟩
  simp only [LibrarySet.get?_adjust, if_true, alike.loaded]
  cases bench.libraries.get? library with
  | none => rfl
  | some lib => exact congrArg some (h lib)

end Workbench.Alike

namespace Tidy

variable {r : Renumbering} {library : LibraryId} {bench bench' : Workbench}

lemma alike_store (alike : bench.Alike r library bench') (lib : Library) {entry : Entry}
    (hentry : entry.id.library ≠ .project) :
    Outcome.Related (Workbench.Alike r library) (store bench lib entry)
      (store bench' (lib.renumber r) (r.entry entry)) := by
  unfold store
  rw [lib.insert_renumber r (by rw [r.decl_foreign hentry])]
  cases lib.insert entry with
  | error fault => exact ⟨alike, rfl⟩
  | ok after =>
    have hunit := alike.unit
    refine ⟨?_, rfl⟩
    simp only [Except.map, alike.library_eq, alike.library_eq']
    refine alike.adjust ?_ ?_ (fun _ => ?_) _ _
    · refine ⟨hunit.tree, rfl, ?_, alike.library_eq ▸ hunit.scopes, hunit.marks⟩
      simp only [SourceUnit.occur, hunit.declarations, List.map_append, List.map_cons, List.map_nil,
        r.id_entry]
    · rfl
    · have hspace : (r.entry entry).space = entry.space := if_neg hentry
      simp only [Library.renumber, hspace, r.id_entry, ← Arena.declare_renumber]
      rfl

lemma alike_declaration (hforeign : library ≠ .project) (space : SpaceId) (node : DeclNode)
    (alike : bench.Alike r library bench') :
    Outcome.Related (Workbench.Alike r library) (declaration space node bench)
      (declaration space node bench') := by
  -- Outside the project the index is the table's length, on both sides.
  have hpool (pool : IndexPool) (library : LibraryId) (hlibrary : library ≠ .project) :
      pool.allocate library node.category = if node.category.isMember
        then .error (.memberCategory node.category) else .ok (none, pool) := by
    unfold IndexPool.allocate
    rw [if_pos hlibrary]
  have hforeign' : r.library library ≠ .project := fun heq => hforeign (r.library_eq_project.1 heq)
  unfold declaration
  simp only [alike.library_eq, alike.library_eq', alike.loaded, hpool _ _ hforeign,
    hpool _ _ hforeign']
  cases bench.libraries.get? library with
  | none => exact ⟨alike, rfl⟩
  | some lib =>
    cases node.category.isMember with
    | true => exact ⟨alike, rfl⟩
    | false =>
      have hunit := alike.unit
      have hid : r.decl ⟨library, node.category, lib.tableSize node.category, none⟩
          = ⟨r.library library, node.category, (lib.renumber r).tableSize node.category, none⟩ := by
        rw [r.decl_foreign hforeign, lib.tableSize_renumber]
      have hplace : r.place library space = space := if_neg hforeign
      have hentry (valid : Bool) : ({ Entry.new node.name bench'.unit.path space
            ⟨r.library library, node.category, (lib.renumber r).tableSize node.category, none⟩
            node.visibility with valid } : Entry)
          = r.entry { Entry.new node.name bench.unit.path space
            ⟨library, node.category, lib.tableSize node.category, none⟩ node.visibility with
              valid } := by
        rw [← hid, hunit.path]
        simp only [Entry.new, Symbol.declare, Renumbering.entry, Renumbering.symbol, Symbol.map,
          r.category_decl, hplace, r.body_fresh]
      have hreported : Workbench.Alike r library
          { bench with unit := bench.unit.report .tidy [badName node.name] }
          { bench' with unit := bench'.unit.report .tidy [badName node.name] } :=
        ⟨alike.library_eq, ⟨hunit.tree, hunit.library, hunit.declarations, hunit.scopes,
          Diagnostics.marks_append hunit.marks .tidy rfl⟩, alike.loaded⟩
      simp only [Option.map_some, Bool.false_eq_true, if_false, Option.getD_none, hentry]
      cases allowedName node.category node.name.name with
      | true => exact alike_store alike lib hforeign
      | false => exact alike_store hreported lib hforeign

lemma alike_openBlock (space : SpaceId) (name : Ident) (alike : bench.Alike r library bench') :
    (openBlock space name bench').1 = (openBlock space name bench).1 ∧
      (openBlock space name bench).2.Alike r library (openBlock space name bench').2 := by
  unfold openBlock
  simp only [alike.library_eq, alike.library_eq', alike.loaded]
  cases bench.libraries.get? library with
  | none => exact ⟨rfl, alike⟩
  | some lib =>
    have hunit := alike.unit
    have hspaces : (lib.renumber r).spaces = lib.spaces.renumber r := rfl
    simp only [Option.map_some, hspaces, Arena.openChild_renumber]
    refine ⟨trivial, alike.adjust ?_ ?_ (fun _ => ?_) _ _⟩
    · exact ⟨hunit.tree, rfl, hunit.declarations, alike.library_eq ▸ hunit.scopes, hunit.marks⟩
    · rfl
    · rw [hunit.path, Arena.addDocument_renumber]
      rfl

mutual

/-- Tidying a block for either document. -/
theorem alike_block (hforeign : library ≠ .project) (space : SpaceId) :
    ∀ (node : SpaceNode) {bench bench' : Workbench}, bench.Alike r library bench' →
    Outcome.Related (Workbench.Alike r library) (block space node bench) (block space node bench')
  | ⟨_, _, children, declarations⟩, _, _, alike => by
    unfold block
    exact (alike_blocks hforeign space children alike).andThen fun alike =>
      .forEach (fun node _ _ alike => alike_declaration hforeign space node alike)
        declarations alike

theorem alike_blocks (hforeign : library ≠ .project) (space : SpaceId) :
    ∀ (nodes : List SpaceNode) {bench bench' : Workbench}, bench.Alike r library bench' →
    Outcome.Related (Workbench.Alike r library) (blocks space nodes bench)
      (blocks space nodes bench')
  | [], _, _, alike => ⟨alike, rfl⟩
  | child :: rest, bench, bench', alike => by
    unfold blocks
    refine Outcome.Related.andThen ?_ fun alike => alike_blocks hforeign space rest alike
    cases child.name with
    | none => exact alike_block hforeign space child alike
    | some name =>
      obtain ⟨hid, hopened⟩ := alike_openBlock space name alike
      dsimp only
      rw [hid]
      exact alike_block hforeign _ child hopened

end

end Tidy

/-- Tidying documents with one tree. -/
lemma Workbench.Alike.tidy {r : Renumbering} {library : LibraryId} {bench bench' : Workbench}
    (alike : bench.Alike r library bench') (hforeign : library ≠ .project) :
    Outcome.Related (Workbench.Alike r library) bench.tidy bench'.tidy := by
  have hmarks : (bench'.unit.diagnostics.clear .tidy).marks
      = (bench.unit.diagnostics.clear .tidy).marks := by
    funext phase
    cases phase with
    | tidy => rfl
    | link => exact congrFun alike.unit.marks .link
    | check => exact congrFun alike.unit.marks .check
  have hcleared : Workbench.Alike r library
      { bench with unit := { bench.unit with diagnostics := bench.unit.diagnostics.clear .tidy } }
      { bench' with
        unit := { bench'.unit with diagnostics := bench'.unit.diagnostics.clear .tidy } } :=
    ⟨alike.library_eq, ⟨alike.unit.tree, alike.unit.library, alike.unit.declarations,
      alike.unit.scopes, hmarks⟩, alike.loaded⟩
  have hblock := Tidy.alike_block hforeign Arena.root bench.unit.tree.root hcleared
  have hroot : bench'.unit.tree.root = bench.unit.tree.root := by rw [alike.unit.tree]
  have hloaded : (bench'.libraries.get? bench'.unit.library).isSome
      = (bench.libraries.get? bench.unit.library).isSome := by
    rw [alike.library_eq, alike.library_eq', alike.loaded, Option.isSome_map]
  have hread (bench : Workbench) : bench.tidy = if (bench.libraries.get? bench.unit.library).isSome
      then Tidy.block Arena.root bench.unit.tree.root
        { bench with unit := { bench.unit with diagnostics := bench.unit.diagnostics.clear .tidy } }
      else ⟨{ bench with unit := { bench.unit with
        diagnostics := bench.unit.diagnostics.clear .tidy } }, none⟩ := by
    unfold Workbench.tidy
    cases h : bench.libraries.get? bench.unit.library <;> simp [h]
  rw [hread bench, hread bench', hloaded, hroot]
  split
  · exact hblock
  · exact ⟨hcleared, rfl⟩

/-! ## Batches -/

/-- Batches of matching documents of a library that is the same on both sides under the new
numbers. -/
structure Batch.Alike (r : Renumbering) (library : LibraryId) (batch batch' : Batch) : Prop where
  units : List.Forall₂ (SourceUnit.Matches r) batch.units batch'.units
  loaded : batch'.libraries.get? (r.library library)
    = (batch.libraries.get? library).map (Library.renumber r)

namespace Batch

variable {r : Renumbering} {library : LibraryId} {batch batch' : Batch}

lemma Alike.tidy (alike : batch.Alike r library batch') (hforeign : library ≠ .project)
    (tree : FileTree) : Outcome.Related (Alike r library) (Batch.tidy library tree batch)
      (Batch.tidy (r.library library) tree batch') := by
  have hbench : Workbench.Alike r library ⟨batch.libraries, batch.pool, .new tree library⟩
      ⟨batch'.libraries, batch'.pool, .new tree (r.library library)⟩ :=
    ⟨rfl, ⟨rfl, rfl, rfl, rfl, rfl⟩, alike.loaded⟩
  have htidied := hbench.tidy hforeign
  unfold Batch.tidy
  simp only [htidied.fault]
  cases (Workbench.tidy ⟨batch.libraries, batch.pool, .new tree library⟩).fault with
  | none =>
    exact ⟨⟨List.rel_append alike.units (.cons htidied.state.unit .nil), htidied.state.loaded⟩, rfl⟩
  | some fault => exact ⟨⟨alike.units, htidied.state.loaded⟩, rfl⟩

/-- Tidying the documents of a library that has different identities. -/
theorem alike_tidyAll (hforeign : library ≠ .project) (trees : List FileTree)
    (alike : batch.Alike r library batch') :
    Outcome.Related (Alike r library) (Outcome.forEach (Batch.tidy library) trees batch)
      (Outcome.forEach (Batch.tidy (r.library library)) trees batch') :=
  .forEach (fun tree _ _ alike => alike.tidy hforeign tree) trees alike

end Batch

end SymbolGraph
