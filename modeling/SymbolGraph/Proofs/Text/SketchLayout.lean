import Mathlib.Data.List.Perm.Subperm
import SymbolGraph.Sketch

/-!
# Where the names of a sketch are laid out

No two identifiers of a sketched document meet: there is no position that lies in the ranges of
both, their ends included (`FileTree.ofSketch_idents_apart`).

The lines come from one running counter, and each construct draws them in an order of its own, not
the one in which its node holds the names; some that are drawn belong to members which are left out
in the end.  So what is carried along is a list of identifiers in no particular order: `LaidOut
first last idents` says that they lie between two lines and that no two of them meet.  A step of the
layout takes what is laid out before it to what is laid out after it (`Lays`), one step for each
construct, and steps in a row do the same (`Lays.bind`).  A result may hold its identifiers in any
order and leave some out (`Lays.pure`).
-/

namespace SymbolGraph

/-! ## Ranges that do not meet -/

namespace Range

/-- No position lies in both ranges, their ends included. -/
def Apart (r other : Range) : Prop := ∀ p, ¬ (r.Contains p ∧ other.Contains p)

variable {r other : Range}

lemma Apart.symm (h : r.Apart other) : other.Apart r := fun p hp => h p hp.symm

lemma apart_of_line_lt (h : r.stop.line < other.start.line) : r.Apart other := by
  rintro p ⟨⟨-, hstop⟩, hstart, -⟩
  simp only [Position.le_def] at hstop hstart
  omega

/-- On one line it takes a column between the end of one range and the start of the next. -/
lemma apart_onLine {line column len : Nat} (h : column + len < other.start.character)
    (hline : other.start.line = line) : (onLine line column len).Apart other := by
  rintro p ⟨⟨-, hstop⟩, hstart, -⟩
  simp only [Position.le_def, stop_onLine] at hstop hstart
  omega

end Range

/-! ## The identifiers of a document -/

def VariableNode.idents (node : VariableNode) : List Ident := node.name :: node.ty.path

def ParamNode.idents (node : ParamNode) : List Ident := node.name.toList ++ node.ty.path

def FunctionNode.idents (node : FunctionNode) : List Ident :=
  node.name :: (node.params.flatMap ParamNode.idents ++ node.returns.flatMap TypeRef.path)

def ConstructorNode.idents (node : ConstructorNode) : List Ident :=
  node.name :: node.params.flatMap ParamNode.idents

/-- All identifiers of a declaration: its name, its elements and those of its members, the names of
parameters, and the segments of type references. -/
def DeclNode.idents : DeclNode → List Ident
  | .variable node => node.idents
  | .function node | .native node => node.idents
  | .enum node => node.name :: node.elements
  | .struct node => node.name :: (node.fields.flatMap VariableNode.idents ++
      node.functions.flatMap FunctionNode.idents)
  | .interface node => node.name :: (node.inherits.flatMap TypeRef.path ++
      node.functions.flatMap FunctionNode.idents)
  | .class node => node.name :: (node.inherits.flatMap TypeRef.path ++
      (node.fields.flatMap VariableNode.idents ++
        (node.constructors.flatMap ConstructorNode.idents ++
        node.functions.flatMap FunctionNode.idents)))
  | .delegate node => node.name :: (node.params.flatMap ParamNode.idents ++
      node.returns.flatMap TypeRef.path)
  | .task node => node.name :: node.returns.flatMap TypeRef.path

namespace SpaceNode

mutual

/-- All identifiers of a block: its name, the segments of its import directives, and those of its
nested blocks and its declarations. -/
def idents : SpaceNode → List Ident
  | ⟨name, imports, children, declarations⟩ =>
    name.toList ++ (imports.flatMap ImportNode.path ++
      (identsOf children ++ declarations.flatMap DeclNode.idents))

/-- All identifiers of several blocks, block after block. -/
def identsOf : List SpaceNode → List Ident
  | [] => []
  | child :: rest => idents child ++ identsOf rest

end

lemma idents_eq (node : SpaceNode) : node.idents = node.name.toList ++
    (node.imports.flatMap ImportNode.path ++
      (identsOf node.children ++ node.declarations.flatMap DeclNode.idents)) := by
  cases node
  rw [idents]

lemma identsOf_append (nodes others : List SpaceNode) :
    identsOf (nodes ++ others) = identsOf nodes ++ identsOf others := by
  induction nodes with
  | nil => simp [identsOf]
  | cons node rest ih => simp [identsOf, ih]

end SpaceNode

/-- All identifiers of a document. -/
def FileTree.idents (tree : FileTree) : List Ident := tree.root.idents

namespace Sketch

/-! ## Identifiers between two lines -/

/-- The identifiers lie on lines from `first` on and before `last`, no two of them with a position
in common. -/
structure LaidOut (first last : Nat) (idents : List Ident) : Prop where
  first_le_last : first ≤ last
  first_le : ∀ ident ∈ idents, first ≤ ident.range.start.line
  lt_last : ∀ ident ∈ idents, ident.range.stop.line < last
  apart : idents.Pairwise fun ident other => ident.range.Apart other.range

namespace LaidOut

variable {first middle last : Nat} {idents others : List Ident}

lemma nil (line : Nat) : LaidOut line line [] := ⟨Nat.le_refl _, by simp, by simp, .nil⟩

lemma append (h : LaidOut first middle idents) (k : LaidOut middle last others) :
    LaidOut first last (idents ++ others) where
  first_le_last := Nat.le_trans h.first_le_last k.first_le_last
  first_le := by
    intro ident hident
    rcases List.mem_append.1 hident with hident | hident
    · exact h.first_le ident hident
    · exact Nat.le_trans h.first_le_last (k.first_le ident hident)
  lt_last := by
    intro ident hident
    rcases List.mem_append.1 hident with hident | hident
    · exact Nat.lt_of_lt_of_le (h.lt_last ident hident) k.first_le_last
    · exact k.lt_last ident hident
  apart := by
    refine List.pairwise_append.2 ⟨h.apart, k.apart, fun ident hident other hother => ?_⟩
    exact Range.apart_of_line_lt (Nat.lt_of_lt_of_le (h.lt_last ident hident)
      (k.first_le other hother))

/-- Neither the order of the identifiers matters nor that all of them are kept. -/
lemma of_count_le (h : LaidOut first last idents)
    (k : ∀ ident, others.count ident ≤ idents.count ident) : LaidOut first last others := by
  obtain ⟨list, hperm, hsublist⟩ := List.subperm_iff_count.2 k
  exact {
    first_le_last := h.first_le_last
    first_le := fun ident hident => h.first_le ident (hsublist.subset (hperm.mem_iff.2 hident))
    lt_last := fun ident hident => h.lt_last ident (hsublist.subset (hperm.mem_iff.2 hident))
    apart := (h.apart.sublist hsublist).perm hperm Range.Apart.symm }

end LaidOut

lemma line_of_mem_segments {line column : Nat} {names : List String} {ident : Ident}
    (h : ident ∈ segments line column names) :
    ident.range.start.line = line ∧ ident.range.stop.line = line ∧
      column ≤ ident.range.start.character := by
  induction names generalizing column with
  | nil => simp [segments] at h
  | cons name rest ih =>
    rcases List.mem_cons.1 h with rfl | h
    · exact ⟨rfl, rfl, Nat.le_refl _⟩
    · obtain ⟨hstart, hstop, hcolumn⟩ := ih h
      exact ⟨hstart, hstop, by omega⟩

lemma apart_segments (line column : Nat) (names : List String) :
    (segments line column names).Pairwise fun ident other => ident.range.Apart other.range := by
  induction names generalizing column with
  | nil => exact .nil
  | cons name rest ih =>
    refine List.pairwise_cons.2 ⟨fun other hother => ?_, ih _⟩
    obtain ⟨hline, -, hcolumn⟩ := line_of_mem_segments hother
    exact Range.apart_onLine hcolumn hline

/-- The names of one line. -/
lemma laidOut_segments (line column : Nat) (names : List String) :
    LaidOut line (line + 1) (segments line column names) where
  first_le_last := Nat.le_succ line
  first_le _ h := Nat.le_of_eq (line_of_mem_segments h).1.symm
  lt_last _ h := Nat.lt_succ_of_le (Nat.le_of_eq (line_of_mem_segments h).2.1)
  apart := apart_segments line column names

/-! ## Steps of the layout -/

/-- If `before` is laid out when a step is run, then `after` is laid out when it is done. -/
def Lays {α : Type} (before : List Ident) (step : Layout α) (after : α → List Ident) : Prop :=
  ∀ first line, LaidOut first line before → LaidOut first (step line).2 (after (step line).1)

section

variable {α β : Type} {before : List Ident} {middle after : α → List Ident}

theorem Lays.bind {step : Layout α} {next : α → Layout β} {after : β → List Ident}
    (h : Lays before step middle) (k : ∀ a, Lays (middle a) (next a) after) :
    Lays before (step >>= next) after :=
  fun first line hbefore => k _ first _ (h first line hbefore)

theorem Lays.pure {a : α} (h : ∀ ident, (after a).count ident ≤ before.count ident) :
    Lays before (pure a) after :=
  fun _ _ hbefore => hbefore.of_count_le h

/-- A step that draws one line. -/
lemma lays_line (idents : α → List Ident) {place : Nat → α}
    (h : ∀ line, LaidOut line (line + 1) (idents (place line))) :
    Lays before (do let line ← freshLine; return place line) fun a => before ++ idents a :=
  fun _ line hbefore => hbefore.append (h line)

end

variable (before : List Ident)

lemma lays_ident (name : String) : Lays before (ident name) fun ident => before ++ [ident] :=
  lays_line (fun ident => [ident]) fun line => laidOut_segments line nameColumn [name]

lemma lays_typeRef (text : String) : Lays before (typeRef text) fun ty => before ++ ty.path := by
  refine lays_line TypeRef.path fun line => ?_
  rw [typeRefOn]
  split
  exact laidOut_segments line nameColumn _

lemma lays_importNode (path : String) :
    Lays before (importNode path) fun node => before ++ node.path :=
  lays_line ImportNode.path fun line => laidOut_segments line importColumn _

lemma lays_idents (names : List String) : Lays before (idents names) fun idents =>
    before ++ idents := by
  induction names generalizing before with
  | nil => exact .pure (by simp)
  | cons name rest ih =>
    refine (lays_ident before name).bind fun ident => (ih _).bind fun idents =>
      .pure fun other => ?_
    simp only [List.count_append, List.count_cons, List.count_nil]
    omega

lemma lays_typeRefs (texts : List String) :
    Lays before (typeRefs texts) fun tys => before ++ tys.flatMap TypeRef.path := by
  induction texts generalizing before with
  | nil => exact .pure (by simp)
  | cons text rest ih =>
    refine (lays_typeRef before text).bind fun ty => (ih _).bind fun tys => .pure fun other => ?_
    simp only [List.count_append, List.flatMap_cons]
    omega

lemma lays_params (position : Nat) (texts : List String) :
    Lays before (params position texts) fun nodes => before ++ nodes.flatMap ParamNode.idents := by
  induction texts generalizing before position with
  | nil => exact .pure (by simp)
  | cons text rest ih =>
    refine (lays_typeRef before text).bind fun ty => (lays_ident _ _).bind fun name =>
      (ih _ _).bind fun nodes => .pure fun other => ?_
    simp only [List.count_append, List.flatMap_cons, ParamNode.idents, Option.toList_some]
    omega

/-! ## Declarations and members -/

lemma lays_variableNode (visibility : Visibility) (constant : Bool) (ty name : String) :
    Lays before (variableNode visibility constant ty name) fun node => before ++ node.idents := by
  refine (lays_typeRef before ty).bind fun ty => (lays_ident _ name).bind fun name =>
    .pure fun other => ?_
  simp only [List.count_append, List.count_cons, List.count_nil, VariableNode.idents]
  omega

lemma lays_functionNode (visibility : Visibility) (name : String) (inputs returns : List String) :
    Lays before (functionNode visibility name inputs returns) fun node =>
      before ++ node.idents := by
  refine (lays_typeRefs before returns).bind fun returns => (lays_ident _ name).bind fun name =>
    (lays_params _ 0 inputs).bind fun inputs => .pure fun other => ?_
  simp only [List.count_append, List.count_cons, List.count_nil, FunctionNode.idents]
  omega

/-- All identifiers of laid-out members. -/
def Members.idents (parts : Members) : List Ident :=
  parts.fields.flatMap VariableNode.idents ++ (parts.constructors.flatMap ConstructorNode.idents ++
    parts.functions.flatMap FunctionNode.idents)

lemma lays_members (owner : String) (items : List Member) :
    Lays before (members owner items) fun parts => before ++ parts.idents := by
  induction items generalizing before with
  | nil => exact .pure (by simp [Members.idents])
  | cons item rest ih =>
    match item with
    | .variable visibility ty name =>
      refine (lays_variableNode before visibility false ty name).bind fun node =>
        (ih _).bind fun parts => .pure fun other => ?_
      simp only [List.count_append, List.flatMap_cons, Members.idents]
      omega
    | .function visibility name inputs returns =>
      refine (lays_functionNode before visibility name inputs returns).bind fun node =>
        (ih _).bind fun parts => .pure fun other => ?_
      simp only [List.count_append, List.flatMap_cons, Members.idents]
      omega
    | .constructor visibility inputs =>
      refine (lays_ident before owner).bind fun name => (lays_params _ 0 inputs).bind fun inputs =>
        (ih _).bind fun parts => .pure fun other => ?_
      simp only [List.count_append, List.count_cons, List.count_nil, List.flatMap_cons,
        Members.idents, ConstructorNode.idents]
      omega

/-! ## Blocks -/

lemma idents_addDeclaration (node : SpaceNode) (declaration : DeclNode) :
    (addDeclaration node declaration).idents = node.idents ++ declaration.idents := by
  simp [addDeclaration, SpaceNode.idents_eq]

/-- A declaration is added when its identifiers are laid out beside those of the block. -/
lemma Lays.declare {context before : List Ident} {node : SpaceNode} {declaration : DeclNode}
    (h : ∀ ident, (before ++ node.idents ++ declaration.idents).count ident ≤ context.count ident) :
    Lays context (Pure.pure (addDeclaration node declaration)) fun node =>
      before ++ node.idents := by
  refine .pure fun ident => ?_
  rw [idents_addDeclaration, ← List.append_assoc]
  exact h ident

section

variable (before : List Ident) (node : SpaceNode) (visibility : Visibility) (name : String)

lemma lays_place_struct (items : List Member) :
    Lays (before ++ node.idents) (place node (.struct visibility name items)) fun node =>
      before ++ node.idents := by
  rw [place]
  refine (lays_ident _ name).bind fun ident => (lays_members _ name items).bind fun parts =>
    .declare fun other => ?_
  simp only [List.count_append, List.count_cons, List.count_nil, DeclNode.idents, Members.idents]
  omega

lemma lays_place_interface (inherits : List String) (items : List Member) :
    Lays (before ++ node.idents) (place node (.interface visibility name inherits items))
      fun node => before ++ node.idents := by
  rw [place]
  refine (lays_ident _ name).bind fun ident => (lays_typeRefs _ inherits).bind fun inherits =>
    (lays_members _ name items).bind fun parts => .declare fun other => ?_
  simp only [List.count_append, List.count_cons, List.count_nil, DeclNode.idents, Members.idents]
  omega

lemma lays_place_class (inherits : List String) (items : List Member) :
    Lays (before ++ node.idents) (place node (.class visibility name inherits items)) fun node =>
      before ++ node.idents := by
  rw [place]
  refine (lays_ident _ name).bind fun ident => (lays_typeRefs _ inherits).bind fun inherits =>
    (lays_members _ name items).bind fun parts => .declare fun other => ?_
  simp only [List.count_append, List.count_cons, List.count_nil, DeclNode.idents, Members.idents]
  omega

end

mutual

/-- One item more: what it adds to the block is laid out behind what is there. -/
theorem lays_place (before : List Ident) (node : SpaceNode) (item : Item) :
    Lays (before ++ node.idents) (place node item) fun node => before ++ node.idents := by
  match item with
  | .directive path =>
    rw [place]
    refine (lays_importNode _ path).bind fun written => .pure fun other => ?_
    simp only [List.count_append, SpaceNode.idents_eq, List.flatMap_append, List.flatMap_singleton]
    omega
  | .block name items =>
    rw [place]
    refine (lays_ident _ name).bind fun name => ?_
    -- The nested block starts with its name, which is laid out already.
    have h := lays_placeAll (before ++ node.idents) { SpaceNode.empty with name := some name } items
    rw [show SpaceNode.idents { SpaceNode.empty with name := some name } = [name] from rfl] at h
    refine h.bind fun child => .pure fun other => ?_
    simp only [List.count_append, List.count_nil, SpaceNode.idents_eq, SpaceNode.identsOf_append,
      SpaceNode.identsOf]
    omega
  | .variable visibility constant ty name =>
    rw [place]
    exact (lays_variableNode _ visibility constant ty name).bind fun _ =>
      .declare fun _ => Nat.le_refl _
  | .function visibility name inputs returns =>
    rw [place]
    exact (lays_functionNode _ visibility name inputs returns).bind fun _ =>
      .declare fun _ => Nat.le_refl _
  | .native visibility name inputs returns =>
    rw [place]
    exact (lays_functionNode _ visibility name inputs returns).bind fun _ =>
      .declare fun _ => Nat.le_refl _
  | .enum visibility name elements =>
    rw [place]
    refine (lays_ident _ name).bind fun name => (lays_idents _ elements).bind fun elements =>
      .declare fun other => ?_
    simp only [List.count_append, List.count_cons, List.count_nil, DeclNode.idents]
    omega
  | .struct visibility name items => exact lays_place_struct before node visibility name items
  | .interface visibility name inherits items =>
    exact lays_place_interface before node visibility name inherits items
  | .class visibility name inherits items =>
    exact lays_place_class before node visibility name inherits items
  | .delegate visibility name inputs returns =>
    rw [place]
    refine (lays_ident _ name).bind fun name => (lays_params _ 0 inputs).bind fun inputs =>
      (lays_typeRefs _ returns).bind fun returns => .declare fun other => ?_
    simp only [List.count_append, List.count_cons, List.count_nil, DeclNode.idents]
    omega
  | .task visibility name returns =>
    rw [place]
    refine (lays_ident _ name).bind fun name => (lays_typeRefs _ returns).bind fun returns =>
      .declare fun other => ?_
    simp only [List.count_append, List.count_cons, List.count_nil, DeclNode.idents]
    omega

/-- The run over all items of a block. -/
theorem lays_placeAll (before : List Ident) (node : SpaceNode) (items : List Item) :
    Lays (before ++ node.idents) (placeAll node items) fun node => before ++ node.idents := by
  match items with
  | [] =>
    rw [placeAll]
    exact .pure fun _ => Nat.le_refl _
  | item :: rest =>
    rw [placeAll]
    exact (lays_place before node item).bind fun node => lays_placeAll before node rest

end

/-- Filling a block in several goes is filling it with all items. -/
lemma placeAll_flatten (node : SpaceNode) (fills : List (List Item)) :
    placeAll node fills.flatten = fills.foldlM placeAll node := by
  induction fills generalizing node with
  | nil => simp [placeAll]
  | cons items fills ih =>
    rw [List.flatten_cons, List.foldlM_cons]
    simp only [← ih]
    induction items generalizing node with
    | nil => simp [placeAll]
    | cons item items ih' => simp [placeAll, ih']

end Sketch

/-- However the top level of a document is filled, in one go or in several, there is no position
that lies in the ranges of two of its identifiers, the ends of the ranges included. -/
theorem FileTree.ofSketch_idents_apart (path : String) (fills : List (List Sketch.Item)) :
    (ofSketch path fills.flatten).root = (fills.foldlM Sketch.placeAll .empty 0).1 ∧
      (ofSketch path fills.flatten).idents.Pairwise fun ident other =>
        ident.range.Apart other.range := by
  constructor
  · rw [ofSketch, Sketch.placeAll_flatten]
  · exact (Sketch.lays_placeAll [] .empty fills.flatten 0 0 (.nil 0)).apart

end SymbolGraph
