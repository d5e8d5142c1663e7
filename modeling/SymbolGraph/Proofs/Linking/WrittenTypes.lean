import SymbolGraph.Proofs.Model.RecordCores

/-!
# Types of records and types as written

`Typed set reports written ty` relates a written type to the type that is stored for it: a type that
is not invalid denotes a live declaration and has the ranks that are written, and an invalid one has
been reported, at the written type or at one of its segments.  Resolving a type gives such a pair
(`Context.typed_resolveType`), and it stays one while more is declared and reported.

`DeclNode.Realized` extends this to whole records: a record realizes the node that declares it when
its types, and those of its members, are typed one by one, and its bases are those that are written
and were not refused.  It is the strictest of several criteria that a record can meet
(`DeclNode.Meets`); the passes of linking go through the others on the way to it.
-/

namespace SymbolGraph

/-! ## Single types -/

/-- The type denotes a live declaration of the category of its code. -/
def Ty.Denotes (set : LibrarySet) (ty : Ty) : Prop :=
  ∃ category, ty.code.category? = some category ∧
    set.Live (.declaration ⟨ty.library, category, ty.index, none⟩)

/-- An error is reported at the written type or at one of its segments. -/
def TypeRef.Reported (reports : List Diagnostic) (written : TypeRef) : Prop :=
  ∃ d ∈ reports, d.severity = .error ∧
    (d.range = written.range ∨ ∃ segment ∈ written.path, d.range = segment.range)

/-- What is stored for a written type. -/
structure Typed (set : LibrarySet) (reports : List Diagnostic) (written : TypeRef) (ty : Ty) :
    Prop where
  denotes : ty.isInvalid = false → ty.Denotes set ∧ ty.dimension = written.dimension
  reported : ty.isInvalid = true → written.Reported reports

variable {set set' : LibrarySet} {reports reports' : List Diagnostic}

lemma Ty.Denotes.mono {ty : Ty} (h : ty.Denotes set)
    (hlive : ∀ {target}, set.Live target → set'.Live target) : ty.Denotes set' := by
  obtain ⟨category, hcategory, hid⟩ := h
  exact ⟨category, hcategory, hlive hid⟩

lemma TypeRef.Reported.mono {written : TypeRef} (h : written.Reported reports)
    (hsub : ∀ d ∈ reports, d ∈ reports') : written.Reported reports' := by
  obtain ⟨d, hd, hreport⟩ := h
  exact ⟨d, hsub d hd, hreport⟩

lemma Typed.mono {written : TypeRef} {ty : Ty} (h : Typed set reports written ty)
    (hlive : ∀ {target}, set.Live target → set'.Live target)
    (hsub : ∀ d ∈ reports, d ∈ reports') : Typed set' reports' written ty where
  denotes hvalid := ⟨(h.denotes hvalid).1.mono hlive, (h.denotes hvalid).2⟩
  reported hinvalid := (h.reported hinvalid).mono hsub

namespace Context

variable {ctx : Context}

/-- A descent that fails stops at a segment of the path. -/
lemma mem_of_descend {space : SpaceRef} {path : List Ident} {spaces : List (Range × SpaceRef)}
    {segment : Ident} (h : ctx.descend space path = (spaces, .error segment)) : segment ∈ path := by
  induction path generalizing space spaces with
  | nil => simp [descend] at h
  | cons first rest ih =>
    rw [descend] at h
    split at h
    · obtain ⟨-, rfl⟩ : [] = spaces ∧ first = segment := by simpa using h
      exact List.mem_cons_self ..
    · next child _ =>
      obtain ⟨-, hlast⟩ := Prod.mk.inj h
      exact List.mem_cons_of_mem _ (ih (Prod.ext rfl hlast))

/-- A dotted name that means no declaration is reported at one of its segments. -/
lemma reported_findPath {path : List Ident} (hpath : path ≠ [])
    (hnone : (ctx.findPath path).1.declarations = []) :
    ∃ d ∈ (ctx.findPath path).2, d.severity = .error ∧ ∃ segment ∈ path,
    d.range = segment.range := by
  obtain ⟨last, hlast⟩ : ∃ last, path.getLast? = some last :=
    Option.isSome_iff_exists.1 (by simpa using hpath)
  have hmem : last ∈ path := List.mem_of_getLast? hlast
  simp only [findPath, hlast] at hnone ⊢
  -- A name without dots is reported where it is looked up; otherwise the walk stops at a segment,
  -- or the last one is not found.
  cases hinit : path.dropLast with
  | nil =>
    simp only [hinit] at hnone ⊢
    unfold Context.find at hnone ⊢
    dsimp only at hnone ⊢
    split at hnone
    · next hmembers =>
      dsimp only at hnone
      rw [hnone] at hmembers
      simp at hmembers
    · next hmembers =>
      rw [if_neg hmembers]
      dsimp only at hnone
      rw [hnone]
      refine ⟨ctx.reportMissing last, by simp, ?_⟩
      unfold reportMissing
      split <;> exact ⟨rfl, last, hmem, rfl⟩
  | cons first rest =>
    have hsub : ∀ segment ∈ first :: rest, segment ∈ path :=
      fun segment h => List.dropLast_subset path (hinit ▸ h)
    simp only [hinit, findBehind] at hnone ⊢
    split
    · next notes _ =>
      refine ⟨Message.notFound first "namespace" none, by simp, rfl, first, ?_, rfl⟩
      exact hsub first (List.mem_cons_self ..)
    · next space notes hspace =>
      rw [hspace] at hnone
      dsimp only at hnone
      split
      · next spaces segment hdescend =>
        refine ⟨Message.notFound segment "namespace" none, by simp, rfl, segment, ?_, rfl⟩
        exact hsub segment (List.mem_cons_of_mem _ (mem_of_descend hdescend))
      · next spaces target hdescend =>
        rw [hdescend] at hnone
        simp only [findIn] at hnone ⊢
        rw [hnone]
        simp only [List.isEmpty_nil, Bool.not_true, Bool.false_eq_true, if_false]
        split
        · exact ⟨Message.notFound last "declaration" none, by simp, rfl, last, hmem, rfl⟩
        · exact ⟨Message.notAccessible last, by simp, rfl, last, hmem, rfl⟩

/-- A type that is found is that of a live declaration. -/
lemma denotes_resolveType (legible : ctx.libraries.Legible) {written : TypeRef}
    (hvalid : (ctx.resolveType written).value.isInvalid = false) :
    (ctx.resolveType written).value.Denotes ctx.libraries := by
  obtain ⟨-, hlive⟩ := ctx.among_everywhere.resolveType legible []
    (fun _ _ _ _ _ _ => trivial : ctx.libraries.Leads (fun _ => True) written.path)
  generalize (ctx.resolveType written).value = ty at hlive hvalid
  cases hcode : ty.code.category? with
  | none =>
    have hinvalid : ty.code = .invalid := by
      cases hc : ty.code <;> simp [hc, TypeCode.category?] at hcode ⊢
    simp [Ty.isInvalid, hinvalid] at hvalid
  | some category =>
    refine ⟨category, hcode, (hlive _ ?_).1⟩
    rw [Ty.declaration?, hcode, Option.map_some]

/-- A type that is found has as many dimensions as are written. -/
lemma dimension_resolveType {written : TypeRef}
    (hvalid : (ctx.resolveType written).value.isInvalid = false) :
    (ctx.resolveType written).value.dimension = written.dimension := by
  revert hvalid
  unfold resolveType
  dsimp only
  split
  · split
    · exact fun h => by simp [Ty.isInvalid, Ty.invalid] at h
    · next hdefining =>
      intro _
      simp [Ty.withDimension, hdefining]
  · exact fun h => by simp [Ty.isInvalid, Ty.invalid] at h
  · exact fun h => by simp [Ty.isInvalid, Ty.invalid] at h

/-- A type that is not found is reported: what was found is no type, or there are several matches,
or the lookup has already said that there is none. -/
lemma reported_resolveType {written : TypeRef} (hpath : written.path ≠ []) :
    (ctx.resolveType written).value.isInvalid = true →
      written.Reported (ctx.resolveType written).found.diagnostics := by
  have hmissing := @reported_findPath ctx written.path hpath
  unfold resolveType
  dsimp only
  generalize ctx.findPath written.path = outcome at hmissing
  obtain ⟨resolution, notes⟩ := outcome
  split
  · next name id _ _ =>
    split
    · exact fun _ => ⟨notAType written id, by simp [Findings.ofDiagnostic], rfl, Or.inl rfl⟩
    · next hdefining =>
      intro hinvalid
      simp only [Ty.withDimension, hdefining] at hinvalid
      exact absurd hinvalid hdefining
  · next id other more _ _ =>
    exact fun _ => ⟨ctx.severalMatches written (id :: other :: more),
      by simp [Findings.ofDiagnostic], rfl, Or.inl rfl⟩
  · next hone hmany =>
    intro _
    obtain ⟨last, hlast⟩ : ∃ last, written.name? = some last :=
      Option.isSome_iff_exists.1 (by simpa [TypeRef.name?] using hpath)
    have hnone : resolution.declarations = [] := by
      cases hdecls : resolution.declarations with
      | nil => rfl
      | cons id rest =>
        cases rest with
        | nil => exact (hone last id hlast hdecls).elim
        | cons other more => exact (hmany last id other more hlast hdecls).elim
    obtain ⟨d, hd, herror, hrange⟩ := hmissing hnone
    exact ⟨d, hd, herror, Or.inr hrange⟩

/-- Resolving a written type gives a type of a live declaration, or reports why not. -/
theorem typed_resolveType (legible : ctx.libraries.Legible) {written : TypeRef}
    (hpath : written.path ≠ []) : Typed ctx.libraries (ctx.resolveType written).found.diagnostics
      written (ctx.resolveType written).value :=
  ⟨fun hvalid => ⟨denotes_resolveType legible hvalid, dimension_resolveType hvalid⟩,
    reported_resolveType hpath⟩

end Context

/-! ## Bodies -/

/-- What is stored for a variable. -/
def Leaf.IsVariable (set : LibrarySet) (reports : List Diagnostic) (node : VariableNode) :
    Leaf → Prop
  | .variable info => info.constant = node.constant ∧ Typed set reports node.ty info.ty
  | _ => False

/-- What is stored for something with parameters. -/
def Leaf.IsCallable (set : LibrarySet) (reports : List Diagnostic) (params : List ParamNode)
    (returns : List TypeRef) : Leaf → Prop
  | .callable info =>
    List.Forall₂ (fun written param => param.name = written.name.map Ident.name ∧
      Typed set reports written.ty param.ty) params info.params ∧
      List.Forall₂ (Typed set reports) returns info.returns
  | _ => False

/-- What is stored for inherited types: each of them has been reported, or is the parent class or
an inherited interface, in the order in which they are written. -/
structure Based (set : LibrarySet) (reports : List Diagnostic) (written : List TypeRef)
    (parent : Option Ty) (inherits : List Ty) : Prop where
  parent_code : ∀ ty ∈ parent, ty.code = .handle
  inherits_code : ∀ ty ∈ inherits, ty.code = .interface
  accounted : ∃ stored : List (Option Ty), List.Forall₂ (fun base slot => match slot with
      | some ty => ty.Denotes set ∧ ty.dimension = base.dimension
      | none => base.Reported reports) written stored ∧
    parent.toList ++ inherits = stored.filterMap id

/-- The members of a list have the names of their nodes and the bodies that these describe. -/
def Members {α : Type} (name : α → Ident) (P : α → Leaf → Prop) (nodes : List α)
    (members : List Member) : Prop :=
  List.Forall₂ (fun node member => member.name = (name node).name ∧ P node member.body) nodes
    members

/-- What is asked of the parts of a record. -/
structure Criteria where
  ofVariable : VariableNode → Leaf → Prop
  ofCallable : List ParamNode → List TypeRef → Leaf → Prop
  ofTask : List TypeRef → Signature → Prop
  ofBases : List TypeRef → Option Ty → List Ty → Prop

def Criteria.ofFunction (asked : Criteria) (node : FunctionNode) : Leaf → Prop :=
  asked.ofCallable node.params node.returns

/-- The body has the form that its node gives it, and its parts are as asked. -/
def DeclNode.Meets (asked : Criteria) : DeclNode → Body → Prop
  | .variable node, .leaf part => asked.ofVariable node part
  | .function node, .leaf part => asked.ofFunction node part
  | .native node, .leaf part => asked.ofFunction node part
  | .delegate node, .leaf part => asked.ofCallable node.params node.returns part
  | .task node, .task returns => asked.ofTask node.returns returns
  | .enum node, .enum elements =>
    Members (fun element => element) (fun _ part => part = .element) node.elements elements
  | .struct node, .struct fields functions =>
    Members VariableNode.name asked.ofVariable node.fields fields ∧
      Members FunctionNode.name asked.ofFunction node.functions functions
  | .interface node, .interface info =>
    Members FunctionNode.name asked.ofFunction node.functions info.functions ∧
      asked.ofBases node.inherits none info.inherits
  | .class node, .class info =>
    Members VariableNode.name asked.ofVariable node.fields info.fields ∧
      Members ConstructorNode.name (fun node => asked.ofCallable node.params []) node.constructors
        info.constructors ∧
      Members FunctionNode.name asked.ofFunction node.functions info.functions ∧
      asked.ofBases node.inherits info.parent info.inherits
  | _, _ => False

/-- The body of the record that a node declares. -/
def DeclNode.Realized (set : LibrarySet) (reports : List Diagnostic) : DeclNode → Body → Prop :=
  Meets
    { ofVariable := fun node part => part.IsVariable set reports node
      ofCallable := fun params returns part => part.IsCallable set reports params returns
      ofTask := List.Forall₂ (Typed set reports)
      ofBases := Based set reports }

/-- The types stored in a body that owns nothing. -/
def Leaf.types : Leaf → List Ty
  | .variable info => [info.ty]
  | .callable info => info.params.map Parameter.ty ++ info.returns
  | .element => []

/-- All types stored in a record, those of its members included. -/
def Body.types : Body → List Ty
  | .leaf part => part.types
  | .task returns => returns
  | .enum elements => elements.flatMap fun m => m.body.types
  | .struct fields functions => (fields ++ functions).flatMap fun m => m.body.types
  | .interface info => info.inherits ++ info.functions.flatMap fun m => m.body.types
  | .class info =>
    info.parent.toList ++ info.inherits ++
      (info.fields ++ info.constructors ++ info.functions).flatMap fun m => m.body.types
  | .invalid => []

section Denotes

/-- Of related lists, what each pair gives for the second holds of the second list. -/
lemma forall_mem_of_forall₂ {α β : Type} {R : α → β → Prop} {xs : List α} {ys : List β}
    {Q : β → Prop} (h : List.Forall₂ R xs ys) (hR : ∀ x y, R x y → Q y) : ∀ y ∈ ys, Q y := by
  induction h with
  | nil => simp
  | cons hxy _ ih =>
    intro y hy
    rcases List.mem_cons.1 hy with rfl | hy
    · exact hR _ _ hxy
    · exact ih y hy

lemma Leaf.IsVariable.denotes {node : VariableNode} {part : Leaf}
    (h : part.IsVariable set reports node) :
    ∀ ty ∈ part.types, ty.isInvalid = false → ty.Denotes set := by
  cases part with
  | «variable» info =>
    intro ty hty hvalid
    rw [List.mem_singleton.1 hty] at hvalid ⊢
    exact (h.2.denotes hvalid).1
  | callable info => exact h.elim
  | element => exact h.elim

lemma Leaf.IsCallable.denotes {params : List ParamNode} {returns : List TypeRef} {part : Leaf}
    (h : part.IsCallable set reports params returns) :
    ∀ ty ∈ part.types, ty.isInvalid = false → ty.Denotes set := by
  cases part with
  | «variable» info => exact h.elim
  | callable info =>
    intro ty hty hvalid
    rcases List.mem_append.1 hty with hty | hty
    · obtain ⟨param, hparam, rfl⟩ := List.mem_map.1 hty
      exact forall_mem_of_forall₂ h.1 (Q := fun param : Parameter => param.ty.isInvalid = false →
        param.ty.Denotes set) (fun _ _ hR hvalid => (hR.2.denotes hvalid).1) param hparam hvalid
    · exact forall_mem_of_forall₂ h.2 (Q := fun ty : Ty => ty.isInvalid = false → ty.Denotes set)
        (fun _ _ hR hvalid => (hR.denotes hvalid).1) ty hty hvalid
  | element => exact h.elim

lemma Based.denotes {written : List TypeRef} {parent : Option Ty} {inherits : List Ty}
    (h : Based set reports written parent inherits) :
    ∀ ty ∈ parent.toList ++ inherits, ty.Denotes set := by
  obtain ⟨stored, hstored, heq⟩ := h.accounted
  intro ty hty
  rw [heq] at hty
  obtain ⟨slot, hslot, rfl⟩ := List.mem_filterMap.1 hty
  have hslots := forall_mem_of_forall₂ hstored
    (Q := fun slot => ∀ ty, slot = some ty → ty.Denotes set) (fun base slot hslot ty hty => by
      rw [hty] at hslot
      exact hslot.1)
  exact hslots _ hslot ty rfl

lemma Members.denotes {α : Type} {name : α → Ident} {P : α → Leaf → Prop} {nodes : List α}
    {members : List Member} (h : Members name P nodes members)
    (hP : ∀ node part, P node part → ∀ ty ∈ part.types, ty.isInvalid = false → ty.Denotes set) :
    ∀ ty ∈ members.flatMap (fun m => m.body.types), ty.isInvalid = false → ty.Denotes set := by
  intro ty hty
  obtain ⟨m, hm, hmem⟩ := List.mem_flatMap.1 hty
  exact forall_mem_of_forall₂ h (Q := fun m : Member => ∀ ty ∈ m.body.types,
    ty.isInvalid = false → ty.Denotes set) (fun node m hR => hP node m.body hR.2) m hm ty hmem

/-- Every type stored in a realized record is invalid or denotes a live declaration. -/
lemma DeclNode.Realized.denotes {node : DeclNode} {body : Body}
    (h : node.Realized set reports body) :
    ∀ ty ∈ body.types, ty.isInvalid = false → ty.Denotes set := by
  have hvariable : ∀ (node : VariableNode) (part : Leaf), part.IsVariable set reports node →
      ∀ ty ∈ part.types, ty.isInvalid = false → ty.Denotes set := fun _ _ h => h.denotes
  have hfunction : ∀ (node : FunctionNode) (part : Leaf),
      part.IsCallable set reports node.params node.returns →
      ∀ ty ∈ part.types, ty.isInvalid = false → ty.Denotes set := fun _ _ h => h.denotes
  have hconstructor : ∀ (node : ConstructorNode) (part : Leaf),
      part.IsCallable set reports node.params [] →
      ∀ ty ∈ part.types, ty.isInvalid = false → ty.Denotes set := fun _ _ h => h.denotes
  unfold Realized at h
  -- Types stand in the leaf, in the lists of members and in the bases.
  cases node <;> cases body <;> try exact h.elim
  case variable.leaf node part => exact Leaf.IsVariable.denotes h
  case function.leaf node part => exact Leaf.IsCallable.denotes h
  case native.leaf node part => exact Leaf.IsCallable.denotes h
  case delegate.leaf node part => exact Leaf.IsCallable.denotes h
  case task.task node returns =>
    exact forall_mem_of_forall₂ h (Q := fun ty : Ty => ty.isInvalid = false → ty.Denotes set)
      fun _ _ hR hvalid => (hR.denotes hvalid).1
  case enum.enum node elements =>
    have hmembers : Members (fun element => element) (fun _ part => part = .element)
      node.elements elements := h
    refine hmembers.denotes fun _ part hpart => ?_
    simp [hpart, Leaf.types]
  case struct.struct node fields functions =>
    intro ty hty
    rw [Body.types, List.flatMap_append, List.mem_append] at hty
    rcases hty with hty | hty
    · exact h.1.denotes hvariable ty hty
    · exact h.2.denotes hfunction ty hty
  case interface.interface node info =>
    intro ty hty hvalid
    rcases List.mem_append.1 hty with hty | hty
    · exact h.2.denotes ty hty
    · exact h.1.denotes hfunction ty hty hvalid
  case class.class node info =>
    intro ty hty hvalid
    rcases List.mem_append.1 hty with hty | hty
    · exact h.2.2.2.denotes ty hty
    · rw [List.flatMap_append, List.flatMap_append, List.mem_append, List.mem_append] at hty
      rcases hty with (hty | hty) | hty
      · exact h.1.denotes hvariable ty hty hvalid
      · exact h.2.1.denotes hconstructor ty hty hvalid
      · exact h.2.2.1.denotes hfunction ty hty hvalid

end Denotes

end SymbolGraph
