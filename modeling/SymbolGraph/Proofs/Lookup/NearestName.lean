import SymbolGraph.Lookup.Resolve
import SymbolGraph.Proofs.Inheritance.Walks
import SymbolGraph.Proofs.Namespaces.Tree

/-!
# The nearest declaration of a name

A simple name is looked for at many stops, one after the other: among the members of the enclosing
declaration and, if this is a class, of the classes that it descends from, step by step; in the
current namespace and in those around it, step by step; in the imported namespaces; in the root of
the kernel.  A `Stop` is such a place as seen from the context, and `ctx.groupAt name stop` holds
the declarations that have the name there, visible or not.

This says nothing of lists that are searched.  `Context.find_nearest` is the rule by which one
declaration shadows another: a lookup finds what is visible at the first stop where anything is
visible, and if nothing is visible anywhere it makes one report, which tells hidden declarations
from missing ones.

From the rule follows what becomes visible further inside (`Context.nesting_keeps_names`), since
what is at a stop stays there or is some steps further on, and how the lookup of operators, which
takes the namespaces of all stops together, compares (`Context.operations_cover`).

## Chains

Parents of classes and of namespaces are chains.  `Walk.climb` takes a number of steps along a
chain, and a walk that starts at one node lists what such steps lead to, in order, up to the first
repetition.  The steps from a namespace go from slot to slot; what stands there is known by the
identity that it bears (`LibrarySet.around?`).
-/

namespace SymbolGraph

/-! ## Chains -/

namespace Walk

variable {α : Type} (up : α → Option α)

/-- The node that is some steps up the chain. -/
def climb : Nat → α → Option α
  | 0, a => some a
  | k + 1, a => (climb k a).bind up

variable {up}

/-- The first step can be taken apart as well as the last one. -/
lemma climb_succ (k : Nat) (a : α) : climb up (k + 1) a = (up a).bind (climb up k) := by
  induction k with
  | zero => cases h : up a <;> simp [climb, h]
  | succ k ih =>
    rw [climb, ih]
    cases up a <;> rfl

lemma climb_add {j k : Nat} {a b : α} (h : climb up j a = some b) :
    climb up (k + j) a = climb up k b := by
  induction k with
  | zero => rw [Nat.zero_add, h, climb]
  | succ k ih => rw [Nat.succ_add, climb, ih, climb]

lemma exists_climb_of_le {j k : Nat} {a b : α} (h : climb up k a = some b) (hle : j ≤ k) :
    ∃ c, climb up j a = some c := by
  induction hle generalizing b with
  | refl => exact ⟨b, h⟩
  | step _ ih =>
    obtain ⟨c, hc, -⟩ := Option.bind_eq_some_iff.1 h
    exact ih hc

variable [DecidableEq α] {fresh : List α} {start : α}

/-- The walk up a chain. -/
abbrev chain (up : α → Option α) (fresh : List α) (start : α) : List α :=
  preorder (fun a => (up a).toList) fresh [start]

lemma chain_eq : chain up fresh start = if start ∈ fresh then
    start :: ((up start).map (chain up (fresh.erase start))).getD [] else [] := by
  rw [chain, preorder_cons]
  split
  · cases up start <;> simp [chain]
  · exact preorder_nil ..

/-- Every node of the walk is as many steps up as its position says. -/
lemma climb_of_chain {i : Nat} {a : α} (h : (chain up fresh start)[i]? = some a) :
    climb up i start = some a := by
  induction i generalizing fresh start with
  | zero =>
    rw [chain_eq] at h
    split at h
    · exact h
    · simp at h
  | succ i ih =>
    rw [chain_eq] at h
    split at h
    · rw [List.getElem?_cons_succ] at h
      rw [climb_succ]
      cases hup : up start with
      | none => simp [hup] at h
      | some above => exact ih (by simpa [hup] using h)
    · simp at h

/-- A node that is some steps up stands in the walk at this position or, if the chain repeats,
before. -/
lemma exists_chain {k : Nat} {a : α} (h : climb up k start = some a)
    (hfresh : ∀ j ≤ k, ∀ b, climb up j start = some b → b ∈ fresh) :
    ∃ i ≤ k, (chain up fresh start)[i]? = some a := by
  have hreaches : ∀ j ≤ k, ∀ b, climb up j start = some b →
      Reaches (fun a => (up a).toList) fresh start b := by
    intro j
    induction j with
    | zero =>
      rintro hj b ⟨⟩
      exact ⟨hfresh 0 hj start rfl, .refl⟩
    | succ j ih =>
      intro hj b hb
      obtain ⟨below, hbelow, hup⟩ := Option.bind_eq_some_iff.1 hb
      exact (ih (Nat.le_of_succ_le hj) below hbelow).tail (Option.mem_toList.2 hup)
        (hfresh _ hj b hb)
  have hmem : a ∈ chain up fresh start :=
    mem_preorder_iff.2 ⟨start, List.mem_singleton.2 rfl, hreaches k (Nat.le_refl _) a h⟩
  obtain ⟨i, hi⟩ := List.mem_iff_getElem?.1 hmem
  rcases Nat.le_total i k with hik | hki
  · exact ⟨i, hik, hi⟩
  · -- If it stands behind position `k`, it stands there as well.
    have hlt : k < (chain up fresh start).length :=
      Nat.lt_of_le_of_lt hki (List.getElem?_eq_some_iff.1 hi).1
    have hk := List.getElem?_eq_getElem hlt
    rw [climb_of_chain hk] at h
    exact ⟨k, (Nat.le_refl _), hk.trans h⟩

end Walk

open Walk (climb chain climb_of_chain exists_chain)

namespace LibrarySet

variable (set : LibrarySet)

/-- The namespace around a namespace. -/
def outer? (ref : SpaceRef) : Option SpaceRef :=
  ((set.space? ref).bind Namespace.parent).map fun space => ⟨ref.library, space⟩

/-- The namespace in a slot, by the identity that it bears. -/
def bearer? (ref : SpaceRef) : Option SpaceRef :=
  (set.space? ref).map fun space => ⟨ref.library, space.id⟩

/-- The namespace some steps around a namespace. -/
def around? (steps : Nat) (ref : SpaceRef) : Option SpaceRef :=
  (climb set.outer? steps ref).bind set.bearer?

/-- The parent of a class. -/
def parent? (id : DeclId) : Option DeclId := (set.find? id).bind fun entry => entry.body.parent?

/-- The live namespaces of a library. -/
def spacesOf (library : LibraryId) : List SpaceRef :=
  match set.get? library with
  | some lib => (lib.spaces.live.map Prod.fst).map fun space => ⟨library, space⟩
  | none => []

variable {set}

lemma space?_of_outer? {ref outer : SpaceRef} (h : set.outer? ref = some outer) :
    outer.library = ref.library ∧ ∃ space, set.space? ref = some space := by
  obtain ⟨_, hparent, rfl⟩ := Option.map_eq_some_iff.1 h
  obtain ⟨space, hspace, -⟩ := Option.bind_eq_some_iff.1 hparent
  exact ⟨rfl, space, hspace⟩

lemma library_of_climb {k : Nat} {ref outer : SpaceRef} (h : climb set.outer? k ref = some outer) :
    outer.library = ref.library := by
  induction k generalizing outer with
  | zero => exact congrArg SpaceRef.library (Option.some.inj h).symm
  | succ k ih =>
    obtain ⟨between, hbetween, hup⟩ := Option.bind_eq_some_iff.1 h
    exact (space?_of_outer? hup).1.trans (ih hbetween)

lemma mem_spacesOf {library : LibraryId} {ref : SpaceRef} :
    ref ∈ set.spacesOf library ↔ ref.library = library ∧ ∃ space, set.space? ref = some space := by
  unfold spacesOf
  constructor
  · intro h
    split at h
    · next lib hlib =>
      obtain ⟨id, hid, rfl⟩ := List.mem_map.1 h
      obtain ⟨space, hspace⟩ := Arena.mem_map_fst_live_iff.1 hid
      exact ⟨rfl, space, by rw [space?, hlib, Option.bind_some, hspace]⟩
    · cases h
  · rintro ⟨rfl, space, hspace⟩
    obtain ⟨lib, hlib, hspace⟩ := Option.bind_eq_some_iff.1 hspace
    rw [hlib]
    exact List.mem_map_of_mem (Arena.mem_map_fst_live_iff.2 ⟨space, hspace⟩)

lemma exists_bearer? {library : LibraryId} {ref : SpaceRef} (h : ref ∈ set.spacesOf library) :
    ∃ found, set.bearer? ref = some found := by
  obtain ⟨-, space, hspace⟩ := mem_spacesOf.1 h
  exact ⟨_, congrArg (Option.map _) hspace⟩

/-- A class and its ancestors are the walk up its parents. -/
lemma cons_classAncestors (id : DeclId) : id :: set.classAncestors id
    = chain set.parent? (id :: set.parentNodes.filter (· ≠ id)) id := by
  rw [Walk.chain_eq, if_pos List.mem_cons_self, List.erase_cons_head, classAncestors]
  have hparents : set.parents = fun class? => (set.parent? class?).toList := rfl
  rw [hparents]
  cases hparent : set.parent? id <;> simp [chain, hparent]

lemma mem_parentNodes_of_climb {k : Nat} {id base : DeclId}
    (h : climb set.parent? k id = some base) :
    base ∈ id :: set.parentNodes.filter (· ≠ id) := by
  by_cases heq : base = id
  · exact heq ▸ List.mem_cons_self
  · cases k with
    | zero => exact absurd (Option.some.inj h).symm heq
    | succ k =>
      obtain ⟨below, -, hup⟩ := Option.bind_eq_some_iff.1 h
      have hparent : base ∈ set.parents below := Option.mem_toList.2 hup
      exact List.mem_cons_of_mem _
        (List.mem_filter.2 ⟨mem_parentNodes hparent, decide_eq_true heq⟩)

end LibrarySet

/-! ## Stops -/

/-- Where a simple name is looked for, as seen from a context. -/
inductive Stop where
  /-- The enclosing declaration, or the class some steps up its chain of parents. -/
  | member (steps : Nat)
  /-- The current namespace, or the one some steps around it. -/
  | enclosing (steps : Nat)
  /-- The import at a position. -/
  | imported (position : Nat)
  /-- The root of the kernel. -/
  | kernel
deriving DecidableEq, Repr

/-- `first.Before second`: a lookup comes to `first` before it comes to `second`. -/
def Stop.Before : Stop → Stop → Prop
  | member i, member j => i < j
  | member _, _ => True
  | enclosing _, member _ => False
  | enclosing i, enclosing j => i < j
  | enclosing _, _ => True
  | imported i, imported j => i < j
  | imported _, kernel => True
  | imported _, _ => False
  | kernel, _ => False

section

variable {P : Stop → Prop} {k : Nat}

lemma Stop.forall_before_member (hmember : ∀ j < k, P (.member j)) :
    ∀ stop : Stop, stop.Before (.member k) → P stop
  | .member j, h => hmember j h

lemma Stop.forall_before_enclosing (hmember : ∀ j, P (.member j))
    (henclosing : ∀ j < k, P (.enclosing j)) : ∀ stop : Stop, stop.Before (.enclosing k) → P stop
  | .member j, _ => hmember j
  | .enclosing j, h => henclosing j h

lemma Stop.forall_before_imported (hmember : ∀ j, P (.member j))
    (henclosing : ∀ j, P (.enclosing j)) (himported : ∀ j < k, P (.imported j)) :
    ∀ stop : Stop, stop.Before (.imported k) → P stop
  | .member j, _ => hmember j
  | .enclosing j, _ => henclosing j
  | .imported j, h => himported j h

lemma Stop.forall_before_kernel (hmember : ∀ j, P (.member j))
    (henclosing : ∀ j, P (.enclosing j)) (himported : ∀ j, P (.imported j)) :
    ∀ stop : Stop, stop.Before .kernel → P stop
  | .member j, _ => hmember j
  | .enclosing j, _ => henclosing j
  | .imported j, _ => himported j

end

namespace Context

section

variable (ctx : Context)

/-- The declaration whose members are looked at after some steps. -/
def level? (steps : Nat) : Option DeclId :=
  ctx.within.bind fun own =>
    match own.category with
    | .class => climb ctx.libraries.parent? steps own
    | .struct => if steps = 0 then some own else none
    | _ => none

/-- The namespace at a stop. -/
def spaceAt? : Stop → Option SpaceRef
  | .member _ => none
  | .enclosing steps => ctx.libraries.around? steps ctx.space
  | .imported position => ctx.imports[position]?
  | .kernel => some LibrarySet.kernelRoot

/-- The declarations of a name at a stop, visible or not. -/
def groupAt (name : String) (stop : Stop) : List DeclId :=
  match stop with
  | .member steps => ((ctx.level? steps).bind ctx.libraries.find?).elim [] fun entry =>
      (entry.body.allMembers.filter fun m => m.name = name ∧
        m.category ≠ .constructor).map Symbol.id
  | .enclosing _ | .imported _ | .kernel => (ctx.spaceAt? stop).elim [] (ctx.groupIn name)

/-- Something of the name is visible at the stop, and nothing is at the stops before it. -/
structure IsNearest (name : String) (stop : Stop) : Prop where
  visible : ctx.visible (ctx.groupAt name stop) ≠ []
  hidden : ∀ nearer : Stop, nearer.Before stop → ctx.visible (ctx.groupAt name nearer) = []

end

variable {ctx : Context}

lemma groupAt_of_spaceAt? {name : String} {stop : Stop} {scope : SpaceRef}
    (h : ctx.spaceAt? stop = some scope) : ctx.groupAt name stop = ctx.groupIn name scope := by
  cases stop with
  | member _ => cases h
  | enclosing _ => simp only [groupAt, h, Option.elim_some]
  | imported _ => simp only [groupAt, h, Option.elim_some]
  | kernel => simp only [groupAt, h, Option.elim_some]

/-! ## The searched lists -/

/-- The slots that lead outwards. -/
def outwards (ctx : Context) : List SpaceRef :=
  chain ctx.libraries.outer? (ctx.libraries.spacesOf ctx.space.library) ctx.space

lemma mem_spacesOf_of_mem_outwards {ref : SpaceRef} (h : ref ∈ ctx.outwards) :
    ref ∈ ctx.libraries.spacesOf ctx.space.library :=
  Walk.mem_of_mem_preorder h

/-- The enclosing namespaces are those in the slots of the walk outwards. -/
lemma enclosing_eq : ctx.enclosing = ctx.outwards.filterMap ctx.libraries.bearer? := by
  obtain ⟨set, _, ⟨library, start⟩, _, _, _⟩ := ctx
  unfold enclosing outwards LibrarySet.spacesOf
  dsimp only
  cases hlib : set.get? library with
  | none => rw [Walk.chain_eq, if_neg List.not_mem_nil, List.filterMap_nil]
  | some lib =>
    have hinj : Function.Injective fun space : SpaceId => SpaceRef.mk library space :=
      fun _ _ heq => congrArg SpaceRef.space heq
    have hslots : (lib.spaces.chain start).map (fun space => SpaceRef.mk library space)
        = chain set.outer? ((lib.spaces.live.map Prod.fst).map fun space => ⟨library, space⟩)
          ⟨library, start⟩ := by
      refine (Walk.preorder_map (P := fun _ => True) hinj (fun _ _ _ _ => trivial)
        (fun space _ => ?_) lib.spaces.nodup_map_fst_live (lib.spaces.nodup_map_fst_live.map hinj)
        (fun _ _ => List.mem_map_of_injective hinj) fun _ _ => trivial).symm
      simp only [LibrarySet.outer?, LibrarySet.space?, hlib, Option.bind_some, Arena.parents]
      cases (lib.spaces.get? space).bind Namespace.parent <;> rfl
    simp only [← hslots, List.filterMap_map, Arena.ancestors, List.map_filterMap]
    refine List.filterMap_congr fun slot _ => ?_
    simp only [Option.map_map, Function.comp_apply, LibrarySet.bearer?, LibrarySet.space?, hlib,
      Option.bind_some]
    rfl

/-- The position of a namespace is its number of steps outwards. -/
lemma getElem?_enclosing (i : Nat) :
    ctx.enclosing[i]? = ctx.outwards[i]?.bind ctx.libraries.bearer? := by
  have hall := fun ref (h : ref ∈ ctx.outwards) =>
    LibrarySet.exists_bearer? (mem_spacesOf_of_mem_outwards h)
  rw [enclosing_eq]
  generalize ctx.outwards = refs at hall ⊢
  induction refs generalizing i with
  | nil => rfl
  | cons ref refs ih =>
    obtain ⟨found, hfound⟩ := hall ref List.mem_cons_self
    rw [List.filterMap_cons_some hfound]
    cases i with
    | zero => simp [hfound]
    | succ i => simpa using ih i fun other h => hall other (List.mem_cons_of_mem _ h)

lemma around?_of_enclosing {i : Nat} {scope : SpaceRef} (h : ctx.enclosing[i]? = some scope) :
    ctx.libraries.around? i ctx.space = some scope := by
  rw [getElem?_enclosing] at h
  obtain ⟨ref, href, hfound⟩ := Option.bind_eq_some_iff.1 h
  exact Option.bind_eq_some_iff.2 ⟨ref, climb_of_chain href, hfound⟩

lemma exists_enclosing {k : Nat} {scope : SpaceRef}
    (h : ctx.libraries.around? k ctx.space = some scope) :
    ∃ i ≤ k, ctx.enclosing[i]? = some scope := by
  obtain ⟨ref, href, hfound⟩ := Option.bind_eq_some_iff.1 h
  obtain ⟨space, hspace, -⟩ := Option.map_eq_some_iff.1 hfound
  have hfresh : ∀ j ≤ k, ∀ between, climb ctx.libraries.outer? j ctx.space = some between →
      between ∈ ctx.libraries.spacesOf ctx.space.library := by
    intro j hj between hbetween
    refine LibrarySet.mem_spacesOf.2 ⟨LibrarySet.library_of_climb hbetween, ?_⟩
    rcases Nat.lt_or_eq_of_le hj with hlt | rfl
    · -- A namespace that has another one around it is live.
      obtain ⟨outer, houter⟩ := Walk.exists_climb_of_le href hlt
      rw [climb, hbetween] at houter
      exact (LibrarySet.space?_of_outer? houter).2
    · exact Option.some.inj (href.symm.trans hbetween) ▸ ⟨space, hspace⟩
  obtain ⟨i, hle, hi⟩ := exists_chain href hfresh
  exact ⟨i, hle, by rw [getElem?_enclosing, outwards, hi, Option.bind_some, hfound]⟩

lemma mem_enclosing_iff {scope : SpaceRef} :
    scope ∈ ctx.enclosing ↔ ∃ k, ctx.libraries.around? k ctx.space = some scope := by
  constructor
  · intro h
    obtain ⟨i, hi⟩ := List.mem_iff_getElem?.1 h
    exact ⟨i, around?_of_enclosing hi⟩
  · rintro ⟨k, hk⟩
    obtain ⟨i, -, hi⟩ := exists_enclosing hk
    exact List.mem_of_getElem? hi

lemma exists_spaceAt?_iff {scope : SpaceRef} : (∃ stop, ctx.spaceAt? stop = some scope) ↔
    scope ∈ ctx.enclosing ∨ scope ∈ ctx.imports ∨ scope = LibrarySet.kernelRoot := by
  constructor
  · rintro ⟨stop, hstop⟩
    cases stop with
    | member _ => cases hstop
    | enclosing k => exact Or.inl (mem_enclosing_iff.2 ⟨k, hstop⟩)
    | imported i => exact Or.inr (Or.inl (List.mem_of_getElem? hstop))
    | kernel => exact Or.inr (Or.inr (Option.some.inj hstop).symm)
  · rintro (h | h | rfl)
    · obtain ⟨k, hk⟩ := mem_enclosing_iff.1 h
      exact ⟨.enclosing k, hk⟩
    · obtain ⟨i, hi⟩ := List.mem_iff_getElem?.1 h
      exact ⟨.imported i, hi⟩
    · exact ⟨.kernel, rfl⟩

lemma level?_of_memberLevels {i : Nat} {level : DeclId} (h : ctx.memberLevels[i]? = some level) :
    ctx.level? i = some level := by
  unfold memberLevels at h
  unfold level?
  cases hwithin : ctx.within with
  | none => simp [hwithin] at h
  | some own =>
    simp only [hwithin] at h
    rw [Option.bind_some]
    cases hcategory : own.category <;> simp only [hcategory] at h ⊢
    case struct =>
      cases i with
      | zero => exact h
      | succ i => cases h
    case «class» => exact climb_of_chain (LibrarySet.cons_classAncestors own ▸ h)
    all_goals cases h

lemma exists_memberLevels {k : Nat} {level : DeclId} (h : ctx.level? k = some level) :
    ∃ i ≤ k, ctx.memberLevels[i]? = some level := by
  obtain ⟨own, hwithin, h⟩ := Option.bind_eq_some_iff.1 h
  simp only [memberLevels, hwithin]
  cases hcategory : own.category <;> simp only [hcategory] at h ⊢
  case struct =>
    split at h
    · exact ⟨0, Nat.zero_le k, h⟩
    · cases h
  case «class» =>
    rw [LibrarySet.cons_classAncestors]
    exact exists_chain h fun _ _ _ hb => LibrarySet.mem_parentNodes_of_climb hb
  all_goals cases h

/-! ## The first non-empty list -/

section

variable {α β : Type} {f : α → List β} {xs : List α}

lemma firstNonEmpty_eq_nil_iff : firstNonEmpty f xs = [] ↔ ∀ x ∈ xs, f x = [] := by
  induction xs with
  | nil => simp [firstNonEmpty]
  | cons x xs ih =>
    rw [firstNonEmpty, List.forall_mem_cons, ← ih]
    split
    · next h => simp [List.isEmpty_iff.1 h]
    · next h => simp [List.isEmpty_iff.not.1 h]

lemma firstNonEmpty_append (ys : List α) : firstNonEmpty f (xs ++ ys)
    = if (firstNonEmpty f xs).isEmpty then firstNonEmpty f ys else firstNonEmpty f xs := by
  induction xs with
  | nil => rfl
  | cons x xs ih =>
    rw [List.cons_append, firstNonEmpty, firstNonEmpty, ih]
    by_cases h : (f x).isEmpty <;> simp only [h, if_true, Bool.false_eq_true, if_false]

/-- Whether a repetition at the end is left out makes no difference. -/
lemma firstNonEmpty_addNew [DecidableEq α] (x : α) :
    firstNonEmpty f (addNew xs x) = firstNonEmpty f (xs ++ [x]) := by
  unfold addNew
  split
  · next hmem =>
    rw [firstNonEmpty_append]
    split
    · next h =>
      have hnil := List.isEmpty_iff.1 h
      have hx := firstNonEmpty_eq_nil_iff.1 hnil x hmem
      rw [hnil, firstNonEmpty, if_pos (List.isEmpty_iff.2 hx), firstNonEmpty]
    · rfl
  · rfl

/-- `found` is the first non-empty member of a sequence, or everything is empty. -/
def FirstIn (sequence : Nat → List β) (found : List β) : Prop :=
  (∃ k, sequence k ≠ [] ∧ (∀ j < k, sequence j = []) ∧ found = sequence k) ∨
    (∀ k, sequence k = []) ∧ found = []

lemma firstIn_getElem? (f : α → List β) (xs : List α) :
    FirstIn (fun k => xs[k]?.elim [] f) (firstNonEmpty f xs) := by
  induction xs with
  | nil => exact Or.inr ⟨fun _ => rfl, rfl⟩
  | cons x xs ih =>
    rw [firstNonEmpty]
    by_cases h : f x = []
    · rw [if_pos (List.isEmpty_iff.2 h)]
      rcases ih with ⟨k, hk, hbefore, heq⟩ | ⟨hnone, heq⟩
      · refine Or.inl ⟨k + 1, hk, fun j hj => ?_, heq⟩
        cases j with
        | zero => exact h
        | succ j => exact hbefore j (Nat.lt_of_succ_lt_succ hj)
      · refine Or.inr ⟨fun k => ?_, heq⟩
        cases k with
        | zero => exact h
        | succ k => exact hnone k
    · rw [if_neg (List.isEmpty_iff.not.2 h)]
      exact Or.inl ⟨0, h, fun _ hj => absurd hj (Nat.not_lt_zero _), rfl⟩

/-- A list that follows a sequence, up to members that come again, has the same first member that is
not empty. -/
lemma firstIn_of_follows {at? : Nat → Option α} (hat : ∀ i x, xs[i]? = some x → at? i = some x)
    (hlist : ∀ k x, at? k = some x → ∃ i ≤ k, xs[i]? = some x) :
    FirstIn (fun k => (at? k).elim [] f) (firstNonEmpty f xs) := by
  -- What is not empty in the sequence stands in the list, not behind its place in the sequence.
  have hin : ∀ k, (at? k).elim [] f ≠ [] → ∃ i ≤ k, xs[i]?.elim [] f ≠ [] := by
    intro k hk
    cases hx : at? k with
    | none => simp [hx] at hk
    | some x =>
      rw [hx, Option.elim_some] at hk
      obtain ⟨i, hle, hi⟩ := hlist k x hx
      exact ⟨i, hle, by rwa [hi, Option.elim_some]⟩
  rcases firstIn_getElem? f xs with ⟨k, hk, hbefore, heq⟩ | ⟨hnone, heq⟩
  · cases hx : xs[k]? with
    | none => simp [hx] at hk
    | some x =>
      have hk' : (at? k).elim [] f = xs[k]?.elim [] f := by rw [hat k x hx, hx]
      refine Or.inl ⟨k, fun hnil => hk (hk'.symm.trans hnil), fun j hj => ?_, heq.trans hk'.symm⟩
      by_contra hne
      obtain ⟨i, hle, hi⟩ := hin j hne
      exact hi (hbefore i (Nat.lt_of_le_of_lt hle hj))
  · refine Or.inr ⟨fun k => ?_, heq⟩
    by_contra hne
    obtain ⟨i, -, hi⟩ := hin k hne
    exact hi (hnone i)

end

/-! ## Stop by stop -/

section

variable {β : Type} {family : Stop → List β}

/-- `found` is what a family over the stops has at the first stop where it has anything, or it has
nothing anywhere. -/
def FirstAt (family : Stop → List β) (found : List β) : Prop :=
  (∃ stop, family stop ≠ [] ∧ (∀ nearer : Stop, nearer.Before stop → family nearer = []) ∧
    found = family stop) ∨
  (∀ stop, family stop = []) ∧ found = []

/-- The stops are passed one kind after the other. -/
lemma firstAt_of_firstIn {members enclosing imported : List β}
    (hmembers : FirstIn (fun k => family (.member k)) members)
    (henclosing : FirstIn (fun k => family (.enclosing k)) enclosing)
    (himported : FirstIn (fun k => family (.imported k)) imported) :
    FirstAt family <|
      if members = [] then
        if enclosing = [] then if imported = [] then family .kernel else imported else enclosing
      else members := by
  -- In the order of the search: members, enclosing namespaces, imports, kernel.
  rcases hmembers with ⟨k, hk, hbefore, rfl⟩ | ⟨hmembers, rfl⟩
  · rw [if_neg hk]
    exact Or.inl ⟨.member k, hk, Stop.forall_before_member hbefore, rfl⟩
  rw [if_pos rfl]
  rcases henclosing with ⟨k, hk, hbefore, rfl⟩ | ⟨henclosing, rfl⟩
  · rw [if_neg hk]
    exact Or.inl ⟨.enclosing k, hk, Stop.forall_before_enclosing hmembers hbefore, rfl⟩
  rw [if_pos rfl]
  rcases himported with ⟨k, hk, hbefore, rfl⟩ | ⟨himported, rfl⟩
  · rw [if_neg hk]
    exact Or.inl ⟨.imported k, hk, Stop.forall_before_imported hmembers henclosing hbefore, rfl⟩
  rw [if_pos rfl]
  by_cases hkernel : family .kernel = []
  · refine Or.inr ⟨fun stop => ?_, hkernel⟩
    cases stop with
    | member j => exact hmembers j
    | enclosing j => exact henclosing j
    | imported j => exact himported j
    | kernel => exact hkernel
  · exact Or.inl
      ⟨.kernel, hkernel, Stop.forall_before_kernel hmembers henclosing himported, rfl⟩

/-- The enclosing namespaces are searched nearest first. -/
lemma firstIn_enclosing {f : SpaceRef → List β} :
    FirstIn (fun k => (ctx.spaceAt? (.enclosing k)).elim [] f) (firstNonEmpty f ctx.enclosing) :=
  firstIn_of_follows (fun _ _ => around?_of_enclosing) fun _ _ => exists_enclosing

/-- The searched namespaces are the enclosing ones, the imports and the kernel, in this order. -/
lemma firstNonEmpty_searchScopes (f : SpaceRef → List β) : firstNonEmpty f ctx.searchScopes =
    if firstNonEmpty f ctx.enclosing = [] then
      if firstNonEmpty f ctx.imports = [] then f LibrarySet.kernelRoot
      else firstNonEmpty f ctx.imports
    else firstNonEmpty f ctx.enclosing := by
  have hkernel : firstNonEmpty f [LibrarySet.kernelRoot] = f LibrarySet.kernelRoot := by
    rw [firstNonEmpty, firstNonEmpty]
    split
    · next h => exact (List.isEmpty_iff.1 h).symm
    · rfl
  simp only [searchScopes, importScopes, firstNonEmpty_append, firstNonEmpty_addNew, hkernel,
    List.isEmpty_iff]

/-- What is asked of every searched namespace is answered by the first stop that has an answer. -/
lemma firstAt_searchScopes (ctx : Context) (f : SpaceRef → List β) :
    FirstAt (fun stop => (ctx.spaceAt? stop).elim [] f) (firstNonEmpty f ctx.searchScopes) := by
  rw [firstNonEmpty_searchScopes]
  exact firstAt_of_firstIn (Or.inr ⟨fun _ => rfl, rfl⟩) firstIn_enclosing (firstIn_getElem? ..)

end

/-! ## The rule -/

/-- Members are looked up at the levels, nearest first. -/
lemma firstIn_members (name : String) :
    FirstIn (fun k => ctx.visible (ctx.groupAt name (.member k))) (ctx.findMember name) := by
  have hsame : (fun k => ctx.visible (ctx.groupAt name (.member k)))
      = fun k => (ctx.level? k).elim [] (ctx.membersAt name) := by
    funext k
    cases hlevel : ctx.level? k with
    | none => simp [groupAt, hlevel, visible]
    | some level =>
      cases hentry : ctx.libraries.find? level with
      | none => simp [groupAt, hlevel, hentry, membersAt, visible]
      | some entry => simp [groupAt, hlevel, hentry, membersAt, Entry.membersNamed]
  rw [hsame]
  exact firstIn_of_follows (fun _ _ => level?_of_memberLevels) fun _ _ => exists_memberLevels

lemma visible_elim (name : String) (scope? : Option SpaceRef) :
    ctx.visible (scope?.elim [] (ctx.groupIn name))
      = scope?.elim [] fun scope => ctx.visible (ctx.groupIn name scope) := by
  cases scope? <;> rfl

/-- A lookup returns what is visible at the first stop where anything is. -/
lemma firstAt_find (ctx : Context) (name : Ident) :
    FirstAt (fun stop => ctx.visible (ctx.groupAt name.name stop)) (ctx.find name).1 := by
  have hfound : (ctx.find name).1 =
      if ctx.findMember name.name = [] then ctx.findInScopes name.name
      else ctx.findMember name.name := by
    unfold find
    by_cases h : ctx.findMember name.name = [] <;> simp [h]
  rw [hfound, findInScopes, firstNonEmpty_searchScopes]
  refine firstAt_of_firstIn (ctx.firstIn_members name.name) ?_ ?_
  · simpa only [groupAt, visible_elim] using firstIn_enclosing
  · simpa only [groupAt, visible_elim, spaceAt?] using firstIn_getElem? ..

/-- A lookup makes its report if it returns nothing. -/
lemma find_snd (name : Ident) :
    (ctx.find name).2 = if (ctx.find name).1 = [] then [ctx.reportMissing name] else [] := by
  unfold find
  by_cases h : ctx.findMember name.name = [] <;> simp [h]

/-- A lookup finds what is visible at the nearest stop, or makes its report. -/
lemma find_cases (ctx : Context) (name : Ident) :
    (∃ stop, ctx.IsNearest name.name stop ∧
      ctx.find name = (ctx.visible (ctx.groupAt name.name stop), [])) ∨
    (∀ stop, ctx.visible (ctx.groupAt name.name stop) = []) ∧
      ctx.find name = ([], [ctx.reportMissing name]) := by
  rcases ctx.firstAt_find name with ⟨stop, hvisible, hbefore, hfound⟩ | ⟨hnone, hfound⟩
  · exact Or.inl ⟨stop, ⟨hvisible, hbefore⟩,
      Prod.ext hfound (by rw [find_snd, hfound, if_neg hvisible])⟩
  · exact Or.inr ⟨hnone, Prod.ext hfound (by rw [find_snd, hfound, if_pos rfl])⟩

lemma find_ne_nil_iff {name : Ident} : (ctx.find name).1 ≠ [] ↔
    ∃ stop, ctx.visible (ctx.groupAt name.name stop) ≠ [] := by
  rcases ctx.find_cases name with ⟨stop, hnearest, hfind⟩ | ⟨hnone, hfind⟩
  · exact ⟨fun _ => ⟨stop, hnearest.visible⟩, fun _ => hfind ▸ hnearest.visible⟩
  · rw [hfind]
    exact ⟨fun h => absurd rfl h, fun ⟨stop, h⟩ => absurd (hnone stop) h⟩

/-! ## The report -/

lemma mem_groupAt_namespace_iff {name : String} {id : DeclId} :
    (∃ stop scope, ctx.spaceAt? stop = some scope ∧ id ∈ ctx.groupAt name stop) ↔
      ∃ scope, (scope ∈ ctx.enclosing ∨ scope ∈ ctx.imports ∨ scope = LibrarySet.kernelRoot) ∧
        id ∈ ctx.groupIn name scope := by
  constructor
  · rintro ⟨stop, scope, hscope, hid⟩
    rw [groupAt_of_spaceAt? hscope] at hid
    exact ⟨scope, exists_spaceAt?_iff.1 ⟨stop, hscope⟩, hid⟩
  · rintro ⟨scope, hsearched, hid⟩
    obtain ⟨stop, hscope⟩ := exists_spaceAt?_iff.2 hsearched
    exact ⟨stop, scope, hscope, (groupAt_of_spaceAt? hscope).symm ▸ hid⟩

lemma mem_searchScopes {scope : SpaceRef} : scope ∈ ctx.searchScopes ↔
    scope ∈ ctx.enclosing ∨ scope ∈ ctx.imports ∨ scope = LibrarySet.kernelRoot := by
  rw [searchScopes, importScopes, List.mem_append, mem_addNew]

/-- The report on a hidden declaration reads differently from that on a missing one. -/
lemma notFound_message_ne (name : Ident) (what : String) (suggestion : Option String) :
    (Message.notFound name what suggestion).message ≠ (Message.notAccessible name).message := by
  intro h
  have hhead := congrArg (fun message : String => message.toList.head?) h
  simp [Message.notFound, Message.notAccessible, Diagnostic.error, toString] at hhead

lemma any_groupIn_iff {name : String} :
    (ctx.searchScopes.any fun scope => !(ctx.groupIn name scope).isEmpty) = true ↔
      ∃ stop scope, ctx.spaceAt? stop = some scope ∧ ctx.groupAt name stop ≠ [] := by
  simp only [List.any_eq_true, mem_searchScopes, Bool.not_eq_true', List.isEmpty_eq_false_iff]
  constructor
  · rintro ⟨scope, hsearched, hne⟩
    obtain ⟨id, hid⟩ := List.exists_mem_of_ne_nil _ hne
    obtain ⟨stop, scope, hscope, hid⟩ := mem_groupAt_namespace_iff.2 ⟨scope, hsearched, hid⟩
    exact ⟨stop, scope, hscope, List.ne_nil_of_mem hid⟩
  · rintro ⟨stop, scope, hscope, hne⟩
    obtain ⟨id, hid⟩ := List.exists_mem_of_ne_nil _ hne
    obtain ⟨scope, hsearched, hid⟩ := mem_groupAt_namespace_iff.1 ⟨stop, scope, hscope, hid⟩
    exact ⟨scope, hsearched, List.ne_nil_of_mem hid⟩

/-- The report is that on a hidden declaration if some searched namespace has one of the name. -/
lemma reportMissing_cases (ctx : Context) (name : Ident) :
    (ctx.reportMissing name = Message.notAccessible name ∧
      ∃ stop scope, ctx.spaceAt? stop = some scope ∧ ctx.groupAt name.name stop ≠ []) ∨
    (∃ suggestion, ctx.reportMissing name = Message.notFound name "declaration" suggestion) ∧
      ¬ ∃ stop scope, ctx.spaceAt? stop = some scope ∧ ctx.groupAt name.name stop ≠ [] := by
  unfold reportMissing
  split
  · next h => exact Or.inl ⟨rfl, any_groupIn_iff.1 h⟩
  · next h => exact Or.inr ⟨⟨_, rfl⟩, any_groupIn_iff.not.1 h⟩

/-- A lookup returns what is visible at the nearest stop where anything is, without a report.  If
there is no such stop, it returns nothing and makes one report, which says that the name is not
accessible exactly if one of the namespaces has a declaration of the name. -/
theorem find_nearest (ctx : Context) (name : Ident) :
    (∃ stop, ctx.IsNearest name.name stop ∧
      ctx.find name = (ctx.visible (ctx.groupAt name.name stop), [])) ∨
    (∀ stop, ctx.visible (ctx.groupAt name.name stop) = []) ∧
      ∃ note, ctx.find name = ([], [note]) ∧
        note.severity = .error ∧ note.code = .notFound ∧ note.range = name.range ∧
        (note.message = s!"`{name.name}` is not accessible here" ↔
          ∃ stop scope, ctx.spaceAt? stop = some scope ∧ ctx.groupAt name.name stop ≠ []) := by
  refine (ctx.find_cases name).imp id fun ⟨hnone, hfind⟩ => ⟨hnone, _, hfind, ?_⟩
  rcases ctx.reportMissing_cases name with ⟨heq, hhidden⟩ | ⟨⟨suggestion, heq⟩, hmissing⟩
  · rw [heq]
    exact ⟨rfl, rfl, rfl, fun _ => hhidden, fun _ => rfl⟩
  · rw [heq]
    exact ⟨rfl, rfl, rfl, fun h => (notFound_message_ne _ _ _ h).elim, fun h => absurd h hmissing⟩

/-! ## Further inside -/

/-- The same context in another namespace. -/
def inSpace (ctx : Context) (space : SpaceRef) : Context := { ctx with space }

lemma withinSpaceOf_iff {entry : Entry} : ctx.withinSpaceOf entry = true ↔
    entry.id.library = ctx.space.library ∧
      (⟨ctx.space.library, entry.space⟩ : SpaceRef) ∈ ctx.enclosing := by
  unfold withinSpaceOf enclosing
  cases ctx.libraries.get? ctx.space.library <;> simp [Arena.isWithin]

section

variable {inner : SpaceRef} {k : Nat} (hinner : climb ctx.libraries.outer? k inner = some ctx.space)

include hinner

lemma around?_inSpace (steps : Nat) : ctx.libraries.around? (steps + k) inner
    = ctx.libraries.around? steps ctx.space :=
  congrArg (Option.bind · ctx.libraries.bearer?) (Walk.climb_add hinner)

lemma mem_enclosing_inSpace {scope : SpaceRef} (h : scope ∈ ctx.enclosing) :
    scope ∈ (ctx.inSpace inner).enclosing := by
  obtain ⟨j, hj⟩ := mem_enclosing_iff.1 h
  exact mem_enclosing_iff.2 ⟨j + k, (around?_inSpace hinner j).trans hj⟩

lemma withinSpaceOf_inSpace {entry : Entry} (h : ctx.withinSpaceOf entry = true) :
    (ctx.inSpace inner).withinSpaceOf entry = true := by
  obtain ⟨hlibrary, hmem⟩ := withinSpaceOf_iff.1 h
  rw [LibrarySet.library_of_climb hinner] at hlibrary hmem
  exact withinSpaceOf_iff.2 ⟨hlibrary, mem_enclosing_inSpace hinner hmem⟩

lemma seesLocal_inSpace {entry : Entry} (h : ctx.seesLocal entry = true) :
    (ctx.inSpace inner).seesLocal entry = true := by
  unfold seesLocal at h ⊢
  split at h
  · rfl
  · rfl
  · exact withinSpaceOf_inSpace hinner h
  · exact h
  · exact h

lemma seesLocalMember_inSpace {member owner : Entry} (h : ctx.seesLocalMember member owner = true) :
    (ctx.inSpace inner).seesLocalMember member owner = true := by
  unfold seesLocalMember at h ⊢
  rw [Bool.or_eq_true, Bool.and_eq_true] at h ⊢
  refine h.imp id fun ⟨howner, hmember⟩ => ⟨seesLocal_inSpace hinner howner, ?_⟩
  split at hmember
  · rfl
  · rfl
  · exact withinSpaceOf_inSpace hinner hmember
  · exact hmember
  · exact hmember

/-- What is visible in a namespace is visible further inside. -/
lemma isVisible_inSpace {id : DeclId} (h : ctx.isVisible id = true) :
    (ctx.inSpace inner).isVisible id = true := by
  have hlibrary : ctx.space.library = (ctx.inSpace inner).space.library :=
    LibrarySet.library_of_climb hinner
  have hlibraries : (ctx.inSpace inner).libraries = ctx.libraries := rfl
  unfold isVisible at h ⊢
  rw [Bool.or_eq_true] at h ⊢
  refine h.imp_right fun h => ?_
  rw [hlibraries, ← hlibrary]
  cases hentry : ctx.libraries.find? id with
  | none => simp [hentry] at h
  | some entry =>
    simp only [hentry] at h ⊢
    -- Only local visibility asks for the namespace, and it is kept further inside.
    cases howner : id.owner? with
    | none =>
      simp only [howner] at h ⊢
      split at h
      · next hlocal => exact (if_pos hlocal).trans (seesLocal_inSpace hinner h)
      · next hforeign => exact (if_neg hforeign).trans h
    | some ownerId =>
      simp only [howner] at h ⊢
      cases hown : ctx.libraries.find? ownerId with
      | none => simp [hown] at h
      | some owner =>
        simp only [hown] at h ⊢
        split at h
        · next hlocal => exact (if_pos hlocal).trans (seesLocalMember_inSpace hinner h)
        · next hforeign => exact (if_neg hforeign).trans h

/-- Every stop of the outer context is a stop of the inner one. -/
lemma exists_groupAt_inSpace (name : String) (stop : Stop) :
    ∃ stop', (ctx.inSpace inner).groupAt name stop' = ctx.groupAt name stop := by
  cases stop with
  | member steps => exact ⟨.member steps, rfl⟩
  | enclosing steps =>
    refine ⟨.enclosing (steps + k), ?_⟩
    have hscope : (ctx.inSpace inner).spaceAt? (.enclosing (steps + k))
        = ctx.spaceAt? (.enclosing steps) :=
      around?_inSpace hinner steps
    simp only [groupAt, hscope]
    rfl
  | imported position => exact ⟨.imported position, rfl⟩
  | kernel => exact ⟨.kernel, rfl⟩

end

/-- Further inside, everything stays visible that is visible outside, and every name is found that
is found outside, though it may mean something else. -/
theorem nesting_keeps_names (ctx : Context) {inner : SpaceRef} {k : Nat}
    (hinner : climb ctx.libraries.outer? k inner = some ctx.space) :
    (∀ id, ctx.isVisible id = true → (ctx.inSpace inner).isVisible id = true) ∧
      ∀ name, (ctx.find name).1 ≠ [] → ((ctx.inSpace inner).find name).1 ≠ [] := by
  refine ⟨fun id => isVisible_inSpace hinner, fun name hfound => ?_⟩
  obtain ⟨stop, hstop⟩ := find_ne_nil_iff.1 hfound
  obtain ⟨id, hid⟩ := List.exists_mem_of_ne_nil _ hstop
  obtain ⟨hgroup, hvisible⟩ := (mem_visible ..).1 hid
  obtain ⟨stop', hstop'⟩ := exists_groupAt_inSpace hinner name.name stop
  refine find_ne_nil_iff.2 ⟨stop', List.ne_nil_of_mem (a := id) ?_⟩
  exact (mem_visible ..).2 ⟨hstop' ▸ hgroup, isVisible_inSpace hinner hvisible⟩

/-- A function that is visible in its namespace and below it. -/
def counter : Entry :=
  .new ⟨"count", ⟨⟨2, 9⟩, ⟨2, 14⟩⟩⟩ "store.rk" 1 ⟨.project, .function, 0, none⟩ .space

/-- A project with this function in the namespace `store`, which has another one inside. -/
def store : LibrarySet :=
  { LibrarySet.new "demo" "kernel" with
    project := { Library.new .project "demo" with
      spaces := ((Arena.new "demo").openPath Arena.root ["store", "shelf"]).2.declare 1 "count"
        counter.id
      tables := [(.function, [some counter])] } }

/-- A document that looks up names in the namespace `store`. -/
def inStore : Context := { libraries := store, document := "shelf.rk", space := ⟨.project, 1⟩ }

/-- The name of the function, as a program writes it. -/
def count : Ident := ⟨"count", ⟨⟨4, 2⟩, ⟨4, 7⟩⟩⟩

lemma visible_count : inStore.visible (inStore.groupAt count.name (.enclosing 0)) ≠ [] := by
  have hgroup : counter.id ∈ inStore.groupAt count.name (.enclosing 0) := by decide
  have hwithin : inStore.withinSpaceOf counter = true :=
    withinSpaceOf_iff.2 ⟨rfl, mem_enclosing_iff.2 ⟨0, rfl⟩⟩
  have hvisible : inStore.isVisible counter.id = true := hwithin
  exact List.ne_nil_of_mem ((mem_visible ..).2 ⟨hgroup, hvisible⟩)

lemma find_count_ne_nil : (inStore.find count).1 ≠ [] :=
  find_ne_nil_iff.2 ⟨.enclosing 0, visible_count⟩

theorem nesting_keeps_count :
    climb inStore.libraries.outer? 1 ⟨.project, 2⟩ = some inStore.space ∧
    (inStore.find count).1 ≠ [] ∧ ((inStore.inSpace ⟨.project, 2⟩).find count).1 ≠ [] := by
  have hinner : climb inStore.libraries.outer? 1 ⟨.project, 2⟩ = some inStore.space := by decide
  exact ⟨hinner, find_count_ne_nil, (nesting_keeps_names inStore hinner).2 _ find_count_ne_nil⟩

/-! ## Operators -/

lemma mem_operations {name : String} {id : DeclId} : id ∈ ctx.operations name ↔
    ctx.isVisible id = true ∧
      ∃ stop scope, ctx.spaceAt? stop = some scope ∧ id ∈ ctx.groupAt name stop := by
  rw [mem_groupAt_namespace_iff, operations, mem_addAllNew]
  simp only [List.not_mem_nil, false_or, List.mem_flatMap, mem_visible]
  constructor
  · rintro ⟨scope, hscope, hid, hvisible⟩
    refine ⟨hvisible, scope, ?_, hid⟩
    simpa [or_comm, or_left_comm, or_assoc] using hscope
  · rintro ⟨hvisible, scope, hscope, hid⟩
    refine ⟨scope, ?_, hid, hvisible⟩
    simpa [or_comm, or_left_comm, or_assoc] using hscope

/-- The lookup of operators lists, each once, the visible declarations of the name in all namespaces
at once.  Where no member hides the name, it contains what the lookup of simple names returns. -/
theorem operations_cover (ctx : Context) (name : Ident) :
    (ctx.operations name.name).Nodup ∧
    (∀ id, id ∈ ctx.operations name.name ↔ ctx.isVisible id = true ∧
      ∃ stop scope, ctx.spaceAt? stop = some scope ∧ id ∈ ctx.groupAt name.name stop) ∧
    ((∀ steps, ctx.visible (ctx.groupAt name.name (.member steps)) = []) →
      ∀ id ∈ (ctx.find name).1, id ∈ ctx.operations name.name) := by
  refine ⟨nodup_addAllNew List.nodup_nil _, fun id => mem_operations, fun hmembers id hid => ?_⟩
  rcases ctx.find_cases name with ⟨stop, hnearest, hfind⟩ | ⟨-, hfind⟩
  · rw [hfind] at hid
    obtain ⟨hgroup, hvisible⟩ := (mem_visible ..).1 hid
    refine mem_operations.2 ⟨hvisible, stop, ?_⟩
    cases hstop : ctx.spaceAt? stop with
    | some scope => exact ⟨scope, rfl, hgroup⟩
    | none =>
      exfalso
      cases stop with
      | member steps => exact hnearest.visible (hmembers steps)
      | enclosing _ | imported _ | kernel => simp [groupAt, hstop] at hgroup
  · rw [hfind] at hid
    cases hid

theorem operations_cover_count :
    (∀ steps, inStore.visible (inStore.groupAt count.name (.member steps)) = []) ∧
    ∃ id ∈ (inStore.find count).1, id ∈ inStore.operations count.name := by
  have hmembers : ∀ steps, inStore.visible (inStore.groupAt count.name (.member steps)) = [] :=
    fun _ => rfl
  obtain ⟨id, hid⟩ := List.exists_mem_of_ne_nil _ find_count_ne_nil
  exact ⟨hmembers, id, hid, (operations_cover inStore count).2.2 hmembers id hid⟩

end Context

end SymbolGraph
