import SymbolGraph.Proofs.Lookup.NearestName

/-!
# Dotted names

A dotted name `first.middle.last` is looked up by a walk.  Its leading segment means a namespace
(`Context.IsLeading`), every further segment but the last the child of exactly this name, and the
last one the visible declarations of the name in the namespace at the end.  The walk may end early;
`Context.IsWalk` says that the result holds the namespaces up to there, and no others.

Whatever happens, the reports tell it (`Context.Reports`): a result without declarations comes with
one report at the segment that has failed, a result with declarations comes with none, and a leading
segment that may mean several namespaces outside is reported as ambiguous once.

The leading segment is the one that has to be chosen: the nearest enclosing namespace that has such
a child decides, and if there is none, the first of the `outsiders` does.
-/

namespace SymbolGraph

lemma head?_addAllNew {α : Type} [DecidableEq α] (xs ys : List α) :
    (addAllNew xs ys).head? = (xs ++ ys).head? := by
  induction ys generalizing xs with
  | nil => simp [addAllNew]
  | cons y ys ih =>
    refine (ih (addNew xs y)).trans ?_
    unfold addNew
    split
    · next hmem =>
      obtain ⟨x, xs, rfl⟩ := List.exists_cons_of_ne_nil (List.ne_nil_of_mem hmem)
      rfl
    · rw [List.append_assoc, List.singleton_append]

lemma one_lt_length_iff_of_nodup {α : Type} {xs : List α} (h : xs.Nodup) :
    1 < xs.length ↔ ∃ a ∈ xs, ∃ b ∈ xs, a ≠ b := by
  match xs, h with
  | [], _ => simp
  | [x], _ => simp
  | x :: y :: xs, h =>
    have hne : x ≠ y := fun heq => (List.nodup_cons.1 h).1 (heq ▸ List.mem_cons_self)
    simp only [List.length_cons, Nat.lt_add_left_iff_pos, Nat.zero_lt_succ, true_iff]
    exact ⟨x, List.mem_cons_self, y, List.mem_cons_of_mem _ List.mem_cons_self, hne⟩

namespace Context

section

variable (ctx : Context)

/-! ## What the leading segment means -/

/-- No enclosing namespace has a child of this name. -/
def Unenclosed (name : String) : Prop :=
  ∀ k scope, ctx.libraries.around? k ctx.space = some scope →
    ctx.libraries.child? scope name = none

/-- The namespaces outside that have this name: the children of the imports in their order, the root
of the library of this name, and the child of the root of the kernel. -/
def outsiders (name : String) : List SpaceRef :=
  ctx.imports.filterMap (fun scope => ctx.libraries.child? scope name) ++
    ((ctx.libraries.named? name).bind ctx.libraries.root?).toList ++
    (ctx.libraries.child? LibrarySet.kernelRoot name).toList

/-- Several namespaces outside have this name. -/
def Contested (name : String) : Prop :=
  ∃ space ∈ ctx.outsiders name, ∃ other ∈ ctx.outsiders name, space ≠ other

/-- The leading segment means the child of the nearest enclosing namespace that has one of the name,
or the first namespace outside. -/
structure IsLeading (name : String) (space? : Option SpaceRef) : Prop where
  enclosed : ∀ k scope found, ctx.libraries.around? k ctx.space = some scope →
    ctx.libraries.child? scope name = some found →
    (∀ j < k, ∀ nearer, ctx.libraries.around? j ctx.space = some nearer →
      ctx.libraries.child? nearer name = none) →
    space? = some found
  outside : ctx.Unenclosed name → space? = (ctx.outsiders name).head?

/-! ## What a dotted lookup returns -/

/-- The namespaces of the result are those that the segments lead to, one after the other, as long
as there are any, each with the range of its segment.  The declarations are those that the last
segment means in the namespace that all other segments lead to. -/
structure IsWalk (first : Ident) (middle : List Ident) (last : Ident) (result : PathResolution) :
    Prop where
  head : result.spaces.head? = (ctx.findSpace first).1.map fun space => (first.range, space)
  step : ∀ i, result.spaces[i + 1]? = do
    let (_, above) ← result.spaces[i]?
    let segment ← middle[i]?
    let below ← ctx.libraries.child? above segment.name
    return (segment.range, below)
  declarations : result.declarations =
    if result.spaces.length = middle.length + 1 then
      result.spaces.getLast?.elim [] fun (_, target) => ctx.visible (ctx.groupIn last.name target)
    else []

/-- The reports that come with the result. -/
structure Reports (first : Ident) (middle : List Ident) (last : Ident) (result : PathResolution)
    (notes : List Diagnostic) : Prop where
  errors : ∀ note ∈ notes,
    note.severity = .error ∧ (note.code = .notFound ∨ note.code = .ambiguous)
  /-- What is missing is the first segment that the walk did not come to. -/
  missing : result.declarations = [] → ∃ note segment, notes.filter (·.code = .notFound) = [note] ∧
    (first :: middle ++ [last])[result.spaces.length]? = some segment ∧ note.range = segment.range
  found : result.declarations ≠ [] → notes.filter (·.code = .notFound) = []
  ambiguous_once : (notes.filter (·.code = .ambiguous)).length ≤ 1
  ambiguous_iff : (∃ note ∈ notes, note.code = .ambiguous) ↔
    ctx.Unenclosed first.name ∧ ctx.Contested first.name

end

variable {ctx : Context}

/-! ## The leading segment -/

lemma unenclosed_iff {name : String} : ctx.Unenclosed name ↔
    ctx.enclosing.findSome? (fun scope => ctx.libraries.child? scope name) = none := by
  rw [List.findSome?_eq_none_iff]
  constructor
  · intro h scope hscope
    obtain ⟨k, hk⟩ := mem_enclosing_iff.1 hscope
    exact h k scope hk
  · intro h k scope hk
    exact h scope (mem_enclosing_iff.2 ⟨k, hk⟩)

/-- The nearest enclosing namespace with such a child is the first in the list. -/
lemma findSome?_enclosing {name : String} {k : Nat} {scope found : SpaceRef}
    (hscope : ctx.libraries.around? k ctx.space = some scope)
    (hfound : ctx.libraries.child? scope name = some found)
    (hnearest : ∀ j < k, ∀ nearer, ctx.libraries.around? j ctx.space = some nearer →
      ctx.libraries.child? nearer name = none) :
    ctx.enclosing.findSome? (fun scope => ctx.libraries.child? scope name) = some found := by
  obtain ⟨i, hle, hi⟩ := exists_enclosing hscope
  obtain ⟨hlt, hget⟩ := List.getElem?_eq_some_iff.1 hi
  refine List.findSome?_eq_some_iff.2
    ⟨ctx.enclosing.take i, scope, ctx.enclosing.drop (i + 1), ?_, hfound, fun nearer hnearer => ?_⟩
  · rw [← hget, List.getElem_cons_drop, List.take_append_drop]
  · obtain ⟨j, hj, rfl⟩ := List.mem_take_iff_getElem.1 hnearer
    have hji : j < i := Nat.lt_of_lt_of_le hj (Nat.min_le_left ..)
    exact hnearest j (Nat.lt_of_lt_of_le hji hle) _
      (around?_of_enclosing (List.getElem?_eq_getElem (Nat.lt_trans hji hlt)))

lemma isLeading_findSpace (ctx : Context) (name : Ident) :
    ctx.IsLeading name.name (ctx.findSpace name).1 where
  enclosed k scope found hscope hfound hnearest := by
    rw [findSpace, findSome?_enclosing hscope hfound hnearest]
  outside hnone := by
    rw [findSpace, unenclosed_iff.1 hnone]
    exact head?_addAllNew [] (ctx.outsiders name.name)

/-- The leading segment is reported as ambiguous, once, if it has to be looked for outside and
several namespaces there have the name. -/
lemma findSpace_notes (ctx : Context) (name : Ident) :
    (∀ note ∈ (ctx.findSpace name).2, note.severity = .error ∧ note.code = .ambiguous) ∧
    (ctx.findSpace name).2.length ≤ 1 ∧
    ((ctx.findSpace name).2 ≠ [] ↔ ctx.Unenclosed name.name ∧ ctx.Contested name.name) := by
  have hcontested : 1 < (ctx.spaceCandidates name.name).length ↔ ctx.Contested name.name := by
    rw [spaceCandidates, one_lt_length_iff_of_nodup (nodup_addAllNew List.nodup_nil _)]
    simp only [mem_addAllNew, List.not_mem_nil, false_or]
    rfl
  rw [unenclosed_iff, ← hcontested, findSpace]
  cases ctx.enclosing.findSome? fun scope => ctx.libraries.child? scope name.name with
  | some found => simp
  | none =>
    by_cases h : 1 < (ctx.spaceCandidates name.name).length
    · simp [h, Message.ambiguousSpace, Diagnostic.relatedTo, Diagnostic.error]
    · simp [h]

/-! ## The walk -/

/-- A descent takes, from a namespace, one step for each segment, as long as it finds a child. -/
lemma step_descend (range : Range) (space : SpaceRef) (segments : List Ident) (i : Nat) :
    ((range, space) :: (ctx.descend space segments).1)[i + 1]? = do
      let (_, above) ← ((range, space) :: (ctx.descend space segments).1)[i]?
      let segment ← segments[i]?
      let below ← ctx.libraries.child? above segment.name
      return (segment.range, below) := by
  induction segments generalizing range space i with
  | nil => simp [descend]
  | cons segment rest ih =>
    rw [descend]
    cases hchild : ctx.libraries.child? space segment.name with
    | none =>
      cases i with
      | zero => simp [hchild]
      | succ i => simp
    | some child =>
      cases i with
      | zero => simp [hchild]
      | succ i => exact ih segment.range child i

/-- A descent comes to the end, or names the segment that it did not come to. -/
lemma descend_cases (range : Range) (space : SpaceRef) (segments : List Ident) :
    (∃ target, (ctx.descend space segments).2 = .ok target ∧
      (ctx.descend space segments).1.length = segments.length ∧
      ∃ at?, ((range, space) :: (ctx.descend space segments).1).getLast? = some (at?, target)) ∨
    ∃ segment, (ctx.descend space segments).2 = .error segment ∧
      segments[(ctx.descend space segments).1.length]? = some segment := by
  induction segments generalizing range space with
  | nil => exact Or.inl ⟨space, rfl, rfl, range, rfl⟩
  | cons segment rest ih =>
    rw [descend]
    cases hchild : ctx.libraries.child? space segment.name with
    | none => exact Or.inr ⟨segment, rfl, rfl⟩
    | some child =>
      rcases ih segment.range child with
        ⟨target, hok, hlength, at?, hlast⟩ | ⟨missed, herror, hmissed⟩
      · exact Or.inl ⟨target, hok, congrArg Nat.succ hlength, at?, hlast⟩
      · exact Or.inr ⟨missed, herror, hmissed⟩

/-- A missing name is reported where the walk has stopped. -/
def Missed (path : List Ident) (result : PathResolution) (notes : List Diagnostic) : Prop :=
  result.declarations ≠ [] ∧ notes = [] ∨
  result.declarations = [] ∧ ∃ note segment, notes = [note] ∧
    note.severity = .error ∧ note.code = .notFound ∧
    path[result.spaces.length]? = some segment ∧ note.range = segment.range

lemma findIn_missed (ctx : Context) (space : SpaceRef) (name : Ident) :
    (ctx.findIn space name).1 ≠ [] ∧ (ctx.findIn space name).2 = [] ∨
    (ctx.findIn space name).1 = [] ∧ ∃ note, (ctx.findIn space name).2 = [note] ∧
      note.severity = .error ∧ note.code = .notFound ∧ note.range = name.range := by
  unfold findIn
  by_cases hvisible : ctx.visible (ctx.groupIn name.name space) = []
  · refine Or.inr ⟨hvisible, ?_⟩
    simp only [hvisible, List.isEmpty_nil, Bool.not_true, Bool.false_eq_true, if_false]
    split
    · exact ⟨_, rfl, rfl, rfl, rfl⟩
    · exact ⟨_, rfl, rfl, rfl, rfl⟩
  · exact Or.inl ⟨hvisible, by simp [hvisible]⟩

/-- A lookup behind a leading segment is a walk, and its reports are those on the leading segment
and possibly one on a missing name. -/
lemma findBehind_isWalk (ctx : Context) (first : Ident) (middle : List Ident) (last : Ident) :
    ∃ result notes, ctx.findBehind first middle last = (result, (ctx.findSpace first).2 ++ notes) ∧
      ctx.IsWalk first middle last result ∧ Missed (first :: middle ++ [last]) result notes := by
  unfold findBehind
  rcases hspace : ctx.findSpace first with ⟨_ | space, notes⟩
  · exact ⟨{}, _, rfl, ⟨by simp [hspace], by simp, by simp⟩,
      Or.inr ⟨rfl, _, first, rfl, rfl, rfl, rfl, rfl⟩⟩
  have hstep := ctx.step_descend first.range space middle
  rcases ctx.descend_cases first.range space middle with
    ⟨target, htarget, hlength, at?, hlast⟩ | ⟨segment, herror, hmissed⟩
  · rcases hdescend : ctx.descend space middle with ⟨spaces, outcome⟩
    simp only [hdescend] at hstep htarget hlength hlast ⊢
    subst htarget
    refine ⟨_, _, rfl, ⟨by simp [hspace], hstep, ?_⟩, ?_⟩
    · rw [if_pos (by simp [hlength]), hlast]
      rfl
    · -- All namespaces are there, so what can be missing is the last segment.
      have hpath : (first :: middle ++ [last])[((first.range, space) :: spaces).length]?
          = some last := by
        simp [hlength]
      rcases ctx.findIn_missed target last with
        ⟨hfound, hnone⟩ | ⟨hnothing, note, hnote, herror, hcode, hrange⟩
      · exact Or.inl ⟨hfound, hnone⟩
      · exact Or.inr ⟨hnothing, note, last, hnote, herror, hcode, hpath, hrange⟩
  · rcases hdescend : ctx.descend space middle with ⟨spaces, outcome⟩
    simp only [hdescend] at hstep herror hmissed ⊢
    subst herror
    have hlt : spaces.length < middle.length := (List.getElem?_eq_some_iff.1 hmissed).1
    refine ⟨_, _, rfl, ⟨by simp [hspace], hstep, ?_⟩,
      Or.inr ⟨rfl, _, segment, rfl, rfl, rfl, ?_, rfl⟩⟩
    · rw [if_neg]
      simp only [List.length_cons]
      omega
    · simp only [List.length_cons, List.cons_append, List.getElem?_cons_succ]
      rw [List.getElem?_append_left hlt, hmissed]

/-- The reports on the leading segment and on a missing name tell everything that can go wrong. -/
lemma reports_of_missed {first : Ident} {middle : List Ident} {last : Ident}
    {result : PathResolution}
    {notes : List Diagnostic} (h : Missed (first :: middle ++ [last]) result notes) :
    ctx.Reports first middle last result ((ctx.findSpace first).2 ++ notes) := by
  obtain ⟨hleading, honce, hiff⟩ := ctx.findSpace_notes first
  have hmissing : ∀ note ∈ notes, note.severity = .error ∧ note.code = .notFound := by
    rcases h with ⟨-, rfl⟩ | ⟨-, note, segment, rfl, herror, hcode, -, -⟩
    · exact List.forall_mem_nil _
    · exact List.forall_mem_singleton.2 ⟨herror, hcode⟩
  have hnotFound : ((ctx.findSpace first).2 ++ notes).filter (·.code = .notFound) = notes := by
    rw [List.filter_append, List.filter_eq_nil_iff.2 fun note hnote =>
      by simp [(hleading note hnote).2],
      List.filter_eq_self.2 fun note hnote => by simp [(hmissing note hnote).2], List.nil_append]
  have hambiguous : ((ctx.findSpace first).2 ++ notes).filter (·.code = .ambiguous)
      = (ctx.findSpace first).2 := by
    rw [List.filter_append, List.filter_eq_self.2 fun note hnote =>
      by simp [(hleading note hnote).2],
      List.filter_eq_nil_iff.2 fun note hnote => by simp [(hmissing note hnote).2], List.append_nil]
  refine ⟨fun note hnote => ?_, fun hnil => ?_, fun hne => ?_, ?_, ?_⟩
  · rcases List.mem_append.1 hnote with hnote | hnote
    · exact ⟨(hleading note hnote).1, Or.inr (hleading note hnote).2⟩
    · exact ⟨(hmissing note hnote).1, Or.inl (hmissing note hnote).2⟩
  · obtain ⟨-, note, segment, rfl, -, -, hsegment, hrange⟩ := h.resolve_left fun h => h.1 hnil
    exact ⟨note, segment, hnotFound, hsegment, hrange⟩
  · rw [hnotFound]
    exact (h.resolve_right fun h => hne h.1).2
  · rw [hambiguous]
    exact honce
  · rw [← hiff]
    constructor
    · rintro ⟨note, hnote, hcode⟩
      rw [← hambiguous]
      exact List.ne_nil_of_mem (List.mem_filter.2 ⟨hnote, decide_eq_true hcode⟩)
    · intro hne
      obtain ⟨note, hnote⟩ := List.exists_mem_of_ne_nil _ hne
      exact ⟨note, List.mem_append_left _ hnote, (hleading note hnote).2⟩

lemma findPath_eq (ctx : Context) (first : Ident) (middle : List Ident) (last : Ident) :
    ctx.findPath (first :: middle ++ [last]) = ctx.findBehind first middle last := by
  simp only [findPath, List.getLast?_concat, List.dropLast_concat]

/-- A dotted lookup walks exactly as far as its segments lead, and reports exactly what is missing
and whether its leading segment is ambiguous. -/
theorem findPath_walks (ctx : Context) (first : Ident) (middle : List Ident) (last : Ident) :
    ∃ result notes, ctx.findPath (first :: middle ++ [last]) = (result, notes) ∧
      ctx.IsLeading first.name (ctx.findSpace first).1 ∧ ctx.IsWalk first middle last result ∧
      ctx.Reports first middle last result notes := by
  obtain ⟨result, notes, hbehind, hwalk, hmissed⟩ := ctx.findBehind_isWalk first middle last
  exact ⟨result, _, (ctx.findPath_eq first middle last).trans hbehind,
    ctx.isLeading_findSpace first, hwalk, reports_of_missed hmissed⟩

end Context

end SymbolGraph
