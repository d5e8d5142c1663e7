import Mathlib
import SymbolGraph.Proofs.Checking.FunctionTies
import SymbolGraph.Proofs.Model.LibraryContents
import SymbolGraph.Proofs.Session.Identities

/-!
# What happens to a loaded library

A library is compiled once and then stays as it is, but for references and heirs, as long as loads
are concerned.  A rebuild keeps its documents and the cores of its records, and takes away one
thing: when a declaration is torn down, its functions are struck from the relations of every
function that they name, and that function may be one of another library.  It has something to lose
only if it names the function in turn, which takes a library that was loaded under a declaration of
the project and has been inherited by the project since.

`bonds` lists what is struck: the functions outside the project that a declaration names, each with
the function that names it.  Tearing documents down strikes exactly their bonds, read off the model
as it was before (`Severs`), and no other step of a rebuild touches the contents of a loaded library
(`Session.Sound.contents_rebuild`).  So these change exactly if some bond is mutual
(`Session.libraries_kept_unless_severed`).

Mathlib is imported whole because `cbv`, which runs the session at the end, takes the equations of
basic functions such as `Option.join` from all over it.
-/

namespace SymbolGraph

/-! ## Striking relations -/

lemma Relations.without_eq_self {r : Relations} {gone : DeclId} (h : gone ∉ r.all) :
    r.without gone = r := by
  have hfilter {list : List DeclId} (hsub : ∀ id ∈ list, id ∈ r.all) :
      list.filter (· ≠ gone) = list := by
    refine List.filter_eq_self.2 fun id hid => ?_
    exact decide_eq_true fun heq => h (heq ▸ hsub id hid)
  obtain ⟨overrides, overriddenBy, implements, implementedBy⟩ := r
  simp only [Relations.without, Relations.mk.injEq]
  exact ⟨hfilter (by simp +contextual [Relations.all]),
    hfilter (by simp +contextual [Relations.all]),
    hfilter (by simp +contextual [Relations.all]), hfilter (by simp +contextual [Relations.all])⟩

/-- The relations of a declaration that has any. -/
def Entry.relations? (entry : Entry) : Option Relations :=
  entry.body.callable?.map Callable.relations

/-- Relations are contents. -/
lemma DeclId.relations?_part?_content (id : DeclId) (entry : Entry) :
    (id.part? entry.content).bind Entry.relations? = (id.part? entry).bind Entry.relations? := by
  unfold DeclId.part?
  cases id.owner? with
  | none =>
    simp only [Option.bind_some, Entry.relations?, Entry.content, Symbol.map]
    cases entry.body <;> rfl
  | some owner =>
    have hmembers : entry.content.body.members? id.category
        = (entry.body.members? id.category).map (List.map Member.content) := by
      simp only [Entry.content, Symbol.map]
      cases entry.body <;> cases id.category <;> rfl
    simp only [hmembers]
    cases entry.body.members? id.category with
    | none => rfl
    | some list =>
      simp only [Option.map_some, Option.bind_some, List.getElem?_map]
      cases list[id.index]? <;> rfl

/-- Strike a function from the relations of a declaration. -/
def Edit.strike (gone : DeclId) : Edit :=
  .callable fun c => { c with relations := c.relations.without gone }

lemma Body.callable?_overMembers (body : Body) (category : Category)
    (f : List Member → List Member) : (body.overMembers category f).callable? = body.callable? := by
  cases body <;> cases category <;> rfl

lemma Leaf.strike_eq_self {leaf : Leaf} {gone : DeclId}
    (h : ∀ c, leaf.callable? = some c → gone ∉ c.relations.all) :
    (leaf.overCallable fun c => { c with relations := c.relations.without gone }) = leaf := by
  cases leaf with
  | callable info => simp [overCallable, Relations.without_eq_self (h info rfl)]
  | «variable» info => rfl
  | element => rfl

/-- Striking a function that is not named changes nothing. -/
lemma Edit.strike_eq_self {id gone : DeclId} {entry : Entry}
    (h : ∀ r, (id.part? entry).bind Entry.relations? = some r → gone ∉ r.all) :
    (Edit.strike gone).atSeat id entry = entry := by
  unfold DeclId.part? at h
  refine atSeat_eq_self (fun howner => ?_) fun {list m} howner hlist hm => ?_
  · simp only [howner, Option.bind_some] at h
    obtain ⟨name, nameRange, document, space, id, visibility, references, valid, body⟩ := entry
    cases body with
    | leaf part =>
      have hleaf := @Leaf.strike_eq_self part gone fun c hc =>
        h c.relations (by simp [Entry.relations?, Body.callable?, hc])
      simp only [Edit.strike, Edit.callable, Symbol.map, hleaf]
    | task _ => rfl
    | enum _ => rfl
    | struct _ _ => rfl
    | interface _ => rfl
    | «class» _ => rfl
    | invalid => rfl
  · obtain ⟨owner, howner⟩ := Option.isSome_iff_exists.1 howner
    simp only [howner] at h
    have hleaf := @Leaf.strike_eq_self m.body gone fun c hc =>
      h c.relations (by simp [hlist, hm, Member.toEntry, Entry.relations?, Body.callable?, hc])
    rw [Edit.strike, Edit.callable]
    simp only [Symbol.map, hleaf]

lemma Leaf.relations_strike {leaf : Leaf} {gone : DeclId} {r : Relations}
    (h : (leaf.overCallable fun c => { c with relations := c.relations.without gone }).callable?.map
      Callable.relations = some r) :
    ∃ r', leaf.callable?.map Callable.relations = some r' ∧ r = r'.without gone := by
  cases leaf with
  | callable info =>
    exact ⟨info.relations, rfl, by simpa [Leaf.overCallable, Leaf.callable?] using h.symm⟩
  | «variable» info => simp [Leaf.overCallable, Leaf.callable?] at h
  | element => simp [Leaf.overCallable, Leaf.callable?] at h

/-- Striking a function from a member leaves other members with what they had, at most. -/
lemma Edit.relations_strike_member {id other gone : DeclId} {entry : Entry} {r : Relations}
    {owner owner' : DeclId} (howner : id.owner? = some owner)
    (hother : other.owner? = some owner')
    (h : (other.part? ((Edit.strike gone).atSeat id entry)).bind Entry.relations? = some r) :
    ∃ r', (other.part? entry).bind Entry.relations? = some r' ∧ (r = r' ∨ r = r'.without gone) ∧
      (id = other → r = r'.without gone) := by
  unfold atSeat at h
  unfold DeclId.part? at h ⊢
  simp only [howner, hother, Symbol.body_map, Body.members?_overMembers] at h ⊢
  by_cases hcategory : id.category = other.category
  · rw [if_pos hcategory] at h
    cases hlist : entry.body.members? other.category with
    | none => simp [hlist] at h
    | some list =>
      simp only [hlist, Option.map_some, Option.bind_some, List.getElem?_modify] at h ⊢
      cases hmember : list[other.index]? with
      | none => simp [hmember] at h
      | some m =>
        by_cases hindex : id.index = other.index
        · rw [hmember, Option.map_eq_map, Option.map_some, if_pos hindex] at h
          obtain ⟨r', hr', heq⟩ := @Leaf.relations_strike m.body _ _ h
          exact ⟨r', hr', Or.inr heq, fun _ => heq⟩
        · rw [hmember, Option.map_eq_map, Option.map_some, if_neg hindex] at h
          exact ⟨r, h, Or.inl rfl, fun heq => absurd (congrArg DeclId.index heq) hindex⟩
  · rw [if_neg hcategory] at h
    exact ⟨r, h, Or.inl rfl, fun heq => absurd (congrArg DeclId.category heq) hcategory⟩

/-- Striking a function leaves other functions with what they had, at most. -/
lemma Edit.relations_strike {id other gone : DeclId} {entry : Entry} {r : Relations}
    (h : (other.part? ((Edit.strike gone).atSeat id entry)).bind Entry.relations? = some r) :
    ∃ r', (other.part? entry).bind Entry.relations? = some r' ∧ (r = r' ∨ r = r'.without gone) ∧
      (id = other → r = r'.without gone) := by
  -- Both what is struck and what is looked at can be the record or a member.
  cases howner : id.owner? with
  | none =>
    unfold atSeat at h
    unfold DeclId.part? at h ⊢
    obtain ⟨name, nameRange, document, space, entryId, visibility, references, valid, body⟩ := entry
    cases hother : other.owner? with
    | none =>
      simp only [howner, hother, Option.bind_some] at h ⊢
      cases body with
      | leaf part =>
        obtain ⟨r', hr', heq⟩ := Leaf.relations_strike h
        exact ⟨r', hr', Or.inr heq, fun _ => heq⟩
      | task _ => cases h
      | enum _ => cases h
      | struct _ _ => cases h
      | interface _ => cases h
      | «class» _ => cases h
      | invalid => cases h
    | some owner =>
      have hne : id ≠ other := by
        rintro rfl
        simp [howner] at hother
      refine ⟨r, ?_, Or.inl rfl, fun heq => absurd heq hne⟩
      simp only [howner, hother] at h ⊢
      cases body <;> exact h
  | some owner =>
    cases hother : other.owner? with
    | none =>
      have hne : id ≠ other := by
        rintro rfl
        simp [howner] at hother
      refine ⟨r, ?_, Or.inl rfl, fun heq => absurd heq hne⟩
      unfold atSeat at h
      unfold DeclId.part? at h ⊢
      simp only [howner, hother, Option.bind_some, Entry.relations?, Symbol.body_map,
        Body.callable?_overMembers] at h ⊢
      exact h
    | some owner' => exact relations_strike_member howner hother h

namespace Library

/-- Strike the second function from the relations of the first. -/
def dropRelation (lib : Library) (pair : DeclId × DeclId) : Library :=
  lib.edit pair.1 (.strike pair.2)

/-- The relations written down under an identity. -/
def relations? (lib : Library) (id : DeclId) : Option Relations :=
  (lib.find? id).bind Entry.relations?

@[simp] lemma id_dropRelation (lib : Library) (pair : DeclId × DeclId) :
    (lib.dropRelation pair).id = lib.id := lib.id_edit _ _

lemma contents_dropRelation (lib : Library) (pair : DeclId × DeclId) :
    (lib.dropRelation pair).contents = lib.contents.dropRelation pair :=
  lib.view_edit pair.1 (Edit.content_relations (·.without pair.2) pair.1)

lemma cores_dropRelation (lib : Library) (pair : DeclId × DeclId) :
    (lib.dropRelation pair).cores = lib.cores :=
  lib.view_edit_eq_self pair.1 (Edit.core_relations (·.without pair.2) pair.1)

lemma cores_dropRelations (pairs : List (DeclId × DeclId)) (lib : Library) :
    (pairs.foldl dropRelation lib).cores = lib.cores := by
  induction pairs generalizing lib with
  | nil => rfl
  | cons pair rest ih => rw [List.foldl_cons, ih, cores_dropRelation]

lemma relations?_contents (lib : Library) (id : DeclId) :
    lib.contents.relations? id = lib.relations? id := by
  rw [relations?, find?_eq, relations?, find?_eq, contents, id_view, slot?_view]
  split
  · cases lib.slot? id.seat.1 id.seat.2 with
    | none => rfl
    | some entry => exact id.relations?_part?_content entry
  · rfl

lemma dropRelation_eq_self {lib : Library} {pair : DeclId × DeclId}
    (h : ∀ r, lib.relations? pair.1 = some r → pair.2 ∉ r.all) : lib.dropRelation pair = lib := by
  rw [dropRelation, edit_eq]
  split
  · next hlibrary =>
    refine adjustSlot_eq_self _ _ _ fun entry hentry => Edit.strike_eq_self fun r hr => h r ?_
    rw [relations?, find?_eq, if_pos hlibrary, hentry]
    exact hr
  · rfl

lemma relations?_dropRelation {lib : Library} {pair : DeclId × DeclId} {id : DeclId}
    {r : Relations} (h : (lib.dropRelation pair).relations? id = some r) :
    ∃ r', lib.relations? id = some r' ∧ (r = r' ∨ r = r'.without pair.2) ∧
      (pair.1 = id → r = r'.without pair.2) := by
  rw [relations?, find?_eq, id_dropRelation] at h
  rw [relations?, find?_eq]
  split at h
  · next hlibrary =>
    rw [if_pos hlibrary]
    rw [dropRelation, slot?_edit] at h
    split at h
    · cases hslot : lib.slot? id.seat.1 id.seat.2 with
      | none => simp [hslot] at h
      | some entry =>
        rw [hslot] at h
        exact Edit.relations_strike h
    · next hseat =>
      refine ⟨r, h, Or.inl rfl, ?_⟩
      rintro rfl
      exact absurd ⟨hlibrary, rfl⟩ hseat
  · cases h

/-- Striking pairs of functions one after the other changes nothing exactly if no first function of
a pair names the second. -/
lemma dropRelations_eq_self_iff (pairs : List (DeclId × DeclId)) (lib : Library) :
    pairs.foldl dropRelation lib = lib ↔
      ∀ pair ∈ pairs, ∀ r, lib.relations? pair.1 = some r → pair.2 ∉ r.all := by
  -- What is dropped once does not come back, as dropping only takes away.
  have hgone (pair : DeclId × DeclId) (pairs : List (DeclId × DeclId)) (lib : Library)
      (h : pair ∈ pairs ∨ ∀ r, lib.relations? pair.1 = some r → pair.2 ∉ r.all) :
      ∀ r, (pairs.foldl dropRelation lib).relations? pair.1 = some r → pair.2 ∉ r.all := by
    induction pairs generalizing lib with
    | nil => exact h.resolve_left (by simp)
    | cons first rest ih =>
      refine ih (lib.dropRelation first) ?_
      rcases h with h | h
      · rcases List.mem_cons.1 h with rfl | h
        · refine Or.inr fun r hr => ?_
          obtain ⟨r', -, -, heq⟩ := relations?_dropRelation hr
          rw [heq rfl, Relations.all_without]
          simp
        · exact Or.inl h
      · refine Or.inr fun r hr => ?_
        obtain ⟨r', hr', heq, -⟩ := relations?_dropRelation hr
        rcases heq with rfl | rfl
        · exact h r hr'
        · rw [Relations.all_without]
          exact fun hmem => h r' hr' (List.mem_of_mem_filter hmem)
  constructor
  · intro heq pair hpair
    have hend := hgone pair pairs lib (Or.inl hpair)
    rwa [heq] at hend
  · intro h
    induction pairs with
    | nil => rfl
    | cons pair rest ih =>
      rw [List.foldl_cons, dropRelation_eq_self (h pair (List.mem_cons_self ..))]
      exact ih fun other hother => h other (List.mem_cons_of_mem _ hother)

/-- In a library other than the project, only its own functions lose something. -/
lemma dropRelations_abroad (pairs : List (DeclId × DeclId)) {lib : Library}
    (hlib : lib.id ≠ .project) : pairs.foldl dropRelation lib
      = (pairs.filter fun pair => pair.1.library ≠ .project).foldl dropRelation lib := by
  induction pairs generalizing lib with
  | nil => rfl
  | cons pair rest ih =>
    by_cases h : pair.1.library = .project
    · have hsame : lib.dropRelation pair = lib := by
        rw [dropRelation, edit_eq, if_neg]
        rw [h]
        exact Ne.symm hlib
      rw [List.foldl_cons, hsame, ih hlib, List.filter_cons_of_neg (by simp [h])]
    · rw [List.foldl_cons, List.filter_cons_of_pos (by simp [h]), List.foldl_cons]
      exact ih (by simpa using hlib)

end Library

/-! ## Bonds -/

/-- The functions outside the project that a member names, each with the member. -/
def Member.bonds (function : Member) : List (DeclId × DeclId) :=
  match function.body.callable? with
  | some callable => (callable.relations.all.filter fun other => other.library ≠ .project).map
      fun other => (other, function.id)
  | none => []

def Entry.bonds (entry : Entry) : List (DeclId × DeclId) :=
  (entry.body.functions.map Member.bonds).flatten

/-- What the functions of a declaration name outside the project is read off its contents. -/
lemma Entry.bonds_of_content_eq {entry entry' : Entry} (h : entry'.content = entry.content) :
    entry'.bonds = entry.bonds := by
  have hcontent (entry : Entry) : entry.content.bonds = entry.bonds := by
    have hmembers (list : List Member) :
        (list.map Member.content).map Member.bonds = list.map Member.bonds := by
      rw [List.map_map]
      rfl
    simp only [bonds, content, Symbol.map]
    cases entry.body <;> simp [Body.content, Body.functions, hmembers]
  rw [← hcontent, h, hcontent]

lemma Body.functions_overMembers (body : Body) (category : Category)
    {f : List Member → List Member} {β : Type} {g : Member → β}
    (h : ∀ list : List Member, (f list).map g = list.map g) :
    (body.overMembers category f).functions.map g = body.functions.map g := by
  cases body <;> cases category <;> simp [overMembers, functions, h]

/-- Striking a function of the project leaves the bonds alone. -/
lemma Edit.bonds_strike {gone : DeclId} (hgone : gone.library = .project) (id : DeclId)
    (entry : Entry) : ((Edit.strike gone).atSeat id entry).bonds = entry.bonds := by
  have hmember (m : Member) : Member.bonds ((Edit.strike gone).onMember m) = m.bonds := by
    obtain ⟨name, nameRange, document, space, id, visibility, references, valid, body⟩ := m
    cases body with
    | callable info =>
      simp only [Edit.strike, Edit.callable, Symbol.map, Leaf.overCallable, Member.bonds,
        Leaf.callable?, Relations.all_without, List.filter_filter]
      congr 1
      refine List.filter_congr fun other _ => ?_
      by_cases h : other.library = .project
      · simp [h]
      · have hne : other ≠ gone := fun heq => h (heq ▸ hgone)
        simp [hne]
    | «variable» info => rfl
    | element => rfl
  unfold atSeat
  split
  · obtain ⟨name, nameRange, document, space, id, visibility, references, valid, body⟩ := entry
    cases body <;> rfl
  · simp only [Entry.bonds, Symbol.body_map]
    rw [Body.functions_overMembers _ _ fun list => map_modify_of_eq hmember list _]

namespace LibrarySet

variable {set set' set'' : LibrarySet} {own own' : DeclId → Prop}
  {pairs pairs' : List (DeclId × DeclId)}

/-- The bonds of the declaration in a slot of the project. -/
def bonds (set : LibrarySet) (category : Category) (index : Nat) : List (DeclId × DeclId) :=
  ((set.slot? .project category index).map Entry.bonds).getD []

/-- A step that strikes the pairs from the contents of other libraries, and leaves the bonds of the
project's declarations alone, but for those of the declarations `own`. -/
structure Severs (own : DeclId → Prop) (pairs : List (DeclId × DeclId)) (set set' : LibrarySet) :
    Prop where
  identified : set'.Identified
  contents : ∀ library, library ≠ .project → set'.contents? library
    = (set.contents? library).map fun lib => pairs.foldl Library.dropRelation lib
  bonds : ∀ category index, ¬ own ⟨.project, category, index, none⟩ →
    set'.bonds category index = set.bonds category index

lemma Severs.refl (hid : set.Identified) : Severs own [] set set where
  identified := hid
  contents library _ := by simp
  bonds _ _ _ := rfl

lemma Severs.trans (h : Severs own pairs set set') (k : Severs own' pairs' set' set'') :
    Severs (fun id => own id ∨ own' id) (pairs ++ pairs') set set'' where
  identified := k.identified
  contents library hlibrary := by
    rw [k.contents library hlibrary, h.contents library hlibrary, Option.map_map]
    simp [Function.comp_def]
  bonds category index hown := by
    rw [k.bonds category index fun h => hown (Or.inr h),
      h.bonds category index fun h => hown (Or.inl h)]

lemma Severs.mono (h : Severs own pairs set set') (hown : ∀ id, own id → own' id) :
    Severs own' pairs set set' :=
  ⟨h.identified, h.contents, fun category index hid =>
    h.bonds category index fun hmem => hid (hown _ hmem)⟩

lemma Severs.foldl {α : Type} {step : LibrarySet → α → LibrarySet} {f : α → List (DeclId × DeclId)}
    (xs : List α) (h : ∀ set, set.Identified → ∀ x ∈ xs, Severs own (f x) set (step set x))
    (hid : set.Identified) : Severs own (xs.flatMap f) set (xs.foldl step set) := by
  induction xs generalizing set with
  | nil => exact .refl hid
  | cons x xs ih =>
    have hfirst := h set hid x (List.mem_cons_self ..)
    have hrest := ih (fun set hset y hy => h set hset y (List.mem_cons_of_mem _ hy))
      hfirst.identified
    exact (hfirst.trans hrest).mono fun id hid => hid.elim (fun h => h) fun h => h

/-- Steps that strike nothing. -/
lemma Severs.foldl_idle {α : Type} {step : LibrarySet → α → LibrarySet} (xs : List α)
    (h : ∀ set, set.Identified → ∀ x ∈ xs, Severs own [] set (step set x))
    (hid : set.Identified) : Severs own [] set (xs.foldl step set) := by
  have hall := Severs.foldl (f := fun _ => []) xs h hid
  rwa [List.flatMap_eq_nil_iff.2 fun _ _ => rfl] at hall

lemma bonds_edit (hid : set.Identified) {id : DeclId} {edit : Edit}
    (h : ∀ entry, (edit.atSeat id entry).bonds = entry.bonds) (category : Category) (index : Nat) :
    (set.edit id edit).bonds category index = set.bonds category index := by
  rw [bonds, slot?_edit hid, bonds]
  split
  · cases set.slot? .project category index with
    | none => rfl
    | some entry => exact h entry
  · rfl

/-- A step that keeps contents and bonds strikes nothing. -/
lemma Severs.of_sameContents (hid : set'.Identified)
    (hcontents : SameContents (· ≠ .project) set set')
    (hbonds : ∀ category index, ¬ own ⟨.project, category, index, none⟩ →
      set'.bonds category index = set.bonds category index) : Severs own [] set set' :=
  ⟨hid, fun library hlibrary => by simpa using hcontents library hlibrary, hbonds⟩

lemma severs_dropRelation (hid : set.Identified) {pair : DeclId × DeclId}
    (hpair : pair.2.library = .project) : Severs own [pair] set (set.dropRelation pair) where
  identified := hid.edit _ _
  contents library hlibrary := by
    have hget : (set.dropRelation pair).get? library
        = if pair.1.library = library then (set.get? library).map (·.dropRelation pair)
          else set.get? library := get?_adjust set _ library _
    rw [contents?, hget, contents?]
    split
    · cases set.get? library with
      | none => rfl
      | some lib => exact congrArg some (lib.contents_dropRelation pair)
    · next hne =>
      cases hlib : set.get? library with
      | none => rfl
      | some lib =>
        have hsame : lib.contents.dropRelation pair = lib.contents := by
          have hlibid : lib.contents.id = library := hid library lib hlib
          rw [Library.dropRelation, Library.edit_eq, if_neg (by rwa [hlibid])]
        simp [hsame]
  bonds category index _ := bonds_edit hid (Edit.bonds_strike hpair pair.1) category index

lemma severs_dropLink (hid : set.Identified) (link : BackLink) :
    Severs own [] set (Linkage.dropLink set link) := by
  have hbonds {id : DeclId} {edit : Edit}
      (h : ∀ entry, (edit.atSeat id entry).content = entry.content) (category : Category)
      (index : Nat) : (set.edit id edit).bonds category index = set.bonds category index :=
    bonds_edit hid (fun entry => Entry.bonds_of_content_eq (h entry)) category index
  cases link with
  | reference target location =>
    cases target with
    | declaration id =>
      exact .of_sameContents (hid.edit _ _) (sameContents_overReferences set _ (.declaration id))
        fun category index _ => hbonds
          (Edit.content_atSeat (fun _ => rfl) (fun _ => rfl) id) category index
    | space ref =>
      refine .of_sameContents (hid.adjustSpace ref _)
        (sameContents_overReferences set _ (.space ref))
        fun category index _ => ?_
      simp only [bonds, Linkage.dropLink, overReferences, slot?_adjustSpace]
  | implementor base heir =>
    refine .of_sameContents (hid.edit _ _) (sameContents_overImplementors set base _)
      fun category index _ => hbonds (fun entry => ?_) category index
    refine Edit.content_atSeat (fun entry => ?_) (fun _ => rfl) base entry
    simp only [Edit.body, Entry.content, Symbol.map]
    cases entry.body <;> rfl

lemma severs_reset (hid : set.Identified) {id : DeclId} (hproject : id.library = .project)
    (hown : own ⟨.project, id.seat.1, id.seat.2, none⟩) :
    Severs own [] set (set.edit id .reset) := by
  refine .of_sameContents (hid.edit _ _) ?_ fun category index hne => ?_
  · exact sameContents_adjust_new set (by simp [hproject]) _
  · rw [bonds, slot?_edit hid, if_neg, bonds]
    rintro ⟨-, hseat⟩
    rw [hseat] at hown
    exact hne hown

lemma find?_project (h : set.Identified) {id : DeclId}
    (hid : id = ⟨.project, id.category, id.index, none⟩) (htop : id.category.isMember = false) :
    set.find? id = set.slot? .project id.category id.index := by
  have hlibrary : id.library = .project := congrArg DeclId.library hid
  rw [find?_eq h, DeclId.seat_of_top htop, hlibrary]
  cases set.slot? .project id.category id.index with
  | none => rfl
  | some entry => rw [Option.bind_some, DeclId.part?, DeclId.owner?_of_top htop]

/-- The bonds of a declaration are the pairs of related functions that lead out of the project. -/
lemma bonds_eq (h : set.Identified) {id : DeclId}
    (hid : id = ⟨.project, id.category, id.index, none⟩) (htop : id.category.isMember = false) :
    set.bonds id.category id.index
      = (set.relatedPairs id).filter fun pair => pair.1.library ≠ .project := by
  rw [bonds, relatedPairs, find?_project h hid htop]
  cases set.slot? .project id.category id.index with
  | none => rfl
  | some entry =>
    simp only [Option.map_some, Option.getD_some, Entry.bonds, List.filter_flatMap,
      ← List.flatMap_def]
    refine List.flatMap_congr fun function _ => ?_
    cases h : function.body.callable? with
    | none => simp [Member.bonds, h]
    | some callable => simp [Member.bonds, h, List.filter_map, Function.comp_def]

/-- Stripping a declaration of the project strikes its bonds. -/
lemma Orderly.severs_stripRelations (orderly : set.Orderly) {id : DeclId}
    (hid : id = ⟨.project, id.category, id.index, none⟩) (htop : id.category.isMember = false) :
    Severs own (set.bonds id.category id.index) set (set.stripRelations id) := by
  have hfind := find?_project orderly.identified hid htop
  have hright : ∀ pair ∈ set.relatedPairs id, pair.2.library = .project := by
    intro pair hpair
    rw [relatedPairs, hfind] at hpair
    cases hslot : set.slot? .project id.category id.index with
    | none => simp [hslot] at hpair
    | some entry =>
      rw [hslot] at hpair
      obtain ⟨function, hfunction, hpair⟩ := List.mem_flatMap.1 hpair
      have hlibrary : function.id.library = .project := by
        obtain ⟨c, list, -, hlist, hmem⟩ := Body.mem_functions hfunction
        obtain ⟨j, hj⟩ := List.mem_iff_getElem?.1 hmem
        have htags : set.tags? .project id.category id.index = some entry.tags := by
          rw [tags?, hslot, Option.map_some]
        have hmembers : entry.tags.members c = some (list.map fun m => (m.id, m.references)) := by
          simp [Entry.tags, Body.tags, hlist]
        have hposition : (list.map fun m => (m.id, m.references))[j]?
            = some (function.id, function.references) := by simp [hj]
        exact congrArg DeclId.library ((orderly.tags htags).numbered hmembers hposition)
      cases hbody : function.body.callable? with
      | none => simp [hbody] at hpair
      | some callable =>
        rw [hbody] at hpair
        obtain ⟨other, -, rfl⟩ := List.mem_map.1 hpair
        exact hlibrary
  have hall : Severs own (set.relatedPairs id) set (set.stripRelations id) := by
    have h : Severs own ((set.relatedPairs id).flatMap fun pair => [pair]) set
        (set.stripRelations id) :=
      Severs.foldl (set.relatedPairs id)
        (fun set hid pair hpair => severs_dropRelation hid (hright pair hpair)) orderly.identified
    rwa [List.flatMap_singleton'] at h
  -- In another library only the pairs that start in it have an effect.
  refine ⟨hall.identified, fun library hlibrary => ?_, hall.bonds⟩
  rw [hall.contents library hlibrary, bonds_eq orderly.identified hid htop, contents?]
  cases hlib : set.get? library with
  | none => rfl
  | some lib =>
    have hlibid : lib.contents.id = library := orderly.identified library lib hlib
    simp only [Option.map_some]
    rw [Library.dropRelations_abroad _ (by rwa [hlibid])]

lemma Orderly.severs_strips (orderly : set.Orderly) (decls : List DeclId)
    (hdecls : ∀ id ∈ decls,
      id = ⟨.project, id.category, id.index, none⟩ ∧ id.category.isMember = false) :
    Severs (fun _ => False) (decls.flatMap fun id => set.bonds id.category id.index) set
      (decls.foldl stripRelations set) := by
  induction decls generalizing set with
  | nil => exact .refl orderly.identified
  | cons id rest ih =>
    obtain ⟨hid, htop⟩ := hdecls id (List.mem_cons_self ..)
    have hfirst : Severs (fun _ => False) _ set (set.stripRelations id) :=
      orderly.severs_stripRelations hid htop
    have hrest := ih ((sameTags_stripRelations orderly id).orderly orderly)
      fun other hother => hdecls other (List.mem_cons_of_mem _ hother)
    have hstable : (rest.flatMap fun other =>
          (set.stripRelations id).bonds other.category other.index)
        = rest.flatMap fun other => set.bonds other.category other.index :=
      List.flatMap_congr fun other _ => hfirst.bonds _ _ fun h => h
    rw [hstable] at hrest
    exact (hfirst.trans hrest).mono fun _ h => h.elim (fun h => h) fun h => h

variable {unit : SourceUnit} {units others : List SourceUnit}

lemma severs_unlink (hid : set.Identified) (hdecls : ∀ id ∈ unit.declarations,
      id = ⟨.project, id.category, id.index, none⟩ ∧ id.category.isMember = false) :
    Severs (· ∈ unit.declarations) [] set (Linkage.unlink ⟨set, unit⟩).libraries := by
  have hlinks : Severs (fun _ => False) [] set (unit.links.foldl Linkage.dropLink set) :=
    Severs.foldl_idle unit.links (fun _ hid link _ => severs_dropLink hid link) hid
  have hresets : Severs (· ∈ unit.declarations) [] (unit.links.foldl Linkage.dropLink set)
      (Linkage.unlink ⟨set, unit⟩).libraries :=
    Severs.foldl_idle unit.declarations (fun _ hid id hmem => by
      obtain ⟨heq, htop⟩ := hdecls id hmem
      refine severs_reset hid (congrArg DeclId.library heq) ?_
      rw [DeclId.seat_of_top htop, ← heq]
      exact hmem) hlinks.identified
  exact (hlinks.trans hresets).mono fun _ h => h.elim False.elim fun h => h

/-- Marking a document of the project strikes the bonds of its declarations. -/
lemma Arranged.severs_detach (arranged : set.Arranged (unit :: others))
    (hproject : unit.library = .project) :
    Severs (· ∈ unit.declarations)
      (unit.declarations.flatMap fun id => set.bonds id.category id.index) set
      (Linkage.detach ⟨set, unit⟩).libraries := by
  have hdecls : ∀ id ∈ unit.declarations,
      id = ⟨.project, id.category, id.index, none⟩ ∧ id.category.isMember = false :=
    fun id hid => arranged.settled.declared_project (List.mem_cons_self ..) hproject hid
  have hstrips := arranged.orderly.severs_strips unit.declarations hdecls
  have hunlink := severs_unlink hstrips.identified hdecls
  have hboth : Severs (· ∈ unit.declarations) _ set (Linkage.detach ⟨set, unit⟩).libraries :=
    (hstrips.trans hunlink).mono fun _ h => h.elim False.elim fun h => h
  rwa [List.append_nil] at hboth

/-- Marking documents of the project one after the other strikes the bonds that their declarations
have at the start. -/
lemma Arranged.severs_detaches {torn : List SourceUnit} (arranged : set.Arranged (torn ++ others))
    (hproject : ∀ unit ∈ torn, unit.library = .project) :
    Severs (fun id => ∃ unit ∈ torn, id ∈ unit.declarations)
      (torn.flatMap fun unit =>
        unit.declarations.flatMap fun id => set.bonds id.category id.index) set
      (Linkages.each Linkage.detach set torn).libraries := by
  induction torn generalizing set others with
  | nil => exact .refl arranged.orderly.identified
  | cons unit rest ih =>
    have hfirst := arranged.severs_detach (hproject unit (List.mem_cons_self ..))
    have harranged : (Linkage.detach ⟨set, unit⟩).libraries.Arranged
        (rest ++ ((Linkage.detach ⟨set, unit⟩).unit :: others)) :=
      arranged.detach.perm List.perm_middle.symm
    have hrest := ih harranged fun other hother => hproject other (List.mem_cons_of_mem _ hother)
    -- A declaration of a later document is none of the first, so its bonds are still there.
    have hstable : (rest.flatMap fun other => other.declarations.flatMap fun id =>
          (Linkage.detach ⟨set, unit⟩).libraries.bonds id.category id.index)
        = rest.flatMap fun other => other.declarations.flatMap fun id =>
          set.bonds id.category id.index := by
      refine List.flatMap_congr fun other hother => List.flatMap_congr fun id hid => ?_
      have hmem : other ∈ rest ++ others := List.mem_append_left _ hother
      obtain ⟨heq, -⟩ := arranged.settled.declared_project (List.mem_cons_of_mem _ hmem)
        (hproject other (List.mem_cons_of_mem _ hother)) hid
      refine hfirst.bonds _ _ fun hmine => ?_
      rw [← heq] at hmine
      exact arranged.settled.disjoint hmem hmine hid
    rw [hstable] at hrest
    refine (hfirst.trans hrest).mono fun id h => ?_
    rcases h with h | ⟨other, hother, h⟩
    · exact ⟨unit, List.mem_cons_self .., h⟩
    · exact ⟨other, List.mem_cons_of_mem _ hother, h⟩

lemma relations?_eq (set : LibrarySet) (id : DeclId) :
    set.relations? id = (set.get? id.library).bind fun lib => lib.relations? id := by
  rw [relations?, find?]
  cases set.get? id.library <;> rfl

end LibrarySet

/-- Passes over several documents that each leave the contents of a library alone. -/
lemma Linkages.sameContents_each {pass : Linkage → Linkage} {Q : SourceUnit → Prop}
    {old : LibraryId → Prop} (h : ∀ set unit, Q unit →
      LibrarySet.SameContents old set (pass ⟨set, unit⟩).libraries)
    (set : LibrarySet) {units : List SourceUnit} (hunits : ∀ unit ∈ units, Q unit) :
    LibrarySet.SameContents old set (each pass set units).libraries := by
  induction units generalizing set with
  | nil => exact .refl set
  | cons unit rest ih =>
    exact (h set unit (hunits unit (List.mem_cons_self ..))).trans
      (ih _ fun other hother => hunits other (List.mem_cons_of_mem _ hother))

/-! ## Rebuilds -/

namespace Session

variable {session : Session}

open LibrarySet (SameContents)

/-- The bonds of all declarations of some documents. -/
def bondsOf (session : Session) (units : List SourceUnit) : List (DeclId × DeclId) :=
  units.flatMap fun unit =>
    unit.declarations.flatMap fun id => session.libraries.bonds id.category id.index

/-- Clearing the project strikes the bonds of what is torn down from the other libraries. -/
lemma Sound.contents_cleared (sound : session.Sound)
    (arranged : session.libraries.Arranged session.units) {torn : List SourceUnit}
    (hperm : (torn ++ session.untouched).Perm session.files) (pool : IndexPool)
    {library : LibraryId} (hlibrary : library ≠ .project) :
    (session.cleared torn pool).libraries.contents? library
      = (session.libraries.contents? library).map
        fun lib => (session.bondsOf torn).foldl Library.dropRelation lib := by
  have hfiles : ∀ unit ∈ torn ++ session.untouched, unit.library = .project :=
    fun unit hunit => sound.files_library unit (hperm.mem_iff.1 hunit)
  have hsevered := (arranged.perm (units_perm hperm)).severs_detaches fun unit hunit =>
    hfiles unit (List.mem_append_left _ hunit)
  obtain ⟨-, htorn⟩ := sound.settled_detached hperm
  unfold Session.cleared
  dsimp only [unlinkAll, overFiles, Linkages.applyPass]
  generalize Linkages.each Linkage.detach session.libraries torn = detached at hsevered htorn ⊢
  -- Disposing of documents and unlinking them writes into the project alone; what reaches other
  -- libraries is the marking of documents, which strips relations.
  have hdispose (set : LibrarySet) (unit : SourceUnit) (hunit : unit.library = .project) :
      LibrarySet.SameContents (· ≠ .project) set (Linkage.dispose ⟨set, unit⟩).libraries := by
    simp only [Linkage.dispose]
    split
    · exact .refl set
    · exact LibrarySet.sameContents_adjust_new set (by simp [hunit]) _
  have hunlink (set : LibrarySet) (unit : SourceUnit)
      (hunit : ∀ id ∈ unit.declarations, id.library = .project) :
      LibrarySet.SameContents (· ≠ .project) set (Linkage.unlink ⟨set, unit⟩).libraries := by
    refine (LibrarySet.SameContents.foldl unit.links
      (fun set link _ => LibrarySet.sameContents_dropLink set link) set).trans ?_
    exact LibrarySet.SameContents.foldl unit.declarations (fun set id hid =>
      LibrarySet.sameContents_adjust_new set (by simp [hunit id hid]) _) _
  have huntouched : ∀ unit ∈ session.untouched, ∀ id ∈ unit.declarations,
      id.library = .project := by
    intro unit hunit id hid
    have hmem : unit ∈ session.files := List.mem_of_mem_filter hunit
    exact congrArg DeclId.library (sound.settled.declared_project (List.mem_append_left _ hmem)
      (sound.files_library unit hmem) hid).1
  have hdisposed := Linkages.sameContents_each hdispose detached.libraries htorn
  have hunlinked := Linkages.sameContents_each hunlink
    (Linkages.each Linkage.dispose detached.libraries detached.units).libraries huntouched
  exact ((hdisposed.trans hunlinked) library hlibrary).trans (hsevered.contents library hlibrary)

/-- Linking the project anew keeps the contents and the documents of the libraries that are
there. -/
lemma Sound.contents_relink (sound : session.Sound)
    (arranged : session.libraries.Arranged session.units)
    (hundeclared : ∀ unit ∈ session.files, unit.Undeclared) {library : LibraryId} {lib : Library}
    (hlibrary : library ≠ .project) (hlib : session.libraries.get? library = some lib) :
    ∃ lib', session.relink.libraries.get? library = some lib' ∧ lib'.contents = lib.contents ∧
      session.relink.foreign.at? library = session.foreign.at? library := by
  obtain ⟨keeps, loaded, added⟩ := (sound.keeps ⟨⟨arranged, sound.pool⟩, .refl _⟩).loadWanted
    (loadInvariant_contents session.libraries) (importNames session.files)
  have hforeign := loaded.foreign_eq added hlib
  unfold Session.relink
  generalize session.loadImports (importNames session.files) = mid at keeps loaded hforeign ⊢
  have hmid : mid.libraries.Arranged mid.units := keeps.holds.1.1
  have hcontents := keeps.holds.2
  obtain ⟨lib₁, hlib₁, heq₁⟩ := hcontents.loaded ⟨lib, hlib⟩ hlib
  have hundeclared' : ∀ unit ∈ mid.files, unit.Undeclared := loaded.files_eq ▸ hundeclared
  have hproject : ∀ unit ∈ mid.files, ¬ unit.library ≠ .project := by
    rw [loaded.files_eq]
    exact fun unit hunit hne => hne (sound.files_library unit hunit)
  have harranged := Linkages.arranged_link hmid hundeclared' mid.options
  have hlinked : SameContents (· ≠ .project) mid.libraries
      (Linkages.link ⟨mid.libraries, mid.files⟩ mid.options).libraries :=
    LibrarySet.Arranged.sameContents_link hmid hundeclared' hproject mid.options
  have hchecked : SameContents (· ≠ .project) _
      (LibrarySet.check _ .project).1 := harranged.orderly.sameContents_check (by simp)
  obtain ⟨lib', hlib', heq⟩ := (hlinked.trans hchecked).loaded hlibrary hlib₁
  refine ⟨lib', ?_, heq.trans heq₁, ?_⟩
  · simp only [Session.checkProject]
    exact hlib'
  · simp only [Session.checkProject]
    exact hforeign

/-- A rebuild keeps the documents of a loaded library, and strikes the bonds of what it tears down
from the contents. -/
theorem Sound.contents_rebuild (sound : session.Sound)
    (arranged : session.libraries.Arranged session.units) :
    ∃ torn, (torn ++ session.untouched).Perm session.files ∧
      ∀ library lib, library ≠ .project → session.libraries.get? library = some lib →
        ∃ lib', session.rebuild.1.libraries.get? library = some lib' ∧
          lib'.contents = (session.bondsOf torn).foldl Library.dropRelation lib.contents ∧
          session.rebuild.1.foreign.at? library = session.foreign.at? library := by
  obtain ⟨torn, pool, tidied, report, hperm, -, hsound, htidied, hrebuild⟩ := sound.rebuild_eq
  obtain ⟨harranged, hundeclared⟩ := sound.arranged_tidied arranged hperm hsound htidied
  refine ⟨torn, hperm, fun library lib hlibrary hlib => ?_⟩
  have hcleared := sound.contents_cleared arranged hperm pool hlibrary
  rw [LibrarySet.contents?, LibrarySet.contents?, hlib, Option.map_some, Option.map_some]
    at hcleared
  obtain ⟨mid, hmid, heq⟩ := Option.map_eq_some_iff.1 hcleared
  have htidy : tidied.libraries.get? library = some mid :=
    (htidied.grows.other hlibrary).trans hmid
  obtain ⟨lib', hlib', heq', hforeign⟩ :=
    hsound.contents_relink harranged hundeclared hlibrary htidy
  rw [hrebuild]
  exact ⟨lib', hlib', heq'.trans heq, hforeign.trans (congrArg (·.at? library) htidied.foreign_eq)⟩

theorem Sound.cores_rebuild (sound : session.Sound)
    (arranged : session.libraries.Arranged session.units) {library : LibraryId} {lib : Library}
    (hlibrary : library ≠ .project) (hlib : session.libraries.get? library = some lib) :
    ∃ lib', session.rebuild.1.libraries.get? library = some lib' ∧ lib'.cores = lib.cores := by
  obtain ⟨torn, -, hrebuild⟩ := sound.contents_rebuild arranged
  obtain ⟨lib', hlib', hcontents, -⟩ := hrebuild library lib hlibrary hlib
  refine ⟨lib', hlib', ?_⟩
  rw [← Library.cores_contents, hcontents, Library.cores_dropRelations, Library.cores_contents]

/-- A load keeps the contents and the documents of the libraries that are there. -/
lemma Sound.contents_load (sound : session.Sound)
    (arranged : session.libraries.Arranged session.units) (name : String) {library : LibraryId}
    {lib : Library} (hlib : session.libraries.get? library = some lib) :
    ∃ lib', (session.loadLibrary name).1.libraries.get? library = some lib' ∧
      lib'.contents = lib.contents ∧
      (session.loadLibrary name).1.foreign.at? library = session.foreign.at? library := by
  rcases session.loadLibrary_fst name with h | h
  · rw [h]
    exact ⟨lib, hlib, rfl, rfl⟩
  · obtain ⟨after, hload, keeps, loaded, added⟩ :=
      (sound.keeps ⟨⟨arranged, sound.pool⟩, .refl _⟩).load
        (loadInvariant_contents session.libraries) session.manifest.libraries.length name
    rw [h, hload]
    obtain ⟨lib', hlib', heq⟩ := keeps.holds.2.loaded ⟨lib, hlib⟩ hlib
    exact ⟨lib', hlib', heq, loaded.foreign_eq added hlib⟩

/-- Some function that is to be torn down and a function of the library name each other. -/
def Severed (session : Session) (library : LibraryId) : Prop :=
  ∃ unit ∈ session.files, unit.path ∈ session.doomed ∧ ∃ id ∈ unit.declarations,
    ∃ pair ∈ session.libraries.relatedPairs id, pair.1.library = library ∧
      ∃ relations, session.libraries.relations? pair.1 = some relations ∧ pair.2 ∈ relations.all

/-- The documents that a rebuild tears down. -/
lemma Sound.mem_torn (sound : session.Sound) {torn : List SourceUnit}
    (hperm : (torn ++ session.untouched).Perm session.files) (unit : SourceUnit) :
    unit ∈ torn ↔ unit ∈ session.files ∧ unit.path ∈ session.doomed := by
  have hnodup : (torn ++ session.untouched).Nodup := by
    refine hperm.nodup_iff.2 (sound.sorted.imp fun {a b} hlt heq => ?_)
    rw [heq] at hlt
    exact lt_irrefl _ hlt
  have hdisjoint := (List.nodup_append.1 hnodup).2.2
  constructor
  · intro hunit
    have hmem := hperm.mem_iff.1 (List.mem_append_left _ hunit)
    refine ⟨hmem, by_contra fun hspared => ?_⟩
    exact hdisjoint unit hunit unit (List.mem_filter.2 ⟨hmem, by simpa using hspared⟩) rfl
  · rintro ⟨hmem, hdoomed⟩
    rcases List.mem_append.1 (hperm.mem_iff.2 hmem) with h | h
    · exact h
    · exact absurd hdoomed (by simpa using (List.mem_filter.1 h).2)

/-- What is struck from a library was there only if it is severed from the project. -/
lemma Sound.severed_iff (sound : session.Sound) {torn : List SourceUnit}
    (hperm : (torn ++ session.untouched).Perm session.files) {library : LibraryId} {lib : Library}
    (hlibrary : library ≠ .project) (hlib : session.libraries.get? library = some lib) :
    (session.bondsOf torn).foldl Library.dropRelation lib.contents = lib.contents ↔
      ¬ session.Severed library := by
  have hid : session.libraries.Identified := fun _ _ => sound.settled.id_eq
  have hrelations {id : DeclId} (h : id.library = library) :
      session.libraries.relations? id = lib.contents.relations? id := by
    rw [LibrarySet.relations?_eq, h, hlib, Option.bind_some, Library.relations?_contents]
  -- The bonds of a declaration are its pairs with functions of other libraries.
  have hbonds {unit : SourceUnit} (hunit : unit ∈ session.files) {id : DeclId}
      (hmem : id ∈ unit.declarations) (pair : DeclId × DeclId) :
      pair ∈ session.libraries.bonds id.category id.index ↔
        pair ∈ session.libraries.relatedPairs id ∧ pair.1.library ≠ .project := by
    obtain ⟨heq, htop⟩ := sound.settled.declared_project (List.mem_append_left _ hunit)
      (sound.files_library unit hunit) hmem
    simp [LibrarySet.bonds_eq hid heq htop]
  rw [Library.dropRelations_eq_self_iff]
  constructor
  · rintro hkept ⟨unit, hunit, hdoomed, id, hmem, pair, hpair, hfirst, r, hr, hnamed⟩
    refine hkept pair ?_ r (hrelations hfirst ▸ hr) hnamed
    refine List.mem_flatMap.2 ⟨unit, (sound.mem_torn hperm unit).2 ⟨hunit, hdoomed⟩, ?_⟩
    exact List.mem_flatMap.2 ⟨id, hmem, (hbonds hunit hmem pair).2 ⟨hpair, hfirst ▸ hlibrary⟩⟩
  · intro hkept pair hpair r hr hnamed
    obtain ⟨unit, htorn, hpair⟩ := List.mem_flatMap.1 hpair
    obtain ⟨id, hmem, hpair⟩ := List.mem_flatMap.1 hpair
    obtain ⟨hunit, hdoomed⟩ := (sound.mem_torn hperm unit).1 htorn
    obtain ⟨hrelated, -⟩ := (hbonds hunit hmem pair).1 hpair
    have hfirst : pair.1.library = library := by
      obtain ⟨record, hfind, -⟩ := Option.bind_eq_some_iff.1 hr
      rw [Library.find?] at hfind
      split at hfind
      · cases hfind
      · next h =>
        have hlibid : lib.contents.id = library := hid library lib hlib
        rw [← hlibid]
        exact not_not.1 h
    exact hkept ⟨unit, hunit, hdoomed, id, hmem, pair, hrelated, hfirst, r,
      (hrelations hfirst).trans hr, hnamed⟩

/-- In every state of every run, a load leaves the documents and the contents of every other library
that is loaded alone.  So does a rebuild, as to the documents and the cores; and as to the contents,
exactly if no function that it tears down and a function of the library name each other. -/
theorem libraries_kept_unless_severed (manifest : Manifest) (sources : Sources) :
    ∃ initial, Session.start manifest sources = .ok initial ∧ ∀ requests : List Request,
      let session := initial.run requests
      ∀ library lib, library ≠ .project → session.libraries.get? library = some lib →
        (∀ name, ∃ lib', (session.loadLibrary name).1.libraries.get? library = some lib' ∧
          lib'.contents = lib.contents ∧
          (session.loadLibrary name).1.foreign.at? library = session.foreign.at? library) ∧
        ∃ lib', session.rebuild.1.libraries.get? library = some lib' ∧
          session.rebuild.1.foreign.at? library = session.foreign.at? library ∧
          lib'.cores = lib.cores ∧
          (lib'.contents = lib.contents ↔ ¬ session.Severed library) := by
  obtain ⟨initial, hstart, h⟩ := arranged_run manifest sources
  refine ⟨initial, hstart, fun requests => ?_⟩
  obtain ⟨sound, arranged⟩ := h requests
  intro session library lib hlibrary hlib
  refine ⟨fun name => sound.contents_load arranged name hlib, ?_⟩
  obtain ⟨torn, hperm, hrebuild⟩ := sound.contents_rebuild arranged
  obtain ⟨lib', hlib', hcontents, hforeign⟩ := hrebuild library lib hlibrary hlib
  refine ⟨lib', hlib', hforeign, ?_, ?_⟩
  · rw [← Library.cores_contents, hcontents, Library.cores_dropRelations, Library.cores_contents]
  · rw [hcontents]
    exact sound.severed_iff hperm hlibrary hlib

/-! ## A knot

The class `C` of a library inherits `M` of the project, and `M` inherits `A`, whose function `F` is
overridden by that of `C`.  Then the document is rewritten: `A` inherits `C` now, and `M` nothing.
The two functions name each other, so the next time the document is read, `C` loses its relation. -/

/-- A word on a line. -/
def wordAt (line : Nat) (name : String) : Ident := ⟨name, .onLine line 0 1⟩

/-- A public class, with bases and with functions that have no parameters. -/
def classAt (line : Nat) (name : String) (bases functions : List String) : DeclNode :=
  .class ⟨.pub, wordAt line name, bases.map fun base => .ofPath [wordAt (line + 1) base] 0, [], [],
    functions.map fun function => ⟨.pub, wordAt (line + 2) function, [], []⟩⟩

/-- A document that imports libraries and declares classes. -/
def classTree (path : String) (imports : List String) (classes : List DeclNode) : FileTree :=
  ⟨path, ⟨none, imports.map fun name => ⟨[wordAt 0 name], .onLine 0 0 1⟩, [], classes⟩⟩

def knotManifest : Manifest := { name := "app", libraries := ["lib"] }

def knotSources : Sources :=
  { libraries := [("kernel", []),
      ("lib", [classTree "lib.rk" ["app"] [classAt 1 "C" ["M"] ["F"]]])] }

def knotRequests : List Request :=
  [.insert (classTree "a.rk" [] [classAt 1 "A" [] ["F"], classAt 4 "M" ["A"] []]),
    .changed "a.rk", .rebuild, .load "lib",
    .insert (classTree "a.rk" ["lib"] [classAt 1 "A" ["C"] ["F"], classAt 4 "M" [] []]),
    .changed "a.rk", .rebuild, .changed "a.rk"]

/-- What the function of `C` overrides. -/
def overridesOfC (session : Session) : Option (List DeclId) :=
  (session.libraries.relations? ⟨.ofSlot 0, .classFunction, 0, some 0⟩).map Relations.overrides

set_option maxRecDepth 20000 in
lemma overridesOfC_knot :
    (Session.start knotManifest knotSources).toOption.map (fun initial =>
      let session := initial.run knotRequests
      (session.overridesOfC, session.rebuild.1.overridesOfC))
      = some (some [⟨.project, .classFunction, 0, some 0⟩], some []) := by
  cbv

lemma overridesOfC_eq (session : Session) : session.overridesOfC
    = (session.libraries.contents? (.ofSlot 0)).bind fun lib =>
      (lib.relations? ⟨.ofSlot 0, .classFunction, 0, some 0⟩).map Relations.overrides := by
  rw [overridesOfC, LibrarySet.relations?_eq, LibrarySet.contents?]
  cases session.libraries.get? (.ofSlot 0) with
  | none => rfl
  | some lib => simp [Library.relations?_contents]

/-- The contents of the library change, although nothing has been edited but a document of the
project. -/
theorem rebuild_severs_knot :
    ∃ initial, Session.start knotManifest knotSources = .ok initial ∧
      let session := initial.run knotRequests
      session.overridesOfC = some [⟨.project, .classFunction, 0, some 0⟩] ∧
        session.rebuild.1.overridesOfC = some [] ∧
        session.rebuild.1.libraries.contents? (.ofSlot 0)
          ≠ session.libraries.contents? (.ofSlot 0) := by
  obtain ⟨initial, hstart, -⟩ := arranged_run knotManifest knotSources
  have hknot := overridesOfC_knot
  rw [hstart] at hknot
  obtain ⟨hbefore, hafter⟩ := Prod.mk.inj (Option.some.inj hknot)
  refine ⟨initial, hstart, hbefore, hafter, fun heq => ?_⟩
  have hsame := (overridesOfC_eq _).trans (congrArg (Option.bind · _) heq)
  rw [← overridesOfC_eq, hbefore, hafter] at hsame
  cases hsame

/-- The cores stay, and the functions that name each other are what is torn apart. -/
theorem libraries_kept_unless_severed_knot :
    ∃ initial, Session.start knotManifest knotSources = .ok initial ∧
      let session := initial.run knotRequests
      ∃ lib lib', session.libraries.get? (.ofSlot 0) = some lib ∧
        session.rebuild.1.libraries.get? (.ofSlot 0) = some lib' ∧ lib'.cores = lib.cores ∧
        lib'.contents ≠ lib.contents ∧ session.Severed (.ofSlot 0) := by
  obtain ⟨initial, hstart, h⟩ := libraries_kept_unless_severed knotManifest knotSources
  have hknot := overridesOfC_knot
  rw [hstart] at hknot
  obtain ⟨hbefore, hafter⟩ := Prod.mk.inj (Option.some.inj hknot)
  refine ⟨initial, hstart, ?_⟩
  have hloaded : ∃ lib, (initial.run knotRequests).libraries.get? (.ofSlot 0) = some lib := by
    rw [overridesOfC, LibrarySet.relations?_eq] at hbefore
    cases hlib : (initial.run knotRequests).libraries.get? (.ofSlot 0) with
    | none => simp [hlib] at hbefore
    | some lib => exact ⟨lib, rfl⟩
  obtain ⟨lib, hlib⟩ := hloaded
  obtain ⟨-, lib', hlib', -, hcores, hiff⟩ := h knotRequests (.ofSlot 0) lib (by decide) hlib
  have hne : lib'.contents ≠ lib.contents := by
    intro heq
    rw [overridesOfC_eq, LibrarySet.contents?, hlib] at hbefore
    rw [overridesOfC_eq, LibrarySet.contents?, hlib', Option.map_some, heq] at hafter
    rw [Option.map_some, hafter] at hbefore
    cases hbefore
  exact ⟨lib, lib', hlib, hlib', hcores, hne, not_not.1 fun hkept => hne (hiff.2 hkept)⟩

end Session

end SymbolGraph
