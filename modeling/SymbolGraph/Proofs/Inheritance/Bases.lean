import SymbolGraph.Proofs.Session.Identities

/-!
# Bases and heirs

The *kin* of a body is what it says about inheritance: its bases and its heirs, with all members set
aside.  Of all that happens to a model, only four things change the kin of a record: linking its
bases, writing an heir down, dropping the back-link of an heir, and resetting it.  The other steps
of linking and checking keep all kin (`LibrarySet.SameKin`), and writing findings down has the
effect that `Linkage.kin?_apply` states.
-/

namespace SymbolGraph

/-! ## Kin -/

/-- The body with its members set aside. -/
def Body.kin : Body → Body
  | .interface info => .interface { info with functions := [] }
  | .class info => .class { info with fields := [], constructors := [], functions := [] }
  | _ => .invalid

/-- The declarations that a body inherits: its parent class and its interfaces. -/
def Body.bases : Body → List DeclId
  | .interface info => info.inherits.filterMap Ty.declaration?
  | .class info => (info.parent.toList ++ info.inherits).filterMap Ty.declaration?
  | _ => []

namespace Body

@[simp] lemma kin_overMembers (body : Body) (category : Category)
    (f : List Member → List Member) : (body.overMembers category f).kin = body.kin := by
  cases body <;> cases category <;> rfl

@[simp] lemma implementors?_kin (body : Body) : body.kin.implementors? = body.implementors? := by
  cases body <;> rfl

@[simp] lemma bases_kin (body : Body) : body.kin.bases = body.bases := by
  cases body <;> rfl

lemma kin_setBases (parent : Option Ty) (inherits : List Ty) (body : Body) :
    (Update.setBases parent inherits body).kin = Update.setBases parent inherits body.kin := by
  cases body <;> rfl

lemma kin_overImplementors (f : List DeclId → List DeclId) (body : Body) :
    (body.overImplementors f).kin = body.kin.overImplementors f := by
  cases body <;> rfl

lemma implementors?_overImplementors (f : List DeclId → List DeclId) (body : Body) :
    (body.overImplementors f).implementors? = body.implementors?.map f := by
  cases body <;> rfl

lemma bases_overImplementors (f : List DeclId → List DeclId) (body : Body) :
    (body.overImplementors f).bases = body.bases := by
  cases body <;> rfl

lemma implementors?_setBases (parent : Option Ty) (inherits : List Ty) (body : Body) :
    (Update.setBases parent inherits body).implementors? = body.implementors? := by
  cases body <;> rfl

lemma kin_addMembers (members : List Member) (body : Body) :
    (members.foldl (fun body m => LinkMembers.addMember m body) body).kin = body.kin := by
  induction members generalizing body with
  | nil => rfl
  | cons m rest ih => rw [List.foldl_cons, ih, LinkMembers.addMember, kin_overMembers]

lemma bases_fresh (category : Category) : (Body.fresh category).bases = [] := by
  cases category <;> rfl

lemma implementors?_fresh {category : Category} {heirs : List DeclId}
    (h : (Body.fresh category).implementors? = some heirs) : heirs = [] := by
  cases category <;> simp_all [Body.fresh, implementors?]

end Body

namespace LibrarySet

variable {set set' set'' : LibrarySet}

/-- The kin of the declaration in a slot. -/
def kin? (set : LibrarySet) (id : DeclId) : Option Body :=
  (set.slot? id.library id.category id.index).map fun entry => entry.body.kin

/-- Two states of the model with the same kin everywhere. -/
structure SameKin (set set' : LibrarySet) : Prop where
  identified : set'.Identified
  kin : ∀ id, set'.kin? id = set.kin? id

lemma SameKin.refl (hid : set.Identified) : SameKin set set := ⟨hid, fun _ => rfl⟩

lemma SameKin.trans (h : SameKin set set') (k : SameKin set' set'') : SameKin set set'' :=
  ⟨k.identified, fun id => (k.kin id).trans (h.kin id)⟩

lemma SameKin.foldl {α : Type} {step : LibrarySet → α → LibrarySet} (xs : List α)
    (h : ∀ set, set.Identified → ∀ x ∈ xs, SameKin set (step set x)) (hid : set.Identified) :
    SameKin set (xs.foldl step set) := by
  induction xs generalizing set with
  | nil => exact .refl hid
  | cons x xs ih =>
    have hfirst := h set hid x (List.mem_cons_self ..)
    exact hfirst.trans (ih (fun set hset y hy => h set hset y (List.mem_cons_of_mem _ hy))
      hfirst.identified)

/-- An edit that keeps the kin of the declaration it is made on; members do not matter. -/
lemma sameKin_edit (hid : set.Identified) {target : DeclId} {edit : Edit}
    (h : ∀ entry, target.owner? = none →
      set.slot? target.library target.category target.index = some entry →
      (edit.onEntry entry).body.kin = entry.body.kin) : SameKin set (set.edit target edit) := by
  refine ⟨hid.edit target edit, fun id => ?_⟩
  rw [kin?, kin?, slot?_edit hid]
  split
  · next heq =>
    obtain ⟨hlibrary, hseat⟩ := heq
    cases hslot : set.slot? id.library id.category id.index with
    | none => rfl
    | some entry =>
      simp only [Option.map_some, Edit.atSeat, Option.some.injEq]
      split
      · next hnone =>
        refine h entry hnone ?_
        rw [DeclId.seat, hnone] at hseat
        obtain ⟨hcategory, hindex⟩ := Prod.mk.inj hseat
        rw [hlibrary, hcategory, hindex, hslot]
      · simp
  · rfl

/-- Changing the body of a top-level declaration. -/
lemma kin?_editBody (hid : set.Identified) {target id : DeclId} (htarget : target.define = none)
    (hdefine : id.define = none) {f g : Body → Body} (h : ∀ body, (f body).kin = g body.kin) :
    (set.edit target (.body f)).kin? id = if target = id then (set.kin? id).map
      g else set.kin? id := by
  have howner : target.owner? = none := by
    unfold DeclId.owner?
    rw [htarget]
    split <;> simp_all
  rw [kin?, kin?, slot?_edit hid]
  by_cases heq : target = id
  · subst heq
    rw [if_pos ⟨rfl, by rw [DeclId.seat, howner]⟩, if_pos rfl]
    cases set.slot? target.library target.category target.index with
    | none => rfl
    | some entry => simp [Edit.atSeat, howner, Edit.body, h]
  · rw [if_neg heq, if_neg]
    rintro ⟨hlibrary, hseat⟩
    rw [DeclId.seat, howner] at hseat
    obtain ⟨hcategory, hindex⟩ := Prod.mk.inj hseat
    refine heq ?_
    obtain ⟨_, _, _, _⟩ := target
    obtain ⟨_, _, _, _⟩ := id
    simp_all

/-! ## Steps that keep kin -/

lemma sameKin_overReferences (hid : set.Identified) (f : List Location → List Location)
    (target : Target) : SameKin set (set.overReferences f target) := by
  cases target with
  | declaration id => exact sameKin_edit hid fun _ _ _ => rfl
  | space ref =>
    refine ⟨hid.adjustSpace ref _, fun id => ?_⟩
    rw [kin?, overReferences, slot?_adjustSpace, kin?]

lemma sameKin_callable (hid : set.Identified) (id : DeclId) (f : Callable → Callable) :
    SameKin set (set.edit id (.callable f)) := by
  refine sameKin_edit hid fun entry _ _ => ?_
  simp only [Edit.callable, Symbol.body_map]
  cases entry.body <;> rfl

lemma sameKin_stripRelations (hid : set.Identified) (id : DeclId) :
    SameKin set (set.stripRelations id) :=
  SameKin.foldl _ (fun _ hid pair _ => sameKin_callable hid pair.1 _) hid

lemma sameKin_relate (library : LibraryId) (hid : set.Identified) (function : DeclId)
    (f : Relations → Relations) : SameKin set (relate library set function f) := by
  unfold relate
  split
  · exact sameKin_callable hid function _
  · exact .refl hid

lemma sameKin_record (library : LibraryId) (hid : set.Identified) (verdict : Verdict) :
    SameKin set (record library set verdict) := by
  have htwice {set : LibrarySet} (hid : set.Identified) (a b : DeclId)
      (f g : Relations → Relations) :
      SameKin set (relate library (relate library set a f) b g) := by
    have hfirst := sameKin_relate library hid a f
    exact hfirst.trans (sameKin_relate library hfirst.identified b g)
  have hoverride (set : LibrarySet) (hid : set.Identified) (pair : DeclId × DeclId)
      (_ : pair ∈ verdict.overrides) : SameKin set (addOverride library set pair) := by
    rw [addOverride]
    exact htwice hid ..
  have himplementation (set : LibrarySet) (hid : set.Identified) (pair : DeclId × DeclId)
      (_ : pair ∈ verdict.implements) : SameKin set (addImplementation library set pair) := by
    rw [addImplementation]
    exact htwice hid ..
  have hfirst := SameKin.foldl verdict.overrides hoverride hid
  exact hfirst.trans (SameKin.foldl verdict.implements himplementation hfirst.identified)

lemma sameKin_clearRelations (hid : set.Identified) (library : LibraryId) :
    SameKin set (set.clearRelations library) := by
  unfold clearRelations
  split
  · exact .refl hid
  · refine SameKin.foldl _ (fun set hid owner _ => sameKin_edit hid fun entry _ _ => ?_) hid
    simp [Edit.body, Body.clearRelations]

/-- Checking a library changes no kin. -/
lemma sameKin_check (hid : set.Identified) (library : LibraryId) :
    SameKin set (set.check library).1 := by
  have hclear := sameKin_clearRelations hid library
  simp only [check]
  split
  · exact hclear
  · exact hclear.trans (sameKin_record library hclear.identified _)

/-- A declaration whose category owns nothing has no kin. -/
lemma Orderly.kin_of_ownsNothing (orderly : set.Orderly) {library : LibraryId}
    {category : Category} {index : Nat} {entry : Entry}
    (hslot : set.slot? library category index = some entry) (h : category.OwnsNothing) :
    entry.body.kin = .invalid := by
  have howned := fun {c list} =>
    @Tags.Orderly.owned _ _ _ _ (orderly.tags (tags?_of_slot? hslot)) c list
  cases hbody : entry.body with
  | interface info =>
    have hlist : entry.tags.members .interfaceFunction
        = some (info.functions.map fun m => (m.id, m.references)) := by
      simp [Entry.tags, Body.tags, hbody, Body.members?]
    exact absurd (howned hlist) (h _)
  | «class» info =>
    have hlist : entry.tags.members .classFunction
        = some (info.functions.map fun m => (m.id, m.references)) := by
      simp [Entry.tags, Body.tags, hbody, Body.members?]
    exact absurd (howned hlist) (h _)
  | _ => rfl

end LibrarySet

/-! ## Writing findings down -/

/-- What an update does to the kin of a declaration. -/
def Update.onKin (id : DeclId) (kin : Body) : Update → Body
  | .inheritance target parent inherits =>
    if target = id then setBases parent inherits kin else kin
  | _ => kin

/-- The heirs that are found for a base. -/
def Findings.heirsOf (found : Findings) (id : DeclId) : List DeclId :=
  (found.heirs.filter fun pair => pair.1 = id).map Prod.snd

namespace LibrarySet

variable {set : LibrarySet}

lemma kin?_update (orderly : set.Orderly) {update : Update} (fits : update.Fits)
    (htarget : update.target.holder.define = none) {id : DeclId} (hdefine : id.define = none) :
    (update.apply set).kin? id = (set.kin? id).map fun kin => update.onKin id kin := by
  have hid := orderly.identified
  have hsame {set' : LibrarySet} (h : SameKin set set') :
      set'.kin? id = (set.kin? id).map fun kin => kin := by rw [h.kin]; simp
  cases update with
  | «variable» target info =>
    refine hsame (sameKin_edit hid fun entry _ hslot => ?_)
    rw [orderly.kin_of_ownsNothing hslot fits]
    rfl
  | callable target params returns => exact hsame (sameKin_callable hid target _)
  | task target returns =>
    refine hsame (sameKin_edit hid fun entry _ hslot => ?_)
    rw [orderly.kin_of_ownsNothing hslot fits]
    rfl
  | inheritance target parent inherits =>
    -- Only an inheritance update touches a record's kin, and only when its target is no member.
    cases howner : target.owner? with
    | none =>
      have htarget : target.define = none := by
        simpa [Update.target, DeclId.holder, howner] using htarget
      rw [Update.apply, kin?_editBody hid htarget hdefine (Body.kin_setBases parent inherits)]
      simp only [Update.onKin]
      split <;> simp
    | some owner =>
      have hne : target ≠ id := by
        rintro rfl
        unfold DeclId.owner? at howner
        rw [hdefine] at howner
        split at howner <;> simp_all
      simp only [Update.onKin, if_neg hne]
      exact hsame (sameKin_edit hid fun entry hnone => by simp [howner] at hnone)

lemma kin?_updates (orderly : set.Orderly) (updates : List Update)
    (h : ∀ update ∈ updates, update.Fits ∧ update.target.holder.define = none) {id : DeclId}
    (hdefine : id.define = none) : (updates.foldl Update.apply set).kin? id
      = (set.kin? id).map fun kin => updates.foldl (Update.onKin id) kin := by
  induction updates generalizing set with
  | nil => simp
  | cons update rest ih =>
    obtain ⟨fits, htarget⟩ := h update (List.mem_cons_self ..)
    rw [List.foldl_cons, ih ((sameTags_update orderly fits).orderly orderly)
      (fun u hu => h u (List.mem_cons_of_mem _ hu)), kin?_update orderly fits htarget hdefine,
      Option.map_map]
    rfl

/-- A lookup by identity finds the list of heirs of a declaration of its own, and no other list. -/
lemma implementors?_find? (hid : set.Identified) {base : DeclId} (hproper : base.Proper) :
    (set.find? base).bind (fun entry => entry.body.implementors?)
      = if base.define = none then (set.kin? base).bind Body.implementors? else none := by
  rw [find?_eq hid]
  cases hmember : base.category.isMember with
  | false =>
    rw [if_pos (hproper.define_of_top hmember), kin?, DeclId.seat_of_top hmember]
    cases set.slot? base.library base.category base.index <;>
      simp [DeclId.part?, DeclId.owner?_of_top hmember]
  | true =>
    obtain ⟨category, index, -, hdefine, howner, -⟩ := hproper.exists_owner hmember
    rw [if_neg (by simp [hdefine])]
    cases set.slot? base.library base.seat.1 base.seat.2 with
    | none => rfl
    | some entry =>
      simp only [Option.bind_some, DeclId.part?, howner]
      cases entry.body.members? base.category with
      | none => rfl
      | some list => cases hm : list[base.index]? <;> simp [hm, Member.toEntry, Body.implementors?]

end LibrarySet

/-- A back-link as an heir. -/
def BackLink.heir? : BackLink → Option (DeclId × DeclId)
  | .implementor base heir => some (base, heir)
  | .reference _ _ => none

/-- The heirs that a document has written down, with their bases. -/
def SourceUnit.heirs (unit : SourceUnit) : List (DeclId × DeclId) :=
  unit.links.filterMap BackLink.heir?

namespace Linkage

variable {state : Linkage}

lemma sameKin_addReference (hid : state.libraries.Identified) (found : Target × Location) :
    LibrarySet.SameKin state.libraries (state.addReference found).libraries ∧
      (state.addReference found).unit.heirs = state.unit.heirs := by
  obtain ⟨target, location⟩ := found
  simp only [addReference]
  split
  · exact ⟨.refl hid, rfl⟩
  · split
    · exact ⟨.refl hid, rfl⟩
    · refine ⟨LibrarySet.sameKin_overReferences hid _ target, ?_⟩
      simp [SourceUnit.heirs, SourceUnit.occur, BackLink.heir?]

lemma sameKin_addReferences (hid : state.libraries.Identified)
    (references : List (Target × Location)) :
    LibrarySet.SameKin state.libraries (references.foldl addReference state).libraries ∧
      (references.foldl addReference state).unit.heirs = state.unit.heirs := by
  induction references generalizing state with
  | nil => exact ⟨.refl hid, rfl⟩
  | cons found rest ih =>
    obtain ⟨hsame, hheirs⟩ := sameKin_addReference hid found
    obtain ⟨hrest, hheirs'⟩ := ih hsame.identified
    exact ⟨hsame.trans hrest, hheirs'.trans hheirs⟩

/-- What writing one heir down does. -/
lemma kin?_addHeir (hid : state.libraries.Identified) {base heir : DeclId} (hproper : base.Proper) :
    (state.addHeir (base, heir)).libraries.Identified ∧
      (∀ id, id.define = none → (state.addHeir (base, heir)).libraries.kin? id =
        (state.libraries.kin? id).map fun kin =>
          if base = id then kin.overImplementors (addNew · heir) else kin) ∧
      (∀ pair ∈ state.unit.heirs, pair ∈ (state.addHeir (base, heir)).unit.heirs) ∧
      ∀ kin heirs, base.define = none → state.libraries.kin? base = some kin →
        kin.implementors? = some heirs → (base, heir) ∈
        (state.addHeir (base, heir)).unit.heirs := by
  have hfind := LibrarySet.implementors?_find? hid hproper
  simp only [addHeir]
  split
  · next hnone =>
    rw [hfind] at hnone
    refine ⟨hid, fun id hdefine => ?_, fun _ h => h, ?_⟩
    · split
      · next heq =>
        subst heq
        rw [if_pos hdefine] at hnone
        cases hkin : state.libraries.kin? base with
        | none => rfl
        | some kin =>
          rw [hkin, Option.bind_some] at hnone
          cases kin <;> simp_all [Body.implementors?, Body.overImplementors]
      · simp
    · intro kin heirs hdefine hkin hheirs
      rw [if_pos hdefine, hkin, Option.bind_some, hheirs] at hnone
      cases hnone
  · next known hknown =>
    have hdefine : base.define = none := by
      rw [hfind] at hknown
      split at hknown
      · next hdefine => exact hdefine
      · cases hknown
    refine ⟨hid.edit base _, fun id hid' => ?_, fun pair hpair => ?_, fun _ _ _ _ _ => ?_⟩
    · rw [LibrarySet.overImplementors, LibrarySet.kin?_editBody hid hdefine hid'
        (Body.kin_overImplementors _)]
      split <;> simp
    · simp only [SourceUnit.heirs, List.filterMap_append, List.mem_append]
      exact Or.inl hpair
    · simp [SourceUnit.heirs, BackLink.heir?]

/-- What writing several heirs down does. -/
lemma kin?_addHeirs (hid : state.libraries.Identified) (heirs : List (DeclId × DeclId))
    (hproper : ∀ pair ∈ heirs, pair.1.Proper) :
    (heirs.foldl addHeir state).libraries.Identified ∧
      (∀ id, id.define = none → (heirs.foldl addHeir state).libraries.kin? id =
        (state.libraries.kin? id).map fun kin => kin.overImplementors
          (addAllNew · ((heirs.filter fun pair => pair.1 = id).map Prod.snd))) ∧
      (∀ pair ∈ state.unit.heirs, pair ∈ (heirs.foldl addHeir state).unit.heirs) ∧
      ∀ pair ∈ heirs, ∀ kin list, pair.1.define = none → state.libraries.kin? pair.1 = some kin →
        kin.implementors? = some list → pair ∈ (heirs.foldl addHeir state).unit.heirs := by
  have hid_over (body : Body) : body.overImplementors (fun list => list) = body := by
    cases body <;> rfl
  -- The back-links noted by the first heir outlive the rest, hence the third part of the statement.
  induction heirs generalizing state with
  | nil => exact ⟨hid, fun id _ => by simp [addAllNew, hid_over], fun _ h => h, by simp⟩
  | cons first rest ih =>
    obtain ⟨base, heir⟩ := first
    obtain ⟨hid₁, hkin₁, hkeep₁, hnew₁⟩ := @kin?_addHeir state hid base heir
      (hproper _ (List.mem_cons_self ..))
    obtain ⟨hid₂, hkin₂, hkeep₂, hnew₂⟩ := ih hid₁ fun p hp => hproper p (List.mem_cons_of_mem _ hp)
    refine ⟨hid₂, fun id hdefine => ?_, fun pair hpair => hkeep₂ pair (hkeep₁ pair hpair), ?_⟩
    · rw [List.foldl_cons, hkin₂ id hdefine, hkin₁ id hdefine, Option.map_map]
      refine Option.map_congr fun kin _ => ?_
      by_cases heq : base = id
      · cases kin <;> simp [heq, Body.overImplementors, addAllNew]
      · simp [heq]
    · intro pair hpair kin list hdefine hkin hlist
      rcases List.mem_cons.1 hpair with rfl | hpair
      · exact hkeep₂ _ (hnew₁ kin list hdefine hkin hlist)
      · have hkin' := hkin₁ pair.1 hdefine
        rw [hkin, Option.map_some] at hkin'
        refine hnew₂ pair hpair _ (if base = pair.1 then addNew list heir else list)
          hdefine hkin' ?_
        split <;> simp [Body.implementors?_overImplementors, hlist]

/-- What writing findings down does to kin: updates set bases, and heirs are added. -/
theorem kin?_apply (orderly : state.libraries.Orderly) {found : Findings} {near : LibraryId → Prop}
    {document : String} {own : List DeclId}
    (among : found.Among state.libraries near document own) (hown : ∀ id ∈ own, id.define = none) :
    (∀ id, id.define = none → (state.apply found).libraries.kin? id =
        (state.libraries.kin? id).map fun kin =>
          (found.updates.foldl (Update.onKin id) kin).overImplementors
          (addAllNew · (found.heirsOf id))) ∧
      (∀ pair ∈ state.unit.heirs, pair ∈ (state.apply found).unit.heirs) ∧
      ∀ pair ∈ found.heirs, ∀ kin list, pair.1.define = none →
        (state.apply found).libraries.kin? pair.1 = some kin → kin.implementors? = some list →
        pair ∈ (state.apply found).unit.heirs := by
  have hfits : ∀ update ∈ found.updates, update.Fits ∧ update.target.holder.define = none :=
    fun update h => ⟨(among.updates h).1, hown _ (among.updates h).2.1⟩
  have hproper : ∀ pair ∈ found.heirs, pair.1.Proper := by
    intro pair hpair
    obtain ⟨entry, hentry, heq⟩ := (among.heirs hpair).1.1
    rw [← heq]
    exact orderly.proper_of_find? hentry
  have hupdated := LibrarySet.KeepsOrder.foldl found.updates (fun _ orderly update hupdate =>
    (LibrarySet.sameTags_update orderly (hfits update hupdate).1).keepsOrder orderly) orderly
  obtain ⟨hsame, hheirs⟩ := @sameKin_addReferences
    ⟨found.updates.foldl Update.apply state.libraries, state.unit⟩ hupdated.orderly.identified
    found.references
  obtain ⟨-, hkin, hkeep, hnew⟩ := kin?_addHeirs hsame.identified found.heirs hproper
  have hbefore (id : DeclId) (hdefine : id.define = none) := (hsame.kin id).trans
    (LibrarySet.kin?_updates orderly found.updates hfits hdefine)
  refine ⟨fun id hdefine => ?_, fun pair hpair => hkeep pair (hheirs ▸ hpair), ?_⟩
  · refine (hkin id hdefine).trans ?_
    rw [hbefore id hdefine, Option.map_map]
    rfl
  · intro pair hpair kin list hdefine hafter hlist
    obtain ⟨kin', hkin', rfl⟩ := Option.map_eq_some_iff.1 ((hkin pair.1 hdefine).symm.trans hafter)
    rw [Body.implementors?_overImplementors] at hlist
    obtain ⟨list', hlist', -⟩ := Option.map_eq_some_iff.1 hlist
    exact hnew pair hpair kin' list' hdefine hkin' hlist'

/-- Declaring members changes no kin. -/
lemma sameKin_declareMembers (hid : state.libraries.Identified) :
    LibrarySet.SameKin state.libraries state.declareMembers.libraries := by
  have hstep (state : Linkage) (hid : state.libraries.Identified) (declared : DeclId × DeclNode) :
      LibrarySet.SameKin state.libraries (LinkMembers.declareFor state declared).libraries := by
    obtain ⟨id, node⟩ := declared
    simp only [LinkMembers.declareFor]
    split
    · exact .refl hid
    · exact LibrarySet.sameKin_edit hid fun entry _ _ => Body.kin_addMembers _ _
  unfold declareMembers
  induction state.unit.declarations.zip state.unit.nodes generalizing state with
  | nil => exact .refl hid
  | cons declared rest ih =>
    have hfirst := hstep state hid declared
    exact hfirst.trans (ih hfirst.identified)

end Linkage

end SymbolGraph
