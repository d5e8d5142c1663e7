import Mathlib.Logic.Function.Conjugate
import SymbolGraph.Proofs.Inheritance.Rebuilds
import SymbolGraph.Proofs.Model.LibraryContents

/-!
# Unlinking takes linking back

Linking a document writes into records of other documents, and leaves a back-link for each mark.
Unlinking drops the marks again and resets the document's own records.  The two cancel out, exactly
and whatever was linked in between: the changes that unlinking makes commute (`LibrarySet.Erases`),
so each mark can be dropped as if it had been the last one made, and every other change that linking
and checking make is to a record that is reset (`Edit.Passing`).

So, as long as no declaration of a document stands in a list of heirs beforehand, unlinking the
project leads from the linked model to where it would have led before (`Linkages.undo_link`,
`LibrarySet.Arranged.undo_check`), and that is the same model if the project was blank.
-/

namespace SymbolGraph

/-! ## Changes that commute -/

lemma modify_comm {α : Type} (list : List α) {i j : Nat} {f g : α → α}
    (h : i = j → Function.Commute f g) :
    (list.modify j g).modify i f = (list.modify i f).modify j g := by
  refine List.ext_getElem? fun k => ?_
  simp only [List.getElem?_modify]
  by_cases hi : i = k <;> by_cases hj : j = k
  · have hfg := h (hi.trans hj.symm)
    cases list[k]? with
    | none => simp [hi, hj]
    | some x => simpa [hi, hj] using hfg x
  all_goals simp [hi, hj]

lemma Assoc.adjust_comm {κ ν : Type} [DecidableEq κ] (m : Assoc κ ν) {a b : κ} {f g : ν → ν}
    (h : a = b → Function.Commute f g) :
    (m.adjust b g).adjust a f = (m.adjust a f).adjust b g := by
  induction m with
  | nil => rfl
  | cons entry rest ih =>
    obtain ⟨key, value⟩ := entry
    by_cases ha : key = a <;> by_cases hb : key = b
    · have hfg := h (ha.symm.trans hb)
      simpa [Assoc.adjust, ha, hb, ha.symm.trans hb] using hfg value
    · subst ha
      simp [Assoc.adjust, hb]
    · subst hb
      simp [Assoc.adjust, ha]
    · simp [Assoc.adjust, ha, hb, ih]

lemma Assoc.adjust_adjust {κ ν : Type} [DecidableEq κ] (m : Assoc κ ν) (k : κ) (f g : ν → ν) :
    (m.adjust k f).adjust k g = m.adjust k fun value => g (f value) := by
  induction m with
  | nil => rfl
  | cons entry rest ih => by_cases h : entry.1 = k <;> simp [Assoc.adjust, h, ih]

/-- An edit that does not look at members: it commutes with changes of single members. -/
def Edit.Blind (edit : Edit) : Prop :=
  ∀ category i (f : Member → Member), Function.Commute edit.onEntry
    (Symbol.map (Body.overMembers category fun members => members.modify i f))

/-- Edits of symbols that commute, whether the symbols are top-level or members. -/
structure Edit.Commute (a b : Edit) : Prop where
  onEntry : Function.Commute a.onEntry b.onEntry
  onMember : Function.Commute a.onMember b.onMember

lemma Body.overMembers_comm (body : Body) {c c' : Category} {f g : List Member → List Member}
    (h : c = c' → Function.Commute f g) :
    (body.overMembers c' g).overMembers c f = (body.overMembers c f).overMembers c' g := by
  by_cases hc : c = c'
  · subst hc
    have hfg := h rfl
    cases body <;> cases c <;> simp [Body.overMembers, hfg.eq]
  · cases body <;> cases c <;> cases c' <;> first | rfl | exact absurd rfl hc

lemma Edit.commute_atSeat {a b : Edit} (ha : a.Blind) (hb : b.Blind) (h : a.Commute b)
    (id id' : DeclId) : Function.Commute (a.atSeat id) (b.atSeat id') := by
  intro entry
  unfold Edit.atSeat
  cases id.owner? <;> cases id'.owner?
  · exact h.onEntry entry
  · exact ha _ _ _ entry
  · exact (hb _ _ _ entry).symm
  · exact congrArg (fun body => { entry with body }) (Body.overMembers_comm entry.body
      fun _ list => modify_comm list fun _ => h.onMember)

namespace Library

lemma adjustSlot_comm (lib : Library) {c c' : Category} {i i' : Nat} {f g : Entry → Entry}
    (h : (c, i) = (c', i') → Function.Commute f g) :
    (lib.adjustSlot c' i' g).adjustSlot c i f = (lib.adjustSlot c i f).adjustSlot c' i' g := by
  refine congrArg (fun tables => { lib with tables }) (Assoc.adjust_comm _ fun hc table => ?_)
  refine modify_comm table fun hi slot => ?_
  have hfg := h (by rw [hc, hi])
  cases slot with
  | none => rfl
  | some entry => exact congrArg some (hfg entry)

lemma adjustSlot_adjustSlot (lib : Library) (c : Category) (i : Nat) (f g : Entry → Entry) :
    (lib.adjustSlot c i f).adjustSlot c i g = lib.adjustSlot c i fun entry => g (f entry) := by
  refine congrArg (fun tables => { lib with tables }) ?_
  refine (Assoc.adjust_adjust _ _ _ _).trans
    (congrArg (lib.tables.adjust c) (funext fun table => ?_))
  rw [List.modify_modify_eq]
  congr 1
  funext slot
  cases slot <;> rfl

/-- Edits of declarations at different seats always commute. -/
lemma edit_comm (lib : Library) {id id' : DeclId} {a b : Edit}
    (h : id.seat = id'.seat → Function.Commute (a.atSeat id) (b.atSeat id')) :
    (lib.edit id' b).edit id a = (lib.edit id a).edit id' b := by
  simp only [edit_eq]
  by_cases hid : id.library = lib.id <;> by_cases hid' : id'.library = lib.id
  · simp only [hid, hid', if_true, adjustSlot]
    exact lib.adjustSlot_comm h
  all_goals simp [hid, hid', adjustSlot]

end Library

namespace LibrarySet

variable (set : LibrarySet)

lemma adjust_comm {id id' : LibraryId} {f g : Library → Library}
    (h : id = id' → Function.Commute f g) :
    (set.adjust id' g).adjust id f = (set.adjust id f).adjust id' g := by
  by_cases hid : id = id'
  · subst hid
    rw [adjust_adjust, adjust_adjust]
    exact congrArg (set.adjust id) (funext fun lib => h rfl lib)
  · have hslot : ∀ {i j}, id.slot? = some i → id'.slot? = some j → i ≠ j := by
      rintro i _ hi hj rfl
      exact hid (LibraryId.slot?_inj hi hj)
    unfold adjust
    cases hs : id.slot? <;> cases hs' : id'.slot? <;> split_ifs <;> try rfl
    all_goals simp_all
    exact modify_comm set.imports fun h => absurd h hslot

lemma edit_comm {id id' : DeclId} {a b : Edit}
    (h : id.library = id'.library → id.seat = id'.seat →
      Function.Commute (a.atSeat id) (b.atSeat id')) :
    (set.edit id' b).edit id a = (set.edit id a).edit id' b :=
  set.adjust_comm fun hlibrary lib => lib.edit_comm (h hlibrary)

/-- Two edits at one seat are one. -/
lemma edit_edit {id target : DeclId} {a b c : Edit} (hlibrary : id.library = target.library)
    (hseat : id.seat = target.seat)
    (h : ∀ entry, b.atSeat id (a.atSeat target entry) = c.atSeat id entry) :
    (set.edit target a).edit id b = set.edit id c := by
  unfold edit
  rw [hlibrary, adjust_adjust]
  refine congrArg (set.adjust target.library) (funext fun lib => ?_)
  simp only [Library.edit_eq, hlibrary, hseat]
  split
  · next hlib =>
    rw [if_pos (by exact hlib), Library.adjustSlot_adjustSlot]
    exact congrArg (lib.adjustSlot _ _) (funext h)
  · simp_all

lemma edit_adjustSpace_comm (id : DeclId) (a : Edit) (ref : SpaceRef)
    (f : Namespace → Namespace) :
    (set.adjustSpace ref f).edit id a = (set.edit id a).adjustSpace ref f := by
  refine set.adjust_comm fun _ lib => ?_
  simp only [Library.edit_eq]
  split <;> rfl

lemma adjustSpace_comm (ref ref' : SpaceRef) {f g : Namespace → Namespace}
    (h : Function.Commute f g) :
    (set.adjustSpace ref' g).adjustSpace ref f = (set.adjustSpace ref f).adjustSpace ref' g := by
  refine set.adjust_comm fun _ lib => ?_
  refine congrArg (fun slots => { lib with spaces := { lib.spaces with slots } }) ?_
  refine modify_comm lib.spaces.slots fun _ slot => ?_
  cases slot with
  | none => rfl
  | some space => exact congrArg some (h space)

end LibrarySet

/-! ## Erasures -/

lemma Body.overImplementors_fresh (category : Category) {f : List DeclId → List DeclId}
    (h : f [] = []) : (Body.fresh category).overImplementors f = Body.fresh category := by
  cases category <;> simp [Body.fresh, Body.overImplementors, h]

lemma Body.commute_overImplementors {f g : List DeclId → List DeclId} (h : Function.Commute f g) :
    Function.Commute (Body.overImplementors f) (Body.overImplementors g) := by
  intro body
  cases body <;> simp [Body.overImplementors, h.eq]

lemma commute_filter {α : Type} (p q : α → Bool) :
    Function.Commute (List.filter p) (List.filter q) := by
  intro list
  simp [List.filter_filter, Bool.and_comm]

/-- The edits that unlinking makes. -/
inductive Edit.Erases : Edit → Prop
  | reference (location : Location) : Edit.Erases (.references (·.erase location))
  | heir (heir : DeclId) : Edit.Erases (.body (Body.overImplementors (·.filter (· ≠ heir))))
  | reset : Edit.Erases .reset

namespace Edit.Erases

variable {a b : Edit}

lemma blind (h : a.Erases) : a.Blind := by
  intro category i f entry
  cases h with
  | reference => rfl
  | heir =>
    simp only [Edit.body, Symbol.map]
    congr 1
    cases entry.body <;> cases category <;> rfl
  | reset =>
    simp only [Edit.reset, Symbol.map]
    congr 1
    exact (Body.overMembers_fresh entry.id.category category (by simp)).symm

lemma commute (ha : a.Erases) (hb : b.Erases) : a.Commute b := by
  -- Different parts of a record are edited independently; of one part, erasing two things commutes,
  -- and a reset leaves nothing to erase.
  cases ha with
  | reference location =>
    cases hb with
    | reference location' =>
      constructor <;> intro symbol <;> simp [Edit.references, List.erase_comm location]
    | heir => exact ⟨fun _ => rfl, fun _ => rfl⟩
    | reset => exact ⟨fun _ => rfl, fun _ => rfl⟩
  | heir heir =>
    cases hb with
    | reference => exact ⟨fun _ => rfl, fun _ => rfl⟩
    | heir heir' =>
      refine ⟨fun entry => ?_, fun _ => rfl⟩
      have h := Body.commute_overImplementors (commute_filter (· ≠ heir) (· ≠ heir'))
      exact congrArg (fun body => ({ entry with body } : Entry)) (h entry.body)
    | reset =>
      refine ⟨fun entry => ?_, fun _ => rfl⟩
      exact congrArg (fun body => ({ entry with body } : Entry))
        (Body.overImplementors_fresh entry.id.category rfl)
  | reset =>
    cases hb with
    | reference => exact ⟨fun _ => rfl, fun _ => rfl⟩
    | heir =>
      refine ⟨fun entry => ?_, fun _ => rfl⟩
      exact congrArg (fun body => ({ entry with body } : Entry))
        (Body.overImplementors_fresh entry.id.category rfl).symm
    | reset => exact ⟨fun _ => rfl, fun _ => rfl⟩

end Edit.Erases

/-- A change that unlinking makes in the model. -/
inductive LibrarySet.Erases : (LibrarySet → LibrarySet) → Prop
  | edit (id : DeclId) {a : Edit} (h : a.Erases) : LibrarySet.Erases (·.edit id a)
  | space (ref : SpaceRef) (location : Location) : LibrarySet.Erases (·.adjustSpace ref
      fun node => { node with references := node.references.erase location })

/-- Unlinking can make its changes in any order. -/
lemma LibrarySet.Erases.commute {F G : LibrarySet → LibrarySet} (hF : LibrarySet.Erases F)
    (hG : LibrarySet.Erases G) : Function.Commute F G := by
  intro set
  cases hF with
  | edit id ha =>
    cases hG with
    | edit id' hb =>
      exact set.edit_comm fun _ _ => Edit.commute_atSeat ha.blind hb.blind (ha.commute hb) id id'
    | space ref location => exact set.edit_adjustSpace_comm id _ ref _
  | space ref location =>
    cases hG with
    | edit id hb => exact (set.edit_adjustSpace_comm id _ ref _).symm
    | space ref' location' =>
      exact set.adjustSpace_comm ref ref' fun space => by simp [List.erase_comm location]

lemma Linkage.erases_dropLink (link : BackLink) : LibrarySet.Erases (dropLink · link) := by
  cases link with
  | reference target location =>
    cases target with
    | declaration id => exact .edit id (.reference location)
    | space ref => exact .space ref location
  | implementor base heir => exact .edit base (.heir heir)

lemma foldl_eq_self {α β : Type} {step : β → α → β} {b : β} {xs : List α}
    (h : ∀ x ∈ xs, step b x = b) : xs.foldl step b = b := by
  induction xs with
  | nil => rfl
  | cons x rest ih =>
    rw [List.foldl_cons, h x List.mem_cons_self]
    exact ih fun y hy => h y (List.mem_cons_of_mem x hy)

/-- What commutes with every step commutes with all of them. -/
lemma commute_foldl {α β : Type} {F : β → β} {step : β → α → β} (xs : List α)
    (h : ∀ x ∈ xs, Function.Commute F (step · x)) :
    Function.Commute F fun b => xs.foldl step b := by
  induction xs with
  | nil => exact fun _ => rfl
  | cons x rest ih =>
    have hrest := ih fun y hy => h y (List.mem_cons_of_mem x hy)
    exact hrest.comp_right (h x List.mem_cons_self)

/-! ## Unlinking -/

/-- The model when a document has been unlinked. -/
def SourceUnit.undo (unit : SourceUnit) (set : LibrarySet) : LibrarySet :=
  (Linkage.unlink ⟨set, unit⟩).libraries

namespace SourceUnit

variable {unit : SourceUnit} {F : LibrarySet → LibrarySet}

lemma commute_undo (hF : LibrarySet.Erases F) (unit : SourceUnit) :
    Function.Commute F unit.undo :=
  (commute_foldl unit.declarations fun id _ => hF.commute (.edit id .reset)).comp_right
    (commute_foldl unit.links fun link _ => hF.commute (Linkage.erases_dropLink link))

lemma commute_undo_undo (unit unit' : SourceUnit) : Function.Commute unit.undo unit'.undo := by
  have hlinks : Function.Commute (unit.links.foldl Linkage.dropLink) unit'.undo :=
    (commute_foldl unit.links fun link _ =>
      (commute_undo (Linkage.erases_dropLink link) unit').symm).symm
  have hdeclarations : Function.Commute
      (unit.declarations.foldl fun set id => LibrarySet.edit set id .reset) unit'.undo :=
    (commute_foldl unit.declarations fun id _ => (commute_undo (.edit id .reset) unit').symm).symm
  exact hdeclarations.comp_left hlinks

/-- The declarations may as well be reset first. -/
lemma undo_eq (unit : SourceUnit) (set : LibrarySet) : unit.undo set
    = unit.links.foldl Linkage.dropLink (unit.declarations.foldl (·.edit · .reset) set) := by
  have h : Function.Commute
      (fun set : LibrarySet => unit.declarations.foldl (·.edit · .reset) set)
      (fun set => unit.links.foldl Linkage.dropLink set) :=
    commute_foldl unit.links fun link _ => (commute_foldl unit.declarations fun id _ =>
      (Linkage.erases_dropLink link).commute (.edit id .reset)).symm
  exact h set

/-- A back-link may as well be dropped first. -/
lemma undo_of_links_append {unit' : SourceUnit} {link : BackLink}
    (hdeclarations : unit'.declarations = unit.declarations)
    (hlinks : unit'.links = unit.links ++ [link]) (set : LibrarySet) :
    unit'.undo set = unit.undo (Linkage.dropLink set link) := by
  have h := commute_undo (Linkage.erases_dropLink link) unit set
  rw [← h, undo_eq, undo_eq, hdeclarations, hlinks, List.foldl_append]
  rfl

end SourceUnit

/-! ## Edits that resetting makes up for -/

lemma DeclId.holder_seat (id : DeclId) :
    id.holder.library = id.library ∧ id.holder.seat = id.seat := by
  obtain ⟨library, category, index, define⟩ := id
  cases category <;> cases define <;> simp [holder, seat, owner?, Category.owner?]

/-- Resetting a declaration makes up for the edit. -/
def Edit.Passing (edit : Edit) (id : DeclId) : Prop :=
  ∀ entry, Edit.reset.onEntry (edit.atSeat id entry) = Edit.reset.onEntry entry

lemma Edit.passing_of_onEntry {edit : Edit}
    (h : ∀ entry, Edit.reset.onEntry (edit.onEntry entry) = Edit.reset.onEntry entry)
    (id : DeclId) : edit.Passing id := by
  intro entry
  unfold Edit.atSeat
  split
  · exact h entry
  · rfl

lemma Edit.passing_body (f : Body → Body) (id : DeclId) : (Edit.body f).Passing id :=
  passing_of_onEntry (fun _ => rfl) id

lemma Edit.passing_callable (f : Callable → Callable) (id : DeclId) :
    (Edit.callable f).Passing id :=
  passing_of_onEntry (fun _ => rfl) id

/-- Updates are passing edits. -/
lemma Update.exists_passing (update : Update) : ∃ edit : Edit, edit.Passing update.target ∧
    ∀ set, update.apply set = set.edit update.target edit := by
  rcases update with _ | _ | _ | _
  · exact ⟨_, Edit.passing_of_onEntry (fun _ => rfl) _, fun _ => rfl⟩
  · exact ⟨_, Edit.passing_callable _ _, fun _ => rfl⟩
  · exact ⟨_, Edit.passing_body _ _, fun _ => rfl⟩
  · exact ⟨_, Edit.passing_body _ _, fun _ => rfl⟩

namespace LibrarySet

/-- Resetting a declaration makes up for an edit of it or of a member. -/
lemma reset_edit_of_passing (set : LibrarySet) {id target : DeclId} {edit : Edit}
    (hpassing : edit.Passing target) (htop : id.owner? = none)
    (hlibrary : id.library = target.library) (hseat : id.seat = target.seat) :
    (set.edit target edit).edit id .reset = set.edit id .reset := by
  have hreset : Edit.reset.atSeat id = Edit.reset.onEntry := by
    unfold Edit.atSeat
    simp [htop]
  refine set.edit_edit hlibrary hseat ?_
  rw [hreset]
  exact hpassing

lemma resets_edit_of_passing (set : LibrarySet) (decls : List DeclId) {id target : DeclId}
    {edit : Edit} (hpassing : edit.Passing target) (htop : ∀ other ∈ decls, other.owner? = none)
    (hid : id ∈ decls) (hlibrary : id.library = target.library) (hseat : id.seat = target.seat) :
    decls.foldl (·.edit · .reset) (set.edit target edit) = decls.foldl (·.edit · .reset) set := by
  induction decls generalizing set with
  | nil => simp at hid
  | cons other rest ih =>
    simp only [List.foldl_cons]
    by_cases hsame : other.library = target.library ∧ other.seat = target.seat
    · rw [set.reset_edit_of_passing hpassing (htop other List.mem_cons_self) hsame.1 hsame.2]
    · have hrest : id ∈ rest := (List.mem_cons.1 hid).resolve_left fun h =>
        hsame (h ▸ ⟨hlibrary, hseat⟩)
      rw [set.edit_comm fun h h' => absurd ⟨h, h'⟩ hsame,
        ih _ (fun other hother => htop other (List.mem_cons_of_mem _ hother)) hrest]

end LibrarySet

namespace SourceUnit

/-- Unlinking a document makes up for edits of its own declarations and their members. -/
lemma undo_edit_of_passing {unit : SourceUnit} (set : LibrarySet) {id target : DeclId}
    {edit : Edit} (hpassing : edit.Passing target)
    (htop : ∀ other ∈ unit.declarations, other.owner? = none) (hid : id ∈ unit.declarations)
    (hlibrary : id.library = target.library) (hseat : id.seat = target.seat) :
    unit.undo (set.edit target edit) = unit.undo set := by
  rw [undo_eq, undo_eq, set.resets_edit_of_passing _ hpassing htop hid hlibrary hseat]

end SourceUnit

/-! ## Taking marks back -/

lemma Edit.atSeat_atSeat {a b c : Edit}
    (hentry : ∀ entry, b.onEntry (a.onEntry entry) = c.onEntry entry)
    (hmember : ∀ m, b.onMember (a.onMember m) = c.onMember m) (id : DeclId) (entry : Entry) :
    b.atSeat id (a.atSeat id entry) = c.atSeat id entry := by
  have hcompose : b.onMember ∘ a.onMember = c.onMember := funext hmember
  unfold atSeat
  split
  · exact hentry entry
  · simp only [Symbol.map, Body.overMembers_overMembers, List.modify_modify_eq, hcompose]

namespace LibrarySet

variable (set : LibrarySet)

lemma adjust_eq_self {id : LibraryId} {f : Library → Library}
    (h : ∀ lib, set.get? id = some lib → f lib = lib) : set.adjust id f = set := by
  cases hlib : set.get? id with
  | some lib => exact (adjust_congr hlib (h lib hlib)).trans (set.adjust_id id)
  | none =>
    unfold get? at hlib
    unfold adjust
    split_ifs at hlib ⊢
    cases hslot : id.slot? with
    | none => rfl
    | some slot =>
      rw [hslot, Option.bind_some] at hlib
      simp only
      rw [List.modify_eq_self (List.getElem?_eq_none_iff.1 hlib)]

lemma edit_eq_self {id : DeclId} {edit : Edit}
    (h : ∀ lib entry, set.get? id.library = some lib → id.library = lib.id →
      lib.slot? id.seat.1 id.seat.2 = some entry → edit.atSeat id entry = entry) :
    set.edit id edit = set := by
  refine set.adjust_eq_self fun lib hlib => ?_
  rw [Library.edit_eq]
  split
  · next hid => exact lib.adjustSlot_eq_self _ _ fun entry => h lib entry hlib hid
  · rfl

/-- Edits that do the same to the record they are made on. -/
lemma edit_congr {id : DeclId} {a b : Edit}
    (h : ∀ lib entry, set.get? id.library = some lib → id.library = lib.id →
      lib.slot? id.seat.1 id.seat.2 = some entry → a.atSeat id entry = b.atSeat id entry) :
    set.edit id a = set.edit id b := by
  cases hlib : set.get? id.library with
  | none =>
    have hself (edit : Edit) : set.edit id edit = set :=
      set.edit_eq_self fun lib entry hlib' => by simp [hlib] at hlib'
    rw [hself, hself]
  | some lib =>
    refine adjust_congr hlib ?_
    rw [Library.edit_eq, Library.edit_eq]
    split
    · next hid => exact lib.adjustSlot_congr _ _ fun entry => h lib entry hlib hid
    · rfl

lemma overReferences_overReferences (f g : List Location → List Location) (target : Target) :
    (set.overReferences f target).overReferences g target
      = set.overReferences (fun refs => g (f refs)) target := by
  cases target with
  | declaration id =>
    exact set.edit_edit rfl rfl (Edit.atSeat_atSeat (fun _ => rfl) (fun _ => rfl) id)
  | space ref =>
    refine (set.adjust_adjust _ _ _).trans
      (congrArg (set.adjust ref.library) (funext fun lib => ?_))
    simp only [Arena.adjust, List.modify_modify_eq]
    congr 3
    funext slot
    cases slot <;> rfl

lemma overReferences_eq_self {f : List Location → List Location} {target : Target}
    (h : ∀ refs, set.references? target = some refs → f refs = refs) :
    set.overReferences f target = set := by
  cases target with
  | declaration id =>
    refine set.edit_eq_self fun lib entry hlib hid hslot => ?_
    have hfind : set.find? id = id.part? entry := by
      rw [find?, hlib, Option.bind_some, Library.find?_eq, if_pos hid, hslot, Option.bind_some]
    simp only [references?, hfind, DeclId.part?] at h
    refine Edit.atSeat_eq_self (fun howner => ?_) fun {list m} howner hlist hm => ?_
    · rw [howner] at h
      simp only [Edit.references, h _ rfl]
    · obtain ⟨owner, howner⟩ := Option.isSome_iff_exists.1 howner
      simp only [howner] at h
      have hrefs := h m.references (by simp [hlist, hm, Member.toEntry])
      simp only [Edit.references, hrefs]
  | space ref =>
    refine set.adjust_eq_self fun lib hlib => ?_
    refine congrArg (fun slots => { lib with spaces := { lib.spaces with slots } }) ?_
    refine modify_eq_self fun slot hslot => ?_
    cases slot with
    | none => rfl
    | some space =>
      have hrefs := h space.references (by simp [references?, space?, hlib, Arena.get?, hslot])
      simp only [Option.map_some, hrefs]

end LibrarySet

namespace Linkage

/-- Dropping a reference that is new takes it back. -/
lemma dropLink_overReferences (set : LibrarySet) {target : Target} {known : List Location}
    (hknown : set.references? target = some known) {location : Location} (hnew : location ∉ known) :
    dropLink (set.overReferences (· ++ [location]) target) (.reference target location) = set := by
  refine (set.overReferences_overReferences _ _ target).trans (set.overReferences_eq_self ?_)
  intro refs hrefs
  obtain rfl : known = refs := by simpa [hknown] using hrefs
  simp [List.erase_append_right _ hnew]

/-- Dropping an heir takes it back, whether it was new or not. -/
lemma dropLink_overImplementors (set : LibrarySet) (base heir : DeclId) :
    dropLink (set.overImplementors base (addNew · heir)) (.implementor base heir)
      = dropLink set (.implementor base heir) := by
  have hfilter (list : List DeclId) :
      (addNew list heir).filter (· ≠ heir) = list.filter (· ≠ heir) := by
    unfold addNew
    split <;> simp
  have hbody (body : Body) : (body.overImplementors (addNew · heir)).overImplementors
      (·.filter (· ≠ heir)) = body.overImplementors (·.filter (· ≠ heir)) := by
    cases body <;> simp only [Body.overImplementors, hfilter]
  refine set.edit_edit rfl rfl (Edit.atSeat_atSeat (fun entry => ?_) (fun _ => rfl) base)
  exact congrArg (fun body => ({ entry with body } : Entry)) (hbody entry.body)

/-- Dropping an heir that stands in no list changes nothing. -/
lemma dropLink_of_unlisted {set : LibrarySet} {heir : DeclId}
    (h : ∀ base : DeclId, base.define = none → ¬ set.Lists base heir) (base : DeclId) :
    dropLink set (.implementor base heir) = set := by
  refine set.edit_eq_self fun lib entry hlib _ hslot => ?_
  refine Edit.atSeat_eq_self (fun howner => ?_) fun _ _ _ => rfl
  have hseat : set.slot? base.library base.seat.1 base.seat.2 = some entry := by
    rw [LibrarySet.slot?_of_get? hlib, hslot]
  have hnew : ∀ list, entry.body.implementors? = some list → heir ∉ list := fun list hlist hmem =>
    h ⟨base.library, base.seat.1, base.seat.2, none⟩ rfl
      ⟨list, by simp [LibrarySet.heirs?, LibrarySet.kin?, hseat, hlist], hmem⟩
  have hfilter : ∀ list, entry.body.implementors? = some list → list.filter (· ≠ heir) = list :=
    fun list hlist => List.filter_eq_self.2 fun id hid =>
      decide_eq_true fun (heq : id = heir) => hnew list hlist (heq ▸ hid)
  refine congrArg (fun body => ({ entry with body } : Entry)) ?_
  cases hbody : entry.body <;>
    first | rfl | simp only [Body.overImplementors, hfilter _ (by rw [hbody]; rfl)]

end Linkage

/-! ## Linking -/

/-- The model when several documents have been unlinked. -/
def Linkages.undo (units : List SourceUnit) (set : LibrarySet) : LibrarySet :=
  units.foldl (fun set unit => unit.undo set) set

namespace Linkages

lemma libraries_unlink (set : LibrarySet) (units : List SourceUnit) :
    (each Linkage.unlink set units).libraries = undo units set := by
  induction units generalizing set with
  | nil => rfl
  | cons unit rest ih => exact ih _

/-- Documents can be unlinked in any order. -/
lemma undo_perm {units units' : List SourceUnit} (h : units.Perm units') (set : LibrarySet) :
    undo units set = undo units' set :=
  h.foldl_eq' (fun unit _ unit' _ set => unit'.commute_undo_undo unit set) set

lemma commute_undo {F : LibrarySet → LibrarySet} (hF : LibrarySet.Erases F)
    (units : List SourceUnit) : Function.Commute F (undo units) :=
  commute_foldl units fun unit _ => SourceUnit.commute_undo hF unit

end Linkages

namespace Linkage

variable {state : Linkage} {others : List SourceUnit} {origin : LibrarySet}

/-- Unlinking the document at hand and the others leads back to `origin`. -/
def Reverts (origin : LibrarySet) (others : List SourceUnit) (state : Linkage) : Prop :=
  Linkages.undo others (state.unit.undo state.libraries) = origin

/-- One back-link more. -/
lemma Reverts.of_link {after : Linkage} {link : BackLink}
    (h : Linkages.undo others (state.unit.undo (dropLink after.libraries link)) = origin)
    (hdeclarations : after.unit.declarations = state.unit.declarations)
    (hlinks : after.unit.links = state.unit.links ++ [link]) : after.Reverts origin others := by
  rw [Reverts, SourceUnit.undo_of_links_append hdeclarations hlinks, h]

lemma Reverts.addReference (h : state.Reverts origin others) (found : Target × Location) :
    (state.addReference found).Reverts origin others := by
  obtain ⟨target, location⟩ := found
  unfold Linkage.addReference
  dsimp only
  split
  · exact h
  · next known hknown =>
    split
    · exact h
    · next hnew =>
      refine @of_link state others origin _ (.reference target location) ?_ rfl rfl
      rw [dropLink_overReferences state.libraries hknown hnew]
      exact h

/-- An heir that `origin` does not list. -/
lemma Reverts.addHeir (h : state.Reverts origin others) {base heir : DeclId}
    (hunlisted : ∀ base : DeclId, base.define = none → ¬ origin.Lists base heir) :
    (state.addHeir (base, heir)).Reverts origin others := by
  unfold Linkage.addHeir
  dsimp only
  split
  · exact h
  · have hlink := erases_dropLink (.implementor base heir)
    refine @of_link state others origin _ (.implementor base heir) ?_ rfl rfl
    rw [dropLink_overImplementors, ← SourceUnit.commute_undo hlink state.unit,
      ← Linkages.commute_undo hlink others, h]
    exact dropLink_of_unlisted hunlisted base

/-- Edits of the document's own declarations and their members. -/
lemma Reverts.edit (h : state.Reverts origin others)
    (htop : ∀ id ∈ state.unit.declarations, id.owner? = none) {target : DeclId} {edit : Edit}
    (hpassing : edit.Passing target) (hholder : target.holder ∈ state.unit.declarations) :
    Reverts origin others { state with libraries := state.libraries.edit target edit } := by
  refine (congrArg (Linkages.undo others) ?_).trans h
  obtain ⟨hlibrary, hseat⟩ := target.holder_seat
  exact SourceUnit.undo_edit_of_passing state.libraries hpassing htop hholder hlibrary hseat

/-- Findings about the document, if none of its declarations is listed in `origin`. -/
lemma Reverts.apply (h : state.Reverts origin others)
    (htop : ∀ id ∈ state.unit.declarations, id.owner? = none)
    (hunlisted : state.unit.Unlisted origin) {near : LibraryId → Prop} {found : Findings}
    (among : found.Among state.libraries near state.unit.path state.unit.declarations) :
    (state.apply found).Reverts origin others := by
  have hupdates : Reverts origin others
      ⟨found.updates.foldl Update.apply state.libraries, state.unit⟩ := by
    refine List.foldlRecOn (motive := fun set => Reverts origin others ⟨set, state.unit⟩)
      found.updates Update.apply h fun set hset update hupdate => ?_
    obtain ⟨edit, hpassing, happly⟩ := update.exists_passing
    rw [happly]
    exact @Reverts.edit ⟨set, state.unit⟩ _ _ hset htop _ _ hpassing (among.updates hupdate).2.1
  have hreferences := List.foldlRecOn (motive := Reverts origin others) found.references
    Linkage.addReference hupdates fun state hstate reference _ => hstate.addReference reference
  exact List.foldlRecOn (motive := Reverts origin others) found.heirs Linkage.addHeir hreferences
    fun state hstate pair hpair => hstate.addHeir (hunlisted pair.2 (among.heirs hpair).2)

end Linkage

lemma LibrarySet.Settled.top {set : LibrarySet} {units : List SourceUnit}
    (settled : set.Settled units) {unit : SourceUnit} (hunit : unit ∈ units) :
    ∀ id ∈ unit.declarations, id.owner? = none :=
  fun _ hid => DeclId.owner?_of_top (settled.declared hunit hid).2.1

namespace Linkage

variable {state : Linkage} {others gone : List SourceUnit} {origin : LibrarySet}

lemma Reverts.linkImports (h : state.Reverts origin gone)
    (arranged : state.libraries.Arranged (state.unit :: others))
    (hunlisted : state.unit.Unlisted origin) : state.linkImports.Reverts origin gone := by
  obtain ⟨hamong, -⟩ := state.among_everywhere.imported arranged.legible
  have htop := arranged.settled.top List.mem_cons_self
  rw [linkImports_eq arranged.settled]
  exact @Reverts.apply ⟨state.libraries, { state.unit with scopes := state.imported.1 }⟩ gone origin
    h htop hunlisted _ _ hamong

lemma Reverts.declareMembers (h : state.Reverts origin gone)
    (htop : ∀ id ∈ state.unit.declarations, id.owner? = none) :
    state.declareMembers.Reverts origin gone := by
  refine (List.foldlRecOn (motive := fun mid : Linkage => mid.Reverts origin gone ∧
    mid.unit.declarations = state.unit.declarations) _ LinkMembers.declareFor ⟨h, rfl⟩ ?_).1
  rintro mid ⟨hmid, hdeclarations⟩ ⟨id, node⟩ hpair
  have hid : id ∈ state.unit.declarations := (List.of_mem_zip hpair).1
  have hholder : id.holder = id := by rw [DeclId.holder, htop id hid, Option.getD_none]
  unfold LinkMembers.declareFor
  dsimp only
  split
  · exact ⟨hmid, hdeclarations⟩
  · exact ⟨hmid.edit (hdeclarations ▸ htop) (Edit.passing_body _ id)
      (by rwa [hholder, hdeclarations]), hdeclarations⟩

end Linkage

namespace Linkages

/-- The documents of the project. -/
def own (units : List SourceUnit) : List SourceUnit :=
  units.filter fun unit => unit.library = .project

variable {set origin : LibrarySet} {batch others units : List SourceUnit}

/-- Unlinking some documents, and `gone` with them, leads back to where it led before they were
linked. -/
lemma undo_link_append (arranged : set.Arranged (batch ++ others))
    (hundeclared : ∀ unit ∈ batch, unit.Undeclared) {gone : List SourceUnit}
    (hunlisted : ∀ unit ∈ batch, unit.Unlisted (undo (batch ++ gone) set)) (options : LinkOptions) :
    undo ((Linkages.link ⟨set, batch⟩ options).units ++ gone)
        (Linkages.link ⟨set, batch⟩ options).libraries
      = undo (batch ++ gone) set := by
  generalize horigin : undo (batch ++ gone) set = origin at hunlisted ⊢
  let P (set : LibrarySet) (units : List SourceUnit) : Prop :=
    set.Arranged (units ++ others) ∧ undo (units ++ gone) set = origin
  have hstep {state after : Linkage} {rest : List SourceUnit}
      (h : P state.libraries (state.unit :: rest)) (hunit : state.unit.Unlisted origin)
      (same : Linkage.SameSkeleton state after)
      (arranged : after.libraries.Arranged (after.unit :: (rest ++ others)))
      (hreverts : state.Reverts origin (rest ++ gone) → after.Reverts origin (rest ++ gone)) :
      P after.libraries (after.unit :: rest) ∧ after.unit.Unlisted origin :=
    ⟨⟨arranged, hreverts h.2⟩, hunit.of_thins (.refl origin) same.2⟩
  have hstart : P set (batch ++ []) := by
    rw [List.append_nil]
    exact ⟨arranged, horigin⟩
  have hlink := link_each options P (fun unit => unit.Undeclared ∧ unit.Unlisted origin)
    (fun unit => unit.Unlisted origin)
    (fun h hperm => ⟨h.1.perm (hperm.append_right _),
      (undo_perm (hperm.append_right _) _).symm.trans h.2⟩)
    (fun h hunit => ?_) (fun h hunit => ?_) (fun h hunit => ?_) (fun h hunit => ?_)
    hstart (fun unit hunit => ⟨hundeclared unit hunit, hunlisted unit hunit⟩)
  · rw [List.append_nil] at hlink
    exact hlink.2
  · obtain ⟨hP, hQ⟩ := hstep h hunit.2 (Linkage.sameSkeleton_linkImports _)
      (Linkage.arranged_linkImports h.1) fun hreverts => hreverts.linkImports h.1 hunit.2
    exact ⟨hP, Linkage.undeclared_linkImports hunit.1, hQ⟩
  · exact hstep h hunit.2 (Linkage.sameSkeleton_declareMembers _)
      (Linkage.arranged_declareMembers h.1 hunit.1)
      fun hreverts => hreverts.declareMembers (h.1.settled.top List.mem_cons_self)
  · have hamong := (Linkage.among_everywhere _).foundBases h.1 options
    exact hstep h hunit (Linkage.sameSkeleton_linkEach _ options LinkBases.findings)
      (Linkage.arranged_apply h.1 hamong)
      fun hreverts => hreverts.apply (h.1.settled.top List.mem_cons_self) hunit hamong
  · have hamong := (Linkage.among_everywhere _).foundSignatures h.1 options
    exact hstep h hunit (Linkage.sameSkeleton_linkEach _ options LinkSignatures.findings)
      (Linkage.arranged_apply h.1 hamong)
      fun hreverts => hreverts.apply (h.1.settled.top List.mem_cons_self) hunit hamong

lemma own_append_of_project (hproject : ∀ unit ∈ batch, unit.library = .project) :
    own (batch ++ others) = batch ++ own others := by
  rw [own, List.filter_append,
    List.filter_eq_self.2 fun unit hunit => by simpa using hproject unit hunit]
  rfl

/-- Unlinking the documents of the project leads back to where it led before they were linked. -/
theorem undo_link (arranged : set.Arranged (batch ++ others))
    (hundeclared : ∀ unit ∈ batch, unit.Undeclared)
    (hproject : ∀ unit ∈ batch, unit.library = .project)
    (hunlisted : ∀ unit ∈ batch, unit.Unlisted (undo (own (batch ++ others)) set))
    (options : LinkOptions) :
    undo (own ((Linkages.link ⟨set, batch⟩ options).units ++ others))
        (Linkages.link ⟨set, batch⟩ options).libraries
      = undo (own (batch ++ others)) set := by
  have hlinked : ∀ unit ∈ (Linkages.link ⟨set, batch⟩ options).units, unit.library = .project := by
    intro unit hunit
    obtain ⟨unit', hunit', heq⟩ := SourceUnit.exists_of_skeleton_eq
      (Linkages.skeleton_link ⟨set, batch⟩ options).2 hunit
    exact (congrArg (·.library) heq : unit.library = unit'.library).trans (hproject unit' hunit')
  rw [own_append_of_project hproject] at hunlisted ⊢
  rw [own_append_of_project hlinked]
  exact undo_link_append arranged hundeclared hunlisted options

end Linkages

/-! ## Checks -/

namespace LibrarySet

variable {set : LibrarySet} {units : List SourceUnit}

/-- What edits of a library's own records keep holds after the library has been checked. -/
lemma Orderly.check_induction (orderly : set.Orderly) {library : LibraryId}
    {P : LibrarySet → Prop} (h : P set)
    (hbody : ∀ {set : LibrarySet} {id : DeclId}, P set → id.library = library →
      P (set.edit id (.body Body.clearRelations)))
    (hcallable : ∀ {set : LibrarySet} {id : DeclId} (f : Callable → Callable), P set →
      id.library = library → P (set.edit id (.callable f))) : P (set.check library).1 := by
  -- Lists are cleared in the declarations of the library, whose identities lie in it.
  have hclear : P (set.clearRelations library) := by
    unfold clearRelations
    split
    · exact h
    · next lib hlib =>
      refine List.foldlRecOn (motive := P) _ _ h fun set' hset' owner howner => hbody hset' ?_
      obtain ⟨category, -, hentries⟩ := List.mem_flatMap.1 howner
      obtain ⟨index, hslot⟩ := mem_entries.1 hentries
      have htags : set.tags? library category index = some owner.tags :=
        tags?_of_slot? (by rw [slot?_of_get? hlib, hslot])
      exact congrArg DeclId.library (orderly.tags htags).id_eq
  -- An end of a pair is written down only if it lies in the library.
  have hrelate {set : LibrarySet} (hset : P set) (function : DeclId) (f : Relations → Relations) :
      P (relate library set function f) := by
    unfold relate
    split
    · next hlibrary => exact hcallable _ hset hlibrary
    · exact hset
  have hrecord {set : LibrarySet} (hset : P set) (verdict : Verdict) :
      P (record library set verdict) := by
    refine List.foldlRecOn (motive := P) _ (addImplementation library)
      (List.foldlRecOn (motive := P) _ (addOverride library) hset ?_) ?_
    · rintro set hset ⟨function, base⟩ -
      simp only [addOverride]
      exact hrelate (hrelate hset function _) base _
    · rintro set hset ⟨function, base⟩ -
      simp only [addImplementation]
      exact hrelate (hrelate hset function _) base _
  simp only [check]
  split
  · exact hclear
  · exact hrecord hclear _

/-- Unlinking the documents of the project makes up for edits of its records. -/
lemma Settled.undo_edit_of_passing (settled : set.Settled units) {target : DeclId} {edit : Edit}
    (hpassing : edit.Passing target) (hproject : target.library = .project) :
    Linkages.undo (Linkages.own units) (set.edit target edit)
      = Linkages.undo (Linkages.own units) set := by
  cases hslot : set.slot? .project target.seat.1 target.seat.2 with
  | none =>
    rw [set.edit_eq_self]
    intro lib entry hlib _ hentry
    rw [hproject] at hlib
    simp [slot?, hlib, hentry] at hslot
  | some entry =>
    obtain ⟨unit, hunit, hdecl⟩ := @Settled.exists_unit set units settled
      ⟨.project, target.seat.1, target.seat.2, none⟩ entry hslot rfl
    obtain ⟨hid, htop, -⟩ := settled.declared hunit hdecl
    have hown : unit ∈ Linkages.own units :=
      List.mem_filter.2 ⟨hunit, by simpa using (congrArg DeclId.library hid).symm⟩
    obtain ⟨front, back, hsplit⟩ := List.append_of_mem hown
    have hperm : (Linkages.own units).Perm (unit :: (front ++ back)) := hsplit ▸ List.perm_middle
    have hundo := SourceUnit.undo_edit_of_passing set hpassing (settled.top hunit) hdecl
      hproject.symm (DeclId.seat_of_top htop)
    rw [Linkages.undo_perm hperm, Linkages.undo_perm hperm]
    exact congrArg (Linkages.undo (front ++ back)) hundo

/-- Unlinking changes nothing in a project that has not been linked. -/
lemma Settled.undo_of_blank (settled : set.Settled units) (blank : set.ProjectBlank)
    (hlinks : ∀ unit ∈ Linkages.own units, unit.links = []) :
    Linkages.undo (Linkages.own units) set = set := by
  refine foldl_eq_self fun unit hunit => ?_
  obtain ⟨hmem, hproject⟩ := List.mem_filter.1 hunit
  rw [SourceUnit.undo_eq, hlinks unit hunit, List.foldl_nil]
  refine foldl_eq_self fun id hid => edit_eq_self set fun lib entry hlib _ hentry => ?_
  obtain ⟨heq, htop, -⟩ := settled.declared hmem hid
  refine Edit.atSeat_eq_self (fun _ => ?_) fun howner => ?_
  · have hlibrary : id.library = .project :=
      (congrArg DeclId.library heq).trans (of_decide_eq_true hproject)
    have hslot : set.slot? .project id.seat.1 id.seat.2 = some entry := by
      rw [slot?, ← hlibrary, hlib, Option.bind_some, hentry]
    exact congrArg (fun body => ({ entry with body } : Entry)) (blank _ _ _ hslot).symm
  · simp [DeclId.owner?_of_top htop] at howner

/-- Checking the project leaves no trace when its documents are unlinked. -/
theorem Arranged.undo_check (arranged : set.Arranged units) :
    Linkages.undo (Linkages.own units) (set.check .project).1
      = Linkages.undo (Linkages.own units) set := by
  refine (arranged.orderly.check_induction (P := fun set' => set'.Settled units ∧
    Linkages.undo (Linkages.own units) set' = Linkages.undo (Linkages.own units) set)
    ⟨arranged.settled, rfl⟩ ?_ ?_).2
  · rintro set' id ⟨settled, heq⟩ hproject
    refine ⟨settled.of_skeleton_eq (set'.skeleton_edit id (.body _)) rfl, ?_⟩
    rw [settled.undo_edit_of_passing (Edit.passing_body _ id) hproject, heq]
  · rintro set' id f ⟨settled, heq⟩ hproject
    refine ⟨settled.of_skeleton_eq (set'.skeleton_edit id (.callable _)) rfl, ?_⟩
    rw [settled.undo_edit_of_passing (Edit.passing_callable f id) hproject, heq]

end LibrarySet

end SymbolGraph
