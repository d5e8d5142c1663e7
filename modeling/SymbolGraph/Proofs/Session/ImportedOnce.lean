import Mathlib.Data.Finset.Card
import SymbolGraph.Proofs.Session.LibraryRegistry
import SymbolGraph.Proofs.Session.Runs

/-!
# Imports are loaded once

Loading an import loads the declared imports that it names, and these may name each other in
circles.  `Imports` and `ImportsAll` describe such loads without any bound on their nesting,
together with the names of the libraries that are compiled, in the order in which they are
registered.

A load has at most one course (`Imports.unique`).  It has one at all because a library is registered
before its documents are looked at: each nested load starts with one declared name fewer that has no
meaning yet (`Session.unmet`), so the depth that `Session.load` starts from never runs out
(`Session.imports_load`).

What is compiled is exactly what is registered, and only names without a meaning are registered.
Along a whole run no name is therefore compiled twice, and no name of an import changes its meaning
(`imports_compiled_once`).
-/

namespace SymbolGraph

namespace Session

/-! ## Imports without a bound -/

/-- The identity of the import that is registered next. -/
def nextImport (session : Session) : LibraryId := .ofSlot session.libraries.imports.length

/-- The session in which an import is compiled: it has been registered. -/
def registered (session : Session) (name : String) : Session :=
  { session with libraries := (session.libraries.addImport name).2 }

/-- The documents of a library after tidying, as far as tidying comes. -/
def tidiedBatch (session : Session) (library : LibraryId) (trees : List FileTree) :
    Outcome Batch :=
  Outcome.forEach (Batch.tidy library) trees ⟨session.libraries, session.pool, []⟩

/-- The session in which the imports of a library are loaded: its documents have been tidied. -/
def opened (session : Session) (library : LibraryId) (trees : List FileTree) : Session :=
  let batch := (session.tidiedBatch library trees).state
  { session with libraries := batch.libraries, pool := batch.pool }

/-- The names that the documents of a library import; none if tidying them met a fault. -/
def importsOf (session : Session) (library : LibraryId) (trees : List FileTree) : List String :=
  let tidied := session.tidiedBatch library trees
  if tidied.fault.isNone then importNames tidied.state.units else []

mutual

/-- `Imports session name log outcome`: loading an import compiles the libraries of `log`. -/
inductive Imports : Session → String → List String → Outcome Session → Prop
  /-- The sources do not have the library. -/
  | absent {session name} : session.sources.library? name = none →
      Imports session name [] ⟨session, none⟩
  /-- The library is registered and tidied, what it names is loaded, then it is linked. -/
  | present {session name trees log mid} : session.sources.library? name = some trees →
      ImportsAll ((session.registered name).opened session.nextImport trees)
        ((session.registered name).importsOf session.nextImport trees) log mid →
      Imports session name (name :: log)
        (compile (fun _ _ => mid) session.nextImport trees (session.registered name))

/-- `ImportsAll session names log after`: loading the wanted imports among some names, one after the
other, compiles the libraries of `log`. -/
inductive ImportsAll : Session → List String → List String → Session → Prop
  | nil {session} : ImportsAll session [] [] session
  | skip {session name names log after} : session.wants name = false →
      ImportsAll session names log after → ImportsAll session (name :: names) log after
  | load {session name names first rest outcome after} : session.wants name = true →
      Imports session name first outcome → ImportsAll outcome.state names rest after →
      ImportsAll session (name :: names) (first ++ rest) after

end

mutual

/-- A load takes one course. -/
theorem Imports.unique : ∀ {session name log log' outcome outcome'},
    Imports session name log outcome → Imports session name log' outcome' →
      log = log' ∧ outcome = outcome'
  | _, _, _, _, _, _, .absent _, .absent _ => ⟨rfl, rfl⟩
  | _, _, _, _, _, _, .absent h, .present k _ => by simp [h] at k
  | _, _, _, _, _, _, .present h _, .absent k => by simp [h] at k
  | _, _, _, _, _, _, .present h hall, .present k kall => by
    obtain rfl := Option.some.inj (h.symm.trans k)
    obtain ⟨rfl, rfl⟩ := ImportsAll.unique hall kall
    exact ⟨rfl, rfl⟩

theorem ImportsAll.unique : ∀ {session names log log' after after'},
    ImportsAll session names log after → ImportsAll session names log' after' →
      log = log' ∧ after = after'
  | _, _, _, _, _, _, .nil, .nil => ⟨rfl, rfl⟩
  | _, _, _, _, _, _, .skip _ h, .skip _ k => ImportsAll.unique h k
  | _, _, _, _, _, _, .skip h _, .load k _ _ => by simp [h] at k
  | _, _, _, _, _, _, .load h _ _, .skip k _ => by simp [h] at k
  | _, _, _, _, _, _, .load _ h hall, .load _ k kall => by
    obtain ⟨rfl, rfl⟩ := Imports.unique h k
    obtain ⟨rfl, rfl⟩ := ImportsAll.unique hall kall
    exact ⟨rfl, rfl⟩

end

/-! ## What loads register -/

lemma charter_opened (session : Session) (library : LibraryId) (trees : List FileTree) :
    (session.opened library trees).charter = session.charter :=
  congrArg (Prod.mk session.manifest) (registry_tidyAll library trees _)

lemma charter_registered (session : Session) (name : String) :
    (session.registered name).charter
      = (session.manifest, session.libraries.registry.add name) :=
  congrArg (Prod.mk session.manifest) (session.libraries.registry_addImport name)

/-- A library is compiled in what its imports have made of the session in which it was opened. -/
lemma compile_opened {library : LibraryId} (hlibrary : library ≠ .kernel)
    (loadNames : List String → Session → Session) (trees : List FileTree) (session : Session) :
    compile loadNames library trees session
      = compile (fun _ _ => loadNames (session.importsOf library trees)
          (session.opened library trees)) library trees session := by
  unfold compile importsOf opened tidiedBatch
  dsimp only
  split
  · rfl
  · next hfault => simp only [if_neg hlibrary, hfault, Option.isNone_none, if_true]

/-- Compiling leaves the registry that the loads on the way have left; there are none for the kernel
and after a fault. -/
lemma charter_compile (loadNames : List String → Session → Session) (library : LibraryId)
    (trees : List FileTree) (session : Session) :
    (compile loadNames library trees session).state.charter
      = if library = .kernel ∨ (session.tidiedBatch library trees).fault.isSome
        then session.charter
        else (loadNames (session.importsOf library trees)
          (session.opened library trees)).charter := by
  rw [← session.charter_opened library trees]
  unfold compile importsOf opened tidiedBatch
  dsimp only
  split
  · next hfault => simp [hfault, charter]
  · next hfault =>
    simp only [hfault, Option.isSome_none, Option.isNone_none,
      Bool.false_eq_true, or_false, if_true]
    split
    all_goals
      refine congrArg (Prod.mk _) (LibrarySet.registry_of_skeleton_eq ?_)
      exact (LibrarySet.skeleton_check _ library).trans (Linkages.skeleton_link _ _).1

mutual

/-- The libraries that are compiled are registered in this order, and nothing else is. -/
theorem Imports.charter_eq : ∀ {session name log outcome}, Imports session name log outcome →
    outcome.state.charter = (session.manifest, log.foldl Registry.add session.libraries.registry)
  | _, _, _, _, .absent _ => rfl
  | _, _, _, _, @Imports.present session name trees _ _ _ hall => by
    have hopened : ((session.registered name).opened session.nextImport trees).charter
        = (session.manifest, session.libraries.registry.add name) :=
      (charter_opened _ _ _).trans (session.charter_registered name)
    obtain ⟨hmanifest, hregistry⟩ := Prod.mk.inj hopened
    have hmid := hall.charter_eq
    rw [hmanifest, hregistry, ← List.foldl_cons] at hmid
    rw [charter_compile]
    split
    · -- After a fault nothing is loaded on the way.
      next hstop =>
      have hfault := hstop.resolve_left (LibraryId.ofSlot_ne_kernel _)
      have hnone : (session.registered name).importsOf session.nextImport trees = [] := by
        obtain ⟨fault, hfault⟩ := Option.isSome_iff_exists.1 hfault
        simp [importsOf, hfault]
      rw [hnone] at hall
      cases hall
      exact session.charter_registered name
    · exact hmid

theorem ImportsAll.charter_eq : ∀ {session names log after}, ImportsAll session names log after →
    after.charter = (session.manifest, log.foldl Registry.add session.libraries.registry)
  | _, _, _, _, .nil => rfl
  | _, _, _, _, .skip _ h => h.charter_eq
  | _, _, _, _, .load _ h hall => by
    obtain ⟨hmanifest, hregistry⟩ := Prod.mk.inj h.charter_eq
    rw [hall.charter_eq, hmanifest, hregistry, List.foldl_append]

end

/-! ## Declared names without a meaning -/

/-- The declared imports whose names have no meaning yet. -/
def unmet (session : Session) : Finset String :=
  session.manifest.libraries.toFinset.filter fun name => session.libraries.named? name = none

lemma mem_unmet {session : Session} {name : String} :
    name ∈ session.unmet ↔ session.wants name = true := by
  simp [unmet, wants, Manifest.declares]

lemma card_unmet_le (session : Session) :
    session.unmet.card ≤ session.manifest.libraries.length :=
  (Finset.card_filter_le _ _).trans (List.toFinset_card_le _)

/-- A name that is wanted after some imports are registered is none of theirs, and was wanted
before. -/
lemma wants_of_charter {session after : Session} {log : List String}
    (h : after.charter = (session.manifest, log.foldl Registry.add session.libraries.registry))
    {name : String} (hname : after.wants name = true) :
    name ∉ log ∧ session.wants name = true := by
  obtain ⟨hmanifest, hregistry⟩ := Prod.mk.inj h
  have hnames : after.libraries.names
      = (log.foldl Registry.add session.libraries.registry).names :=
        congrArg Registry.names hregistry
  obtain ⟨hdeclares, hnamed⟩ := Bool.and_eq_true_iff.1 hname
  rw [LibrarySet.named?, hnames, Option.isNone_iff_eq_none] at hnamed
  have hboth : ¬ (name ∈ log ∨ (session.libraries.registry.names.at? name).isSome) := fun hor => by
    have := Registry.isSome_at?_foldl_add session.libraries.registry hor
    simp [hnamed] at this
  obtain ⟨hlog, hbefore⟩ := not_or.1 hboth
  refine ⟨hlog, Bool.and_eq_true_iff.2 ⟨hmanifest ▸ hdeclares, ?_⟩⟩
  exact Option.isNone_iff_eq_none.2 (Option.not_isSome_iff_eq_none.1 hbefore)

lemma unmet_subset {session after : Session} {log : List String}
    (h : after.charter = (session.manifest, log.foldl Registry.add session.libraries.registry)) :
    after.unmet ⊆ session.unmet := fun _ hname =>
  mem_unmet.2 (wants_of_charter h (mem_unmet.1 hname)).2

/-- Registering a name that is wanted leaves one name fewer, before anything is compiled. -/
lemma card_unmet_opened {session : Session} {name : String} (h : session.wants name = true)
    (trees : List FileTree) :
    ((session.registered name).opened session.nextImport trees).unmet.card
      < session.unmet.card := by
  have hopened : ((session.registered name).opened session.nextImport trees).charter
      = (session.manifest, [name].foldl Registry.add session.libraries.registry) :=
    (charter_opened _ _ _).trans (session.charter_registered name)
  refine Finset.card_lt_card (Finset.ssubset_iff_subset_ne.2 ⟨unmet_subset hopened, fun heq => ?_⟩)
  have hmem := heq ▸ mem_unmet.2 h
  exact (wants_of_charter hopened (mem_unmet.1 hmem)).1 (List.mem_singleton_self name)

/-! ## Imports come to an end -/

/-- If single loads come to an end while few names are wanted, so do loads in a row. -/
lemma importsAll_foldl {load : String → Session → Outcome Session} {bound : Nat}
    (hload : ∀ name session, session.wants name = true → session.unmet.card ≤ bound →
      ∃ log, Imports session name log (load name session))
    (names : List String) (session : Session) (hbound : session.unmet.card ≤ bound) :
    ∃ log, ImportsAll session names log (names.foldl (fun session name =>
      if session.wants name then (load name session).state else session) session) := by
  induction names generalizing session with
  | nil => exact ⟨[], .nil⟩
  | cons name rest ih =>
    rw [List.foldl_cons]
    cases hwants : session.wants name with
    | false =>
      obtain ⟨log, hrest⟩ := ih session hbound
      exact ⟨log, .skip hwants hrest⟩
    | true =>
      obtain ⟨first, hfirst⟩ := hload name session hwants hbound
      obtain ⟨log, hrest⟩ := ih (load name session).state
        ((Finset.card_le_card (unmet_subset hfirst.charter_eq)).trans hbound)
      exact ⟨first ++ log, .load hwants hfirst hrest⟩

/-- The depth of a load never runs out as long as it is the number of names that are wanted, since
each nested load starts with fewer. -/
theorem imports_load (depth : Nat) (name : String) (session : Session)
    (hwants : session.wants name = true) (hdepth : session.unmet.card ≤ depth) :
    ∃ log, Imports session name log (load depth name session) := by
  induction depth generalizing name session with
  | zero =>
    have hempty : session.unmet = ∅ := Finset.card_eq_zero.1 (Nat.le_zero.1 hdepth)
    exact absurd (mem_unmet.2 hwants) (hempty ▸ Finset.notMem_empty name)
  | succ depth ih =>
    cases hsources : session.sources.library? name with
    | none =>
      rw [load, hsources]
      exact ⟨[], .absent hsources⟩
    | some trees =>
      -- Opening a library meets one wanted name, so the depth that is left is enough for the rest.
      have hfewer := card_unmet_opened hwants trees
      obtain ⟨log, hnested⟩ := importsAll_foldl ih
        ((session.registered name).importsOf session.nextImport trees)
        ((session.registered name).opened session.nextImport trees) (by omega)
      have hload : load (depth + 1) name session
          = compile (fun names session => names.foldl (fun session name =>
              if session.wants name then (load depth name session).state else session) session)
            session.nextImport trees (session.registered name) := by
        rw [load, hsources]
        rfl
      have hkernel : session.nextImport ≠ .kernel := LibraryId.ofSlot_ne_kernel _
      rw [hload, compile_opened hkernel]
      exact ⟨name :: log, .present hsources hnested⟩

/-- The loads that some names ask for. -/
lemma importsAll_loadImports (session : Session) (names : List String) :
    ∃ log, ImportsAll session names log (session.loadImports names) :=
  importsAll_foldl (fun name session hwants _ =>
    imports_load _ name session hwants session.card_unmet_le) names session session.card_unmet_le

/-! ## Every library once -/

mutual

/-- Only wanted names are registered, each once. -/
theorem Imports.fresh : ∀ {session name log outcome}, Imports session name log outcome →
    session.wants name = true → log.Nodup ∧ ∀ other ∈ log, session.wants other = true
  | _, _, _, _, .absent _, _ => ⟨List.nodup_nil, by simp⟩
  | _, _, _, _, @Imports.present session name trees _ _ _ hall, hname => by
    have hopened : ((session.registered name).opened session.nextImport trees).charter
        = (session.manifest, [name].foldl Registry.add session.libraries.registry) :=
      (charter_opened _ _ _).trans (session.charter_registered name)
    obtain ⟨hnodup, hwanted⟩ := hall.fresh
    have hold := fun other hother => wants_of_charter hopened (hwanted other hother)
    refine ⟨List.nodup_cons.2 ⟨fun hmem => ?_, hnodup⟩, fun other hother => ?_⟩
    · exact (hold name hmem).1 (List.mem_singleton_self name)
    · rcases List.mem_cons.1 hother with rfl | hother
      · exact hname
      · exact (hold other hother).2

theorem ImportsAll.fresh : ∀ {session names log after}, ImportsAll session names log after →
    log.Nodup ∧ ∀ name ∈ log, session.wants name = true
  | _, _, _, _, .nil => ⟨List.nodup_nil, by simp⟩
  | _, _, _, _, .skip _ h => h.fresh
  | _, _, _, _, .load hwants h hall => by
    obtain ⟨hfirst, hwanted⟩ := h.fresh hwants
    obtain ⟨hrest, hlater⟩ := hall.fresh
    have hold := fun other hother => wants_of_charter h.charter_eq (hlater other hother)
    refine ⟨List.nodup_append.2 ⟨hfirst, hrest, ?_⟩, fun other hother => ?_⟩
    · rintro name hname _ hother rfl
      exact (hold name hother).1 hname
    · rcases List.mem_append.1 hother with hother | hother
      · exact hwanted other hother
      · exact (hold other hother).2

end

end Session

/-! ## Requests and runs -/

/-- A request that changes the sources or announces an edit. -/
def Request.isEdit : Request → Bool
  | .rebuild | .load _ => false
  | _ => true

namespace Session

/-- A name for which a library has to be loaded. -/
def Asks (session : Session) (name : String) : Prop :=
  name ≠ session.manifest.kernel ∧ name ≠ session.manifest.name ∧ session.wants name = true

/-- `Serves session request log after`: serving a request compiles the libraries of `log`. -/
inductive Serves : Session → Request → List String → Session → Prop
  | edit {session request} : request.isEdit = true →
      Serves session request [] (session.perform request)
  /-- The library of the name is known, or the name is not declared. -/
  | answer {session name} : ¬ session.Asks name → Serves session (.load name) [] session
  | load {session name log outcome} : session.Asks name → Imports session name log outcome →
      Serves session (.load name) log outcome.state
  /-- A fault ends the rebuild before anything is loaded. -/
  | stop {session} : session.groundwork? = none → Serves session .rebuild [] session.rebuild.1
  | rebuild {session tidied log mid} : session.groundwork? = some tidied →
      ImportsAll tidied (importNames tidied.files) log mid →
      Serves session .rebuild log (mid.overFiles (·.link mid.options)).checkProject

/-- `ServesAll session requests log after`: serving some requests compiles the libraries of
`log`. -/
inductive ServesAll : Session → List Request → List String → Session → Prop
  | nil {session} : ServesAll session [] [] session
  | cons {session request requests first rest next after} : Serves session request first next →
      ServesAll next requests rest after →
      ServesAll session (request :: requests) (first ++ rest) after

lemma loadLibrary_of_asks {session : Session} {name : String} (h : session.Asks name) :
    (session.loadLibrary name).1
      = (load session.manifest.libraries.length name session).state := by
  obtain ⟨hkernel, hname, hwants⟩ := h
  obtain ⟨hdeclares, hnamed⟩ := Bool.and_eq_true_iff.1 hwants
  rw [loadLibrary, if_neg hkernel, if_neg hname, Option.isNone_iff_eq_none.1 hnamed]
  simp only [hdeclares, Bool.not_true, Bool.false_eq_true, if_false]
  split
  · next hsources =>
    rw [Option.isNone_iff_eq_none] at hsources
    cases session.manifest.libraries.length <;> simp [Session.load, hsources]
  · split <;> rfl

lemma loadLibrary_of_not_asks {session : Session} {name : String} (h : ¬ session.Asks name) :
    (session.loadLibrary name).1 = session := by
  unfold loadLibrary
  split
  · rfl
  · split
    · rfl
    · split
      · rfl
      · next hkernel hname _ hnamed =>
        have hdeclares : session.manifest.declares name = false := by
          simpa [Asks, hkernel, hname, wants, hnamed] using h
        simp [hdeclares]

lemma rebuild_of_groundwork {session tidied : Session} (h : session.groundwork? = some tidied) :
    session.rebuild.1 = tidied.relink := by
  unfold groundwork? at h
  unfold Session.rebuild
  cases hdemolished : session.tearDown.fault with
  | some fault => simp [hdemolished] at h
  | none =>
    cases htidied : session.tearDown.state.session.unlinkAll.tidyPending.fault with
    | some fault => simp [hdemolished, htidied] at h
    | none =>
      simp only [hdemolished, htidied, Option.some.injEq] at h ⊢
      rw [h]

/-- Every request is served to its end. -/
lemma serves_perform (session : Session) (request : Request) :
    ∃ log, Serves session request log (session.perform request) := by
  cases request with
  | load name =>
    rw [perform]
    by_cases hasks : session.Asks name
    · obtain ⟨log, hload⟩ := imports_load _ name session hasks.2.2 session.card_unmet_le
      rw [loadLibrary_of_asks hasks]
      exact ⟨log, .load hasks hload⟩
    · rw [loadLibrary_of_not_asks hasks]
      exact ⟨[], .answer hasks⟩
  | rebuild =>
    rw [perform]
    cases hgroundwork : session.groundwork? with
    | none => exact ⟨[], .stop hgroundwork⟩
    | some tidied =>
      obtain ⟨log, hall⟩ := tidied.importsAll_loadImports (importNames tidied.files)
      rw [rebuild_of_groundwork hgroundwork]
      exact ⟨log, .rebuild hgroundwork hall⟩
  | insert tree => exact ⟨[], .edit rfl⟩
  | erase path => exact ⟨[], .edit rfl⟩
  | insertLibrary name trees => exact ⟨[], .edit rfl⟩
  | changed path => exact ⟨[], .edit rfl⟩
  | dropped path => exact ⟨[], .edit rfl⟩

theorem servesAll_run (session : Session) (requests : List Request) :
    ∃ log, ServesAll session requests log (session.run requests) := by
  induction requests generalizing session with
  | nil => exact ⟨[], .nil⟩
  | cons request rest ih =>
    obtain ⟨first, hfirst⟩ := session.serves_perform request
    obtain ⟨log, hrest⟩ := ih (session.perform request)
    exact ⟨first ++ log, .cons hfirst hrest⟩

/-- A request is served in one way. -/
theorem Serves.unique {session after after' : Session} {request : Request} {log log' : List String}
    (h : Serves session request log after) (k : Serves session request log' after') :
    log = log' ∧ after = after' := by
  -- The rules exclude each other by the request and by whether it is answered without a load.
  cases h with
  | edit hedit =>
    cases k with
    | edit => exact ⟨rfl, rfl⟩
    | answer | load | stop | rebuild => cases hedit
  | answer hanswer =>
    cases k with
    | edit hedit => cases hedit
    | answer => exact ⟨rfl, rfl⟩
    | load hasks => exact absurd hasks hanswer
  | load hasks hload =>
    cases k with
    | edit hedit => cases hedit
    | answer hanswer => exact absurd hasks hanswer
    | load _ hload' =>
      obtain ⟨hlog, houtcome⟩ := hload.unique hload'
      exact ⟨hlog, congrArg Outcome.state houtcome⟩
  | stop hstop =>
    cases k with
    | edit hedit => cases hedit
    | stop => exact ⟨rfl, rfl⟩
    | rebuild hgroundwork => simp [hstop] at hgroundwork
  | rebuild hgroundwork hall =>
    cases k with
    | edit hedit => cases hedit
    | stop hstop => simp [hstop] at hgroundwork
    | rebuild hgroundwork' hall' =>
      obtain rfl := Option.some.inj (hgroundwork.symm.trans hgroundwork')
      obtain ⟨hlog, rfl⟩ := hall.unique hall'
      exact ⟨hlog, rfl⟩

theorem ServesAll.unique {session after after' : Session} {requests : List Request}
    {log log' : List String} (h : ServesAll session requests log after)
    (k : ServesAll session requests log' after') : log = log' ∧ after = after' := by
  induction h generalizing log' with
  | nil =>
    cases k
    exact ⟨rfl, rfl⟩
  | cons hfirst _ ih =>
    obtain _ | ⟨hfirst', hrest'⟩ := k
    obtain ⟨rfl, rfl⟩ := hfirst.unique hfirst'
    obtain ⟨rfl, rfl⟩ := ih hrest'
    exact ⟨rfl, rfl⟩

/-! ### What requests register -/

lemma charter_groundwork {session tidied : Session} (h : session.groundwork? = some tidied) :
    tidied.charter = session.charter := by
  unfold groundwork? at h
  dsimp only at h
  split at h
  · cases h
  · split at h
    · cases h
    · cases h
      exact (charter_tidyPending _).trans ((charter_unlinkAll _).trans session.charter_tearDown)

lemma charter_stopped {session : Session} (h : session.groundwork? = none) :
    session.rebuild.1.charter = session.charter := by
  unfold groundwork? at h
  unfold Session.rebuild
  cases hdemolished : session.tearDown.fault with
  | some fault =>
    simp only [hdemolished]
    exact session.charter_tearDown
  | none =>
    cases htidied : session.tearDown.state.session.unlinkAll.tidyPending.fault with
    | some fault =>
      simp only [hdemolished, htidied]
      exact (charter_tidyPending _).trans ((charter_unlinkAll _).trans session.charter_tearDown)
    | none => simp [hdemolished, htidied] at h

lemma charter_edit (session : Session) {request : Request} (h : request.isEdit = true) :
    (session.perform request).charter = session.charter := by
  cases request with
  | insert | erase | insertLibrary | changed | dropped => rfl
  | rebuild | load => cases h

lemma wants_congr {session other : Session} (h : other.charter = session.charter)
    (name : String) : other.wants name = session.wants name := by
  obtain ⟨hmanifest, hregistry⟩ := Prod.mk.inj h
  have hnames : other.libraries.names = session.libraries.names := congrArg Registry.names hregistry
  rw [wants, hmanifest, LibrarySet.named?, hnames]
  rfl

/-- Serving a request registers what it compiles, each library once, and all of them wanted. -/
lemma Serves.registers {session after : Session} {request : Request} {log : List String}
    (h : Serves session request log after) :
    after.charter = (session.manifest, log.foldl Registry.add session.libraries.registry) ∧
      log.Nodup ∧ ∀ name ∈ log, session.wants name = true := by
  cases h with
  | edit hedit => exact ⟨session.charter_edit hedit, List.nodup_nil, by simp⟩
  | answer => exact ⟨rfl, List.nodup_nil, by simp⟩
  | load hasks hload => exact ⟨hload.charter_eq, hload.fresh hasks.2.2⟩
  | stop hstop => exact ⟨charter_stopped hstop, List.nodup_nil, by simp⟩
  | rebuild hgroundwork hall =>
    have hcharter := charter_groundwork hgroundwork
    obtain ⟨hmanifest, hregistry⟩ := Prod.mk.inj hcharter
    obtain ⟨hnodup, hwanted⟩ := hall.fresh
    refine ⟨?_, hnodup, fun name hname => ?_⟩
    · rw [charter_linked, hall.charter_eq, hmanifest, hregistry]
    · exact (wants_congr hcharter name).symm.trans (hwanted name hname)

lemma ServesAll.registers {session after : Session} {requests : List Request}
    {log : List String} (h : ServesAll session requests log after) :
    after.charter = (session.manifest, log.foldl Registry.add session.libraries.registry) ∧
      log.Nodup ∧ ∀ name ∈ log, session.wants name = true := by
  induction h with
  | nil => exact ⟨rfl, List.nodup_nil, by simp⟩
  | @cons session _ _ first rest next after hfirst _ ih =>
    obtain ⟨hcharter, hfirst, hwanted⟩ := hfirst.registers
    obtain ⟨hafter, hrest, hlater⟩ := ih
    have hold := fun name hname => wants_of_charter hcharter (hlater name hname)
    obtain ⟨hmanifest, hregistry⟩ := Prod.mk.inj hcharter
    refine ⟨?_, List.nodup_append.2 ⟨hfirst, hrest, ?_⟩, fun name hname => ?_⟩
    · rw [hafter, hmanifest, hregistry, List.foldl_append]
    · rintro name hname _ hother rfl
      exact (hold name hother).1 hname
    · rcases List.mem_append.1 hname with hname | hname
      · exact hwanted name hname
      · exact (hold name hname).2

/-! ### Main result -/

/-- A session that has just started has no imports. -/
lemma charter_start {manifest : Manifest} {sources : Sources} {initial : Session}
    (h : start manifest sources = .ok initial) :
    initial.charter = (manifest, (LibrarySet.new manifest.name manifest.kernel).registry) := by
  have hcompile := charter_compile (fun _ session => session) .kernel
    (kernelTrees manifest sources) (unloaded manifest sources)
  rw [if_pos (Or.inl rfl)] at hcompile
  simp only [start] at h
  split at h
  · rw [Except.ok.inj h] at hcompile
    exact hcompile
  · cases h

/-- A request to load a library that is refused changes nothing. -/
lemma loadLibrary_refused {session : Session} {name other : String}
    (h : (session.loadLibrary name).2 = .error (.unknown other) ∨
      (session.loadLibrary name).2 = .error (.unavailable other)) :
    (session.loadLibrary name).1 = session := by
  by_cases hasks : session.Asks name
  · rw [loadLibrary_of_asks hasks]
    cases hsources : session.sources.library? name with
    | none => cases session.manifest.libraries.length <;> simp [Session.load, hsources]
    | some trees =>
      obtain ⟨hkernel, hname, hwants⟩ := hasks
      obtain ⟨hdeclares, hnamed⟩ := Bool.and_eq_true_iff.1 hwants
      rw [loadLibrary, if_neg hkernel, if_neg hname, Option.isNone_iff_eq_none.1 hnamed] at h
      simp only [hdeclares, hsources, Bool.not_true, Bool.false_eq_true, if_false,
        Option.isNone_some] at h
      split at h <;> rcases h with h | h <;> simp at h
  · exact loadLibrary_of_not_asks hasks

/-- **Imports are loaded once.**  In every run the requests are served to their end, in one way
only.  What is compiled on the way are declared imports, each once, and they are the imports of the
library set in their order.  Every import has the identity of its position, which is what its
name means; once a name has a meaning it keeps it.  A request to load a library that is refused, as
the name is unknown or the sources do not have it, changes nothing. -/
theorem imports_compiled_once (manifest : Manifest) (sources : Sources) :
    ∃ initial, Session.start manifest sources = .ok initial ∧ ∀ requests : List Request,
      let session := initial.run requests
      ∃ log, ServesAll initial requests log session ∧
        (∀ log' after, ServesAll initial requests log' after → log' = log ∧ after = session) ∧
        log.Nodup ∧ (∀ name ∈ log, manifest.declares name = true) ∧
        log = session.libraries.imports.map Library.name ∧
        (∀ (i : Nat) (lib : Library), session.libraries.imports[i]? = some lib →
          lib.id = .ofSlot i ∧ session.libraries.named? lib.name = some (.ofSlot i)) ∧
        (∀ name id, session.libraries.named? name = some id → ∀ more : List Request,
          (session.run more).libraries.named? name = some id) ∧
        ∀ name other, (session.loadLibrary name).2 = .error (.unknown other) ∨
          (session.loadLibrary name).2 = .error (.unavailable other) →
            (session.loadLibrary name).1 = session := by
  obtain ⟨initial, hstart, -, -⟩ := Sound.start manifest sources
  refine ⟨initial, hstart, fun requests => ?_⟩
  obtain ⟨log, hserved⟩ := initial.servesAll_run requests
  obtain ⟨hmanifest₀, hregistry₀⟩ := Prod.mk.inj (charter_start hstart)
  obtain ⟨hcharter, hnodup, hwanted⟩ := hserved.registers
  obtain ⟨hmanifest, hregistry⟩ := Prod.mk.inj hcharter
  -- Registering new names one after another numbers them in this order.
  have hregular : (initial.run requests).libraries.registry.Regular := by
    rw [hregistry]
    refine Registry.Regular.foldl_add ?_ hnodup fun name hname => ?_
    · rw [hregistry₀]
      exact ⟨by simp [LibrarySet.registry, LibrarySet.new], by simp [LibrarySet.registry,
        LibrarySet.new]⟩
    · exact Option.isNone_iff_eq_none.1 (Bool.and_eq_true_iff.1 (hwanted name hname)).2
  refine ⟨log, hserved, fun log' after h => (h.unique hserved), hnodup, fun name hname => ?_, ?_,
    fun i lib hlib => ?_, fun name id hname more => ?_, fun name other => loadLibrary_refused⟩
  · rw [← hmanifest₀]
    exact (Bool.and_eq_true_iff.1 (hwanted name hname)).1
  · have himports := Registry.imports_foldl_add log initial.libraries.registry
    rw [← hregistry, hregistry₀] at himports
    simpa [LibrarySet.registry, LibrarySet.new, Function.comp_def] using himports.symm
  · have hentry : (initial.run requests).libraries.registry.imports[i]?
        = some (lib.id, lib.name) := by
      simp [LibrarySet.registry, hlib]
    have hid := hregular.numbered i _ _ hentry
    exact ⟨hid, hid ▸ hregular.named _ _ (List.mem_of_getElem? hentry)⟩
  · obtain ⟨later, hlater⟩ := (initial.run requests).servesAll_run more
    obtain ⟨hcharter', -, hwanted'⟩ := hlater.registers
    -- A name that means a library is not wanted, so it is registered no second time.
    have hnew : name ∉ later := fun hmem => by
      have hnone := Option.isNone_iff_eq_none.1 (Bool.and_eq_true_iff.1 (hwanted' name hmem)).2
      simp [hname] at hnone
    have hkept := Registry.at?_foldl_add hnew (initial.run requests).libraries.registry
    rw [← (Prod.mk.inj hcharter').2] at hkept
    exact hkept.trans hname

end Session

end SymbolGraph
