import SymbolGraph.Proofs.Model.LibraryDocuments

/-!
# The pool and the tables of the project

`pool.Matches lib marked` says that the free indices of the project are exactly the empty slots of
its tables, together with the slots of the declarations `marked`, which have been given back while
they are still occupied.  Between two rebuilds nothing is marked.  The three moves of an index keep
the match: `allocate` hands one out that is put to use at once, `recycle` marks one, and disposing
of the marked declarations empties their slots.
-/

namespace SymbolGraph

/-- The free indices are the empty slots and those of the marked declarations. -/
structure IndexPool.Matches (pool : IndexPool) (lib : Library) (marked : List DeclId) : Prop where
  mem_free : ∀ category index, index ∈ pool.free .project category ↔
    index < lib.tableSize category ∧
      (lib.slot? category index = none ∨ ⟨.project, category, index, none⟩ ∈ marked)
  sorted : ∀ category, (pool.free .project category).Pairwise (· < ·)

lemma Library.slot?_tableSize (lib : Library) (category : Category) {index : Nat}
    (h : lib.tableSize category ≤ index) : lib.slot? category index = none := by
  unfold tableSize at h
  simp [slot?, List.getElem?_eq_none h]

lemma Library.lt_tableSize {lib : Library} {category : Category} {index : Nat} {entry : Entry}
    (h : lib.slot? category index = some entry) : index < lib.tableSize category := by
  by_contra hge
  rw [lib.slot?_tableSize category (Nat.le_of_not_lt hge)] at h
  cases h

namespace IndexPool

variable {pool : IndexPool} {lib lib' : Library} {marked : List DeclId}

lemma matches_new (name : String) : Matches {} (.new .project name) [] := by
  refine ⟨fun category index => ?_, fun category => ?_⟩
  · have hfree : free {} .project category = [] := rfl
    simp [hfree, Library.tableSize]
  · exact List.Pairwise.nil

/-- A match is a matter of the skeleton. -/
lemma Matches.of_skeleton_eq (h : pool.Matches lib marked)
    (hskeleton : lib'.skeleton = lib.skeleton) : pool.Matches lib' marked where
  mem_free category index := by
    rw [h.mem_free, Library.tableSize_of_skeleton_eq hskeleton,
      Library.slot?_eq_none_of_skeleton_eq hskeleton]
  sorted := h.sorted

lemma Matches.of_slots_eq (h : pool.Matches lib marked)
    (hslot : ∀ category index, lib'.slot? category index = lib.slot? category index)
    (hsize : ∀ category, lib'.tableSize category = lib.tableSize category) :
    pool.Matches lib' marked where
  mem_free category index := by rw [h.mem_free, hslot, hsize]
  sorted := h.sorted

/-! ## Handing out -/

/-- The next indices of a category of the project, in the order in which they are handed out: the
free ones from the least on, then those behind the table. -/
def next (pool : IndexPool) (lib : Library) (category : Category) (n : Nat) : List Nat :=
  (pool.free .project category).take n ++
    List.range' (lib.tableSize category) (n - (pool.free .project category).length)

/-- `pool.Draws lib category n pool' lib'`: the next `n` indices of the category have been handed
out and put to use. -/
structure Draws (pool : IndexPool) (lib : Library) (category : Category) (n : Nat)
    (pool' : IndexPool) (lib' : Library) : Prop where
  free_eq : pool'.free .project category = (pool.free .project category).drop n
  tableSize_eq : lib'.tableSize category
    = lib.tableSize category + (n - (pool.free .project category).length)

lemma draws_zero {pool' : IndexPool} {category : Category}
    (hfree : pool'.free .project category = pool.free .project category)
    (hsize : lib'.tableSize category = lib.tableSize category) :
    pool.Draws lib category 0 pool' lib' :=
  ⟨by rw [hfree, List.drop_zero], by rw [hsize]; simp⟩

lemma Draws.trans {pool' pool'' : IndexPool} {lib'' : Library} {category : Category} {n m : Nat}
    (h : pool.Draws lib category n pool' lib') (k : pool'.Draws lib' category m pool'' lib'') :
    pool.Draws lib category (n + m) pool'' lib'' := by
  refine ⟨?_, ?_⟩
  · rw [k.free_eq, h.free_eq, List.drop_drop]
  · rw [k.tableSize_eq, h.tableSize_eq, h.free_eq, List.length_drop]
    omega

@[simp] lemma next_zero (pool : IndexPool) (lib : Library) (category : Category) :
    pool.next lib category 0 = [] := by
  simp [next]

lemma length_next (pool : IndexPool) (lib : Library) (category : Category) (n : Nat) :
    (pool.next lib category n).length = n := by
  simp only [next, List.length_append, List.length_take, List.length_range']
  omega

/-- Indices that are handed out in two goes are those that are handed out in one. -/
lemma Draws.next_add {pool' : IndexPool} {category : Category} {n : Nat}
    (h : pool.Draws lib category n pool' lib') (m : Nat) :
    pool.next lib category (n + m)
      = pool.next lib category n ++ pool'.next lib' category m := by
  simp only [next, h.free_eq, h.tableSize_eq, List.length_drop]
  generalize pool.free .project category = free
  rcases Nat.le_total n free.length with hle | hle
  · have hn : n - free.length = 0 := by omega
    have hm : n + m - free.length = m - (free.length - n) := by omega
    rw [hn, hm, List.take_add]
    simp
  · have hm : n + m - free.length = (n - free.length) + m := by omega
    have hnone : free.length - n = 0 := by omega
    rw [hm, hnone, List.drop_eq_nil_of_le hle,
      List.take_of_length_le (by omega : free.length ≤ n + m), List.take_of_length_le hle,
      ← List.range'_append_1]
    simp

/-- Indices are handed out in increasing order. -/
lemma Matches.next_increasing (h : pool.Matches lib []) (category : Category) (n : Nat) :
    (pool.next lib category n).Pairwise (· < ·) := by
  refine List.pairwise_append.2 ⟨(h.sorted category).sublist (List.take_sublist ..),
    List.pairwise_lt_range', ?_⟩
  intro free hfree behind hbehind
  have hlt := ((h.mem_free category free).1 (List.mem_of_mem_take hfree)).1
  have hle := (List.mem_range'_1.1 hbehind).1
  omega

/-- Behind the end of the table a new slot appears, and the pool stays as it is. -/
lemma Matches.append (h : pool.Matches lib []) {entry : Entry} {after : Library}
    (admits : lib.Admits entry after)
    (hindex : entry.id.index = lib.tableSize entry.id.category) : pool.Matches after [] := by
  refine ⟨fun other index => ?_, h.sorted⟩
  rw [h.mem_free, admits.tableSize_eq, admits.slot?_eq, hindex]
  by_cases hc : other = entry.id.category
  · subst hc
    by_cases hi : index = lib.tableSize entry.id.category
    · simp [hi]
    · have hlt : index < lib.tableSize entry.id.category + 1 ↔
          index < lib.tableSize entry.id.category := by omega
      simp [hi, hlt]
  · simp [hc]

/-- A free index is free no more once its slot is filled, and the table is as long as before. -/
lemma Matches.fill (h : pool.Matches lib []) {entry : Entry} {after : Library}
    (admits : lib.Admits entry after) {rest : List Nat}
    (hfree : pool.free .project entry.id.category = entry.id.index :: rest) :
    (pool.setFree .project entry.id.category rest).Matches after [] := by
  have hlt := ((h.mem_free entry.id.category entry.id.index).1 (by simp [hfree])).1
  have hsorted := h.sorted entry.id.category
  rw [hfree, List.pairwise_cons] at hsorted
  refine ⟨fun other index => ?_, fun other => ?_⟩
  · rw [free_setFree, admits.tableSize_eq, admits.slot?_eq]
    by_cases hc : other = entry.id.category
    · subst hc
      have hold := h.mem_free entry.id.category index
      rw [hfree, List.mem_cons] at hold
      by_cases hi : index = entry.id.index
      · have hrest : entry.id.index ∉ rest :=
          fun hmem => Nat.lt_irrefl _ (hsorted.1 entry.id.index hmem)
        simp [hi, hrest]
      · have hsize : index < max (lib.tableSize entry.id.category) (entry.id.index + 1) ↔
            index < lib.tableSize entry.id.category := by omega
        simpa [hi, hsize] using hold
    · have hc' : entry.id.category ≠ other := Ne.symm hc
      simpa [hc, hc'] using h.mem_free other index
  · rw [free_setFree]
    split
    · exact hsorted.2
    · exact h.sorted other

/-- One index is drawn, of the category of the declaration that takes it. -/
lemma draws_of_admits {pool' : IndexPool} {entry : Entry} {after : Library}
    (admits : lib.Admits entry after)
    (hown : pool.Draws lib entry.id.category 1 pool' after)
    (hothers : ∀ other, other ≠ entry.id.category →
      pool'.free .project other = pool.free .project other) (other : Category) :
    pool.Draws lib other (if other = entry.id.category then 1 else 0) pool' after := by
  split
  · next hc => exact hc ▸ hown
  · next hc => exact draws_zero (hothers other hc) (by rw [admits.tableSize_eq, if_neg hc])

/-- The index that a library uses next: the least free one, or the one behind the table. -/
lemma allocate_eq_ok (h : lib.id = .project → pool.Matches lib []) {category : Category}
    (htop : category.isMember = false) :
    ∃ index pool', pool.allocate lib.id category = .ok (index, pool') ∧
      index.getD (lib.tableSize category) ≤ lib.tableSize category ∧
      lib.slot? category (index.getD (lib.tableSize category)) = none ∧
      (lib.id ≠ .project → pool' = pool) ∧
      ∀ entry after, lib.Admits entry after → entry.id.category = category →
        entry.id.index = index.getD (lib.tableSize category) → lib.id = .project →
        pool'.Matches after [] ∧ pool.next lib category 1 = [entry.id.index] ∧
          ∀ other, pool.Draws lib other (if other = category then 1 else 0) pool' after := by
  by_cases hid : lib.id = .project
  · -- Without a hole the record goes behind the table, else into the least hole.
    cases hfree : pool.free .project category with
    | nil =>
      refine ⟨none, pool, by simp [allocate, htop, hid, hfree], le_refl _,
        lib.slot?_tableSize category (le_refl _), fun _ => rfl, ?_⟩
      rintro entry after admits rfl hindex hid
      refine ⟨(h hid).append admits hindex, ?_, draws_of_admits admits ⟨by simp [hfree], ?_⟩
        fun _ _ => rfl⟩
      · simp [next, hfree, hindex]
      · rw [admits.tableSize_eq, hindex, hfree]
        simp
    | cons least rest =>
      have hleast := ((h hid).mem_free category least).1 (by simp [hfree])
      have hempty : lib.slot? category least = none := by simpa using hleast.2
      refine ⟨some least, pool.setFree .project category rest,
        by simp [allocate, htop, hid, hfree], le_of_lt hleast.1, hempty,
        fun hne => absurd hid hne, ?_⟩
      rintro entry after admits rfl hindex -
      obtain rfl : least = entry.id.index := hindex.symm
      refine ⟨(h hid).fill admits hfree, ?_, draws_of_admits admits ⟨by simp [hfree], ?_⟩
        fun other hc => by simp [Ne.symm hc]⟩
      · simp [next, hfree]
      · rw [admits.tableSize_eq, hfree, if_pos rfl]
        have hlt := hleast.1
        simp only [List.length_cons]
        omega
  · refine ⟨none, pool, by simp [allocate, htop, hid], le_refl _,
      lib.slot?_tableSize category (le_refl _), fun _ => rfl, ?_⟩
    exact fun _ _ _ _ _ hproject => absurd hproject hid

/-! ## Giving back -/

/-- The index of a live declaration that is not marked yet can be given back. -/
theorem Matches.recycle (h : pool.Matches lib marked) {decl : DeclId} {entry : Entry}
    (hlive : lib.slot? decl.category decl.index = some entry)
    (hdecl : decl = ⟨.project, decl.category, decl.index, none⟩)
    (htop : decl.category.isMember = false) (hnew : decl ∉ marked) :
    ∃ pool', pool.recycle decl.library decl.category decl.index = .ok pool' ∧
      pool'.Matches lib (decl :: marked) := by
  have hlibrary : decl.library = .project := by rw [hdecl]
  -- The slot is still taken and not marked yet, so the pool does not have it.
  have hfree : decl.index ∉ pool.free .project decl.category := by
    rw [h.mem_free, hlive, ← hdecl]
    simp [hnew]
  have hok : pool.recycle decl.library decl.category decl.index
      = .ok (pool.setFree .project decl.category
        (addSorted (pool.free .project decl.category) decl.index)) := by
    simp [IndexPool.recycle, htop, hlibrary, hfree]
  refine ⟨_, hok, fun other index => ?_, fun other => ?_⟩
  · rw [free_setFree, List.mem_cons]
    by_cases hsame : decl.category = other
    · subst hsame
      have hold := h.mem_free decl.category index
      simp only [and_self, if_true, mem_addSorted, hold]
      -- The marked slot joins the list, and nothing else of the category changes.
      by_cases hi : index = decl.index
      · subst hi
        simp [Library.lt_tableSize hlive, ← hdecl]
      · have hne : DeclId.mk .project decl.category index none ≠ decl := by
          rw [hdecl]
          simp [hi]
        simp [hi, hne]
    · have hne : DeclId.mk .project other index none ≠ decl := by
        rw [hdecl]
        simp [Ne.symm hsame]
      simp [hsame, hne, h.mem_free other index]
  · rw [free_setFree]
    split
    · exact pairwise_addSorted (h.sorted _) _
    · exact h.sorted other

/-- Disposing of marked declarations empties their slots. -/
lemma Matches.sheds (h : pool.Matches lib (decls ++ marked)) (hid : lib.id = .project)
    (sheds : lib.Sheds decls lib') : pool.Matches lib' marked where
  mem_free category index := by
    rw [h.mem_free, sheds.tableSize_eq, sheds.slot?_eq, hid, List.mem_append]
    by_cases hgone : DeclId.mk .project category index none ∈ decls
    · simp [hgone]
    · simp [hgone]
  sorted := h.sorted

lemma Matches.perm {marked' : List DeclId} (h : pool.Matches lib marked)
    (hperm : ∀ decl, decl ∈ marked' ↔ decl ∈ marked) : pool.Matches lib marked' where
  mem_free category index := by rw [h.mem_free, hperm]
  sorted := h.sorted

end IndexPool

end SymbolGraph
