import SymbolGraph.Proofs.Queries.HoverAndDefinition

/-!
# The innermost name at a position

Of the names that cover a position, the one picked has the least extent (`innermost_least`).  The
extent that one range lies within another as long as the inner one ends earlier or spans fewer
lines, and on a single line it sees every difference.  Of a range that spans lines it counts the
lines and the characters on the last one, so it does not tell such a range from one that starts
further right on the same line and ends at the same place, its *tail* (`Range.Tail`).

Apart from tails, what is picked is innermost: no other range that covers the position lies within
it (`SourceUnit.occurrenceAt_innermost_iff`).
-/

namespace SymbolGraph

/-! ## Extents of nested ranges -/

namespace Range

/-- A range is the tail of one that spans lines if it starts further right on the same line and ends
at the same place. -/
def Tail (r whole : Range) : Prop :=
  r.stop = whole.stop ∧ r.start.line = whole.start.line ∧
    whole.start.character < r.start.character ∧ r.start.line < r.stop.line

variable {r whole : Range}

instance (r whole : Range) : Decidable (r.Tail whole) :=
  inferInstanceAs (Decidable (_ ∧ _ ∧ _ ∧ _))

lemma Tail.within (h : r.Tail whole) : r.Within whole := by
  obtain ⟨hstop, hline, hcharacter, -⟩ := h
  refine ⟨(Position.le_def _ _).2 (Or.inr ⟨hline.symm, Nat.le_of_lt hcharacter⟩), ?_⟩
  rw [hstop]
  exact Position.le_refl _

lemma Tail.ne (h : r.Tail whole) : r ≠ whole := by
  rintro rfl
  exact Nat.lt_irrefl _ h.2.2.1

/-- Of two ranges, one within the other, the inner one has the smaller extent unless it is a
tail. -/
lemma extent_lt_of_within (ordered : r.start ≤ r.stop) (within : r.Within whole) (hne : r ≠ whole)
    (htail : ¬ r.Tail whole) : smaller r.extent whole.extent = true := by
  obtain ⟨⟨line₁, char₁⟩, ⟨line₂, char₂⟩⟩ := r
  obtain ⟨⟨line₃, char₃⟩, ⟨line₄, char₄⟩⟩ := whole
  obtain ⟨hstart, hstop⟩ := within
  simp only [Position.le_def] at ordered hstart hstop
  simp only [Tail, Position.mk.injEq, not_and, not_lt] at htail
  simp only [ne_eq, Range.mk.injEq, Position.mk.injEq, not_and] at hne
  simp only [smaller, extent, Bool.or_eq_true, decide_eq_true_eq, Bool.and_eq_true]
  by_cases hlines : line₂ - line₁ < line₄ - line₃
  · exact Or.inl hlines
  · obtain rfl : line₁ = line₃ := by omega
    obtain rfl : line₂ = line₄ := by omega
    refine Or.inr ⟨rfl, ?_⟩
    split
    · have hline : line₁ = line₂ := by omega
      by_cases hchars : char₁ = char₃
      · have := hne ⟨rfl, hchars⟩ rfl
        omega
      · omega
    · by_cases hchars : char₂ = char₄
      · have hcovered := htail ⟨rfl, hchars⟩ rfl
        by_cases hsame : char₁ = char₃
        · exact absurd hchars (hne ⟨rfl, hsame⟩ rfl)
        · omega
      · omega

end Range

/-! ## The first of least extent -/

lemma smaller_irrefl (a : Nat × Nat) : smaller a a = false := by simp [smaller]

lemma smaller_trans {a b c : Nat × Nat} (h : smaller a b = true) (k : smaller b c = true) :
    smaller a c = true := by
  simp only [smaller, Bool.or_eq_true, decide_eq_true_eq, Bool.and_eq_true] at *
  omega

/-- What is not smaller than the smaller of two is not smaller than the other. -/
lemma not_smaller_trans {a b c : Nat × Nat} (h : smaller b a = false) (k : smaller c b = false) :
    smaller c a = false := by
  simp only [smaller, Bool.or_eq_false_iff, decide_eq_false_iff_not, Bool.and_eq_false_iff] at *
  omega

/-- The best so far against the rest of a list: it stays unless something smaller comes. -/
lemma foldl_innermost (occurrences : List Occurrence) (best : Occurrence) :
    let picked := occurrences.foldl (fun best other =>
      if smaller other.range.extent best.range.extent then other else best) best
    smaller best.range.extent picked.range.extent = false ∧
      ∀ other ∈ occurrences, smaller other.range.extent picked.range.extent = false := by
  induction occurrences generalizing best with
  | nil => exact ⟨smaller_irrefl _, by simp⟩
  | cons next rest ih =>
    rw [List.foldl_cons]
    obtain ⟨hnext, hrest⟩ := ih (if smaller next.range.extent best.range.extent then next else best)
    split at hnext <;> rename_i hsmaller
    · simp only [hsmaller, if_true] at hnext hrest ⊢
      refine ⟨?_, List.forall_mem_cons.2 ⟨hnext, hrest⟩⟩
      by_contra hbest
      rw [Bool.not_eq_false] at hbest
      exact absurd (smaller_trans hsmaller hbest) (by simp [hnext])
    · simp only [hsmaller] at hnext hrest ⊢
      refine ⟨hnext, List.forall_mem_cons.2 ⟨?_, hrest⟩⟩
      exact not_smaller_trans hnext (by simpa using hsmaller)

/-- Nothing is smaller than what is picked. -/
theorem innermost_least {occurrences : List Occurrence} {picked : Occurrence}
    (h : innermost occurrences = some picked) :
    ∀ other ∈ occurrences, smaller other.range.extent picked.range.extent = false := by
  cases occurrences with
  | nil => cases h
  | cons first rest =>
    obtain rfl := Option.some.inj h
    exact List.forall_mem_cons.2 (foldl_innermost rest first)

lemma innermost_eq_none {occurrences : List Occurrence} :
    innermost occurrences = none ↔ occurrences = [] := by
  cases occurrences <;> simp [innermost]

/-! ## The innermost name -/

namespace SourceUnit

/-- Among names whose ranges end where they start or later, a position finds a name exactly if some
name covers it; and what is found is a covering name.  No other range that covers the position lies
within its range, unless one is a tail of it. -/
theorem occurrenceAt_innermost_iff (unit : SourceUnit)
    (ordered : ∀ occurrence ∈ unit.occurrences, occurrence.range.start ≤ occurrence.range.stop)
    (position : Position) :
    (unit.occurrenceAt position = none ↔
      ∀ occurrence ∈ unit.occurrences, ¬ occurrence.range.Contains position) ∧
    ∀ picked, unit.occurrenceAt position = some picked →
      picked ∈ unit.occurrences ∧ picked.range.Contains position ∧
      ((∀ other ∈ unit.occurrences, other.range.Contains position →
          other.range.Within picked.range → other.range = picked.range) ↔
        ∀ other ∈ unit.occurrences, other.range.Contains position →
          ¬ other.range.Tail picked.range) := by
  refine ⟨?_, fun picked hpicked => ?_⟩
  · rw [occurrenceAt, innermost_eq_none, List.filter_eq_nil_iff]
    simp
  obtain ⟨hmem, hcovers⟩ := occurrenceAt_mem hpicked
  refine ⟨hmem, hcovers, fun hinner other hother hcovered htail => ?_,
    fun htails other hother hcovered hwithin => ?_⟩
  · exact htail.ne (hinner other hother hcovered htail.within)
  · by_contra hne
    have hleast : smaller other.range.extent picked.range.extent = false :=
      innermost_least hpicked other (List.mem_filter.2 ⟨hother, by simpa using hcovered⟩)
    rw [Range.extent_lt_of_within (ordered other hother) hwithin hne
      (htails other hother hcovered)] at hleast
    cases hleast

/-- The definitions of two names, the second within the first, that end at the same place. -/
def nested (outer inner : Range) : SourceUnit :=
  { SourceUnit.new ⟨"a.rk", ⟨none, [], [], []⟩⟩ .project with
    occurrences := [⟨outer, .declaration ⟨.project, .struct, 0, none⟩, true, false⟩,
      ⟨inner, .declaration ⟨.project, .struct, 1, none⟩, true, false⟩] }

/-- On one line the inner of two names is found. -/
theorem occurrenceAt_nested :
    (∀ occurrence ∈ (nested ⟨⟨0, 0⟩, ⟨0, 5⟩⟩ ⟨⟨0, 3⟩, ⟨0, 5⟩⟩).occurrences,
      occurrence.range.start ≤ occurrence.range.stop) ∧
    ∃ picked, (nested ⟨⟨0, 0⟩, ⟨0, 5⟩⟩ ⟨⟨0, 3⟩, ⟨0, 5⟩⟩).occurrenceAt ⟨0, 4⟩ = some picked ∧
      ∀ other ∈ (nested ⟨⟨0, 0⟩, ⟨0, 5⟩⟩ ⟨⟨0, 3⟩, ⟨0, 5⟩⟩).occurrences,
        other.range.Contains ⟨0, 4⟩ → other.range.Within picked.range →
        other.range = picked.range := by
  have ordered : ∀ occurrence ∈ (nested ⟨⟨0, 0⟩, ⟨0, 5⟩⟩ ⟨⟨0, 3⟩, ⟨0, 5⟩⟩).occurrences,
      occurrence.range.start ≤ occurrence.range.stop := by decide
  obtain ⟨-, hpicked⟩ := occurrenceAt_innermost_iff _ ordered ⟨0, 4⟩
  obtain ⟨-, -, hinner⟩ := hpicked ⟨⟨⟨0, 3⟩, ⟨0, 5⟩⟩, .declaration ⟨.project, .struct, 1, none⟩,
    true, false⟩ rfl
  exact ⟨ordered, _, rfl, hinner.2 (by decide)⟩

/-- Of two names that span lines, the outer one is found, and the inner one covers the position and
lies within it. -/
theorem occurrenceAt_outer :
    ∃ picked other, (nested ⟨⟨0, 0⟩, ⟨1, 5⟩⟩ ⟨⟨0, 3⟩, ⟨1, 5⟩⟩).occurrenceAt ⟨1, 0⟩ = some picked ∧
      (∀ occurrence ∈ (nested ⟨⟨0, 0⟩, ⟨1, 5⟩⟩ ⟨⟨0, 3⟩, ⟨1, 5⟩⟩).occurrences,
        occurrence.range.start ≤ occurrence.range.stop) ∧
      other ∈ (nested ⟨⟨0, 0⟩, ⟨1, 5⟩⟩ ⟨⟨0, 3⟩, ⟨1, 5⟩⟩).occurrences ∧
      other.range.Contains ⟨1, 0⟩ ∧ other.range ≠ picked.range ∧
      other.range.Within picked.range := by
  refine ⟨⟨⟨⟨0, 0⟩, ⟨1, 5⟩⟩, .declaration ⟨.project, .struct, 0, none⟩, true, false⟩,
    ⟨⟨⟨0, 3⟩, ⟨1, 5⟩⟩, .declaration ⟨.project, .struct, 1, none⟩, true, false⟩, rfl, ?_⟩
  decide

end SourceUnit

end SymbolGraph
