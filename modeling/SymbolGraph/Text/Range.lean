/-!
# Places in a source document

A `Position` is a line and a character column, both counted from zero; a `Range` runs from one
position to another; a `Location` is a range in a named document.  Positions are ordered line
first, ranges by start and then end, locations by document and then range.

Containment counts the end position (`Range.Contains`), so that a cursor placed right behind a
name still hits the name.  `Range.extent` is the rough size by which the innermost of several
covering ranges is picked.
-/

namespace SymbolGraph

/-- A zero-based line and character column. -/
structure Position where
  line : Nat
  character : Nat
deriving DecidableEq, Repr, Inhabited

namespace Position

/-- Positions are compared line first, then column. -/
protected def compare (p q : Position) : Ordering :=
  (Ord.compare p.line q.line).then (Ord.compare p.character q.character)

instance : Ord Position := ⟨Position.compare⟩

/-- Reading order: an earlier line, or the same line and no later column. -/
protected def le (p q : Position) : Prop :=
  p.line < q.line ∨ p.line = q.line ∧ p.character ≤ q.character

instance : LE Position := ⟨Position.le⟩

theorem le_def (p q : Position) :
    p ≤ q ↔ p.line < q.line ∨ p.line = q.line ∧ p.character ≤ q.character := Iff.rfl

instance (p q : Position) : Decidable (p ≤ q) :=
  decidable_of_iff _ (le_def p q).symm

@[simp] theorem le_refl (p : Position) : p ≤ p := by simp [le_def]

theorem le_trans {p q r : Position} (h : p ≤ q) (k : q ≤ r) : p ≤ r := by
  simp only [le_def] at *
  omega

theorem le_total (p q : Position) : p ≤ q ∨ q ≤ p := by
  simp only [le_def]
  omega

theorem le_antisymm {p q : Position} (h : p ≤ q) (k : q ≤ p) : p = q := by
  cases p
  cases q
  simp only [le_def] at h k
  simp only [Position.mk.injEq]
  omega

/-- The earlier of two positions. -/
def earlier (p q : Position) : Position := if p ≤ q then p else q

/-- The later of two positions. -/
def later (p q : Position) : Position := if p ≤ q then q else p

end Position

/-- A stretch of text between two positions of one document. -/
structure Range where
  start : Position
  stop : Position
deriving DecidableEq, Repr, Inhabited

namespace Range

/-- The range of `len` characters from column `character` of one line. -/
def onLine (line character len : Nat) : Range :=
  ⟨⟨line, character⟩, ⟨line, character + len⟩⟩

@[simp] theorem start_onLine (line character len : Nat) :
    (onLine line character len).start = ⟨line, character⟩ := rfl

@[simp] theorem stop_onLine (line character len : Nat) :
    (onLine line character len).stop = ⟨line, character + len⟩ := rfl

/-- A range contains the positions from its start up to its end, the end included. -/
def Contains (r : Range) (p : Position) : Prop := r.start ≤ p ∧ p ≤ r.stop

instance (r : Range) (p : Position) : Decidable (r.Contains p) :=
  inferInstanceAs (Decidable (_ ∧ _))

/-- One range lies within another when the other reaches at least as far on both sides. -/
def Within (r other : Range) : Prop := other.start ≤ r.start ∧ r.stop ≤ other.stop

instance (r other : Range) : Decidable (r.Within other) :=
  inferInstanceAs (Decidable (_ ∧ _))

/-- The least range that covers both. -/
def merge (r other : Range) : Range :=
  ⟨r.start.earlier other.start, r.stop.later other.stop⟩

/-- Rough size: the number of line breaks, then the characters on the last line (on the only
line, the characters covered). -/
def extent (r : Range) : Nat × Nat :=
  let lines := r.stop.line - r.start.line
  (lines, if lines = 0 then r.stop.character - r.start.character else r.stop.character)

/-- Ranges are compared by start, then end. -/
protected def compare (r other : Range) : Ordering :=
  (Ord.compare r.start other.start).then (Ord.compare r.stop other.stop)

instance : Ord Range := ⟨Range.compare⟩

end Range

/-- A range of a named document. -/
structure Location where
  document : String
  range : Range
deriving DecidableEq, Repr, Inhabited

/-- A name as written, with the place where it is written. -/
structure Ident where
  name : String
  range : Range
deriving DecidableEq, Repr, Inhabited

end SymbolGraph
