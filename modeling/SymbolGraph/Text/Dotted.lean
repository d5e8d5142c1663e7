/-!
# Dotted names

Names nest with dots: `a.b.C`.  `Dotted.split` cuts a text at every dot, so that a text with `n`
dots has `n + 1` segments, some of them possibly empty; `Dotted.join` puts the segments back.
`join_split` says that nothing is lost.
-/

namespace SymbolGraph.Dotted

/-- The segments between dots; the empty text is one empty segment. -/
def split : List Char → List (List Char)
  | [] => [[]]
  | c :: cs =>
    if c = '.' then [] :: split cs
    else match split cs with
      | [] => [[c]]
      | segment :: rest => (c :: segment) :: rest

/-- Segments joined by single dots. -/
def join : List (List Char) → List Char
  | [] => []
  | [segment] => segment
  | segment :: rest => segment ++ '.' :: join rest

@[simp] theorem split_ne_nil (cs : List Char) : split cs ≠ [] := by
  cases cs with
  | nil => simp [split]
  | cons c cs =>
    simp only [split]
    split
    · simp
    · split <;> simp

/-- Cutting at the dots and joining again gives the text back. -/
@[simp] theorem join_split (cs : List Char) : join (split cs) = cs := by
  induction cs with
  | nil => rfl
  | cons c cs ih =>
    simp only [split]
    by_cases h : c = '.'
    · simp only [h, if_true]
      cases hs : split cs with
      | nil => exact absurd hs (split_ne_nil cs)
      | cons segment rest => simp [join, ← hs, ih]
    · simp only [h, if_false]
      cases hs : split cs with
      | nil => exact absurd hs (split_ne_nil cs)
      | cons segment rest =>
        rw [hs] at ih
        cases rest with
        | nil => simpa [join] using ih
        | cons next rest => simpa [join] using ih

/-- No segment holds a dot. -/
theorem dot_notMem_of_mem_split {cs segment : List Char} (h : segment ∈ split cs) :
    '.' ∉ segment := by
  induction cs generalizing segment with
  | nil => simp_all [split]
  | cons c cs ih =>
    simp only [split] at h
    by_cases hc : c = '.'
    · simp only [hc, if_true, List.mem_cons] at h
      rcases h with rfl | h
      · simp
      · exact ih h
    · simp only [hc, if_false] at h
      cases hs : split cs with
      | nil => exact absurd hs (split_ne_nil cs)
      | cons head rest =>
        rw [hs] at h ih
        simp only [List.mem_cons] at h
        rcases h with rfl | h
        · simp [Ne.symm hc, ih (List.mem_cons_self)]
        · exact ih (List.mem_cons_of_mem _ h)

/-- Names joined by dots. -/
def joinNames (names : List String) : String := String.intercalate "." names

/-- The segments of a dotted name. -/
def splitName (name : String) : List String := (split name.toList).map String.ofList

end SymbolGraph.Dotted
