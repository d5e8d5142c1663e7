import Mathlib.Data.List.Induction
import Mathlib.Order.Bounds.Basic
import SymbolGraph.Text.EditDistance

/-!
# Edits and the edit distance

An edit puts one character into a text, takes one out or replaces one (`EditDistance.Edit`), and
`EditDistance.Edits n a b` says that `n` edits, one after another, turn `a` into `b`.  The edit
distance is the least such `n`, and therefore a metric (`editDistance_fewest_edits`).

What the rows tabulate is a recursion over the last characters of both texts.
`EditDistance.distance` is this recursion with both texts given in reverse, so that the last
characters come first, and `EditDistance.row_eq` says that a row holds its values at all initial
parts of the second text.

Edits may come in any order and touch one place again and again, so no induction on them follows the
recursion.  That there are no fewer edits is shown the other way round: one edit of a text changes
its distance to any third text by at most one (`EditDistance.Edit.distance_le`).
-/

namespace SymbolGraph

namespace EditDistance

/-! ## Edits -/

/-- One edit of a single character. -/
inductive Edit : List Char → List Char → Prop
  | insert (before after : List Char) (c : Char) : Edit (before ++ after) (before ++ c :: after)
  | delete (before after : List Char) (c : Char) : Edit (before ++ c :: after) (before ++ after)
  | substitute (before after : List Char) (c d : Char) :
      Edit (before ++ c :: after) (before ++ d :: after)

/-- So many edits, one after another, turn one text into another. -/
inductive Edits : Nat → List Char → List Char → Prop
  | none (a : List Char) : Edits 0 a a
  | next {n : Nat} {a b c : List Char} : Edit a b → Edits n b c → Edits (n + 1) a c

variable {m n : Nat} {a b c : List Char}

lemma Edit.symm (edit : Edit a b) : Edit b a := by
  cases edit with
  | insert before after c => exact .delete before after c
  | delete before after c => exact .insert before after c
  | substitute before after c d => exact .substitute before after d c

lemma Edit.cons (edit : Edit a b) (first : Char) : Edit (first :: a) (first :: b) := by
  cases edit with
  | insert before after c => exact .insert (first :: before) after c
  | delete before after c => exact .delete (first :: before) after c
  | substitute before after c d => exact .substitute (first :: before) after c d

lemma Edit.reverse (edit : Edit a b) : Edit a.reverse b.reverse := by
  cases edit with
  | insert before after c => simpa using Edit.insert after.reverse before.reverse c
  | delete before after c => simpa using Edit.delete after.reverse before.reverse c
  | substitute before after c d => simpa using Edit.substitute after.reverse before.reverse c d

lemma Edits.trans (edits : Edits m a b) (others : Edits n b c) : Edits (m + n) a c := by
  induction edits with
  | none a => rwa [Nat.zero_add]
  | next edit _ ih =>
    rw [Nat.add_right_comm]
    exact .next edit (ih others)

lemma Edits.symm (edits : Edits n a b) : Edits n b a := by
  induction edits with
  | none a => exact .none a
  | next edit _ ih => exact ih.trans (.next edit.symm (.none _))

lemma Edits.cons (edits : Edits n a b) (first : Char) : Edits n (first :: a) (first :: b) := by
  induction edits with
  | none a => exact .none _
  | next edit _ ih => exact .next (edit.cons first) ih

lemma Edits.reverse (edits : Edits n a b) : Edits n a.reverse b.reverse := by
  induction edits with
  | none a => exact .none _
  | next edit _ ih => exact .next edit.reverse ih

lemma Edits.min (edits : Edits m a b) (others : Edits n a b) : Edits (min m n) a b := by
  rcases Nat.le_total m n with h | h
  · rwa [Nat.min_eq_left h]
  · rwa [Nat.min_eq_right h]

/-- One character after another, a text is taken away. -/
lemma edits_clear (a : List Char) : Edits a.length a [] := by
  induction a with
  | nil => exact .none []
  | cons first rest ih => exact .next (.delete [] rest first) ih

lemma edits_zero_iff : Edits 0 a b ↔ a = b := by
  constructor
  · rintro ⟨⟩
    rfl
  · rintro rfl
    exact .none a

/-! ## The recursion behind the rows -/

/-- The edit distance of two texts that are given in reverse: each of their last characters is
paired with the other, or one of them is left alone. -/
def distance : List Char → List Char → Nat
  | [], ys => ys.length
  | x :: xs, [] => xs.length + 1
  | x :: xs, y :: ys =>
    min (min (distance xs ys + if x = y then 0 else 1) (distance xs (y :: ys) + 1))
      (distance (x :: xs) ys + 1)
termination_by xs ys => xs.length + ys.length

@[simp] lemma distance_nil_left (ys : List Char) : distance [] ys = ys.length := by rw [distance]

@[simp] lemma distance_nil_right (xs : List Char) : distance xs [] = xs.length := by
  cases xs <;> simp [distance]

lemma distance_cons_cons (x y : Char) (xs ys : List Char) : distance (x :: xs) (y :: ys) =
    min (min (distance xs ys + if x = y then 0 else 1) (distance xs (y :: ys) + 1))
      (distance (x :: xs) ys + 1) := by
  rw [distance]

@[simp] lemma distance_self (xs : List Char) : distance xs xs = 0 := by
  induction xs with
  | nil => simp
  | cons x xs ih => simp [distance_cons_cons, ih]

/-- There are as many edits as the recursion says. -/
lemma edits_distance (xs ys : List Char) : Edits (distance xs ys) xs ys := by
  fun_induction distance xs ys with
  | case1 ys => exact (edits_clear ys).symm
  | case2 x xs => exact edits_clear (x :: xs)
  | case3 x xs y ys hboth hleft hright =>
    have hpaired : Edits (distance xs ys + if x = y then 0 else 1) (x :: xs) (y :: ys) := by
      split
      · next heq => exact heq ▸ hboth.cons x
      · exact .next (.substitute [] xs x y) (hboth.cons y)
    have hdeleted : Edits (distance xs (y :: ys) + 1) (x :: xs) (y :: ys) :=
      .next (.delete [] xs x) hleft
    have hinserted : Edits (distance (x :: xs) ys + 1) (x :: xs) (y :: ys) :=
      .next (.insert [] (x :: xs) y) (hright.cons y)
    exact (hpaired.min hdeleted).min hinserted

/-! ## One edit changes a distance by at most one -/

lemma distance_cons_le (x : Char) (xs zs : List Char) :
    distance (x :: xs) zs ≤ distance xs zs + 1 := by
  cases zs with
  | nil => simp
  | cons z zs =>
    rw [distance_cons_cons]
    omega

lemma distance_le_cons (x : Char) (xs zs : List Char) :
    distance xs zs ≤ distance (x :: xs) zs + 1 := by
  induction zs with
  | nil => simp; omega
  | cons z zs ih =>
    have hright : distance xs (z :: zs) ≤ distance xs zs + 1 := by
      cases xs with
      | nil => simp
      | cons x' xs =>
        rw [distance_cons_cons]
        omega
    rw [distance_cons_cons]
    omega

lemma distance_substitute_le (x y : Char) (xs zs : List Char) :
    distance (x :: xs) zs ≤ distance (y :: xs) zs + 1 := by
  induction zs with
  | nil => simp
  | cons z zs ih =>
    have hcost : (if x = z then 0 else 1) ≤ (if y = z then 0 else 1) + 1 := by split <;> omega
    rw [distance_cons_cons, distance_cons_cons]
    omega

/-- A common last character keeps two texts close. -/
lemma distance_cons_le_cons {xs ys : List Char} (h : ∀ zs, distance xs zs ≤ distance ys zs + 1)
    (c : Char) (zs : List Char) : distance (c :: xs) zs ≤ distance (c :: ys) zs + 1 := by
  induction zs with
  | nil => simpa using h []
  | cons z zs ih =>
    have hpaired := h zs
    have hleft := h (z :: zs)
    rw [distance_cons_cons, distance_cons_cons]
    omega

lemma distance_append_le_append {xs ys : List Char} (h : ∀ zs, distance xs zs ≤ distance ys zs + 1)
    (cs zs : List Char) : distance (cs ++ xs) zs ≤ distance (cs ++ ys) zs + 1 := by
  induction cs generalizing zs with
  | nil => exact h zs
  | cons c cs ih => exact distance_cons_le_cons ih c zs

theorem Edit.distance_le (edit : Edit a b) (zs : List Char) :
    distance a zs ≤ distance b zs + 1 := by
  cases edit with
  | insert before after c => exact distance_append_le_append (distance_le_cons c after) before zs
  | delete before after c => exact distance_append_le_append (distance_cons_le c after) before zs
  | substitute before after c d =>
    exact distance_append_le_append (distance_substitute_le c d after) before zs

lemma Edits.distance_le_add (edits : Edits n a b) (zs : List Char) :
    distance a zs ≤ distance b zs + n := by
  induction edits with
  | none a => exact Nat.le_refl _
  | @next n a b c edit _ ih =>
    calc distance a zs ≤ distance b zs + 1 := edit.distance_le zs
      _ ≤ distance c zs + n + 1 := Nat.add_le_add_right ih 1

/-- No edits are fewer than the recursion says. -/
theorem Edits.distance_le (edits : Edits n a b) : distance a b ≤ n := by
  have h := edits.distance_le_add b
  rwa [distance_self, Nat.zero_add] at h

/-! ## What the rows hold -/

/-- The distances to all initial parts of a text from `done` on, which is given in reverse, with the
characters that are still to come. -/
def entries (xs done : List Char) : List Char → List Nat
  | [] => [distance xs done]
  | d :: ds => distance xs done :: entries xs (d :: done) ds

lemma firstRow_eq (b : List Char) : firstRow b = entries [] [] b := by
  suffices ∀ done, List.range' done.length (b.length + 1) = entries [] done b by
    rw [firstRow, List.range_eq_range']
    exact this []
  induction b with
  | nil => simp [entries]
  | cons d ds ih =>
    intro done
    rw [List.length_cons, List.range'_succ, entries, distance_nil_left, ← ih (d :: done)]
    rfl

/-- Filling goes on from any initial part of `b` on: left of it all is done. -/
lemma fillRow_eq (c : Char) (xs done b : List Char) :
    fillRow c b (distance xs done) (distance (c :: xs) done) (entries xs done b).tail
      = entries (c :: xs) done b := by
  induction b generalizing done with
  | nil => rfl
  | cons d ds ih =>
    have hstep := ih (d :: done)
    rw [distance_cons_cons] at hstep
    -- The row above shows its next entry once it is known whether `b` goes on.
    cases ds with
    | nil => simpa [entries, fillRow] using hstep
    | cons d' ds => simpa [entries, fillRow] using hstep

lemma nextRow_eq (c : Char) (xs b : List Char) :
    nextRow b (entries xs [] b) c = entries (c :: xs) [] b := by
  have h := fillRow_eq c xs [] b
  rw [distance_nil_right, distance_nil_right, List.length_cons] at h
  rw [← h]
  cases b <;> simp [entries, nextRow]

/-- The row of `a` holds the distances from `a` to all initial parts of `b`. -/
theorem row_eq (a b : List Char) : row a b = entries a.reverse [] b := by
  induction a using List.reverseRecOn with
  | nil => exact firstRow_eq b
  | append_singleton a c ih =>
    rw [row] at ih
    rw [row, List.foldl_append, ih, List.reverse_append]
    exact nextRow_eq c a.reverse b

lemma getLast?_entries (xs done b : List Char) :
    (entries xs done b).getLast? = some (distance xs (b.reverse ++ done)) := by
  induction b generalizing done with
  | nil => rfl
  | cons d ds ih =>
    have hne : entries xs (d :: done) ds ≠ [] := by cases ds <;> simp [entries]
    rw [entries, List.getLast?_cons_of_ne_nil hne, ih]
    simp

end EditDistance

open EditDistance

lemma editDistance_eq (a b : String) :
    editDistance a b = distance a.toList.reverse b.toList.reverse := by
  rw [editDistance, row_eq, getLast?_entries, List.append_nil, Option.getD_some]

lemma isLeast_editDistance (a b : String) :
    IsLeast {n | Edits n a.toList b.toList} (editDistance a b) := by
  rw [editDistance_eq]
  constructor
  · simpa using (edits_distance a.toList.reverse b.toList.reverse).reverse
  · exact fun n edits => edits.reverse.distance_le

/-- The edit distance is the least number of insertions, deletions and substitutions of single
characters that turn one text into the other, and a metric. -/
theorem editDistance_fewest_edits (a b : String) :
    IsLeast {n | Edits n a.toList b.toList} (editDistance a b) ∧
      (editDistance a b = 0 ↔ a = b) ∧
      editDistance a b = editDistance b a ∧
      ∀ c, editDistance a c ≤ editDistance a b + editDistance b c := by
  obtain ⟨hedits, hleast⟩ := isLeast_editDistance a b
  obtain ⟨hedits', hleast'⟩ := isLeast_editDistance b a
  refine ⟨⟨hedits, hleast⟩, ?_, ?_, fun c => ?_⟩
  · rw [← String.toList_inj, ← edits_zero_iff]
    exact ⟨fun h => h ▸ hedits, fun h => Nat.le_zero.1 (hleast h)⟩
  · exact Nat.le_antisymm (hleast hedits'.symm) (hleast' hedits.symm)
  · exact (isLeast_editDistance a c).2 (hedits.trans (isLeast_editDistance b c).1)

example : editDistance "kitten" "sitting" = 3 := by decide

end SymbolGraph
