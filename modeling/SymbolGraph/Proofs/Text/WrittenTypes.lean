import Mathlib.Data.List.DropRight
import Mathlib.Data.String.Basic
import Mathlib.Order.Bounds.Basic
import SymbolGraph.Sketch

/-!
# Types as they are written

A sketch gives a type by its text: a dotted name and array ranks, with blanks around it.  The type
reference that is laid out for it reads back as the text without these blanks, and its parts stand
where the text has them (`Sketch.typeRef_reads_back`).

Where a segment of a dotted name stands in a text is said by `Dotted.SegmentAt` without a list of
segments, by the dots around it.  `Sketch.cutRanks` takes the ranks off from the end; that it takes
all of them is `Sketch.le_cutRanks`.
-/

namespace SymbolGraph

/-! ## Trimming -/

/-- `trimmed` is what is left of a text without the blanks at its two ends. -/
def Trims (cs trimmed : List Char) : Prop :=
  ∃ before after, cs = before ++ trimmed ++ after ∧
    (∀ c ∈ before, isBlank c) ∧ (∀ c ∈ after, isBlank c) ∧
    (∀ c ∈ trimmed.head?, ¬ isBlank c) ∧ ∀ c ∈ trimmed.getLast?, ¬ isBlank c

lemma trimBlank_eq_rdropWhile (cs : List Char) :
    trimBlank cs = (cs.dropWhile isBlank).rdropWhile isBlank := rfl

lemma trims_trimBlank (cs : List Char) : Trims cs (trimBlank cs) := by
  rw [trimBlank_eq_rdropWhile]
  have hleft := List.takeWhile_append_dropWhile (p := isBlank) (l := cs)
  generalize hrest : cs.dropWhile isBlank = rest at hleft
  have hright := List.rdropWhile_append_rtakeWhile (p := isBlank) (l := rest)
  refine ⟨cs.takeWhile isBlank, rest.rtakeWhile isBlank, ?_, ?_, ?_, ?_, ?_⟩
  · rw [List.append_assoc, hright, hleft]
  · exact fun c hc => List.mem_takeWhile_imp hc
  · exact fun c hc => List.mem_rtakeWhile_imp hc
  · -- The first character that is kept is the first that is left after the blanks before it.
    intro c hc
    have hfirst : rest.head? = some c := by
      rw [← hright, List.head?_append, Option.mem_def.1 hc, Option.some_or]
    have hnot := List.head?_dropWhile_not isBlank cs
    rw [hrest, hfirst] at hnot
    simpa using hnot
  · intro c hc
    have hne : rest.rdropWhile isBlank ≠ [] := by
      rintro hnil
      simp [hnil] at hc
    have hlast := List.rdropWhile_last_not isBlank rest hne
    rw [List.getLast?_eq_some_getLast hne, Option.mem_some] at hc
    rwa [hc] at hlast

/-! ## Segments of dotted names -/

namespace Dotted

/-- `segment` stands in `cs` at the column `start`, right behind the first `i` dots and up to the
next dot or the end. -/
def SegmentAt (cs : List Char) (i start : Nat) (segment : List Char) : Prop :=
  ∃ before after, cs = before ++ segment ++ after ∧ before.length = start ∧
    before.count '.' = i ∧ (before = [] ∨ before.getLast? = some '.') ∧
    '.' ∉ segment ∧ (after = [] ∨ after.head? = some '.')

variable {cs segment first : List Char} {i start : Nat}

/-- What comes first moves the segments that follow. -/
lemma SegmentAt.behind (h : SegmentAt cs i start segment) (plain : '.' ∉ first) :
    SegmentAt (first ++ '.' :: cs) (i + 1) (first.length + 1 + start) segment := by
  obtain ⟨before, after, hcs, hstart, hdots, hbefore, hsegment, hafter⟩ := h
  refine ⟨first ++ '.' :: before, after, ?_, ?_, ?_, Or.inr ?_, hsegment, hafter⟩
  · rw [hcs]
    simp
  · rw [List.length_append, List.length_cons, hstart]
    omega
  · rw [List.count_append, List.count_eq_zero.2 plain, List.count_cons_self, hdots, Nat.zero_add]
  · obtain rfl | hlast := hbefore
    · simp
    · simp [List.getLast?_cons, hlast]

lemma join_cons (segment : List Char) {rest : List (List Char)} (h : rest ≠ []) :
    join (segment :: rest) = segment ++ '.' :: join rest := by
  cases rest with
  | nil => exact absurd rfl h
  | cons next rest => rfl

lemma join_eq_intercalate (segments : List (List Char)) :
    join segments = List.intercalate ['.'] segments := by
  induction segments with
  | nil => rfl
  | cons segment rest ih =>
    cases rest with
    | nil => simp [join]
    | cons next rest =>
      rw [join_cons segment (by simp), ih]
      simp

lemma map_toList_splitName (name : String) :
    (splitName name).map String.toList = split name.toList := by
  simp [splitName, Function.comp_def]

lemma length_split (cs : List Char) : (split cs).length = cs.count '.' + 1 := by
  induction cs with
  | nil => rfl
  | cons c cs ih =>
    rw [split]
    split
    · next hdot => rw [hdot, List.length_cons, ih, List.count_cons_self]
    · next hdot =>
      rw [List.count_cons_of_ne hdot, ← ih]
      split
      · next hnil => exact absurd hnil (split_ne_nil cs)
      · next hcons => rw [hcons, List.length_cons, List.length_cons]

end Dotted

namespace Sketch

/-! ## Array ranks -/

/-- The text of so many array ranks. -/
def ranks (k : Nat) : List Char := (List.replicate k ['[', ']']).flatten

lemma ranks_succ (k : Nat) : ranks (k + 1) = ranks k ++ ['[', ']'] := by
  simp [ranks, List.replicate_succ']

/-- Nothing is lost when ranks are cut off. -/
lemma reverse_cutRanks_append (cs : List Char) :
    (cutRanks cs).1.reverse ++ ranks (cutRanks cs).2 = cs.reverse := by
  fun_induction cutRanks cs with
  | case1 rest ih => rw [ranks_succ, ← List.append_assoc, ih]; simp
  | case2 cs _ => simp [ranks]

/-- All ranks are cut off. -/
theorem le_cutRanks {k : Nat} {cs : List Char} (h : ranks k <:+ cs.reverse) :
    k ≤ (cutRanks cs).2 := by
  induction k generalizing cs with
  | zero => exact Nat.zero_le _
  | succ k ih =>
    obtain ⟨before, hbefore⟩ := h
    have hcs : cs = ']' :: '[' :: (before ++ ranks k).reverse := by
      rw [← List.reverse_reverse cs, ← hbefore, ranks_succ]
      simp
    rw [hcs, cutRanks]
    refine Nat.succ_le_succ (ih ⟨before, ?_⟩)
    simp

/-- A text is what is left before its ranks, and all its ranks. -/
lemma exists_cutRanks (cs : List Char) :
    ∃ base dimension, cutRanks cs.reverse = (base.reverse, dimension) ∧
    cs = base ++ ranks dimension ∧
      IsGreatest {k | ranks k <:+ cs} dimension := by
  have h := reverse_cutRanks_append cs.reverse
  rw [List.reverse_reverse] at h
  refine ⟨(cutRanks cs.reverse).1.reverse, (cutRanks cs.reverse).2, ?_, h.symm,
    ⟨_, h⟩, fun k hk => ?_⟩
  · rw [List.reverse_reverse]
  · exact le_cutRanks (by rwa [List.reverse_reverse])

/-! ## Names on one line -/

variable {line column : Nat} {names : List String}

@[simp] lemma map_name_segments (line column : Nat) (names : List String) :
    (segments line column names).map Ident.name = names := by
  induction names generalizing column with
  | nil => rfl
  | cons name rest ih => rw [segments, List.map_cons, ih]

lemma length_segments (line column : Nat) (names : List String) :
    (segments line column names).length = names.length := by
  rw [← List.length_map Ident.name, map_name_segments]

/-- Each name covers the columns that it has in the dotted text. -/
lemma segmentAt_segments (plain : ∀ name ∈ names, '.' ∉ name.toList) {i : Nat} {ident : Ident}
    (h : (segments line column names)[i]? = some ident) :
    ∃ start, Dotted.SegmentAt (Dotted.join (names.map String.toList)) i start ident.name.toList ∧
      ident.range = .onLine line (column + start) ident.name.length := by
  -- The names after the first start one name and one dot further to the right.
  induction names generalizing column i with
  | nil => simp [segments] at h
  | cons name rest ih =>
    obtain ⟨hname, hrest⟩ := List.forall_mem_cons.1 plain
    rw [List.map_cons]
    cases i with
    | zero =>
      rw [segments, List.getElem?_cons_zero, Option.some.injEq] at h
      subst h
      refine ⟨0, ?_, rfl⟩
      by_cases hend : rest = []
      · exact ⟨[], [], by simp [hend, Dotted.join], rfl, rfl, Or.inl rfl, hname, Or.inl rfl⟩
      · rw [Dotted.join_cons _ (by simpa using hend)]
        exact ⟨[], _, rfl, rfl, rfl, Or.inl rfl, hname, Or.inr rfl⟩
    | succ i =>
      rw [segments, List.getElem?_cons_succ] at h
      obtain ⟨start, hat, hrange⟩ := ih hrest h
      have hmore : rest ≠ [] := by
        rintro rfl
        simp [segments] at h
      refine ⟨name.length + 1 + start, ?_, ?_⟩
      · rw [Dotted.join_cons _ (by simpa using hmore), ← String.length_toList]
        exact hat.behind hname
      · rw [hrange]
        congr 1
        omega

/-- The last of several names ends where the dotted text ends. -/
lemma getLast?_segments (line column : Nat) (h : names ≠ []) :
    ∃ last start, (segments line column names).getLast? = some last ∧ column ≤ start ∧
      last.range
        = ⟨⟨line, start⟩, ⟨line, column + (Dotted.join (names.map String.toList)).length⟩⟩ := by
  induction names generalizing column with
  | nil => exact absurd rfl h
  | cons name rest ih =>
    by_cases hend : rest = []
    · subst hend
      exact ⟨_, column, rfl, Nat.le_refl _,
        by simp [segments, Range.onLine, Dotted.join, String.length_toList]⟩
    · obtain ⟨last, start, hlast, hstart, hrange⟩ := ih (column + name.length + 1) hend
      refine ⟨last, start, ?_, by omega, ?_⟩
      · rw [segments, List.getLast?_cons_of_ne_nil, hlast]
        rintro hnil
        simp [hnil] at hlast
      · rw [hrange, List.map_cons, Dotted.join_cons _ (by simpa using hend), List.length_append,
          List.length_cons, String.length_toList]
        congr 2
        omega

/-- The range of a path runs from the first column to the end of the dotted text. -/
lemma pathRange_segments (h : names ≠ []) : TypeRef.pathRange (segments line column names)
    = .onLine line column (Dotted.join (names.map String.toList)).length := by
  obtain ⟨last, start, hlast, hstart, hrange⟩ := getLast?_segments line column h
  obtain ⟨name, rest, rfl⟩ := List.exists_cons_of_ne_nil h
  have hends : name.length ≤ (Dotted.join ((name :: rest).map String.toList)).length := by
    rw [List.map_cons, ← String.length_toList]
    cases rest with
    | nil => exact Nat.le_refl _
    | cons next rest => simp [Dotted.join]
  rw [TypeRef.pathRange, hlast, segments, List.head?_cons]
  have hfirst : Position.mk line column ≤ ⟨line, start⟩ :=
    (Position.le_def _ _).2 (Or.inr ⟨rfl, hstart⟩)
  have hlast : Position.mk line (column + name.length)
      ≤ ⟨line, column + (Dotted.join ((name :: rest).map String.toList)).length⟩ :=
    (Position.le_def _ _).2 (Or.inr ⟨rfl, Nat.add_le_add_left hends column⟩)
  simp only [Range.merge, Range.onLine, hrange, Position.earlier, Position.later,
    if_pos hfirst, if_pos hlast]

/-! ## Type references -/

lemma toList_text (ty : TypeRef) : ty.text.toList
    = Dotted.join ((ty.path.map Ident.name).map String.toList) ++ ranks ty.dimension := by
  rw [TypeRef.text, TypeRef.dotted, Dotted.joinNames, String.toList_append,
    String.toList_intercalate, String.toList_join, Dotted.join_eq_intercalate, ranks]
  congr 1
  simp [List.flatMap]

/-- What a type reference on a line has of the text that it is laid out for.  Its number of ranks
leaves one `base` that stands before them. -/
structure Spells (line : Nat) (text : String) (ty : TypeRef) : Prop where
  /-- It reads back as the text without the blanks around it. -/
  text_eq : ty.text.toList = trimBlank text.toList
  trims : Trims text.toList ty.text.toList
  /-- It has all array ranks that the text ends with. -/
  isGreatest_dimension : IsGreatest {k | ranks k <:+ trimBlank text.toList} ty.dimension
  path_ne_nil : ty.path ≠ []
  dot_notMem : ∀ segment ∈ ty.path, '.' ∉ segment.name.toList
  /-- There are as many names as dots before the ranks, and one more. -/
  length_path : ∀ base, base ++ ranks ty.dimension = trimBlank text.toList →
    ty.path.length = base.count '.' + 1
  /-- Each name covers the columns that it has in the text before the ranks, counted from column
  4. -/
  segmentAt : ∀ base, base ++ ranks ty.dimension = trimBlank text.toList →
    ∀ (i : Nat) (h : i < ty.path.length), ∃ start,
      Dotted.SegmentAt base i start ty.path[i].name.toList ∧
      ty.path[i].range = .onLine line (4 + start) ty.path[i].name.length
  /-- The whole covers all columns of the text before the ranks. -/
  range_eq : ∀ base, base ++ ranks ty.dimension = trimBlank text.toList →
    ty.range = .onLine line 4 base.length

lemma typeRefOn_eq {text : String} {base : List Char} {dimension : Nat}
    (h : cutRanks (trimBlank text.toList).reverse = (base.reverse, dimension)) (line : Nat) :
    typeRefOn line text
      = .ofPath (segments line 4 (Dotted.splitName (String.ofList base))) dimension := by
  simp only [typeRefOn, h, List.reverse_reverse, nameColumn]

/-- The type reference that is laid out for a text reads back as this text, trimmed, and covers it
part by part. -/
theorem typeRef_reads_back (text : String) (line : Nat) :
    Spells line text (typeRef text line).1 := by
  obtain ⟨base, dimension, hcut, htrimmed, hgreatest⟩ := exists_cutRanks (trimBlank text.toList)
  have hty : (typeRef text line).1 = _ := typeRefOn_eq hcut line
  generalize hnames : Dotted.splitName (String.ofList base) = names at hty
  have hsplit : names.map String.toList = Dotted.split base := by
    rw [← hnames, Dotted.map_toList_splitName, String.toList_ofList]
  have hjoin : Dotted.join (names.map String.toList) = base := by rw [hsplit, Dotted.join_split]
  have hlength : names.length = base.count '.' + 1 := by
    rw [← List.length_map String.toList, hsplit, Dotted.length_split]
  have hplain : ∀ name ∈ names, '.' ∉ name.toList := fun name hname =>
    Dotted.dot_notMem_of_mem_split (hsplit ▸ List.mem_map_of_mem hname)
  have htext : (TypeRef.ofPath (segments line 4 names) dimension).text.toList
      = trimBlank text.toList := by
    rw [toList_text, htrimmed, TypeRef.ofPath, map_name_segments, hjoin]
  -- What stands before the ranks is fixed by their number.
  have hbase (other : List Char) (h : other ++ ranks dimension = trimBlank text.toList) :
      other = base :=
    List.append_cancel_right (h.trans htrimmed)
  rw [hty]
  exact {
    text_eq := htext
    trims := htext ▸ trims_trimBlank text.toList
    isGreatest_dimension := hgreatest
    path_ne_nil := List.ne_nil_of_length_pos (by rw [TypeRef.ofPath, length_segments]; omega)
    dot_notMem := fun segment hsegment => hplain segment.name <| by
      rw [← map_name_segments line 4 names]
      exact List.mem_map_of_mem hsegment
    length_path := fun other h => by rw [hbase other h, TypeRef.ofPath, length_segments, hlength]
    segmentAt := fun other h i hi => by
      obtain ⟨start, hat, hrange⟩ := segmentAt_segments hplain (List.getElem?_eq_getElem hi)
      rw [hjoin] at hat
      exact ⟨start, hbase other h ▸ hat, hrange⟩
    range_eq := fun other h => by
      rw [hbase other h, TypeRef.ofPath,
        pathRange_segments (List.ne_nil_of_length_eq_add_one hlength), hjoin] }

end Sketch

end SymbolGraph
