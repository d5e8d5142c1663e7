import Mathlib.Data.Multiset.Basic
import SymbolGraph.Proofs.Renumbering.ReportOrder

/-!
# Namesakes

The duplicate pass collects valid records that share a name: those of each name group of a
namespace, and those of each name among the members of a top-level declaration.  What it reports on
such a group depends on little of each record, its `Namesake`, and is determined by
`Duplicates.GroupRule`: nothing, or an error on every record with all others, or an error on every
overload whose resolved parameter types are those of another one, with exactly these others.

The pass is the rule applied to all groups of a library (`Library.checkDuplicates_eq`), where no
group is left out and none is looked at twice.  Since the rule does not depend on the order of a
group, neither does the report, except for the order of its errors and of the places that they point
to.
-/

namespace SymbolGraph

/-- A valid record, as far as it matters to those that share its name. -/
structure Namesake where
  name : String
  range : Range
  document : String
  /-- Records of its category may share a name. -/
  overloadable : Bool
  /-- Its parameter types, if it has any and all of them resolved. -/
  signature? : Option Signature
deriving DecidableEq

/-- What a record shows to those that share its name. -/
def Entry.namesake (record : Entry) : Namesake where
  name := record.name
  range := record.nameRange
  document := record.document
  overloadable := record.category.isOverloadable
  signature? := (record.body.callable?.map Callable.signature).filter Signature.isResolved

namespace Namesake

/-- Where the name stands. -/
def location (one : Namesake) : Location := ⟨one.document, one.range⟩

/-- The other one has the same resolved parameter types. -/
def agrees (one other : Namesake) : Bool :=
  one.signature?.isSome && decide (other.signature? = one.signature?)

/-- The error on a record that must not share its name. -/
def duplicate (one : Namesake) (others : List Namesake) : String × Diagnostic :=
  (one.document,
    (Diagnostic.error one.range .duplicateName
      s!"`{one.name}` is declared more than once").relatedTo <|
      others.map fun other => ⟨other.location, "also declared here"⟩)

/-- The error on an overload whose parameter types are those of others. -/
def conflict (one : Namesake) (others : List Namesake) : String × Diagnostic :=
  (one.document,
    (Diagnostic.error one.range .invalidOverload
      s!"`{one.name}` has an overload with the same parameters").relatedTo <|
      others.map fun other => ⟨other.location, "conflicting overload"⟩)

/-- The error on a record with the name of a child namespace. -/
def clash (name full : String) (one : Namesake) : String × Diagnostic :=
  (one.document, .error one.range .duplicateName s!"`{name}` conflicts with namespace `{full}`")

end Namesake

namespace Duplicates

/-! ## One group -/

/-- The error on the overload at a position, if others have its parameter types. -/
def conflictAt? (group : List Namesake) (found : Namesake × Nat) : Option (String × Diagnostic) :=
  if 2 ≤ group.countP found.1.agrees then
    some (found.1.conflict ((group.eraseIdx found.2).filter found.1.agrees))
  else none

/-- The report on a group: each error stands for the record at one position. -/
def groupReport (group : List Namesake) : Report :=
  if group.length < 2 then []
  else if group.all Namesake.overloadable then group.zipIdx.filterMap (conflictAt? group)
  else group.zipIdx.map fun (one, i) => one.duplicate (group.eraseIdx i)

/-- The error on a record with resolved parameter types, by its position among all of these. -/
def clashAt? (signed : List (Entry × Signature)) :
    (Entry × Signature) × Nat → Option (String × Diagnostic)
  | ((record, signature), i) =>
    match others signed i fun (_, other) => other = signature with
    | [] => none
    | conflicts =>
      some (record.document,
        (Diagnostic.error record.nameRange .invalidOverload
          s!"`{record.name}` has an overload with the same parameters").relatedTo <|
        conflicts.map fun (other, _) => ⟨other.location, "conflicting overload"⟩)

lemma sameParameters_eq_filterMap (records : List Entry) :
    sameParameters records = (signed records).zipIdx.filterMap (clashAt? (signed records)) := rfl

lemma signed_eq (records : List Entry) : signed records
    = records.filterMap fun record => record.namesake.signature?.map fun signature =>
      (record, signature) := by
  refine List.filterMap_congr fun record _ => ?_
  unfold Entry.namesake
  cases record.body.callable? with
  | none => rfl
  | some callable => by_cases h : callable.signature.isResolved <;> simp [h]

/-- The records with given resolved parameter types. -/
lemma filter_signed (records : List Entry) (signature : Signature) :
    ((signed records).filter fun other => decide (other.2 = signature)).map
        (fun other => other.1.namesake)
      = (records.map Entry.namesake).filter fun other =>
        decide (other.signature? = some signature) := by
  rw [signed_eq]
  induction records with
  | nil => rfl
  | cons record rest ih =>
    rw [List.filterMap_cons, List.map_cons]
    cases hsignature : record.namesake.signature? with
    | none => rw [List.filter_cons_of_neg (by simp [hsignature]), ← ih, Option.map_none]
    | some own =>
      by_cases h : own = signature
      · rw [List.filter_cons_of_pos (by simp [hsignature, h]), ← ih, Option.map_some,
          List.filter_cons_of_pos (by simp [h]), List.map_cons]
      · rw [List.filter_cons_of_neg (by simp [hsignature, h]), ← ih, Option.map_some,
          List.filter_cons_of_neg (by simp [h])]

lemma agrees_of_signature {one : Namesake} {signature : Signature}
    (h : one.signature? = some signature) :
    one.agrees = fun other => decide (other.signature? = some signature) := by
  funext other
  simp [Namesake.agrees, h]

/-- The element behind a prefix, taken out. -/
lemma eraseIdx_append_cons {α : Type} (front rest : List α) (x : α) :
    (front ++ x :: rest).eraseIdx front.length = front ++ rest := by
  rw [List.eraseIdx_append_of_length_le (Nat.le_refl _), Nat.sub_self, List.eraseIdx_cons_zero]

lemma signed_append (front rest : List Entry) :
    signed (front ++ rest) = signed front ++ signed rest := by
  rw [signed_eq, signed_eq, signed_eq, List.filterMap_append]

/-- Taking out a record and looking for others like it goes by what the records show. -/
lemma clashAt?_eq {front rest : List Entry} {record : Entry} {signature : Signature}
    (h : record.namesake.signature? = some signature) :
    clashAt? (signed (front ++ record :: rest)) ((record, signature), (signed front).length)
      = conflictAt? ((front ++ record :: rest).map Entry.namesake)
        (record.namesake, front.length) := by
  -- `signed` drops the members without a signature, so positions differ between the two lists;
  -- around `record` both split into front and rest.
  have hsigned : signed (front ++ record :: rest)
      = signed front ++ (record, signature) :: signed rest := by
    have hrecord : signed [record] = [(record, signature)] := by rw [signed_eq]; simp [h]
    rw [signed_append, ← List.singleton_append, signed_append, hrecord, List.singleton_append]
  have hothers : others (signed (front ++ record :: rest)) (signed front).length
        (fun (_, other) => other = signature)
      = (signed (front ++ rest)).filter fun other => decide (other.2 = signature) := by
    rw [others_eq, hsigned, eraseIdx_append_cons, signed_append]
  have herase : ((front ++ record :: rest).map Entry.namesake).eraseIdx front.length
      = (front ++ rest).map Entry.namesake := by
    rw [List.map_append, List.map_cons, ← List.length_map Entry.namesake, eraseIdx_append_cons,
      List.map_append]
  have hself : record.namesake.agrees record.namesake = true := by simp [Namesake.agrees, h]
  have hcount : ((front ++ record :: rest).map Entry.namesake).countP record.namesake.agrees
      = (((front ++ rest).map Entry.namesake).filter record.namesake.agrees).length + 1 := by
    rw [List.map_append, List.map_cons, List.countP_append, List.countP_cons_of_pos hself,
      ← List.countP_eq_length_filter, List.map_append, List.countP_append, Nat.add_assoc]
  have hnamesakes := filter_signed (front ++ rest) signature
  rw [← agrees_of_signature h] at hnamesakes
  unfold clashAt? conflictAt?
  dsimp only
  rw [hothers, hcount, herase, ← hnamesakes]
  cases (signed (front ++ rest)).filter fun other => decide (other.2 = signature) with
  | nil => rfl
  | cons other conflicts =>
    rw [if_pos (by simp), Namesake.conflict, List.map_map]
    rfl

lemma sameParameters_eq (records : List Entry) : sameParameters records
    = (records.map Entry.namesake).zipIdx.filterMap (conflictAt? (records.map Entry.namesake)) := by
  rw [sameParameters_eq_filterMap]
  -- the records in front of the one at hand say which position it has among those with resolved
  -- types
  suffices hfrom : ∀ rest front, records = front ++ rest →
      ((signed rest).zipIdx (signed front).length).filterMap (clashAt? (signed records))
        = ((rest.map Entry.namesake).zipIdx front.length).filterMap
            (conflictAt? (records.map Entry.namesake)) from
    hfrom records [] rfl
  intro rest
  induction rest with
  | nil => exact fun _ _ => rfl
  | cons record rest ih =>
    intro front hsplit
    have hrest := ih (front ++ [record]) (by rw [hsplit, List.append_assoc, List.singleton_append])
    rw [signed_append, List.length_append, List.length_append, List.length_singleton] at hrest
    rw [← List.singleton_append, signed_append, List.singleton_append,
      List.map_cons, List.zipIdx_cons]
    cases hsignature : record.namesake.signature? with
    | none =>
      have hrecord : signed [record] = [] := by rw [signed_eq]; simp [hsignature]
      have hagrees : record.namesake.agrees = fun _ => false := by
        funext other
        simp [Namesake.agrees, hsignature]
      have hconflict : conflictAt? (records.map Entry.namesake)
          (record.namesake, front.length) = none := by
        simp [conflictAt?, hagrees]
      rw [hrecord] at hrest ⊢
      rw [List.filterMap_cons_none hconflict]
      exact hrest
    | some signature =>
      have hrecord : signed [record] = [(record, signature)] := by rw [signed_eq]; simp [hsignature]
      have hclash := @clashAt?_eq front rest record signature hsignature
      rw [← hsplit] at hclash
      rw [hrecord] at hrest ⊢
      rw [List.singleton_append, List.zipIdx_cons]
      cases hconflict : conflictAt? (records.map Entry.namesake)
        (record.namesake, front.length) with
      | none =>
        rw [List.filterMap_cons_none (hclash.trans hconflict), List.filterMap_cons_none hconflict]
        exact hrest
      | some found =>
        rw [List.filterMap_cons_some (hclash.trans hconflict), List.filterMap_cons_some hconflict]
        exact congrArg (found :: ·) hrest

lemma sharedName_eq (records : List Entry) : sharedName records
    = (records.map Entry.namesake).zipIdx.map fun (one, i) =>
        one.duplicate ((records.map Entry.namesake).eraseIdx i) := by
  rw [sharedName, List.zipIdx_map, List.map_map]
  refine List.map_congr_left fun found _ => ?_
  obtain ⟨record, i⟩ := found
  dsimp only [Function.comp_apply, Prod.map_apply, id]
  rw [others_eq, List.filter_true, Namesake.duplicate, List.eraseIdx_map, List.map_map]
  rfl

/-- What is reported on a group depends on what its records show. -/
lemma checkGroup_eq (records : List Entry) :
    checkGroup records = groupReport (records.map Entry.namesake) := by
  rw [checkGroup, groupReport, List.length_map, List.all_map, sameParameters_eq, sharedName_eq]
  rfl

/-! ## What the rule says -/

/-- What must be reported on the namesakes of one group. -/
structure GroupRule (group : List Namesake) (report : Report) : Prop where
  /-- Nothing is reported on groups of one, and on overloads that differ in their resolved types. -/
  silent_iff : report = [] ↔ group.length ≤ 1 ∨
    ((∀ one ∈ group, one.overloadable = true) ∧ (group.filterMap Namesake.signature?).Nodup)
  /-- If some record must not share its name, then each has one error, with all others. -/
  duplicates : 2 ≤ group.length → (∃ one ∈ group, one.overloadable = false) →
    report = group.zipIdx.map fun (one, i) => one.duplicate (group.eraseIdx i)
  /-- Otherwise each whose resolved types are those of another has one error, with all of these. -/
  conflicts : 2 ≤ group.length → (∀ one ∈ group, one.overloadable = true) →
    report = (group.zipIdx.filter fun (one, _) => decide (2 ≤ group.countP one.agrees)).map
      fun (one, i) => one.conflict ((group.eraseIdx i).filter one.agrees)
  /-- Where a resolved list of types is shared by some number of records, all but one of them are
  others. -/
  length_others : ∀ one i, (one, i) ∈ group.zipIdx → one.signature?.isSome = true →
    ((group.eraseIdx i).filter one.agrees).length + 1 = group.countP one.agrees

lemma length_others {group : List Namesake} {one : Namesake} {i : Nat} (h : (one, i) ∈ group.zipIdx)
    (hresolved : one.signature?.isSome = true) :
    ((group.eraseIdx i).filter one.agrees).length + 1 = group.countP one.agrees := by
  obtain ⟨hi, heq⟩ := List.mem_zipIdx' h
  have hself : one.agrees one = true := by simp [Namesake.agrees, hresolved]
  have hcount := (List.getElem_cons_eraseIdx_perm hi).countP_eq one.agrees
  rw [← heq, List.countP_cons_of_pos hself, List.countP_eq_length_filter] at hcount
  exact hcount

/-- Overloads are in order if no two of them agree. -/
lemma nodup_signatures_iff (group : List Namesake) :
    (group.filterMap Namesake.signature?).Nodup ↔ ∀ one ∈ group, group.countP one.agrees < 2 := by
  -- A signature occurs as often as there are members that agree with a bearer of it; a member
  -- without a signature agrees with none.
  have hcount {signature : Signature} : (group.filterMap Namesake.signature?).count signature
      = group.countP fun one => decide (one.signature? = some signature) := by
    rw [List.count, List.countP_filterMap]
    refine List.countP_congr fun one _ => ?_
    cases one.signature? <;> simp
  rw [List.nodup_iff_count_le_one]
  constructor
  · intro h one _
    cases hsignature : one.signature? with
    | none =>
      have hnone : one.agrees = fun _ => false := by
        funext other
        simp [Namesake.agrees, hsignature]
      simp [hnone]
    | some signature =>
      rw [agrees_of_signature hsignature, ← hcount]
      exact Nat.lt_succ_of_le (h signature)
  · intro h signature
    by_cases hmem : signature ∈ group.filterMap Namesake.signature?
    · obtain ⟨one, hone, hsignature⟩ := List.mem_filterMap.1 hmem
      have hlt := h one hone
      rw [agrees_of_signature hsignature, ← hcount] at hlt
      exact Nat.le_of_lt_succ hlt
    · rw [List.count_eq_zero.2 hmem]
      exact Nat.zero_le 1

lemma filterMap_conflictAt? (group : List Namesake) : group.zipIdx.filterMap (conflictAt? group)
    = (group.zipIdx.filter fun (one, _) => decide (2 ≤ group.countP one.agrees)).map
      fun (one, i) => one.conflict ((group.eraseIdx i).filter one.agrees) := by
  rw [← List.filterMap_eq_map, List.filterMap_filter]
  refine List.filterMap_congr fun found _ => ?_
  simp [conflictAt?]

lemma groupReport_overloads {group : List Namesake} (hlong : 2 ≤ group.length)
    (hover : ∀ one ∈ group, one.overloadable = true) : groupReport group
      = (group.zipIdx.filter fun (one, _) => decide (2 ≤ group.countP one.agrees)).map
        fun (one, i) => one.conflict ((group.eraseIdx i).filter one.agrees) := by
  rw [groupReport, if_neg (Nat.not_lt.2 hlong), if_pos (List.all_eq_true.2 hover),
    filterMap_conflictAt?]

lemma groupReport_duplicates {group : List Namesake} (hlong : 2 ≤ group.length)
    (hother : ∃ one ∈ group, one.overloadable = false) : groupReport group
      = group.zipIdx.map fun (one, i) => one.duplicate (group.eraseIdx i) := by
  have hall : ¬ group.all Namesake.overloadable = true := by
    obtain ⟨one, hone, hover⟩ := hother
    intro hall
    rw [List.all_eq_true.1 hall one hone] at hover
    cases hover
  rw [groupReport, if_neg (Nat.not_lt.2 hlong), if_neg hall]

lemma groupReport_eq_nil_iff (group : List Namesake) : groupReport group = [] ↔ group.length ≤ 1 ∨
    ((∀ one ∈ group, one.overloadable = true) ∧ (group.filterMap Namesake.signature?).Nodup) := by
  by_cases hlong : 2 ≤ group.length
  · have hnot : ¬ group.length ≤ 1 := by omega
    by_cases hover : ∀ one ∈ group, one.overloadable = true
    · rw [groupReport_overloads hlong hover, List.map_eq_nil_iff, List.filter_eq_nil_iff,
        nodup_signatures_iff, or_iff_right hnot, and_iff_right hover]
      constructor
      · intro h one hone
        obtain ⟨i, hi⟩ := List.mem_iff_getElem?.1 hone
        simpa using h (one, i) (List.mk_mem_zipIdx_iff_getElem?.2 hi)
      · rintro h ⟨one, i⟩ hmem
        simpa using h one (List.fst_mem_of_mem_zipIdx hmem)
    · have hother : ∃ one ∈ group, one.overloadable = false := by simpa using hover
      rw [groupReport_duplicates hlong hother, List.map_eq_nil_iff, List.zipIdx_eq_nil_iff]
      refine iff_of_false (fun hnil => ?_) (not_or.2 ⟨hnot, fun h => hover h.1⟩)
      rw [hnil] at hlong
      cases hlong
  · exact iff_of_true (if_pos (Nat.not_le.1 hlong)) (Or.inl (by omega))

/-- The report on a group keeps the rule. -/
lemma groupRule_groupReport (group : List Namesake) : GroupRule group (groupReport group) where
  silent_iff := groupReport_eq_nil_iff group
  duplicates := groupReport_duplicates
  conflicts := groupReport_overloads
  length_others _ _ := length_others

end Duplicates

/-! ## All groups of a library -/

/-- The names of the valid members of a declaration, each once. -/
def Entry.memberNames (entry : Entry) : List String :=
  addAllNew [] ((entry.body.allMembers.filter Symbol.valid).map Symbol.name)

/-- The valid members of a declaration that have a name. -/
def Entry.namesakes (entry : Entry) (name : String) : List Namesake :=
  ((entry.body.allMembers.filter Symbol.valid).filter fun member => member.name = name).map
    fun member => (Member.toEntry member).namesake

/-- The valid records that some identities mean. -/
def Library.namesakes (lib : Library) (ids : List DeclId) : List Namesake :=
  (Duplicates.validRecords lib ids).map Entry.namesake

/-- The name groups of all namespaces.  Each comes with its name and, where a child namespace has
that name too, with the full name of the child. -/
def Library.nameGroups (lib : Library) : List (String × Option String × List Namesake) :=
  lib.spaces.live.flatMap fun (_, space) => space.groups.map fun (name, ids) =>
    (name,
      if space.children.has name then some (qualify (lib.spaces.fullName space.id) name) else none,
      lib.namesakes ids)

/-- The groups of valid members of all top-level declarations, one for each name. -/
def Library.memberGroups (lib : Library) : List (List Namesake) :=
  lib.allEntries.flatMap fun entry => entry.memberNames.map entry.namesakes

namespace Duplicates

/-- The report on a name group: a clash on every record where a child namespace has the name, and
what the rule says. -/
def nameGroupReport : String × Option String × List Namesake → Report
  | (name, child?, group) =>
    (child?.toList.flatMap fun full => group.map (Namesake.clash name full)) ++ groupReport group

lemma keys_memberGroups (members : List Member) :
    (memberGroups members).keys = addAllNew [] (members.map Symbol.name) := by
  induction members using List.reverseRecOn with
  | nil => rfl
  | append_singleton rest member ih =>
    have hput : memberGroups (rest ++ [member]) = (memberGroups rest).put member.name
        ((((memberGroups rest).at? member.name).getD []) ++ [member]) := by
      rw [memberGroups, List.foldl_append, ← memberGroups]
      rfl
    rw [hput, Assoc.keys_put, ih, List.map_append, addAllNew, addAllNew, List.foldl_append]
    rfl

lemma at?_memberGroups (members : List Member) (name : String) :
    ((memberGroups members).at? name).getD [] = members.filter fun member =>
      member.name = name := by
  induction members using List.reverseRecOn with
  | nil => rfl
  | append_singleton rest member ih =>
    have hput : memberGroups (rest ++ [member]) = (memberGroups rest).put member.name
        ((((memberGroups rest).at? member.name).getD []) ++ [member]) := by
      rw [memberGroups, List.foldl_append, ← memberGroups]
      rfl
    rw [hput, Assoc.at?_put, List.filter_append]
    by_cases h : member.name = name
    · subst h
      rw [if_pos rfl, Option.getD_some, ih]
      simp
    · rw [if_neg h, ih]
      simp [h]

/-- Members are collected by their names, and no name is met twice. -/
lemma memberGroups_eq (members : List Member) : memberGroups members
    = (addAllNew [] (members.map Symbol.name)).map fun name =>
        (name, members.filter fun member => member.name = name) := by
  have hnodup : (memberGroups members).keys.Nodup := by
    rw [keys_memberGroups]
    exact nodup_addAllNew List.nodup_nil _
  rw [← keys_memberGroups, Assoc.keys, List.map_map]
  refine (List.map_id _).symm.trans (List.map_congr_left fun entry hentry => ?_)
  obtain ⟨name, group⟩ := entry
  rw [Function.comp_apply, ← at?_memberGroups, Assoc.at?_of_mem hnodup hentry]
  rfl

lemma checkMembers_eq (entry : Entry) :
    checkMembers entry = (entry.memberNames.map entry.namesakes).flatMap groupReport := by
  rw [checkMembers, memberGroups_eq, List.flatMap_map, List.flatMap_map]
  refine List.flatMap_congr fun name _ => ?_
  dsimp only
  rw [checkGroup_eq, List.map_map]
  rfl

lemma checkSpace_eq_nameGroups (lib : Library) (space : Namespace) : checkSpace lib space
    = (space.groups.map fun (name, ids) => (name,
        (if space.children.has name then some (Library.qualify (lib.spaces.fullName space.id) name)
          else none),
        lib.namesakes ids)).flatMap nameGroupReport := by
  rw [checkSpace, List.flatMap_map]
  refine List.flatMap_congr fun group _ => ?_
  obtain ⟨name, ids⟩ := group
  dsimp only [nameGroupReport]
  rw [checkGroup_eq, ← Library.namesakes]
  refine congrArg (· ++ _) ?_
  split
  · rw [Option.toList_some, List.flatMap_singleton, Library.namesakes, List.map_map, namespaceClash]
    rfl
  · rfl

end Duplicates

open Duplicates

/-- The pass goes through the name groups of all namespaces, and then through the member groups of
all declarations. -/
theorem Library.checkDuplicates_eq (lib : Library) : lib.checkDuplicates
    = lib.nameGroups.flatMap nameGroupReport ++ lib.memberGroups.flatMap groupReport := by
  rw [checkDuplicates, nameGroups, memberGroups, List.flatMap_assoc, List.flatMap_assoc]
  exact congrArg₂ _ (List.flatMap_congr fun found _ => checkSpace_eq_nameGroups lib found.2)
    (List.flatMap_congr fun entry _ => checkMembers_eq entry)

/-! ## Groups in another order -/

/-- A found error without the order of the places that it points to. -/
def unordered (found : String × Diagnostic) : String × Diagnostic × Multiset Related :=
  (found.1, { found.2 with related := [] }, found.2.related)

/-- Two libraries with the same groups of namesakes, where groups may be listed in another order,
and so may the records of a group. -/
structure Library.Regrouped (lib lib' : Library) : Prop where
  names : (lib.nameGroups.map fun (name, child?, group) =>
    (name, child?, (group : Multiset Namesake))).Perm
    (lib'.nameGroups.map fun (name, child?, group) => (name, child?, (group : Multiset Namesake)))
  members : (lib.memberGroups.map Multiset.ofList).Perm (lib'.memberGroups.map Multiset.ofList)

namespace Duplicates

variable {group group' : List Namesake}

lemma unordered_duplicate (one : Namesake) {others others' : List Namesake}
    (h : others.Perm others') :
    unordered (one.duplicate others) = unordered (one.duplicate others') := by
  have hrelated := Multiset.coe_eq_coe.2 (h.map fun other : Namesake =>
    Related.mk other.location "also declared here")
  simpa [unordered, Namesake.duplicate, Diagnostic.relatedTo, Diagnostic.error] using hrelated

lemma unordered_conflict (one : Namesake) {others others' : List Namesake}
    (h : others.Perm others') :
    unordered (one.conflict others) = unordered (one.conflict others') := by
  have hrelated := Multiset.coe_eq_coe.2 (h.map fun other : Namesake =>
    Related.mk other.location "conflicting overload")
  simpa [unordered, Namesake.conflict, Diagnostic.relatedTo, Diagnostic.error] using hrelated

/-- Taking out the element at a position, up to order. -/
lemma eraseIdx_perm_erase {one : Namesake} {i : Nat} (h : (one, i) ∈ group.zipIdx) :
    (group.eraseIdx i).Perm (group.erase one) := by
  obtain ⟨hi, heq⟩ := List.mem_zipIdx' h
  refine (List.perm_cons one).1 ?_
  rw [heq]
  exact (List.getElem_cons_eraseIdx_perm hi).trans (List.perm_cons_erase (List.getElem_mem hi))

/-- The errors on a group as errors on its records, whatever the positions. -/
lemma unordered_duplicates (group : List Namesake) :
    (group.zipIdx.map fun (one, i) => one.duplicate (group.eraseIdx i)).map unordered
      = group.map fun one => unordered (one.duplicate (group.erase one)) := by
  conv_rhs => rw [← List.zipIdx_map_fst 0 group, List.map_map]
  rw [List.map_map]
  refine List.map_congr_left fun found hfound => ?_
  rw [List.zipIdx_map_fst]
  exact unordered_duplicate found.1 (eraseIdx_perm_erase hfound)

lemma unordered_conflicts (group : List Namesake) :
    ((group.zipIdx.filter fun (one, _) => decide (2 ≤ group.countP one.agrees)).map
      fun (one, i) => one.conflict ((group.eraseIdx i).filter one.agrees)).map unordered
      = (group.filter fun one => decide (2 ≤ group.countP one.agrees)).map fun one =>
        unordered (one.conflict ((group.erase one).filter one.agrees)) := by
  have hfst : group.filter (fun one => decide (2 ≤ group.countP one.agrees))
      = (group.zipIdx.filter fun (one, _) =>
        decide (2 ≤ group.countP one.agrees)).map Prod.fst := by
    conv_lhs => rw [← List.zipIdx_map_fst 0 group, List.filter_map]
    rw [List.zipIdx_map_fst]
    rfl
  rw [hfst, List.map_map, List.map_map]
  refine List.map_congr_left fun found hfound => ?_
  exact unordered_conflict found.1 ((eraseIdx_perm_erase (List.mem_of_mem_filter hfound)).filter _)

/-- The order of a group does not matter for what is reported on it. -/
lemma perm_groupReport (h : group.Perm group') :
    ((groupReport group).map unordered).Perm ((groupReport group').map unordered) := by
  -- The three forms of a report: none for a short group, signature clashes among overloads, every
  -- member otherwise. Which one applies does not depend on the order.
  by_cases hlong : 2 ≤ group.length
  · by_cases hover : ∀ one ∈ group, one.overloadable = true
    · have hover' : ∀ one ∈ group', one.overloadable = true := fun one hone =>
        hover one (h.mem_iff.2 hone)
      rw [groupReport_overloads hlong hover, groupReport_overloads (h.length_eq ▸ hlong) hover',
        unordered_conflicts, unordered_conflicts]
      have hsame : (fun one : Namesake => unordered
        (one.conflict ((group.erase one).filter one.agrees)))
          = fun one => unordered (one.conflict ((group'.erase one).filter one.agrees)) :=
        funext fun one => unordered_conflict one ((h.erase one).filter _)
      simp only [hsame, fun p => h.countP_eq p]
      exact (h.filter _).map _
    · have hother : ∃ one ∈ group, one.overloadable = false := by simpa using hover
      have hother' : ∃ one ∈ group', one.overloadable = false := by
        obtain ⟨one, hone, heq⟩ := hother
        exact ⟨one, h.mem_iff.1 hone, heq⟩
      rw [groupReport_duplicates hlong hother, groupReport_duplicates (h.length_eq ▸ hlong) hother',
        unordered_duplicates, unordered_duplicates]
      have hsame : (fun one : Namesake => unordered (one.duplicate (group.erase one)))
          = fun one => unordered (one.duplicate (group'.erase one)) :=
        funext fun one => unordered_duplicate one (h.erase one)
      rw [hsame]
      exact h.map _
  · have hshort' : ¬ 2 ≤ group'.length := h.length_eq ▸ hlong
    rw [groupReport, if_pos (Nat.not_le.1 hlong), groupReport, if_pos (Nat.not_le.1 hshort')]

lemma perm_nameGroupReport (name : String) (child? : Option String) (h : group.Perm group') :
    ((nameGroupReport (name, child?, group)).map unordered).Perm
      ((nameGroupReport (name, child?, group')).map unordered) := by
  simp only [nameGroupReport, List.map_append]
  exact List.Perm.append ((List.Perm.flatMap_left _ fun full _ => h.map _).map _)
    (perm_groupReport h)

/-- What is collected from groups, where the order of each does not matter, is collected from the
same groups in another order. -/
lemma perm_flatMap_of_perm_map {α β γ : Type} {f : α → List β} (key : α → γ) (back : γ → α)
    (hback : ∀ x, (f x).Perm (f (back (key x)))) {xs ys : List α}
    (h : (xs.map key).Perm (ys.map key)) :
    (xs.flatMap f).Perm (ys.flatMap f) := by
  have hread (zs : List α) : (zs.flatMap f).Perm ((zs.map key).flatMap fun k => f (back k)) := by
    rw [List.flatMap_map]
    exact List.Perm.flatMap_left _ fun z _ => hback z
  exact ((hread xs).trans (h.flatMap_right _)).trans (hread ys).symm

end Duplicates

/-- What the pass reports does not depend on the order of groups. -/
lemma Library.Regrouped.perm_checkDuplicates {lib lib' : Library} (h : lib.Regrouped lib') :
    (lib.checkDuplicates.map unordered).Perm (lib'.checkDuplicates.map unordered) := by
  rw [checkDuplicates_eq, checkDuplicates_eq, List.map_append, List.map_append, List.map_flatMap,
    List.map_flatMap, List.map_flatMap, List.map_flatMap]
  refine List.Perm.append ?_ ?_
  · refine perm_flatMap_of_perm_map _ (fun (name, child?, group) => (name, child?, group.toList))
      (fun named => ?_) h.names
    obtain ⟨name, child?, group⟩ := named
    exact perm_nameGroupReport name child? (Multiset.coe_eq_coe.1 (Multiset.coe_toList _)).symm
  · exact perm_flatMap_of_perm_map _ Multiset.toList
      (fun group => perm_groupReport (Multiset.coe_eq_coe.1 (Multiset.coe_toList _)).symm) h.members

/-! ## Shuffled groups -/

/-- The same namespace, where the declarations of each name may be listed in another order. -/
structure Namespace.Shuffled (space space' : Namespace) : Prop where
  id : space'.id = space.id
  parent : space'.parent = space.parent
  name : space'.name = space.name
  children : space'.children = space.children
  groups : List.Forall₂ (fun group group' => group'.1 = group.1 ∧ group.2.Perm group'.2)
    space.groups space'.groups

/-- The same namespaces, where the declarations of each name may be listed in another order. -/
def Arena.Shuffled (arena arena' : Arena) : Prop :=
  List.Forall₂ (Option.Rel Namespace.Shuffled) arena.slots arena'.slots

namespace Arena.Shuffled

variable {arena arena' : Arena} (h : arena.Shuffled arena')

include h

lemma live : List.Forall₂ (fun found found' => found'.1 = found.1 ∧ found.2.Shuffled found'.2)
    arena.live arena'.live := by
  refine List.rel_filterMap ?_ (forall₂_zipIdx h 0)
  rintro ⟨slot, id⟩ ⟨slot', id'⟩ ⟨hslot, rfl⟩
  dsimp only at hslot ⊢
  cases hslot with
  | none => exact .none
  | some hspace => exact .some ⟨rfl, hspace⟩

lemma get? (id : SpaceId) : Option.Rel Namespace.Shuffled (arena.get? id) (arena'.get? id) := by
  rw [Arena.get?, Arena.get?]
  by_cases hid : id < arena.slots.length
  · have hid' : id < arena'.slots.length := List.Forall₂.length_eq h ▸ hid
    rw [List.getElem?_eq_getElem hid, List.getElem?_eq_getElem hid']
    exact List.Forall₂.get h hid hid'
  · have hid' : ¬ id < arena'.slots.length := List.Forall₂.length_eq h ▸ hid
    rw [List.getElem?_eq_none (Nat.not_lt.1 hid), List.getElem?_eq_none (Nat.not_lt.1 hid')]
    exact .none

lemma fullName (id : SpaceId) : arena'.fullName id = arena.fullName id := by
  have hparents : arena'.parents = arena.parents := by
    funext id
    rw [parents, parents]
    obtain ⟨hnone, hnone'⟩ | ⟨space, space', hspace, hspace', hshuffled⟩ := rel_cases (h.get? id)
    · rw [hnone, hnone']
    · rw [hspace, hspace', Option.bind_some, Option.bind_some, hshuffled.parent]
  have hlive : arena'.live.map Prod.fst = arena.live.map Prod.fst :=
    map_eq_of_forall₂ h.live fun _ _ hspace => hspace.1
  have hread {α : Type} (f : Namespace → α) (id : SpaceId)
      (hf : ∀ space space' : Namespace, space.Shuffled space' → f space' = f space) :
      (arena'.get? id).map f = (arena.get? id).map f := by
    obtain ⟨hnone, hnone'⟩ | ⟨space, space', hspace, hspace', hshuffled⟩ := rel_cases (h.get? id)
    · rw [hnone, hnone']
    · rw [hspace, hspace', Option.map_some, Option.map_some, hf space space' hshuffled]
  have hname (id : SpaceId) := hread Namespace.name id fun _ _ hshuffled => hshuffled.name
  have hid (id : SpaceId) := hread Namespace.id id fun _ _ hshuffled => hshuffled.id
  simp only [Arena.fullName, ancestors, chain, hparents, hlive, hname, hid]

end Arena.Shuffled

/-- Shuffling the groups of namespaces leaves the same groups, up to their order. -/
lemma Library.regrouped_shuffled {lib : Library} {spaces : Arena} (h : lib.spaces.Shuffled spaces) :
    lib.Regrouped { lib with spaces } := by
  refine ⟨.of_eq ?_, .refl _⟩
  rw [nameGroups, nameGroups, List.map_flatMap, List.map_flatMap,
    List.flatMap_def, List.flatMap_def]
  refine congrArg List.flatten (map_eq_of_forall₂ h.live fun found found' hfound => ?_).symm
  obtain ⟨id, space⟩ := found
  obtain ⟨id', space'⟩ := found'
  obtain ⟨rfl, hspace⟩ := hfound
  dsimp only
  rw [List.map_map, List.map_map]
  refine map_eq_of_forall₂ hspace.groups fun group group' hgroup => ?_
  obtain ⟨name, ids⟩ := group
  obtain ⟨name', ids'⟩ := group'
  obtain ⟨rfl, hids⟩ := hgroup
  have hrecords : (({ lib with spaces } : Library).namesakes ids' : Multiset Namesake)
      = lib.namesakes ids :=
    Multiset.coe_eq_coe.2 (((hids.symm.filterMap lib.find?).filter _).map _)
  have hid : space'.id = space.id := hspace.id
  have hchildren : space'.children = space.children := hspace.children
  simp only [Function.comp_apply, hid, hchildren, h.fullName, hrecords]

/-! ## The pass is exact -/

/-- The pass reports on every name group of a namespace and every member group of a declaration what
the rule says, and a clash on every valid record with the name of a child namespace; each valid
member is in the group of its name.  Where groups are permuted, the same is reported, up to the
order of the errors and of the places that each of them points to. -/
theorem Library.checkDuplicates_exact (lib : Library) :
    lib.checkDuplicates = lib.nameGroups.flatMap nameGroupReport ++
    lib.memberGroups.flatMap groupReport ∧
      (∀ group, GroupRule group (groupReport group)) ∧
      (∀ entry : Entry, entry.memberNames.Nodup ∧
        ∀ member ∈ entry.body.allMembers, member.valid = true → member.name ∈ entry.memberNames) ∧
      ∀ lib', lib.Regrouped lib' →
        (lib.checkDuplicates.map unordered).Perm (lib'.checkDuplicates.map unordered) := by
  refine ⟨lib.checkDuplicates_eq, groupRule_groupReport,
    fun entry => ⟨?_, fun member hmember hvalid => ?_⟩, fun lib' h => h.perm_checkDuplicates⟩
  · exact nodup_addAllNew List.nodup_nil _
  · rw [Entry.memberNames, mem_addAllNew]
    exact Or.inr (List.mem_map_of_mem (List.mem_filter.2 ⟨hmember, hvalid⟩))

/-- A function without parameters, named `dup`. -/
def homonym (index : Nat) : Entry :=
  .new ⟨"dup", ⟨⟨index, 9⟩, ⟨index, 12⟩⟩⟩ "dup.rk" Arena.root
    ⟨.project, .function, index, none⟩ .pub

/-- A library with two functions named `dup`, and the order in which they are listed. -/
def homonyms (first second : Nat) : Library where
  id := .project
  name := "demo"
  spaces := ⟨[some ⟨Arena.root, none, "demo", [],
    [("dup", [⟨.project, .function, first, none⟩, ⟨.project, .function, second, none⟩])],
    [], []⟩], []⟩
  tables := [(.function, [some (homonym 0), some (homonym 1)])]

/-- Both functions are reported, whatever the order. -/
theorem checkDuplicates_exact_homonyms :
    (homonyms 0 1).Regrouped (homonyms 1 0) ∧ (homonyms 0 1).checkDuplicates.length = 2 ∧
      ((homonyms 0 1).checkDuplicates.map unordered).Perm
      ((homonyms 1 0).checkDuplicates.map unordered) := by
  have hshuffled : (homonyms 0 1).spaces.Shuffled (homonyms 1 0).spaces :=
    .cons (.some ⟨rfl, rfl, rfl, rfl, .cons ⟨rfl, .swap ..⟩ .nil⟩) .nil
  have hregrouped := Library.regrouped_shuffled hshuffled
  obtain ⟨-, -, -, hperm⟩ := (homonyms 0 1).checkDuplicates_exact
  exact ⟨hregrouped, rfl, hperm _ hregrouped⟩

end SymbolGraph
