import Mathlib.Data.List.Basic
import SymbolGraph.Interchange.Settings
import SymbolGraph.Interchange.Trees

/-!
# Round trips of written forms

A value whose numbers are small enough to be written (`Fits`) is read back from its written form,
and whatever is read from a datum fits (`RoundTrips`).  So a datum that is accepted for a type is
brought into a fixed form by reading and writing it once.

The proof follows the types: a record reads back as soon as each of its fields does, whether the
field is required, optional or defaulted.  Optional parts need one fact more, that nothing present
is written as null (`Present`).  The two nested trees, blocks and outline items, are read by
recursion on the datum and written by recursion on the tree.
-/

namespace SymbolGraph

/-! ## Values that fit -/

/-- A type some of whose values are too large for the written form. -/
class Bounded (α : Type) where
  /-- All numbers of a value are in the range of their written form. -/
  Fits : α → Prop

export Bounded (Fits)

/-- The values that fit are those that are read back from what is written, and nothing else is
ever read. -/
class RoundTrips (α : Type) [Interchange α] [Bounded α] : Prop where
  decode?_encode : ∀ {x : α}, Fits x → decode? (encode x) = some x
  fits : ∀ {datum : Datum} {x : α}, decode? datum = some x → Fits x

export RoundTrips (decode?_encode)

/-- A type none of whose values is written as null. -/
class Present (α : Type) [Interchange α] : Prop where
  encode_ne_null : ∀ x : α, encode x ≠ .null

instance : Bounded Nat := ⟨fun n => n < indexBound⟩

instance : Bounded Bool := ⟨fun _ => True⟩

instance : Bounded String := ⟨fun _ => True⟩

instance {α : Type} [Bounded α] : Bounded (List α) := ⟨fun xs => ∀ x ∈ xs, Fits x⟩

instance {α : Type} [Bounded α] : Bounded (Option α) := ⟨fun o => ∀ x ∈ o, Fits x⟩

lemma fits_nat_iff {n : Nat} : Fits n ↔ n < indexBound := Iff.rfl

@[simp] lemma fits_bool (b : Bool) : Fits b := trivial

@[simp] lemma fits_string (s : String) : Fits s := trivial

@[simp] lemma fits_nil {α : Type} [Bounded α] : Fits ([] : List α) := by simp [Fits]

@[simp] lemma fits_cons {α : Type} [Bounded α] {x : α} {xs : List α} :
    Fits (x :: xs) ↔ Fits x ∧ Fits xs := by simp [Fits]

@[simp] lemma fits_none {α : Type} [Bounded α] : Fits (none : Option α) := by simp [Fits]

@[simp] lemma fits_some {α : Type} [Bounded α] {x : α} : Fits (some x) ↔ Fits x := by
  simp [Fits]

/-! ## Basic types -/

instance : RoundTrips Nat where
  decode?_encode := decode?_encode_nat
  fits {datum n} h := by
    cases datum with
    | int k =>
      simp only [decode?] at h
      split at h
      · cases h
        rw [fits_nat_iff]
        omega
      · cases h
    | _ => simp [decode?] at h

instance : RoundTrips Bool where
  decode?_encode _ := rfl
  fits _ := trivial

instance : RoundTrips String where
  decode?_encode _ := rfl
  fits _ := trivial

instance : Present Nat := ⟨fun _ => by simp [encode]⟩

instance : Present String := ⟨fun _ => by simp [encode]⟩

/-- What a list is read into comes from its items. -/
lemma exists_of_mem_mapM {α β : Type} {f : α → Option β} {xs : List α} {ys : List β}
    (h : xs.mapM f = some ys) {y : β} (hy : y ∈ ys) : ∃ x ∈ xs, f x = some y := by
  induction xs generalizing ys with
  | nil =>
    cases h
    cases hy
  | cons x xs ih =>
    simp only [List.mapM_cons, Option.bind_eq_bind, Option.bind_eq_some_iff, Option.pure_def,
      Option.some.injEq] at h
    obtain ⟨z, hz, zs, hzs, rfl⟩ := h
    obtain rfl | hy := List.mem_cons.1 hy
    · exact ⟨x, List.mem_cons_self, hz⟩
    · obtain ⟨x', hx', hy'⟩ := ih hzs hy
      exact ⟨x', List.mem_cons_of_mem _ hx', hy'⟩

section

variable {α : Type} [Interchange α] [Bounded α] [RoundTrips α]

lemma mapM_decode?_map_encode {xs : List α} (h : Fits xs) :
    (xs.map encode).mapM (decode? (α := α)) = some xs := by
  induction xs with
  | nil => rfl
  | cons x xs ih =>
    rw [fits_cons] at h
    simp [decode?_encode h.1, ih h.2]

instance : RoundTrips (List α) where
  decode?_encode h := mapM_decode?_map_encode h
  fits {datum xs} h := by
    cases datum with
    | list items =>
      intro x hx
      obtain ⟨item, -, hitem⟩ := exists_of_mem_mapM h hx
      exact RoundTrips.fits hitem
    | _ => simp [decode?] at h

omit [Bounded α] [RoundTrips α] in
lemma decode?_option {datum : Datum} (h : datum ≠ .null) :
    decode? datum = (decode? datum).map (some : α → Option α) := by
  cases datum <;> first | rfl | exact absurd rfl h

instance [Present α] : RoundTrips (Option α) where
  decode?_encode {o} h := by
    cases o with
    | none => rfl
    | some x =>
      calc (decode? (encode (some x)) : Option (Option α))
        _ = (decode? (encode x)).map some := decode?_option (Present.encode_ne_null x)
        _ = some (some x) := by rw [decode?_encode (fits_some.1 h), Option.map_some]
  fits {datum o} h := by
    by_cases hd : datum = .null
    · subst hd
      cases h
      exact fits_none
    · rw [decode?_option hd, Option.map_eq_some_iff] at h
      obtain ⟨x, hx, rfl⟩ := h
      exact fits_some.2 (RoundTrips.fits hx)

end

/-! ## Records -/

namespace FieldReader

variable {α : Type} [Interchange α] [Bounded α] [RoundTrips α] {reader : FieldReader}
  {name : String} {x value : α} {o : Option α}

lemma required_eq (h : reader.fields.at? name = some (encode x)) (hx : Fits x) :
    reader.required name = some x := by
  rw [required, h, Option.bind_some, decode?_encode hx]

lemma defaulted_eq (h : reader.fields.at? name = some (encode x)) (hx : Fits x) :
    reader.defaulted name value = some x := by
  simp only [defaulted, h, decode?_encode hx]

lemma optional_eq [Present α] (h : reader.fields.at? name = some (encode o)) (ho : Fits o) :
    reader.optional name = some o := by
  cases o with
  | none => simp [optional, h, encode]
  | some x =>
    have hx : reader.fields.at? name = some (encode x) := h
    have hnull := Present.encode_ne_null x
    rw [fits_some] at ho
    simp only [optional, hx, decode?_encode ho, Option.map_some]

lemma fits_required (h : reader.required name = some x) : Fits x := by
  obtain ⟨datum, -, hx⟩ := Option.bind_eq_some_iff.1 h
  exact RoundTrips.fits hx

lemma fits_defaulted (h : reader.defaulted name value = some x) (hvalue : Fits value) :
    Fits x := by
  unfold defaulted at h
  split at h
  · exact RoundTrips.fits h
  · cases h
    exact hvalue

lemma fits_optional (h : reader.optional name = some o) : Fits o := by
  unfold optional at h
  split at h
  · cases h
    exact fits_none
  · obtain ⟨x, hx, rfl⟩ := Option.map_eq_some_iff.1 h
    exact fits_some.2 (RoundTrips.fits hx)
  · split at h
    · cases h
      exact fits_none
    · cases h

end FieldReader

open FieldReader

/-! ## Choices without content -/

instance : Bounded Category := ⟨fun _ => True⟩

instance : RoundTrips Category where
  decode?_encode _ := Category.ofName?_name _
  fits _ := trivial

instance : Bounded TypeCode := ⟨fun _ => True⟩

instance : RoundTrips TypeCode where
  decode?_encode _ := TypeCode.ofName?_name _
  fits _ := trivial

instance : Bounded Visibility := ⟨fun _ => True⟩

instance : RoundTrips Visibility where
  decode?_encode _ := Visibility.ofName?_name _
  fits _ := trivial

instance : Bounded Severity := ⟨fun _ => True⟩

instance : RoundTrips Severity where
  decode?_encode _ := Severity.ofName?_name _
  fits _ := trivial

instance : Bounded DiagnosticCode := ⟨fun _ => True⟩

instance : RoundTrips DiagnosticCode where
  decode?_encode _ := DiagnosticCode.ofName?_name _
  fits _ := trivial

instance : Bounded OutlineKind := ⟨fun _ => True⟩

instance : RoundTrips OutlineKind where
  decode?_encode _ := OutlineKind.ofName?_name _
  fits _ := trivial

instance : Present Visibility := ⟨fun _ => by simp [encode]⟩

/-! ## Identities, types and places -/

instance : Bounded LibraryId := ⟨fun id => -0x80000000 ≤ id.number ∧ id.number < 0x80000000⟩

instance : RoundTrips LibraryId where
  decode?_encode {id} h := if_pos h
  fits {datum id} h := by
    cases datum with
    | int n =>
      simp only [decode?] at h
      split at h
      · cases h
        assumption
      · cases h
    | _ => simp [decode?] at h

instance : Bounded DeclId :=
  ⟨fun id => Fits id.library ∧ Fits id.category ∧ Fits id.index ∧ Fits id.define⟩

/-- A top-level identity is written without the owner's index, and none is then assumed. -/
instance : RoundTrips DeclId where
  decode?_encode {id} h := by
    obtain ⟨library, category, index, define⟩ := id
    obtain ⟨h1, h2, h3, h4⟩ := h
    simp only [decode?, Option.bind_eq_bind, Option.bind_eq_some_iff]
    refine ⟨_, rfl, _, required_eq (by simp) h1, _, required_eq (by simp) h2,
      _, required_eq (by simp) h3, define, ?_, rfl⟩
    cases define with
    | none => simp [defaulted]
    | some owner => exact defaulted_eq (by simp [encode]) h4
  fits {datum id} h := by
    simp only [decode?, Option.bind_eq_bind, Option.bind_eq_some_iff, Option.pure_def,
      Option.some.injEq] at h
    obtain ⟨r, -, _, h1, _, h2, _, h3, _, h4, rfl⟩ := h
    exact ⟨fits_required h1, fits_required h2, fits_required h3, fits_defaulted h4 fits_none⟩

instance : Bounded MarkedId := ⟨fun marked => Fits marked.id⟩

instance : Bounded Ty where
  Fits ty :=
    Fits ty.library ∧ Fits ty.code ∧ Fits ty.index ∧ Fits ty.dimension

instance : RoundTrips Ty where
  decode?_encode {ty} h := by
    obtain ⟨h1, h2, h3, h4⟩ := h
    simp only [decode?, Option.bind_eq_bind, Option.bind_eq_some_iff]
    exact ⟨_, rfl, _, required_eq (by simp) h1, _, required_eq (by simp) h2,
      _, required_eq (by simp) h3, _, required_eq (by simp) h4, rfl⟩
  fits {datum ty} h := by
    simp only [decode?, Option.bind_eq_bind, Option.bind_eq_some_iff, Option.pure_def,
      Option.some.injEq] at h
    obtain ⟨r, -, _, h1, _, h2, _, h3, _, h4, rfl⟩ := h
    exact ⟨fits_required h1, fits_required h2, fits_required h3, fits_required h4⟩

instance : Bounded SpaceRef := ⟨fun space => Fits space.library ∧ Fits space.space⟩

instance : RoundTrips SpaceRef where
  decode?_encode {space} h := by
    obtain ⟨h1, h2⟩ := h
    simp only [decode?, Option.bind_eq_bind, Option.bind_eq_some_iff]
    exact ⟨_, rfl, _, required_eq (by simp) h1, _, required_eq (by simp) h2, rfl⟩
  fits {datum space} h := by
    simp only [decode?, Option.bind_eq_bind, Option.bind_eq_some_iff, Option.pure_def,
      Option.some.injEq] at h
    obtain ⟨r, -, _, h1, _, h2, rfl⟩ := h
    exact ⟨fits_required h1, fits_required h2⟩

instance : Bounded Position := ⟨fun p => Fits p.line ∧ Fits p.character⟩

instance : RoundTrips Position where
  decode?_encode {p} h := by
    obtain ⟨h1, h2⟩ := h
    simp only [decode?, Option.bind_eq_bind, Option.bind_eq_some_iff]
    exact ⟨_, rfl, _, required_eq (by simp) h1, _, required_eq (by simp) h2, rfl⟩
  fits {datum p} h := by
    simp only [decode?, Option.bind_eq_bind, Option.bind_eq_some_iff, Option.pure_def,
      Option.some.injEq] at h
    obtain ⟨r, -, _, h1, _, h2, rfl⟩ := h
    exact ⟨fits_required h1, fits_required h2⟩

instance : Bounded Range := ⟨fun range => Fits range.start ∧ Fits range.stop⟩

instance : RoundTrips Range where
  decode?_encode {range} h := by
    obtain ⟨h1, h2⟩ := h
    simp only [decode?, Option.bind_eq_bind, Option.bind_eq_some_iff]
    exact ⟨_, rfl, _, required_eq (by simp) h1, _, required_eq (by simp) h2, rfl⟩
  fits {datum range} h := by
    simp only [decode?, Option.bind_eq_bind, Option.bind_eq_some_iff, Option.pure_def,
      Option.some.injEq] at h
    obtain ⟨r, -, _, h1, _, h2, rfl⟩ := h
    exact ⟨fits_required h1, fits_required h2⟩

instance : Bounded Location := ⟨fun location => Fits location.document ∧ Fits location.range⟩

instance : RoundTrips Location where
  decode?_encode {location} h := by
    obtain ⟨h1, h2⟩ := h
    simp only [decode?, Option.bind_eq_bind, Option.bind_eq_some_iff]
    exact ⟨_, rfl, _, required_eq (by simp) h1, _, required_eq (by simp) h2, rfl⟩
  fits {datum location} h := by
    simp only [decode?, Option.bind_eq_bind, Option.bind_eq_some_iff, Option.pure_def,
      Option.some.injEq] at h
    obtain ⟨r, -, _, h1, _, h2, rfl⟩ := h
    exact ⟨fits_required h1, fits_required h2⟩

instance : Bounded Ident := ⟨fun ident => Fits ident.name ∧ Fits ident.range⟩

instance : RoundTrips Ident where
  decode?_encode {ident} h := by
    obtain ⟨h1, h2⟩ := h
    simp only [decode?, Option.bind_eq_bind, Option.bind_eq_some_iff]
    exact ⟨_, rfl, _, required_eq (by simp) h1, _, required_eq (by simp) h2, rfl⟩
  fits {datum ident} h := by
    simp only [decode?, Option.bind_eq_bind, Option.bind_eq_some_iff, Option.pure_def,
      Option.some.injEq] at h
    obtain ⟨r, -, _, h1, _, h2, rfl⟩ := h
    exact ⟨fits_required h1, fits_required h2⟩

instance : Present Ident := ⟨fun _ => by simp [encode]⟩

/-! ## Diagnostics, hovers and outlines -/

instance : Bounded Related := ⟨fun related => Fits related.location ∧ Fits related.message⟩

instance : RoundTrips Related where
  decode?_encode {related} h := by
    obtain ⟨h1, h2⟩ := h
    simp only [decode?, Option.bind_eq_bind, Option.bind_eq_some_iff]
    exact ⟨_, rfl, _, required_eq (by simp) h1, _, required_eq (by simp) h2, rfl⟩
  fits {datum related} h := by
    simp only [decode?, Option.bind_eq_bind, Option.bind_eq_some_iff, Option.pure_def,
      Option.some.injEq] at h
    obtain ⟨r, -, _, h1, _, h2, rfl⟩ := h
    exact ⟨fits_required h1, fits_required h2⟩

instance : Bounded Diagnostic where
  Fits d :=
    Fits d.range ∧ Fits d.severity ∧ Fits d.code ∧ Fits d.message ∧ Fits d.related

instance : RoundTrips Diagnostic where
  decode?_encode {d} h := by
    obtain ⟨h1, h2, h3, h4, h5⟩ := h
    simp only [decode?, Option.bind_eq_bind, Option.bind_eq_some_iff]
    exact ⟨_, rfl, _, required_eq (by simp) h1, _, required_eq (by simp) h2,
      _, required_eq (by simp) h3, _, required_eq (by simp) h4, _, required_eq (by simp) h5, rfl⟩
  fits {datum d} h := by
    simp only [decode?, Option.bind_eq_bind, Option.bind_eq_some_iff, Option.pure_def,
      Option.some.injEq] at h
    obtain ⟨r, -, _, h1, _, h2, _, h3, _, h4, _, h5, rfl⟩ := h
    exact ⟨fits_required h1, fits_required h2, fits_required h3, fits_required h4, fits_required h5⟩

instance : Bounded Hover where
  Fits hover :=
    Fits hover.range ∧ Fits hover.kind ∧ Fits hover.name ∧ Fits hover.library ∧
      Fits hover.visibility ∧ Fits hover.ty ∧ Fits hover.params ∧ Fits hover.returns ∧
      Fits hover.inherits

instance : RoundTrips Hover where
  decode?_encode {hover} h := by
    obtain ⟨h1, h2, h3, h4, h5, h6, h7, h8, h9⟩ := h
    simp only [decode?, Option.bind_eq_bind, Option.bind_eq_some_iff]
    exact ⟨_, rfl, _, required_eq (by simp) h1, _, required_eq (by simp) h2,
      _, required_eq (by simp) h3, _, required_eq (by simp) h4, _, optional_eq (by simp) h5,
      _, optional_eq (by simp) h6, _, required_eq (by simp) h7, _, required_eq (by simp) h8,
      _, required_eq (by simp) h9, rfl⟩
  fits {datum hover} h := by
    simp only [decode?, Option.bind_eq_bind, Option.bind_eq_some_iff, Option.pure_def,
      Option.some.injEq] at h
    obtain ⟨r, -, _, h1, _, h2, _, h3, _, h4, _, h5, _, h6, _, h7, _, h8, _, h9, rfl⟩ := h
    exact ⟨fits_required h1, fits_required h2, fits_required h3, fits_required h4, fits_optional h5,
      fits_optional h6, fits_required h7, fits_required h8, fits_required h9⟩

/-! ## Manifests -/

open Manifest in
instance : Bounded ProjectSection := ⟨fun part => Fits part.name⟩

open Manifest in
instance : RoundTrips ProjectSection where
  decode?_encode {part} h := by
    simp only [decode?, Option.bind_eq_bind, Option.bind_eq_some_iff]
    exact ⟨_, rfl, _, required_eq (by simp) h, rfl⟩
  fits {datum part} h := by
    simp only [decode?, Option.bind_eq_bind, Option.bind_eq_some_iff, Option.pure_def,
      Option.some.injEq] at h
    obtain ⟨r, -, name, h, rfl⟩ := h
    have hname : Fits name := fits_required h
    exact hname

open Manifest in
instance : Bounded ImportSection := ⟨fun part => Fits part.libraries⟩

open Manifest in
instance : RoundTrips ImportSection where
  decode?_encode {part} h := by
    simp only [decode?, Option.bind_eq_bind, Option.bind_eq_some_iff]
    exact ⟨_, rfl, _, defaulted_eq (by simp) h, rfl⟩
  fits {datum part} h := by
    simp only [decode?, Option.bind_eq_bind, Option.bind_eq_some_iff, Option.pure_def,
      Option.some.injEq] at h
    obtain ⟨r, -, libraries, h, rfl⟩ := h
    have hlibraries : Fits libraries := fits_defaulted h fits_nil
    exact hlibraries

open Manifest in
instance : Bounded AnalysisSection := ⟨fun part => Fits part.kernel ∧ Fits part.suggestions⟩

open Manifest in
instance : RoundTrips AnalysisSection where
  decode?_encode {part} h := by
    obtain ⟨h1, h2⟩ := h
    simp only [decode?, Option.bind_eq_bind, Option.bind_eq_some_iff]
    exact ⟨_, rfl, _, defaulted_eq (by simp) h1, _, defaulted_eq (by simp) h2, rfl⟩
  fits {datum part} h := by
    simp only [decode?, Option.bind_eq_bind, Option.bind_eq_some_iff, Option.pure_def,
      Option.some.injEq] at h
    obtain ⟨r, -, _, h1, _, h2, rfl⟩ := h
    exact ⟨fits_defaulted h1 (fits_string _), fits_defaulted h2 (fits_bool _)⟩

open Manifest in
instance : Bounded Manifest where
  Fits m := Fits (ProjectSection.mk m.name) ∧ Fits (ImportSection.mk m.libraries) ∧
    Fits (AnalysisSection.mk m.kernel m.suggestions)

lemma fits_manifest (m : Manifest) : Fits m :=
  ⟨trivial, fun _ _ => trivial, trivial, trivial⟩

instance : RoundTrips Manifest where
  decode?_encode {m} h := by
    obtain ⟨h1, h2, h3⟩ := h
    simp only [decode?, Option.bind_eq_bind, Option.bind_eq_some_iff]
    exact ⟨_, rfl, _, required_eq (by simp) h1, _, defaulted_eq (by simp) h2,
      _, defaulted_eq (by simp) h3, rfl⟩
  fits _ := fits_manifest _

/-! ## Declarations -/

instance : Bounded TypeRef := ⟨fun ty => Fits ty.path ∧ Fits ty.dimension ∧ Fits ty.range⟩

instance : RoundTrips TypeRef where
  decode?_encode {ty} h := by
    obtain ⟨h1, h2, h3⟩ := h
    simp only [decode?, Option.bind_eq_bind, Option.bind_eq_some_iff]
    exact ⟨_, rfl, _, required_eq (by simp) h1, _, required_eq (by simp) h2,
      _, required_eq (by simp) h3, rfl⟩
  fits {datum ty} h := by
    simp only [decode?, Option.bind_eq_bind, Option.bind_eq_some_iff, Option.pure_def,
      Option.some.injEq] at h
    obtain ⟨r, -, _, h1, _, h2, _, h3, rfl⟩ := h
    exact ⟨fits_required h1, fits_required h2, fits_required h3⟩

instance : Bounded VariableNode where
  Fits node :=
    Fits node.visibility ∧ Fits node.constant ∧ Fits node.name ∧ Fits node.ty

instance : RoundTrips VariableNode where
  decode?_encode {node} h := by
    obtain ⟨h1, h2, h3, h4⟩ := h
    simp only [decode?, Option.bind_eq_bind, Option.bind_eq_some_iff]
    exact ⟨_, rfl, _, required_eq (by simp) h1, _, required_eq (by simp) h2,
      _, required_eq (by simp) h3, _, required_eq (by simp) h4, rfl⟩
  fits {datum node} h := by
    simp only [decode?, Option.bind_eq_bind, Option.bind_eq_some_iff, Option.pure_def,
      Option.some.injEq] at h
    obtain ⟨r, -, _, h1, _, h2, _, h3, _, h4, rfl⟩ := h
    exact ⟨fits_required h1, fits_required h2, fits_required h3, fits_required h4⟩

instance : Bounded ParamNode := ⟨fun node => Fits node.name ∧ Fits node.ty⟩

instance : RoundTrips ParamNode where
  decode?_encode {node} h := by
    obtain ⟨h1, h2⟩ := h
    simp only [decode?, Option.bind_eq_bind, Option.bind_eq_some_iff]
    exact ⟨_, rfl, _, optional_eq (by simp) h1, _, required_eq (by simp) h2, rfl⟩
  fits {datum node} h := by
    simp only [decode?, Option.bind_eq_bind, Option.bind_eq_some_iff, Option.pure_def,
      Option.some.injEq] at h
    obtain ⟨r, -, _, h1, _, h2, rfl⟩ := h
    exact ⟨fits_optional h1, fits_required h2⟩

instance : Bounded FunctionNode where
  Fits node :=
    Fits node.visibility ∧ Fits node.name ∧ Fits node.params ∧ Fits node.returns

instance : RoundTrips FunctionNode where
  decode?_encode {node} h := by
    obtain ⟨h1, h2, h3, h4⟩ := h
    simp only [decode?, Option.bind_eq_bind, Option.bind_eq_some_iff]
    exact ⟨_, rfl, _, required_eq (by simp) h1, _, required_eq (by simp) h2,
      _, required_eq (by simp) h3, _, required_eq (by simp) h4, rfl⟩
  fits {datum node} h := by
    simp only [decode?, Option.bind_eq_bind, Option.bind_eq_some_iff, Option.pure_def,
      Option.some.injEq] at h
    obtain ⟨r, -, _, h1, _, h2, _, h3, _, h4, rfl⟩ := h
    exact ⟨fits_required h1, fits_required h2, fits_required h3, fits_required h4⟩

instance : Bounded EnumNode where
  Fits node :=
    Fits node.visibility ∧ Fits node.name ∧ Fits node.elements

instance : RoundTrips EnumNode where
  decode?_encode {node} h := by
    obtain ⟨h1, h2, h3⟩ := h
    simp only [decode?, Option.bind_eq_bind, Option.bind_eq_some_iff]
    exact ⟨_, rfl, _, required_eq (by simp) h1, _, required_eq (by simp) h2,
      _, required_eq (by simp) h3, rfl⟩
  fits {datum node} h := by
    simp only [decode?, Option.bind_eq_bind, Option.bind_eq_some_iff, Option.pure_def,
      Option.some.injEq] at h
    obtain ⟨r, -, _, h1, _, h2, _, h3, rfl⟩ := h
    exact ⟨fits_required h1, fits_required h2, fits_required h3⟩

instance : Bounded StructNode where
  Fits node :=
    Fits node.visibility ∧ Fits node.name ∧ Fits node.fields ∧ Fits node.functions

instance : RoundTrips StructNode where
  decode?_encode {node} h := by
    obtain ⟨h1, h2, h3, h4⟩ := h
    simp only [decode?, Option.bind_eq_bind, Option.bind_eq_some_iff]
    exact ⟨_, rfl, _, required_eq (by simp) h1, _, required_eq (by simp) h2,
      _, required_eq (by simp) h3, _, required_eq (by simp) h4, rfl⟩
  fits {datum node} h := by
    simp only [decode?, Option.bind_eq_bind, Option.bind_eq_some_iff, Option.pure_def,
      Option.some.injEq] at h
    obtain ⟨r, -, _, h1, _, h2, _, h3, _, h4, rfl⟩ := h
    exact ⟨fits_required h1, fits_required h2, fits_required h3, fits_required h4⟩

instance : Bounded InterfaceNode where
  Fits node :=
    Fits node.visibility ∧ Fits node.name ∧ Fits node.inherits ∧ Fits node.functions

instance : RoundTrips InterfaceNode where
  decode?_encode {node} h := by
    obtain ⟨h1, h2, h3, h4⟩ := h
    simp only [decode?, Option.bind_eq_bind, Option.bind_eq_some_iff]
    exact ⟨_, rfl, _, required_eq (by simp) h1, _, required_eq (by simp) h2,
      _, required_eq (by simp) h3, _, required_eq (by simp) h4, rfl⟩
  fits {datum node} h := by
    simp only [decode?, Option.bind_eq_bind, Option.bind_eq_some_iff, Option.pure_def,
      Option.some.injEq] at h
    obtain ⟨r, -, _, h1, _, h2, _, h3, _, h4, rfl⟩ := h
    exact ⟨fits_required h1, fits_required h2, fits_required h3, fits_required h4⟩

instance : Bounded ConstructorNode where
  Fits node :=
    Fits node.visibility ∧ Fits node.name ∧ Fits node.params

instance : RoundTrips ConstructorNode where
  decode?_encode {node} h := by
    obtain ⟨h1, h2, h3⟩ := h
    simp only [decode?, Option.bind_eq_bind, Option.bind_eq_some_iff]
    exact ⟨_, rfl, _, required_eq (by simp) h1, _, required_eq (by simp) h2,
      _, required_eq (by simp) h3, rfl⟩
  fits {datum node} h := by
    simp only [decode?, Option.bind_eq_bind, Option.bind_eq_some_iff, Option.pure_def,
      Option.some.injEq] at h
    obtain ⟨r, -, _, h1, _, h2, _, h3, rfl⟩ := h
    exact ⟨fits_required h1, fits_required h2, fits_required h3⟩

instance : Bounded ClassNode where
  Fits node :=
    Fits node.visibility ∧ Fits node.name ∧ Fits node.inherits ∧ Fits node.fields ∧
      Fits node.constructors ∧ Fits node.functions

instance : RoundTrips ClassNode where
  decode?_encode {node} h := by
    obtain ⟨h1, h2, h3, h4, h5, h6⟩ := h
    simp only [decode?, Option.bind_eq_bind, Option.bind_eq_some_iff]
    exact ⟨_, rfl, _, required_eq (by simp) h1, _, required_eq (by simp) h2,
      _, required_eq (by simp) h3, _, required_eq (by simp) h4, _, required_eq (by simp) h5,
      _, required_eq (by simp) h6, rfl⟩
  fits {datum node} h := by
    simp only [decode?, Option.bind_eq_bind, Option.bind_eq_some_iff, Option.pure_def,
      Option.some.injEq] at h
    obtain ⟨r, -, _, h1, _, h2, _, h3, _, h4, _, h5, _, h6, rfl⟩ := h
    exact ⟨fits_required h1, fits_required h2, fits_required h3, fits_required h4, fits_required h5,
      fits_required h6⟩

instance : Bounded DelegateNode where
  Fits node :=
    Fits node.visibility ∧ Fits node.name ∧ Fits node.params ∧ Fits node.returns

instance : RoundTrips DelegateNode where
  decode?_encode {node} h := by
    obtain ⟨h1, h2, h3, h4⟩ := h
    simp only [decode?, Option.bind_eq_bind, Option.bind_eq_some_iff]
    exact ⟨_, rfl, _, required_eq (by simp) h1, _, required_eq (by simp) h2,
      _, required_eq (by simp) h3, _, required_eq (by simp) h4, rfl⟩
  fits {datum node} h := by
    simp only [decode?, Option.bind_eq_bind, Option.bind_eq_some_iff, Option.pure_def,
      Option.some.injEq] at h
    obtain ⟨r, -, _, h1, _, h2, _, h3, _, h4, rfl⟩ := h
    exact ⟨fits_required h1, fits_required h2, fits_required h3, fits_required h4⟩

instance : Bounded TaskNode where
  Fits node :=
    Fits node.visibility ∧ Fits node.name ∧ Fits node.returns

instance : RoundTrips TaskNode where
  decode?_encode {node} h := by
    obtain ⟨h1, h2, h3⟩ := h
    simp only [decode?, Option.bind_eq_bind, Option.bind_eq_some_iff]
    exact ⟨_, rfl, _, required_eq (by simp) h1, _, required_eq (by simp) h2,
      _, required_eq (by simp) h3, rfl⟩
  fits {datum node} h := by
    simp only [decode?, Option.bind_eq_bind, Option.bind_eq_some_iff, Option.pure_def,
      Option.some.injEq] at h
    obtain ⟨r, -, _, h1, _, h2, _, h3, rfl⟩ := h
    exact ⟨fits_required h1, fits_required h2, fits_required h3⟩

instance : Bounded DeclNode where
  Fits
    | .variable node => Fits node
    | .function node | .native node => Fits node
    | .enum node => Fits node
    | .struct node => Fits node
    | .interface node => Fits node
    | .class node => Fits node
    | .delegate node => Fits node
    | .task node => Fits node

lemma map_decode? {α β : Type} [Interchange α] [Bounded α] [RoundTrips α] (wrap : α → β) (x : α)
    (h : Fits x) : (decode? (encode x)).map wrap = some (wrap x) := by
  rw [decode?_encode h, Option.map_some]

/-- The content of a declaration is read back under the name of its choice. -/
lemma DeclNode.ofChoice?_content {node : DeclNode} (h : Fits node) :
    ofChoice? node.choiceName node.content = some node := by
  cases node with
  | «variable» node => exact map_decode? DeclNode.variable node h
  | function node => exact map_decode? DeclNode.function node h
  | native node => exact map_decode? DeclNode.native node h
  | enum node => exact map_decode? DeclNode.enum node h
  | struct node => exact map_decode? DeclNode.struct node h
  | interface node => exact map_decode? DeclNode.interface node h
  | «class» node => exact map_decode? DeclNode.class node h
  | delegate node => exact map_decode? DeclNode.delegate node h
  | task node => exact map_decode? DeclNode.task node h

/-- Whatever is read under some name is of the type that goes with it. -/
lemma DeclNode.fits_ofChoice? {choice : String} {content : Datum} {node : DeclNode}
    (h : ofChoice? choice content = some node) : Fits node := by
  unfold ofChoice? at h
  split at h
  all_goals first
    | cases h
    | obtain ⟨part, hpart, rfl⟩ := Option.map_eq_some_iff.1 h
      have hfits : Fits part := RoundTrips.fits hpart
      exact hfits

instance : RoundTrips DeclNode where
  decode?_encode h := DeclNode.ofChoice?_content h
  fits {datum node} h := by
    simp only [decode?, Option.bind_eq_some_iff] at h
    obtain ⟨⟨choice, content⟩, -, h⟩ := h
    exact DeclNode.fits_ofChoice? h

instance : Bounded ImportNode := ⟨fun node => Fits node.path ∧ Fits node.range⟩

instance : RoundTrips ImportNode where
  decode?_encode {node} h := by
    obtain ⟨h1, h2⟩ := h
    simp only [decode?, Option.bind_eq_bind, Option.bind_eq_some_iff]
    exact ⟨_, rfl, _, required_eq (by simp) h1, _, required_eq (by simp) h2, rfl⟩
  fits {datum node} h := by
    simp only [decode?, Option.bind_eq_bind, Option.bind_eq_some_iff, Option.pure_def,
      Option.some.injEq] at h
    obtain ⟨r, -, _, h1, _, h2, rfl⟩ := h
    exact ⟨fits_required h1, fits_required h2⟩

/-! ## Trees -/

/-! ## Trees -/

section

variable {α : Type} {read : Datum → Option α} {names : List String}
  {node? : FieldReader → List α → Option α}

/-- A tree is read from an object with the given fields: first the items of its field `children`,
each of which is a tree, then the node that holds them. -/
def ReadsTrees (read : Datum → Option α) (names : List String)
    (node? : FieldReader → List α → Option α) : Prop :=
  ∀ datum, read datum = do
    let items ← datum.fieldItems? names "children"
    let r ← datum.record? names
    let children ← items.mapM read
    node? r children

lemma mapM_attach (items : List Datum) :
    (items.attach.mapM fun item => read item.1) = items.mapM read := by
  rw [List.mapM_subtype (fun _ _ => rfl), List.unattach_attach]

/-- What a node has as soon as its children have it holds of every tree that is read. -/
theorem ReadsTrees.forall_read (reads : ReadsTrees read names node?) {P : α → Prop}
    (hnode : ∀ {r children tree}, node? r children = some tree →
      (∀ child ∈ children, P child) → P tree)
    {datum : Datum} {tree : α} (h : read datum = some tree) : P tree := by
  simp only [reads datum, Option.bind_eq_bind, Option.bind_eq_some_iff] at h
  obtain ⟨items, hitems, r, -, children, hchildren, htree⟩ := h
  refine hnode htree fun child hchild => ?_
  obtain ⟨item, hitem, hread⟩ := exists_of_mem_mapM hchildren hchild
  -- The recursion is on the datum: each child is read from a smaller one.
  have := Datum.sizeOf_lt_of_mem_fieldItems? hitems hitem
  exact reads.forall_read hnode hread
termination_by sizeOf datum

end

namespace SpaceNode

mutual

/-- All numbers in a block are in range. -/
def AllFit : SpaceNode → Prop
  | ⟨name, imports, children, declarations⟩ =>
    Fits name ∧ Fits imports ∧ AllFits children ∧ Fits declarations

/-- All numbers in some blocks are in range. -/
def AllFits : List SpaceNode → Prop
  | [] => True
  | node :: rest => AllFit node ∧ AllFits rest

end

lemma allFits_iff {nodes : List SpaceNode} : AllFits nodes ↔ ∀ node ∈ nodes, AllFit node := by
  induction nodes with
  | nil => simp [AllFits]
  | cons node rest ih => simp [AllFits, ih]

lemma readsTrees : ReadsTrees ofDatum? fieldNames fun r children => do
    return ⟨← r.optional "name", ← r.required "imports", children,
      ← r.required "declarations"⟩ := by
  intro datum
  rw [ofDatum?]
  split
  · next hitems => rw [hitems]; rfl
  · next items hitems => rw [hitems, mapM_attach]; rfl

mutual

theorem ofDatum?_toDatum : ∀ {node : SpaceNode}, AllFit node → ofDatum? (toDatum node) = some node
  | ⟨name, imports, children, declarations⟩, h => by
    obtain ⟨h1, h2, h3, h4⟩ := h
    have hitems : (toDatum ⟨name, imports, children, declarations⟩).fieldItems? fieldNames
        "children" = some (toData children) := by
      simp [toDatum, Datum.fieldItems?, Datum.record?, Datum.items?]
    simp only [readsTrees _, hitems, Option.bind_eq_bind, Option.bind_some,
      Option.bind_eq_some_iff]
    exact ⟨_, rfl, children, mapM_ofDatum?_toData h3, _, optional_eq (by simp) h1,
      _, required_eq (by simp) h2, _, required_eq (by simp) h4, rfl⟩

theorem mapM_ofDatum?_toData : ∀ {nodes : List SpaceNode}, AllFits nodes →
    (toData nodes).mapM ofDatum? = some nodes
  | [], _ => rfl
  | node :: rest, h => by
    rw [AllFits] at h
    simp [toData, ofDatum?_toDatum h.1, mapM_ofDatum?_toData h.2]

end

lemma allFit_of_ofDatum? {datum : Datum} {node : SpaceNode} (h : ofDatum? datum = some node) :
    AllFit node := by
  refine readsTrees.forall_read (fun {r children tree} htree hall => ?_) h
  simp only [Option.bind_eq_bind, Option.bind_eq_some_iff, Option.pure_def,
    Option.some.injEq] at htree
  obtain ⟨_, h1, _, h2, _, h3, rfl⟩ := htree
  exact ⟨fits_optional h1, fits_required h2, allFits_iff.2 hall, fits_required h3⟩

end SpaceNode

instance : Bounded SpaceNode := ⟨SpaceNode.AllFit⟩

instance : RoundTrips SpaceNode where
  decode?_encode h := SpaceNode.ofDatum?_toDatum h
  fits h := SpaceNode.allFit_of_ofDatum? h

instance : Bounded FileTree := ⟨fun tree => Fits tree.path ∧ Fits tree.root⟩

instance : RoundTrips FileTree where
  decode?_encode {tree} h := by
    obtain ⟨h1, h2⟩ := h
    simp only [decode?, Option.bind_eq_bind, Option.bind_eq_some_iff]
    exact ⟨_, rfl, _, required_eq (by simp) h1, _, required_eq (by simp) h2, rfl⟩
  fits {datum tree} h := by
    simp only [decode?, Option.bind_eq_bind, Option.bind_eq_some_iff, Option.pure_def,
      Option.some.injEq] at h
    obtain ⟨r, -, _, h1, _, h2, rfl⟩ := h
    exact ⟨fits_required h1, fits_required h2⟩

namespace OutlineItem

mutual

/-- All numbers in an outline item are in range. -/
def AllFit : OutlineItem → Prop
  | ⟨name, kind, range, detail, children⟩ =>
    Fits name ∧ Fits kind ∧ Fits range ∧ Fits detail ∧ AllFits children

/-- All numbers in some outline items are in range. -/
def AllFits : List OutlineItem → Prop
  | [] => True
  | item :: rest => AllFit item ∧ AllFits rest

end

lemma allFits_iff {items : List OutlineItem} : AllFits items ↔ ∀ item ∈ items, AllFit item := by
  induction items with
  | nil => simp [AllFits]
  | cons item rest ih => simp [AllFits, ih]

lemma readsTrees : ReadsTrees ofDatum? fieldNames fun r children => do
    return ⟨← r.required "name", ← r.required "kind", ← r.required "range",
      ← r.optional "detail", children⟩ := by
  intro datum
  rw [ofDatum?]
  split
  · next hitems => rw [hitems]; rfl
  · next items hitems => rw [hitems, mapM_attach]; rfl

mutual

theorem ofDatum?_toDatum : ∀ {item : OutlineItem}, AllFit item → ofDatum? (toDatum item) = some item
  | ⟨name, kind, range, detail, children⟩, h => by
    obtain ⟨h1, h2, h3, h4, h5⟩ := h
    have hitems : (toDatum ⟨name, kind, range, detail, children⟩).fieldItems? fieldNames
        "children" = some (toData children) := by
      simp [toDatum, Datum.fieldItems?, Datum.record?, Datum.items?]
    simp only [readsTrees _, hitems, Option.bind_eq_bind, Option.bind_some,
      Option.bind_eq_some_iff]
    exact ⟨_, rfl, children, mapM_ofDatum?_toData h5, _, required_eq (by simp) h1,
      _, required_eq (by simp) h2, _, required_eq (by simp) h3, _, optional_eq (by simp) h4, rfl⟩

theorem mapM_ofDatum?_toData : ∀ {items : List OutlineItem}, AllFits items →
    (toData items).mapM ofDatum? = some items
  | [], _ => rfl
  | item :: rest, h => by
    rw [AllFits] at h
    simp [toData, ofDatum?_toDatum h.1, mapM_ofDatum?_toData h.2]

end

lemma allFit_of_ofDatum? {datum : Datum} {item : OutlineItem} (h : ofDatum? datum = some item) :
    AllFit item := by
  refine readsTrees.forall_read (fun {r children tree} htree hall => ?_) h
  simp only [Option.bind_eq_bind, Option.bind_eq_some_iff, Option.pure_def,
    Option.some.injEq] at htree
  obtain ⟨_, h1, _, h2, _, h3, _, h4, rfl⟩ := htree
  exact ⟨fits_required h1, fits_required h2, fits_required h3, fits_optional h4,
    allFits_iff.2 hall⟩

end OutlineItem

instance : Bounded OutlineItem := ⟨OutlineItem.AllFit⟩

instance : RoundTrips OutlineItem where
  decode?_encode h := OutlineItem.ofDatum?_toDatum h
  fits h := OutlineItem.allFit_of_ofDatum? h

/-! ## Reading back and rewriting -/

/-- The datum that is written for what a datum is read as. -/
def rewritten? (α : Type) [Interchange α] (datum : Datum) : Option Datum :=
  (decode? datum : Option α).map encode

/-- A type whose values are read back as they were, so that one rewriting brings any accepted
datum into its final form. -/
structure Faithful (α : Type) [Interchange α] [Bounded α] : Prop where
  reads_back : ∀ x : α, Fits x → decode? (encode x) = some x
  settles : ∀ datum written, rewritten? α datum = some written →
    rewritten? α written = some written

theorem RoundTrips.faithful (α : Type) [Interchange α] [Bounded α] [RoundTrips α] :
    Faithful α where
  reads_back _ h := decode?_encode h
  settles datum written h := by
    obtain ⟨x, hx, rfl⟩ := Option.map_eq_some_iff.1 h
    rw [rewritten?, decode?_encode (RoundTrips.fits hx), Option.map_some]

lemma decode?_encode_marked {marked : MarkedId} (h : Fits marked) :
    decode? (encode marked) = some { marked with visibility := .priv } :=
  map_decode? (fun id => MarkedId.mk id .priv) marked.id h

/-- A marked identity is written as the identity alone, so it settles as the identity does. -/
lemma rewritten?_marked (datum : Datum) :
    rewritten? MarkedId datum = rewritten? DeclId datum := by
  simp only [rewritten?, decode?, encode, Option.map_map, Function.comp_def]

/-- **Round trip.**  A marked identity comes back without its modifier, values of all other types
come back as they were; for every type, rewriting an accepted datum twice gives what rewriting
it once gives. -/
theorem written_forms_faithful :
    (∀ marked : MarkedId, Fits marked →
      decode? (encode marked) = some { marked with visibility := .priv }) ∧
    (∀ datum written, rewritten? MarkedId datum = some written →
      rewritten? MarkedId written = some written) ∧
    Faithful Ty ∧ Faithful Signature ∧ Faithful SpaceRef ∧ Faithful Range ∧ Faithful Location ∧
    Faithful Visibility ∧ Faithful Diagnostic ∧ Faithful Hover ∧ Faithful OutlineItem ∧
    Faithful FileTree ∧ Faithful Manifest := by
  refine ⟨fun _ => decode?_encode_marked, ?_, RoundTrips.faithful _, RoundTrips.faithful _,
    RoundTrips.faithful _, RoundTrips.faithful _, RoundTrips.faithful _, RoundTrips.faithful _,
    RoundTrips.faithful _, RoundTrips.faithful _, RoundTrips.faithful _, RoundTrips.faithful _,
    RoundTrips.faithful _⟩
  intro datum written h
  rw [rewritten?_marked] at h ⊢
  exact (RoundTrips.faithful DeclId).settles datum written h

/-- A document with a native in a block: the parameter without a name, and the block without
imports, are written and read back. -/
def nestedTree : FileTree :=
  let name (text : String) : Ident := ⟨text, .onLine 0 0 7⟩
  ⟨"a", none, [], [⟨some (name "inner"), [], [],
    [.native ⟨.pub, name "f", [⟨none, .ofPath [name "integer"] 1⟩], []⟩]⟩], []⟩

theorem nestedTree_reads_back :
    Fits nestedTree ∧ decode? (encode nestedTree) = some nestedTree := by
  have hfits : Fits nestedTree := by
    simp [nestedTree, Fits, SpaceNode.AllFit, SpaceNode.AllFits, indexBound, TypeRef.ofPath,
      TypeRef.pathRange, Range.merge, Position.earlier, Position.later]
  obtain ⟨-, -, -, -, -, -, -, -, -, -, -, htree, -⟩ := written_forms_faithful
  exact ⟨hfits, htree.reads_back _ hfits⟩

end SymbolGraph
