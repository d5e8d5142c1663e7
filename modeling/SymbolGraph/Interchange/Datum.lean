import SymbolGraph.Collection.Assoc

/-!
# Data for interchange

A `Datum` is a value in transit: nothing, a truth value, an integer, a text, a list, or an object
with named fields.  A type takes part in the interchange when it has a written form and a reader
for it (`Interchange`).

Three conventions hold for all types:

* a record is written as an object, and read from an object, whose unknown fields are passed
  over, or from the list of its fields in order;
* a field that may be absent is written as null, and read from null or, in an object, from nothing;
* a choice without content is written as its name, and read from its name or from an object with
  the name as its only field and null as the value.
-/

namespace SymbolGraph

/-- A value in transit. -/
inductive Datum where
  | null
  | bool (value : Bool)
  | int (value : Int)
  /-- A number with a fraction or exponent.  No type has such a part, so its digits are not
  kept. -/
  | fraction
  | text (value : String)
  | list (items : List Datum)
  | object (fields : List (String × Datum))
deriving Repr, Inhabited

/-- A type with a written form. -/
class Interchange (α : Type) where
  /-- The written form of a value. -/
  encode : α → Datum
  /-- The value of a written form. -/
  decode? : Datum → Option α

export Interchange (encode decode?)

/-- A record being read: its fields by name, and whether it was written with names. -/
structure FieldReader where
  named : Bool
  fields : Assoc String Datum

namespace Datum

/-- Read a record with the given fields, from an object or from the list of its fields. -/
def record? (names : List String) : Datum → Option FieldReader
  | .object fields => some ⟨true, fields⟩
  | .list items => if items.length ≤ names.length then some ⟨false, names.zip items⟩ else none
  | _ => none

/-- Read a choice without content. -/
def choice? : Datum → Option String
  | .text name => some name
  | .object [(name, .null)] => some name
  | _ => none

/-- Read a choice with content. -/
def variant? : Datum → Option (String × Datum)
  | .object [(name, content)] => some (name, content)
  | _ => none

/-- Read a list. -/
def items? : Datum → Option (List Datum)
  | .list items => some items
  | _ => none

/-- Read a list that is a field of a record with the given fields. -/
def fieldItems? (names : List String) (name : String) (datum : Datum) : Option (List Datum) := do
  let reader ← datum.record? names
  let field ← reader.fields.at? name
  field.items?

theorem sizeOf_lt_of_at? {fields : List (String × Datum)} {name : String} {datum : Datum}
    (h : Assoc.at? fields name = some datum) : sizeOf datum < sizeOf fields := by
  induction fields with
  | nil => simp at h
  | cons entry rest ih =>
    obtain ⟨key, value⟩ := entry
    rw [Assoc.at?_cons] at h
    split at h
    · cases h
      simp only [List.cons.sizeOf_spec, Prod.mk.sizeOf_spec]
      omega
    · have := ih h
      simp only [List.cons.sizeOf_spec]
      omega

theorem sizeOf_lt_of_at?_zip {names : List String} {items : List Datum} {name : String}
    {datum : Datum} (h : Assoc.at? (names.zip items) name = some datum) :
    sizeOf datum < sizeOf items := by
  induction names generalizing items with
  | nil => simp at h
  | cons key names ih =>
    cases items with
    | nil => simp at h
    | cons item items =>
      rw [List.zip_cons_cons, Assoc.at?_cons] at h
      split at h
      · cases h
        simp only [List.cons.sizeOf_spec]
        omega
      · have := ih h
        simp only [List.cons.sizeOf_spec]
        omega

/-- The items of a list in a field are smaller than the record, so reading may recurse on them. -/
theorem sizeOf_lt_of_mem_fieldItems? {names : List String} {name : String}
    {datum item : Datum} {items : List Datum} (h : datum.fieldItems? names name = some items)
    (hm : item ∈ items) : sizeOf item < sizeOf datum := by
  have hitem := List.sizeOf_lt_of_mem hm
  simp only [fieldItems?, Option.bind_eq_bind, Option.bind_eq_some_iff] at h
  obtain ⟨reader, hr, field, hf, hi⟩ := h
  have hfield : sizeOf item < sizeOf field := by
    cases field <;> simp_all [items?]
    omega
  cases datum with
  | object fields =>
    simp only [record?, Option.some.injEq] at hr
    subst hr
    have : sizeOf field < sizeOf fields := sizeOf_lt_of_at? hf
    simp only [Datum.object.sizeOf_spec]
    omega
  | list parts =>
    simp only [record?] at hr
    split at hr
    · cases hr
      have : sizeOf field < sizeOf parts := sizeOf_lt_of_at?_zip hf
      simp only [Datum.list.sizeOf_spec]
      omega
    · cases hr
  | _ => simp [record?] at hr

end Datum

namespace FieldReader

variable {α : Type}

/-- Read a field that must be there. -/
def required [Interchange α] (reader : FieldReader) (name : String) : Option α :=
  (reader.fields.at? name).bind decode?

/-- Read a field that may be null; a record written with names may leave it out. -/
def optional [Interchange α] (reader : FieldReader) (name : String) : Option (Option α) :=
  match reader.fields.at? name with
  | some .null => some none
  | some datum => (decode? datum).map some
  | none => if reader.named then some none else none

/-- Read a field that has a value of its own when it is left out. -/
def defaulted [Interchange α] (reader : FieldReader) (name : String) (value : α) : Option α :=
  match reader.fields.at? name with
  | some datum => decode? datum
  | none => some value

end FieldReader

/-! ## Basic types -/

/-- The least natural number that is too large for an index, line or column. -/
def indexBound : Nat := 0x100000000

/-- Natural numbers are written as integers and must lie below `indexBound`. -/
instance : Interchange Nat where
  encode n := .int n
  decode?
    | .int n => if 0 ≤ n ∧ n < indexBound then some n.toNat else none
    | _ => none

instance : Interchange Bool where
  encode := .bool
  decode?
    | .bool b => some b
    | _ => none

instance : Interchange String where
  encode := .text
  decode?
    | .text s => some s
    | _ => none

instance {α : Type} [Interchange α] : Interchange (List α) where
  encode xs := .list (xs.map encode)
  decode?
    | .list items => items.mapM decode?
    | _ => none

instance {α : Type} [Interchange α] : Interchange (Option α) where
  encode
    | some x => encode x
    | none => .null
  decode?
    | .null => some none
    | datum => (decode? datum).map some

theorem decode?_encode_nat {n : Nat} (h : n < indexBound) :
    decode? (encode n) = some n := by
  have : (n : Int) < indexBound := by exact_mod_cast h
  simp [encode, decode?, this]

end SymbolGraph
