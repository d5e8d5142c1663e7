import SymbolGraph.Interchange.Datum
import SymbolGraph.Outline

/-!
# Written forms of identities, types, places and answers
-/

namespace SymbolGraph

/-! ## Identities and types -/

/-- Libraries are written as their number, which is of 32 bits. -/
instance : Interchange LibraryId where
  encode id := .int id.number
  decode?
    | .int n => if -0x80000000 ≤ n ∧ n < 0x80000000 then some ⟨n⟩ else none
    | _ => none

instance : Interchange Category where
  encode category := .text category.name
  decode? datum := datum.choice?.bind Category.ofName?

instance : Interchange TypeCode where
  encode code := .text code.name
  decode? datum := datum.choice?.bind TypeCode.ofName?

/-- The owner's index is left out of the written form of a top-level declaration. -/
instance : Interchange DeclId where
  encode id := .object <|
    [("library", encode id.library), ("category", encode id.category),
      ("index", encode id.index)] ++
      match id.define with
      | some define => [("define", encode define)]
      | none => []
  decode? datum := do
    let r ← datum.record? ["library", "category", "index", "define"]
    return ⟨← r.required "library", ← r.required "category", ← r.required "index",
      ← r.defaulted "define" none⟩

/-- An identity with a copy of its record's modifier beside it. -/
structure MarkedId where
  id : DeclId
  visibility : Visibility
deriving DecidableEq, Repr

/-- The modifier is not written, and an identity that is read comes without one. -/
instance : Interchange MarkedId where
  encode marked := encode marked.id
  decode? datum := (decode? datum).map fun id => ⟨id, .priv⟩

instance : Interchange Ty where
  encode ty := .object
    [("library", encode ty.library), ("code", encode ty.code), ("index", encode ty.index),
      ("dimension", encode ty.dimension)]
  decode? datum := do
    let r ← datum.record? ["library", "code", "index", "dimension"]
    return ⟨← r.required "library", ← r.required "code", ← r.required "index",
      ← r.required "dimension"⟩

instance : Interchange SpaceRef where
  encode space := .object [("library", encode space.library), ("space", encode space.space)]
  decode? datum := do
    let r ← datum.record? ["library", "space"]
    return ⟨← r.required "library", ← r.required "space"⟩

/-! ## Visibility -/

namespace Visibility

/-- Every modifier in its fixed order. -/
def all : List Visibility := [priv, pub, internal, space, prot]

/-- The name of a modifier as data. -/
def name : Visibility → String
  | priv => "None"
  | pub => "Public"
  | internal => "Internal"
  | space => "Space"
  | prot => "Protected"

/-- The modifier of a name. -/
def ofName? (text : String) : Option Visibility := all.find? fun v => v.name = text

@[simp] theorem ofName?_name (v : Visibility) : ofName? v.name = some v := by
  cases v <;> rfl

end Visibility

instance : Interchange Visibility where
  encode visibility := .text visibility.name
  decode? datum := datum.choice?.bind Visibility.ofName?

/-! ## Places -/

instance : Interchange Position where
  encode p := .object [("line", encode p.line), ("character", encode p.character)]
  decode? datum := do
    let r ← datum.record? ["line", "character"]
    return ⟨← r.required "line", ← r.required "character"⟩

instance : Interchange Range where
  encode range := .object [("start", encode range.start), ("end", encode range.stop)]
  decode? datum := do
    let r ← datum.record? ["start", "end"]
    return ⟨← r.required "start", ← r.required "end"⟩

instance : Interchange Location where
  encode location :=
    .object [("document", encode location.document), ("range", encode location.range)]
  decode? datum := do
    let r ← datum.record? ["document", "range"]
    return ⟨← r.required "document", ← r.required "range"⟩

instance : Interchange Ident where
  encode ident := .object [("name", encode ident.name), ("range", encode ident.range)]
  decode? datum := do
    let r ← datum.record? ["name", "range"]
    return ⟨← r.required "name", ← r.required "range"⟩

/-! ## Diagnostics -/

instance : Interchange Severity where
  encode severity := .text severity.name
  decode? datum := datum.choice?.bind Severity.ofName?

instance : Interchange DiagnosticCode where
  encode code := .text code.name
  decode? datum := datum.choice?.bind DiagnosticCode.ofName?

instance : Interchange Related where
  encode related :=
    .object [("location", encode related.location), ("message", encode related.message)]
  decode? datum := do
    let r ← datum.record? ["location", "message"]
    return ⟨← r.required "location", ← r.required "message"⟩

instance : Interchange Diagnostic where
  encode d := .object
    [("range", encode d.range), ("severity", encode d.severity), ("code", encode d.code),
      ("message", encode d.message), ("related", encode d.related)]
  decode? datum := do
    let r ← datum.record? ["range", "severity", "code", "message", "related"]
    return ⟨← r.required "range", ← r.required "severity", ← r.required "code",
      ← r.required "message", ← r.required "related"⟩

/-! ## Hovers and outlines -/

instance : Interchange Hover where
  encode hover := .object
    [("range", encode hover.range), ("kind", encode hover.kind), ("name", encode hover.name),
      ("library", encode hover.library), ("visibility", encode hover.visibility),
      ("ty", encode hover.ty), ("params", encode hover.params),
      ("returns", encode hover.returns), ("inherits", encode hover.inherits)]
  decode? datum := do
    let r ← datum.record? ["range", "kind", "name", "library", "visibility", "ty", "params",
      "returns", "inherits"]
    return ⟨← r.required "range", ← r.required "kind", ← r.required "name",
      ← r.required "library", ← r.optional "visibility", ← r.optional "ty",
      ← r.required "params", ← r.required "returns", ← r.required "inherits"⟩

instance : Interchange OutlineKind where
  encode kind := .text kind.name
  decode? datum := datum.choice?.bind OutlineKind.ofName?

namespace OutlineItem

/-- The fields of an outline item. -/
def fieldNames : List String := ["name", "kind", "range", "detail", "children"]

mutual

/-- The written form of an outline item. -/
def toDatum : OutlineItem → Datum
  | ⟨name, kind, range, detail, children⟩ => .object
    [("name", encode name), ("kind", encode kind), ("range", encode range),
      ("detail", encode detail), ("children", .list (toData children))]

/-- The written forms of outline items. -/
def toData : List OutlineItem → List Datum
  | [] => []
  | item :: rest => toDatum item :: toData rest

end

/-- The outline item of a written form. -/
def ofDatum? (datum : Datum) : Option OutlineItem :=
  match h : datum.fieldItems? fieldNames "children" with
  | none => none
  | some items => do
    let r ← datum.record? fieldNames
    let children ← items.attach.mapM fun item => ofDatum? item.1
    return ⟨← r.required "name", ← r.required "kind", ← r.required "range",
      ← r.optional "detail", children⟩
termination_by sizeOf datum
decreasing_by exact Datum.sizeOf_lt_of_mem_fieldItems? h item.2

end OutlineItem

instance : Interchange OutlineItem where
  encode := OutlineItem.toDatum
  decode? := OutlineItem.ofDatum?

end SymbolGraph
