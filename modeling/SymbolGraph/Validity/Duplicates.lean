import SymbolGraph.LibrarySet
import SymbolGraph.Validity.Report

/-!
# Duplicate names

Declarations of one namespace, or members of one declaration, that share a name form a group; only
valid ones count.  A group of overloadable declarations is in order as long as resolved parameter
types differ; in any other group of two or more, every declaration is a duplicate of the others.
A declaration also clashes with a child namespace of its name.
-/

namespace SymbolGraph

namespace Duplicates

/-- The elements at positions other than `position` that satisfy `p`. -/
def others {α : Type} (xs : List α) (position : Nat) (p : α → Bool) : List α :=
  (xs.zipIdx.filter fun (x, i) => decide (i ≠ position) && p x).map Prod.fst

/-- Every record of a group that must not be shared is reported, with all others. -/
def sharedName (records : List Entry) : Report :=
  records.zipIdx.map fun (record, i) =>
    (record.document,
      (Diagnostic.error record.nameRange .duplicateName
        s!"`{record.name}` is declared more than once").relatedTo <|
      (others records i fun _ => true).map fun other => ⟨other.location, "also declared here"⟩)

/-- The records whose parameter types all resolved, with those types. -/
def signed (records : List Entry) : List (Entry × Signature) :=
  records.filterMap fun record =>
    match record.body.callable? with
    | some callable =>
      if callable.signature.isResolved then some (record, callable.signature) else none
    | none => none

/-- Every record that has the resolved parameter types of another is reported, with those it
agrees with. -/
def sameParameters (records : List Entry) : Report :=
  let signed := signed records
  signed.zipIdx.filterMap fun ((record, signature), i) =>
    match others signed i fun (_, other) => other = signature with
    | [] => none
    | conflicts =>
      some (record.document,
        (Diagnostic.error record.nameRange .invalidOverload
          s!"`{record.name}` has an overload with the same parameters").relatedTo <|
        conflicts.map fun (other, _) => ⟨other.location, "conflicting overload"⟩)

/-- The report on one group. -/
def checkGroup (records : List Entry) : Report :=
  if records.length < 2 then []
  else if records.all fun record => record.category.isOverloadable then sameParameters records
  else sharedName records

/-- The valid declarations of a group. -/
def validRecords (lib : Library) (group : List DeclId) : List Entry :=
  (group.filterMap lib.find?).filter Symbol.valid

/-- The report on declarations that have the name of a child namespace. -/
def namespaceClash (lib : Library) (space : SpaceId) (name : String) (records : List Entry) :
    Report :=
  let full := Library.qualify (lib.spaces.fullName space) name
  records.map fun record =>
    (record.document,
      .error record.nameRange .duplicateName s!"`{name}` conflicts with namespace `{full}`")

/-- The report on the groups of one namespace. -/
def checkSpace (lib : Library) (space : Namespace) : Report :=
  space.groups.flatMap fun (name, group) =>
    let records := validRecords lib group
    (if space.children.has name then namespaceClash lib space.id name records else []) ++
      checkGroup records

/-- Members in groups of one name, in the order of their first members. -/
def memberGroups (members : List Member) : Assoc String (List Member) :=
  members.foldl (fun groups member =>
    Assoc.put groups member.name (((Assoc.at? groups member.name).getD []) ++ [member])) []

/-- The report on the members of one declaration. -/
def checkMembers (entry : Entry) : Report :=
  (memberGroups (entry.body.allMembers.filter Symbol.valid)).flatMap fun (_, members) =>
    checkGroup (members.map Member.toEntry)

end Duplicates

/-- The report on duplicate names in a library. -/
def Library.checkDuplicates (lib : Library) : Report :=
  lib.spaces.live.flatMap (fun (_, space) => Duplicates.checkSpace lib space) ++
    lib.allEntries.flatMap Duplicates.checkMembers

end SymbolGraph
