/-!
# Visibility modifiers

What a declaration says about who may refer to it.  `priv` is the default: a top-level
declaration is then private to its document, a member to its owner.
-/

namespace SymbolGraph

/-- The modifier written in front of a declaration. -/
inductive Visibility where
  /-- No recognised modifier: private to the document, or to the owner of a member. -/
  | priv
  /-- Visible everywhere. -/
  | pub
  /-- Visible in its own library. -/
  | internal
  /-- Visible in its namespace and the namespaces below. -/
  | space
  /-- Visible to classes further down the parent chain. -/
  | prot
deriving DecidableEq, Repr, Inhabited

namespace Visibility

/-- The word that spells a modifier. -/
def keyword : Visibility → String
  | priv => "private"
  | pub => "public"
  | internal => "internal"
  | space => "space"
  | prot => "protected"

/-- The modifier that a word spells. -/
def ofKeyword? : String → Option Visibility
  | "public" => some pub
  | "internal" => some internal
  | "space" => some space
  | "protected" => some prot
  | "private" => some priv
  | _ => none

@[simp] theorem ofKeyword?_keyword (v : Visibility) : ofKeyword? v.keyword = some v := by
  cases v <;> rfl

end Visibility

end SymbolGraph
