import SymbolGraph.Text.Letter

/-!
# Names that may be declared

A declaration is named by an identifier: a letter or underscore, followed by letters, numerals and
underscores, that is neither reserved nor the placeholder for a discarded value.  Functions and
natives may instead be named by an operator that they overload.
-/

namespace SymbolGraph

/-- The reserved words. -/
def keywords : List String :=
  ["namespace", "import", "native", "public", "internal", "space", "protected", "private",
    "const", "global", "var", "struct", "class", "interface", "enum", "delegate", "task",
    "function", "return", "if", "elseif", "else", "while", "for", "break", "continue", "true",
    "false", "null", "this", "base", "new", "is", "as", "and", "or", "start", "wait", "exit",
    "try", "catch", "finally"]

/-- The name that discards a value. -/
def wildcard : String := "_"

/-- The operators that may be overloaded. -/
def operators : List String :=
  ["+", "-", "*", "/", "%", "&", "|", "^", "~", "!", "<", "<=", ">", ">=", "==", "!=", "<<",
    ">>", "&&", "||"]

/-- A reserved word. -/
def isKeyword (name : String) : Bool := name ∈ keywords

/-- An operator that may be overloaded. -/
def isOperator (name : String) : Bool := name ∈ operators

/-- The shape of an identifier: a letter or underscore, then letters, numerals, underscores. -/
def hasNameShape : List Char → Bool
  | [] => false
  | first :: rest =>
    (isLetter first || first = '_') && rest.all fun c => isLetterOrNumeral c || c = '_'

/-- A name that a declaration may have. -/
def isIdentifier (name : String) : Bool :=
  hasNameShape name.toList && name ≠ wildcard && !isKeyword name

end SymbolGraph
