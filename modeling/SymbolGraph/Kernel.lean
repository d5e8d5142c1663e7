import SymbolGraph.Sketch

/-!
# The built-in kernel

The library that every other library sees without importing it: the primitive value types, the
root class of reference types, and the operators on them.  It is used when the sources bring no
kernel of their own.
-/

namespace SymbolGraph.Kernel

/-- The value types that every library can name. -/
def primitives : List String :=
  ["bool", "byte", "char", "integer", "real", "string", "type", "entity"]

/-- The root class of every reference type. -/
def handle : String := "handle"

/-- The document of the built-in types. -/
def typesPath : String := "kernel/builtin.rk"

/-- The document of the built-in operators. -/
def operatorsPath : String := "kernel/operators.rk"

/-- Every built-in type can be turned into text. -/
def toText : Sketch.Member := .function .pub "ToString" [] ["string"]

/-- The built-in types. -/
def types : List Sketch.Item :=
  primitives.map (fun name => .struct .pub name [toText]) ++ [.class .pub handle [] [toText]]

/-- A native operator. -/
def operator (name : String) (params : List String) (result : String) : Sketch.Item :=
  .native .pub name params [result]

/-- The operators of a number type. -/
def numberOperators (number : String) : List Sketch.Item :=
  ["+", "-", "*", "/"].map (fun name => operator name [number, number] number) ++
    ["<", "<=", ">", ">="].map (fun name => operator name [number, number] "bool") ++
    [operator "-" [number] number]

/-- The operators on the bits of integers. -/
def bitOperators : List Sketch.Item :=
  ["%", "&", "|", "^", "<<", ">>"].map
    (fun name => operator name ["integer", "integer"] "integer") ++
    [operator "~" ["integer"] "integer"]

/-- Values of every type can be compared for equality. -/
def equalityOperators : List Sketch.Item :=
  (primitives ++ [handle]).flatMap fun ty =>
    ["==", "!="].map fun name => operator name [ty, ty] "bool"

/-- The built-in operators. -/
def operators : List Sketch.Item :=
  ["integer", "real"].flatMap numberOperators ++ bitOperators ++ equalityOperators ++
    [operator "&&" ["bool", "bool"] "bool", operator "||" ["bool", "bool"] "bool",
      operator "!" ["bool"] "bool", operator "+" ["string", "string"] "string"]

/-- The documents of the built-in kernel. -/
def builtin : List FileTree := [.ofSketch typesPath types, .ofSketch operatorsPath operators]

end SymbolGraph.Kernel
