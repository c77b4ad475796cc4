/-!
# Symbol maps

Names with their values in the order of their definition. A name that is defined again keeps its
place and takes the new value.
-/

namespace A64Machine

/-- Names and values in the order of definition. -/
abbrev SymbolMap := List (String × Int)

namespace SymbolMap

/-- Gives a name a value. -/
def insert (name : String) (value : Int) : SymbolMap → SymbolMap
  | [] => [(name, value)]
  | (known, old) :: rest =>
    if known = name then (known, value) :: rest else (known, old) :: insert name value rest

/-- The map that results from defining names in order. -/
def ofList (definitions : List (String × Int)) : SymbolMap :=
  definitions.foldl (fun symbols (name, value) => insert name value symbols) []

/-- The name that an address is shown under: the last one in order that has it as its value. -/
def nameAt? (symbols : SymbolMap) (address : Int) : Option String :=
  (symbols.reverse.find? fun (_, value) => value == address).map Prod.fst

end SymbolMap

end A64Machine
