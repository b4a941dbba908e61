import TwoPass.Word.Address

/-! # Symbol tables

Labels are bound to their offset from the start of the program, in the order in
which they are defined. A label is bound once. -/

namespace TwoPass

structure Definition where
  name : String
  offset : Nat
  deriving DecidableEq, Repr

structure SymbolTable where
  definitions : List Definition := []
  deriving DecidableEq, Repr

namespace SymbolTable

def offset? (table : SymbolTable) (name : String) : Option Nat :=
  (table.definitions.find? (·.name == name)).map (·.offset)

def define? (table : SymbolTable) (name : String) (offset : Nat) : Option SymbolTable :=
  match table.offset? name with
  | some _ => none
  | none => some ⟨table.definitions ++ [⟨name, offset⟩]⟩

end SymbolTable

/-- The labels of an assembled program with the addresses they stand for. An
address here may lie past the end of memory. -/
structure SymbolValues where
  entries : List (String × Nat) := []
  deriving DecidableEq, Repr

namespace SymbolValues

def ofTable (origin : Address) (table : SymbolTable) : SymbolValues :=
  ⟨table.definitions.map fun definition => (definition.name, origin.advance definition.offset)⟩

/-- The value of a label, spelled exactly. -/
def get? (values : SymbolValues) (name : String) : Option Nat :=
  values.entries.lookup name

/-- One line for each label, in the order of definition. -/
def text (values : SymbolValues) : String :=
  String.join (values.entries.map fun entry => s!"{entry.1} = {Hex.natural entry.2}\n")

end SymbolValues

end TwoPass
