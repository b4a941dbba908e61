import TwoPass.Line.Shape
import TwoPass.Operand.Numeral
import TwoPass.Program.SymbolTable

/-! # References to labels

An operand that names a label has its value only once the label is bound. In the
first pass a label may still be unbound: then a zero stands in for its value, and
the statement is encoded again in the second pass, when every label that will
ever be bound is in the table. -/

namespace TwoPass

inductive Pass where
  | first
  | second
  deriving DecidableEq, Repr

structure Labels where
  table : SymbolTable
  origin : Address
  pass : Pass

namespace Labels

/-- The offset of a label; nothing if it is still to come. -/
def offset (labels : Labels) (name : String) : Except Problem (Option Nat) :=
  match labels.table.offset? name, labels.pass with
  | some offset, _ => .ok (some offset)
  | none, .first => .ok none
  | none, .second => .error (.unknownLabel name)

/-- Whether the value of a label has to wait for the second pass. -/
def defers (labels : Labels) (name : String) : Bool :=
  labels.pass == .first && (labels.table.offset? name).isNone

def address (labels : Labels) (name : String) : Except Problem Nat := do
  match ← labels.offset name with
  | none => return 0
  | some offset => return labels.origin.advance offset

/-- The distance from the instruction after the one at `pc` to a label, as a
field of that instruction. -/
def displacement (labels : Labels) (pc : Nat) (field : Field) (name : String) :
    Except Problem (BitVec field.width) := do
  match ← labels.offset name with
  | none => return 0
  | some target =>
    let distance := (target : Int) - ((pc : Int) + 1)
    match field.encode distance with
    | .ok bits => return bits
    | .error _ => .error (.labelOutOfRange name distance field)

end Labels

inductive Target (width : Nat) where
  | distance (bits : BitVec width)
  | label (name : String)
  deriving DecidableEq, Repr

namespace Target

/-- Read a displacement: a number, or else a label. -/
def parse (field : Field) (token : String) : Except Problem (Target field.width) :=
  if readsAsNumber token then
    Target.distance <$> Numeral.immediate field token
  else
    .ok (.label token)

def resolve (labels : Labels) (pc : Nat) (field : Field) :
    Target field.width → Except Problem (BitVec field.width)
  | .distance bits => .ok bits
  | .label name => labels.displacement pc field name

def label? : Target width → Option String
  | .distance _ => none
  | .label name => some name

end Target

/-- A whole word given by a number, or by a label that stands for its address. -/
inductive WordOperand where
  | number (bits : Word)
  | label (name : String)
  deriving DecidableEq, Repr

namespace WordOperand

def parse (token : String) : Except Problem WordOperand :=
  if readsAsNumber token then
    WordOperand.number <$> Numeral.immediate .word token
  else
    .ok (.label token)

/-- The value of a word, which for a label may need more than 16 bits. -/
def resolve (labels : Labels) : WordOperand → Except Problem Nat
  | .number bits => .ok bits.toNat
  | .label name => labels.address name

def label? : WordOperand → Option String
  | .number _ => none
  | .label name => some name

end WordOperand

end TwoPass
