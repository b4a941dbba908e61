import TwoPass.Baseline.Mnemonic
import TwoPass.Compact.Mnemonic

/-! # Instruction set profiles

The two instruction sets share everything but their instructions, the registers
they can name and the shape they require of a program. -/

namespace TwoPass

inductive Profile where
  /-- Eight registers; instructions and data may be mixed. -/
  | baseline
  /-- High registers; instructions and data are kept in separate sections. -/
  | compact
  deriving DecidableEq, Repr

/-- Whether the program is a user's own or supports other programs. -/
inductive Role where
  | primary
  | library
  deriving DecidableEq, Repr

structure Options where
  profile : Profile := .baseline
  role : Role := .primary
  deriving DecidableEq, Repr

namespace Profile

def name : Profile → String
  | .baseline => "baseline"
  | .compact => "compact"

def ofName? (name : String) : Option Profile :=
  [baseline, compact].find? (·.name == name)

def unknownMessage (name : String) : String :=
  s!"unknown instruction set profile '{name}'"

def registerFile : Profile → RegisterFile
  | .baseline => .eight
  | .compact => .sixteen

def sectioned : Profile → Bool
  | .baseline => false
  | .compact => true

def isMnemonic (profile : Profile) (token : String) : Bool :=
  match profile with
  | .baseline => (Baseline.mnemonics.lookup token).isSome
  | .compact => (Compact.mnemonics.lookup token).isSome

def isRegister (profile : Profile) (token : String) : Bool :=
  (Register.ofName? profile.registerFile token).isSome

end Profile

structure Encoding where
  /-- The words, some of which may need more than 16 bits. -/
  words : List Nat
  /-- Whether a zero stands in for a label that is still to be bound. -/
  deferred : Bool
  deriving DecidableEq, Repr

def Profile.encode (profile : Profile) (labels : Labels) (pc : Nat) (mnemonic : String)
    (operands : List String) : Except Problem Encoding := do
  match profile with
  | .baseline =>
    let instruction ← Baseline.parse mnemonic operands
    let resolved ← instruction.resolve labels pc
    return ⟨[resolved.word.toNat], instruction.label?.any labels.defers⟩
  | .compact =>
    let instruction ← Compact.parse mnemonic operands
    let resolved ← instruction.resolve labels pc
    return ⟨[resolved.word.toNat], instruction.label?.any labels.defers⟩

/-- A line that a user's program must have right after its origin. -/
inductive OpeningLine where
  | openText
  | declareEntry
  /-- The entry point is defined, perhaps with a statement after it. -/
  | defineEntry
  deriving DecidableEq, Repr

namespace OpeningLine

def spelling : OpeningLine → String
  | .openText => ".text"
  | .declareEntry => ".global _start"
  | .defineEntry => "_start:"

def accepts (required : OpeningLine) (line : List Char) (tokens : List String) : Bool :=
  match required with
  | .openText => tokens == [".text"]
  | .declareEntry => tokens == [".global", "_start"]
  | .defineEntry =>
    match "_start".toList.isPrefixOf? line with
    | some rest => (trimStart rest).head? == some ':'
    | none => false

end OpeningLine

def Options.prologue (options : Options) : List OpeningLine :=
  match options.profile, options.role with
  | .compact, .primary => [.openText, .declareEntry, .defineEntry]
  | _, _ => []

end TwoPass
