import TwoPass.Compact.Instruction

/-! # The fields of a compact word

The top bits of a word tell its layout, and the layout tells where its registers and
its number stand. No layout is taken for another, so an instruction is read back from
its word, field by field. -/

namespace TwoPass.Compact

/-! ## Codes -/

/-- Things that a word tells apart by a code of a few bits, with the table that the code is
read by. -/
class Coded (α : Type) (width : outParam Nat) where
  code : α → BitVec width
  table : List (BitVec width × α)
  lookup_code : ∀ value, table.lookup (code value) = some value

def Coded.ofCode? [Coded α width] (bits : BitVec width) : Option α :=
  (table : List (BitVec width × α)).lookup bits

theorem Coded.ofCode?_code [Coded α width] (value : α) : ofCode? (code value) = some value :=
  lookup_code value

instance : Coded Shift 2 where
  code := Shift.code
  table := [(0b00, .left), (0b01, .right), (0b10, .arithmeticRight)]
  lookup_code value := by cases value <;> rfl

instance : Coded Sum 1 where
  code := Sum.code
  table := [(0, .add), (1, .subtract)]
  lookup_code value := by cases value <;> rfl

instance : Coded ByteOperation 2 where
  code := ByteOperation.code
  table := [(0b00, .move), (0b01, .compare), (0b10, .add), (0b11, .subtract)]
  lookup_code value := by cases value <;> rfl

instance : Coded AluOperation 4 where
  code := AluOperation.code
  table := [(0x0, .and), (0x1, .eor), (0x2, .lsl), (0x3, .lsr), (0x4, .asr), (0x5, .adc),
    (0x6, .sbc), (0x7, .ror), (0x8, .tst), (0x9, .neg), (0xA, .cmp), (0xB, .cmn),
    (0xC, .orr), (0xD, .mul), (0xE, .bic), (0xF, .mvn)]
  lookup_code value := by cases value <;> rfl

instance : Coded HighOperation 2 where
  code := HighOperation.code
  table := [(0b00, .add), (0b01, .compare), (0b10, .move)]
  lookup_code value := by cases value <;> rfl

instance : Coded Access 1 where
  code := Access.code
  table := [(0, .store), (1, .load)]
  lookup_code value := by cases value <;> rfl

instance : Coded Size 1 where
  code := Size.code
  table := [(0, .word), (1, .byte)]
  lookup_code value := by cases value <;> rfl

instance : Coded AddressBase 1 where
  code := AddressBase.code
  table := [(0, .pc), (1, .sp)]
  lookup_code value := by cases value <;> rfl

instance : Coded Condition 4 where
  code := Condition.code
  table := [(0x0, .eq), (0x1, .ne), (0x2, .cs), (0x3, .cc), (0x4, .mi), (0x5, .pl),
    (0x6, .vs), (0x7, .vc), (0x8, .hi), (0x9, .ls), (0xA, .ge), (0xB, .lt), (0xC, .gt),
    (0xD, .le)]
  lookup_code value := by cases value <;> rfl

instance : Coded Bank 1 where
  code := bankCode
  table := [(0, .low), (1, .high)]
  lookup_code value := by cases value <;> rfl

instance : Coded Bool 1 where
  code := BitVec.ofBool
  table := [(0, false), (1, true)]
  lookup_code value := by cases value <;> rfl

/-! ## Layouts -/

/-- Shifts by a number and sums of low registers. -/
def decodeSum (word : Word) : Option (Instruction BitVec) :=
  let rs := word.extractLsb' 3 3
  let rd := word.extractLsb' 0 3
  match (Coded.ofCode? (word.extractLsb' 11 2) : Option Shift) with
  | some kind => some (.shift kind (word.extractLsb' 6 5) rs rd)
  | none => do
    let sum ← Coded.ofCode? (word.extractLsb' 9 1)
    if word.extractLsb' 10 1 = 0 then
      return .sumRegister sum (word.extractLsb' 6 3) rs rd
    else
      return .sumImmediate sum (word.extractLsb' 6 3) rs rd

def decodeByte (word : Word) : Option (Instruction BitVec) := do
  return .byte (← Coded.ofCode? (word.extractLsb' 11 2)) (word.extractLsb' 8 3)
    (word.extractLsb' 0 8)

def decodeHigh (word : Word) : Option (Instruction BitVec) := do
  let rs : Register := ⟨← Coded.ofCode? (word.extractLsb' 6 1), word.extractLsb' 3 3⟩
  let rd : Register := ⟨← Coded.ofCode? (word.extractLsb' 7 1), word.extractLsb' 0 3⟩
  match (Coded.ofCode? (word.extractLsb' 8 2) : Option HighOperation) with
  | some operation => return .high operation rs rd
  | none => if rd = ⟨.low, 0⟩ then return .branchExchange rs else none

/-- The operations between registers, and loads that add to a register. -/
def decodeOperate (word : Word) : Option (Instruction BitVec) :=
  let rs := word.extractLsb' 3 3
  let rd := word.extractLsb' 0 3
  if word.extractLsb' 12 1 = 1 then
    if word.extractLsb' 9 1 = 0 then do
      let access ← Coded.ofCode? (word.extractLsb' 11 1)
      let size ← Coded.ofCode? (word.extractLsb' 10 1)
      return .registerOffset access size (word.extractLsb' 6 3) rs rd
    else
      none
  else if word.extractLsb' 11 1 = 1 then
    some (.loadRelative (word.extractLsb' 8 3) (word.extractLsb' 0 8))
  else if word.extractLsb' 10 1 = 1 then
    decodeHigh word
  else do
    return .alu (← Coded.ofCode? (word.extractLsb' 6 4)) rs rd

def decodeImmediateOffset (word : Word) : Option (Instruction BitVec) := do
  let size ← Coded.ofCode? (word.extractLsb' 12 1)
  let access ← Coded.ofCode? (word.extractLsb' 11 1)
  return .immediateOffset size access (word.extractLsb' 6 5) (word.extractLsb' 3 3)
    (word.extractLsb' 0 3)

def decodeHalfword (word : Word) : Option (Instruction BitVec) := do
  let access ← Coded.ofCode? (word.extractLsb' 11 1)
  if word.extractLsb' 12 1 = 0 then
    return .halfword access (word.extractLsb' 6 5) (word.extractLsb' 3 3) (word.extractLsb' 0 3)
  else
    return .stackOffset access (word.extractLsb' 8 3) (word.extractLsb' 0 8)

/-- Addresses that are formed from a base, and changes to the stack. -/
def decodeStack (word : Word) : Option (Instruction BitVec) :=
  if word.extractLsb' 12 1 = 0 then do
    return .baseAddress (← Coded.ofCode? (word.extractLsb' 11 1)) (word.extractLsb' 8 3)
      (word.extractLsb' 0 8)
  else if word.extractLsb' 9 2 = 0b10 then do
    let access ← Coded.ofCode? (word.extractLsb' 11 1)
    return .stackList access (← Coded.ofCode? (word.extractLsb' 8 1)) (word.extractLsb' 0 8)
  else if word.extractLsb' 8 4 = 0b0000 then do
    return .adjustStack (← Coded.ofCode? (word.extractLsb' 7 1)) (word.extractLsb' 0 7)
  else
    none

/-- Loads and stores of several registers, and branches on a condition. -/
def decodeMultiple (word : Word) : Option (Instruction BitVec) :=
  let low := word.extractLsb' 0 8
  if word.extractLsb' 12 1 = 0 then do
    return .multiple (← Coded.ofCode? (word.extractLsb' 11 1)) (word.extractLsb' 8 3) low
  else
    match (Coded.ofCode? (word.extractLsb' 8 4) : Option Condition) with
    | some condition => some (.branchIf condition low)
    | none => if word.extractLsb' 8 4 = 0b1111 then some (.softwareInterrupt low) else none

def decodeBranch (word : Word) : Option (Instruction BitVec) :=
  if word.extractLsb' 11 2 = 0b00 then
    some (.branch (word.extractLsb' 0 11))
  else if word.extractLsb' 11 2 = 0b11 then
    some (.branchLink (word.extractLsb' 0 11))
  else
    none

def decode (word : Word) : Option (Instruction BitVec) :=
  match (word.extractLsb' 13 3).toNat with
  | 0b000 => decodeSum word
  | 0b001 => decodeByte word
  | 0b010 => decodeOperate word
  | 0b011 => decodeImmediateOffset word
  | 0b100 => decodeHalfword word
  | 0b101 => decodeStack word
  | 0b110 => decodeMultiple word
  | 0b111 => decodeBranch word
  | _ => none

/-- The instruction that stands for all those with the same word: an address relative
to the program counter has the layout of one that is formed from it. -/
def Instruction.canonical : Instruction BitVec → Instruction BitVec
  | .relativeAddress rd target => .baseAddress .pc rd target
  | instruction => instruction

theorem Instruction.word_canonical (instruction : Instruction BitVec) :
    instruction.canonical.word = instruction.word := by
  cases instruction <;> rfl

def Instruction.top : Instruction BitVec → BitVec 3
  | .shift .. | .sumRegister .. | .sumImmediate .. => 0b000
  | .byte .. => 0b001
  | .alu .. | .high .. | .branchExchange .. | .loadRelative .. | .registerOffset .. => 0b010
  | .immediateOffset .. => 0b011
  | .halfword .. | .stackOffset .. => 0b100
  | .baseAddress .. | .relativeAddress .. | .adjustStack .. | .stackList .. => 0b101
  | .multiple .. | .branchIf .. | .softwareInterrupt .. => 0b110
  | .branch .. | .branchLink .. => 0b111

theorem Instruction.top_of_word (instruction : Instruction BitVec) :
    instruction.word.extractLsb' 13 3 = instruction.top := by
  cases instruction <;>
    simp (disch := decide) only [word, BitVec.extractLsb'_append_eq_of_le,
      BitVec.extractLsb'_eq_self, Nat.reduceSub] <;> rfl

theorem decode_word (instruction : Instruction BitVec) :
    decode instruction.word = some instruction.canonical := by
  rw [decode, instruction.top_of_word]
  -- First every field is cut out of the word. Then only the codes are left to look up.
  cases instruction <;>
    simp (disch := decide) only [Instruction.top, BitVec.reduceToNat, decodeSum, decodeByte,
      decodeOperate, decodeHigh, decodeImmediateOffset, decodeHalfword, decodeStack,
      decodeMultiple, decodeBranch, Instruction.word, BitVec.extractLsb'_append_eq_of_le,
      BitVec.extractLsb'_append_eq_of_add_le, BitVec.extractLsb'_eq_self, Nat.reduceSub]
  case shift kind _ _ _ =>
    have known : Coded.ofCode? kind.code = some kind := Coded.ofCode?_code kind
    rw [known]
    rfl
  case sumRegister sum _ _ _ =>
    have known : Coded.ofCode? sum.code = some sum := Coded.ofCode?_code sum
    rw [known]
    rfl
  case sumImmediate sum _ _ _ =>
    have known : Coded.ofCode? sum.code = some sum := Coded.ofCode?_code sum
    rw [known]
    rfl
  case byte operation _ _ =>
    have known : Coded.ofCode? operation.code = some operation := Coded.ofCode?_code operation
    rw [known]
    rfl
  case alu operation _ _ =>
    have known : Coded.ofCode? operation.code = some operation := Coded.ofCode?_code operation
    rw [known]
    rfl
  case high operation rs rd =>
    have source : Coded.ofCode? (bankCode rs.bank) = some rs.bank := Coded.ofCode?_code rs.bank
    have destination : Coded.ofCode? (bankCode rd.bank) = some rd.bank := Coded.ofCode?_code rd.bank
    have known : Coded.ofCode? operation.code = some operation := Coded.ofCode?_code operation
    rw [source, destination, known]
    rfl
  case branchExchange rs =>
    have source : Coded.ofCode? (bankCode rs.bank) = some rs.bank := Coded.ofCode?_code rs.bank
    rw [source]
    rfl
  case registerOffset access size _ _ _ =>
    have direction : Coded.ofCode? access.code = some access := Coded.ofCode?_code access
    have extent : Coded.ofCode? size.code = some size := Coded.ofCode?_code size
    rw [direction, extent]
    rfl
  case immediateOffset size access _ _ _ =>
    have extent : Coded.ofCode? size.code = some size := Coded.ofCode?_code size
    have direction : Coded.ofCode? access.code = some access := Coded.ofCode?_code access
    rw [extent, direction]
    rfl
  case halfword access _ _ _ =>
    have direction : Coded.ofCode? access.code = some access := Coded.ofCode?_code access
    rw [direction]
    rfl
  case stackOffset access _ _ =>
    have direction : Coded.ofCode? access.code = some access := Coded.ofCode?_code access
    rw [direction]
    rfl
  case baseAddress base _ _ =>
    have known : Coded.ofCode? base.code = some base := Coded.ofCode?_code base
    rw [known]
    rfl
  case adjustStack sum _ =>
    have known : Coded.ofCode? sum.code = some sum := Coded.ofCode?_code sum
    rw [known]
    rfl
  case stackList access extra _ =>
    have direction : Coded.ofCode? access.code = some access := Coded.ofCode?_code access
    have more : Coded.ofCode? (BitVec.ofBool extra) = some extra := Coded.ofCode?_code extra
    rw [direction, more]
    rfl
  case multiple access _ _ =>
    have direction : Coded.ofCode? access.code = some access := Coded.ofCode?_code access
    rw [direction]
    rfl
  case branchIf condition _ =>
    have known : Coded.ofCode? condition.code = some condition := Coded.ofCode?_code condition
    rw [known]
    rfl
  case loadRelative | relativeAddress | softwareInterrupt | branch | branchLink => rfl

end TwoPass.Compact
