import TwoPass.Compact.Instruction
import TwoPass.Compact.RegisterList

/-! # Compact mnemonics and their operands

Several mnemonics have more than one encoding, and the operands decide which one
is used. Operands are read in a fixed order, which decides what is reported when
several of them are wrong. -/

namespace TwoPass.Compact

inductive Extent where
  | word
  | byte
  | halfword
  deriving DecidableEq, Repr

inductive Form where
  /-- `rd, rs, #imm5`, or `rd, rs` for a shift by a register -/
  | shift (kind : Shift) (byRegister : AluOperation)
  | add
  | subtract
  | move
  | compare
  /-- `rd, rs` -/
  | alu (operation : AluOperation)
  | branchExchange
  /-- `rd, [base, offset]` or `rd, displacement` -/
  | memory (access : Access) (extent : Extent)
  /-- A register list in which one high register may appear. -/
  | stackList (access : Access) (extra : Register)
  /-- `rb!` and a register list -/
  | multiple (access : Access)
  | branchIf (condition : Condition)
  | softwareInterrupt
  | branch
  | branchLink
  /-- `rd, displacement` -/
  | address
  /-- A move of a high register to itself. -/
  | noOperation
  deriving DecidableEq, Repr

def mnemonics : List (String × Form) :=
  [("lsl", .shift .left .lsl), ("lsr", .shift .right .lsr), ("asr", .shift .arithmeticRight .asr),
   ("add", .add), ("sub", .subtract), ("mov", .move), ("cmp", .compare),
   ("and", .alu .and), ("eor", .alu .eor), ("adc", .alu .adc), ("sbc", .alu .sbc),
   ("ror", .alu .ror), ("tst", .alu .tst), ("neg", .alu .neg), ("cmn", .alu .cmn),
   ("orr", .alu .orr), ("mul", .alu .mul), ("bic", .alu .bic), ("mvn", .alu .mvn),
   ("bx", .branchExchange),
   ("ldr", .memory .load .word), ("str", .memory .store .word),
   ("ldrb", .memory .load .byte), ("strb", .memory .store .byte),
   ("ldrh", .memory .load .halfword), ("strh", .memory .store .halfword),
   ("push", .stackList .store .lr), ("pop", .stackList .load .pc),
   ("stmia", .multiple .store), ("ldmia", .multiple .load),
   ("beq", .branchIf .eq), ("bne", .branchIf .ne), ("bcs", .branchIf .cs), ("bhs", .branchIf .cs),
   ("bcc", .branchIf .cc), ("blo", .branchIf .cc), ("bmi", .branchIf .mi), ("bpl", .branchIf .pl),
   ("bvs", .branchIf .vs), ("bvc", .branchIf .vc), ("bhi", .branchIf .hi), ("bls", .branchIf .ls),
   ("bge", .branchIf .ge), ("blt", .branchIf .lt), ("bgt", .branchIf .gt), ("ble", .branchIf .le),
   ("swi", .softwareInterrupt), ("b", .branch), ("bl", .branchLink), ("adr", .address),
   ("nop", .noOperation)]

def Form.arity : Form → Arity
  | .shift _ _ | .add | .subtract | .memory _ _ => .between 2 3
  | .move | .compare | .alu _ | .address => .exactly 2
  | .branchExchange | .branchIf _ | .softwareInterrupt | .branch | .branchLink => .exactly 1
  | .stackList _ _ => .between 1 9
  | .multiple _ => .between 2 9
  | .noOperation => .exactly 0

def immediate3 : Field where
  width := 3
  signedness := .unsigned

def immediate5 : Field where
  width := 5
  signedness := .unsigned

def immediate7 : Field where
  width := 7
  signedness := .unsigned

def immediate8 : Field where
  width := 8
  signedness := .unsigned

/-! ## Registers -/

/-- Whether a token is taken for a register, even one that does not exist. -/
def namesRegister (token : String) : Bool :=
  match Shape.of? token with
  | some .lowRegister | some .highRegister => true
  | some .name => (Register.aliases.lookup token).isSome
  | _ => false

def eitherBank (token : String) : Except Problem Register :=
  Register.parse .sixteen token

def lowNumber (register : Register) (token : String) : Except Problem (BitVec 3) :=
  match register.bank with
  | .low => .ok register.number
  | .high => .error (.malformedOperand token "a low register (r0 to r7)")

def lowRegister (token : String) : Except Problem (BitVec 3) := do
  lowNumber (← eitherBank token) token

/-! ## Arithmetic -/

/-- Read `rd, rs, rn` or `rd, rs, #imm3`. -/
def parseSum (sum : Sum) (rd rs last : String) : Except Problem (Instruction Target) := do
  let rs ← lowRegister rs
  let rd ← lowRegister rd
  if namesRegister last then
    return .sumRegister sum (← lowRegister last) rs rd
  else
    return .sumImmediate sum (← Numeral.immediate immediate3 last) rs rd

/-- Read `rd, #imm8`. -/
def parseByte (operation : ByteOperation) (rd value : String) :
    Except Problem (Instruction Target) := do
  let rd ← lowRegister rd
  let value ← Numeral.immediate immediate8 value
  return .byte operation rd value

/-- Read `rd, rs`, which is a high form if either register is high and `ofLow`
otherwise. -/
def parsePair (operation : HighOperation) (ofLow : BitVec 3 → BitVec 3 → Instruction Target)
    (rd rs : String) : Except Problem (Instruction Target) := do
  let rd ← eitherBank rd
  let rs ← eitherBank rs
  if rd.isHigh || rs.isHigh then
    return .high operation rs rd
  else
    return ofLow rd.number rs.number

/-- Read `rd, base, #imm8` with the base spelled by its alias. -/
def parseBaseAddress (base : AddressBase) (rd offset : String) :
    Except Problem (Instruction Target) := do
  let rd ← lowRegister rd
  let offset ← Numeral.immediate immediate8 offset
  return .baseAddress base rd offset

def parseAddThree (rd rs last : String) : Except Problem (Instruction Target) :=
  if rs = "sp" then
    parseBaseAddress .sp rd last
  else if rs = "pc" then
    parseBaseAddress .pc rd last
  else
    parseSum .add rd rs last

def parseAdd (rd source : String) : Except Problem (Instruction Target) :=
  if namesRegister source then
    parsePair .add (fun rd rs => .sumRegister .add rs rd rd) rd source
  else if rd = "sp" then
    .adjustStack .add <$> Numeral.immediate immediate7 source
  else
    parseByte .add rd source

def parseSubtract (rd source : String) : Except Problem (Instruction Target) :=
  if rd = "sp" then
    .adjustStack .subtract <$> Numeral.immediate immediate7 source
  else if namesRegister source then do
    let rd ← lowRegister rd
    let rs ← lowRegister source
    return .sumRegister .subtract rs rd rd
  else
    parseByte .subtract rd source

/-- Read the operands of `mov`. Between low registers it adds zero. -/
def parseMove (rd source : String) : Except Problem (Instruction Target) :=
  if namesRegister source then
    parsePair .move (fun rd rs => .sumImmediate .add 0 rs rd) rd source
  else
    parseByte .move rd source

def parseCompare (rd source : String) : Except Problem (Instruction Target) :=
  if namesRegister source then
    parsePair .compare (fun rd rs => .alu .cmp rs rd) rd source
  else
    parseByte .compare rd source

/-! ## Memory -/

/-- The encodings that a load or store has. Each has one with a low base register
and a number. -/
structure AddressForms where
  immediate : (offset : BitVec 5) → (rb rd : BitVec 3) → Instruction Target
  register : Option ((ro rb rd : BitVec 3) → Instruction Target)
  stack : Option ((rd : BitVec 3) → (offset : BitVec 8) → Instruction Target)
  relative : Option ((rd : BitVec 3) → Target 8 → Instruction Target)

def addressForms (access : Access) : Extent → AddressForms
  | .word =>
    { immediate := .immediateOffset .word access
      register := some (.registerOffset access .word)
      stack := some (.stackOffset access)
      relative :=
        match access with
        | .load => some .loadRelative
        | .store => none }
  | .byte =>
    { immediate := .immediateOffset .byte access
      register := some (.registerOffset access .byte)
      stack := none
      relative := none }
  | .halfword =>
    { immediate := .halfword access
      register := none
      stack := none
      relative := none }

def requireForm (form : Option α) (token : String) : Except Problem α :=
  match form with
  | some form => .ok form
  | none => .error (.malformedOperand token "an addressing form this instruction supports")

def parseBased (forms : AddressForms) (rd : BitVec 3) (baseToken offset : String) :
    Except Problem (Instruction Target) := do
  let base ← eitherBank baseToken
  if base = .sp then
    let form ← requireForm forms.stack baseToken
    return form rd (← Numeral.immediate immediate8 offset)
  else if base = .pc then
    let form ← requireForm forms.relative baseToken
    return form rd (← Target.parse pcOffset8 offset)
  else if namesRegister offset then
    let form ← requireForm forms.register offset
    let ro ← lowRegister offset
    let rb ← lowNumber base baseToken
    return form ro rb rd
  else
    let offset ← Numeral.immediate immediate5 offset
    let rb ← lowNumber base baseToken
    return forms.immediate offset rb rd

/-- Read a memory operand in brackets. A missing offset is zero. -/
def parseBracketed (forms : AddressForms) (rd : BitVec 3) (operands : List String) :
    Except Problem (Instruction Target) :=
  match enclosed? '[' ']' operands with
  | some [base] => parseBased forms rd base "#0"
  | some [base, offset] => parseBased forms rd base offset
  | _ =>
    .error (.malformedOperand (", ".intercalate operands)
      "a memory operand such as [r1, #4] or [r1, r2]")

def parseMemory (forms : AddressForms) (rd : String) (operands : List String) :
    Except Problem (Instruction Target) := do
  let rd ← lowRegister rd
  match operands with
  | [target] =>
    if startsWith '[' target then
      parseBracketed forms rd operands
    else
      let form ← requireForm forms.relative target
      return form rd (← Target.parse pcOffset8 target)
  | _ => parseBracketed forms rd operands

/-- Read a base register with write-back, such as `r0!`. -/
def parseWriteBack (token : String) : Except Problem (BitVec 3) :=
  if token.toList.getLast? = some '!' then
    lowRegister (String.ofList token.toList.dropLast)
  else
    .error (.malformedOperand token "a base register with write-back, such as r0!")

/-! ## Instructions -/

def Form.parse (form : Form) (mnemonic : String) (operands : List String) :
    Except Problem (Instruction Target) :=
  match form, operands with
  | .shift kind _, [rd, rs, amount] => do
    let amount ← Numeral.immediate immediate5 amount
    let rs ← lowRegister rs
    let rd ← lowRegister rd
    return .shift kind amount rs rd
  | .shift _ operation, [rd, rs] | .alu operation, [rd, rs] => do
    let rs ← lowRegister rs
    let rd ← lowRegister rd
    return .alu operation rs rd
  | .add, [rd, rs, last] => parseAddThree rd rs last
  | .add, [rd, source] => parseAdd rd source
  | .subtract, [rd, rs, last] => parseSum .subtract rd rs last
  | .subtract, [rd, source] => parseSubtract rd source
  | .move, [rd, source] => parseMove rd source
  | .compare, [rd, source] => parseCompare rd source
  | .branchExchange, [rs] => .branchExchange <$> eitherBank rs
  | .memory access extent, rd :: operands => parseMemory (addressForms access extent) rd operands
  | .stackList access extra, operands => do
    let registers ← RegisterList.parse (some extra) operands
    return .stackList access registers.extra registers.low
  | .multiple access, base :: operands => do
    let base ← parseWriteBack base
    let registers ← RegisterList.parse none operands
    return .multiple access base registers.low
  | .branchIf condition, [target] => .branchIf condition <$> Target.parse pcOffset8 target
  | .softwareInterrupt, [number] => .softwareInterrupt <$> Numeral.immediate immediate8 number
  | .branch, [target] => .branch <$> Target.parse pcOffset11 target
  | .branchLink, [target] => .branchLink <$> Target.parse pcOffset11 target
  | .address, [rd, target] => do
    let rd ← lowRegister rd
    let target ← Target.parse pcOffset8 target
    return .relativeAddress rd target
  | .noOperation, [] => .ok (.high .move ⟨.high, 0⟩ ⟨.high, 0⟩)
  | form, operands => .error (.operandCount mnemonic form.arity operands.length)

def parse (mnemonic : String) (operands : List String) : Except Problem (Instruction Target) := do
  match mnemonics.lookup mnemonic with
  | none => .error (.unknownMnemonic mnemonic)
  | some form =>
    form.arity.check mnemonic operands
    form.parse mnemonic operands

end TwoPass.Compact
