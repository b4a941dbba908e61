import TwoPass.Operand.Target
import TwoPass.Word.Register

/-! # Compact instructions

Most instructions name low registers only; a few hold a flag beside the register
number and so name high registers too. Displacements are held in slots: `Target`
while labels may be unbound, `BitVec` once every field is known. -/

namespace TwoPass.Compact

inductive Shift where
  | left
  | right
  | arithmeticRight
  deriving DecidableEq, Repr

def Shift.code : Shift → BitVec 2
  | .left => 0b00
  | .right => 0b01
  | .arithmeticRight => 0b10

inductive Sum where
  | add
  | subtract
  deriving DecidableEq, Repr

def Sum.code : Sum → BitVec 1
  | .add => 0
  | .subtract => 1

/-- The operations between a low register and an eight-bit number. -/
inductive ByteOperation where
  | move
  | compare
  | add
  | subtract
  deriving DecidableEq, Repr

def ByteOperation.code : ByteOperation → BitVec 2
  | .move => 0b00
  | .compare => 0b01
  | .add => 0b10
  | .subtract => 0b11

/-- The operations between two low registers. -/
inductive AluOperation where
  | and | eor | lsl | lsr | asr | adc | sbc | ror
  | tst | neg | cmp | cmn | orr | mul | bic | mvn
  deriving DecidableEq, Repr

def AluOperation.code : AluOperation → BitVec 4
  | .and => 0x0 | .eor => 0x1 | .lsl => 0x2 | .lsr => 0x3
  | .asr => 0x4 | .adc => 0x5 | .sbc => 0x6 | .ror => 0x7
  | .tst => 0x8 | .neg => 0x9 | .cmp => 0xA | .cmn => 0xB
  | .orr => 0xC | .mul => 0xD | .bic => 0xE | .mvn => 0xF

/-- The operations that can name high registers. -/
inductive HighOperation where
  | add
  | compare
  | move
  deriving DecidableEq, Repr

def HighOperation.code : HighOperation → BitVec 2
  | .add => 0b00
  | .compare => 0b01
  | .move => 0b10

inductive Access where
  | store
  | load
  deriving DecidableEq, Repr

def Access.code : Access → BitVec 1
  | .store => 0
  | .load => 1

inductive Size where
  | word
  | byte
  deriving DecidableEq, Repr

def Size.code : Size → BitVec 1
  | .word => 0
  | .byte => 1

inductive AddressBase where
  | pc
  | sp
  deriving DecidableEq, Repr

def AddressBase.code : AddressBase → BitVec 1
  | .pc => 0
  | .sp => 1

inductive Condition where
  | eq | ne | cs | cc | mi | pl | vs | vc | hi | ls | ge | lt | gt | le
  deriving DecidableEq, Repr

def Condition.code : Condition → BitVec 4
  | .eq => 0x0 | .ne => 0x1 | .cs => 0x2 | .cc => 0x3
  | .mi => 0x4 | .pl => 0x5 | .vs => 0x6 | .vc => 0x7
  | .hi => 0x8 | .ls => 0x9 | .ge => 0xA | .lt => 0xB
  | .gt => 0xC | .le => 0xD

def bankCode : Bank → BitVec 1
  | .low => 0
  | .high => 1

inductive Instruction (slot : Nat → Type) where
  | shift (kind : Shift) (amount : BitVec 5) (rs rd : BitVec 3)
  | sumRegister (sum : Sum) (rn rs rd : BitVec 3)
  | sumImmediate (sum : Sum) (value : BitVec 3) (rs rd : BitVec 3)
  | byte (operation : ByteOperation) (rd : BitVec 3) (value : BitVec 8)
  | alu (operation : AluOperation) (rs rd : BitVec 3)
  | high (operation : HighOperation) (rs rd : Register)
  | branchExchange (rs : Register)
  | loadRelative (rd : BitVec 3) (target : slot 8)
  | registerOffset (access : Access) (size : Size) (ro rb rd : BitVec 3)
  | immediateOffset (size : Size) (access : Access) (offset : BitVec 5) (rb rd : BitVec 3)
  | halfword (access : Access) (offset : BitVec 5) (rb rd : BitVec 3)
  | stackOffset (access : Access) (rd : BitVec 3) (offset : BitVec 8)
  | baseAddress (base : AddressBase) (rd : BitVec 3) (offset : BitVec 8)
  | relativeAddress (rd : BitVec 3) (target : slot 8)
  | adjustStack (sum : Sum) (amount : BitVec 7)
  /-- Push or pop a set of low registers and, with `extra`, one high register. -/
  | stackList (access : Access) (extra : Bool) (registers : BitVec 8)
  | multiple (access : Access) (base : BitVec 3) (registers : BitVec 8)
  | branchIf (condition : Condition) (target : slot 8)
  | softwareInterrupt (number : BitVec 8)
  | branch (target : slot 11)
  | branchLink (target : slot 11)

def pcOffset8 : Field where
  width := 8
  signedness := .signed

def pcOffset11 : Field where
  width := 11
  signedness := .signed

namespace Instruction

def label? : Instruction Target → Option String
  | .loadRelative _ target => target.label?
  | .relativeAddress _ target => target.label?
  | .branchIf _ target => target.label?
  | .branch target => target.label?
  | .branchLink target => target.label?
  | _ => none

def resolve (labels : Labels) (pc : Nat) :
    Instruction Target → Except Problem (Instruction BitVec)
  | .shift kind amount rs rd => .ok (.shift kind amount rs rd)
  | .sumRegister sum rn rs rd => .ok (.sumRegister sum rn rs rd)
  | .sumImmediate sum value rs rd => .ok (.sumImmediate sum value rs rd)
  | .byte operation rd value => .ok (.byte operation rd value)
  | .alu operation rs rd => .ok (.alu operation rs rd)
  | .high operation rs rd => .ok (.high operation rs rd)
  | .branchExchange rs => .ok (.branchExchange rs)
  | .loadRelative rd target => .loadRelative rd <$> target.resolve labels pc pcOffset8
  | .registerOffset access size ro rb rd => .ok (.registerOffset access size ro rb rd)
  | .immediateOffset size access offset rb rd => .ok (.immediateOffset size access offset rb rd)
  | .halfword access offset rb rd => .ok (.halfword access offset rb rd)
  | .stackOffset access rd offset => .ok (.stackOffset access rd offset)
  | .baseAddress base rd offset => .ok (.baseAddress base rd offset)
  | .relativeAddress rd target => .relativeAddress rd <$> target.resolve labels pc pcOffset8
  | .adjustStack sum amount => .ok (.adjustStack sum amount)
  | .stackList access extra registers => .ok (.stackList access extra registers)
  | .multiple access base registers => .ok (.multiple access base registers)
  | .branchIf condition target => .branchIf condition <$> target.resolve labels pc pcOffset8
  | .softwareInterrupt number => .ok (.softwareInterrupt number)
  | .branch target => .branch <$> target.resolve labels pc pcOffset11
  | .branchLink target => .branchLink <$> target.resolve labels pc pcOffset11

def word : Instruction BitVec → Word
  | .shift kind amount rs rd => 0b000#3 ++ kind.code ++ amount ++ rs ++ rd
  | .sumRegister sum rn rs rd => 0b000110#6 ++ sum.code ++ rn ++ rs ++ rd
  | .sumImmediate sum value rs rd => 0b000111#6 ++ sum.code ++ value ++ rs ++ rd
  | .byte operation rd value => 0b001#3 ++ operation.code ++ rd ++ value
  | .alu operation rs rd => 0b010000#6 ++ operation.code ++ rs ++ rd
  | .high operation rs rd =>
    0b010001#6 ++ operation.code ++ bankCode rd.bank ++ bankCode rs.bank ++ rs.number ++ rd.number
  | .branchExchange rs => 0b01000111#8 ++ 0b0#1 ++ bankCode rs.bank ++ rs.number ++ 0b000#3
  | .loadRelative rd target => 0b01001#5 ++ rd ++ target
  | .registerOffset access size ro rb rd =>
    0b0101#4 ++ access.code ++ size.code ++ 0b0#1 ++ ro ++ rb ++ rd
  | .immediateOffset size access offset rb rd =>
    0b011#3 ++ size.code ++ access.code ++ offset ++ rb ++ rd
  | .halfword access offset rb rd => 0b1000#4 ++ access.code ++ offset ++ rb ++ rd
  | .stackOffset access rd offset => 0b1001#4 ++ access.code ++ rd ++ offset
  | .baseAddress base rd offset => 0b1010#4 ++ base.code ++ rd ++ offset
  | .relativeAddress rd target => 0b10100#5 ++ rd ++ target
  | .adjustStack sum amount => 0b10110000#8 ++ sum.code ++ amount
  | .stackList access extra registers =>
    0b1011#4 ++ access.code ++ 0b10#2 ++ BitVec.ofBool extra ++ registers
  | .multiple access base registers => 0b1100#4 ++ access.code ++ base ++ registers
  | .branchIf condition target => 0b1101#4 ++ condition.code ++ target
  | .softwareInterrupt number => 0b11011111#8 ++ number
  | .branch target => 0b11100#5 ++ target
  | .branchLink target => 0b11111#5 ++ target

example : (Instruction.high .move ⟨.high, 0⟩ ⟨.high, 0⟩).word = 0x46C0 := rfl
example : (Instruction.stackList .load true 0b00000101).word = 0xBD05 := rfl

end Instruction

end TwoPass.Compact
