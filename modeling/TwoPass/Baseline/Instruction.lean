import TwoPass.Operand.Target

/-! # Baseline instructions

Eight registers, and a four-bit operation code at the top of each word.
Displacements are held in slots: `Target` while labels may be unbound, `BitVec`
once every field is known. -/

namespace TwoPass.Baseline

inductive Operation where
  | add
  | and
  deriving DecidableEq, Repr

def Operation.code : Operation → BitVec 4
  | .add => 0x1
  | .and => 0x5

/-- The last operand of `add` and `and`. -/
inductive Source where
  | register (register : BitVec 3)
  | immediate (value : BitVec 5)
  deriving DecidableEq, Repr

/-- The instructions that name a register and a place relative to the program
counter. -/
inductive DirectAccess where
  | load
  | loadIndirect
  | loadAddress
  | store
  | storeIndirect
  deriving DecidableEq, Repr

def DirectAccess.code : DirectAccess → BitVec 4
  | .load => 0x2
  | .loadIndirect => 0xA
  | .loadAddress => 0xE
  | .store => 0x3
  | .storeIndirect => 0xB

/-- The instructions that name a register and a place relative to another
register. -/
inductive BasedAccess where
  | load
  | store
  deriving DecidableEq, Repr

def BasedAccess.code : BasedAccess → BitVec 4
  | .load => 0x6
  | .store => 0x7

inductive Instruction (slot : Nat → Type) where
  | operate (operation : Operation) (rd rs : BitVec 3) (source : Source)
  | not (rd rs : BitVec 3)
  /-- A branch taken on the given flags, from the left negative, zero, positive. -/
  | branch (flags : BitVec 3) (target : slot 9)
  | jump (base : BitVec 3)
  | call (target : slot 11)
  | callRegister (base : BitVec 3)
  | direct (access : DirectAccess) (register : BitVec 3) (target : slot 9)
  | based (access : BasedAccess) (register base : BitVec 3) (offset : BitVec 6)
  | trap (vector : BitVec 8)
  | interruptReturn

def pcOffset9 : Field where
  width := 9
  signedness := .signed

def pcOffset11 : Field where
  width := 11
  signedness := .signed

namespace Instruction

def label? : Instruction Target → Option String
  | .branch _ target => target.label?
  | .call target => target.label?
  | .direct _ _ target => target.label?
  | _ => none

def resolve (labels : Labels) (pc : Nat) :
    Instruction Target → Except Problem (Instruction BitVec)
  | .operate operation rd rs source => .ok (.operate operation rd rs source)
  | .not rd rs => .ok (.not rd rs)
  | .branch flags target => .branch flags <$> target.resolve labels pc pcOffset9
  | .jump base => .ok (.jump base)
  | .call target => .call <$> target.resolve labels pc pcOffset11
  | .callRegister base => .ok (.callRegister base)
  | .direct access register target =>
    .direct access register <$> target.resolve labels pc pcOffset9
  | .based access register base offset => .ok (.based access register base offset)
  | .trap vector => .ok (.trap vector)
  | .interruptReturn => .ok .interruptReturn

/-- The word for an instruction, its fields from the most significant down. -/
def word : Instruction BitVec → Word
  | .operate operation rd rs (.register rt) => operation.code ++ rd ++ rs ++ 0b000#3 ++ rt
  | .operate operation rd rs (.immediate value) => operation.code ++ rd ++ rs ++ 0b1#1 ++ value
  | .not rd rs => 0x9#4 ++ rd ++ rs ++ 0b111111#6
  | .branch flags target => 0x0#4 ++ flags ++ target
  | .jump base => 0xC#4 ++ 0b000#3 ++ base ++ 0b000000#6
  | .call target => 0x4#4 ++ 0b1#1 ++ target
  | .callRegister base => 0x4#4 ++ 0b000#3 ++ base ++ 0b000000#6
  | .direct access register target => access.code ++ register ++ target
  | .based access register base offset => access.code ++ register ++ base ++ offset
  | .trap vector => 0xF#4 ++ 0x0#4 ++ vector
  | .interruptReturn => 0x8#4 ++ 0x000#12

example : (Instruction.operate .add 0 1 (.register 2)).word = 0x1042 := rfl
example : (Instruction.jump 7).word = 0xC1C0 := rfl

end Instruction

end TwoPass.Baseline
