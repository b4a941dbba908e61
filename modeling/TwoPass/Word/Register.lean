/-! # Registers

Eight low registers serve every instruction. Eight high registers live in a
bank of their own, because an instruction only ever holds three bits of register
number and, in a few forms, a separate flag for the bank. -/

namespace TwoPass

inductive Bank where
  | low
  | high
  deriving DecidableEq, Repr

structure Register where
  bank : Bank
  number : BitVec 3
  deriving DecidableEq, Repr

namespace Register

def ofNumber? (bank : Bank) (number : Nat) : Option Register :=
  if bound : number < 8 then
    some ⟨bank, BitVec.ofNatLT number bound⟩
  else
    none

def isHigh (register : Register) : Bool :=
  register.bank == .high

/-- The stack pointer. -/
def sp : Register := ⟨.high, 5⟩

/-- The link register, which holds a return address. -/
def lr : Register := ⟨.high, 6⟩

/-- The program counter. -/
def pc : Register := ⟨.high, 7⟩

/-- The three high registers that have a name besides their number. -/
def aliases : List (String × Register) :=
  [("sp", sp), ("lr", lr), ("pc", pc)]

def name (register : Register) : String :=
  match register.bank with
  | .low => s!"r{register.number.toNat}"
  | .high => s!"h{register.number.toNat}"

def alias? (register : Register) : Option String :=
  (aliases.find? fun entry => entry.2 == register).map (·.1)

example : (ofNumber? .high 5).bind alias? = some "sp" := rfl
example : ofNumber? .low 8 = none := rfl

end Register

end TwoPass
