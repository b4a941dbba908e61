import TwoPass.Baseline.Instruction
import TwoPass.Operand.RegisterName

/-! # Baseline mnemonics and their operands

Operands are read in a fixed order, which decides what is reported when several
of them are wrong. -/

namespace TwoPass.Baseline

/-- What a mnemonic expects after it. -/
inductive Form where
  /-- `rd, rs, rt` or `rd, rs, #imm5` -/
  | operate (operation : Operation)
  /-- `rd, rs` -/
  | not
  | branch (flags : BitVec 3)
  | jump
  | call
  | callRegister
  /-- `r, displacement` -/
  | direct (access : DirectAccess)
  /-- `r, base, #offset6` -/
  | based (access : BasedAccess)
  | trap
  /-- A trap with a name of its own. -/
  | service (vector : BitVec 8)
  /-- A jump to the return address in `r7`. -/
  | subroutineReturn
  | interruptReturn
  deriving DecidableEq, Repr

def mnemonics : List (String × Form) :=
  [("add", .operate .add), ("and", .operate .and), ("not", .not),
   ("br", .branch 0b111), ("brn", .branch 0b100), ("brz", .branch 0b010),
   ("brp", .branch 0b001), ("brnz", .branch 0b110), ("brnp", .branch 0b101),
   ("brzp", .branch 0b011), ("brnzp", .branch 0b111),
   ("jmp", .jump), ("ret", .subroutineReturn), ("jsr", .call), ("jsrr", .callRegister),
   ("ld", .direct .load), ("ldi", .direct .loadIndirect), ("lea", .direct .loadAddress),
   ("st", .direct .store), ("sti", .direct .storeIndirect),
   ("ldr", .based .load), ("str", .based .store),
   ("trap", .trap), ("rti", .interruptReturn),
   ("getc", .service 0x20), ("out", .service 0x21), ("puts", .service 0x22),
   ("in", .service 0x23), ("putsp", .service 0x24), ("halt", .service 0x25)]

def Form.arity : Form → Arity
  | .operate _ | .based _ => .exactly 3
  | .not | .direct _ => .exactly 2
  | .branch _ | .jump | .call | .callRegister | .trap => .exactly 1
  | .service _ | .subroutineReturn | .interruptReturn => .exactly 0

def immediate5 : Field where
  width := 5
  signedness := .signed

def offset6 : Field where
  width := 6
  signedness := .signed

def trapVector : Field where
  width := 8
  signedness := .unsigned

def registerNumber (token : String) : Except Problem (BitVec 3) :=
  Register.number <$> Register.parse .eight token

def Source.parse (token : String) : Except Problem Source :=
  if Shape.of? token = some .lowRegister then
    Source.register <$> registerNumber token
  else
    Source.immediate <$> Numeral.immediate immediate5 token

def Form.parse (form : Form) (mnemonic : String) (operands : List String) :
    Except Problem (Instruction Target) :=
  match form, operands with
  | .operate operation, [rd, rs, last] => do
    let source ← Source.parse last
    let rd ← registerNumber rd
    let rs ← registerNumber rs
    return .operate operation rd rs source
  | .not, [rd, rs] => do
    let rd ← registerNumber rd
    let rs ← registerNumber rs
    return .not rd rs
  | .branch flags, [target] => .branch flags <$> Target.parse pcOffset9 target
  | .jump, [base] => .jump <$> registerNumber base
  | .call, [target] => .call <$> Target.parse pcOffset11 target
  | .callRegister, [base] => .callRegister <$> registerNumber base
  | .direct access, [register, target] => do
    let register ← registerNumber register
    let target ← Target.parse pcOffset9 target
    return .direct access register target
  | .based access, [register, base, offset] => do
    let register ← registerNumber register
    let base ← registerNumber base
    let offset ← Numeral.immediate offset6 offset
    return .based access register base offset
  | .trap, [vector] => .trap <$> Numeral.immediate trapVector vector
  | .service vector, [] => .ok (.trap vector)
  | .subroutineReturn, [] => .ok (.jump 7)
  | .interruptReturn, [] => .ok .interruptReturn
  | form, operands => .error (.operandCount mnemonic form.arity operands.length)

def parse (mnemonic : String) (operands : List String) : Except Problem (Instruction Target) :=
  match mnemonics.lookup mnemonic with
  | none => .error (.unknownMnemonic mnemonic)
  | some form => form.parse mnemonic operands

end TwoPass.Baseline
