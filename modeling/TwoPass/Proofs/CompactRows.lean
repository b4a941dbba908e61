import Mathlib.Logic.Relation
import TwoPass.Compact.Mnemonic
import TwoPass.Proofs.CompactDecoder
import TwoPass.Proofs.RegisterLists

/-! # The rows of the compact instruction set

The compact instructions make up a table. Each of its rows has a mnemonic, operands
that say which registers and which bits it holds, and an encoding. Some rows are other
spellings of an encoding that has a row of its own. -/

namespace TwoPass.Compact

/-! ## Rows and their encodings -/

inductive Offset (width : Nat) where
  | given (bits : BitVec width)
  | omitted

def Offset.bits : Offset width → BitVec width
  | .given bits => bits
  | .omitted => 0

inductive BranchName where
  | eq | ne | cs | hs | cc | lo | mi | pl | vs | vc | hi | ls | ge | lt | gt | le
  deriving DecidableEq

namespace BranchName

def condition : BranchName → Condition
  | .eq => .eq | .ne => .ne | .cs | .hs => .cs | .cc | .lo => .cc
  | .mi => .mi | .pl => .pl | .vs => .vs | .vc => .vc | .hi => .hi
  | .ls => .ls | .ge => .ge | .lt => .lt | .gt => .gt | .le => .le

def mnemonic : BranchName → String
  | .eq => "beq" | .ne => "bne" | .cs => "bcs" | .hs => "bhs" | .cc => "bcc" | .lo => "blo"
  | .mi => "bmi" | .pl => "bpl" | .vs => "bvs" | .vc => "bvc" | .hi => "bhi" | .ls => "bls"
  | .ge => "bge" | .lt => "blt" | .gt => "bgt" | .le => "ble"

/-- The name that a condition has first. -/
def ofCondition : Condition → BranchName
  | .eq => .eq | .ne => .ne | .cs => .cs | .cc => .cc | .mi => .mi | .pl => .pl | .vs => .vs
  | .vc => .vc | .hi => .hi | .ls => .ls | .ge => .ge | .lt => .lt | .gt => .gt | .le => .le

def all : List BranchName :=
  [.eq, .ne, .cs, .hs, .cc, .lo, .mi, .pl, .vs, .vc, .hi, .ls, .ge, .lt, .gt, .le]

theorem mem_all (name : BranchName) : name ∈ all := by
  cases name <;> decide

theorem mnemonic_injective {name other : BranchName} (same : name.mnemonic = other.mnemonic) :
    name = other := by
  have known : ∀ first ∈ all, ∀ second ∈ all, first.mnemonic = second.mnemonic →
      first = second := by decide
  exact known name (mem_all name) other (mem_all other) same

theorem condition_ofCondition (condition : Condition) :
    (ofCondition condition).condition = condition := by
  cases condition <;> rfl

end BranchName

/-- A row of the table, with the registers and bits in the order of its operands. -/
inductive Row where
  | shift (kind : Shift) (rd rs : BitVec 3) (amount : BitVec 5)
  | sumRegister (sum : Sum) (rd rs rn : BitVec 3)
  | sumImmediate (sum : Sum) (rd rs value : BitVec 3)
  /-- The sum of two low registers in place of the first. -/
  | sumPair (sum : Sum) (rd rs : BitVec 3)
  | movePair (rd rs : BitVec 3)
  | byte (operation : ByteOperation) (rd : BitVec 3) (value : BitVec 8)
  | alu (operation : AluOperation) (rd rs : BitVec 3)
  | high (operation : HighOperation) (rd rs : Register)
  | branchExchange (rs : Register)
  | loadRelative (rd : BitVec 3) (target : BitVec 8)
  /-- A load relative to the program counter that names it in brackets. -/
  | loadCounter (rd : BitVec 3) (target : Offset 8)
  | registerOffset (access : Access) (size : Size) (rd rb ro : BitVec 3)
  | immediateOffset (access : Access) (size : Size) (rd rb : BitVec 3) (offset : Offset 5)
  | halfword (access : Access) (rd rb : BitVec 3) (offset : Offset 5)
  | stackOffset (access : Access) (rd : BitVec 3) (offset : Offset 8)
  | baseAddress (rd : BitVec 3) (base : AddressBase) (offset : BitVec 8)
  | relativeAddress (rd : BitVec 3) (target : BitVec 8)
  | adjustStack (sum : Sum) (amount : BitVec 7)
  | stackList (access : Access) (extra : Bool) (registers : BitVec 8)
  | multiple (access : Access) (base : BitVec 3) (registers : BitVec 8)
  | branchIf (name : BranchName) (target : BitVec 8)
  | softwareInterrupt (number : BitVec 8)
  | branch (target : BitVec 11)
  | branchLink (target : BitVec 11)
  | noOperation

namespace Row

def encoding : Row → Instruction BitVec
  | .shift kind rd rs amount => .shift kind amount rs rd
  | .sumRegister sum rd rs rn => .sumRegister sum rn rs rd
  | .sumImmediate sum rd rs value => .sumImmediate sum value rs rd
  | .sumPair sum rd rs => .sumRegister sum rs rd rd
  | .movePair rd rs => .sumImmediate .add 0 rs rd
  | .byte operation rd value => .byte operation rd value
  | .alu operation rd rs => .alu operation rs rd
  | .high operation rd rs => .high operation rs rd
  | .branchExchange rs => .branchExchange rs
  | .loadRelative rd target => .loadRelative rd target
  | .loadCounter rd target => .loadRelative rd target.bits
  | .registerOffset access size rd rb ro => .registerOffset access size ro rb rd
  | .immediateOffset access size rd rb offset => .immediateOffset size access offset.bits rb rd
  | .halfword access rd rb offset => .halfword access offset.bits rb rd
  | .stackOffset access rd offset => .stackOffset access rd offset.bits
  | .baseAddress rd base offset => .baseAddress base rd offset
  | .relativeAddress rd target => .baseAddress .pc rd target
  | .adjustStack sum amount => .adjustStack sum amount
  | .stackList access extra registers => .stackList access extra registers
  | .multiple access base registers => .multiple access base registers
  | .branchIf name target => .branchIf name.condition target
  | .softwareInterrupt number => .softwareInterrupt number
  | .branch target => .branch target
  | .branchLink target => .branchLink target
  | .noOperation => .high .move ⟨.high, 0⟩ ⟨.high, 0⟩

theorem canonical_encoding (row : Row) : row.encoding.canonical = row.encoding := by
  cases row <;> rfl

/-- Rows that are documented to have the same encoding. -/
inductive Alike : Row → Row → Prop where
  | sumPair (sum : Sum) (rd rs : BitVec 3) : Alike (.sumPair sum rd rs) (.sumRegister sum rd rd rs)
  | movePair (rd rs : BitVec 3) : Alike (.movePair rd rs) (.sumImmediate .add rd rs 0)
  | carrySet (target : BitVec 8) : Alike (.branchIf .cs target) (.branchIf .hs target)
  | carryClear (target : BitVec 8) : Alike (.branchIf .cc target) (.branchIf .lo target)
  | noOperation : Alike .noOperation (.high .move ⟨.high, 0⟩ ⟨.high, 0⟩)
  | loadRelative (rd : BitVec 3) (target : BitVec 8) :
      Alike (.loadRelative rd target) (.loadCounter rd (.given target))
  | loadCounter (rd : BitVec 3) : Alike (.loadCounter rd .omitted) (.loadCounter rd (.given 0))
  | immediateOffset (access : Access) (size : Size) (rd rb : BitVec 3) :
      Alike (.immediateOffset access size rd rb .omitted)
        (.immediateOffset access size rd rb (.given 0))
  | halfword (access : Access) (rd rb : BitVec 3) :
      Alike (.halfword access rd rb .omitted) (.halfword access rd rb (.given 0))
  | stackOffset (access : Access) (rd : BitVec 3) :
      Alike (.stackOffset access rd .omitted) (.stackOffset access rd (.given 0))
  | address (rd : BitVec 3) (target : BitVec 8) :
      Alike (.relativeAddress rd target) (.baseAddress rd .pc target)

theorem Alike.encoding_eq {row other : Row} (alike : Alike row other) :
    row.encoding = other.encoding := by
  cases alike <;> rfl

/-- A row of its own for each encoding. -/
def ofEncoding : Instruction BitVec → Row
  | .shift kind amount rs rd => .shift kind rd rs amount
  | .sumRegister sum rn rs rd => .sumRegister sum rd rs rn
  | .sumImmediate sum value rs rd => .sumImmediate sum rd rs value
  | .byte operation rd value => .byte operation rd value
  | .alu operation rs rd => .alu operation rd rs
  | .high operation rs rd => .high operation rd rs
  | .branchExchange rs => .branchExchange rs
  | .loadRelative rd target => .loadRelative rd target
  | .registerOffset access size ro rb rd => .registerOffset access size rd rb ro
  | .immediateOffset size access offset rb rd => .immediateOffset access size rd rb (.given offset)
  | .halfword access offset rb rd => .halfword access rd rb (.given offset)
  | .stackOffset access rd offset => .stackOffset access rd (.given offset)
  | .baseAddress base rd offset => .baseAddress rd base offset
  | .relativeAddress rd target => .baseAddress rd .pc target
  | .adjustStack sum amount => .adjustStack sum amount
  | .stackList access extra registers => .stackList access extra registers
  | .multiple access base registers => .multiple access base registers
  | .branchIf condition target => .branchIf (.ofCondition condition) target
  | .softwareInterrupt number => .softwareInterrupt number
  | .branch target => .branch target
  | .branchLink target => .branchLink target

open Relation in
theorem eqvGen_ofEncoding (row : Row) : EqvGen Alike row (ofEncoding row.encoding) := by
  cases row with
  | sumPair sum rd rs => exact .rel _ _ (.sumPair sum rd rs)
  | movePair rd rs => exact .rel _ _ (.movePair rd rs)
  | noOperation => exact .rel _ _ .noOperation
  | relativeAddress rd target => exact .rel _ _ (.address rd target)
  | loadCounter rd target =>
      cases target with
      | given bits => exact .symm _ _ (.rel _ _ (.loadRelative rd bits))
      | omitted =>
          -- Without an offset it is first a load with a zero offset, then one without brackets.
          exact .trans _ _ _ (.rel _ _ (.loadCounter rd))
            (.symm _ _ (.rel _ _ (.loadRelative rd 0)))
  | immediateOffset access size rd rb offset =>
      cases offset with
      | given bits => exact .refl _
      | omitted => exact .rel _ _ (.immediateOffset access size rd rb)
  | halfword access rd rb offset =>
      cases offset with
      | given bits => exact .refl _
      | omitted => exact .rel _ _ (.halfword access rd rb)
  | stackOffset access rd offset =>
      cases offset with
      | given bits => exact .refl _
      | omitted => exact .rel _ _ (.stackOffset access rd)
  | branchIf name target =>
      cases name with
      | hs => exact .symm _ _ (.rel _ _ (.carrySet target))
      | lo => exact .symm _ _ (.rel _ _ (.carryClear target))
      | _ => exact .refl _
  | _ => exact .refl _

theorem eqvGen_iff {row other : Row} :
    Relation.EqvGen Alike row other ↔ row.encoding = other.encoding := by
  constructor
  · intro alike
    induction alike with
    | rel row other alike => exact alike.encoding_eq
    | refl row => rfl
    | symm row other _ same => exact same.symm
    | trans row middle other _ _ first second => exact first.trans second
  · intro same
    have ends := (eqvGen_ofEncoding other).symm
    rw [← same] at ends
    exact .trans _ _ _ (eqvGen_ofEncoding row) ends

end Row

/-! ## Mnemonics -/

def Shift.mnemonic : Shift → String
  | .left => "lsl"
  | .right => "lsr"
  | .arithmeticRight => "asr"

def Sum.mnemonic : Sum → String
  | .add => "add"
  | .subtract => "sub"

def ByteOperation.mnemonic : ByteOperation → String
  | .move => "mov"
  | .compare => "cmp"
  | .add => "add"
  | .subtract => "sub"

def AluOperation.mnemonic : AluOperation → String
  | .and => "and" | .eor => "eor" | .lsl => "lsl" | .lsr => "lsr"
  | .asr => "asr" | .adc => "adc" | .sbc => "sbc" | .ror => "ror"
  | .tst => "tst" | .neg => "neg" | .cmp => "cmp" | .cmn => "cmn"
  | .orr => "orr" | .mul => "mul" | .bic => "bic" | .mvn => "mvn"

def HighOperation.mnemonic : HighOperation → String
  | .add => "add"
  | .compare => "cmp"
  | .move => "mov"

def Extent.mnemonic : Extent → Access → String
  | .word, .store => "str"
  | .word, .load => "ldr"
  | .byte, .store => "strb"
  | .byte, .load => "ldrb"
  | .halfword, .store => "strh"
  | .halfword, .load => "ldrh"

def Size.extent : Size → Extent
  | .word => .word
  | .byte => .byte

def Access.stackMnemonic : Access → String
  | .store => "push"
  | .load => "pop"

def Access.multipleMnemonic : Access → String
  | .store => "stmia"
  | .load => "ldmia"

def Row.mnemonic : Row → String
  | .shift kind _ _ _ => kind.mnemonic
  | .sumRegister sum _ _ _ | .sumImmediate sum _ _ _ | .sumPair sum _ _ | .adjustStack sum _ =>
    sum.mnemonic
  | .movePair _ _ => "mov"
  | .byte operation _ _ => operation.mnemonic
  | .alu operation _ _ => operation.mnemonic
  | .high operation _ _ => operation.mnemonic
  | .branchExchange _ => "bx"
  | .loadRelative _ _ | .loadCounter _ _ => "ldr"
  | .registerOffset access size _ _ _ | .immediateOffset access size _ _ _ =>
    size.extent.mnemonic access
  | .halfword access _ _ _ => Extent.halfword.mnemonic access
  | .stackOffset access _ _ => Extent.word.mnemonic access
  | .baseAddress _ _ _ => "add"
  | .relativeAddress _ _ => "adr"
  | .stackList access _ _ => access.stackMnemonic
  | .multiple access _ _ => access.multipleMnemonic
  | .branchIf name _ => name.mnemonic
  | .softwareInterrupt _ => "swi"
  | .branch _ => "b"
  | .branchLink _ => "bl"
  | .noOperation => "nop"

/-! ## Operands -/

def Names (token : String) (register : Register) : Prop :=
  Register.ofName? .sixteen token = some register

def NamesLow (token : String) (number : BitVec 3) : Prop :=
  Names token ⟨.low, number⟩

def Spells (token : String) (bits : BitVec width) : Prop :=
  Numeral.parse token = .ok bits.toNat

def Reaches (labels : Labels) (pc : Nat) (token : String) (bits : BitVec width) : Prop :=
  Distance labels pc token bits.toInt

inductive Offset.Says (reads : String → BitVec width → Prop) : Option String → Offset width → Prop
    where
  | given {token : String} {bits : BitVec width} (read : reads token bits) :
      Says reads (some token) (.given bits)
  | omitted : Says reads none .omitted

inductive Sum.Says (sum : Sum) (first second third : String) : Row → Prop where
  | register {rd rs rn : BitVec 3} (destination : NamesLow first rd) (source : NamesLow second rs)
      (last : NamesLow third rn) : Says sum first second third (.sumRegister sum rd rs rn)
  | immediate {rd rs value : BitVec 3} (destination : NamesLow first rd)
      (source : NamesLow second rs) (number : Spells third value) :
      Says sum first second third (.sumImmediate sum rd rs value)

/-- The rows of a mnemonic that takes a register and either a register or a number. -/
structure Arithmetic where
  byte : ByteOperation
  pair : BitVec 3 → BitVec 3 → Row
  high : Option HighOperation
  stack : Option Sum
  pair_mnemonic : ∀ rd rs, (pair rd rs).mnemonic = byte.mnemonic := by intros; rfl
  high_mnemonic : ∀ operation, high = some operation → operation.mnemonic = byte.mnemonic := by
    rintro _ ⟨⟩ <;> rfl
  stack_mnemonic : ∀ sum, stack = some sum → sum.mnemonic = byte.mnemonic := by
    rintro _ ⟨⟩ <;> rfl

namespace Arithmetic

def add : Arithmetic where
  byte := .add
  pair := .sumPair .add
  high := some .add
  stack := some .add

def subtract : Arithmetic where
  byte := .subtract
  pair := .sumPair .subtract
  high := none
  stack := some .subtract

def move : Arithmetic where
  byte := .move
  pair := .movePair
  high := some .move
  stack := none

def compare : Arithmetic where
  byte := .compare
  pair := .alu .cmp
  high := some .compare
  stack := none

end Arithmetic

inductive Arithmetic.Says (arithmetic : Arithmetic) (first second : String) : Row → Prop where
  | pair {rd rs : BitVec 3} (destination : NamesLow first rd) (source : NamesLow second rs) :
      Says arithmetic first second (arithmetic.pair rd rs)
  | high {operation : HighOperation} {rd rs : Register} (defined : arithmetic.high = some operation)
      (destination : Names first rd) (source : Names second rs)
      (either : rd.isHigh = true ∨ rs.isHigh = true) :
      Says arithmetic first second (.high operation rd rs)
  | stack {sum : Sum} {amount : BitVec 7} (defined : arithmetic.stack = some sum)
      (pointer : first = "sp") (number : Spells second amount) :
      Says arithmetic first second (.adjustStack sum amount)
  | byte {rd : BitVec 3} {value : BitVec 8} (destination : NamesLow first rd)
      (number : Spells second value) :
      Says arithmetic first second (.byte arithmetic.byte rd value)

inductive Extent.Says (labels : Labels) (pc : Nat) (access : Access) (rd : BitVec 3)
    (base : String) : Extent → Option String → Row → Prop where
  | stack {offset? : Option String} {offset : Offset 8} (pointer : Names base .sp)
      (read : offset.Says Spells offset?) :
      Says labels pc access rd base .word offset? (.stackOffset access rd offset)
  | counter {offset? : Option String} {offset : Offset 8} (loads : access = .load)
      (counter : Names base .pc) (read : offset.Says (Reaches labels pc) offset?) :
      Says labels pc access rd base .word offset? (.loadCounter rd offset)
  | register {extent : Extent} {size : Size} {token : String} {rb ro : BitVec 3}
      (sized : extent = size.extent) (low : NamesLow base rb) (offset : NamesLow token ro) :
      Says labels pc access rd base extent (some token) (.registerOffset access size rd rb ro)
  | immediate {extent : Extent} {size : Size} {offset? : Option String} {rb : BitVec 3}
      {offset : Offset 5} (sized : extent = size.extent) (low : NamesLow base rb)
      (read : offset.Says Spells offset?) :
      Says labels pc access rd base extent offset? (.immediateOffset access size rd rb offset)
  | halfword {offset? : Option String} {rb : BitVec 3} {offset : Offset 5}
      (low : NamesLow base rb) (read : offset.Says Spells offset?) :
      Says labels pc access rd base .halfword offset? (.halfword access rd rb offset)

def AddressBase.spelling : AddressBase → String
  | .pc => "pc"
  | .sp => "sp"

/-- The high register that a list may name: a return address is pushed from the link
register and popped into the program counter. -/
def Access.extra : Access → Register
  | .store => .lr
  | .load => .pc

inductive Form.Says (labels : Labels) (pc : Nat) : Form → List String → Row → Prop where
  | shiftByNumber {kind : Shift} {operation : AluOperation} {first second third : String}
      {rd rs : BitVec 3} {amount : BitVec 5} (destination : NamesLow first rd)
      (source : NamesLow second rs) (number : Spells third amount) :
      Says labels pc (.shift kind operation) [first, second, third] (.shift kind rd rs amount)
  | shiftByRegister {kind : Shift} {operation : AluOperation} {first second : String}
      {rd rs : BitVec 3} (destination : NamesLow first rd) (source : NamesLow second rs) :
      Says labels pc (.shift kind operation) [first, second] (.alu operation rd rs)
  | alu {operation : AluOperation} {first second : String} {rd rs : BitVec 3}
      (destination : NamesLow first rd) (source : NamesLow second rs) :
      Says labels pc (.alu operation) [first, second] (.alu operation rd rs)
  | addToBase {base : AddressBase} {first second third : String} {rd : BitVec 3}
      {offset : BitVec 8} (destination : NamesLow first rd) (spelled : second = base.spelling)
      (number : Spells third offset) :
      Says labels pc .add [first, second, third] (.baseAddress rd base offset)
  | addThree {first second third : String} {row : Row}
      (told : Sum.add.Says first second third row) : Says labels pc .add [first, second, third] row
  | subtractThree {first second third : String} {row : Row}
      (told : Sum.subtract.Says first second third row) :
      Says labels pc .subtract [first, second, third] row
  | add {first second : String} {row : Row} (told : Arithmetic.add.Says first second row) :
      Says labels pc .add [first, second] row
  | subtract {first second : String} {row : Row}
      (told : Arithmetic.subtract.Says first second row) :
      Says labels pc .subtract [first, second] row
  | move {first second : String} {row : Row} (told : Arithmetic.move.Says first second row) :
      Says labels pc .move [first, second] row
  | compare {first second : String} {row : Row} (told : Arithmetic.compare.Says first second row) :
      Says labels pc .compare [first, second] row
  | branchExchange {token : String} {rs : Register} (source : Names token rs) :
      Says labels pc .branchExchange [token] (.branchExchange rs)
  | loadRelative {first target : String} {rd : BitVec 3} {bits : BitVec 8}
      (destination : NamesLow first rd) (bare : startsWith '[' target = false)
      (distance : Reaches labels pc target bits) :
      Says labels pc (.memory .load .word) [first, target] (.loadRelative rd bits)
  | memory {access : Access} {extent : Extent} {first base : String} {group : List String}
      {offset? : Option String} {rd : BitVec 3} {row : Row} (data : NamesLow first rd)
      (grouped : enclosed? '[' ']' group = some (base :: offset?.toList))
      (told : extent.Says labels pc access rd base offset? row) :
      Says labels pc (.memory access extent) (first :: group) row
  | stackList {access : Access} {extra : Register} {operands : List String}
      {registers : RegisterList}
      (listed : RegisterList.Lists (some access.extra) operands registers) :
      Says labels pc (.stackList access extra) operands
        (.stackList access registers.extra registers.low)
  | multiple {access : Access} {token name : String} {operands : List String} {base : BitVec 3}
      {registers : RegisterList} (marked : token = name ++ "!") (low : NamesLow name base)
      (listed : RegisterList.Lists none operands registers) :
      Says labels pc (.multiple access) (token :: operands) (.multiple access base registers.low)
  | branchIf {condition : Condition} {name : BranchName} {target : String} {bits : BitVec 8}
      (taken : name.condition = condition) (distance : Reaches labels pc target bits) :
      Says labels pc (.branchIf condition) [target] (.branchIf name bits)
  | softwareInterrupt {token : String} {number : BitVec 8} (spelled : Spells token number) :
      Says labels pc .softwareInterrupt [token] (.softwareInterrupt number)
  | branch {target : String} {bits : BitVec 11} (distance : Reaches labels pc target bits) :
      Says labels pc .branch [target] (.branch bits)
  | branchLink {target : String} {bits : BitVec 11} (distance : Reaches labels pc target bits) :
      Says labels pc .branchLink [target] (.branchLink bits)
  | address {first target : String} {rd : BitVec 3} {bits : BitVec 8}
      (destination : NamesLow first rd) (distance : Reaches labels pc target bits) :
      Says labels pc .address [first, target] (.relativeAddress rd bits)
  | noOperation : Says labels pc .noOperation [] .noOperation

/-- The row of an instruction, by its mnemonic and operands. -/
def Denotes (labels : Labels) (pc : Nat) (mnemonic : String) (operands : List String)
    (row : Row) : Prop :=
  row.mnemonic = mnemonic ∧
    ∃ form : Form, (mnemonic, form) ∈ mnemonics ∧ form.Says labels pc operands row

/-! ## Mnemonics of forms -/

theorem Sum.Says.mnemonic_eq {sum : Sum} {first second third : String} {row : Row}
    (told : sum.Says first second third row) : row.mnemonic = sum.mnemonic := by
  cases told <;> rfl

theorem Arithmetic.Says.mnemonic_eq {arithmetic : Arithmetic} {first second : String} {row : Row}
    (told : arithmetic.Says first second row) : row.mnemonic = arithmetic.byte.mnemonic := by
  cases told with
  | pair _ _ => exact arithmetic.pair_mnemonic _ _
  | high defined _ _ _ => exact arithmetic.high_mnemonic _ defined
  | stack defined _ _ => exact arithmetic.stack_mnemonic _ defined
  | byte _ _ => rfl

theorem Extent.Says.mnemonic_eq {labels : Labels} {pc : Nat} {access : Access} {rd : BitVec 3}
    {base : String} {extent : Extent} {offset? : Option String} {row : Row}
    (told : extent.Says labels pc access rd base offset? row) :
    row.mnemonic = extent.mnemonic access := by
  cases told with
  | stack _ _ => rfl
  | counter loads _ _ => rw [loads]; rfl
  | register sized _ _ => rw [sized]; rfl
  | immediate sized _ _ => rw [sized]; rfl
  | halfword _ _ => rfl

def Form.spellings : Form → List String
  | .shift kind operation => [kind.mnemonic].filter (· == operation.mnemonic)
  | .add => ["add"]
  | .subtract => ["sub"]
  | .move => ["mov"]
  | .compare => ["cmp"]
  | .alu operation => [operation.mnemonic]
  | .branchExchange => ["bx"]
  | .memory access extent => [extent.mnemonic access]
  | .stackList access extra => [access.stackMnemonic].filter fun _ => extra == access.extra
  | .multiple access => [access.multipleMnemonic]
  | .branchIf condition => (BranchName.all.filter (·.condition == condition)).map (·.mnemonic)
  | .softwareInterrupt => ["swi"]
  | .branch => ["b"]
  | .branchLink => ["bl"]
  | .address => ["adr"]
  | .noOperation => ["nop"]

theorem mem_spellings {mnemonic : String} {form : Form} (listed : (mnemonic, form) ∈ mnemonics) :
    mnemonic ∈ form.spellings := by
  have known : ∀ entry ∈ mnemonics, entry.1 ∈ entry.2.spellings := by decide +kernel
  exact known _ listed

theorem Form.Says.exists_mnemonic {labels : Labels} {pc : Nat} {form : Form}
    {operands : List String} {row : Row} {mnemonic : String}
    (told : form.Says labels pc operands row) (spelled : mnemonic ∈ form.spellings) :
    ∃ other : Row, other.mnemonic = mnemonic ∧ form.Says labels pc operands other ∧
      other.encoding = row.encoding := by
  have single (same : row.mnemonic = mnemonic) :
      ∃ other : Row, other.mnemonic = mnemonic ∧ form.Says labels pc operands other ∧
        other.encoding = row.encoding := ⟨row, same, told, rfl⟩
  cases told with
  | shiftByNumber _ _ _ =>
      rcases List.mem_filter.mp spelled with ⟨member, -⟩
      exact single (List.mem_singleton.mp member).symm
  | shiftByRegister _ _ =>
      rcases List.mem_filter.mp spelled with ⟨-, same⟩
      exact single (beq_iff_eq.mp same).symm
  | branchIf taken distance =>
      -- The form only has the condition, so the row may have its other name.
      rcases List.mem_map.mp spelled with ⟨name, member, named⟩
      have sameCondition := beq_iff_eq.mp (List.mem_filter.mp member).2
      refine ⟨.branchIf name _, named, .branchIf sameCondition distance, ?_⟩
      rw [Row.encoding, Row.encoding, sameCondition, taken]
  | stackList _ =>
      rcases List.mem_filter.mp spelled with ⟨member, -⟩
      exact single (List.mem_singleton.mp member).symm
  | addThree told => exact single (told.mnemonic_eq.trans (List.mem_singleton.mp spelled).symm)
  | subtractThree told => exact single (told.mnemonic_eq.trans (List.mem_singleton.mp spelled).symm)
  | add told => exact single (told.mnemonic_eq.trans (List.mem_singleton.mp spelled).symm)
  | subtract told => exact single (told.mnemonic_eq.trans (List.mem_singleton.mp spelled).symm)
  | move told => exact single (told.mnemonic_eq.trans (List.mem_singleton.mp spelled).symm)
  | compare told => exact single (told.mnemonic_eq.trans (List.mem_singleton.mp spelled).symm)
  | memory _ _ told => exact single (told.mnemonic_eq.trans (List.mem_singleton.mp spelled).symm)
  | _ => exact single (List.mem_singleton.mp spelled).symm

/-! ## Operands say one thing -/

theorem Names.unique {token : String} {register other : Register} (first : Names token register)
    (second : Names token other) : register = other :=
  Option.some.inj (first.symm.trans second)

theorem NamesLow.unique {token : String} {number other : BitVec 3} (first : NamesLow token number)
    (second : NamesLow token other) : number = other :=
  (Register.mk.inj (Names.unique first second)).2

theorem NamesLow.not_isHigh {token : String} {number : BitVec 3} {register : Register}
    (low : NamesLow token number) (named : Names token register) : register.isHigh = false := by
  rw [← Names.unique low named]
  rfl

theorem Names.not_spells {token : String} {register : Register} {bits : BitVec width}
    (named : Names token register) : ¬Spells token bits := by
  intro spelled
  cases spelled.symm.trans (Register.parse_of_ofName? named)

theorem Spells.unique {token : String} {bits other : BitVec width} (first : Spells token bits)
    (second : Spells token other) : bits = other := by
  have same := Except.ok.inj (first.symm.trans second)
  exact BitVec.eq_of_toNat_eq (Int.ofNat.inj same)

theorem Reaches.unique {labels : Labels} {pc : Nat} {token : String} {bits other : BitVec width}
    (first : Reaches labels pc token bits) (second : Reaches labels pc token other) :
    bits = other :=
  BitVec.toInt_inj.mp (Distance.unique first second)

theorem Offset.Says.unique {reads : String → BitVec width → Prop}
    (single : ∀ token bits other, reads token bits → reads token other → bits = other)
    {offset? : Option String} {offset other : Offset width} (first : offset.Says reads offset?)
    (second : other.Says reads offset?) : offset = other := by
  cases first with
  | given read =>
      cases second with
      | given again => rw [single _ _ _ read again]
  | omitted =>
      cases second with
      | omitted => rfl

theorem Offset.Says.unique_of_spells {offset? : Option String} {offset other : Offset width}
    (first : offset.Says Spells offset?) (second : other.Says Spells offset?) : offset = other :=
  @unique width Spells (fun _ _ _ => Spells.unique) _ _ _ first second

theorem Offset.Says.unique_of_reaches {labels : Labels} {pc : Nat} {offset? : Option String}
    {offset other : Offset width} (first : offset.Says (Reaches labels pc) offset?)
    (second : other.Says (Reaches labels pc) offset?) : offset = other :=
  @unique width (Reaches labels pc) (fun _ _ _ => Reaches.unique) _ _ _ first second

theorem Sum.Says.unique {sum : Sum} {first second third : String} {row other : Row}
    (told : sum.Says first second third row) (again : sum.Says first second third other) :
    row = other := by
  cases told with
  | register destination source last =>
      cases again with
      | register otherDestination otherSource otherLast =>
          rw [destination.unique otherDestination, source.unique otherSource,
            last.unique otherLast]
      | immediate _ _ number => exact absurd number (Names.not_spells last)
  | immediate destination source number =>
      cases again with
      | register _ _ last => exact absurd number (Names.not_spells last)
      | immediate otherDestination otherSource otherNumber =>
          rw [destination.unique otherDestination, source.unique otherSource,
            number.unique otherNumber]

theorem AddressBase.spelling_injective {base other : AddressBase}
    (same : base.spelling = other.spelling) : base = other := by
  cases base <;> cases other <;> first | rfl | exact absurd same (by decide)

theorem AddressBase.not_namesLow (base : AddressBase) (number : BitVec 3) :
    ¬NamesLow base.spelling number := by
  intro low
  cases base with
  | pc =>
      have named : Names AddressBase.pc.spelling .pc := rfl
      cases low.not_isHigh named
  | sp =>
      have named : Names AddressBase.sp.spelling .sp := rfl
      cases low.not_isHigh named

theorem Sum.not_says_base {sum : Sum} {base : AddressBase} {first second third : String}
    {row : Row} (spelled : second = base.spelling) : ¬sum.Says first second third row := by
  intro told
  rw [spelled] at told
  cases told with
  | register _ source _ => exact base.not_namesLow _ source
  | immediate _ source _ => exact base.not_namesLow _ source

theorem Arithmetic.Says.unique {arithmetic : Arithmetic} {first second : String} {row other : Row}
    (told : arithmetic.Says first second row) (again : arithmetic.Says first second other) :
    row = other := by
  have apart {rd rs : BitVec 3} {high otherHigh : Register} (destination : NamesLow first rd)
      (source : NamesLow second rs) (named : Names first high) (otherNamed : Names second otherHigh)
      (either : high.isHigh = true ∨ otherHigh.isHigh = true) : False := by
    rw [destination.not_isHigh named, source.not_isHigh otherNamed] at either
    simp at either
  have pointer {rd : BitVec 3} (destination : NamesLow first rd) (same : first = "sp") : False :=
    AddressBase.not_namesLow .sp rd (show NamesLow "sp" rd from same ▸ destination)
  -- The second operand is a register or a number, and then the bank of the first decides.
  cases told with
  | pair destination source =>
      cases again with
      | pair otherDestination otherSource =>
          rw [destination.unique otherDestination, source.unique otherSource]
      | high _ named otherNamed either =>
          exact (apart destination source named otherNamed either).elim
      | stack _ _ number => exact absurd number (Names.not_spells source)
      | byte _ number => exact absurd number (Names.not_spells source)
  | high defined destination source either =>
      cases again with
      | pair low otherLow => exact (apart low otherLow destination source either).elim
      | high otherDefined otherDestination otherSource _ =>
          rw [Option.some.inj (defined.symm.trans otherDefined),
            destination.unique otherDestination, source.unique otherSource]
      | stack _ _ number => exact absurd number source.not_spells
      | byte _ number => exact absurd number source.not_spells
  | stack defined same number =>
      cases again with
      | pair _ source => exact absurd number (Names.not_spells source)
      | high _ _ source _ => exact absurd number source.not_spells
      | stack otherDefined _ otherNumber =>
          rw [Option.some.inj (defined.symm.trans otherDefined), number.unique otherNumber]
      | byte destination _ => exact (pointer destination same).elim
  | byte destination number =>
      cases again with
      | pair _ source => exact absurd number (Names.not_spells source)
      | high _ _ source _ => exact absurd number source.not_spells
      | stack _ same _ => exact (pointer destination same).elim
      | byte otherDestination otherNumber =>
          rw [destination.unique otherDestination, number.unique otherNumber]

theorem Size.extent_ne_halfword (size : Size) : Extent.halfword ≠ size.extent := by
  cases size <;> decide

theorem Size.extent_injective {size other : Size} (same : size.extent = other.extent) :
    size = other := by
  cases size <;> cases other <;> first | rfl | cases same

theorem Extent.Says.unique {labels : Labels} {pc : Nat} {access : Access} {rd : BitVec 3}
    {base : String} {extent : Extent} {offset? : Option String} {row other : Row}
    (told : extent.Says labels pc access rd base offset? row)
    (again : extent.Says labels pc access rd base offset? other) : row = other := by
  have apart {number : BitVec 3} {register : Register} (low : NamesLow base number)
      (named : Names base register) (high : register.isHigh = true) : False := by
    cases high.symm.trans (low.not_isHigh named)
  -- The base decides, and with a low base the shape of the offset.
  cases told with
  | stack pointer read =>
      cases again with
      | stack _ otherRead => rw [read.unique_of_spells otherRead]
      | counter _ counter _ => exact absurd (pointer.unique counter) (by decide)
      | register _ low _ => exact (apart low pointer rfl).elim
      | immediate _ low _ => exact (apart low pointer rfl).elim
  | counter _ counter read =>
      cases again with
      | stack pointer _ => exact absurd (pointer.unique counter) (by decide)
      | counter _ _ otherRead => rw [read.unique_of_reaches otherRead]
      | register _ low _ => exact (apart low counter rfl).elim
      | immediate _ low _ => exact (apart low counter rfl).elim
  | register sized low offset =>
      cases again with
      | stack pointer _ => exact (apart low pointer rfl).elim
      | counter _ counter _ => exact (apart low counter rfl).elim
      | register otherSized otherLow otherOffset =>
          rw [Size.extent_injective (sized.symm.trans otherSized), low.unique otherLow,
            offset.unique otherOffset]
      | immediate _ _ read =>
          cases read with
          | given number => exact absurd number (Names.not_spells offset)
      | halfword _ _ => exact absurd sized (Size.extent_ne_halfword _)
  | immediate sized low read =>
      cases again with
      | stack pointer _ => exact (apart low pointer rfl).elim
      | counter _ counter _ => exact (apart low counter rfl).elim
      | register _ _ offset =>
          cases read with
          | given number => exact absurd number (Names.not_spells offset)
      | immediate otherSized otherLow otherRead =>
          rw [Size.extent_injective (sized.symm.trans otherSized), low.unique otherLow,
            read.unique_of_spells otherRead]
      | halfword _ _ => exact absurd sized (Size.extent_ne_halfword _)
  | halfword low read =>
      cases again with
      | register sized _ _ => exact absurd sized (Size.extent_ne_halfword _)
      | immediate sized _ _ => exact absurd sized (Size.extent_ne_halfword _)
      | halfword otherLow otherRead =>
          rw [low.unique otherLow, read.unique_of_spells otherRead]

theorem startsWith_of_enclosed? {opening closing : Char} {first : String}
    {others entries : List String}
    (grouped : enclosed? opening closing (first :: others) = some entries) :
    startsWith opening first = true := by
  rw [enclosed?, List.map_cons] at grouped
  dsimp only at grouped
  split at grouped
  · rename_i ends
    simpa [startsWith] using ends.1
  · cases grouped

theorem writeBack_injective {name other : String} (same : name ++ "!" = other ++ "!") :
    name = other := by
  have lists := congrArg String.toList same
  rw [String.toList_append, String.toList_append] at lists
  exact String.toList_inj.mp (List.append_cancel_right lists)

theorem Form.Says.unique {labels : Labels} {pc : Nat} {form : Form} {operands : List String}
    {row other : Row} (told : form.Says labels pc operands row)
    (again : form.Says labels pc operands other) (same : row.mnemonic = other.mnemonic) :
    row = other := by
  cases told with
  | shiftByNumber destination source number =>
      cases again with
      | shiftByNumber otherDestination otherSource otherNumber =>
          rw [destination.unique otherDestination, source.unique otherSource,
            number.unique otherNumber]
  | shiftByRegister destination source =>
      cases again with
      | shiftByRegister otherDestination otherSource =>
          rw [destination.unique otherDestination, source.unique otherSource]
  | alu destination source =>
      cases again with
      | alu otherDestination otherSource =>
          rw [destination.unique otherDestination, source.unique otherSource]
  | addToBase destination spelled number =>
      cases again with
      | addToBase otherDestination otherSpelled otherNumber =>
          have bases := AddressBase.spelling_injective (spelled.symm.trans otherSpelled)
          rw [bases, destination.unique otherDestination, number.unique otherNumber]
      | addThree told => exact absurd told (Sum.not_says_base spelled)
  | addThree told =>
      cases again with
      | addToBase _ spelled _ => exact absurd told (Sum.not_says_base spelled)
      | addThree otherTold => exact told.unique otherTold
  | subtractThree told =>
      cases again with
      | subtractThree otherTold => exact told.unique otherTold
  | add told =>
      cases again with
      | add otherTold => exact told.unique otherTold
  | subtract told =>
      cases again with
      | subtract otherTold => exact told.unique otherTold
  | move told =>
      cases again with
      | move otherTold => exact told.unique otherTold
  | compare told =>
      cases again with
      | compare otherTold => exact told.unique otherTold
  | branchExchange source =>
      cases again with
      | branchExchange otherSource => rw [source.unique otherSource]
  | loadRelative destination bare distance =>
      cases again with
      | loadRelative otherDestination _ otherDistance =>
          rw [destination.unique otherDestination, distance.unique otherDistance]
      | memory _ grouped _ => cases bare.symm.trans (startsWith_of_enclosed? grouped)
  | @memory _ _ _ base _ offset? _ _ data grouped told =>
      cases again with
      | loadRelative _ bare _ => cases bare.symm.trans (startsWith_of_enclosed? grouped)
      | @memory _ _ _ otherBase _ otherOffset? _ _ otherData otherGrouped otherTold =>
          have tokens := List.cons.inj (Option.some.inj (grouped.symm.trans otherGrouped))
          have offsets : offset? = otherOffset? := by
            simpa using congrArg List.head? tokens.2
          rw [← tokens.1, ← offsets, ← data.unique otherData] at otherTold
          exact told.unique otherTold
  | stackList listed =>
      cases again with
      | stackList otherListed => rw [listed.unique otherListed]
  | multiple marked low listed =>
      cases again with
      | multiple otherMarked otherLow otherListed =>
          rw [← writeBack_injective (marked.symm.trans otherMarked)] at otherLow
          rw [low.unique otherLow, listed.unique otherListed]
  | branchIf _ distance =>
      cases again with
      | branchIf _ otherDistance =>
          rw [BranchName.mnemonic_injective same, distance.unique otherDistance]
  | softwareInterrupt spelled =>
      cases again with
      | softwareInterrupt otherSpelled => rw [spelled.unique otherSpelled]
  | branch distance =>
      cases again with
      | branch otherDistance => rw [distance.unique otherDistance]
  | branchLink distance =>
      cases again with
      | branchLink otherDistance => rw [distance.unique otherDistance]
  | address destination distance =>
      cases again with
      | address otherDestination otherDistance =>
          rw [destination.unique otherDestination, distance.unique otherDistance]
  | noOperation =>
      cases again with
      | noOperation => rfl

end TwoPass.Compact
