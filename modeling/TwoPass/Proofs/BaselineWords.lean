import TwoPass.Profile
import TwoPass.Proofs.Operands

/-! # Reading baseline words back

A word says what to do, with which registers and which number. What it says is told
here twice: from the bits of the word, and from the mnemonic and the operands that the
word was made of. Both tell the same, so no field of a word gets in another's way. -/

namespace TwoPass.Baseline

inductive Opcode where
  | operate (operation : Operation)
  | not
  | branch (flags : BitVec 3)
  | jump
  | call
  | callRegister
  | direct (access : DirectAccess)
  | based (access : BasedAccess)
  | trap
  | interruptReturn
  deriving DecidableEq, Repr

structure Meaning where
  opcode : Opcode
  registers : List (BitVec 3)
  /-- The immediate, the displacement or the trap vector, if there is one. -/
  number : Option Int
  deriving DecidableEq, Repr

/-! ## From the bits -/

def decodeOperate (operation : Operation) (word : Word) : Option Meaning :=
  let registers := [word.extractLsb' 9 3, word.extractLsb' 6 3]
  if word.extractLsb' 5 1 = 1 then
    some ⟨.operate operation, registers, some (immediate5.decode word)⟩
  else if word.extractLsb' 3 2 = 0 then
    some ⟨.operate operation, registers ++ [word.extractLsb' 0 3], none⟩
  else
    none

def decodeDirect (access : DirectAccess) (word : Word) : Meaning :=
  ⟨.direct access, [word.extractLsb' 9 3], some (pcOffset9.decode word)⟩

def decodeBased (access : BasedAccess) (word : Word) : Meaning :=
  ⟨.based access, [word.extractLsb' 9 3, word.extractLsb' 6 3], some (offset6.decode word)⟩

/-- The instructions that only name a base register, whose other bits are zero. -/
def decodeBase (opcode : Opcode) (word : Word) : Option Meaning :=
  if word.extractLsb' 9 3 = 0 ∧ word.extractLsb' 0 6 = 0 then
    some ⟨opcode, [word.extractLsb' 6 3], none⟩
  else
    none

def decode (word : Word) : Option Meaning :=
  match (word.extractLsb' 12 4).toNat with
  | 0x0 => some ⟨.branch (word.extractLsb' 9 3), [], some (pcOffset9.decode word)⟩
  | 0x1 => decodeOperate .add word
  | 0x2 => some (decodeDirect .load word)
  | 0x3 => some (decodeDirect .store word)
  | 0x4 =>
    if word.extractLsb' 11 1 = 1 then
      some ⟨.call, [], some (pcOffset11.decode word)⟩
    else
      decodeBase .callRegister word
  | 0x5 => decodeOperate .and word
  | 0x6 => some (decodeBased .load word)
  | 0x7 => some (decodeBased .store word)
  | 0x8 => if word.extractLsb' 0 12 = 0 then some ⟨.interruptReturn, [], none⟩ else none
  | 0x9 =>
    if word.extractLsb' 0 6 = 0b111111 then
      some ⟨.not, [word.extractLsb' 9 3, word.extractLsb' 6 3], none⟩
    else
      none
  | 0xA => some (decodeDirect .loadIndirect word)
  | 0xB => some (decodeDirect .storeIndirect word)
  | 0xC => decodeBase .jump word
  | 0xE => some (decodeDirect .loadAddress word)
  | 0xF =>
    if word.extractLsb' 8 4 = 0 then
      some ⟨.trap, [], some (trapVector.decode word)⟩
    else
      none
  | _ => none

def Instruction.meaning : Instruction BitVec → Meaning
  | .operate operation rd rs (.register rt) => ⟨.operate operation, [rd, rs, rt], none⟩
  | .operate operation rd rs (.immediate value) =>
    ⟨.operate operation, [rd, rs], some value.toInt⟩
  | .not rd rs => ⟨.not, [rd, rs], none⟩
  | .branch flags target => ⟨.branch flags, [], some target.toInt⟩
  | .jump base => ⟨.jump, [base], none⟩
  | .call target => ⟨.call, [], some target.toInt⟩
  | .callRegister base => ⟨.callRegister, [base], none⟩
  | .direct access register target => ⟨.direct access, [register], some target.toInt⟩
  | .based access register base offset => ⟨.based access, [register, base], some offset.toInt⟩
  | .trap vector => ⟨.trap, [], some vector.toNat⟩
  | .interruptReturn => ⟨.interruptReturn, [], none⟩

namespace Instruction

def code : Instruction BitVec → BitVec 4
  | .operate operation _ _ _ => operation.code
  | .not _ _ => 0x9
  | .branch _ _ => 0x0
  | .jump _ => 0xC
  | .call _ | .callRegister _ => 0x4
  | .direct access _ _ => access.code
  | .based access _ _ _ => access.code
  | .trap _ => 0xF
  | .interruptReturn => 0x8

theorem top_of_word (instruction : Instruction BitVec) :
    instruction.word.extractLsb' 12 4 = instruction.code := by
  cases instruction with
  | operate operation rd rs source =>
      cases source <;>
        simp (disch := decide) only [word, code, BitVec.extractLsb'_append_eq_of_le,
          BitVec.extractLsb'_eq_self, Nat.reduceSub]
  | interruptReturn => rfl
  | _ =>
      simp (disch := decide) only [word, BitVec.extractLsb'_append_eq_of_le,
        BitVec.extractLsb'_eq_self, Nat.reduceSub]
      rfl

end Instruction

theorem decodeOperate_word (operation : Operation) (rd rs : BitVec 3) (source : Source) :
    decodeOperate operation (Instruction.operate operation rd rs source).word =
      some (Instruction.operate operation rd rs source).meaning := by
  cases source with
  | register rt =>
      simp (disch := decide) only [decodeOperate, Instruction.word, Instruction.meaning,
        BitVec.extractLsb'_append_eq_of_le, BitVec.extractLsb'_append_eq_of_add_le,
        BitVec.extractLsb'_eq_self, Nat.reduceSub, BitVec.reduceExtractLsb']
      rfl
  | immediate value =>
      have number :
          immediate5.decode (Instruction.operate operation rd rs (.immediate value)).word =
            value.toInt :=
        congrArg BitVec.toInt BitVec.setWidth_append_eq_right
      simp (disch := decide) only [decodeOperate, number]
      simp (disch := decide) only [Instruction.word, Instruction.meaning,
        BitVec.extractLsb'_append_eq_of_le, BitVec.extractLsb'_append_eq_of_add_le,
        BitVec.extractLsb'_eq_self, Nat.reduceSub]
      rfl

theorem decodeDirect_word (access : DirectAccess) (register : BitVec 3) (target : BitVec 9) :
    decodeDirect access (Instruction.direct access register target).word =
      (Instruction.direct access register target).meaning := by
  have number : pcOffset9.decode (Instruction.direct access register target).word = target.toInt :=
    congrArg BitVec.toInt BitVec.setWidth_append_eq_right
  rw [decodeDirect, number]
  simp (disch := decide) only [Instruction.word, Instruction.meaning,
    BitVec.extractLsb'_append_eq_of_le, BitVec.extractLsb'_append_eq_of_add_le,
    BitVec.extractLsb'_eq_self, Nat.reduceSub]

theorem decodeBased_word (access : BasedAccess) (register base : BitVec 3) (offset : BitVec 6) :
    decodeBased access (Instruction.based access register base offset).word =
      (Instruction.based access register base offset).meaning := by
  have number : offset6.decode (Instruction.based access register base offset).word =
      offset.toInt := congrArg BitVec.toInt BitVec.setWidth_append_eq_right
  rw [decodeBased, number]
  simp (disch := decide) only [Instruction.word, Instruction.meaning,
    BitVec.extractLsb'_append_eq_of_le, BitVec.extractLsb'_append_eq_of_add_le,
    BitVec.extractLsb'_eq_self, Nat.reduceSub]

theorem decodeBase_word (opcode : Opcode) (code : BitVec 4) (base : BitVec 3) :
    decodeBase opcode (code ++ 0b000#3 ++ base ++ 0b000000#6) = some ⟨opcode, [base], none⟩ := by
  simp (disch := decide) only [decodeBase, BitVec.extractLsb'_append_eq_of_le,
    BitVec.extractLsb'_append_eq_of_add_le, BitVec.extractLsb'_eq_self, Nat.reduceSub]
  rfl

theorem decode_word (instruction : Instruction BitVec) :
    decode instruction.word = some instruction.meaning := by
  rw [decode, instruction.top_of_word]
  cases instruction with
  | operate operation rd rs source =>
      cases operation with
      | add => exact decodeOperate_word .add rd rs source
      | and => exact decodeOperate_word .and rd rs source
  | not rd rs =>
      have ones : (Instruction.not rd rs).word.extractLsb' 0 6 = 0b111111 :=
        BitVec.extractLsb'_append_eq_right
      refine (if_pos ones).trans ?_
      simp (disch := decide) only [Instruction.word, Instruction.meaning,
        BitVec.extractLsb'_append_eq_of_le, BitVec.extractLsb'_append_eq_right, Nat.reduceSub]
  | branch flags target =>
      have number : pcOffset9.decode (Instruction.branch flags target).word = target.toInt :=
        congrArg BitVec.toInt BitVec.setWidth_append_eq_right
      have taken : (Instruction.branch flags target).word.extractLsb' 9 3 = flags := by
        simp (disch := decide) only [Instruction.word, BitVec.extractLsb'_append_eq_of_le,
          BitVec.extractLsb'_append_eq_right, Nat.reduceSub]
      rw [number, taken]
      rfl
  | jump base => exact decodeBase_word .jump 0xC base
  | call target =>
      have number : pcOffset11.decode (Instruction.call target).word = target.toInt :=
        congrArg BitVec.toInt BitVec.setWidth_append_eq_right
      have mark : (Instruction.call target).word.extractLsb' 11 1 = 1 := by
        simp (disch := decide) only [Instruction.word, BitVec.extractLsb'_append_eq_of_le,
          BitVec.extractLsb'_append_eq_of_add_le, Nat.reduceSub]
        rfl
      refine (if_pos mark).trans ?_
      rw [number]
      rfl
  | callRegister base =>
      have mark : (Instruction.callRegister base).word.extractLsb' 11 1 ≠ 1 := by
        simp (disch := decide) only [Instruction.word, BitVec.extractLsb'_append_eq_of_le,
          BitVec.extractLsb'_append_eq_of_add_le, Nat.reduceSub]
        decide
      exact (if_neg mark).trans (decodeBase_word .callRegister 0x4 base)
  | direct access register target =>
      cases access <;> exact congrArg some (decodeDirect_word _ register target)
  | based access register base offset =>
      cases access <;> exact congrArg some (decodeBased_word _ register base offset)
  | trap vector =>
      have number : trapVector.decode (Instruction.trap vector).word = vector.toNat :=
        congrArg (fun bits : BitVec 8 => (bits.toNat : Int)) BitVec.setWidth_append_eq_right
      have zero : (Instruction.trap vector).word.extractLsb' 8 4 = 0 := by
        simp (disch := decide) only [Instruction.word, BitVec.extractLsb'_append_eq_of_le,
          BitVec.extractLsb'_append_eq_of_add_le, Nat.reduceSub]
        rfl
      refine (if_pos zero).trans ?_
      rw [number]
      rfl
  | interruptReturn => rfl

/-! ## From the text -/

/-- The branches by the flags they are taken on: negative, zero, positive. -/
def branches : List (String × BitVec 3) :=
  [("br", 0b111), ("brn", 0b100), ("brz", 0b010), ("brp", 0b001), ("brnz", 0b110),
   ("brnp", 0b101), ("brzp", 0b011), ("brnzp", 0b111)]

def services : List (String × BitVec 8) :=
  [("getc", 0x20), ("out", 0x21), ("puts", 0x22), ("in", 0x23), ("putsp", 0x24), ("halt", 0x25)]

def namesOf [DecidableEq α] (table : List (String × α)) (value : α) : List String :=
  (table.filter (·.2 == value)).map (·.1)

theorem mem_namesOf [DecidableEq α] {table : List (String × α)} {value : α} {name : String} :
    name ∈ namesOf table value ↔ (name, value) ∈ table := by
  simp [namesOf]

def Form.spellings : Form → List String
  | .operate .add => ["add"]
  | .operate .and => ["and"]
  | .not => ["not"]
  | .branch flags => namesOf branches flags
  | .jump => ["jmp"]
  | .subroutineReturn => ["ret"]
  | .call => ["jsr"]
  | .callRegister => ["jsrr"]
  | .direct .load => ["ld"]
  | .direct .loadIndirect => ["ldi"]
  | .direct .loadAddress => ["lea"]
  | .direct .store => ["st"]
  | .direct .storeIndirect => ["sti"]
  | .based .load => ["ldr"]
  | .based .store => ["str"]
  | .trap => ["trap"]
  | .service vector => namesOf services vector
  | .interruptReturn => ["rti"]

theorem mem_spellings_iff {form : Form} {mnemonic : String} :
    mnemonic ∈ form.spellings ↔ mnemonics.lookup mnemonic = some form := by
  constructor
  · intro spelled
    cases form with
    | branch flags =>
        have known : ∀ entry ∈ branches, mnemonics.lookup entry.1 = some (.branch entry.2) := by
          decide +kernel
        exact known _ (mem_namesOf.mp spelled)
    | service vector =>
        have known : ∀ entry ∈ services, mnemonics.lookup entry.1 = some (.service entry.2) := by
          decide +kernel
        exact known _ (mem_namesOf.mp spelled)
    | operate operation =>
        cases operation <;> rw [List.mem_singleton.mp spelled] <;> rfl
    | direct access =>
        cases access <;> rw [List.mem_singleton.mp spelled] <;> rfl
    | based access =>
        cases access <;> rw [List.mem_singleton.mp spelled] <;> rfl
    | _ =>
        rw [List.mem_singleton.mp spelled]
        rfl
  · intro found
    have known : ∀ entry ∈ mnemonics, entry.1 ∈ entry.2.spellings := by decide +kernel
    exact known _ (mem_of_lookup found)

def Names (token : String) (number : BitVec 3) : Prop :=
  Register.ofName? .eight token = some ⟨.low, number⟩

/-- What an instruction says, by the operands that its mnemonic asks for. -/
inductive Form.Says (labels : Labels) (pc : Nat) : Form → List String → Meaning → Prop where
  | registers {operation : Operation} {first second third : String} {rd rs rt : BitVec 3}
      (destination : Names first rd) (source : Names second rs) (last : Names third rt) :
      Says labels pc (.operate operation) [first, second, third]
        ⟨.operate operation, [rd, rs, rt], none⟩
  | immediate {operation : Operation} {first second third : String} {rd rs : BitVec 3}
      {value : Int} (destination : Names first rd) (source : Names second rs)
      (number : Numeral.parse third = .ok value) :
      Says labels pc (.operate operation) [first, second, third]
        ⟨.operate operation, [rd, rs], some value⟩
  | not {first second : String} {rd rs : BitVec 3} (destination : Names first rd)
      (source : Names second rs) : Says labels pc .not [first, second] ⟨.not, [rd, rs], none⟩
  | branch {flags : BitVec 3} {target : String} {value : Int}
      (distance : Distance labels pc target value) :
      Says labels pc (.branch flags) [target] ⟨.branch flags, [], some value⟩
  | jump {token : String} {base : BitVec 3} (named : Names token base) :
      Says labels pc .jump [token] ⟨.jump, [base], none⟩
  | subroutineReturn : Says labels pc .subroutineReturn [] ⟨.jump, [7], none⟩
  | call {target : String} {value : Int} (distance : Distance labels pc target value) :
      Says labels pc .call [target] ⟨.call, [], some value⟩
  | callRegister {token : String} {base : BitVec 3} (named : Names token base) :
      Says labels pc .callRegister [token] ⟨.callRegister, [base], none⟩
  | direct {access : DirectAccess} {token target : String} {register : BitVec 3} {value : Int}
      (named : Names token register) (distance : Distance labels pc target value) :
      Says labels pc (.direct access) [token, target] ⟨.direct access, [register], some value⟩
  | based {access : BasedAccess} {first second third : String} {register base : BitVec 3}
      {value : Int} (named : Names first register) (origin : Names second base)
      (number : Numeral.parse third = .ok value) :
      Says labels pc (.based access) [first, second, third]
        ⟨.based access, [register, base], some value⟩
  | trap {token : String} {value : Int} (number : Numeral.parse token = .ok value) :
      Says labels pc .trap [token] ⟨.trap, [], some value⟩
  | service {vector : BitVec 8} :
      Says labels pc (.service vector) [] ⟨.trap, [], some vector.toNat⟩
  | interruptReturn : Says labels pc .interruptReturn [] ⟨.interruptReturn, [], none⟩

def Denotes (labels : Labels) (pc : Nat) (mnemonic : String) (operands : List String)
    (meaning : Meaning) : Prop :=
  ∃ form : Form, mnemonic ∈ form.spellings ∧ form.Says labels pc operands meaning

theorem Names.unique {token : String} {number other : BitVec 3} (first : Names token number)
    (second : Names token other) : number = other := by
  have same := Option.some.inj (first.symm.trans second)
  exact (Register.mk.inj same).2

theorem Names.not_number {token : String} {number : BitVec 3} (named : Names token number)
    {value : Int} : Numeral.parse token ≠ .ok value := by
  intro spelled
  cases spelled.symm.trans (Register.parse_of_ofName? named)

theorem names_of_registerNumber {token : String} {number : BitVec 3}
    (read : registerNumber token = .ok number) : Names token number := by
  rcases map_eq_ok.mp read with ⟨register, parsed, rfl⟩
  have named := Register.ofName?_of_parse parsed
  have low := Register.bank_of_ofDigits? (Register.ofName?_eight_eq_some_iff.mp named).2
  rw [Names, named, ← low]

theorem Form.Says.unique {labels : Labels} {pc : Nat} {form : Form} {operands : List String}
    {meaning other : Meaning} (first : form.Says labels pc operands meaning)
    (second : form.Says labels pc operands other) : meaning = other := by
  cases first with
  | registers destination source last =>
      cases second with
      | registers otherDestination otherSource otherLast =>
          rw [destination.unique otherDestination, source.unique otherSource,
            last.unique otherLast]
      | immediate _ _ number => exact absurd number last.not_number
  | immediate destination source number =>
      cases second with
      | registers _ _ last => exact absurd number last.not_number
      | immediate otherDestination otherSource otherNumber =>
          rw [destination.unique otherDestination, source.unique otherSource,
            Except.ok.inj (number.symm.trans otherNumber)]
  | not destination source =>
      cases second with
      | not otherDestination otherSource =>
          rw [destination.unique otherDestination, source.unique otherSource]
  | branch distance =>
      cases second with
      | branch otherDistance => rw [distance.unique otherDistance]
  | jump named =>
      cases second with
      | jump otherNamed => rw [named.unique otherNamed]
  | subroutineReturn =>
      cases second with
      | subroutineReturn => rfl
  | call distance =>
      cases second with
      | call otherDistance => rw [distance.unique otherDistance]
  | callRegister named =>
      cases second with
      | callRegister otherNamed => rw [named.unique otherNamed]
  | direct named distance =>
      cases second with
      | direct otherNamed otherDistance =>
          rw [named.unique otherNamed, distance.unique otherDistance]
  | based named origin number =>
      cases second with
      | based otherNamed otherOrigin otherNumber =>
          rw [named.unique otherNamed, origin.unique otherOrigin,
            Except.ok.inj (number.symm.trans otherNumber)]
  | trap number =>
      cases second with
      | trap otherNumber => rw [Except.ok.inj (number.symm.trans otherNumber)]
  | service =>
      cases second with
      | service => rfl
  | interruptReturn =>
      cases second with
      | interruptReturn => rfl

theorem Form.Says.of_source {labels : Labels} {pc : Nat} {operation : Operation}
    {first second third : String} {rd rs : BitVec 3} {source : Source}
    (destination : Names first rd) (base : Names second rs)
    (read : Source.parse third = .ok source) :
    Form.Says labels pc (.operate operation) [first, second, third]
      (Instruction.operate operation rd rs source).meaning := by
  unfold Source.parse at read
  split at read
  · rcases map_eq_ok.mp read with ⟨rt, number, rfl⟩
    exact .registers destination base (names_of_registerNumber number)
  · rcases map_eq_ok.mp read with ⟨value, number, rfl⟩
    exact .immediate destination base (Numeral.parse_of_signed (by decide) number)

theorem Form.Says.of_parse {labels : Labels} {pc : Nat} {form : Form} {mnemonic : String}
    {operands : List String} {instruction : Instruction Target} {resolved : Instruction BitVec}
    (read : form.parse mnemonic operands = .ok instruction)
    (filled : instruction.resolve labels pc = .ok resolved) :
    form.Says labels pc operands resolved.meaning := by
  unfold Form.parse at read
  -- The cases are those of the definition. The last is a wrong number of operands.
  split at read
  · rcases bind_eq_ok.mp read with ⟨source, last, read⟩
    rcases bind_eq_ok.mp read with ⟨rd, destination, read⟩
    rcases bind_eq_ok.mp read with ⟨rs, base, read⟩
    cases read
    cases filled
    exact .of_source (names_of_registerNumber destination) (names_of_registerNumber base) last
  · rcases bind_eq_ok.mp read with ⟨rd, destination, read⟩
    rcases bind_eq_ok.mp read with ⟨rs, source, read⟩
    cases read
    cases filled
    exact .not (names_of_registerNumber destination) (names_of_registerNumber source)
  · rcases map_eq_ok.mp read with ⟨target, place, rfl⟩
    rcases map_eq_ok.mp filled with ⟨bits, found, rfl⟩
    exact .branch (Distance.of_resolve (by decide) place found)
  · rcases map_eq_ok.mp read with ⟨base, number, rfl⟩
    cases filled
    exact .jump (names_of_registerNumber number)
  · rcases map_eq_ok.mp read with ⟨target, place, rfl⟩
    rcases map_eq_ok.mp filled with ⟨bits, found, rfl⟩
    exact .call (Distance.of_resolve (by decide) place found)
  · rcases map_eq_ok.mp read with ⟨base, number, rfl⟩
    cases filled
    exact .callRegister (names_of_registerNumber number)
  · rcases bind_eq_ok.mp read with ⟨register, number, read⟩
    rcases bind_eq_ok.mp read with ⟨target, place, read⟩
    cases read
    rcases map_eq_ok.mp filled with ⟨bits, found, rfl⟩
    exact .direct (names_of_registerNumber number) (Distance.of_resolve (by decide) place found)
  · rcases bind_eq_ok.mp read with ⟨register, number, read⟩
    rcases bind_eq_ok.mp read with ⟨base, origin, read⟩
    rcases bind_eq_ok.mp read with ⟨offset, distance, read⟩
    cases read
    cases filled
    exact .based (names_of_registerNumber number) (names_of_registerNumber origin)
      (Numeral.parse_of_signed (by decide) distance)
  · rcases map_eq_ok.mp read with ⟨vector, number, rfl⟩
    cases filled
    exact .trap (Numeral.parse_of_unsigned (by decide) number)
  · cases read
    cases filled
    exact .service
  · cases read
    cases filled
    exact .subroutineReturn
  · cases read
    cases filled
    exact .interruptReturn
  · cases read

theorem denotes_of_encode {labels : Labels} {pc : Nat} {mnemonic : String}
    {operands : List String} {encoding : Encoding}
    (encoded : Profile.baseline.encode labels pc mnemonic operands = .ok encoding) :
    ∃ instruction : Instruction BitVec, encoding.words = [instruction.word.toNat] ∧
      ∀ meaning, Denotes labels pc mnemonic operands meaning ↔ meaning = instruction.meaning := by
  rcases bind_eq_ok.mp encoded with ⟨instruction, read, encoded⟩
  rcases bind_eq_ok.mp encoded with ⟨resolved, filled, encoded⟩
  cases encoded
  unfold parse at read
  cases found : mnemonics.lookup mnemonic with
  | none =>
      rw [found] at read
      cases read
  | some form =>
      rw [found] at read
      have told : form.Says labels pc operands resolved.meaning := .of_parse read filled
      refine ⟨resolved, rfl, fun meaning => ⟨?_, ?_⟩⟩
      · rintro ⟨other, spelled, denoted⟩
        cases found.symm.trans (mem_spellings_iff.mp spelled)
        exact denoted.unique told
      · rintro rfl
        exact ⟨form, mem_spellings_iff.mpr found, told⟩

/-! ## Instructions with the same word -/

/-- Instructions with different mnemonics that have the same word. -/
inductive Synonyms : String → List String → String → List String → Prop where
  | always (target other : String) : Synonyms "br" [target] "brnzp" [other]
  | subroutineReturn {base : String} (link : Names base 7) : Synonyms "ret" [] "jmp" [base]
  | service {mnemonic token : String} {vector : BitVec 8} (listed : (mnemonic, vector) ∈ services)
      (number : Numeral.parse token = .ok vector.toNat) : Synonyms mnemonic [] "trap" [token]

theorem spelling_of_branch {flags : BitVec 3} {mnemonic other : String}
    (spelled : mnemonic ∈ (Form.branch flags).spellings)
    (otherSpelled : other ∈ (Form.branch flags).spellings) :
    mnemonic = other ∨ mnemonic = "br" ∧ other = "brnzp" ∨ mnemonic = "brnzp" ∧ other = "br" := by
  have known : ∀ first ∈ branches, ∀ second ∈ branches, first.2 = second.2 →
      first.1 = second.1 ∨ first.1 = "br" ∧ second.1 = "brnzp" ∨
        first.1 = "brnzp" ∧ second.1 = "br" := by decide
  exact known _ (mem_namesOf.mp spelled) _ (mem_namesOf.mp otherSpelled) rfl

def Form.isBranch : Form → Bool
  | .branch _ => true
  | _ => false

theorem spelling_unique {form : Form} {mnemonic other : String}
    (plain : form.isBranch = false) (spelled : mnemonic ∈ form.spellings)
    (otherSpelled : other ∈ form.spellings) : mnemonic = other := by
  cases form with
  | branch flags => cases plain
  | service vector =>
      have known : ∀ first ∈ services, ∀ second ∈ services, first.2 = second.2 →
          first.1 = second.1 := by decide
      exact known _ (mem_namesOf.mp spelled) _ (mem_namesOf.mp otherSpelled) rfl
  | operate operation =>
      cases operation <;> rw [List.mem_singleton.mp spelled, List.mem_singleton.mp otherSpelled]
  | direct access =>
      cases access <;> rw [List.mem_singleton.mp spelled, List.mem_singleton.mp otherSpelled]
  | based access =>
      cases access <;> rw [List.mem_singleton.mp spelled, List.mem_singleton.mp otherSpelled]
  | _ => rw [List.mem_singleton.mp spelled, List.mem_singleton.mp otherSpelled]

theorem Denotes.mnemonic_eq_or_synonyms {labels otherLabels : Labels} {pc otherPc : Nat}
    {mnemonic other : String} {operands others : List String} {meaning : Meaning}
    (first : Denotes labels pc mnemonic operands meaning)
    (second : Denotes otherLabels otherPc other others meaning) :
    mnemonic = other ∨ Synonyms mnemonic operands other others ∨
      Synonyms other others mnemonic operands := by
  rcases first with ⟨form, spelled, told⟩
  rcases second with ⟨otherForm, otherSpelled, otherTold⟩
  cases told with
  | registers _ _ _ =>
      cases otherTold with
      | registers _ _ _ => exact .inl (spelling_unique rfl spelled otherSpelled)
  | immediate _ _ _ =>
      cases otherTold with
      | immediate _ _ _ => exact .inl (spelling_unique rfl spelled otherSpelled)
  | not _ _ =>
      cases otherTold with
      | not _ _ => exact .inl (spelling_unique rfl spelled otherSpelled)
  | branch _ =>
      cases otherTold with
      | branch _ =>
          rcases spelling_of_branch spelled otherSpelled with same | ⟨rfl, rfl⟩ | ⟨rfl, rfl⟩
          · exact .inl same
          · exact .inr (.inl (.always _ _))
          · exact .inr (.inr (.always _ _))
  | jump named =>
      cases otherTold with
      | jump _ => exact .inl (spelling_unique rfl spelled otherSpelled)
      | subroutineReturn =>
          cases List.mem_singleton.mp spelled
          cases List.mem_singleton.mp otherSpelled
          exact .inr (.inr (.subroutineReturn named))
  | subroutineReturn =>
      cases otherTold with
      | jump named =>
          cases List.mem_singleton.mp spelled
          cases List.mem_singleton.mp otherSpelled
          exact .inr (.inl (.subroutineReturn named))
      | subroutineReturn => exact .inl (spelling_unique rfl spelled otherSpelled)
  | call _ =>
      cases otherTold with
      | call _ => exact .inl (spelling_unique rfl spelled otherSpelled)
  | callRegister _ =>
      cases otherTold with
      | callRegister _ => exact .inl (spelling_unique rfl spelled otherSpelled)
  | direct _ _ =>
      cases otherTold with
      | direct _ _ => exact .inl (spelling_unique rfl spelled otherSpelled)
  | based _ _ _ =>
      cases otherTold with
      | based _ _ _ => exact .inl (spelling_unique rfl spelled otherSpelled)
  | trap number =>
      cases otherTold with
      | trap _ => exact .inl (spelling_unique rfl spelled otherSpelled)
      | service =>
          cases List.mem_singleton.mp spelled
          exact .inr (.inr (.service (mem_namesOf.mp otherSpelled) number))
  | @service vector =>
      generalize code : (vector.toNat : Int) = number at otherTold
      cases otherTold with
      | trap number =>
          cases List.mem_singleton.mp otherSpelled
          rw [← code] at number
          exact .inr (.inl (.service (mem_namesOf.mp spelled) number))
      | @service otherVector =>
          have same : vector = otherVector := BitVec.eq_of_toNat_eq (Int.ofNat.inj code)
          subst same
          exact .inl (spelling_unique rfl spelled otherSpelled)
  | interruptReturn =>
      cases otherTold with
      | interruptReturn => exact .inl (spelling_unique rfl spelled otherSpelled)

theorem Instruction.meaning_injective {first second : Instruction BitVec}
    (same : first.meaning = second.meaning) : first = second := by
  cases first with
  | operate operation rd rs source =>
      cases second with
      | operate operation rd rs other =>
          cases source <;> cases other <;> simp_all [meaning, BitVec.toInt_inj]
      | _ => cases source <;> cases same
  | _ =>
      cases second with
      | operate operation rd rs other => cases other <;> cases same
      | _ => simp_all [meaning, BitVec.toInt_inj, BitVec.toNat_inj]

/-- A word reads back as what its instruction says: what to do, with which registers and
with which number. Two instructions have the same word if they say the same, and then
they share their mnemonic too, save for a few that are synonyms. -/
theorem baseline_words_read_back :
    (∀ labels pc mnemonic operands encoding,
      Profile.baseline.encode labels pc mnemonic operands = .ok encoding →
      ∃ (word : Word) (meaning : Meaning),
        encoding.words = [word.toNat] ∧ decode word = some meaning ∧
        ∀ other, Denotes labels pc mnemonic operands other ↔ other = meaning) ∧
    ∀ labels pc mnemonic operands encoding otherLabels otherPc other others otherEncoding,
      Profile.baseline.encode labels pc mnemonic operands = .ok encoding →
      Profile.baseline.encode otherLabels otherPc other others = .ok otherEncoding →
      (encoding.words = otherEncoding.words ↔
        ∃ meaning, Denotes labels pc mnemonic operands meaning ∧
          Denotes otherLabels otherPc other others meaning) ∧
      (encoding.words = otherEncoding.words →
        mnemonic = other ∨ Synonyms mnemonic operands other others ∨
          Synonyms other others mnemonic operands) := by
  constructor
  · intro labels pc mnemonic operands encoding encoded
    rcases denotes_of_encode encoded with ⟨instruction, words, denotes⟩
    exact ⟨instruction.word, instruction.meaning, words, decode_word instruction, denotes⟩
  · intro labels pc mnemonic operands encoding otherLabels otherPc other others otherEncoding
      encoded otherEncoded
    rcases denotes_of_encode encoded with ⟨first, words, denotes⟩
    rcases denotes_of_encode otherEncoded with ⟨second, otherWords, otherDenotes⟩
    have shared (same : encoding.words = otherEncoding.words) : first.meaning = second.meaning := by
      rw [words, otherWords, List.cons.injEq] at same
      have word : first.word = second.word := BitVec.eq_of_toNat_eq same.1
      exact Option.some.inj ((decode_word first).symm.trans (word ▸ decode_word second))
    have both (same : encoding.words = otherEncoding.words) :
        Denotes labels pc mnemonic operands first.meaning ∧
          Denotes otherLabels otherPc other others first.meaning :=
      ⟨(denotes _).mpr rfl, (otherDenotes _).mpr (shared same)⟩
    refine ⟨⟨fun same => ⟨_, both same⟩, ?_⟩, fun same =>
      (both same).1.mnemonic_eq_or_synonyms (both same).2⟩
    rintro ⟨meaning, denoted, otherDenoted⟩
    have equal : first = second :=
      Instruction.meaning_injective
        (((denotes _).mp denoted).symm.trans ((otherDenotes _).mp otherDenoted))
    rw [words, otherWords, equal]

/-- A branch back over five words, and a jump with a mnemonic of its own. -/
theorem baseline_branch_and_return_read_back :
    let labels : Labels := ⟨⟨[⟨"loop", 0⟩]⟩, ⟨0x3000⟩, .second⟩
    Profile.baseline.encode labels 5 "brnz" ["loop"] = .ok ⟨[0x0DFA], false⟩ ∧
    (∀ meaning, Denotes labels 5 "brnz" ["loop"] meaning ↔
      meaning = ⟨.branch 0b110, [], some (-6)⟩) ∧
    ∃ meaning, Denotes labels 6 "ret" [] meaning ∧ Denotes labels 9 "jmp" ["r7"] meaning := by
  intro labels
  have branch : Profile.baseline.encode labels 5 "brnz" ["loop"] = .ok ⟨[0x0DFA], false⟩ := by rfl
  have back : Profile.baseline.encode labels 6 "ret" [] = .ok ⟨[0xC1C0], false⟩ := by rfl
  have jump : Profile.baseline.encode labels 9 "jmp" ["r7"] = .ok ⟨[0xC1C0], false⟩ := by rfl
  rcases baseline_words_read_back.1 _ _ _ _ _ branch with ⟨word, meaning, words, decoded, denotes⟩
  have known : word = 0x0DFA := BitVec.eq_of_toNat_eq (List.cons.inj words).1.symm
  have reading : decode 0x0DFA = some ⟨.branch 0b110, [], some (-6)⟩ := by decide
  rw [known, reading] at decoded
  cases decoded
  exact ⟨branch, denotes, (baseline_words_read_back.2 _ _ _ _ _ _ _ _ _ _ back jump).1.mp rfl⟩

end TwoPass.Baseline
