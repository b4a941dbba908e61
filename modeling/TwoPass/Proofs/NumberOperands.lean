import TwoPass.Proofs.RegisterAliases

/-! # Numbers in compact words

Many instructions hold a number, as an immediate or as a distance from the program counter.
Its field is read with a sign or without one, by the encoding, so an encoding holds one
number. There is one exception: `adr` and `add` from the program counter have the same
encoding, and only the first of them has a sign. -/

namespace TwoPass.Compact

/-! ## Operands that stand for numbers -/

inductive NumberOperand where
  | immediate (token : String)
  | displacement (token : String)
deriving DecidableEq

namespace NumberOperand

inductive StandsFor (labels : Labels) (pc : Nat) : NumberOperand → Int → Prop where
  | immediate {token : String} {value : Int} (spelled : Numeral.parse token = .ok value) :
      StandsFor labels pc (.immediate token) value
  | displacement {token : String} {value : Int} (distance : Distance labels pc token value) :
      StandsFor labels pc (.displacement token) value

theorem StandsFor.iff_eq {labels : Labels} {pc : Nat} {operand : NumberOperand} {value : Int}
    (stands : operand.StandsFor labels pc value) (number : Int) :
    operand.StandsFor labels pc number ↔ number = value := by
  refine ⟨fun other => ?_, fun equal => equal ▸ stands⟩
  cases stands with
  | immediate spelled =>
      cases other with
      | immediate otherSpelled => exact Except.ok.inj (otherSpelled.symm.trans spelled)
  | displacement distance =>
      cases other with
      | displacement otherDistance => exact otherDistance.unique distance

def ofLast? (token : String) : Option NumberOperand :=
  if namesRegister token then none else some (.immediate token)

/-- The number in the operands of a load or store after its first: in brackets with a base
register, or alone. -/
def ofMemory? (operands : List String) : Option NumberOperand :=
  match enclosed? '[' ']' operands, operands with
  | some [base, offset], _ =>
    if Register.ofName? .sixteen base = some .pc then some (.displacement offset)
    else ofLast? offset
  | none, [target] => some (.displacement target)
  | _, _ => none

end NumberOperand

def Form.number? (form : Form) (operands : List String) : Option NumberOperand :=
  match form, operands with
  | .shift _ _, [_, _, amount] => some (.immediate amount)
  | .add, [_, _, last] | .subtract, [_, _, last] => NumberOperand.ofLast? last
  | .add, [_, source] | .subtract, [_, source] | .move, [_, source] | .compare, [_, source] =>
    NumberOperand.ofLast? source
  | .memory _ _, _ :: operands => NumberOperand.ofMemory? operands
  | .branchIf _, [target] | .branch, [target] | .branchLink, [target] | .address, [_, target] =>
    some (.displacement target)
  | .softwareInterrupt, [number] => some (.immediate number)
  | _, _ => none

def numberOperand? (mnemonic : String) (operands : List String) : Option NumberOperand :=
  (mnemonics.lookup mnemonic).bind (·.number? operands)

/-! ## Numbers of encodings -/

/-- The number that an encoding holds. Its field has a sign if it is relative to the program
counter, except where an address is formed. -/
def Instruction.number? : Instruction BitVec → Option Int
  | .shift _ amount _ _ => some amount.toNat
  | .sumImmediate _ value _ _ => some value.toNat
  | .byte _ _ value => some value.toNat
  | .immediateOffset _ _ offset _ _ | .halfword _ offset _ _ => some offset.toNat
  | .stackOffset _ _ offset | .baseAddress _ _ offset | .relativeAddress _ offset =>
    some offset.toNat
  | .adjustStack _ amount => some amount.toNat
  | .softwareInterrupt number => some number.toNat
  | .loadRelative _ target | .branchIf _ target => some target.toInt
  | .branch target | .branchLink target => some target.toInt
  | .sumRegister .. | .alu .. | .high .. | .branchExchange _ | .registerOffset ..
  | .stackList .. | .multiple .. => none

/-- The number that a row holds. Only one row reads it otherwise than its encoding does. -/
def Row.number? : Row → Option Int
  | .relativeAddress _ target => some target.toInt
  | row => row.encoding.number?

def NumberOperand.Tells (labels : Labels) (pc : Nat) (operand : NumberOperand) (row : Row) : Prop :=
  ∃ value, operand.StandsFor labels pc value ∧ row.number? = some value

section Says

variable {labels : Labels} {pc : Nat} {row : Row} {operand : NumberOperand}

namespace NumberOperand

theorem eq_of_ofLast? {token : String} (number : ofLast? token = some operand) :
    operand = .immediate token := by
  unfold ofLast? at number
  split at number
  · cases number
  · exact (Option.some.inj number).symm

theorem ofLast?_of_names {token : String} {register : Register} (named : Names token register) :
    ofLast? token = none :=
  if_pos (namesRegister_of_named named)

section Group

variable {group : List String} {base : String} {offset? : Option String}
  (grouped : enclosed? '[' ']' group = some (base :: offset?.toList))
include grouped

theorem ofMemory?_of_counter (counter : Names base .pc) :
    ofMemory? group = offset?.map .displacement := by
  have named : Register.ofName? .sixteen base = some .pc := counter
  cases offset? with
  | none => simp only [ofMemory?, grouped, Option.toList]; rfl
  | some offset => simp only [ofMemory?, grouped, Option.toList, if_pos named]; rfl

theorem ofMemory?_of_other {register : Register} (named : Names base register)
    (other : register ≠ .pc) : ofMemory? group = offset?.bind ofLast? := by
  have differs : Register.ofName? .sixteen base ≠ some .pc := fun counter =>
    other (named.unique counter)
  cases offset? with
  | none => simp only [ofMemory?, grouped, Option.toList]; rfl
  | some offset => simp only [ofMemory?, grouped, Option.toList, if_neg differs]; rfl

end Group

theorem Tells.of_spells {token : String} {bits : BitVec width} (spelled : Spells token bits)
    (held : row.number? = some (bits.toNat : Int)) :
    Tells labels pc (.immediate token) row :=
  ⟨_, .immediate spelled, held⟩

theorem Tells.of_reaches {token : String} {bits : BitVec width}
    (distance : Reaches labels pc token bits) (held : row.number? = some bits.toInt) :
    Tells labels pc (.displacement token) row :=
  ⟨_, .displacement distance, held⟩

end NumberOperand

theorem Sum.Says.tells {sum : Sum} {first second third : String}
    (told : sum.Says first second third row)
    (number : NumberOperand.ofLast? third = some operand) : operand.Tells labels pc row := by
  cases told with
  | register _ _ last =>
      cases number.symm.trans (NumberOperand.ofLast?_of_names last)
  | immediate _ _ spelled =>
      rw [NumberOperand.eq_of_ofLast? number]
      exact .of_spells spelled rfl

theorem Arithmetic.Says.tells {arithmetic : Arithmetic} {first second : String}
    (told : arithmetic.Says first second row)
    (number : NumberOperand.ofLast? second = some operand) : operand.Tells labels pc row := by
  cases told with
  | pair _ source => cases number.symm.trans (NumberOperand.ofLast?_of_names source)
  | high _ _ source _ => cases number.symm.trans (NumberOperand.ofLast?_of_names source)
  | stack _ _ spelled =>
      rw [NumberOperand.eq_of_ofLast? number]
      exact .of_spells spelled rfl
  | byte _ spelled =>
      rw [NumberOperand.eq_of_ofLast? number]
      exact .of_spells spelled rfl

/-- An offset that is not from the program counter is a number without a sign, or a register. -/
theorem Offset.Says.tells {group : List String} {base : String} {register : Register}
    {offset? : Option String} {offset : Offset width}
    (grouped : enclosed? '[' ']' group = some (base :: offset?.toList))
    (named : Names base register) (other : register ≠ .pc) (read : offset.Says Spells offset?)
    (held : row.number? = some (offset.bits.toNat : Int))
    (number : NumberOperand.ofMemory? group = some operand) : operand.Tells labels pc row := by
  rw [NumberOperand.ofMemory?_of_other grouped named other] at number
  cases read with
  | given spelled =>
      rw [NumberOperand.eq_of_ofLast? number]
      exact .of_spells spelled held
  | omitted => cases number

theorem Extent.Says.tells {access : Access} {extent : Extent} {rd : BitVec 3} {base : String}
    {offset? : Option String} {group : List String}
    (told : extent.Says labels pc access rd base offset? row)
    (grouped : enclosed? '[' ']' group = some (base :: offset?.toList))
    (number : NumberOperand.ofMemory? group = some operand) : operand.Tells labels pc row := by
  have low {rb : BitVec 3} : (⟨.low, rb⟩ : Register) ≠ .pc := fun same =>
    absurd (show Bank.low = Bank.high from congrArg Register.bank same) (by decide)
  cases told with
  | stack pointer read => exact read.tells grouped pointer (by decide) rfl number
  | counter _ counter read =>
      rw [NumberOperand.ofMemory?_of_counter grouped counter] at number
      cases read with
      | given distance =>
          cases number
          exact .of_reaches distance rfl
      | omitted => cases number
  | register _ based last =>
      rw [NumberOperand.ofMemory?_of_other grouped based low] at number
      cases number.symm.trans (NumberOperand.ofLast?_of_names last)
  | immediate _ based read => exact read.tells grouped based low rfl number
  | halfword based read => exact read.tells grouped based low rfl number

theorem Form.Says.tells {form : Form} {operands : List String}
    (told : form.Says labels pc operands row) (number : form.number? operands = some operand) :
    operand.Tells labels pc row := by
  cases told with
  | shiftByNumber _ _ spelled =>
      cases number
      exact .of_spells spelled rfl
  | shiftByRegister _ _ => cases number
  | alu _ _ => cases number
  | addToBase _ _ spelled =>
      rw [NumberOperand.eq_of_ofLast? number]
      exact .of_spells spelled rfl
  | addThree told => exact told.tells number
  | subtractThree told => exact told.tells number
  | add told => exact told.tells number
  | subtract told => exact told.tells number
  | move told => exact told.tells number
  | compare told => exact told.tells number
  | branchExchange _ => cases number
  | @loadRelative _ target _ _ _ bare distance =>
      have alone : enclosed? '[' ']' [target] = none := by
        cases grouped : enclosed? '[' ']' [target] with
        | none => rfl
        | some entries => cases bare.symm.trans (startsWith_of_enclosed? grouped)
      simp only [Form.number?, NumberOperand.ofMemory?, alone] at number
      cases number
      exact .of_reaches distance rfl
  | memory _ grouped told => exact told.tells grouped number
  | stackList _ => cases number
  | multiple _ _ _ => cases number
  | branchIf _ distance =>
      cases number
      exact .of_reaches distance rfl
  | softwareInterrupt spelled =>
      cases number
      exact .of_spells spelled rfl
  | branch distance =>
      cases number
      exact .of_reaches distance rfl
  | branchLink distance =>
      cases number
      exact .of_reaches distance rfl
  | address _ distance =>
      cases number
      exact .of_reaches distance rfl
  | noOperation => cases number

end Says

/-! ## Rows with one encoding -/

/-- An address at a negative distance, and one formed by what stands in its field without
the sign. -/
inductive Row.WrapsAround : Row → Int → Row → Int → Prop where
  | intro (rd : BitVec 3) (target : BitVec 8) (negative : target.toInt < 0) :
      WrapsAround (.relativeAddress rd target) target.toInt (.baseAddress rd .pc target)
        (target.toInt + 256)

namespace Row

theorem number?_cases (row : Row) :
    (∃ rd target, row = .relativeAddress rd target) ∨ row.number? = row.encoding.number? := by
  cases row with
  | relativeAddress rd target => exact .inl ⟨rd, target, rfl⟩
  | _ => exact .inr rfl

theorem eq_of_encoding {row : Row} {rd : BitVec 3} {offset : BitVec 8}
    (same : row.encoding = .baseAddress .pc rd offset) :
    row = .relativeAddress rd offset ∨ row = .baseAddress rd .pc offset := by
  cases row with
  | relativeAddress => cases same; exact .inl rfl
  | baseAddress => cases same; exact .inr rfl
  | _ => cases same

theorem number_of_address {row : Row} {rd : BitVec 3} {target : BitVec 8} {value : Int}
    (same : row.encoding = .baseAddress .pc rd target) (held : row.number? = some value) :
    value = target.toInt ∨ WrapsAround (.relativeAddress rd target) target.toInt row value := by
  obtain rfl | rfl := eq_of_encoding same
  · exact .inl (Option.some.inj held).symm
  · have unsigned : (target.toNat : Int) = value := Option.some.inj held
    have bound : target.toNat < 256 := target.isLt
    by_cases negative : target.toInt < 0
    · have wraps : value = target.toInt + 256 := by
        rw [BitVec.toInt_eq_toNat_cond] at negative ⊢
        split at negative <;> omega
      exact .inr (wraps ▸ .intro rd target negative)
    · left
      rw [BitVec.toInt_eq_toNat_cond] at negative ⊢
      split at negative <;> omega

theorem number_of_encoding {row other : Row} {value otherValue : Int}
    (same : row.encoding = other.encoding) (held : row.number? = some value)
    (otherHeld : other.number? = some otherValue) :
    value = otherValue ∨ WrapsAround row value other otherValue ∨
      WrapsAround other otherValue row value := by
  obtain ⟨rd, target, rfl⟩ | plain := row.number?_cases
  · obtain rfl : target.toInt = value := Option.some.inj held
    obtain equal | wraps := number_of_address same.symm otherHeld
    · exact .inl equal.symm
    · exact .inr (.inl wraps)
  · obtain ⟨rd, target, rfl⟩ | otherPlain := other.number?_cases
    · obtain rfl : target.toInt = otherValue := Option.some.inj otherHeld
      obtain equal | wraps := number_of_address same held
      · exact .inl equal
      · exact .inr (.inr wraps)
    · rw [plain, same, ← otherPlain] at held
      exact .inl (Option.some.inj (held.symm.trans otherHeld))

end Row

/-! ## Instructions with one word -/

/-- An address by `adr` at a negative distance, and one by `add` from the program counter at
what stands in the field for that distance without the sign. -/
inductive SharesAddress : String → List String → Int → String → List String → Int → Prop where
  | intro {first target otherFirst amount : String} {rd : BitVec 3} {value : Int}
      (destination : NamesLow first rd) (otherDestination : NamesLow otherFirst rd)
      (negative : value < 0) :
      SharesAddress "adr" [first, target] value "add" [otherFirst, "pc", amount] (value + 256)

theorem SharesAddress.eq_adr {mnemonic other : String} {operands others : List String}
    {value otherValue : Int}
    (shares : SharesAddress mnemonic operands value other others otherValue) :
    mnemonic = "adr" := by
  cases shares
  rfl

theorem lookup_address : mnemonics.lookup "adr" = some .address := by
  decide +kernel

section Denotes

variable {labels : Labels} {pc : Nat} {mnemonic : String} {operands : List String} {row : Row}

theorem Denotes.form_says {form : Form} (denotes : Denotes labels pc mnemonic operands row)
    (known : mnemonics.lookup row.mnemonic = some form) : form.Says labels pc operands row := by
  obtain ⟨named, found, listed, told⟩ := denotes
  rw [named] at known
  cases known.symm.trans (mem_mnemonics_iff.mp listed)
  exact told

theorem Denotes.exists_of_relativeAddress {rd : BitVec 3} {bits : BitVec 8}
    (denotes : Denotes labels pc mnemonic operands (.relativeAddress rd bits)) :
    mnemonic = "adr" ∧ ∃ first target, operands = [first, target] ∧ NamesLow first rd := by
  refine ⟨denotes.1.symm, ?_⟩
  cases denotes.form_says lookup_address with
  | address destination _ => exact ⟨_, _, rfl, destination⟩

theorem Denotes.exists_of_baseAddress {rd : BitVec 3} {offset : BitVec 8}
    (denotes : Denotes labels pc mnemonic operands (.baseAddress rd .pc offset)) :
    mnemonic = "add" ∧ ∃ first amount, operands = [first, "pc", amount] ∧ NamesLow first rd := by
  have known : mnemonics.lookup "add" = some .add := lookup_sum .add
  refine ⟨denotes.1.symm, ?_⟩
  generalize whole : Row.baseAddress rd .pc offset = row at denotes
  have told : Form.add.Says labels pc operands row := denotes.form_says (whole ▸ known)
  cases told with
  | addToBase destination spelled _ =>
      cases whole
      exact ⟨_, _, by rw [spelled]; rfl, destination⟩
  | addThree told => cases told <;> cases whole
  | add told => cases told <;> cases whole

theorem Denotes.tells {operand : NumberOperand} (denotes : Denotes labels pc mnemonic operands row)
    (number : numberOperand? mnemonic operands = some operand) : operand.Tells labels pc row := by
  obtain ⟨-, form, listed, told⟩ := denotes
  rw [numberOperand?, mem_mnemonics_iff.mp listed] at number
  exact told.tells number

theorem Row.WrapsAround.sharesAddress {otherLabels : Labels} {otherPc : Nat} {other : String}
    {others : List String} {otherRow : Row} {value otherValue : Int}
    (wraps : row.WrapsAround value otherRow otherValue)
    (denotes : Denotes labels pc mnemonic operands row)
    (otherDenotes : Denotes otherLabels otherPc other others otherRow) :
    SharesAddress mnemonic operands value other others otherValue := by
  cases wraps with
  | intro rd target negative =>
      obtain ⟨rfl, first, token, rfl, destination⟩ := denotes.exists_of_relativeAddress
      obtain ⟨rfl, otherFirst, amount, rfl, otherDestination⟩ :=
        otherDenotes.exists_of_baseAddress
      exact .intro destination otherDestination negative

end Denotes

theorem Row.encoding_eq_of_words {row other : Row}
    (same : [row.encoding.word.toNat] = [other.encoding.word.toNat]) :
    row.encoding = other.encoding := by
  have word : row.encoding.word = other.encoding.word :=
    BitVec.eq_of_toNat_eq (List.cons.inj same).1
  exact Option.some.inj ((decode_encoding row).symm.trans (word ▸ decode_encoding other))

/-! ## Addresses with one word -/

section Address

variable {labels : Labels} {pc : Nat}

theorem exists_target_of_distance {field : Field} {token : String} {value : Int}
    (distance : Distance labels pc token value) (admitted : field.Admits value) :
    ∃ target : Target field.width, Target.parse field token = .ok target ∧
      target.resolve labels pc field = .ok (BitVec.ofInt field.width value) := by
  have encoded := Field.encode_of_admits admitted
  cases distance with
  | number spelled =>
      have number : readsAsNumber token = true := by
        cases label : readsAsNumber token with
        | true => rfl
        | false => cases spelled.symm.trans (Numeral.parse_of_label label)
      refine ⟨.distance (BitVec.ofInt field.width value), ?_, rfl⟩
      rw [Target.parse, if_pos number, Numeral.immediate, spelled, ok_bind, encoded]
      rfl
  | label label bound =>
      refine ⟨.label token, if_neg (ne_true_of_eq_false label), ?_⟩
      rw [Target.resolve, Labels.displacement, Labels.offset, bound]
      dsimp only [ok_bind]
      rw [encoded]
      rfl
  | awaited label unbound early =>
      refine ⟨.label token, if_neg (ne_true_of_eq_false label), ?_⟩
      rw [Target.resolve, Labels.displacement, Labels.offset, unbound, early]
      exact congrArg Except.ok (BitVec.ofInt_natCast field.width 0).symm

theorem exists_words_of_address {first target : String} {rd : BitVec 3} {value : Int}
    (destination : NamesLow first rd) (distance : Distance labels pc target value)
    (admitted : pcOffset8.Admits value) :
    ∃ encoding, Profile.compact.encode labels pc "adr" [first, target] = .ok encoding ∧
      encoding.words =
        [(Row.relativeAddress rd (BitVec.ofInt 8 value)).encoding.word.toNat] := by
  obtain ⟨slot, read, filled⟩ := exists_target_of_distance distance admitted
  have parsed : parse "adr" [first, target] = .ok (.relativeAddress rd slot) := by
    rw [parse, lookup_address]
    change (lowRegister first >>= fun rd => Target.parse pcOffset8 target >>= fun target =>
      pure (Instruction.relativeAddress rd target)) = _
    rw [lowRegister_of_namesLow destination, ok_bind, read]
    rfl
  have resolved : Instruction.resolve labels pc (.relativeAddress rd slot) =
      .ok (.relativeAddress rd (BitVec.ofInt 8 value)) := by
    change Instruction.relativeAddress rd <$> slot.resolve labels pc pcOffset8 = _
    rw [filled]
    rfl
  rw [Profile.encode, parsed, ok_bind, resolved]
  exact ⟨_, rfl, by rw [← Instruction.word_canonical]; rfl⟩

theorem exists_words_of_sum {first amount : String} {rd : BitVec 3} {offset : BitVec 8}
    (destination : NamesLow first rd) (spelled : Spells amount offset) :
    ∃ encoding, Profile.compact.encode labels pc "add" [first, "pc", amount] = .ok encoding ∧
      encoding.words = [(Row.baseAddress rd .pc offset).encoding.word.toNat] := by
  have parsed : parse "add" [first, "pc", amount] = .ok (.baseAddress .pc rd offset) :=
    (parse_address .pc first amount).trans
      (parseBaseAddress_eq_ok_iff.mpr ⟨rd, offset, destination, spelled, rfl⟩)
  rw [Profile.encode, parsed]
  exact ⟨_, rfl, rfl⟩

theorem exists_words_of_negative {otherLabels : Labels} {otherPc : Nat}
    {first target otherFirst amount : String} {rd : BitVec 3} {value : Int}
    (destination : NamesLow first rd) (otherDestination : NamesLow otherFirst rd)
    (distance : Distance labels pc target value) (low : -128 ≤ value) (negative : value < 0)
    (spelled : Numeral.parse amount = .ok (value + 256)) :
    ∃ encoding otherEncoding,
      Profile.compact.encode labels pc "adr" [first, target] = .ok encoding ∧
      Profile.compact.encode otherLabels otherPc "add" [otherFirst, "pc", amount] =
        .ok otherEncoding ∧ encoding.words = otherEncoding.words := by
  have admitted : pcOffset8.Admits value := by
    change -128 ≤ value ∧ value ≤ 127
    omega
  have unsigned : ((BitVec.ofInt 8 value).toNat : Int) = value + 256 := by
    rw [BitVec.toNat_ofInt]
    omega
  have spells : Spells amount (BitVec.ofInt 8 value) := by
    rw [Spells, unsigned]
    exact spelled
  obtain ⟨encoding, accepted, words⟩ := exists_words_of_address destination distance admitted
  obtain ⟨otherEncoding, otherAccepted, otherWords⟩ :=
    exists_words_of_sum otherDestination spells
  exact ⟨encoding, otherEncoding, accepted, otherAccepted, words.trans otherWords.symm⟩

end Address

/-- Instructions with one word have one number, whatever their mnemonics, unless one is an
`adr` to a negative distance and the other an `add` from the program counter. These two do
share their word, for every distance from -128 to -1. -/
theorem one_word_one_number (labels otherLabels : Labels) (pc otherPc : Nat) :
    (∀ mnemonic operands encoding operand other others otherEncoding otherOperand,
      Profile.compact.encode labels pc mnemonic operands = .ok encoding →
      Profile.compact.encode otherLabels otherPc other others = .ok otherEncoding →
      encoding.words = otherEncoding.words →
      numberOperand? mnemonic operands = some operand →
      numberOperand? other others = some otherOperand →
      ∃ value otherValue,
        (∀ number, operand.StandsFor labels pc number ↔ number = value) ∧
        (∀ number, otherOperand.StandsFor otherLabels otherPc number ↔ number = otherValue) ∧
        (value = otherValue ∨
          SharesAddress mnemonic operands value other others otherValue ∨
          SharesAddress other others otherValue mnemonic operands value)) ∧
    ∀ first target otherFirst amount rd value,
      NamesLow first rd → NamesLow otherFirst rd → Distance labels pc target value →
      -128 ≤ value → value < 0 → Numeral.parse amount = .ok (value + 256) →
      ∃ encoding otherEncoding,
        Profile.compact.encode labels pc "adr" [first, target] = .ok encoding ∧
        Profile.compact.encode otherLabels otherPc "add" [otherFirst, "pc", amount] =
          .ok otherEncoding ∧ encoding.words = otherEncoding.words := by
  refine ⟨?_, fun first target otherFirst amount rd value => exists_words_of_negative⟩
  intro mnemonic operands encoding operand other others otherEncoding otherOperand accepted
    otherAccepted same number otherNumber
  obtain ⟨row, words, denoted⟩ := denotes_of_encode accepted
  obtain ⟨otherRow, otherWords, otherDenoted⟩ := denotes_of_encode otherAccepted
  have denotes := (denoted row).mpr rfl
  have otherDenotes := (otherDenoted otherRow).mpr rfl
  obtain ⟨value, stands, held⟩ := denotes.tells number
  obtain ⟨otherValue, otherStands, otherHeld⟩ := otherDenotes.tells otherNumber
  refine ⟨value, otherValue, stands.iff_eq, otherStands.iff_eq, ?_⟩
  have encodings : row.encoding = otherRow.encoding :=
    Row.encoding_eq_of_words (words.symm.trans (same.trans otherWords))
  obtain equal | wraps | wraps := Row.number_of_encoding encodings held otherHeld
  · exact .inl equal
  · exact .inr (.inl (wraps.sharesAddress denotes otherDenotes))
  · exact .inr (.inr (wraps.sharesAddress otherDenotes denotes))

/-- A load from a label and a load from a distance with one word are from one distance; an
`adr` to the same label has its word from an `add`. -/
theorem label_and_number_share_word :
    let labels := (Run.ofSource ⟨.compact, .library⟩
      ".orig x3000\nback: ldr r3, back\n.end").scan.labels
    let load : Encoding := ⟨[0x4BFF], false⟩
    Profile.compact.encode labels 0 "ldr" ["r3", "back"] = .ok load ∧
      Profile.compact.encode labels 9 "ldr" ["r3", "[pc", "#-1]"] = .ok load ∧
      (∃ value,
        (∀ number, NumberOperand.StandsFor labels 0 (.displacement "back") number ↔
          number = value) ∧
        ∀ number, NumberOperand.StandsFor labels 9 (.displacement "#-1") number ↔
          number = value) ∧
      Distance labels 0 "back" (-1) ∧
      ∃ encoding otherEncoding,
        Profile.compact.encode labels 0 "adr" ["r0", "back"] = .ok encoding ∧
        Profile.compact.encode labels 9 "add" ["r0", "pc", "#255"] = .ok otherEncoding ∧
        encoding.words = otherEncoding.words := by
  intro labels load
  have named : Profile.compact.encode labels 0 "ldr" ["r3", "back"] = .ok load := by
    decide +kernel
  have numbered : Profile.compact.encode labels 9 "ldr" ["r3", "[pc", "#-1]"] = .ok load := by
    decide +kernel
  have distance : Distance labels 0 "back" (-1) :=
    @Distance.label labels 0 "back" 0 (by decide +kernel) (by decide +kernel)
  obtain ⟨one, shared⟩ := one_word_one_number labels labels 0 9
  obtain ⟨value, otherValue, stands, otherStands, alike⟩ := one "ldr" _ _ (.displacement "back")
    "ldr" _ _ (.displacement "#-1") named numbered rfl (by decide +kernel) (by decide +kernel)
  have equal : value = otherValue := by
    obtain equal | shares | shares := alike
    · exact equal
    · exact absurd shares.eq_adr (by decide)
    · exact absurd shares.eq_adr (by decide)
  subst equal
  exact ⟨named, numbered, ⟨value, stands, otherStands⟩, distance,
    shared "r0" "back" "r0" "#255" 0 (-1) rfl rfl distance (by decide) (by decide)
      (by decide +kernel)⟩

/-- A word can stand for two numbers: `adr r0, #-1` and `add r0, pc, #255` are one word. -/
theorem negative_distance_shares_word :
    ¬∀ (labels otherLabels : Labels) (pc otherPc : Nat) (mnemonic other : String)
      (operands others : List String) (encoding otherEncoding : Encoding)
      (operand otherOperand : NumberOperand) (value otherValue : Int),
      labels.pass = .second → otherLabels.pass = .second →
      Profile.compact.encode labels pc mnemonic operands = .ok encoding →
      Profile.compact.encode otherLabels otherPc other others = .ok otherEncoding →
      encoding.words = otherEncoding.words →
      numberOperand? mnemonic operands = some operand →
      numberOperand? other others = some otherOperand →
      operand.StandsFor labels pc value → otherOperand.StandsFor otherLabels otherPc otherValue →
      value = otherValue := by
  intro alike
  have equal := alike ⟨{}, ⟨0x3000⟩, .second⟩ ⟨{}, ⟨0x3000⟩, .second⟩ 0 1 "adr" "add" ["r0", "#-1"]
    ["r0", "pc", "#255"] ⟨[0xA0FF], false⟩ ⟨[0xA0FF], false⟩ (.displacement "#-1")
    (.immediate "#255") (-1) 255 rfl rfl (by decide +kernel) (by decide +kernel) rfl
    (by decide +kernel) (by decide +kernel) (.displacement (.number (by decide +kernel)))
    (.immediate (by decide +kernel))
  exact absurd equal (by decide)

end TwoPass.Compact
