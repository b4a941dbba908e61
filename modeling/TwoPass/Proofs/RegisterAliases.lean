import TwoPass.Proofs.CompactWords
import TwoPass.Proofs.DefinedLabels
import TwoPass.Proofs.RegisterSpellings
import TwoPass.Proofs.StatementProblems

/-! # Registers by their aliases

Most operands are read by the register that they name, so that it may be spelled in any
way. Only `add` and `sub` look at the spelling: they form an address from a register, or
move the stack pointer, if the register is spelled by its alias. -/

namespace TwoPass.Compact

/-! ## Operands -/

def RegistersUnbound (table : SymbolTable) : Prop :=
  ∀ name, Profile.compact.isRegister name = true → table.offset? name = none

structure SameTarget (labels : Labels) (pc : Nat) (field : Field)
    (target other : Target field.width) : Prop where
  resolve : Alike Eq (target.resolve labels pc field) (other.resolve labels pc field)
  defers : target.label?.any labels.defers = other.label?.any labels.defers

structure SameInstruction (labels : Labels) (pc : Nat) (instruction other : Instruction Target) :
    Prop where
  resolve : Alike Eq (instruction.resolve labels pc) (other.resolve labels pc)
  defers : instruction.label?.any labels.defers = other.label?.any labels.defers

variable {labels : Labels} {pc : Nat}

theorem SameTarget.refl {field : Field} (target : Target field.width) :
    SameTarget labels pc field target target :=
  ⟨.refl _, rfl⟩

theorem SameInstruction.refl (instruction : Instruction Target) :
    SameInstruction labels pc instruction instruction :=
  ⟨.refl _, rfl⟩

theorem same_of_alike {read other : Except Problem (Instruction Target)}
    (alike : Alike Eq read other) : Alike (SameInstruction labels pc) read other := by
  cases alike with
  | ok results =>
      rw [results]
      exact .ok (.refl _)
  | error problem another => exact .error problem another

theorem RegistersUnbound.of_named {table : SymbolTable} {name : String} {register : Register}
    (unbound : RegistersUnbound table) (named : Register.ofName? .sixteen name = some register) :
    table.offset? name = none :=
  unbound name (Option.isSome_of_eq_some named)

/-- A name that is not bound is as good as any other. -/
theorem sameTarget_of_unbound {field : Field} {name other : String}
    (unbound : labels.table.offset? name = none)
    (otherUnbound : labels.table.offset? other = none) :
    SameTarget labels pc field (.label name) (.label other) := by
  constructor
  · simp only [Target.resolve, Labels.displacement, Labels.offset, unbound, otherUnbound]
    -- The first pass leaves both to the second, which knows neither.
    cases labels.pass with
    | first => exact .ok rfl
    | second => exact .error _ _
  · simp [Target.label?, Labels.defers, unbound, otherUnbound]

theorem lowNumber_alike (register : Register) (token other : String) :
    Alike Eq (lowNumber register token) (lowNumber register other) := by
  unfold lowNumber
  cases register.bank with
  | low => exact .ok rfl
  | high => exact .error _ _

theorem requireForm_alike (form : Option α) (token other : String) :
    Alike Eq (requireForm form token) (requireForm form other) := by
  cases form with
  | none => exact .error _ _
  | some form => exact .ok rfl

namespace Interchangeable

variable {token other : String}

theorem low (same : Interchangeable token other) :
    Alike Eq (lowRegister token) (lowRegister other) :=
  same.register.bind_eq fun register => lowNumber_alike register token other

theorem immediate (same : Interchangeable token other) (field : Field) :
    Alike Eq (Numeral.immediate field token) (Numeral.immediate field other) := by
  apply same.number.bind_eq
  intro value
  cases field.encode value with
  | ok bits => exact .ok rfl
  | error problem => exact .error _ _

theorem target (same : Interchangeable token other) (pc : Nat) (field : Field)
    (unbound : RegistersUnbound labels.table) :
    Alike (SameTarget labels pc field) (Target.parse field token) (Target.parse field other) := by
  unfold Target.parse
  rw [← same.reads]
  cases label : readsAsNumber token with
  | true =>
      apply (same.immediate field).map
      rintro bits _ rfl
      exact .refl _
  | false =>
      apply Alike.ok
      rcases same.label label with rfl | ⟨register, named, otherNamed⟩
      · exact .refl _
      · exact sameTarget_of_unbound (unbound.of_named named) (unbound.of_named otherNamed)

end Interchangeable

/-! ## Readers that go by the register -/

section

variable {rd rs last otherRd otherRs otherLast : String}

theorem parseSum_alike (sum : Sum) (destination : Interchangeable rd otherRd)
    (source : Interchangeable rs otherRs) (addend : Interchangeable last otherLast) :
    Alike Eq (parseSum sum rd rs last) (parseSum sum otherRd otherRs otherLast) := by
  refine source.low.bind_eq fun _ => destination.low.bind_eq fun _ => ?_
  rw [addend.names]
  cases namesRegister otherLast with
  | true => exact addend.low.bind_eq fun _ => .ok rfl
  | false => exact (addend.immediate immediate3).bind_eq fun _ => .ok rfl

theorem parseByte_alike (operation : ByteOperation) (destination : Interchangeable rd otherRd)
    (value : Interchangeable last otherLast) :
    Alike Eq (parseByte operation rd last) (parseByte operation otherRd otherLast) :=
  destination.low.bind_eq fun _ => (value.immediate immediate8).bind_eq fun _ => .ok rfl

theorem parsePair_alike (operation : HighOperation)
    (ofLow : BitVec 3 → BitVec 3 → Instruction Target) (destination : Interchangeable rd otherRd)
    (source : Interchangeable rs otherRs) :
    Alike Eq (parsePair operation ofLow rd rs) (parsePair operation ofLow otherRd otherRs) :=
  destination.register.bind_eq fun _ => source.register.bind_eq fun _ => .refl _

theorem parseBaseAddress_alike (base : AddressBase) (destination : Interchangeable rd otherRd)
    (offset : Interchangeable last otherLast) :
    Alike Eq (parseBaseAddress base rd last) (parseBaseAddress base otherRd otherLast) :=
  destination.low.bind_eq fun _ => (offset.immediate immediate8).bind_eq fun _ => .ok rfl

theorem pairOrByte_alike (operation : HighOperation)
    (ofLow : BitVec 3 → BitVec 3 → Instruction Target) (byte : ByteOperation)
    (destination : Interchangeable rd otherRd) (source : Interchangeable rs otherRs) :
    Alike Eq
      (if namesRegister rs then parsePair operation ofLow rd rs else parseByte byte rd rs)
      (if namesRegister otherRs then parsePair operation ofLow otherRd otherRs
        else parseByte byte otherRd otherRs) := by
  rw [source.names]
  cases namesRegister otherRs with
  | true => exact parsePair_alike operation ofLow destination source
  | false => exact parseByte_alike byte destination source

end

section

variable {base offset otherBase otherOffset : String} {operands others : List String}
  (unbound : RegistersUnbound labels.table)
include unbound

theorem relative_alike (field : Field) (place : Target field.width → Instruction Target)
    (fill : BitVec field.width → Instruction BitVec)
    (resolves : ∀ target,
      (place target).resolve labels pc = fill <$> target.resolve labels pc field)
    (refers : ∀ target, (place target).label? = target.label?)
    (same : Interchangeable offset otherOffset) :
    Alike (SameInstruction labels pc) (place <$> Target.parse field offset)
      (place <$> Target.parse field otherOffset) := by
  apply (same.target pc field unbound).map
  intro target another targets
  constructor
  · rw [resolves, resolves]
    exact targets.resolve.map fun _ _ bits => congrArg fill bits
  · rw [refers, refers]
    exact targets.defers

theorem parseRelative_alike (access : Access) (extent : Extent) (rd : BitVec 3)
    (same : Interchangeable offset otherOffset) :
    Alike (SameInstruction labels pc)
      (do
        let form ← requireForm (addressForms access extent).relative base
        return form rd (← Target.parse pcOffset8 offset))
      (do
        let form ← requireForm (addressForms access extent).relative otherBase
        return form rd (← Target.parse pcOffset8 otherOffset)) := by
  cases defined : (addressForms access extent).relative with
  | none => exact .error _ _
  | some form =>
      obtain ⟨-, -, rfl⟩ := addressForms_relative defined
      exact relative_alike unbound pcOffset8 (.loadRelative rd) (.loadRelative rd) (fun _ => rfl)
        (fun _ => rfl) same

theorem parseBased_alike (access : Access) (extent : Extent) (rd : BitVec 3)
    (bases : Interchangeable base otherBase) (offsets : Interchangeable offset otherOffset) :
    Alike (SameInstruction labels pc) (parseBased (addressForms access extent) rd base offset)
      (parseBased (addressForms access extent) rd otherBase otherOffset) := by
  refine bases.register.bind_eq fun register => ?_
  by_cases stack : register = .sp
  · rw [if_pos stack, if_pos stack]
    exact (requireForm_alike _ _ _).bind_eq fun form =>
      (offsets.immediate immediate8).bind_eq fun bits => .ok (.refl _)
  · rw [if_neg stack, if_neg stack]
    by_cases relative : register = .pc
    · rw [if_pos relative, if_pos relative]
      exact parseRelative_alike unbound access extent rd offsets
    · rw [if_neg relative, if_neg relative, offsets.names]
      cases namesRegister otherOffset with
      | true =>
          exact (requireForm_alike _ _ _).bind_eq fun form => offsets.low.bind_eq fun ro =>
            (lowNumber_alike register _ _).bind_eq fun rb => .ok (.refl _)
      | false =>
          exact (offsets.immediate immediate5).bind_eq fun bits =>
            (lowNumber_alike register _ _).bind_eq fun rb => .ok (.refl _)

theorem parseBracketed_alike (access : Access) (extent : Extent) (rd : BitVec 3)
    (respells : Respells operands others) :
    Alike (SameInstruction labels pc) (parseBracketed (addressForms access extent) rd operands)
      (parseBracketed (addressForms access extent) rd others) := by
  have groups := @enclosed?_of_respells '[' ']' rfl rfl _ _ respells
  unfold parseBracketed
  generalize enclosed? '[' ']' operands = group at groups
  generalize enclosed? '[' ']' others = otherGroup at groups
  cases groups with
  | none => exact .error _ _
  | some parts =>
      rcases parts with _ | ⟨bases, _ | ⟨offsets, _ | _⟩⟩
      · exact .error _ _
      · -- An offset that is left out is spelled the same on both sides.
        exact parseBased_alike unbound access extent rd bases.interchangeable
          (Respelled.same _).interchangeable
      · exact parseBased_alike unbound access extent rd bases.interchangeable
          offsets.interchangeable
      · exact .error _ _

theorem parseMemory_alike (access : Access) (extent : Extent)
    (destination : Interchangeable base otherBase) (respells : Respells operands others) :
    Alike (SameInstruction labels pc) (parseMemory (addressForms access extent) base operands)
      (parseMemory (addressForms access extent) otherBase others) := by
  refine destination.low.bind_eq fun rd => ?_
  rcases respells with _ | ⟨first, _ | ⟨second, later⟩⟩
  · exact parseBracketed_alike unbound access extent rd .nil
  · -- A single operand is a group or a displacement, by its first character.
    rename_i target another
    have marks : startsWith '[' target = startsWith '[' another := by
      rw [Bool.eq_iff_iff, startsWith, startsWith, beq_iff_eq, beq_iff_eq]
      exact first.head?_iff rfl
    dsimp only
    rw [marks]
    cases startsWith '[' another with
    | true => exact parseBracketed_alike unbound access extent rd (.cons first .nil)
    | false => exact parseRelative_alike unbound access extent rd first.interchangeable
  · exact parseBracketed_alike unbound access extent rd (.cons first (.cons second later))

end

theorem parseWriteBack_alike {token other : String}
    (respelled : Respelled token.toList other.toList) :
    Alike Eq (parseWriteBack token) (parseWriteBack other) := by
  have marks := @Respelled.getLast?_iff _ _ '!' rfl respelled
  unfold parseWriteBack
  by_cases marked : token.toList.getLast? = some '!'
  · rw [if_pos marked, if_pos (marks.mp marked)]
    have inner := @Respelled.dropLast _ _ '!' rfl respelled (.inr marked)
    rw [← String.toList_ofList (l := token.toList.dropLast),
      ← String.toList_ofList (l := other.toList.dropLast)] at inner
    exact inner.interchangeable.low
  · rw [if_neg marked, if_neg (marks.not.mp marked)]
    exact .error _ _

def subtractByRegister (rd source : String) : Except Problem (Instruction Target) :=
  if namesRegister source then do
    let rd ← lowRegister rd
    let rs ← lowRegister source
    return .sumRegister .subtract rs rd rd
  else
    parseByte .subtract rd source

def addByRegister (rd source : String) : Except Problem (Instruction Target) :=
  if namesRegister source then
    parsePair .add (fun rd rs => .sumRegister .add rs rd rd) rd source
  else
    parseByte .add rd source

/-- Read the operands of a mnemonic by the registers that they name, however these are
spelled. -/
def Form.readByRegister (form : Form) (mnemonic : String) (operands : List String) :
    Except Problem (Instruction Target) :=
  match form, operands with
  | .add, [rd, rs, last] => parseSum .add rd rs last
  | .add, [rd, source] => addByRegister rd source
  | .subtract, [rd, source] => subtractByRegister rd source
  | form, operands => form.parse mnemonic operands

theorem subtractByRegister_alike {rd source otherRd otherSource : String}
    (destination : Interchangeable rd otherRd) (sources : Interchangeable source otherSource) :
    Alike Eq (subtractByRegister rd source) (subtractByRegister otherRd otherSource) := by
  unfold subtractByRegister
  rw [sources.names]
  cases namesRegister otherSource with
  | true => exact destination.low.bind_eq fun _ => sources.low.bind_eq fun _ => .ok rfl
  | false => exact parseByte_alike .subtract destination sources

theorem Form.readByRegister_alike {form : Form} (mnemonic : String) {operands others : List String}
    (unbound : RegistersUnbound labels.table)
    (accepted : form.arity.accepts operands.length = true) (respells : Respells operands others) :
    Alike (SameInstruction labels pc) (form.readByRegister mnemonic operands)
      (form.readByRegister mnemonic others) := by
  have alike : List.Forall₂ Interchangeable operands others :=
    respells.imp fun _ _ respelled => respelled.interchangeable
  cases form with
  | shift kind operation =>
      apply same_of_alike
      rcases two_or_three accepted with ⟨_, _, rfl⟩ | ⟨_, _, _, rfl⟩
      · rcases alike with _ | ⟨rd, _ | ⟨rs, _ | _⟩⟩
        exact rs.low.bind_eq fun _ => rd.low.bind_eq fun _ => .ok rfl
      · rcases alike with _ | ⟨rd, _ | ⟨rs, _ | ⟨amount, _ | _⟩⟩⟩
        exact (amount.immediate immediate5).bind_eq fun _ =>
          rs.low.bind_eq fun _ => rd.low.bind_eq fun _ => .ok rfl
  | add =>
      apply same_of_alike
      rcases two_or_three accepted with ⟨_, _, rfl⟩ | ⟨_, _, _, rfl⟩
      · rcases alike with _ | ⟨rd, _ | ⟨source, _ | _⟩⟩
        exact pairOrByte_alike .add _ .add rd source
      · rcases alike with _ | ⟨rd, _ | ⟨rs, _ | ⟨last, _ | _⟩⟩⟩
        exact parseSum_alike .add rd rs last
  | subtract =>
      apply same_of_alike
      rcases two_or_three accepted with ⟨_, _, rfl⟩ | ⟨_, _, _, rfl⟩
      · rcases alike with _ | ⟨rd, _ | ⟨source, _ | _⟩⟩
        exact subtractByRegister_alike rd source
      · rcases alike with _ | ⟨rd, _ | ⟨rs, _ | ⟨last, _ | _⟩⟩⟩
        exact parseSum_alike .subtract rd rs last
  | move =>
      obtain ⟨_, _, rfl⟩ := List.length_eq_two.mp (beq_iff_eq.mp accepted)
      rcases alike with _ | ⟨rd, _ | ⟨source, _ | _⟩⟩
      exact same_of_alike (pairOrByte_alike .move _ .move rd source)
  | compare =>
      obtain ⟨_, _, rfl⟩ := List.length_eq_two.mp (beq_iff_eq.mp accepted)
      rcases alike with _ | ⟨rd, _ | ⟨source, _ | _⟩⟩
      exact same_of_alike (pairOrByte_alike .compare _ .compare rd source)
  | alu operation =>
      obtain ⟨_, _, rfl⟩ := List.length_eq_two.mp (beq_iff_eq.mp accepted)
      rcases alike with _ | ⟨rd, _ | ⟨rs, _ | _⟩⟩
      exact same_of_alike (rs.low.bind_eq fun _ => rd.low.bind_eq fun _ => .ok rfl)
  | branchExchange =>
      obtain ⟨_, rfl⟩ := List.length_eq_one_iff.mp (beq_iff_eq.mp accepted)
      rcases alike with _ | ⟨rs, _ | _⟩
      exact same_of_alike (rs.register.map fun _ _ same => congrArg _ same)
  | memory access extent =>
      cases respells with
      | nil => cases accepted
      | cons rd operands =>
          exact parseMemory_alike unbound access extent rd.interchangeable operands
  | stackList access extra =>
      apply same_of_alike
      exact (RegisterList.parse_alike respells (some extra)).bind_eq fun _ => .ok rfl
  | multiple access =>
      cases respells with
      | nil => cases accepted
      | cons base operands =>
          apply same_of_alike
          exact (parseWriteBack_alike base).bind_eq fun _ =>
            (RegisterList.parse_alike operands none).bind_eq fun _ => .ok rfl
  | branchIf condition =>
      obtain ⟨_, rfl⟩ := List.length_eq_one_iff.mp (beq_iff_eq.mp accepted)
      rcases alike with _ | ⟨target, _ | _⟩
      exact relative_alike unbound pcOffset8 (.branchIf condition) (.branchIf condition)
        (fun _ => rfl) (fun _ => rfl) target
  | softwareInterrupt =>
      obtain ⟨_, rfl⟩ := List.length_eq_one_iff.mp (beq_iff_eq.mp accepted)
      rcases alike with _ | ⟨number, _ | _⟩
      exact same_of_alike ((number.immediate immediate8).map fun _ _ same => congrArg _ same)
  | branch =>
      obtain ⟨_, rfl⟩ := List.length_eq_one_iff.mp (beq_iff_eq.mp accepted)
      rcases alike with _ | ⟨target, _ | _⟩
      exact relative_alike unbound pcOffset11 .branch .branch (fun _ => rfl) (fun _ => rfl) target
  | branchLink =>
      obtain ⟨_, rfl⟩ := List.length_eq_one_iff.mp (beq_iff_eq.mp accepted)
      rcases alike with _ | ⟨target, _ | _⟩
      exact relative_alike unbound pcOffset11 .branchLink .branchLink (fun _ => rfl)
        (fun _ => rfl) target
  | address =>
      obtain ⟨_, _, rfl⟩ := List.length_eq_two.mp (beq_iff_eq.mp accepted)
      rcases alike with _ | ⟨rd, _ | ⟨target, _ | _⟩⟩
      exact rd.low.bind_eq fun rd =>
        relative_alike unbound pcOffset8 (.relativeAddress rd) (.relativeAddress rd) (fun _ => rfl)
          (fun _ => rfl) target
  | noOperation =>
      obtain rfl := List.length_eq_zero_iff.mp (beq_iff_eq.mp accepted)
      cases respells
      exact .ok (.refl _)

def readByRegister (mnemonic : String) (operands : List String) :
    Except Problem (Instruction Target) := do
  match mnemonics.lookup mnemonic with
  | none => .error (.unknownMnemonic mnemonic)
  | some form =>
    form.arity.check mnemonic operands
    form.readByRegister mnemonic operands

theorem readByRegister_alike {mnemonic : String} {operands others : List String}
    (unbound : RegistersUnbound labels.table) (respells : Respells operands others) :
    Alike (SameInstruction labels pc) (readByRegister mnemonic operands)
      (readByRegister mnemonic others) := by
  unfold readByRegister
  cases mnemonics.lookup mnemonic with
  | none => exact .error _ _
  | some form =>
      have count : operands.length = others.length := respells.length_eq
      cases accepted : form.arity.accepts operands.length with
      | true =>
          dsimp only
          rw [Arity.check_of_accepted accepted, Arity.check_of_accepted (count ▸ accepted)]
          exact form.readByRegister_alike mnemonic unbound accepted respells
      | false =>
          dsimp only
          rw [Arity.check_of_rejected accepted, Arity.check_of_rejected (count ▸ accepted)]
          exact .error _ _

/-! ## Readers that go by the alias -/

/-- The instructions that are what they are because a register is spelled by its alias:
an address formed from a base, and a move of the stack pointer. -/
inductive GoesByAlias (mnemonic : String) (operands : List String) : Prop where
  | address (base : AddressBase) (rd amount : String) (number : BitVec 3) (offset : BitVec 8)
      (adds : mnemonic = "add") (spelled : operands = [rd, base.spelling, amount])
      (destination : NamesLow rd number) (told : Spells amount offset)
  | stack (sum : Sum) (amount : String) (distance : BitVec 7) (moves : mnemonic = sum.mnemonic)
      (spelled : operands = ["sp", amount]) (told : Spells amount distance)

theorem lowRegister_of_namesLow {token : String} {number : BitVec 3}
    (named : NamesLow token number) : lowRegister token = .ok number := by
  rw [lowRegister, eitherBank_of_named named]
  rfl

theorem immediate_of_spells {field : Field} {token : String} {bits : BitVec field.width}
    (unsigned : field.IsUnsigned) (spelled : Spells token bits) :
    Numeral.immediate field token = .ok bits := by
  rw [Numeral.immediate, spelled, ok_bind, Field.encode_toNat unsigned]

theorem parseBaseAddress_eq_ok_iff {base : AddressBase} {rd amount : String}
    {instruction : Instruction Target} :
    parseBaseAddress base rd amount = .ok instruction ↔
      ∃ number offset, NamesLow rd number ∧ Spells amount offset ∧
        instruction = .baseAddress base number offset := by
  constructor
  · intro read
    obtain ⟨number, destination, read⟩ := bind_eq_ok.mp read
    obtain ⟨offset, told, read⟩ := bind_eq_ok.mp read
    exact ⟨number, offset, namesLow_of_lowRegister destination,
      spells_of_immediate (by decide) told, (Except.ok.inj read).symm⟩
  · rintro ⟨number, offset, destination, told, rfl⟩
    have read : Numeral.immediate immediate8 amount = .ok offset :=
      immediate_of_spells (by decide) told
    rw [parseBaseAddress, lowRegister_of_namesLow destination, ok_bind, read]
    rfl

def parseAdjustment (sum : Sum) (amount : String) : Except Problem (Instruction Target) :=
  .adjustStack sum <$> Numeral.immediate immediate7 amount

theorem parseAdjustment_eq_ok_iff {sum : Sum} {amount : String}
    {instruction : Instruction Target} :
    parseAdjustment sum amount = .ok instruction ↔
      ∃ distance, Spells amount distance ∧ instruction = .adjustStack sum distance := by
  constructor
  · intro read
    obtain ⟨distance, told, rfl⟩ := map_eq_ok.mp read
    exact ⟨distance, spells_of_immediate (by decide) told, rfl⟩
  · rintro ⟨distance, told, rfl⟩
    have read : Numeral.immediate immediate7 amount = .ok distance :=
      immediate_of_spells (by decide) told
    rw [parseAdjustment, read]
    rfl

theorem namesRegister_of_spells {token : String} {bits : BitVec width}
    (spelled : Spells token bits) : namesRegister token = false := by
  apply Bool.eq_false_iff.mpr
  intro names
  have label : readsAsNumber token = false := by
    unfold namesRegister at names
    split at names
    · rename_i shape
      rw [readsAsNumber, shape]
      rfl
    · rename_i shape
      rw [readsAsNumber, shape]
      rfl
    · rename_i shape
      rw [readsAsNumber, shape]
      rfl
    · cases names
  cases Eq.trans (Eq.symm spelled) (Numeral.parse_of_label label)

/-! ### Instructions that go by an alias -/

def Sum.form : Sum → Form
  | .add => .add
  | .subtract => .subtract

theorem lookup_sum (sum : Sum) : mnemonics.lookup sum.mnemonic = some sum.form := by
  cases sum <;> decide +kernel

theorem parseAddThree_spelling (base : AddressBase) (rd amount : String) :
    parseAddThree rd base.spelling amount = parseBaseAddress base rd amount := by
  cases base with
  | pc => rfl
  | sp => rfl

theorem parse_address (base : AddressBase) (rd amount : String) :
    parse "add" [rd, base.spelling, amount] = parseBaseAddress base rd amount := by
  have found : mnemonics.lookup "add" = some .add := lookup_sum .add
  rw [← parseAddThree_spelling, parse, found]
  rfl

theorem parseAdd_stack {amount : String} (number : namesRegister amount = false) :
    parseAdd "sp" amount = parseAdjustment .add amount := by
  rw [parseAdd, number]
  rfl

theorem parse_stack (sum : Sum) {amount : String} {distance : BitVec 7}
    (told : Spells amount distance) :
    parse sum.mnemonic ["sp", amount] = parseAdjustment sum amount := by
  cases sum with
  | add =>
      rw [← parseAdd_stack (namesRegister_of_spells told), parse, lookup_sum]
      rfl
  | subtract =>
      rw [parse, lookup_sum]
      rfl

theorem lowRegister_spelling (base : AddressBase) :
    ∃ problem, lowRegister base.spelling = .error problem := by
  cases base with
  | pc => exact ⟨_, rfl⟩
  | sp => exact ⟨_, rfl⟩

theorem addByRegister_stack {amount : String} (number : namesRegister amount = false) :
    ∃ problem, addByRegister "sp" amount = .error problem := by
  rw [addByRegister, number]
  exact ⟨_, rfl⟩

theorem subtractByRegister_stack (amount : String) :
    ∃ problem, subtractByRegister "sp" amount = .error problem := by
  unfold subtractByRegister
  cases namesRegister amount with
  | true => exact ⟨_, rfl⟩
  | false => exact ⟨_, rfl⟩

theorem parseSum_spelling (base : AddressBase) (rd amount : String) :
    ∃ problem, parseSum .add rd base.spelling amount = .error problem := by
  obtain ⟨problem, failed⟩ := lowRegister_spelling base
  rw [parseSum, failed]
  exact ⟨problem, rfl⟩

theorem AddressBase.eq_of_interchangeable {base other : AddressBase}
    (same : Interchangeable base.spelling other.spelling) : base = other := by
  have registers := Alike.eq_iff_toOption.mp same.register
  cases base with
  | pc =>
      cases other with
      | pc => rfl
      | sp => exact absurd registers (by decide)
  | sp =>
      cases other with
      | pc => exact absurd registers (by decide)
      | sp => rfl

namespace GoesByAlias

variable {mnemonic : String} {operands others : List String}

theorem exists_ok (goes : GoesByAlias mnemonic operands) :
    ∃ instruction resolved, parse mnemonic operands = .ok instruction ∧
      instruction.resolve labels pc = .ok resolved := by
  cases goes with
  | address base rd amount number offset adds spelled destination told =>
      rw [adds, spelled, parse_address]
      exact ⟨_, _, parseBaseAddress_eq_ok_iff.mpr ⟨number, offset, destination, told, rfl⟩, rfl⟩
  | stack sum amount distance moves spelled told =>
      rw [moves, spelled, parse_stack sum told]
      exact ⟨_, _, parseAdjustment_eq_ok_iff.mpr ⟨distance, told, rfl⟩, rfl⟩

theorem readByRegister_eq_error (goes : GoesByAlias mnemonic operands) :
    ∃ problem, readByRegister mnemonic operands = .error problem := by
  cases goes with
  | address base rd amount number offset adds spelled destination told =>
      have found : mnemonics.lookup "add" = some .add := lookup_sum .add
      rw [adds, spelled, readByRegister, found]
      exact parseSum_spelling base rd amount
  | stack sum amount distance moves spelled told =>
      rw [moves, spelled, readByRegister, lookup_sum]
      cases sum with
      | add => exact addByRegister_stack (namesRegister_of_spells told)
      | subtract => exact subtractByRegister_stack amount

theorem parse_alike (goes : GoesByAlias mnemonic operands)
    (otherGoes : GoesByAlias mnemonic others) (respells : Respells operands others) :
    Alike Eq (parse mnemonic operands) (parse mnemonic others) := by
  cases goes with
  | address base rd amount number offset adds spelled =>
      cases otherGoes with
      | address otherBase otherRd otherAmount otherNumber otherOffset otherAdds otherSpelled =>
          rw [spelled, otherSpelled] at respells
          rcases respells with _ | ⟨destinations, _ | ⟨bases, _ | ⟨amounts, _ | _⟩⟩⟩
          have same := AddressBase.eq_of_interchangeable bases.interchangeable
          rw [adds, spelled, otherSpelled, same, parse_address, parse_address]
          exact parseBaseAddress_alike _ destinations.interchangeable amounts.interchangeable
      | stack sum otherAmount distance moves otherSpelled =>
          rw [spelled, otherSpelled] at respells
          cases respells.length_eq
  | stack sum amount distance moves spelled told =>
      cases otherGoes with
      | address base rd otherAmount number offset adds otherSpelled =>
          rw [spelled, otherSpelled] at respells
          cases respells.length_eq
      | stack otherSum otherAmount otherDistance otherMoves otherSpelled otherTold =>
          rw [spelled, otherSpelled] at respells
          rcases respells with _ | ⟨_, _ | ⟨amounts, _ | _⟩⟩
          rw [moves, spelled, otherSpelled, parse_stack sum told, parse_stack sum otherTold]
          exact (amounts.interchangeable.immediate immediate7).map fun _ _ bits =>
            congrArg _ bits

end GoesByAlias

/-! ### Instructions that do not -/

theorem parseAdjustment_eq_error {sum : Sum} {amount : String}
    (plain : ¬GoesByAlias sum.mnemonic ["sp", amount]) :
    ∃ problem, parseAdjustment sum amount = .error problem := by
  cases read : parseAdjustment sum amount with
  | ok instruction =>
      obtain ⟨distance, told, -⟩ := parseAdjustment_eq_ok_iff.mp read
      exact absurd (.stack sum amount distance rfl rfl told) plain
  | error problem => exact ⟨problem, rfl⟩

theorem parseBaseAddress_eq_error {base : AddressBase} {rd amount : String}
    (plain : ¬GoesByAlias "add" [rd, base.spelling, amount]) :
    ∃ problem, parseBaseAddress base rd amount = .error problem := by
  cases read : parseBaseAddress base rd amount with
  | ok instruction =>
      obtain ⟨number, offset, destination, told, -⟩ := parseBaseAddress_eq_ok_iff.mp read
      exact absurd (.address base rd amount number offset rfl rfl destination told) plain
  | error problem => exact ⟨problem, rfl⟩

theorem parseAdd_alike {rd source : String} (plain : ¬GoesByAlias "add" [rd, source]) :
    Alike Eq (parseAdd rd source) (addByRegister rd source) := by
  by_cases stack : rd = "sp"
  · rw [stack] at plain ⊢
    cases names : namesRegister source with
    | true =>
        rw [parseAdd, addByRegister, names]
        exact .refl _
    | false =>
        obtain ⟨problem, failed⟩ := @parseAdjustment_eq_error .add source plain
        obtain ⟨another, otherFailed⟩ := addByRegister_stack names
        rw [parseAdd_stack names, failed, otherFailed]
        exact .error _ _
  · rw [parseAdd, if_neg stack]
    exact .refl _

theorem parseSubtract_alike {rd source : String} (plain : ¬GoesByAlias "sub" [rd, source]) :
    Alike Eq (parseSubtract rd source) (subtractByRegister rd source) := by
  by_cases stack : rd = "sp"
  · rw [stack] at plain ⊢
    have read : parseSubtract "sp" source = parseAdjustment .subtract source := if_pos rfl
    obtain ⟨problem, failed⟩ := @parseAdjustment_eq_error .subtract source plain
    obtain ⟨another, otherFailed⟩ := subtractByRegister_stack source
    rw [read, failed, otherFailed]
    exact .error _ _
  · rw [parseSubtract, if_neg stack]
    exact .refl _

theorem parseAddThree_alike {rd rs last : String} (plain : ¬GoesByAlias "add" [rd, rs, last]) :
    Alike Eq (parseAddThree rd rs last) (parseSum .add rd rs last) := by
  by_cases based : ∃ base : AddressBase, rs = base.spelling
  · obtain ⟨base, rfl⟩ := based
    obtain ⟨problem, failed⟩ := parseBaseAddress_eq_error plain
    obtain ⟨another, otherFailed⟩ := parseSum_spelling base rd last
    rw [parseAddThree_spelling, failed, otherFailed]
    exact .error _ _
  · have stack : rs ≠ "sp" := fun same => based ⟨.sp, same⟩
    have counter : rs ≠ "pc" := fun same => based ⟨.pc, same⟩
    rw [parseAddThree, if_neg stack, if_neg counter]
    exact .refl _

/-- Unless it goes by an alias, an instruction is read by the registers that its operands
name. -/
theorem Form.parse_alike_readByRegister {form : Form} {mnemonic : String} {operands : List String}
    (found : mnemonics.lookup mnemonic = some form)
    (accepted : form.arity.accepts operands.length = true)
    (plain : ¬GoesByAlias mnemonic operands) :
    Alike Eq (form.parse mnemonic operands) (form.readByRegister mnemonic operands) := by
  have spelled := mem_spellings (mem_of_lookup found)
  cases form with
  | add =>
      obtain rfl := List.mem_singleton.mp spelled
      rcases two_or_three accepted with ⟨rd, source, rfl⟩ | ⟨rd, rs, last, rfl⟩
      · exact parseAdd_alike plain
      · exact parseAddThree_alike plain
  | subtract =>
      obtain rfl := List.mem_singleton.mp spelled
      rcases two_or_three accepted with ⟨rd, source, rfl⟩ | ⟨rd, rs, last, rfl⟩
      · exact parseSubtract_alike plain
      · exact .refl _
  | _ => exact .refl _

theorem parse_alike_readByRegister {mnemonic : String} {operands : List String}
    (plain : ¬GoesByAlias mnemonic operands) :
    Alike Eq (parse mnemonic operands) (readByRegister mnemonic operands) := by
  unfold parse readByRegister
  cases found : mnemonics.lookup mnemonic with
  | none => exact .error _ _
  | some form =>
      cases accepted : form.arity.accepts operands.length with
      | true =>
          dsimp only
          rw [Arity.check_of_accepted accepted]
          exact Form.parse_alike_readByRegister found accepted plain
      | false =>
          dsimp only
          rw [Arity.check_of_rejected accepted]
          exact .error _ _

/-! ## Encodings -/

def encoded (labels : Labels) (pc : Nat) (read : Except Problem (Instruction Target)) :
    Except Problem Encoding := do
  let instruction ← read
  let resolved ← instruction.resolve labels pc
  return ⟨[resolved.word.toNat], instruction.label?.any labels.defers⟩

theorem encoded_alike {read other : Except Problem (Instruction Target)}
    (alike : Alike (SameInstruction labels pc) read other) :
    (encoded labels pc read).toOption = (encoded labels pc other).toOption := by
  apply Alike.eq_iff_toOption.mp
  refine alike.bind fun instruction another same => same.resolve.bind_eq fun resolved => ?_
  rw [same.defers]
  exact .ok rfl

section

variable {mnemonic : String} {operands others : List String}

theorem encode_of_not_goesByAlias (plain : ¬GoesByAlias mnemonic operands) :
    (Profile.compact.encode labels pc mnemonic operands).toOption =
      (encoded labels pc (readByRegister mnemonic operands)).toOption :=
  encoded_alike (same_of_alike (parse_alike_readByRegister plain))

theorem encode_ne_of_goesByAlias (unbound : RegistersUnbound labels.table)
    (respells : Respells operands others) (goes : GoesByAlias mnemonic operands)
    (plain : ¬GoesByAlias mnemonic others) :
    (Profile.compact.encode labels pc mnemonic operands).toOption ≠
      (Profile.compact.encode labels pc mnemonic others).toOption := by
  obtain ⟨instruction, resolved, read, filled⟩ := @GoesByAlias.exists_ok labels pc _ _ goes
  obtain ⟨problem, refused⟩ := goes.readByRegister_eq_error
  have success : Profile.compact.encode labels pc mnemonic operands =
      .ok ⟨[resolved.word.toNat], instruction.label?.any labels.defers⟩ := by
    show encoded labels pc (parse mnemonic operands) = _
    rw [read, encoded, ok_bind, filled]
    rfl
  rw [success, encode_of_not_goesByAlias plain,
    ← encoded_alike (readByRegister_alike unbound respells), refused]
  intro same
  cases same

end

/-! ## Labels of a program -/

theorem RegistersUnbound.of_lawful {table : SymbolTable} (lawful : table.Lawful .compact) :
    RegistersUnbound table := by
  intro name register
  rw [SymbolTable.offset?, Option.map_eq_none_iff, List.find?_eq_none]
  intro definition member same
  have allowed := (lawful.allowed definition member).2
  rw [beq_iff_eq.mp same, register] at allowed
  cases allowed

theorem RegistersUnbound.of_grown {table full : SymbolTable}
    (grown : table.definitions <+: full.definitions) (unbound : RegistersUnbound full) :
    RegistersUnbound table := by
  intro name register
  cases bound : table.offset? name with
  | none => rfl
  | some offset =>
      have later := SymbolTable.offset?_of_prefix grown bound
      cases later.symm.trans (unbound name register)

/-- A program binds no register as a label: none is known when the first pass comes to a
statement, nor in the second pass. -/
theorem Run.registersUnbound (role : Role) (source : String) :
    RegistersUnbound (Run.ofSource ⟨.compact, role⟩ source).scan.labels.table ∧
      ∀ placement ∈ (Outline.ofSource ⟨.compact, role⟩ source).placements .compact,
        ∀ origin, RegistersUnbound (placement.known origin).table := by
  have unbound := RegistersUnbound.of_lawful (Run.symbols_lawful ⟨.compact, role⟩ source)
  refine ⟨unbound, fun placement member origin => .of_grown ?_ unbound⟩
  exact Run.grown ⟨.compact, role⟩ source member

/-- A register can be spelled in any way, as long as both spellings or neither make the
instruction go by an alias. -/
theorem respelled_registers_encode_alike (labels : Labels) (pc : Nat) (mnemonic : String)
    (operands others : List String) (unbound : RegistersUnbound labels.table)
    (respells : Respells operands others) :
    (Profile.compact.encode labels pc mnemonic operands).toOption =
        (Profile.compact.encode labels pc mnemonic others).toOption ↔
      (GoesByAlias mnemonic operands ↔ GoesByAlias mnemonic others) := by
  constructor
  · intro same
    constructor
    · intro goes
      by_contra plain
      exact encode_ne_of_goesByAlias unbound respells goes plain same
    · intro goes
      by_contra plain
      exact encode_ne_of_goesByAlias unbound respells.symm goes plain same.symm
  · intro spellings
    by_cases goes : GoesByAlias mnemonic operands
    · exact encoded_alike (same_of_alike (goes.parse_alike (spellings.mp goes) respells))
    · rw [encode_of_not_goesByAlias goes, encode_of_not_goesByAlias (spellings.not.mp goes)]
      exact encoded_alike (readByRegister_alike unbound respells)

theorem sameRegister_of_alias {pair : String × String}
    (listed : pair ∈ [("sp", "h5"), ("lr", "h6"), ("pc", "h7")]) :
    SameRegister pair.1 pair.2 := by
  have known : ∀ pair ∈ [("sp", "h5"), ("lr", "h6"), ("pc", "h7")],
      (Register.ofName? .sixteen pair.1).isSome = true ∧
        Register.ofName? .sixteen pair.2 = Register.ofName? .sixteen pair.1 := by
    decide
  obtain ⟨names, same⟩ := known pair listed
  obtain ⟨register, named⟩ := Option.isSome_iff_exists.mp names
  exact ⟨register, named, same.trans named⟩

theorem respells_stack_pointer : Respells ["sp", "#4"] ["h5", "#4"] :=
  .cons (@Respelled.register [] [] "sp" "h5" rfl rfl (sameRegister_of_alias List.mem_cons_self))
    (.cons (.same _) .nil)

/-- In a program with a label, the stack pointer by its number is the base of a load as it
is by its alias, but cannot be moved. -/
theorem stack_pointer_by_number :
    let labels := (Run.ofSource ⟨.compact, .library⟩
      ".orig x3000\nloop: ldr r0, [sp, #4]\nb loop\n.end").scan.labels
    labels.table.offset? "loop" = some 0 ∧ RegistersUnbound labels.table ∧
      Respells ["r0", "[sp", "#4]"] ["r0", "[h5", "#4]"] ∧
      (Profile.compact.encode labels 0 "ldr" ["r0", "[sp", "#4]"]).toOption =
        (Profile.compact.encode labels 0 "ldr" ["r0", "[h5", "#4]"]).toOption ∧
      Respells ["sp", "#4"] ["h5", "#4"] ∧
      (Profile.compact.encode labels 0 "sub" ["sp", "#4"]).toOption ≠
        (Profile.compact.encode labels 0 "sub" ["h5", "#4"]).toOption := by
  intro labels
  have bound : labels.table.offset? "loop" = some 0 := by decide +kernel
  have unbound : RegistersUnbound labels.table := (Run.registersUnbound .library _).1
  have bases : Respells ["r0", "[sp", "#4]"] ["r0", "[h5", "#4]"] :=
    .cons (.same _) (.cons (@Respelled.register ['['] [] "sp" "h5" rfl rfl
      (sameRegister_of_alias List.mem_cons_self)) (.cons (.same _) .nil))
  have plain (operands : List String) : ¬GoesByAlias "ldr" operands := by
    intro goes
    cases goes with
    | address _ _ _ _ _ adds => exact absurd adds (by decide)
    | stack sum _ _ moves => cases sum <;> exact absurd moves (by decide)
  have moves : GoesByAlias "sub" ["sp", "#4"] := .stack .subtract "#4" 4 rfl rfl rfl
  have stays : ¬GoesByAlias "sub" ["h5", "#4"] := by
    intro goes
    cases goes with
    | address _ _ _ _ _ adds => exact absurd adds (by decide)
    | stack _ _ _ _ spelled => exact absurd (List.cons.inj spelled).1 (by decide)
  refine ⟨bound, unbound, bases, ?_, respells_stack_pointer, ?_⟩
  · exact (respelled_registers_encode_alike labels 0 "ldr" _ _ unbound bases).mpr
      (iff_of_false (plain _) (plain _))
  · intro same
    exact stays ((respelled_registers_encode_alike labels 0 "sub" _ _ unbound
      respells_stack_pointer).mp same |>.mp moves)

/-- Not every instruction can be respelled: `add sp, #4` moves the stack pointer, and
`add h5, #4` is refused. -/
theorem stack_adjusted_by_alias_only :
    ¬∀ (labels : Labels) (pc : Nat) (mnemonic : String) (operands others : List String),
      RegistersUnbound labels.table → Respells operands others →
      (Profile.compact.encode labels pc mnemonic operands).toOption =
        (Profile.compact.encode labels pc mnemonic others).toOption := by
  intro alike
  have same := alike ⟨{}, ⟨0x3000⟩, .second⟩ 0 "add" _ _ (fun _ _ => rfl)
    respells_stack_pointer
  exact absurd same (by decide +kernel)

end TwoPass.Compact
