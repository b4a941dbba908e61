import TwoPass.Profile
import TwoPass.Proofs.CompactRows

/-! # Reading compact words back

The operands of an instruction are read into the row that they denote. So the word of
an instruction holds the fields of its row, and two instructions have the same word only
if their rows are documented to have the same encoding. -/

namespace TwoPass.Compact

variable {labels : Labels} {pc : Nat} {instruction : Instruction Target}
  {resolved : Instruction BitVec}

/-! ## Registers and numbers -/

theorem names_of_eitherBank {token : String} {register : Register}
    (read : eitherBank token = .ok register) : Names token register :=
  Register.ofName?_of_parse read

theorem namesLow_of_bank {token : String} {register : Register} (named : Names token register)
    (low : register.bank = .low) : NamesLow token register.number := by
  rw [NamesLow, ← low]
  exact named

theorem namesLow_of_lowNumber {token : String} {register : Register} {number : BitVec 3}
    (named : Names token register) (read : lowNumber register token = .ok number) :
    NamesLow token number := by
  unfold lowNumber at read
  cases bank : register.bank with
  | low =>
      rw [bank] at read
      cases read
      exact namesLow_of_bank named bank
  | high =>
      rw [bank] at read
      cases read

theorem namesLow_of_lowRegister {token : String} {number : BitVec 3}
    (read : lowRegister token = .ok number) : NamesLow token number := by
  rcases bind_eq_ok.mp read with ⟨register, named, low⟩
  exact namesLow_of_lowNumber (names_of_eitherBank named) low

theorem spells_of_immediate {field : Field} {token : String} {bits : BitVec field.width}
    (unsigned : field.IsUnsigned) (read : Numeral.immediate field token = .ok bits) :
    Spells token bits :=
  Numeral.parse_of_unsigned unsigned read

theorem reaches_of_resolve {field : Field} {token : String} {target : Target field.width}
    {bits : BitVec field.width} (signed : field.IsSigned)
    (read : Target.parse field token = .ok target)
    (found : target.resolve labels pc field = .ok bits) : Reaches labels pc token bits :=
  Distance.of_resolve signed read found

/-! ## Arithmetic -/

theorem Sum.says_of_parse {sum : Sum} {first second third : String}
    (read : parseSum sum first second third = .ok instruction)
    (filled : instruction.resolve labels pc = .ok resolved) :
    ∃ row, sum.Says first second third row ∧ row.encoding = resolved.canonical := by
  rcases bind_eq_ok.mp read with ⟨rs, source, read⟩
  rcases bind_eq_ok.mp read with ⟨rd, destination, read⟩
  have destination := namesLow_of_lowRegister destination
  have source := namesLow_of_lowRegister source
  split at read
  · rcases bind_eq_ok.mp read with ⟨rn, last, read⟩
    cases read
    cases filled
    exact ⟨_, .register destination source (namesLow_of_lowRegister last), rfl⟩
  · rcases bind_eq_ok.mp read with ⟨value, number, read⟩
    cases read
    cases filled
    exact ⟨_, .immediate destination source (spells_of_immediate (by decide) number), rfl⟩

namespace Arithmetic

variable {arithmetic : Arithmetic} {first second : String}

theorem says_of_parseByte (read : parseByte arithmetic.byte first second = .ok instruction)
    (filled : instruction.resolve labels pc = .ok resolved) :
    ∃ row, arithmetic.Says first second row ∧ row.encoding = resolved.canonical := by
  rcases bind_eq_ok.mp read with ⟨rd, destination, read⟩
  rcases bind_eq_ok.mp read with ⟨value, number, read⟩
  cases read
  cases filled
  exact ⟨_, .byte (namesLow_of_lowRegister destination)
    (spells_of_immediate (by decide) number), rfl⟩

theorem says_of_adjustStack {sum : Sum} (defined : arithmetic.stack = some sum)
    (pointer : first = "sp")
    (read : .adjustStack sum <$> Numeral.immediate immediate7 second = .ok instruction)
    (filled : instruction.resolve labels pc = .ok resolved) :
    ∃ row, arithmetic.Says first second row ∧ row.encoding = resolved.canonical := by
  rcases map_eq_ok.mp read with ⟨amount, number, rfl⟩
  cases filled
  exact ⟨_, .stack defined pointer (spells_of_immediate (by decide) number), rfl⟩

theorem says_of_parsePair {operation : HighOperation}
    {ofLow : BitVec 3 → BitVec 3 → Instruction Target}
    (defined : arithmetic.high = some operation)
    (low : ∀ rd rs,
      (ofLow rd rs).resolve labels pc = .ok (arithmetic.pair rd rs).encoding)
    (read : parsePair operation ofLow first second = .ok instruction)
    (filled : instruction.resolve labels pc = .ok resolved) :
    ∃ row, arithmetic.Says first second row ∧ row.encoding = resolved.canonical := by
  rcases bind_eq_ok.mp read with ⟨rd, destination, read⟩
  rcases bind_eq_ok.mp read with ⟨rs, source, read⟩
  have destination := names_of_eitherBank destination
  have source := names_of_eitherBank source
  split at read
  · rename_i either
    cases read
    cases filled
    exact ⟨_, .high defined destination source (by simpa using either), rfl⟩
  · rename_i neither
    cases read
    have both : rd.bank = .low ∧ rs.bank = .low := by
      cases rd with | mk bank number =>
      cases rs with | mk otherBank otherNumber =>
      cases bank <;> cases otherBank <;> simp_all [Register.isHigh]
    cases filled.symm.trans (low rd.number rs.number)
    exact ⟨_, .pair (namesLow_of_bank destination both.1) (namesLow_of_bank source both.2),
      (Row.canonical_encoding _).symm⟩

theorem says_of_parseAdd (read : parseAdd first second = .ok instruction)
    (filled : instruction.resolve labels pc = .ok resolved) :
    ∃ row, add.Says first second row ∧ row.encoding = resolved.canonical := by
  unfold parseAdd at read
  split at read
  · exact says_of_parsePair rfl (fun _ _ => rfl) read filled
  · split at read
    · rename_i pointer
      exact says_of_adjustStack rfl pointer read filled
    · exact says_of_parseByte read filled

theorem says_of_parseSubtract (read : parseSubtract first second = .ok instruction)
    (filled : instruction.resolve labels pc = .ok resolved) :
    ∃ row, subtract.Says first second row ∧ row.encoding = resolved.canonical := by
  unfold parseSubtract at read
  split at read
  · rename_i pointer
    exact says_of_adjustStack rfl pointer read filled
  · split at read
    · rcases bind_eq_ok.mp read with ⟨rd, destination, read⟩
      rcases bind_eq_ok.mp read with ⟨rs, source, read⟩
      cases read
      cases filled
      exact ⟨_, .pair (namesLow_of_lowRegister destination) (namesLow_of_lowRegister source), rfl⟩
    · exact says_of_parseByte read filled

theorem says_of_parseMove (read : parseMove first second = .ok instruction)
    (filled : instruction.resolve labels pc = .ok resolved) :
    ∃ row, move.Says first second row ∧ row.encoding = resolved.canonical := by
  unfold parseMove at read
  split at read
  · exact says_of_parsePair rfl (fun _ _ => rfl) read filled
  · exact says_of_parseByte read filled

theorem says_of_parseCompare (read : parseCompare first second = .ok instruction)
    (filled : instruction.resolve labels pc = .ok resolved) :
    ∃ row, compare.Says first second row ∧ row.encoding = resolved.canonical := by
  unfold parseCompare at read
  split at read
  · exact says_of_parsePair rfl (fun _ _ => rfl) read filled
  · exact says_of_parseByte read filled

end Arithmetic

theorem Form.Says.of_parseBaseAddress {base : AddressBase} {first third : String}
    (read : parseBaseAddress base first third = .ok instruction)
    (filled : instruction.resolve labels pc = .ok resolved) :
    ∃ row, Form.add.Says labels pc [first, base.spelling, third] row ∧
      row.encoding = resolved.canonical := by
  rcases bind_eq_ok.mp read with ⟨rd, destination, read⟩
  rcases bind_eq_ok.mp read with ⟨offset, number, read⟩
  cases read
  cases filled
  exact ⟨_, .addToBase (namesLow_of_lowRegister destination) rfl
    (spells_of_immediate (by decide) number), rfl⟩

theorem Form.Says.of_parseAddThree {first second third : String}
    (read : parseAddThree first second third = .ok instruction)
    (filled : instruction.resolve labels pc = .ok resolved) :
    ∃ row, Form.add.Says labels pc [first, second, third] row ∧
      row.encoding = resolved.canonical := by
  unfold parseAddThree at read
  split at read
  · rename_i spelled
    rw [spelled]
    exact of_parseBaseAddress read filled
  · split at read
    · rename_i spelled
      rw [spelled]
      exact of_parseBaseAddress read filled
    · rcases Sum.says_of_parse read filled with ⟨row, told, same⟩
      exact ⟨row, .addThree told, same⟩

/-! ## Memory -/

/-- An offset that is left out is read as zero. -/
theorem Offset.exists_of_reads {reads : String → BitVec width → Prop} {offset? : Option String}
    {bits : BitVec width} (zero : reads "#0" bits → 0 = bits)
    (read : reads (offset?.getD "#0") bits) :
    ∃ offset : Offset width, offset.Says reads offset? ∧ offset.bits = bits := by
  cases offset? with
  | some token => exact ⟨.given bits, .given read, rfl⟩
  | none => exact ⟨.omitted, .omitted, zero read⟩

theorem Offset.exists_of_spells {offset? : Option String} {bits : BitVec width}
    (spelled : Spells (offset?.getD "#0") bits) :
    ∃ offset : Offset width, offset.Says Spells offset? ∧ offset.bits = bits := by
  have nothing : (0 : BitVec width).toNat = 0 := BitVec.toNat_zero
  have zero : Spells "#0" (0 : BitVec width) := by
    rw [Spells, nothing]
    rfl
  exact @exists_of_reads width Spells _ _ zero.unique spelled

theorem Offset.exists_of_reaches {offset? : Option String} {bits : BitVec width}
    (distance : Reaches labels pc (offset?.getD "#0") bits) :
    ∃ offset : Offset width, offset.Says (Reaches labels pc) offset? ∧ offset.bits = bits := by
  have nothing : (0 : BitVec width).toInt = 0 := BitVec.toInt_zero
  have zero : Reaches labels pc "#0" (0 : BitVec width) := by
    rw [Reaches, nothing]
    exact .number rfl
  exact @exists_of_reads width (Reaches labels pc) _ _ zero.unique distance

theorem requireForm_eq_ok {α : Type} {form : Option α} {token : String} {found : α} :
    requireForm form token = .ok found ↔ form = some found := by
  cases form <;> simp [requireForm]

theorem addressForms_stack {access : Access} {extent : Extent}
    {form : BitVec 3 → BitVec 8 → Instruction Target}
    (defined : (addressForms access extent).stack = some form) :
    extent = .word ∧ form = .stackOffset access := by
  cases extent <;> cases defined
  exact ⟨rfl, rfl⟩

theorem addressForms_relative {access : Access} {extent : Extent}
    {form : BitVec 3 → Target 8 → Instruction Target}
    (defined : (addressForms access extent).relative = some form) :
    access = .load ∧ extent = .word ∧ form = .loadRelative := by
  cases extent <;> cases access <;> cases defined
  exact ⟨rfl, rfl, rfl⟩

theorem addressForms_register {access : Access} {extent : Extent}
    {form : BitVec 3 → BitVec 3 → BitVec 3 → Instruction Target}
    (defined : (addressForms access extent).register = some form) :
    ∃ size : Size, extent = size.extent ∧ form = .registerOffset access size := by
  cases extent <;> cases defined
  · exact ⟨.word, rfl, rfl⟩
  · exact ⟨.byte, rfl, rfl⟩

theorem Extent.says_of_parse {access : Access} {extent : Extent} {rd : BitVec 3} {base : String}
    {offset? : Option String}
    (read : parseBased (addressForms access extent) rd base (offset?.getD "#0") = .ok instruction)
    (filled : instruction.resolve labels pc = .ok resolved) :
    ∃ row, extent.Says labels pc access rd base offset? row ∧
      row.encoding = resolved.canonical := by
  rcases bind_eq_ok.mp read with ⟨register, named, read⟩
  have named := names_of_eitherBank named
  split at read
  · rename_i pointer
    rcases bind_eq_ok.mp read with ⟨form, defined, read⟩
    rcases bind_eq_ok.mp read with ⟨bits, number, read⟩
    rcases addressForms_stack (requireForm_eq_ok.mp defined) with ⟨rfl, rfl⟩
    cases read
    cases filled
    rcases Offset.exists_of_spells (spells_of_immediate (by decide) number) with
      ⟨offset, told, same⟩
    exact ⟨_, .stack (pointer ▸ named) told, congrArg (Instruction.stackOffset access rd) same⟩
  split at read
  · rename_i counter
    rcases bind_eq_ok.mp read with ⟨form, defined, read⟩
    rcases bind_eq_ok.mp read with ⟨target, place, read⟩
    rcases addressForms_relative (requireForm_eq_ok.mp defined) with ⟨rfl, rfl, rfl⟩
    cases read
    rcases map_eq_ok.mp filled with ⟨bits, found, rfl⟩
    rcases Offset.exists_of_reaches (reaches_of_resolve (by decide) place found) with
      ⟨offset, told, same⟩
    exact ⟨_, .counter rfl (counter ▸ named) told, congrArg (Instruction.loadRelative rd) same⟩
  split at read
  · rcases bind_eq_ok.mp read with ⟨form, defined, read⟩
    rcases bind_eq_ok.mp read with ⟨ro, offset, read⟩
    rcases bind_eq_ok.mp read with ⟨rb, low, read⟩
    rcases addressForms_register (requireForm_eq_ok.mp defined) with ⟨size, sized, rfl⟩
    cases read
    cases filled
    cases offset? with
    | some token =>
        exact ⟨_, .register sized (namesLow_of_lowNumber named low)
          (namesLow_of_lowRegister offset), rfl⟩
    -- A missing offset is no register.
    | none => cases offset
  · rcases bind_eq_ok.mp read with ⟨bits, number, read⟩
    rcases bind_eq_ok.mp read with ⟨rb, low, read⟩
    have low := namesLow_of_lowNumber named low
    rcases Offset.exists_of_spells (spells_of_immediate (by decide) number) with
      ⟨offset, told, same⟩
    cases read
    cases extent with
    | word =>
        have sized : Extent.word = Size.word.extent := rfl
        cases filled
        exact ⟨_, .immediate sized low told, by rw [← same]; rfl⟩
    | byte =>
        have sized : Extent.byte = Size.byte.extent := rfl
        cases filled
        exact ⟨_, .immediate sized low told, by rw [← same]; rfl⟩
    | halfword =>
        cases filled
        exact ⟨_, .halfword low told, by rw [← same]; rfl⟩

theorem Form.Says.of_parseBracketed {access : Access} {extent : Extent} {first : String}
    {rd : BitVec 3} {group : List String} (data : NamesLow first rd)
    (read : parseBracketed (addressForms access extent) rd group = .ok instruction)
    (filled : instruction.resolve labels pc = .ok resolved) :
    ∃ row, (Form.memory access extent).Says labels pc (first :: group) row ∧
      row.encoding = resolved.canonical := by
  unfold parseBracketed at read
  split at read
  · rename_i base grouped
    rcases @Extent.says_of_parse _ _ _ _ _ _ _ base none read filled with ⟨row, told, same⟩
    exact ⟨row, .memory data grouped told, same⟩
  · rename_i base offset grouped
    rcases @Extent.says_of_parse _ _ _ _ _ _ _ base (some offset) read filled with
      ⟨row, told, same⟩
    exact ⟨row, .memory data grouped told, same⟩
  · cases read

theorem Form.Says.of_parseMemory {access : Access} {extent : Extent} {first : String}
    {operands : List String}
    (read : parseMemory (addressForms access extent) first operands = .ok instruction)
    (filled : instruction.resolve labels pc = .ok resolved) :
    ∃ row, (Form.memory access extent).Says labels pc (first :: operands) row ∧
      row.encoding = resolved.canonical := by
  rcases bind_eq_ok.mp read with ⟨rd, data, read⟩
  have data := namesLow_of_lowRegister data
  split at read
  · rename_i target
    split at read
    · exact of_parseBracketed data read filled
    · rename_i bare
      rcases bind_eq_ok.mp read with ⟨form, defined, read⟩
      rcases bind_eq_ok.mp read with ⟨slot, place, read⟩
      rcases addressForms_relative (requireForm_eq_ok.mp defined) with ⟨rfl, rfl, rfl⟩
      cases read
      rcases map_eq_ok.mp filled with ⟨bits, found, rfl⟩
      exact ⟨_, .loadRelative data (Bool.eq_false_iff.mpr bare)
        (reaches_of_resolve (by decide) place found), rfl⟩
  · exact of_parseBracketed data read filled

theorem exists_of_parseWriteBack {token : String} {number : BitVec 3}
    (read : parseWriteBack token = .ok number) :
    ∃ name, token = name ++ "!" ∧ NamesLow name number := by
  unfold parseWriteBack at read
  split at read
  · rename_i marked
    refine ⟨String.ofList token.toList.dropLast, ?_, namesLow_of_lowRegister read⟩
    apply String.toList_inj.mp
    rw [String.toList_append, String.toList_ofList]
    exact (List.dropLast_append_getLast? '!' marked).symm
  · cases read

/-! ## Instructions -/

theorem isHigh_extra (access : Access) (register : Register)
    (same : some access.extra = some register) : register.isHigh = true := by
  cases access <;> cases same <;> rfl

theorem Form.Says.of_parse {form : Form} {mnemonic : String} {operands : List String}
    (spelled : mnemonic ∈ form.spellings) (read : form.parse mnemonic operands = .ok instruction)
    (filled : instruction.resolve labels pc = .ok resolved) :
    ∃ row, form.Says labels pc operands row ∧ row.encoding = resolved.canonical := by
  unfold Form.parse at read
  -- The cases are those of the definition. The last is a wrong number of operands.
  split at read
  · rcases bind_eq_ok.mp read with ⟨amount, number, read⟩
    rcases bind_eq_ok.mp read with ⟨rs, source, read⟩
    rcases bind_eq_ok.mp read with ⟨rd, destination, read⟩
    cases read
    cases filled
    exact ⟨_, .shiftByNumber (namesLow_of_lowRegister destination)
      (namesLow_of_lowRegister source) (spells_of_immediate (by decide) number), rfl⟩
  · rcases bind_eq_ok.mp read with ⟨rs, source, read⟩
    rcases bind_eq_ok.mp read with ⟨rd, destination, read⟩
    cases read
    cases filled
    exact ⟨_, .shiftByRegister (namesLow_of_lowRegister destination)
      (namesLow_of_lowRegister source), rfl⟩
  · rcases bind_eq_ok.mp read with ⟨rs, source, read⟩
    rcases bind_eq_ok.mp read with ⟨rd, destination, read⟩
    cases read
    cases filled
    exact ⟨_, .alu (namesLow_of_lowRegister destination) (namesLow_of_lowRegister source), rfl⟩
  · exact of_parseAddThree read filled
  · rcases Arithmetic.says_of_parseAdd read filled with ⟨row, told, same⟩
    exact ⟨row, .add told, same⟩
  · rcases Sum.says_of_parse read filled with ⟨row, told, same⟩
    exact ⟨row, .subtractThree told, same⟩
  · rcases Arithmetic.says_of_parseSubtract read filled with ⟨row, told, same⟩
    exact ⟨row, .subtract told, same⟩
  · rcases Arithmetic.says_of_parseMove read filled with ⟨row, told, same⟩
    exact ⟨row, .move told, same⟩
  · rcases Arithmetic.says_of_parseCompare read filled with ⟨row, told, same⟩
    exact ⟨row, .compare told, same⟩
  · rcases map_eq_ok.mp read with ⟨rs, source, rfl⟩
    cases filled
    exact ⟨_, .branchExchange (names_of_eitherBank source), rfl⟩
  · exact of_parseMemory read filled
  · rename_i access extra
    rcases bind_eq_ok.mp read with ⟨registers, listed, read⟩
    cases read
    cases filled
    have paired : extra = access.extra := beq_iff_eq.mp (List.mem_filter.mp spelled).2
    rw [paired] at listed
    exact ⟨_, .stackList (RegisterList.lists_of_parse (isHigh_extra access) listed), rfl⟩
  · rcases bind_eq_ok.mp read with ⟨base, marked, read⟩
    rcases bind_eq_ok.mp read with ⟨registers, listed, read⟩
    rcases exists_of_parseWriteBack marked with ⟨name, marked, low⟩
    cases read
    cases filled
    exact ⟨_, .multiple marked low (RegisterList.lists_of_parse nofun listed), rfl⟩
  · rename_i condition target
    rcases map_eq_ok.mp read with ⟨slot, place, rfl⟩
    rcases map_eq_ok.mp filled with ⟨bits, found, rfl⟩
    have taken := BranchName.condition_ofCondition condition
    refine ⟨_, .branchIf taken (reaches_of_resolve (by decide) place found), ?_⟩
    rw [Row.encoding, taken]
    rfl
  · rcases map_eq_ok.mp read with ⟨number, spelled, rfl⟩
    cases filled
    exact ⟨_, .softwareInterrupt (spells_of_immediate (by decide) spelled), rfl⟩
  · rcases map_eq_ok.mp read with ⟨slot, place, rfl⟩
    rcases map_eq_ok.mp filled with ⟨bits, found, rfl⟩
    exact ⟨_, .branch (reaches_of_resolve (by decide) place found), rfl⟩
  · rcases map_eq_ok.mp read with ⟨slot, place, rfl⟩
    rcases map_eq_ok.mp filled with ⟨bits, found, rfl⟩
    exact ⟨_, .branchLink (reaches_of_resolve (by decide) place found), rfl⟩
  · rcases bind_eq_ok.mp read with ⟨rd, destination, read⟩
    rcases bind_eq_ok.mp read with ⟨slot, place, read⟩
    cases read
    rcases map_eq_ok.mp filled with ⟨bits, found, rfl⟩
    exact ⟨_, .address (namesLow_of_lowRegister destination)
      (reaches_of_resolve (by decide) place found), rfl⟩
  · cases read
    cases filled
    exact ⟨_, .noOperation, rfl⟩
  · cases read

theorem mem_mnemonics_iff {mnemonic : String} {form : Form} :
    (mnemonic, form) ∈ mnemonics ↔ mnemonics.lookup mnemonic = some form := by
  have known : ∀ entry ∈ mnemonics, mnemonics.lookup entry.1 = some entry.2 := by decide +kernel
  exact ⟨known (mnemonic, form), mem_of_lookup⟩

theorem denotes_of_encode {mnemonic : String} {operands : List String} {encoding : Encoding}
    (encoded : Profile.compact.encode labels pc mnemonic operands = .ok encoding) :
    ∃ row : Row, encoding.words = [row.encoding.word.toNat] ∧
      ∀ other, Denotes labels pc mnemonic operands other ↔ other = row := by
  rcases bind_eq_ok.mp encoded with ⟨instruction, read, encoded⟩
  rcases bind_eq_ok.mp encoded with ⟨resolved, filled, encoded⟩
  cases encoded
  unfold parse at read
  cases found : mnemonics.lookup mnemonic with
  | none =>
      rw [found] at read
      cases read
  | some form =>
      rw [found] at read
      rcases bind_eq_ok.mp read with ⟨-, -, read⟩
      have listed := mem_mnemonics_iff.mpr found
      have spelled := mem_spellings listed
      rcases Form.Says.of_parse spelled read filled with ⟨first, told, holds⟩
      rcases told.exists_mnemonic spelled with ⟨row, named, told, same⟩
      refine ⟨row, ?_, fun other => ⟨?_, ?_⟩⟩
      · rw [same, holds, resolved.word_canonical]
      · rintro ⟨otherNamed, otherForm, otherListed, otherTold⟩
        cases found.symm.trans (mem_mnemonics_iff.mp otherListed)
        exact otherTold.unique told (otherNamed.trans named.symm)
      · rintro rfl
        exact ⟨named, form, listed, told⟩

theorem decode_encoding (row : Row) : decode row.encoding.word = some row.encoding := by
  rw [decode_word, row.canonical_encoding]

/-- A word reads back as the encoding of the one row that its instruction denotes, with
the registers that the operands name and the bits that they stand for. Two instructions
have the same word just when their rows are documented to have the same encoding. -/
theorem compact_words_read_back :
    (∀ labels pc mnemonic operands encoding,
      Profile.compact.encode labels pc mnemonic operands = .ok encoding →
      ∃ (word : Word) (row : Row),
        encoding.words = [word.toNat] ∧ decode word = some row.encoding ∧
        ∀ other, Denotes labels pc mnemonic operands other ↔ other = row) ∧
    ∀ labels pc mnemonic operands encoding row otherLabels otherPc other others otherEncoding
        otherRow,
      Profile.compact.encode labels pc mnemonic operands = .ok encoding →
      Profile.compact.encode otherLabels otherPc other others = .ok otherEncoding →
      Denotes labels pc mnemonic operands row →
      Denotes otherLabels otherPc other others otherRow →
      (encoding.words = otherEncoding.words ↔ Relation.EqvGen Row.Alike row otherRow) := by
  constructor
  · intro labels pc mnemonic operands encoding encoded
    rcases denotes_of_encode encoded with ⟨row, words, denotes⟩
    exact ⟨row.encoding.word, row, words, decode_encoding row, denotes⟩
  · intro labels pc mnemonic operands encoding row otherLabels otherPc other others otherEncoding
      otherRow encoded otherEncoded denoted otherDenoted
    rcases denotes_of_encode encoded with ⟨first, words, denotes⟩
    rcases denotes_of_encode otherEncoded with ⟨second, otherWords, otherDenotes⟩
    cases (denotes row).mp denoted
    cases (otherDenotes otherRow).mp otherDenoted
    rw [Row.eqvGen_iff, words, otherWords]
    constructor
    · intro same
      have word : row.encoding.word = otherRow.encoding.word :=
        BitVec.eq_of_toNat_eq (List.cons.inj same).1
      exact Option.some.inj ((decode_encoding row).symm.trans (word ▸ decode_encoding otherRow))
    · intro same
      rw [same]

/-- A move to a high register, and a load that is written in two ways. -/
theorem compact_move_and_loads_read_back :
    let labels : Labels := ⟨⟨[⟨"table", 4⟩]⟩, ⟨0x3000⟩, .second⟩
    Profile.compact.encode labels 0 "mov" ["h1", "r2"] = .ok ⟨[0x4691], false⟩ ∧
    decode 0x4691 = some (.high .move ⟨.low, 2⟩ ⟨.high, 1⟩) ∧
    (∀ row, Denotes labels 0 "mov" ["h1", "r2"] row ↔
      row = .high .move ⟨.high, 1⟩ ⟨.low, 2⟩) ∧
    Denotes labels 2 "ldr" ["r3", "table"] (.loadRelative 3 1) ∧
    Denotes labels 2 "ldr" ["r3", "[pc", "#1]"] (.loadCounter 3 (.given 1)) ∧
    Relation.EqvGen Row.Alike (.loadRelative 3 1) (.loadCounter 3 (.given 1)) := by
  intro labels
  have move : Profile.compact.encode labels 0 "mov" ["h1", "r2"] = .ok ⟨[0x4691], false⟩ := by rfl
  have load : Profile.compact.encode labels 2 "ldr" ["r3", "table"] = .ok ⟨[0x4B01], false⟩ := by
    rfl
  have again : Profile.compact.encode labels 2 "ldr" ["r3", "[pc", "#1]"] =
      .ok ⟨[0x4B01], false⟩ := by rfl
  have moved : Denotes labels 0 "mov" ["h1", "r2"] (.high .move ⟨.high, 1⟩ ⟨.low, 2⟩) :=
    ⟨rfl, .move, by decide, .move (.high rfl rfl rfl (.inl rfl))⟩
  have ahead : Distance labels 2 "table" ((4 : Nat) - ((2 : Nat) + 1)) := .label rfl rfl
  have loaded : Denotes labels 2 "ldr" ["r3", "table"] (.loadRelative 3 1) :=
    ⟨rfl, .memory .load .word, by decide, .loadRelative rfl rfl ahead⟩
  have grouped : enclosed? '[' ']' ["[pc", "#1]"] = some ("pc" :: (some "#1").toList) := rfl
  have counter : Names "pc" .pc := rfl
  have one : Distance labels 2 "#1" 1 := .number rfl
  have reloaded : Denotes labels 2 "ldr" ["r3", "[pc", "#1]"] (.loadCounter 3 (.given 1)) :=
    ⟨rfl, .memory .load .word, by decide, .memory rfl grouped (.counter rfl counter (.given one))⟩
  rcases compact_words_read_back.1 _ _ _ _ _ move with ⟨word, row, words, decoded, denotes⟩
  have known : word = 0x4691 := BitVec.eq_of_toNat_eq (List.cons.inj words).1.symm
  cases (denotes _).mp moved
  rw [known] at decoded
  exact ⟨move, decoded, denotes, loaded, reloaded,
    (compact_words_read_back.2 _ _ _ _ _ _ _ _ _ _ _ _ load again loaded reloaded).mp rfl⟩

end TwoPass.Compact
