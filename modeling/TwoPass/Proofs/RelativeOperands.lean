import Mathlib.Tactic.FinCases
import Mathlib.Tactic.Ring
import TwoPass.Proofs.Emission
import TwoPass.Proofs.FieldRange
import TwoPass.Proofs.OneShot

/-! # Operands relative to the program counter

The statements that name a place by its distance are listed here by their spelling,
apart from the tables that the encoders go by. A label in such a statement is
reached exactly, or the statement is refused with the distance that does not fit. -/

namespace TwoPass

/-- A statement with an operand relative to the program counter: the field that holds
the distance, the operand, and the register that the statement names too, if any. -/
inductive PcRelative : Profile → Statement → Field → String → Option String → Prop where
  | branch (mnemonic target : String)
      (listed : mnemonic ∈ ["br", "brn", "brz", "brp", "brnz", "brnp", "brzp", "brnzp"]) :
      PcRelative .baseline (.instruction mnemonic [target]) Baseline.pcOffset9 target none
  | call (target : String) :
      PcRelative .baseline (.instruction "jsr" [target]) Baseline.pcOffset11 target none
  | direct (mnemonic register target : String)
      (listed : mnemonic ∈ ["ld", "ldi", "lea", "st", "sti"]) :
      PcRelative .baseline (.instruction mnemonic [register, target]) Baseline.pcOffset9 target
        (some register)
  | branchIf (mnemonic target : String)
      (listed : mnemonic ∈ ["beq", "bne", "bcs", "bhs", "bcc", "blo", "bmi", "bpl",
        "bvs", "bvc", "bhi", "bls", "bge", "blt", "bgt", "ble"]) :
      PcRelative .compact (.instruction mnemonic [target]) Compact.pcOffset8 target none
  | branchAlways (target : String) :
      PcRelative .compact (.instruction "b" [target]) Compact.pcOffset11 target none
  | branchLink (target : String) :
      PcRelative .compact (.instruction "bl" [target]) Compact.pcOffset11 target none
  | address (register target : String) :
      PcRelative .compact (.instruction "adr" [register, target]) Compact.pcOffset8 target
        (some register)
  | load (register target : String) :
      PcRelative .compact (.instruction "ldr" [register, target]) Compact.pcOffset8 target
        (some register)
  /-- The program counter may be written as the base, as in `[pc, target]`. -/
  | loadBased (register opening closing base target : String)
      (group : enclosed? '[' ']' [opening, closing] = some [base, target])
      (counter : Register.ofName? .sixteen base = some .pc) :
      PcRelative .compact (.instruction "ldr" [register, opening, closing]) Compact.pcOffset8
        target (some register)

theorem PcRelative.field_signed {profile : Profile} {statement : Statement} {field : Field}
    {target : String} {register : Option String}
    (relative : PcRelative profile statement field target register) :
    field.signedness = .signed ∧ field.width ≠ 16 := by
  cases relative <;> decide

/-! ## Reading -/

def Draft.Reaches (draft : Draft) (field : Field) (label : String) : Prop :=
  ∃ finish : BitVec field.width → Word,
    (∀ bits, (finish bits).setWidth field.width = bits) ∧
    ∀ labels pc, draft.resolve labels pc =
      (fun bits => [(finish bits).toNat]) <$> labels.displacement pc field label

theorem Draft.reaches_baseline {instruction : Baseline.Instruction Target} {field : Field}
    {label : String} (fill : BitVec field.width → Baseline.Instruction BitVec)
    (lowest : ∀ bits, (fill bits).word.setWidth field.width = bits)
    (resolves : ∀ labels pc,
      instruction.resolve labels pc = fill <$> labels.displacement pc field label) :
    (Draft.baseline instruction).Reaches field label := by
  refine ⟨fun bits => (fill bits).word, lowest, fun labels pc => ?_⟩
  rw [Draft.resolve, resolves]
  exact Functor.map_map _ _ _

theorem Draft.reaches_compact {instruction : Compact.Instruction Target} {field : Field}
    {label : String} (fill : BitVec field.width → Compact.Instruction BitVec)
    (lowest : ∀ bits, (fill bits).word.setWidth field.width = bits)
    (resolves : ∀ labels pc,
      instruction.resolve labels pc = fill <$> labels.displacement pc field label) :
    (Draft.compact instruction).Reaches field label := by
  refine ⟨fun bits => (fill bits).word, lowest, fun labels pc => ?_⟩
  rw [Draft.resolve, resolves]
  exact Functor.map_map _ _ _

theorem Target.parse_of_label {token : String} (label : readsAsNumber token = false)
    (field : Field) : Target.parse field token = .ok (.label token) := by
  rw [Target.parse, label]
  rfl

theorem startsWith_of_label {token : String} (label : readsAsNumber token = false) :
    startsWith '[' token = false := by
  unfold readsAsNumber at label
  cases found : Shape.of? token with
  | none =>
      rw [found] at label
      cases label
  | some shape =>
      rw [found] at label
      have first : Shape.inOrder.find? (fun shape => shape.accepts token.toList) = some shape :=
        found
      have accepted : shape.accepts token.toList = true := by
        simpa using List.find?_some first
      rw [startsWith]
      generalize token.toList = characters at accepted ⊢
      cases characters with
      | nil => rfl
      | cons first rest =>
          apply beq_eq_false_iff_ne.mpr
          intro bracket
          cases bracket
          cases shape with
          | marked => cases label
          | digits => cases label
          | lettered => cases label
          | lowRegister => cases accepted
          | highRegister => cases accepted
          | name => cases accepted

theorem Register.parse_of_name {file : RegisterFile} {token : String} {register : Register}
    (named : Register.ofName? file token = some register) :
    Register.parse file token = .ok register := by
  rw [Register.parse, named]

/-- Read the register of a statement that may name one, and that has to be low. -/
def Profile.readLow : Profile → Option String → Except Problem (BitVec 3)
  | _, none => .ok 0
  | .baseline, some token => Baseline.registerNumber token
  | .compact, some token => Compact.lowRegister token

theorem Profile.readLow_of_low {profile : Profile} {register : Option String}
    (low : ∀ token ∈ register,
      (Register.ofName? profile.registerFile token).map Register.bank = some .low) :
    ∃ number, profile.readLow register = .ok number := by
  cases register with
  | none => exact ⟨0, by cases profile <;> rfl⟩
  | some token =>
      rcases Option.map_eq_some_iff.mp (low token rfl) with ⟨named, found, bank⟩
      refine ⟨named.number, ?_⟩
      cases profile with
      | baseline =>
          have found : Register.ofName? .eight token = some named := found
          rw [readLow, Baseline.registerNumber, Register.parse_of_name found]
          rfl
      | compact =>
          have found : Register.ofName? .sixteen token = some named := found
          rw [readLow, Compact.lowRegister, Compact.eitherBank, Register.parse_of_name found,
            ok_bind, Compact.lowNumber, bank]

namespace PcRelative

variable {profile : Profile} {statement : Statement} {field : Field} {target : String}
  {register : Option String}

/-- A statement whose operand is a label can only be refused for its register before
the label is looked up. -/
theorem draft_eq (relative : PcRelative profile statement field target register)
    (label : readsAsNumber target = false) :
    ∃ build : BitVec 3 → Draft, (∀ number, (build number).Reaches field target) ∧
      statement.draft profile = build <$> profile.readLow register := by
  -- In every form the register is read before the label, which is taken as it is.
  cases relative with
  | branch mnemonic target listed =>
      have listed : ∃ flags, Baseline.mnemonics.lookup mnemonic = some (.branch flags) := by
        fin_cases listed <;> exact ⟨_, rfl⟩
      rcases listed with ⟨flags, found⟩
      refine ⟨fun _ => .baseline (.branch flags (.label target)), fun _ => ?_, ?_⟩
      · exact Draft.reaches_baseline (.branch flags)
          (fun _ => BitVec.setWidth_append_eq_right) (fun _ _ => rfl)
      · rw [Statement.draft, Baseline.parse, found]
        simp only [Baseline.Form.parse, Target.parse_of_label label]
        rfl
  | call target =>
      refine ⟨fun _ => .baseline (.call (.label target)), fun _ => ?_, ?_⟩
      · exact Draft.reaches_baseline .call
          (fun _ => BitVec.setWidth_append_eq_right) (fun _ _ => rfl)
      · have found : Baseline.mnemonics.lookup "jsr" = some .call := rfl
        rw [Statement.draft, Baseline.parse, found]
        simp only [Baseline.Form.parse, Target.parse_of_label label]
        rfl
  | direct mnemonic register target listed =>
      have listed : ∃ access, Baseline.mnemonics.lookup mnemonic = some (.direct access) := by
        fin_cases listed <;> exact ⟨_, rfl⟩
      rcases listed with ⟨access, found⟩
      refine ⟨fun number => .baseline (.direct access number (.label target)),
        fun number => ?_, ?_⟩
      · exact Draft.reaches_baseline (.direct access number)
          (fun _ => BitVec.setWidth_append_eq_right) (fun _ _ => rfl)
      · rw [Statement.draft, Baseline.parse, found]
        simp only [Baseline.Form.parse, Target.parse_of_label label, Profile.readLow]
        cases Baseline.registerNumber register <;> rfl
  | branchIf mnemonic target listed =>
      have listed : ∃ condition,
          Compact.mnemonics.lookup mnemonic = some (.branchIf condition) := by
        fin_cases listed <;> exact ⟨_, rfl⟩
      rcases listed with ⟨condition, found⟩
      refine ⟨fun _ => .compact (.branchIf condition (.label target)), fun _ => ?_, ?_⟩
      · exact Draft.reaches_compact (.branchIf condition)
          (fun _ => BitVec.setWidth_append_eq_right) (fun _ _ => rfl)
      · rw [Statement.draft, Compact.parse, found]
        simp only [Compact.Form.parse, Target.parse_of_label label]
        rfl
  | branchAlways target =>
      refine ⟨fun _ => .compact (.branch (.label target)), fun _ => ?_, ?_⟩
      · exact Draft.reaches_compact .branch
          (fun _ => BitVec.setWidth_append_eq_right) (fun _ _ => rfl)
      · have found : Compact.mnemonics.lookup "b" = some .branch := rfl
        rw [Statement.draft, Compact.parse, found]
        simp only [Compact.Form.parse, Target.parse_of_label label]
        rfl
  | branchLink target =>
      refine ⟨fun _ => .compact (.branchLink (.label target)), fun _ => ?_, ?_⟩
      · exact Draft.reaches_compact .branchLink
          (fun _ => BitVec.setWidth_append_eq_right) (fun _ _ => rfl)
      · have found : Compact.mnemonics.lookup "bl" = some .branchLink := rfl
        rw [Statement.draft, Compact.parse, found]
        simp only [Compact.Form.parse, Target.parse_of_label label]
        rfl
  | address register target =>
      refine ⟨fun number => .compact (.relativeAddress number (.label target)),
        fun number => ?_, ?_⟩
      · exact Draft.reaches_compact (.relativeAddress number)
          (fun _ => BitVec.setWidth_append_eq_right) (fun _ _ => rfl)
      · have found : Compact.mnemonics.lookup "adr" = some .address := rfl
        rw [Statement.draft, Compact.parse, found]
        simp only [Compact.Form.parse, Target.parse_of_label label, Profile.readLow]
        cases Compact.lowRegister register <;> rfl
  | load register target =>
      refine ⟨fun number => .compact (.loadRelative number (.label target)),
        fun number => ?_, ?_⟩
      · exact Draft.reaches_compact (.loadRelative number)
          (fun _ => BitVec.setWidth_append_eq_right) (fun _ _ => rfl)
      · have found : Compact.mnemonics.lookup "ldr" = some (.memory .load .word) := rfl
        rw [Statement.draft, Compact.parse, found]
        simp only [Compact.Form.parse, Compact.parseMemory, startsWith_of_label label,
          Target.parse_of_label label, Profile.readLow]
        cases Compact.lowRegister register <;> rfl
  | loadBased register opening closing base target group counter =>
      refine ⟨fun number => .compact (.loadRelative number (.label target)),
        fun number => ?_, ?_⟩
      · exact Draft.reaches_compact (.loadRelative number)
          (fun _ => BitVec.setWidth_append_eq_right) (fun _ _ => rfl)
      · have found : Compact.mnemonics.lookup "ldr" = some (.memory .load .word) := rfl
        rw [Statement.draft, Compact.parse, found]
        simp only [Compact.Form.parse, Compact.parseMemory, Compact.parseBracketed, group,
          Compact.parseBased, Compact.eitherBank, Register.parse_of_name counter,
          Target.parse_of_label label, Profile.readLow]
        cases Compact.lowRegister register <;> rfl

theorem word_of_encode {labels : Labels} {pc : Nat} {encoding : Encoding}
    (relative : PcRelative profile statement field target register)
    (label : readsAsNumber target = false)
    (encoded : statement.encode profile labels pc = .ok encoding) :
    ∃ word : Word, encoding.words = [word.toNat] ∧
      labels.displacement pc field target = .ok (word.setWidth field.width) := by
  rcases relative.draft_eq label with ⟨build, reaches, drafted⟩
  rw [Statement.encode_eq_draft, drafted] at encoded
  rcases bind_eq_ok.mp encoded with ⟨draft, read, encoded⟩
  rcases map_eq_ok.mp read with ⟨number, -, rfl⟩
  rcases reaches number with ⟨finish, lowest, resolves⟩
  rcases bind_eq_ok.mp encoded with ⟨words, resolved, built⟩
  cases built
  rw [resolves] at resolved
  rcases map_eq_ok.mp resolved with ⟨bits, displaced, rfl⟩
  exact ⟨finish bits, rfl, by rw [lowest]; exact displaced⟩

theorem encode_of_displacement {labels : Labels} {pc : Nat} {problem : Problem}
    (relative : PcRelative profile statement field target register)
    (label : readsAsNumber target = false)
    (low : ∀ token ∈ register,
      (Register.ofName? profile.registerFile token).map Register.bank = some .low)
    (failed : labels.displacement pc field target = .error problem) :
    statement.encode profile labels pc = .error problem := by
  rcases relative.draft_eq label with ⟨build, reaches, drafted⟩
  rcases Profile.readLow_of_low low with ⟨number, read⟩
  rcases reaches number with ⟨finish, -, resolves⟩
  rw [Statement.encode_eq_draft, drafted, read, map_ok, ok_bind, resolves, failed]
  rfl

end PcRelative

/-! ## Distances -/

namespace Labels

variable {pc : Nat} {field : Field} {name : String}

theorem bound_of_displacement {labels : Labels} {bits : BitVec field.width}
    (complete : labels.pass = .second)
    (displaced : labels.displacement pc field name = .ok bits) :
    ∃ bound, labels.table.offset? name = some bound ∧
      field.encode ((bound : Int) - ((pc : Int) + 1)) = .ok bits := by
  unfold displacement offset at displaced
  rw [complete] at displaced
  cases found : labels.table.offset? name with
  | none =>
      rw [found] at displaced
      cases displaced
  | some bound =>
      rw [found] at displaced
      dsimp only [ok_bind] at displaced
      cases encoded : field.encode ((bound : Int) - ((pc : Int) + 1)) with
      | ok other =>
          rw [encoded] at displaced
          cases displaced
          exact ⟨bound, rfl, encoded⟩
      | error problem =>
          rw [encoded] at displaced
          cases displaced

theorem displacement_of_refused (labels : Labels) {bound : Nat} {problem : RangeError}
    (found : labels.table.offset? name = some bound)
    (refused : field.encode ((bound : Int) - ((pc : Int) + 1)) = .error problem) :
    labels.displacement pc field name =
      .error (.labelOutOfRange name ((bound : Int) - ((pc : Int) + 1)) field) := by
  unfold displacement offset
  rw [found]
  dsimp only [ok_bind]
  rw [refused]

end Labels

theorem Run.get?_of_ok {options : Options} {source : String} {assembly : Assembly}
    (done : (ofSource options source).result = .ok assembly) (name : String) :
    assembly.symbols.get? name =
      ((ofSource options source).scan.symbols.offset? name).map (assembly.start.toNat + ·) := by
  rw [SymbolValues.get?, definitions_of_ok done, SymbolTable.offset?]
  generalize (ofSource options source).scan.symbols.definitions = definitions
  induction definitions with
  | nil => rfl
  | cons definition definitions induction =>
      rw [List.map_cons, List.lookup_cons, List.find?_cons, induction, Bool.beq_comm]
      cases definition.name == name <;> rfl

/-! ## Words and reports -/

theorem Placement.words_of_single {placement : Placement} {profile : Profile} {labels : Labels}
    {encoding : Encoding} {word : Word} (encoded : placement.encode profile labels = .ok encoding)
    (single : encoding.words = [word.toNat]) : placement.words profile labels = [word] := by
  have fits : word.toNat ≤ 0xFFFF := Nat.le_of_lt_succ word.isLt
  rw [words, encoded]
  simp only [single, List.map_cons, List.map_nil, if_pos fits, BitVec.ofNat_toNat,
    BitVec.setWidth_eq]

namespace Run

variable {options : Options} {source : String} {placement : Placement} {field : Field}
  {target : String} {register : Option String}

theorem label_reached {assembly : Assembly}
    (member : placement ∈ (Outline.ofSource options source).placements options.profile)
    (relative : PcRelative options.profile placement.statement field target register)
    (label : readsAsNumber target = false)
    (done : (ofSource options source).result = .ok assembly) :
    ∃ word value, assembly.binary.words[placement.position.offset]? = some word ∧
      assembly.symbols.get? target = some value ∧
      (word.setWidth field.width).toInt +
        (assembly.start.toNat + placement.position.offset + 1) = (value : Int) := by
  have clean := ((result_eq_ok_iff _ assembly).mp done).1
  rcases encoded_of_clean (start_of_ok done) clean member with ⟨encoding, encoded, -⟩
  rcases relative.word_of_encode label encoded with ⟨word, single, displaced⟩
  rcases Labels.bound_of_displacement rfl displaced with ⟨bound, found, held⟩
  have own : (placement.words options.profile (ofSource options source).scan.labels)[0]? =
      some word := by
    rw [Placement.words_of_single encoded single]
    rfl
  have written := emit_word member own
  rw [Nat.add_zero, ← emitted_of_ok done] at written
  have symbol : assembly.symbols.get? target = some (assembly.start.toNat + bound) := by
    rw [get?_of_ok done]
    exact congrArg _ found
  rcases relative.field_signed with ⟨signed, narrow⟩
  refine ⟨word, assembly.start.toNat + bound, written, symbol, ?_⟩
  rw [Field.toInt_of_encode signed narrow held]
  push_cast
  ring

theorem label_refused {bound : Nat}
    (member : placement ∈ (Outline.ofSource options source).placements options.profile)
    (relative : PcRelative options.profile placement.statement field target register)
    (label : readsAsNumber target = false)
    (low : ∀ token ∈ register,
      (Register.ofName? options.profile.registerFile token).map Register.bank = some .low)
    (found : (ofSource options source).scan.symbols.offset? target = some bound)
    {distance : Int} (far : distance = bound - (placement.position.offset + 1))
    (outside : distance < -2 ^ (field.width - 1) ∨ 2 ^ (field.width - 1) - 1 < distance) :
    ∃ failure, (ofSource options source).result = .error failure ∧
      .errorAt placement.line (.labelOutOfRange target distance field) ∈
        failure.diagnostics := by
  rcases relative.field_signed with ⟨signed, narrow⟩
  rcases Field.encode_of_outside signed narrow outside with ⟨problem, refused⟩
  rw [far] at refused ⊢
  have displaced :=
    (ofSource options source).scan.labels.displacement_of_refused found refused
  have wrong : placement.error? options.profile (ofSource options source).scan.labels =
      some (.errorAt placement.line (.labelOutOfRange target
        (bound - (placement.position.offset + 1)) field)) := by
    rw [Placement.error?, Placement.encode, relative.encode_of_displacement label low displaced]
  have reported := error_mem_diagnostics member wrong
  exact ⟨_, (result_eq_error_iff _ _).mpr ⟨.inr ⟨_, reported, rfl⟩, rfl⟩, reported⟩

end Run

/-- In an assembled program the word of a statement that names a label holds the exact
distance to it from the word that follows. A label that is too far away is reported
with that distance. -/
theorem labels_reached_exactly (options : Options) (source : String) :
    let scan := (Run.ofSource options source).scan
    let placements := (Outline.ofSource options source).placements options.profile
    ∀ placement ∈ placements, ∀ field target register,
      PcRelative options.profile placement.statement field target register →
      readsAsNumber target = false →
      let pc := placement.position.offset
      (∀ assembly, assemble options source = .ok assembly →
        ∃ word value, assembly.binary.words[pc]? = some word ∧
          assembly.symbols.get? target = some value ∧
          (word.setWidth field.width).toInt + (assembly.start.toNat + pc + 1) = (value : Int)) ∧
      ((∀ token ∈ register,
          (Register.ofName? options.profile.registerFile token).map Register.bank = some .low) →
        ∀ bound, scan.symbols.offset? target = some bound →
        let distance : Int := bound - (pc + 1)
        distance < -2 ^ (field.width - 1) ∨ 2 ^ (field.width - 1) - 1 < distance →
        ∃ failure, assemble options source = .error failure ∧
          .errorAt placement.line (.labelOutOfRange target distance field) ∈
            failure.diagnostics) := by
  intro scan placements placement member field target register relative label pc
  constructor
  · intro assembly done
    exact Run.label_reached member relative label done
  · intro low bound found distance outside
    exact Run.label_refused member relative label low found rfl outside

/-- The first label is as far away as nine bits reach, the second is one word too far
for eight. -/
theorem labels_at_the_limits :
    let reached := ".orig x3000\nld r0, far\n.blkw 255\nfar .fill 1\n.end"
    let missed := ".orig x3000\nldr r0, [pc, far]\n.data\n.blkw 128\nfar .fill 1\n.end"
    (∃ assembly, assemble {} reached = .ok assembly ∧
      ∃ word value, assembly.binary.words[0]? = some word ∧
        assembly.symbols.get? "far" = some value ∧
        (word.setWidth 9).toInt + (assembly.start.toNat + 0 + 1) = (value : Int)) ∧
    ∃ failure, assemble { profile := .compact, role := .library } missed = .error failure ∧
      .errorAt ⟨1, "ldr r0, [pc, far]"⟩ (.labelOutOfRange "far" 128 Compact.pcOffset8) ∈
        failure.diagnostics := by
  intro reached missed
  let load : Placement := ⟨{}, ⟨1, "ld r0, far"⟩, .instruction "ld" ["r0", "far"]⟩
  let based : Placement :=
    ⟨{}, ⟨1, "ldr r0, [pc, far]"⟩, .instruction "ldr" ["r0", "[pc", "far]"]⟩
  constructor
  · have member : load ∈ (Outline.ofSource {} reached).placements .baseline := by
      decide +kernel
    have succeeds : (assemble {} reached).isOk = true := by decide +kernel
    cases done : assemble {} reached with
    | error failure =>
        rw [done] at succeeds
        cases succeeds
    | ok assembly =>
        exact ⟨assembly, rfl,
          (labels_reached_exactly {} reached load member Baseline.pcOffset9 "far" (some "r0")
            (.direct "ld" "r0" "far" (by decide)) (by decide)).1 assembly done⟩
  · let options : Options := { profile := .compact, role := .library }
    have member : based ∈ (Outline.ofSource options missed).placements .compact := by
      decide +kernel
    have found : (Run.ofSource options missed).scan.symbols.offset? "far" = some 129 := by
      decide +kernel
    have low : ∀ token ∈ some "r0",
        (Register.ofName? .sixteen token).map Register.bank = some .low := by
      intro token same
      cases same
      decide
    have distance : ((129 : Nat) : Int) - ((based.position.offset : Int) + 1) = 128 := by decide
    rcases (labels_reached_exactly options missed based member Compact.pcOffset8 "far"
      (some "r0") (.loadBased "r0" "[pc" "far]" "pc" "far" (by decide) (by decide)) (by decide)).2
        low 129 found (by decide) with ⟨failure, failed, reported⟩
    rw [distance] at reported
    exact ⟨failure, failed, reported⟩

end TwoPass
