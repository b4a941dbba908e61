import TwoPass.Proofs.CellOrigins
import TwoPass.Proofs.DefinedLabels
import TwoPass.Proofs.FixupOrder
import TwoPass.Proofs.Progress
import TwoPass.Proofs.Provenance

/-! # Steps that could fail

Now and then the assembler goes by something that it made sure of before: that the
operands of a directive were counted, that a register starts with a letter, or that a
cell or a line is there. Where it matters the step is written here once more as one that
yields nothing if there is nothing to go by. None of these steps ever fails, and all
that a run has to report is found on a line or concerns the program as a whole. -/

namespace TwoPass

/-! ## Steps on tokens -/

/-- What follows the letter at the start of a token, if it takes up one byte. -/
def afterLetter? (token : String) : Option (List Char) :=
  match token.toList with
  | [] => none
  | letter :: rest => if letter.utf8Size = 1 then some rest else none

namespace Shape

def isRegister : Shape → Bool
  | .lowRegister | .highRegister => true
  | .marked | .digits | .lettered | .name => false

theorem afterLetter?_of_register {token : String} {shape : Shape}
    (shaped : of? token = some shape) (register : shape.isRegister = true) :
    afterLetter? token = some token.toList.tail := by
  unfold of? at shaped
  have accepted := List.find?_some shaped
  unfold afterLetter?
  cases shape with
  | lowRegister =>
      simp only [accepts] at accepted
      split at accepted
      · rename_i rest spelled
        rw [spelled]
        rfl
      · cases accepted
  | highRegister =>
      simp only [accepts] at accepted
      split at accepted
      · rename_i rest spelled
        rw [spelled]
        rfl
      · cases accepted
  | _ => cases register

end Shape

def openGroup? : List (List Char) → Option (List (List Char))
  | (_ :: rest) :: others => some (rest :: others)
  | [] :: _ | [] => none

def closeGroup? (texts : List (List Char)) : Option (List (List Char)) :=
  texts.getLast?.map fun last => texts.dropLast ++ [last.dropLast]

/-- The operands inside a group, with nothing at all if a bracket is taken off a text
that is not there. -/
def checkedEnclosed? (opening closing : Char) (tokens : List String) :
    Option (Option (List String)) :=
  let texts := tokens.map String.toList
  let opens := texts.head?.bind List.head? = some opening
  let closes := texts.getLast?.bind List.getLast? = some closing
  if opens ∧ closes then do
    let opened ← openGroup? texts
    let inner ← closeGroup? opened
    let operands := inner.filter (!·.isEmpty)
    return if operands.any fun operand => operand.contains opening || operand.contains closing then
      none
    else
      some (operands.map String.ofList)
  else
    return none

theorem checkedEnclosed?_eq (opening closing : Char) (tokens : List String) :
    checkedEnclosed? opening closing tokens = some (enclosed? opening closing tokens) := by
  unfold checkedEnclosed? enclosed?
  cases tokens.map String.toList with
  | nil => rfl
  | cons first others =>
      have last : (first :: others).getLast? = some (others.getLastD first) := by
        rw [List.getLast?_cons, List.getLastD_eq_getLast?]
      simp only [List.head?_cons, last, Option.bind_some]
      split
      · rename_i guarded
        cases first with
        | nil => cases guarded.1
        | cons bracket rest =>
            have inner : closeGroup? (rest :: others) =
                some ((rest :: others).dropLast ++ [((rest :: others).getLastD []).dropLast]) := by
              rw [closeGroup?, List.getLastD_eq_getLast?, List.getLast?_cons]
              rfl
            simp only [openGroup?, Option.bind_eq_bind, Option.bind_some, inner, List.tail_cons]
            rfl
      · rfl

/-! ## Labels -/

namespace SymbolTable

def positions (table : SymbolTable) : List (String × Nat) :=
  table.definitions.zipIdx.map fun (definition, index) => (definition.name, index)

theorem positions_of_define? {table bound : SymbolTable} {name : String} {offset : Nat}
    (defined : table.define? name offset = some bound) :
    bound.positions = table.positions ++ [(name, table.definitions.length)] := by
  unfold define? at defined
  split at defined
  · cases defined
  · cases defined
    simp [positions, List.zipIdx_append]

theorem lookup_zipIdx (before rest : List Definition) (name : String) :
    (((rest.zipIdx before.length).map fun (definition, index) =>
        (definition.name, index)).lookup name).map
          (fun index => (before ++ rest)[index]?.map (·.offset)) =
      (rest.find? (·.name == name)).map (some ·.offset) := by
  induction rest generalizing before with
  | nil => rfl
  | cons definition rest induction =>
      rw [List.zipIdx_cons, List.map_cons, List.lookup_cons, List.find?_cons]
      by_cases here : definition.name = name
      · simp [here]
      · have later := induction (before ++ [definition])
        rw [List.length_append, List.append_assoc] at later
        have other : (name == definition.name) = false := beq_eq_false_iff_ne.mpr (Ne.symm here)
        have another : (definition.name == name) = false := beq_eq_false_iff_ne.mpr here
        rw [other, another]
        exact later

theorem lookup_positions (table : SymbolTable) (name : String) :
    (table.positions.lookup name).map (fun index => table.definitions[index]?.map (·.offset)) =
      (table.offset? name).map some := by
  rw [offset?, Option.map_map]
  exact lookup_zipIdx [] table.definitions name

end SymbolTable

/-! ## The required lines -/

theorem Scan.Reaches.required_eq_drop {options : Options} {read : List SourceLine} {stage : Stage}
    {scan : Scan} (reached : Reaches options read stage scan) {required : List OpeningLine}
    (body : stage = .body required) : ∃ index, required = options.prologue.drop index := by
  induction reached generalizing required with
  | start => cases body
  | proceeds line reached step induction =>
      cases advances_of_step step with
      | blank stage scan insignificant => exact induction body
      | opens scan origin significant read =>
          cases body
          exact ⟨0, rfl⟩
      | reads before scan effects significant met reading =>
          cases body
          rcases induction rfl with ⟨index, rfl⟩
          exact ⟨index + 1, List.tail_drop⟩

/-! ## Patches -/

namespace Image

/-- Give new values to the cells from `offset` on, all of which have to be there. -/
def checkedOverwrite? (image : Image) : (offset : Nat) → (values : List (Option Nat)) → Option Image
  | _, [] => some image
  | offset, value :: values =>
    if offset < image.size then
      let changed : Image := ⟨image.cells.modify offset fun cell => { cell with value }⟩
      changed.checkedOverwrite? (offset + 1) values
    else
      none

theorem checkedOverwrite?_eq {image : Image} {offset : Nat} {values : List (Option Nat)}
    (inside : offset + values.length ≤ image.size) :
    image.checkedOverwrite? offset values = some (image.overwrite offset values) := by
  induction values generalizing image offset with
  | nil => rfl
  | cons value values induction =>
      rw [List.length_cons] at inside
      rw [checkedOverwrite?, if_pos (by omega), overwrite]
      apply induction
      rw [size, Array.size_modify]
      change _ ≤ image.size
      omega

end Image

namespace Resolution

def checkedApply? (image : Image) (resolution : Resolution) : Option Image :=
  image.checkedOverwrite? resolution.fixup.offset resolution.values

theorem foldlM_checkedApply? {resolutions : List Resolution} {image : Image}
    (fits : ∀ resolution ∈ resolutions, resolution.Fits)
    (inside : ∀ resolution ∈ resolutions,
      resolution.fixup.offset + resolution.fixup.length ≤ image.size) :
    resolutions.foldlM checkedApply? image = some (resolutions.foldl apply image) := by
  induction resolutions generalizing image with
  | nil => rfl
  | cons resolution rest induction =>
      rcases List.forall_mem_cons.mp fits with ⟨fits, restFits⟩
      rcases List.forall_mem_cons.mp inside with ⟨inside, restInside⟩
      have applied : checkedApply? image resolution = some (resolution.apply image) := by
        rw [apply_eq_overwrite]
        apply Image.checkedOverwrite?_eq
        rwa [fits]
      rw [List.foldlM_cons, applied, List.foldl_cons]
      apply induction restFits
      rwa [apply_eq_overwrite, Image.size_overwrite]

end Resolution

/-! ## What is reported -/

/-- A diagnostic on a line of the program, or one of the few that concern all of it. -/
inductive Diagnostic.Accounted (lines : List SourceLine) : Diagnostic → Prop where
  | onLine (line : SourceLine) (problem : Problem) (present : lines[line.number]? = some line)
      (known : problem ≠ .missingLineInfo) : Accounted lines (.errorAt line problem)
  | emptySource : Accounted lines (.programError .emptySource)
  | missingPrologue (expected : String) :
      Accounted lines (.programError (.missingPrologue expected))
  | missingEnd : Accounted lines (.programWarning .missingEnd)
  | programTooLarge (start : Address) (length : Nat) :
      Accounted lines (.programError (.programTooLarge start length))

theorem Problem.ne_missingLineInfo {problem : Problem} (lies : problem.liesOnLine = true) :
    problem ≠ .missingLineInfo := by
  intro same
  rw [same] at lies
  cases lies

theorem SymbolTable.bind_liesOnLine {table : SymbolTable} {profile : Profile} {name : String}
    {offset : Nat} {problem : Problem} (failed : table.bind profile name offset = .error problem) :
    problem.liesOnLine = true := by
  unfold bind at failed
  split at failed
  · split at failed <;> cases failed
    rfl
  · cases failed
    rfl

theorem Placement.error_liesOnLine {placement : Placement} {profile : Profile} {labels : Labels}
    {diagnostic : Diagnostic} (wrong : placement.error? profile labels = some diagnostic) :
    ∃ problem, diagnostic = .errorAt placement.line problem ∧ problem.liesOnLine = true := by
  unfold error? at wrong
  split at wrong
  · cases wrong
  · rename_i problem failed
    cases wrong
    refine ⟨problem, rfl, Problem.liesOnLine_of_blamesStatement ?_⟩
    exact Statement.encode_blames profile labels _ _ problem failed

theorem LocatedAction.remark_liesOnLine {located : LocatedAction} {profile : Profile}
    {labels : Labels} {diagnostic : Diagnostic} (spelled : located.action.Spelled profile)
    (said : located.remark? profile (·.promptError? profile labels) = some diagnostic) :
    ∃ problem, diagnostic = .errorAt located.action.line problem ∧
      problem.liesOnLine = true := by
  rcases located with ⟨position, line, effect⟩
  cases effect with
  | bind name =>
      simp only [remark?] at said
      split at said
      · cases said
      · rename_i problem failed
        cases said
        exact ⟨problem, rfl, SymbolTable.bind_liesOnLine failed⟩
  | place statement =>
      simp only [remark?, Placement.promptError?] at said
      split at said
      · cases said
      · exact Placement.error_liesOnLine said
  | enter next => cases said
  | report problem =>
      cases said
      cases spelled with
      | statement line effect spelled =>
          cases spelled with
          | report problem lies => exact ⟨problem, rfl, lies⟩

theorem Ending.accounted {ending : Ending} {diagnostic : Diagnostic} (lines : List SourceLine)
    (said : diagnostic ∈ ending.diagnostics) : diagnostic.Accounted lines := by
  cases ending with
  | finished => cases said
  | abandoned => cases said
  | exhausted stage =>
      rw [List.mem_singleton.mp said]
      cases stage with
      | origin => exact .emptySource
      | body required =>
          cases required with
          | nil => exact .missingEnd
          | cons opening others => exact .missingPrologue opening.spelling

section

variable {options : Options} {source : String}

theorem Outline.placement_line {placement : Placement} {profile : Profile}
    (member : placement ∈ (ofSource options source).placements profile) :
    placement.line ∈ SourceLine.ofText source :=
  line_mem_of_ofLines (action_of_placement member)

namespace Run

theorem cell_line {cell : Cell} (member : cell ∈ (ofSource options source).image.cells.toList) :
    cell.line ∈ SourceLine.ofText source := by
  rw [image_cells] at member
  rcases List.mem_flatMap.mp member with ⟨placement, placed, own⟩
  rcases List.mem_map.mp own with ⟨value, -, rfl⟩
  exact Outline.placement_line placed

theorem exists_line {offset : Nat} (inside : offset < (ofSource options source).image.size) :
    ∃ line, (ofSource options source).image.line? offset = some line ∧
      (SourceLine.ofText source)[line.number]? = some line := by
  have present := Array.getElem_mem_toList inside
  refine ⟨_, ?_, SourceLine.getElem?_ofText (cell_line present)⟩
  rw [Image.line?, Array.getElem?_eq_getElem inside]
  rfl

theorem diagnostic_accounted {diagnostic : Diagnostic}
    (member : diagnostic ∈ (ofSource options source).diagnostics) :
    diagnostic.Accounted (SourceLine.ofText source) := by
  have onLine {line : SourceLine} {problem : Problem} (present : line ∈ SourceLine.ofText source)
      (lies : problem.liesOnLine = true) :
      (Diagnostic.errorAt line problem).Accounted (SourceLine.ofText source) :=
    .onLine line problem (SourceLine.getElem?_ofText present) (Problem.ne_missingLineInfo lies)
  rw [diagnostics, scan_diagnostics, resolution_diagnostics] at member
  rcases List.mem_append.mp member with passes | emission
  · rcases List.mem_append.mp passes with first | second
    · rcases List.mem_append.mp first with remarks | ending
      · rcases List.mem_filterMap.mp remarks with ⟨located, present, said⟩
        have action : located.action ∈ (Outline.ofSource options source).actions := by
          rw [← layout_actions options.profile {} (Outline.ofSource options source).actions]
          exact List.mem_map_of_mem present
        rcases located.remark_liesOnLine (Outline.ofLines_spelled action) said with
          ⟨problem, rfl, lies⟩
        exact onLine (Outline.line_mem_of_ofLines action) lies
      · exact Ending.accounted _ ending
    · rcases List.mem_filterMap.mp second with ⟨placement, waiting, wrong⟩
      rcases Placement.error_liesOnLine wrong with ⟨problem, rfl, lies⟩
      exact onLine (Outline.placement_line (List.mem_filter.mp waiting).1) lies
  · rcases emission_cases emission with ⟨start, length, rfl⟩ | ⟨cell, value, present, rfl⟩
    · exact .programTooLarge start length
    · exact onLine (cell_line present) rfl

end Run

end

/-! ## A whole run -/

/-- What a run goes by without asking. -/
structure Run.Faultless (options : Options) (source : String) : Prop where
  /-- An encoder refuses a number of operands just when it is not one that the statement
  takes. With any other it has something to encode. -/
  encoders : ∀ (statement : Statement) labels pc name expected found,
    statement.encode options.profile labels pc = .error (.operandCount name expected found) ↔
      statement.arity? options.profile = some expected ∧
      expected.accepts statement.operands.length = false ∧
      name = statement.name ∧ found = statement.operands.length
  /-- The operands of data are counted before it is encoded. -/
  data : ∀ placement ∈ (Outline.ofSource options source).placements options.profile,
    ∀ kind operands, placement.statement = .storage kind operands →
      kind.arity.accepts operands.length = true
  /-- An entry point is declared with a name. -/
  entry : ∀ (scan : Scan) stage line operands,
    Directive.global.arity.accepts operands.length = true →
      ∃ symbol, operands = [symbol] ∧
        scan.directive options.profile stage line .global operands =
          .proceed stage
            (if isLabelName symbol then scan else scan.report line (.invalidSymbol symbol))
  /-- What is written in the second pass goes to cells that are there. -/
  patches : (ofSource options source).resolutions.foldlM Resolution.checkedApply?
    (ofSource options source).scan.image = some (ofSource options source).image
  /-- A line that is required is one of the list. -/
  prologue : ∀ read required scan, Scan.Reaches options read (.body required) scan →
    ∃ index, required = options.prologue.drop index ∧
      (required = [] ∨ index < options.prologue.length)
  /-- The digits of a register come after one letter. -/
  letters : ∀ token shape, Shape.of? token = some shape → shape.isRegister = true →
    afterLetter? token = some token.toList.tail
  /-- Brackets are taken off texts that have them. -/
  groups : ∀ opening closing tokens,
    checkedEnclosed? opening closing tokens = some (enclosed? opening closing tokens)
  /-- A label is entered after those before it. -/
  entries : ∀ (table bound : SymbolTable) name offset, table.define? name offset = some bound →
    bound.positions = table.positions ++ [(name, table.definitions.length)]
  /-- A label is found where it was entered. -/
  lookups : ∀ (table : SymbolTable) name,
    (table.positions.lookup name).map (fun index => table.definitions[index]?.map (·.offset)) =
      (table.offset? name).map some
  /-- The line of a fixup is a line of the program. -/
  fixupLines : ∀ fixup ∈ (ofSource options source).scan.fixups,
    (SourceLine.ofText source)[fixup.line.number]? = some fixup.line
  /-- Every word comes from a line of the program. -/
  cellLines : ∀ offset < (ofSource options source).image.size,
    ∃ line, (ofSource options source).image.line? offset = some line ∧
      (SourceLine.ofText source)[line.number]? = some line
  /-- The line of a word is found by searching what was noted as the image was made. -/
  searches : ∀ offset < (ofSource options source).image.size,
    ∃ line, (LineIndex.ofEdits (edits options source)).line? offset = some line ∧
      (SourceLine.ofText source)[line.number]? = some line
  /-- Every diagnostic lies on a line, or is one that has none. -/
  diagnostics : ∀ diagnostic ∈ outputDiagnostics (assemble options source),
    diagnostic.Accounted (SourceLine.ofText source)

/-- A run never comes to a step that it cannot take, and never loses the line of what it
reports. -/
theorem runs_without_fault (options : Options) (source : String) :
    Run.Faultless options source where
  encoders _ _ _ _ _ _ := Statement.encode_eq_operandCount_iff
  data := by
    intro placement member kind operands same
    have spelled := Outline.ofLines_spelled (action_of_placement member)
    rw [same] at spelled
    cases spelled with
    | statement line effect spelled =>
        cases spelled with
        | storage kind operands spelled counted => exact counted
  entry := by
    intro scan stage line operands accepted
    rcases List.length_eq_one_iff.mp (beq_iff_eq.mp accepted) with ⟨symbol, rfl⟩
    refine ⟨symbol, rfl, ?_⟩
    rw [Scan.directive, Arity.check_of_accepted accepted]
    cases valid : isLabelName symbol <;> simp [valid]
  patches := by
    apply Resolution.foldlM_checkedApply? (Run.resolutions_fit options source)
    intro resolution member
    have recorded : resolution.fixup ∈ (Run.ofSource options source).scan.fixups := by
      rw [← Run.fixups_of_resolutions]
      exact List.mem_map_of_mem member
    exact Run.fixup_inside recorded
  prologue := by
    intro read required scan reached
    rcases reached.required_eq_drop rfl with ⟨index, rfl⟩
    refine ⟨index, rfl, ?_⟩
    by_cases inside : index < options.prologue.length
    · exact .inr inside
    · exact .inl (List.drop_eq_nil_of_le (Nat.le_of_not_lt inside))
  letters _ _ := Shape.afterLetter?_of_register
  groups := checkedEnclosed?_eq
  entries _ _ _ _ := SymbolTable.positions_of_define?
  lookups := SymbolTable.lookup_positions
  fixupLines := by
    intro fixup member
    rcases Run.exists_placement_of_fixup member with ⟨placement, placed, rfl⟩
    exact SourceLine.getElem?_ofText (Outline.placement_line placed)
  cellLines _ := Run.exists_line
  searches := by
    intro offset inside
    rw [(LineIndex.describes_ofEdits _).line, ← Run.image_eq_ofEdits]
    exact Run.exists_line inside
  diagnostics := by
    intro diagnostic member
    rw [assemble, Run.outputDiagnostics_result] at member
    exact Run.diagnostic_accounted member

/-- One of the patches fails and the others are too wide; the program has neither room
nor an end. -/
theorem errors_without_fault :
    let source := ".orig xFFFD\nbr lost\n.blkw 2 far\nhalt r0\nfar .fill far"
    let run := Run.ofSource {} source
    outputDiagnostics (assemble {} source) =
      [.errorAt ⟨3, "halt r0"⟩ (.operandCount "halt" (.exactly 0) 1),
        .programWarning .missingEnd,
        .errorAt ⟨1, "br lost"⟩ (.unknownLabel "lost"),
        .programError (.programTooLarge ⟨0xFFFD⟩ 5),
        .errorAt ⟨2, ".blkw 2 far"⟩ (.valueTooLarge 0x10001),
        .errorAt ⟨2, ".blkw 2 far"⟩ (.valueTooLarge 0x10001),
        .errorAt ⟨4, "far .fill far"⟩ (.valueTooLarge 0x10001)] ∧
    (∀ diagnostic ∈ outputDiagnostics (assemble {} source),
      diagnostic.Accounted (SourceLine.ofText source)) ∧
    run.resolutions.foldlM Resolution.checkedApply? run.scan.image = some run.image ∧
    run.scan.fixups.map (·.line.number) = [1, 2] ∧
    (∀ fixup ∈ run.scan.fixups,
      (SourceLine.ofText source)[fixup.line.number]? = some fixup.line) := by
  intro source run
  have faultless := runs_without_fault {} source
  exact ⟨by decide +kernel, faultless.diagnostics, faultless.patches, by decide +kernel,
    faultless.fixupLines⟩

end TwoPass
