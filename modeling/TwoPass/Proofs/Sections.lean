import TwoPass.Proofs.Emission
import TwoPass.Proofs.Progress

/-! # Sections

A program with sections has its instructions before its data. The section that is
open decides what a line may place, and the section for data is never left again. So
in every state the cells of instructions come first, and the source lines of an
assembled program are those of its first words. -/

namespace TwoPass

def SourceLine.OpensData (line : SourceLine) (profile : Profile) : Prop :=
  (profile.takeLabel line.tokens).statement = [".data"]

/-! ## One line -/

/-- What a line may do while a section is open: place what belongs there, and open the
section for data by the one directive that does. -/
structure Reading.KeepsSections (current : Option Section) (tokens : List String)
    (reading : Reading) : Prop where
  placed : ∀ statement, .place statement ∈ reading.effects →
    (statement.cellKind = .data ↔ current = some .data)
  opened : reading.flow = .proceed →
    (reading.effects.foldl Effect.sectionAfter current = some .data ↔
      current = some .data ∨ tokens = [".data"])

namespace Reading

variable {current : Option Section} {tokens : List String}

theorem KeepsSections.idle (flow : Flow) (other : tokens ≠ [".data"]) :
    KeepsSections current tokens ⟨[], flow⟩ where
  placed := by simp
  opened := by simp [other]

theorem KeepsSections.report (problem : Problem) (other : tokens ≠ [".data"]) :
    KeepsSections current tokens (.single (.report problem)) where
  placed := by simp [single]
  opened := by simp [single, Effect.sectionAfter, other]

theorem KeepsSections.place {statement : Statement} (other : tokens ≠ [".data"])
    (belongs : statement.cellKind = .data ↔ current = some .data) :
    KeepsSections current tokens (.single (.place statement)) where
  placed := by simp [single, belongs]
  opened := by simp [single, Effect.sectionAfter, other]

theorem ofSection_keepsSections (current : Option Section) (next : Section) (name : String)
    (named : tokens = [".data"] ↔ next = .data) :
    KeepsSections current tokens (ofSection current next name) := by
  unfold ofSection
  split
  · rename_i allowed
    refine ⟨by simp [single], fun _ => ?_⟩
    rcases allowed with rfl | ⟨rfl, rfl⟩
    · simp [single, Effect.sectionAfter, named]
    · simp [single, Effect.sectionAfter, named]
  · exact ⟨by simp, nofun⟩

theorem ofStorage_keepsSections (current : Option Section) (kind : Storage)
    (operands : List String) (other : tokens ≠ [".data"]) :
    KeepsSections current tokens (ofStorage .compact current kind operands) := by
  unfold ofStorage
  split
  · exact .report _ other
  · rename_i open_
    refine .place other ?_
    simpa [Statement.cellKind, Profile.sectioned] using open_

theorem ofInstruction_keepsSections (current : Option Section) (mnemonic : String)
    (operands : List String) (other : tokens ≠ [".data"]) :
    KeepsSections current tokens (ofInstruction current mnemonic operands) := by
  unfold ofInstruction
  split
  · exact .report _ other
  · rename_i closed
    refine .place other ?_
    simpa [Statement.cellKind] using closed

theorem ofDirective_keepsSections (current : Option Section) {name : String}
    {directive : Directive} (operands : List String) (named : directive.name = name) :
    KeepsSections current (name :: operands)
      (ofDirective .compact current directive operands) := by
  subst named
  have spelled : directive.name :: operands = [".data"] ↔ directive = .data ∧ operands = [] := by
    rw [List.cons.injEq]
    refine and_congr_left fun _ => ⟨fun same => ?_, fun same => by rw [same]; rfl⟩
    rcases directive with _ | _ | _ | _ | _ | _ | _ | _ <;>
      first | rfl | (exact absurd same (by decide))
  unfold ofDirective
  cases checked : directive.arity.check directive.name operands with
  | error problem =>
      refine .report problem fun opens => ?_
      rcases spelled.mp opens with ⟨rfl, rfl⟩
      cases checked
  | ok _ =>
      cases directive with
      | origin => exact .report _ (by simp [spelled])
      | finish => exact .idle .finish (by simp [spelled])
      | text => exact ofSection_keepsSections current .text _ (by simp [spelled])
      | data =>
          have bare : operands = [] := by
            cases operands with
            | nil => rfl
            | cons first rest => cases checked
          exact ofSection_keepsSections current .data _ (by rw [spelled]; simp [bare])
      | global =>
          dsimp only
          split
          · exact .report _ (by simp [spelled])
          · exact .idle .proceed (by simp [spelled])
      | storage kind => exact ofStorage_keepsSections current kind operands (by simp [spelled])

theorem ofStatement_keepsSections (current : Option Section) (tokens : List String) :
    KeepsSections current tokens (ofStatement .compact current tokens) := by
  cases tokens with
  | nil => exact .idle .proceed nofun
  | cons name operands =>
      rw [ofStatement]
      split
      · cases found : Directive.ofName? .compact name with
        | none =>
            refine .report _ fun opens => ?_
            rw [(List.cons.inj opens).1] at found
            exact absurd found (by decide)
        | some directive =>
            exact ofDirective_keepsSections current operands (Directive.name_of_ofName? found)
      · rename_i plain
        refine ofInstruction_keepsSections current name operands fun opens => ?_
        rw [(List.cons.inj opens).1] at plain
        exact plain rfl

theorem ofTokens_keepsSections (current : Option Section) (tokens : List String) :
    KeepsSections current (Profile.compact.takeLabel tokens).statement
      (ofTokens .compact current tokens) := by
  unfold ofTokens
  generalize Profile.compact.takeLabel tokens = parts
  have statement := ofStatement_keepsSections current parts.statement
  refine ⟨fun placed member => statement.placed placed ?_, fun proceeds => ?_⟩
  · simpa using member
  · rw [← statement.opened proceeds, List.foldl_append]
    cases parts.label <;> rfl

end Reading

/-! ## States on the way -/

def CodeFirst (cells : List Cell) : Prop :=
  ∃ code data, cells = code ++ data ∧
    (∀ cell ∈ code, cell.kind = .instruction) ∧ ∀ cell ∈ data, cell.kind = .data

namespace Scan

variable {read : List SourceLine} {stage : Stage} {scan : Scan}

theorem step_pushes (role : Role) (stage : Stage) (scan : Scan) (line : SourceLine) :
    ∃ pushed,
      (scan.step ⟨.compact, role⟩ stage line).scan.image.cells.toList =
        scan.image.cells.toList ++ pushed ∧
      ∀ cell ∈ pushed, (cell.kind = .data ↔ scan.openSection = some .data) := by
  rcases step_image ⟨.compact, role⟩ stage scan line with unchanged | carried
  · exact ⟨[], by simp [unchanged], nofun⟩
  · rw [carried, performAll_cells]
    refine ⟨_, rfl, fun cell member => ?_⟩
    rcases List.mem_flatMap.mp member with ⟨placement, placed, own⟩
    rcases List.mem_map.mp own with ⟨value, -, rfl⟩
    have keeps := Reading.ofTokens_keepsSections scan.openSection line.tokens
    refine keeps.placed placement.statement ?_
    rcases List.mem_map.mp (action_of_placement placed) with ⟨effect, listed, same⟩
    cases same
    exact listed

theorem Reaches.openSection_iff {role : Role}
    (reached : Reaches ⟨.compact, role⟩ read stage scan) :
    scan.openSection = some .data ↔ ∃ line ∈ read, line.OpensData .compact := by
  induction reached with
  | start => simp
  | @proceeds read stage next scan after line reached step induction =>
      have here : after.openSection = some .data ↔
          scan.openSection = some .data ∨ line.OpensData .compact := by
        cases advances_of_step step with
        | blank stage scan insignificant =>
            have silent : ¬ line.OpensData .compact := by
              simp [SourceLine.OpensData, SourceLine.tokens_of_blank insignificant,
                Profile.takeLabel]
            simp [silent]
        | opens scan origin significant first =>
            have silent : ¬ line.OpensData .compact := by
              rcases tokens_of_readOrigin first with ⟨start, tokens⟩
              have plain : Profile.compact.mayDefine ".orig" = false := by decide
              simp [SourceLine.OpensData, tokens, Profile.takeLabel, plain]
            simp [silent]
        | reads required scan effects significant met reading =>
            have keeps := Reading.ofTokens_keepsSections scan.openSection line.tokens
            rw [performAll_openSection]
            rw [reading] at keeps
            exact keeps.opened rfl
      rw [here, induction]
      simp [or_comm]

/-- A state whose cells are divided, with no data before the section for it is open. -/
structure Divided (scan : Scan) : Prop where
  codeFirst : CodeFirst scan.image.cells.toList
  codeOnly : scan.openSection ≠ some .data →
    ∀ cell ∈ scan.image.cells.toList, cell.kind = .instruction

theorem Divided.append {pushed : List Cell} (divided : scan.Divided)
    (belong : ∀ cell ∈ pushed, (cell.kind = .data ↔ scan.openSection = some .data)) :
    CodeFirst (scan.image.cells.toList ++ pushed) ∧
      (scan.openSection ≠ some .data →
        ∀ cell ∈ scan.image.cells.toList ++ pushed, cell.kind = .instruction) := by
  by_cases opened : scan.openSection = some .data
  · rcases divided.codeFirst with ⟨code, data, cells, codeKind, dataKind⟩
    refine ⟨⟨code, data ++ pushed, by rw [cells, List.append_assoc], codeKind, ?_⟩,
      fun closed => absurd opened closed⟩
    intro cell member
    rcases List.mem_append.mp member with earlier | now
    · exact dataKind cell earlier
    · exact (belong cell now).mpr opened
  · have codeKind : ∀ cell ∈ scan.image.cells.toList ++ pushed, cell.kind = .instruction := by
      intro cell member
      rcases List.mem_append.mp member with earlier | now
      · exact divided.codeOnly opened cell earlier
      · have other : cell.kind ≠ .data := fun data => opened ((belong cell now).mp data)
        cases kind : cell.kind with
        | instruction => rfl
        | data => exact absurd kind other
    exact ⟨⟨_, [], (List.append_nil _).symm, codeKind, nofun⟩, fun _ => codeKind⟩

theorem Divided.step (divided : scan.Divided) (role : Role) (stage : Stage)
    (line : SourceLine) :
    CodeFirst (scan.step ⟨.compact, role⟩ stage line).scan.image.cells.toList ∧
      (scan.openSection ≠ some .data →
        ∀ cell ∈ (scan.step ⟨.compact, role⟩ stage line).scan.image.cells.toList,
          cell.kind = .instruction) := by
  rcases step_pushes role stage scan line with ⟨pushed, cells, belong⟩
  rw [cells]
  exact divided.append belong

theorem Reaches.divided {role : Role} (reached : Reaches ⟨.compact, role⟩ read stage scan) :
    scan.Divided := by
  induction reached with
  | start => exact ⟨⟨[], [], rfl, nofun, nofun⟩, fun _ => nofun⟩
  | @proceeds read stage next scan after line reached step induction =>
      have stepped := induction.step role stage line
      rw [step] at stepped
      refine ⟨stepped.1, fun closed => stepped.2 fun opened => closed ?_⟩
      -- What was opened before this line is still open after it.
      rcases reached.openSection_iff.mp opened with ⟨opening, earlier, opens⟩
      exact (reached.proceeds line step).openSection_iff.mpr
        ⟨opening, List.mem_append_left _ earlier, opens⟩

theorem ofLines_codeFirst (role : Role) (lines : List SourceLine) :
    CodeFirst (ofLines ⟨.compact, role⟩ lines).image.cells.toList := by
  have initial : Reaches ⟨.compact, role⟩ [] .origin {} := .start
  rcases initial.last lines with
    ⟨stage, last, reached, image⟩ | ⟨more, line, later, stage, last, -, reached, final⟩
  · rw [List.nil_append] at image
    rw [image]
    exact reached.divided.codeFirst
  · rw [List.nil_append] at final
    rw [← final]
    exact (reached.divided.step role stage line).1

end Scan

/-! ## The finished program -/

theorem codeFirst_iff_kinds (cells : List Cell) :
    CodeFirst cells ↔
      ∃ count ≤ cells.length, cells.map Cell.kind =
        List.replicate count .instruction ++ List.replicate (cells.length - count) .data := by
  constructor
  · rintro ⟨code, data, rfl, codeKind, dataKind⟩
    refine ⟨code.length, by simp, ?_⟩
    rw [List.map_append, List.length_append, Nat.add_sub_cancel_left,
      List.map_eq_replicate_iff.mpr codeKind, List.map_eq_replicate_iff.mpr dataKind]
  · rintro ⟨count, -, kinds⟩
    rcases List.map_eq_append_iff.mp kinds with ⟨code, data, rfl, codeKinds, dataKinds⟩
    refine ⟨code, data, rfl, fun cell member => ?_, fun cell member => ?_⟩
    · exact List.eq_of_mem_replicate (codeKinds ▸ List.mem_map_of_mem member)
    · exact List.eq_of_mem_replicate (dataKinds ▸ List.mem_map_of_mem member)

theorem kind_of_mem_zipIdx {kind : CellKind} {count base : Nat} {entry : CellKind × Nat}
    (member : entry ∈ (List.replicate count kind).zipIdx base) : entry.1 = kind :=
  List.eq_of_mem_replicate (List.fst_mem_of_mem_zipIdx member)

theorem Assembly.addresses_of_kinds {assembly : Assembly} {image : Image} {count rest : Nat}
    (emitted : assembly.emitted = image.emit)
    (room : ∀ offset < assembly.emitted.length, assembly.start.toNat + offset < 65536)
    (kinds : image.cells.toList.map Cell.kind =
      List.replicate count .instruction ++ List.replicate rest .data) :
    assembly.sourceLines.map (·.1.toNat) =
      (List.range count).map (assembly.start.toNat + ·) := by
  let address (entry : CellKind × Nat) : Option Nat :=
    if entry.1 = .instruction then some (assembly.start.toNat + entry.2) else none
  have byKind : assembly.sourceLines.map (·.1.toNat) =
      (image.cells.toList.map Cell.kind).zipIdx.filterMap address := by
    have lines := Assembly.map_sourceLines Prod.fst room
    rw [emitted, Image.map_source_emit, List.zipIdx_map, List.filterMap_map] at lines
    rw [List.zipIdx_map, List.filterMap_map]
    refine lines.trans (List.filterMap_congr ?_)
    rintro ⟨cell, offset⟩ -
    cases kind : cell.kind <;> simp [address, kind]
  have code : ((List.replicate count CellKind.instruction).zipIdx).filterMap address =
      (List.range count).map (assembly.start.toNat + ·) := by
    have all : ∀ entry ∈ (List.replicate count CellKind.instruction).zipIdx,
        address entry = some (assembly.start.toNat + entry.2) := fun entry member =>
      if_pos (kind_of_mem_zipIdx member)
    have offsets : (List.replicate count CellKind.instruction).zipIdx.map Prod.snd =
        List.range count := by
      rw [List.zipIdx_map_snd, List.length_replicate, List.range_eq_range']
    rw [List.filterMap_congr all, List.filterMap_eq_map', ← offsets, List.map_map]
    rfl
  have data : ((List.replicate rest CellKind.data).zipIdx count).filterMap address = [] := by
    apply List.filterMap_eq_nil_iff.mpr
    intro entry member
    simp [address, kind_of_mem_zipIdx member]
  rw [byKind, kinds, List.zipIdx_append, List.filterMap_append, code, List.length_replicate,
    Nat.zero_add, data, List.append_nil]

/-- In every state of the first pass instructions come before data, and a line adds data
only after the section for data was opened, and instructions only before. So the words
of an assembled program that have source lines are the first ones, and the others are
data. -/
theorem code_before_data (role : Role) (source : String) :
    let options : Options := ⟨.compact, role⟩
    let run := Run.ofSource options source
    (∀ read rest stage scan, SourceLine.ofText source = read ++ rest →
      Scan.Reaches options read stage scan →
      run.scan = scan.run options stage rest ∧
      CodeFirst scan.image.cells.toList ∧
      ∀ line ∈ rest.head?, ∃ pushed,
        let cells := (scan.step options stage line).scan.image.cells.toList
        cells = scan.image.cells.toList ++ pushed ∧ CodeFirst cells ∧
        ∀ cell ∈ pushed, (cell.kind = .data ↔ ∃ line ∈ read, line.OpensData .compact)) ∧
    ∀ assembly, assemble options source = .ok assembly →
      ∃ count ≤ assembly.binary.words.length,
        assembly.sourceLines.map (·.1.toNat) =
          (List.range count).map (assembly.start.toNat + ·) ∧
        assembly.binary.words = run.image.cells.toList.map Cell.word ∧
        run.image.cells.toList.map Cell.kind =
          List.replicate count .instruction ++
            List.replicate (assembly.binary.words.length - count) .data := by
  intro options run
  constructor
  · intro read rest stage scan lines reached
    refine ⟨?_, reached.divided.codeFirst, fun line _ => ?_⟩
    · rw [← reached.ofLines_eq_run, ← lines]
      rfl
    · rcases scan.step_pushes role stage line with ⟨pushed, cells, belong⟩
      refine ⟨pushed, cells, (reached.divided.step role stage line).1, ?_⟩
      rw [← reached.openSection_iff]
      exact belong
  · intro assembly done
    have first : CodeFirst run.scan.image.cells.toList :=
      Scan.ofLines_codeFirst role (SourceLine.ofText source)
    rcases (codeFirst_iff_kinds _).mp first with ⟨count, bound, kinds⟩
    have words := Run.words_of_ok done
    have size : assembly.binary.words.length = run.scan.image.cells.toList.length := by
      rw [words, List.length_map, ← List.length_map Cell.kind, Run.image_kinds_eq_scan,
        List.length_map]
    rw [← Run.image_kinds_eq_scan, ← size] at kinds
    refine ⟨count, by rwa [size], ?_, words, kinds⟩
    exact Assembly.addresses_of_kinds (Run.emitted_of_ok done) (Run.room_of_ok done) kinds

/-- The section for data is opened on a line with a label, and the line after it adds
data. -/
theorem code_before_labelled_data :
    let source := ".orig x3000\n.text\nldr r0, value\nlast .data\nvalue .fill 7\n.end"
    let options : Options := ⟨.compact, .library⟩
    (∃ scan, Scan.Reaches options ((SourceLine.ofText source).take 4) (.body []) scan ∧
      CodeFirst scan.image.cells.toList ∧
      ∃ pushed,
        (scan.step options (.body []) ⟨4, "value .fill 7"⟩).scan.image.cells.toList =
          scan.image.cells.toList ++ pushed ∧
        ∀ cell ∈ pushed, cell.kind = .data) ∧
    ∃ assembly, assemble options source = .ok assembly ∧
      ∃ count ≤ assembly.binary.words.length,
        assembly.sourceLines.map (·.1.toNat) =
          (List.range count).map (assembly.start.toNat + ·) := by
  intro source options
  rcases code_before_data .library source with ⟨states, finished⟩
  constructor
  · have comes : (Scan.readAll options .origin {} ((SourceLine.ofText source).take 4)).map
        Prod.fst = some (.body []) := by
      decide +kernel
    rcases Option.map_eq_some_iff.mp comes with ⟨⟨stage, scan⟩, found, rfl⟩
    have reached : Scan.Reaches options ((SourceLine.ofText source).take 4) (.body []) scan :=
      Scan.Reaches.start.readAll _ found
    have split : SourceLine.ofText source = (SourceLine.ofText source).take 4 ++
        [⟨4, "value .fill 7"⟩, ⟨5, ".end"⟩] := by
      decide +kernel
    have opened : ∃ line ∈ (SourceLine.ofText source).take 4, line.OpensData .compact := by
      refine ⟨⟨3, "last .data"⟩, by decide +kernel, ?_⟩
      unfold SourceLine.OpensData
      decide +kernel
    rcases states _ _ _ scan split reached with ⟨-, first, next⟩
    rcases next ⟨4, "value .fill 7"⟩ rfl with ⟨pushed, cells, -, belong⟩
    exact ⟨scan, reached, first, pushed, cells, fun cell member =>
      (belong cell member).mpr opened⟩
  · have succeeds : (assemble options source).isOk = true := by decide +kernel
    rcases exists_of_isOk succeeds with ⟨assembly, done⟩
    rcases finished assembly done with ⟨count, bound, addresses, -⟩
    exact ⟨assembly, done, count, bound, addresses⟩

end TwoPass
