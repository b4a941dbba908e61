import TwoPass.Proofs.Emission
import TwoPass.Proofs.OneShot
import TwoPass.Proofs.Progress

/-! # Locality of operands

The operands of an instruction or of data decide neither how many words it takes up
nor which labels are bound. So what changes with them stays on their line: every other
statement keeps its place and its words, and every other line its diagnostics. -/

namespace TwoPass

/-! ## One line -/

/-- Statements, given by their tokens, that differ in operands by which no place is
decided. -/
inductive OperandsDiffer (profile : Profile) : List String → List String → Prop where
  | instruction (mnemonic : String) (operands others : List String)
      (known : profile.isMnemonic mnemonic) :
      OperandsDiffer profile (mnemonic :: operands) (mnemonic :: others)
  | fill (value other : String) : OperandsDiffer profile [".fill", value] [".fill", other]
  | block (number : Nat) (count sameCount value other : String)
      (counted : Storage.blockCount count = .ok number)
      (countedSame : Storage.blockCount sameCount = .ok number) :
      OperandsDiffer profile [".blkw", count, value] [".blkw", sameCount, other]

theorem OperandsDiffer.head {profile : Profile} {statement change : List String}
    (differ : OperandsDiffer profile statement change) :
    ∃ name operands others, statement = name :: operands ∧ change = name :: others ∧
      profile.mayDefine name = false := by
  cases differ with
  | instruction mnemonic operands others known =>
      exact ⟨mnemonic, operands, others, rfl, rfl, by simp [Profile.mayDefine, known]⟩
  | fill value other => exact ⟨".fill", _, _, rfl, rfl, rfl⟩
  | block number count sameCount value other counted countedSame =>
      exact ⟨".blkw", _, _, rfl, rfl, rfl⟩

/-- Effects that leave the same position behind. -/
inductive Effect.Alike : Effect → Effect → Prop where
  | same (effect : Effect) : Alike effect effect
  | place (statement other : Statement) (size : other.size = statement.size) :
      Alike (.place statement) (.place other)

namespace Effect.Alike

variable {effect other : Effect}

theorem after_eq (alike : effect.Alike other) (profile : Profile) (position : Position) :
    position.after profile other = position.after profile effect := by
  cases alike with
  | same => rfl
  | place statement other size => simp only [Position.after, size]

theorem sectionAfter_eq (alike : effect.Alike other) (current : Option Section) :
    other.sectionAfter current = effect.sectionAfter current := by
  cases alike <;> rfl

end Effect.Alike

namespace Statement

theorem size_fill (value : String) : (storage .fill [value]).size = 1 := by
  simp only [size, Storage.parse]
  cases WordOperand.parse value <;> rfl

theorem size_block {count : String} {number : Nat} (value : String)
    (counted : Storage.blockCount count = .ok number) :
    (storage .block [count, value]).size = number := by
  simp only [size, Storage.parse, counted, ok_bind]
  cases WordOperand.parse value with
  | ok operand => rfl
  | error problem => simp [Storage.failedLength, counted, Except.toOption]

end Statement

namespace Profile

variable {profile : Profile}

theorem not_startsWith_of_isMnemonic {token : String} (known : profile.isMnemonic token) :
    startsWith '.' token = false := by
  cases profile with
  | baseline =>
      have plain : ∀ entry ∈ Baseline.mnemonics, startsWith '.' entry.1 = false := by decide +kernel
      rcases Option.isSome_iff_exists.mp known with ⟨form, found⟩
      rcases List.lookup_eq_some_iff.mp found with ⟨before, after, listed, -⟩
      exact plain (token, form) (by simp [listed])
  | compact =>
      have plain : ∀ entry ∈ Compact.mnemonics, startsWith '.' entry.1 = false := by decide +kernel
      rcases Option.isSome_iff_exists.mp known with ⟨form, found⟩
      rcases List.lookup_eq_some_iff.mp found with ⟨before, after, listed, -⟩
      exact plain (token, form) (by simp [listed])

theorem takeLabel_append {label : Option String} {name : String} (operands : List String)
    (defines : ∀ first ∈ label, profile.mayDefine first) (plain : profile.mayDefine name = false) :
    profile.takeLabel (label.toList ++ name :: operands) = ⟨label, name :: operands⟩ := by
  cases label with
  | none => cases operands <;> simp [takeLabel, plain]
  | some first => simp [takeLabel, plain, defines first rfl]

theorem eq_append_of_takeLabel {tokens operands : List String} {label : Option String}
    {name : String} (spelled : profile.takeLabel tokens = ⟨label, name :: operands⟩) :
    tokens = label.toList ++ name :: operands ∧ ∀ first ∈ label, profile.mayDefine first := by
  unfold takeLabel at spelled
  split at spelled
  · cases spelled
  · split at spelled
    · cases spelled
    · cases spelled
      exact ⟨rfl, fun first none => by cases none⟩
  · split at spelled
    · rename_i defines
      cases spelled
      rw [Bool.and_eq_true] at defines
      exact ⟨rfl, fun first same => Option.some.inj same ▸ defines.1⟩
    · cases spelled
      exact ⟨rfl, fun first none => by cases none⟩

end Profile

namespace Reading

variable {profile : Profile} {statement change : List String}

theorem ofStorage_alike (current : Option Section) (kind : Storage) {operands others : List String}
    (size : (Statement.storage kind others).size = (Statement.storage kind operands).size) :
    ∃ effect other, effect.Alike other ∧
      ofStorage profile current kind operands = single effect ∧
      ofStorage profile current kind others = single other := by
  by_cases misplaced : profile.sectioned ∧ current ≠ some .data
  · refine ⟨_, _, .same (.report (.dataInTextSection kind.name)), ?_, ?_⟩ <;>
      exact if_pos misplaced
  · refine ⟨_, _, .place _ _ size, ?_, ?_⟩ <;> exact if_neg misplaced

theorem ofInstruction_alike (current : Option Section) (mnemonic : String)
    (operands others : List String) :
    ∃ effect other, effect.Alike other ∧
      ofInstruction current mnemonic operands = single effect ∧
      ofInstruction current mnemonic others = single other := by
  by_cases misplaced : current = some .data
  · refine ⟨_, _, .same (.report (.instructionInDataSection mnemonic)), ?_, ?_⟩ <;>
      exact if_pos misplaced
  · refine ⟨_, _, .place (.instruction mnemonic operands) (.instruction mnemonic others) rfl,
      ?_, ?_⟩ <;> exact if_neg misplaced

theorem ofStatement_alike (differ : OperandsDiffer profile statement change)
    (current : Option Section) :
    ∃ effect other, effect.Alike other ∧ ofStatement profile current statement = single effect ∧
      ofStatement profile current change = single other := by
  cases differ with
  | instruction mnemonic operands others known =>
      have plain := Profile.not_startsWith_of_isMnemonic known
      simp only [ofStatement, plain, Bool.false_eq_true, if_false]
      exact ofInstruction_alike current mnemonic operands others
  | fill value other =>
      have found : Directive.ofName? profile ".fill" = some (.storage .fill) := by
        cases profile <;> decide
      have size := (Statement.size_fill other).trans (Statement.size_fill value).symm
      have dot : startsWith '.' ".fill" = true := by decide
      simp only [ofStatement, dot, if_true, found]
      exact ofStorage_alike current .fill size
  | block number count sameCount value other counted countedSame =>
      have found : Directive.ofName? profile ".blkw" = some (.storage .block) := by
        cases profile <;> decide
      have size := (Statement.size_block other countedSame).trans
        (Statement.size_block value counted).symm
      have dot : startsWith '.' ".blkw" = true := by decide
      simp only [ofStatement, dot, if_true, found]
      exact ofStorage_alike current .block size

theorem ofTokens_alike (differ : OperandsDiffer profile statement change)
    {label : Option String} (defines : ∀ name ∈ label, profile.mayDefine name)
    (current : Option Section) :
    ∃ effect other, effect.Alike other ∧
      ofTokens profile current (label.toList ++ statement) =
        ⟨label.toList.map .bind ++ [effect], .proceed⟩ ∧
      ofTokens profile current (label.toList ++ change) =
        ⟨label.toList.map .bind ++ [other], .proceed⟩ := by
  rcases ofStatement_alike differ current with ⟨effect, other, alike, reading, changed⟩
  rcases differ.head with ⟨name, operands, others, rfl, rfl, plain⟩
  refine ⟨effect, other, alike, ?_, ?_⟩
  · simp only [ofTokens, Profile.takeLabel_append operands defines plain, reading, single]
  · simp only [ofTokens, Profile.takeLabel_append others defines plain, changed, single]

end Reading

/-! ## Outlines -/

theorem filter_filterMap_of_own {view : α → Option β} {keep : β → Bool} {select : α → Bool}
    (own : ∀ entry result, view entry = some result → keep result = select entry)
    (entries : List α) :
    (entries.filterMap view).filter keep = (entries.filter select).filterMap view := by
  rw [List.filter_filterMap, List.filterMap_filter]
  apply List.filterMap_congr
  intro entry _
  cases seen : view entry with
  | none => simp
  | some result => simp [Option.filter_some, own entry result seen]

theorem filter_flatMap_of_own {expand : α → List β} {keep : β → Bool} {select : α → Bool}
    (own : ∀ entry, ∀ result ∈ expand entry, keep result = select entry) (entries : List α) :
    (entries.flatMap expand).filter keep = (entries.filter select).flatMap expand := by
  induction entries with
  | nil => rfl
  | cons entry entries induction =>
      rw [List.flatMap_cons, List.filter_append, induction]
      cases selected : select entry with
      | true =>
          have all : (expand entry).filter keep = expand entry :=
            List.filter_eq_self.mpr fun result member => (own entry result member).trans selected
          rw [List.filter_cons_of_pos selected, List.flatMap_cons, all]
      | false =>
          have none : (expand entry).filter keep = [] := by
            apply List.filter_eq_nil_iff.mpr
            intro result member
            simp [own entry result member, selected]
          rw [List.filter_cons_of_neg (by simp [selected]), none, List.nil_append]

/-- Programs that do the same on all lines but one, and leave the same position behind
there. -/
structure Outline.AgreeExcept (number : Nat) (profile : Profile) (first second : Outline) :
    Prop where
  origin : second.origin = first.origin
  ending : second.ending = first.ending
  actions : ∃ before here change after,
    first.actions = before ++ here ++ after ∧ second.actions = before ++ change ++ after ∧
    (∀ action ∈ here ++ change, action.line.number = number) ∧
    ∀ position : Position, position.afterAll profile change = position.afterAll profile here

namespace Outline.AgreeExcept

variable {number : Nat} {profile : Profile} {first second : Outline}
  (agree : AgreeExcept number profile first second)
include agree

theorem afterAll_eq :
    Position.afterAll profile {} second.actions = Position.afterAll profile {} first.actions := by
  rcases agree.actions with ⟨before, here, change, after, firstActions, secondActions, -, same⟩
  simp only [firstActions, secondActions, Position.afterAll_append, same]

theorem symbols_eq : second.symbols profile = first.symbols profile :=
  congrArg Position.symbols agree.afterAll_eq

theorem size_eq : second.size profile = first.size profile :=
  congrArg Position.offset agree.afterAll_eq

theorem located_eq :
    (second.located profile).filter (·.action.line.number != number) =
      (first.located profile).filter (·.action.line.number != number) := by
  rcases agree.actions with ⟨before, here, change, after, firstActions, secondActions, own, same⟩
  have skipped (position : Position) {actions : List Action}
      (within : ∀ action ∈ actions, action ∈ here ++ change) :
      (layout profile position actions).filter (·.action.line.number != number) = [] := by
    apply List.filter_eq_nil_iff.mpr
    intro located member
    have listed : located.action ∈ actions := by
      rw [← layout_actions profile position actions]
      exact List.mem_map_of_mem member
    simp [own located.action (within located.action listed)]
  -- Both programs come to the lines after the change in the same position.
  simp only [located, firstActions, secondActions, layout_append, List.filter_append,
    Position.afterAll_append, same]
  rw [skipped _ fun _ => List.mem_append_left change, skipped _ fun _ => List.mem_append_right here]

theorem placements_eq :
    (second.placements profile).filter (·.line.number != number) =
      (first.placements profile).filter (·.line.number != number) := by
  have own (located : LocatedAction) (placement : Placement)
      (places : located.placement? = some placement) :
      (placement.line.number != number) = (located.action.line.number != number) := by
    rcases located with ⟨position, line, effect⟩
    cases effect with
    | place statement =>
        cases places
        rfl
    | _ => cases places
  have same := congrArg (List.filterMap LocatedAction.placement?) agree.located_eq
  rw [← filter_filterMap_of_own own, ← filter_filterMap_of_own own] at same
  exact same

end Outline.AgreeExcept

/-! ## Lines of a program -/

theorem Scan.Reaches.origin_accepted {options : Options} {read : List SourceLine}
    {required : List OpeningLine} {scan : Scan}
    (reached : Reaches options read (.body required) scan) (rest : List SourceLine) :
    ∃ start, (Outline.ofLines options (read ++ rest)).origin = some start := by
  cases reached.traced with
  | body origin required scan actions outline =>
      rw [outline]
      exact ⟨origin, Outline.ofBody_origin ..⟩

theorem Scan.Reaches.agreeExcept {options : Options} {read : List SourceLine} {scan : Scan}
    {number : Nat} {line other : SourceLine} {label : Option String}
    {statement change : List String} (reached : Reaches options read (.body []) scan)
    (numbered : line.number = number) (otherNumbered : other.number = number)
    (tokens : line.tokens = label.toList ++ statement)
    (otherTokens : other.tokens = label.toList ++ change)
    (defines : ∀ name ∈ label, options.profile.mayDefine name)
    (differ : OperandsDiffer options.profile statement change) (rest : List SourceLine) :
    Outline.AgreeExcept number options.profile (Outline.ofLines options (read ++ line :: rest))
      (Outline.ofLines options (read ++ other :: rest)) := by
  rcases Reading.ofTokens_alike differ defines scan.openSection with
    ⟨effect, otherEffect, alike, reading, otherReading⟩
  rw [← tokens] at reading
  rw [← otherTokens] at otherReading
  rcases differ.head with ⟨name, operands, others, rfl, rfl, -⟩
  have significant : line.isSignificant := SourceLine.isSignificant_of_tokens (by simp [tokens])
  have otherSignificant : other.isSignificant :=
    SourceLine.isSignificant_of_tokens (by simp [otherTokens])
  cases reached.traced with
  | body origin required scan actions outline =>
      rw [outline, outline, List.filter_cons_of_pos significant,
        List.filter_cons_of_pos otherSignificant, Outline.ofBody_of_proceed rfl reading,
        Outline.ofBody_of_proceed rfl otherReading]
      dsimp only [List.tail_nil]
      have sections : (label.toList.map Effect.bind ++ [otherEffect]).foldl
          Effect.sectionAfter scan.openSection =
          (label.toList.map Effect.bind ++ [effect]).foldl
            Effect.sectionAfter scan.openSection := by
        simp only [List.foldl_append, List.foldl_cons, List.foldl_nil, alike.sectionAfter_eq]
      rw [sections]
      refine ⟨rfl, rfl, actions, _, _, _, (List.append_assoc _ _ _).symm,
        (List.append_assoc _ _ _).symm, ?_, ?_⟩
      · intro action member
        rcases List.mem_append.mp member with own | changed
        · rcases List.mem_map.mp own with ⟨_, -, rfl⟩
          exact numbered
        · rcases List.mem_map.mp changed with ⟨_, -, rfl⟩
          exact otherNumbered
      · intro position
        simp only [Position.afterAll, List.foldl_map, List.foldl_append, List.foldl_cons,
          List.foldl_nil, alike.after_eq]

/-! ## Diagnostics and words -/

def Diagnostic.isElsewhere (number : Nat) (diagnostic : Diagnostic) : Bool :=
  match diagnostic.location with
  | .line line => line.number != number
  | .address _ | .program => true

namespace Run

variable {options : Options} {source changed : String} {number : Nat}
  (agree : Outline.AgreeExcept number options.profile (Outline.ofSource options source)
    (Outline.ofSource options changed))
include agree

theorem labels_of_agree :
    (ofSource options changed).scan.labels = (ofSource options source).scan.labels := by
  simp only [Scan.labels, Scan.start, origin_eq, symbols_eq, agree.origin, agree.symbols_eq]

theorem filter_remarks_of_agree :
    (((Outline.ofSource options changed).located options.profile).filterMap
        (·.remark? options.profile
          (·.promptError? options.profile
            (ofSource options changed).scan.labels))).filter (·.isElsewhere number) =
      (((Outline.ofSource options source).located options.profile).filterMap
        (·.remark? options.profile
          (·.promptError? options.profile
            (ofSource options source).scan.labels))).filter (·.isElsewhere number) := by
  have own (located : LocatedAction) (diagnostic : Diagnostic)
      (said : located.remark? options.profile
        (·.promptError? options.profile (ofSource options source).scan.labels) =
          some diagnostic) :
      diagnostic.isElsewhere number = (located.action.line.number != number) := by
    rcases LocatedAction.remark_eq_errorAt said with ⟨problem, rfl⟩
    rfl
  rw [labels_of_agree agree, filter_filterMap_of_own own, filter_filterMap_of_own own,
    agree.located_eq]

theorem filter_errors_of_agree :
    ((((Outline.ofSource options changed).placements options.profile).filter
        (·.deferred options.profile)).filterMap
          (·.error? options.profile
            (ofSource options changed).scan.labels)).filter (·.isElsewhere number) =
      ((((Outline.ofSource options source).placements options.profile).filter
        (·.deferred options.profile)).filterMap
          (·.error? options.profile
            (ofSource options source).scan.labels)).filter (·.isElsewhere number) := by
  have own (placement : Placement) (diagnostic : Diagnostic)
      (wrong : placement.error? options.profile (ofSource options source).scan.labels =
        some diagnostic) :
      diagnostic.isElsewhere number = (placement.line.number != number) := by
    rcases Placement.error_eq_errorAt wrong with ⟨problem, rfl⟩
    rfl
  rw [labels_of_agree agree, filter_filterMap_of_own own, filter_filterMap_of_own own,
    List.filter_comm, agree.placements_eq, List.filter_comm]

theorem filter_cells_of_agree :
    (ofSource options changed).image.cells.toList.filter (·.line.number != number) =
      (ofSource options source).image.cells.toList.filter (·.line.number != number) := by
  have own (placement : Placement) (cell : Cell)
      (member : cell ∈ placement.cells options.profile (ofSource options source).scan.labels) :
      (cell.line.number != number) = (placement.line.number != number) := by
    rcases List.mem_map.mp member with ⟨value, -, rfl⟩
    rfl
  rw [image_cells, image_cells, labels_of_agree agree, filter_flatMap_of_own own,
    filter_flatMap_of_own own, agree.placements_eq]

theorem filter_emission_of_agree :
    (ofSource options changed).emissionDiagnostics.filter (·.isElsewhere number) =
      (ofSource options source).emissionDiagnostics.filter (·.isElsewhere number) := by
  have own (cell : Cell) (diagnostic : Diagnostic)
      (found : (cell.oversized?.map fun value =>
        Diagnostic.errorAt cell.line (.valueTooLarge value)) = some diagnostic) :
      diagnostic.isElsewhere number = (cell.line.number != number) := by
    rcases Option.map_eq_some_iff.mp found with ⟨value, -, rfl⟩
    rfl
  simp only [emissionDiagnostics, origin_eq, agree.origin]
  cases (Outline.ofSource options source).origin with
  | none => rfl
  | some start =>
      simp only [Image.diagnostics, image_size, agree.size_eq, List.filter_append,
        filter_filterMap_of_own own, filter_cells_of_agree agree]

theorem filter_diagnostics_of_agree :
    (ofSource options changed).diagnostics.filter (·.isElsewhere number) =
      (ofSource options source).diagnostics.filter (·.isElsewhere number) := by
  simp only [diagnostics, scan_diagnostics, resolution_diagnostics, List.filter_append,
    filter_remarks_of_agree agree, agree.ending, filter_errors_of_agree agree,
    filter_emission_of_agree agree]

end Run

/-- A change of operands on one line that leaves its label, its mnemonic or directive and the
count of a block as they are leaves every other statement its place and its words, every
label its offset, and every other line its diagnostics. -/
theorem operands_stay_local (options : Options) (source changed : String)
    (read rest : List SourceLine) (line other : SourceLine) (scan : Scan)
    (label : Option String) (statement change : List String)
    (lines : SourceLine.ofText source = read ++ line :: rest)
    (otherLines : SourceLine.ofText changed = read ++ other :: rest)
    (reached : Scan.Reaches options read (.body []) scan)
    (tokens : line.tokens = label.toList ++ statement)
    (otherTokens : other.tokens = label.toList ++ change)
    (defines : ∀ name ∈ label, options.profile.mayDefine name)
    (differ : OperandsDiffer options.profile statement change) :
    let elsewhere (placement : Placement) : Bool := placement.line.number != line.number
    let placements := (Outline.ofSource options source).placements options.profile
    ∃ start words otherWords,
      outputBinary (assemble options source) = some ⟨start, words⟩ ∧
      outputBinary (assemble options changed) = some ⟨start, otherWords⟩ ∧
      otherWords.length = words.length ∧
      (Run.ofSource options changed).scan.symbols = (Run.ofSource options source).scan.symbols ∧
      ((Outline.ofSource options changed).placements options.profile).filter elsewhere =
        placements.filter elsewhere ∧
      (∀ placement ∈ placements, elsewhere placement → ∀ index, placement.Covers index →
        ∃ word, words[index]? = some word ∧ otherWords[index]? = some word) ∧
      (outputDiagnostics (assemble options changed)).filter (·.isElsewhere line.number) =
        (outputDiagnostics (assemble options source)).filter (·.isElsewhere line.number) := by
  intro elsewhere placements
  have aligned : other.number = line.number := by
    rw [SourceLine.number_of_ofText lines, SourceLine.number_of_ofText otherLines]
  have agree : Outline.AgreeExcept line.number options.profile (Outline.ofSource options source)
      (Outline.ofSource options changed) := by
    rw [Outline.ofSource, Outline.ofSource, lines, otherLines]
    exact reached.agreeExcept rfl aligned tokens otherTokens defines differ rest
  have accepted : ∃ start, (Run.ofSource options source).scan.origin = some start := by
    rw [Run.origin_eq, Outline.ofSource, lines]
    exact reached.origin_accepted _
  rcases accepted with ⟨start, accepted⟩
  have otherAccepted : (Run.ofSource options changed).scan.origin = some start := by
    rw [Run.origin_eq, agree.origin, ← Run.origin_eq, accepted]
  refine ⟨start, (Run.ofSource options source).image.emit.map (·.word),
    (Run.ofSource options changed).image.emit.map (·.word), ?_, ?_, ?_, ?_, agree.placements_eq,
    ?_, ?_⟩
  · rw [assemble, Run.outputBinary_result, accepted, Option.map_some]
  · rw [assemble, Run.outputBinary_result, otherAccepted, Option.map_some]
  · rw [Run.emit_length, Run.emit_length, Run.image_size, Run.image_size, agree.size_eq]
  · rw [Run.symbols_eq, Run.symbols_eq, agree.symbols_eq]
  · intro placement member away index covers
    have kept : placement ∈ placements.filter elsewhere := List.mem_filter.mpr ⟨member, away⟩
    rw [← agree.placements_eq] at kept
    rcases Run.emit_of_covers member covers with ⟨word, own, emitted⟩
    rcases Run.emit_of_covers (List.mem_filter.mp kept).1 covers with
      ⟨sameWord, otherOwn, otherEmitted⟩
    rw [Run.labels_of_agree agree, own] at otherOwn
    cases otherOwn
    exact ⟨word, emitted, otherEmitted⟩
  · rw [assemble, assemble, Run.outputDiagnostics_result, Run.outputDiagnostics_result]
    exact Run.filter_diagnostics_of_agree agree

/-- The changed line is encoded before and refused after, and a label is bound on it.
Another line refers to that label, and a third is wrong in both programs. -/
theorem refused_operands_stay_local :
    let source := ".orig x3000\nloop add r0, r0, #1\nbr loop\nfar .fill lost\n.end"
    let changed := ".orig x3000\nloop add r9, nowhere\nbr loop\nfar .fill lost\n.end"
    OperandsDiffer .baseline ["add", "r0", "r0", "#1"] ["add", "r9", "nowhere"] ∧
    ∃ start words otherWords,
      outputBinary (assemble {} source) = some ⟨start, words⟩ ∧
      outputBinary (assemble {} changed) = some ⟨start, otherWords⟩ ∧
      otherWords.length = words.length ∧
      (Run.ofSource {} changed).scan.symbols = (Run.ofSource {} source).scan.symbols ∧
      (∃ word, words[1]? = some word ∧ otherWords[1]? = some word) ∧
      (outputDiagnostics (assemble {} changed)).filter (·.isElsewhere 1) =
        (outputDiagnostics (assemble {} source)).filter (·.isElsewhere 1) := by
  intro source changed
  let line : SourceLine := ⟨1, "loop add r0, r0, #1"⟩
  let other : SourceLine := ⟨1, "loop add r9, nowhere"⟩
  let rest : List SourceLine := [⟨2, "br loop"⟩, ⟨3, "far .fill lost"⟩, ⟨4, ".end"⟩]
  have differ : OperandsDiffer .baseline ["add", "r0", "r0", "#1"] ["add", "r9", "nowhere"] :=
    .instruction "add" _ _ (by decide +kernel)
  have comes : (Scan.readAll {} .origin {} [⟨0, ".orig x3000"⟩]).map Prod.fst =
      some (.body []) := by
    decide +kernel
  rcases Option.map_eq_some_iff.mp comes with ⟨⟨stage, scan⟩, found, rfl⟩
  have reached : Scan.Reaches {} [⟨0, ".orig x3000"⟩] (.body []) scan :=
    Scan.Reaches.start.readAll _ found
  rcases operands_stay_local {} source changed [⟨0, ".orig x3000"⟩] rest line other scan
      (some "loop") _ _ (by decide +kernel) (by decide +kernel) reached (by decide +kernel)
      (by decide +kernel) (by decide +kernel) differ with
    ⟨start, words, otherWords, binary, otherBinary, length, symbols, -, kept, diagnostics⟩
  let placement : Placement :=
    ⟨⟨1, ⟨[⟨"loop", 0⟩]⟩⟩, ⟨2, "br loop"⟩, .instruction "br" ["loop"]⟩
  have placed : placement ∈ (Outline.ofSource {} source).placements .baseline := by
    decide +kernel
  have same := kept placement placed (by decide +kernel) 1 ⟨by decide +kernel, by decide +kernel⟩
  exact ⟨differ, start, words, otherWords, binary, otherBinary, length, symbols, same, diagnostics⟩

end TwoPass
