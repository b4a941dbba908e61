import Mathlib.Data.List.Nodup
import TwoPass.Proofs.Emission
import TwoPass.Proofs.LabelSpelling

/-! # The labels of a program

The symbol table of an assembled program has an entry for the label of each line that
was read, in the order of the lines. Its value is the address of the word that comes
next, which is told by the lines that placed the words before it. -/

namespace TwoPass

instance (line : SourceLine) (profile : Profile) : Decidable (line.EndsProgram profile) :=
  inferInstanceAs (Decidable (_ = _))

namespace SourceLine

/-- The lines of a program down to the one that ends it. -/
def throughEnd (profile : Profile) : List SourceLine → List SourceLine
  | [] => []
  | line :: lines =>
    if line.EndsProgram profile then [line] else line :: throughEnd profile lines

/-- The label of a line: its first token, unless that is a directive or a mnemonic. -/
def label? (line : SourceLine) (profile : Profile) : Option String :=
  line.tokens.head?.filter profile.mayDefine

theorem label?_of_blank {line : SourceLine} (profile : Profile) (blank : ¬ line.isSignificant) :
    line.label? profile = none := by
  simp [label?, tokens_of_blank blank]

theorem label?_of_origin {line : SourceLine} {origin : Address} (profile : Profile)
    (read : Scan.readOrigin line.tokens = .ok origin) : line.label? profile = none := by
  rcases Scan.tokens_of_readOrigin read with ⟨start, tokens⟩
  have plain : profile.mayDefine ".orig" = false := by cases profile <;> decide
  simp [label?, tokens, plain]

theorem not_mnemonic_of_label? {line : SourceLine} {profile : Profile} {name : String}
    (label : line.label? profile = some name) : profile.isMnemonic name = false := by
  have defines := (Option.filter_eq_some_iff.mp label).2
  simp only [Profile.mayDefine, Bool.and_eq_true, Bool.not_eq_true'] at defines
  exact defines.2

theorem throughEnd_cons_of_ends {line : SourceLine} {profile : Profile}
    (ends : line.EndsProgram profile) (lines : List SourceLine) :
    throughEnd profile (line :: lines) = [line] :=
  if_pos ends

theorem throughEnd_cons_of_continues {line : SourceLine} {profile : Profile}
    (continues : ¬ line.EndsProgram profile) (lines : List SourceLine) :
    throughEnd profile (line :: lines) = line :: throughEnd profile lines :=
  if_neg continues

theorem throughEnd_filter (profile : Profile) (lines : List SourceLine) :
    (throughEnd profile lines).filter isSignificant =
      throughEnd profile (lines.filter isSignificant) := by
  induction lines with
  | nil => rfl
  | cons line lines induction =>
      by_cases significant : line.isSignificant
      · by_cases ends : line.EndsProgram profile
        · simp [throughEnd, significant, ends]
        · simp [throughEnd, significant, ends, induction]
      · have continues := not_endsProgram_of_blank profile significant
        simp [throughEnd, significant, continues, induction]

theorem throughEnd_sublist (profile : Profile) (lines : List SourceLine) :
    (throughEnd profile lines).Sublist lines := by
  induction lines with
  | nil => exact List.Sublist.slnil
  | cons line lines induction =>
      rw [throughEnd]
      split
      · exact List.Sublist.cons_cons line (List.nil_sublist lines)
      · exact List.Sublist.cons_cons line induction

end SourceLine

/-! ## Lines and what they do -/

theorem Profile.takeLabel_cases (profile : Profile) (tokens : List String) :
    (profile.takeLabel tokens).label = tokens.head?.filter profile.mayDefine ∨
      ∃ name operands, (profile.takeLabel tokens).statement = name :: operands ∧
        profile.mayDefine name = true := by
  unfold takeLabel
  split
  · exact .inl rfl
  · left
    split <;> rename_i defines <;> simp [Option.filter_some, defines]
  · rename_i first second rest
    by_cases defines : profile.mayDefine first
    · split
      · left
        simp [Option.filter_some, defines]
      · exact .inr ⟨first, second :: rest, rfl, defines⟩
    · left
      simp [Option.filter_some, defines]

def Effect.label? : Effect → Option String
  | .bind name => some name
  | .place _ | .enter _ | .report _ => none

namespace Reading

theorem ofStatement_of_mayDefine {profile : Profile} {name : String}
    (defines : profile.mayDefine name = true) (current : Option Section)
    (operands : List String) :
    ofStatement profile current (name :: operands) = ofInstruction current name operands := by
  simp only [Profile.mayDefine, Bool.and_eq_true, Bool.not_eq_true'] at defines
  rw [ofStatement, defines.1]
  rfl

theorem bind_not_mem_ofDirective (profile : Profile) (current : Option Section)
    (directive : Directive) (operands : List String) (name : String) :
    .bind name ∉ (ofDirective profile current directive operands).effects := by
  unfold ofDirective
  split
  · simp [single]
  · cases directive with
    | origin => simp [single]
    | finish => simp
    | text =>
        dsimp only [ofSection]
        split <;> simp [single]
    | data =>
        dsimp only [ofSection]
        split <;> simp [single]
    | global =>
        dsimp only
        split <;> simp [single]
    | storage kind =>
        dsimp only [ofStorage]
        split <;> simp [single]

theorem bind_not_mem_ofStatement (profile : Profile) (current : Option Section)
    (tokens : List String) (name : String) :
    .bind name ∉ (ofStatement profile current tokens).effects := by
  cases tokens with
  | nil => simp [ofStatement]
  | cons first operands =>
      rw [ofStatement]
      split
      · split
        · exact bind_not_mem_ofDirective profile current _ operands name
        · simp [single]
      · unfold ofInstruction
        split <;> simp [single]

theorem ofTokens_labels (profile : Profile) (current : Option Section) (tokens : List String) :
    (ofTokens profile current tokens).effects.filterMap Effect.label? =
      (profile.takeLabel tokens).label.toList := by
  unfold ofTokens
  generalize profile.takeLabel tokens = parts
  have unlabelled :
      (ofStatement profile current parts.statement).effects.filterMap Effect.label? = [] := by
    apply List.filterMap_eq_nil_iff.mpr
    intro effect member
    cases effect with
    | bind name => exact absurd member (bind_not_mem_ofStatement profile current _ name)
    | _ => rfl
  rw [List.filterMap_append, unlabelled, List.append_nil]
  cases parts.label <;> rfl

end Reading

/-! ## Outlines of the lines that are read -/

namespace Outline

/-- The actions of a program that is not abandoned are those of its lines down to its
end, each read while some section is open. -/
theorem ofBody_scanned (profile : Profile) (origin : Address) (required : List OpeningLine)
    (current : Option Section) (lines : List SourceLine)
    (kept : (ofBody profile origin required current lines).ending ≠ .abandoned) :
    ∃ readings : List (SourceLine × Option Section),
      readings.map Prod.fst = SourceLine.throughEnd profile lines ∧
      (ofBody profile origin required current lines).actions = readings.flatMap fun entry =>
        (Reading.ofTokens profile entry.2 entry.1.tokens).effects.map (Action.mk entry.1) := by
  induction lines generalizing required current with
  | nil => exact ⟨[], rfl, rfl⟩
  | cons line lines induction =>
      rw [ofBody] at kept ⊢
      cases met : unmet? required line with
      | some opening =>
          rw [met] at kept
          exact absurd rfl kept
      | none =>
          rw [met] at kept
          have complete := Reading.ofTokens_complete profile current line.tokens
          cases reading : Reading.ofTokens profile current line.tokens with
          | mk effects flow =>
              rw [reading] at complete
              simp only [reading] at kept ⊢
              cases complete with
              | finish effects ordered ends =>
                  refine ⟨[(line, current)], ?_, ?_⟩
                  · rw [SourceLine.throughEnd_cons_of_ends ends]
                    rfl
                  · simp [reading]
              | abandon effects problem ordered reported => exact absurd rfl kept
              | proceed effects ordered continues =>
                  rcases induction _ _ kept with ⟨readings, scanned, actions⟩
                  refine ⟨(line, current) :: readings, ?_, ?_⟩
                  · rw [SourceLine.throughEnd_cons_of_continues continues, List.map_cons, scanned]
                  · simp [reading, actions]

/-- The same for a whole program, of which the first line that matters is not one of
those lines. -/
theorem ofLines_scanned {options : Options} {lines : List SourceLine} {start : Address}
    (accepted : (ofLines options lines).origin = some start)
    (kept : (ofLines options lines).ending ≠ .abandoned) :
    ∃ (first : SourceLine) (readings : List (SourceLine × Option Section)),
      Scan.readOrigin first.tokens = .ok start ∧
      (SourceLine.throughEnd options.profile lines).filter SourceLine.isSignificant =
        first :: readings.map Prod.fst ∧
      (ofLines options lines).actions = readings.flatMap fun entry =>
        (Reading.ofTokens options.profile entry.2 entry.1.tokens).effects.map
          (Action.mk entry.1) := by
  rw [SourceLine.throughEnd_filter]
  unfold ofLines at accepted kept ⊢
  cases significant : lines.filter SourceLine.isSignificant with
  | nil =>
      rw [significant] at accepted
      cases accepted
  | cons first rest =>
      simp only [significant] at accepted kept ⊢
      cases read : Scan.readOrigin first.tokens with
      | error problem =>
          rw [read] at accepted
          cases accepted
      | ok origin =>
          simp only [read] at accepted kept ⊢
          rw [ofBody_origin] at accepted
          cases accepted
          have continues := SourceLine.not_endsProgram_of_origin options.profile read
          rcases ofBody_scanned _ _ _ _ _ kept with ⟨readings, scanned, actions⟩
          refine ⟨first, readings, read, ?_, actions⟩
          rw [SourceLine.throughEnd_cons_of_continues continues, scanned]

end Outline

/-! ## Lines of an assembled program -/

theorem Statement.encode_of_unknown {profile : Profile} {mnemonic : String}
    (unknown : profile.isMnemonic mnemonic = false) (operands : List String) (labels : Labels)
    (pc : Nat) :
    (Statement.instruction mnemonic operands).encode profile labels pc =
      .error (.unknownMnemonic mnemonic) := by
  cases profile with
  | baseline =>
      have absent : Baseline.mnemonics.lookup mnemonic = none := by
        simpa [Profile.isMnemonic] using unknown
      simp only [encode, Profile.encode, Baseline.parse, absent]
      rfl
  | compact =>
      have absent : Compact.mnemonics.lookup mnemonic = none := by
        simpa [Profile.isMnemonic] using unknown
      simp only [encode, Profile.encode, Compact.parse, absent]
      rfl

theorem Run.label_of_clean {options : Options} {source : String} {start : Address}
    (accepted : (ofSource options source).scan.origin = some start)
    (clean : ∀ diagnostic ∈ (ofSource options source).diagnostics, diagnostic.isError = false)
    {line : SourceLine} {current : Option Section}
    (carried : ∀ effect ∈ (Reading.ofTokens options.profile current line.tokens).effects,
      ⟨line, effect⟩ ∈ (Outline.ofSource options source).actions) :
    (options.profile.takeLabel line.tokens).label = line.label? options.profile := by
  rcases options.profile.takeLabel_cases line.tokens with same | ⟨name, operands, parts, defines⟩
  · exact same
  · exfalso
    have done : ∀ effect ∈ (Reading.ofInstruction current name operands).effects,
        ⟨line, effect⟩ ∈ (Outline.ofSource options source).actions := by
      rw [← Reading.ofStatement_of_mayDefine defines current operands, ← parts]
      exact fun effect member => carried effect (List.mem_append_right _ member)
    unfold Reading.ofInstruction at done
    split at done
    · cases clean _ (report_mem_diagnostics (done _ (List.mem_singleton_self _)))
    · rcases placement_of_action (done _ (List.mem_singleton_self _)) with
        ⟨placement, placed, -, statement⟩
      rcases encoded_of_clean accepted clean placed with ⟨encoding, encoded, -⟩
      have unknown : options.profile.isMnemonic name = false := by
        simp only [Profile.mayDefine, Bool.and_eq_true, Bool.not_eq_true'] at defines
        exact defines.2
      rw [Placement.encode, statement, Statement.encode_of_unknown unknown] at encoded
      cases encoded

/-! ## The table along the actions -/

structure SymbolTable.Lawful (table : SymbolTable) (profile : Profile) : Prop where
  distinct : (table.definitions.map Definition.name).Nodup
  allowed : ∀ definition ∈ table.definitions,
    isLabelName definition.name = true ∧ profile.isRegister definition.name = false

theorem SymbolTable.Lawful.bind {table bound : SymbolTable} {profile : Profile} {name : String}
    {offset : Nat} (lawful : table.Lawful profile)
    (binds : table.bind profile name offset = .ok bound) : bound.Lawful profile := by
  rcases SymbolTable.bind_eq_ok binds with ⟨definitions, label, register, absent⟩
  constructor
  · have new : name ∉ table.definitions.map Definition.name := by
      intro member
      rcases List.mem_map.mp member with ⟨definition, present, same⟩
      simp only [offset?, Option.map_eq_none_iff, List.find?_eq_none] at absent
      exact absent definition present (by simp [same])
    rw [definitions, List.map_append]
    exact List.nodup_append.mpr ⟨lawful.distinct, List.nodup_singleton name, by
      rintro other member same single rfl
      rw [List.mem_singleton.mp single] at member
      exact new member⟩
  · intro definition member
    rw [definitions] at member
    rcases List.mem_append.mp member with earlier | last
    · exact lawful.allowed definition earlier
    · rw [List.mem_singleton.mp last]
      exact ⟨label, register⟩

theorem Position.after_lawful {profile : Profile} {position : Position}
    (lawful : position.symbols.Lawful profile) (effect : Effect) :
    (position.after profile effect).symbols.Lawful profile := by
  cases effect with
  | bind name =>
      rw [after]
      split
      · rename_i symbols binds
        exact lawful.bind binds
      · exact lawful
  | place statement => exact lawful
  | enter next => exact lawful
  | report problem => exact lawful

theorem Position.afterAll_lawful {profile : Profile} {position : Position}
    (lawful : position.symbols.Lawful profile) (actions : List Action) :
    (position.afterAll profile actions).symbols.Lawful profile := by
  induction actions generalizing position with
  | nil => exact lawful
  | cons action actions induction => exact induction (after_lawful lawful action.effect)

def LocatedAction.definition? (located : LocatedAction) : Option Definition :=
  located.action.effect.label?.map fun name => ⟨name, located.position.offset⟩

theorem Position.afterAll_definitions {profile : Profile} {position : Position}
    {actions : List Action}
    (bound : ∀ located ∈ layout profile position actions, ∀ name,
      located.action.effect.label? = some name →
        ∃ symbols, located.position.symbols.bind profile name located.position.offset =
          .ok symbols) :
    (position.afterAll profile actions).symbols.definitions =
      position.symbols.definitions ++
        (layout profile position actions).filterMap LocatedAction.definition? := by
  induction actions generalizing position with
  | nil => exact (List.append_nil _).symm
  | cons action actions induction =>
      have rest := induction fun located member =>
        bound located (List.mem_cons_of_mem _ member)
      have here : (position.after profile action.effect).symbols.definitions =
          position.symbols.definitions ++
            (LocatedAction.definition? ⟨position, action⟩).toList := by
        have allowed := bound ⟨position, action⟩ List.mem_cons_self
        rcases action with ⟨line, effect⟩
        cases effect with
        | bind name =>
            rcases allowed name rfl with ⟨symbols, binds⟩
            simp only at binds
            simp only [after, binds]
            exact (SymbolTable.bind_eq_ok binds).1
        | place statement => exact (List.append_nil _).symm
        | enter next => exact (List.append_nil _).symm
        | report problem => exact (List.append_nil _).symm
      rw [layout, filterMap_cons_toList, ← List.append_assoc, ← here]
      exact rest

/-- The offset of a label is the number of cells that lines above it have placed. -/
theorem offset_eq_countP {profile : Profile} {actions : List Action} (labels : Labels)
    (ordered : actions.Pairwise Action.Before) {located : LocatedAction} {name : String}
    (member : located ∈ layout profile {} actions)
    (binds : located.action.effect.label? = some name) :
    located.position.offset =
      ((placements profile {} actions).flatMap (·.cells profile labels)).countP fun cell =>
        decide (cell.line.number < located.action.line.number) := by
  have placed {position : Position} {some : List Action} {cell : Cell}
      (own : cell ∈ (placements profile position some).flatMap (·.cells profile labels)) :
      ∃ statement, ⟨cell.line, .place statement⟩ ∈ some := by
    rcases List.mem_flatMap.mp own with ⟨placement, present, cellMember⟩
    rcases List.mem_map.mp cellMember with ⟨value, -, rfl⟩
    exact ⟨placement.statement, action_of_placement present⟩
  rcases layout_split member with ⟨before, after, rfl, place⟩
  rcases located with ⟨position, line, effect⟩
  cases effect with
  | bind label =>
      have across := (List.pairwise_append.mp ordered).2.2
      have later := (List.pairwise_cons.mp (List.pairwise_append.mp ordered).2.1).1
      rw [placements_append, placements_cons, List.flatMap_append, List.countP_append,
        List.countP_eq_length.mpr, List.countP_eq_zero.mpr]
      · simp only at place
        rw [place, Position.afterAll_offset profile labels, Nat.add_comm]
      · intro cell own below
        rcases placed own with ⟨statement, present⟩
        have lower : cell.line.number < line.number := of_decide_eq_true below
        rcases later _ present with above | ⟨same, -⟩
        · exact Nat.lt_asymm above lower
        · have aligned : line = cell.line := same
          rw [aligned] at lower
          exact Nat.lt_irrefl _ lower
      · intro cell own
        rcases placed own with ⟨statement, present⟩
        rcases across _ present _ List.mem_cons_self with above | ⟨-, other, places⟩
        · exact decide_eq_true above
        · cases places
  | _ => cases binds

/-! ## The table of an assembled program -/

namespace Run

variable {options : Options} {source : String} {start : Address}

theorem bind_of_clean
    (clean : ∀ diagnostic ∈ (ofSource options source).diagnostics, diagnostic.isError = false)
    {located : LocatedAction} {name : String}
    (member : located ∈ (Outline.ofSource options source).located options.profile)
    (binds : located.action.effect.label? = some name) :
    ∃ symbols, located.position.symbols.bind options.profile name located.position.offset =
      .ok symbols := by
  cases refused :
      located.position.symbols.bind options.profile name located.position.offset with
  | ok symbols => exact ⟨symbols, rfl⟩
  | error problem =>
      exfalso
      have said : located.remark? options.profile
          (·.promptError? options.profile (ofSource options source).scan.labels) =
            some (.errorAt located.action.line problem) := by
        rcases located with ⟨position, line, effect⟩
        cases effect with
        | bind label =>
            cases binds
            simp only at refused
            simp only [LocatedAction.remark?, refused]
        | _ => cases binds
      cases clean _ (remark_mem_diagnostics member said)

theorem symbols_lawful (options : Options) (source : String) :
    (ofSource options source).scan.symbols.Lawful options.profile := by
  have initial : (({} : Position).symbols).Lawful options.profile := ⟨List.nodup_nil, nofun⟩
  rw [symbols_eq]
  exact Position.afterAll_lawful initial _

def wordsAbove (run : Run) (line : SourceLine) : Nat :=
  run.image.cells.toList.countP fun cell => decide (cell.line.number < line.number)

theorem wordsAbove_le_of_above (run : Run) {upper lower : SourceLine}
    (above : upper.Above lower) : run.wordsAbove upper ≤ run.wordsAbove lower := by
  apply List.countP_mono_left
  intro cell _ higher
  exact decide_eq_true (Nat.lt_trans (of_decide_eq_true higher) above)

theorem definitions_of_clean
    (clean : ∀ diagnostic ∈ (ofSource options source).diagnostics, diagnostic.isError = false) :
    (ofSource options source).scan.symbols.definitions =
      (Outline.ofSource options source).actions.filterMap fun action =>
        action.effect.label?.map fun name =>
          ⟨name, (ofSource options source).wordsAbove action.line⟩ := by
  have ordered := Outline.ofSource_ordered options source
  rw [symbols_eq, Outline.symbols, Position.afterAll_definitions fun located member name =>
    bind_of_clean clean member, List.nil_append]
  conv_rhs => rw [← layout_actions options.profile {} (Outline.ofSource options source).actions]
  rw [List.filterMap_map]
  apply List.filterMap_congr
  intro located member
  cases binds : located.action.effect.label? with
  | none => simp [LocatedAction.definition?, binds]
  | some name =>
      have place : located.position.offset =
          (ofSource options source).wordsAbove located.action.line := by
        rw [wordsAbove, image_cells]
        exact offset_eq_countP _ ordered member binds
      simp [LocatedAction.definition?, binds, place]

theorem definitions_eq_labels
    (accepted : (ofSource options source).scan.origin = some start)
    (clean : ∀ diagnostic ∈ (ofSource options source).diagnostics, diagnostic.isError = false) :
    (ofSource options source).scan.symbols.definitions =
      (SourceLine.throughEnd options.profile (SourceLine.ofText source)).filterMap fun line =>
        (line.label? options.profile).map fun name =>
          ⟨name, (ofSource options source).wordsAbove line⟩ := by
  have kept : (Outline.ofSource options source).ending ≠ .abandoned := by
    intro abandoned
    rcases ending_of_clean clean with ending | ending <;> cases abandoned.symm.trans ending
  rcases Outline.ofLines_scanned ((origin_eq options source).symm.trans accepted) kept with
    ⟨first, readings, read, scanned, actions⟩
  have actions : (Outline.ofSource options source).actions = _ := actions
  rw [definitions_of_clean clean]
  generalize (ofSource options source).wordsAbove = above
  let definition (line : SourceLine) : Option Definition :=
    (line.label? options.profile).map fun name => ⟨name, above line⟩
  have significant :
      (SourceLine.throughEnd options.profile (SourceLine.ofText source)).filterMap definition =
        (first :: readings.map Prod.fst).filterMap definition := by
    rw [← scanned, List.filterMap_filter]
    apply List.filterMap_congr
    intro line _
    split
    · rfl
    · rename_i blank
      simp [definition, SourceLine.label?_of_blank options.profile blank]
  have opening : definition first = none := by
    simp [definition, SourceLine.label?_of_origin options.profile read]
  rw [significant, List.filterMap_cons_none opening, actions, List.filterMap_flatMap,
    List.filterMap_map, List.filterMap_eq_flatMap_toList]
  apply List.flatMap_congr
  rintro ⟨line, current⟩ member
  have carried : ∀ effect ∈ (Reading.ofTokens options.profile current line.tokens).effects,
      ⟨line, effect⟩ ∈ (Outline.ofSource options source).actions := by
    intro effect listed
    rw [actions]
    exact List.mem_flatMap.mpr ⟨(line, current), member, List.mem_map_of_mem listed⟩
  have labels := Reading.ofTokens_labels options.profile current line.tokens
  rw [label_of_clean accepted clean carried] at labels
  rw [List.filterMap_map, Function.comp_apply]
  have mapped := congrArg (List.map fun name => Definition.mk name (above line)) labels
  rw [List.map_filterMap] at mapped
  refine mapped.trans ?_
  cases found : line.label? options.profile <;> simp [definition, found]

end Run

/-! ## Reading the table -/

theorem lookup_eq_some_iff_mem [BEq α] [LawfulBEq α] {entries : List (α × β)}
    (distinct : (entries.map Prod.fst).Nodup) (key : α) (value : β) :
    entries.lookup key = some value ↔ (key, value) ∈ entries := by
  rw [List.lookup_eq_some_iff]
  constructor
  · rintro ⟨before, after, split, -⟩
    rw [split]
    exact List.mem_append_right before List.mem_cons_self
  · intro member
    rcases List.append_of_mem member with ⟨before, after, split⟩
    refine ⟨before, after, split, fun other earlier => ?_⟩
    rw [split, List.map_append, List.nodup_append] at distinct
    have apart := distinct.2.2 other.1 (List.mem_map_of_mem earlier) key
      (List.mem_map_of_mem List.mem_cons_self)
    exact bne_iff_ne.mpr apart.symm

theorem SymbolValues.get?_eq_some_iff {values : SymbolValues}
    (distinct : (values.entries.map Prod.fst).Nodup) (name : String) (value : Nat) :
    values.get? name = some value ↔ (name, value) ∈ values.entries :=
  lookup_eq_some_iff_mem distinct name value

namespace Run

variable {options : Options} {source : String} {assembly : Assembly}
  (done : (ofSource options source).result = .ok assembly)
include done

theorem entries_of_ok :
    assembly.symbols.entries =
      (SourceLine.throughEnd options.profile (SourceLine.ofText source)).filterMap fun line =>
        (line.label? options.profile).map fun name =>
          (name, assembly.start.toNat + (ofSource options source).wordsAbove line) := by
  have clean := ((result_eq_ok_iff _ assembly).mp done).1
  rw [definitions_of_ok done, definitions_eq_labels (start_of_ok done) clean,
    List.map_filterMap]
  simp only [Option.map_map]
  rfl

theorem label_of_entry {entry : String × Nat} (member : entry ∈ assembly.symbols.entries) :
    ∃ line, line.label? options.profile = some entry.1 ∧
      entry.2 = assembly.start.toNat + (ofSource options source).wordsAbove line := by
  rw [entries_of_ok done] at member
  rcases List.mem_filterMap.mp member with ⟨line, -, found⟩
  rcases Option.map_eq_some_iff.mp found with ⟨name, label, rfl⟩
  exact ⟨line, label, rfl⟩

theorem names_of_ok :
    assembly.symbols.entries.map Prod.fst =
      (ofSource options source).scan.symbols.definitions.map Definition.name := by
  rw [definitions_of_ok done]
  simp

theorem spelling_of_entry {entry : String × Nat} (member : entry ∈ assembly.symbols.entries) :
    NameSpelling entry.1.toList ∧ options.profile.isMnemonic entry.1 = false ∧
      options.profile.isRegister entry.1 = false ∧
      ∃ problem, Numeral.parse entry.1 = .error problem := by
  have named := List.mem_map_of_mem (f := Prod.fst) member
  rw [names_of_ok done] at named
  rcases List.mem_map.mp named with ⟨definition, present, same⟩
  have allowed := (symbols_lawful options source).allowed definition present
  rw [same] at allowed
  rcases spelling_of_isLabelName allowed.1 with ⟨spelling, label⟩
  rcases label_of_entry done member with ⟨line, found, -⟩
  exact ⟨spelling, SourceLine.not_mnemonic_of_label? found, allowed.2, _,
    Numeral.parse_of_label label⟩

theorem values_sorted : (assembly.symbols.entries.map Prod.snd).Pairwise (· ≤ ·) := by
  rw [entries_of_ok done, List.pairwise_map, List.pairwise_filterMap]
  have above := (SourceLine.ofText_above source).sublist
    (SourceLine.throughEnd_sublist options.profile (SourceLine.ofText source))
  refine above.imp fun {upper lower} above => ?_
  intro first upperLabel second lowerLabel
  rcases Option.map_eq_some_iff.mp upperLabel with ⟨_, -, rfl⟩
  rcases Option.map_eq_some_iff.mp lowerLabel with ⟨_, -, rfl⟩
  exact Nat.add_le_add_left (wordsAbove_le_of_above _ above) _

end Run

/-- The symbols of an assembled program are the labels of the lines that were read, in
their order. Each is spelled like no mnemonic, register or number, and stands for the
address of the word after those that the lines above it have placed. -/
theorem symbols_eq_labels (options : Options) (source : String) (assembly : Assembly)
    (done : assemble options source = .ok assembly) :
    let profile := options.profile
    let run := Run.ofSource options source
    let entries := assembly.symbols.entries
    entries =
      (SourceLine.throughEnd profile (SourceLine.ofText source)).filterMap (fun line =>
        (line.label? profile).map fun name =>
          (name, assembly.start.toNat + run.wordsAbove line)) ∧
    (entries.map Prod.fst).Nodup ∧
    (∀ entry ∈ entries, NameSpelling entry.1.toList ∧ profile.isMnemonic entry.1 = false ∧
      profile.isRegister entry.1 = false ∧ ∃ problem, Numeral.parse entry.1 = .error problem) ∧
    (entries.map Prod.snd).Pairwise (· ≤ ·) ∧
    (∀ entry ∈ entries, entry.2 ≤ assembly.start.toNat + assembly.binary.words.length) ∧
    (∀ name value, assembly.symbols.get? name = some value ↔ (name, value) ∈ entries) ∧
    ∀ name, name ∉ entries.map Prod.fst → assembly.symbols.get? name = none := by
  intro profile run entries
  have distinct : (entries.map Prod.fst).Nodup := by
    rw [Run.names_of_ok done]
    exact (Run.symbols_lawful options source).distinct
  have found := SymbolValues.get?_eq_some_iff distinct
  refine ⟨Run.entries_of_ok done, distinct, fun entry => Run.spelling_of_entry done,
    Run.values_sorted done, ?_, found, ?_⟩
  · intro entry member
    rcases Run.label_of_entry done member with ⟨line, -, value⟩
    rw [Run.words_of_ok done, List.length_map, value]
    exact Nat.add_le_add_left List.countP_le_length _
  · intro name absent
    apply Option.eq_none_iff_forall_ne_some.mpr
    intro value known
    exact absent (List.mem_map_of_mem ((found name value).mp known))

/-- Labels stand before an instruction, alone, before data and before the end. There is
no eighth low register, so its name is free to be a label. -/
theorem symbols_of_four_labels :
    let source := ".orig x3000\nface ld r0, r8\nalone\nr8 .blkw 2\nlast .end\nlost halt"
    ∃ assembly, assemble {} source = .ok assembly ∧
      assembly.symbols.entries =
        [("face", 0x3000), ("alone", 0x3001), ("r8", 0x3001), ("last", 0x3003)] ∧
      assembly.symbols.get? "last" = some 0x3003 ∧ assembly.symbols.get? "lost" = none := by
  intro source
  have known : ((assemble {} source).toOption.map fun assembly => assembly.symbols.entries) =
      some [("face", 0x3000), ("alone", 0x3001), ("r8", 0x3001), ("last", 0x3003)] := by
    decide +kernel
  cases done : assemble {} source with
  | error failure =>
      rw [done] at known
      cases known
  | ok assembly =>
      rw [done] at known
      have entries : assembly.symbols.entries =
          [("face", 0x3000), ("alone", 0x3001), ("r8", 0x3001), ("last", 0x3003)] :=
        Option.some.inj known
      rcases symbols_eq_labels {} source assembly done with ⟨-, -, -, -, -, get, none⟩
      refine ⟨assembly, rfl, entries, ?_, ?_⟩
      · rw [get, entries]
        decide
      · apply none
        rw [entries]
        decide

end TwoPass
