import TwoPass.Proofs.SecondPass

/-! # What a run reports

The diagnostics of a run are those of the first pass, those of the deferred
statements, and those of the finished image. Nothing that is wrong with a
statement or a cell is missing from them. -/

namespace TwoPass

/-- The binary that an assembly yields, which on failure is the image of what could
be encoded. -/
def outputBinary : Except Failure Assembly → Option Binary
  | .ok assembly => some assembly.binary
  | .error failure => failure.image

def outputDiagnostics : Except Failure Assembly → List Diagnostic
  | .ok assembly => assembly.warnings
  | .error failure => failure.diagnostics

theorem Image.map_word_emit (image : Image) :
    image.emit.map (·.word) = image.cells.toList.map Cell.word := by
  rw [emit, List.map_map]
  apply List.map_congr_left
  intro cell _
  simp only [Function.comp_apply]
  cases cell.kind <;> rfl

namespace Run

theorem any_isError_eq_false_iff (diagnostics : List Diagnostic) :
    diagnostics.any Diagnostic.isError = false ↔
      ∀ diagnostic ∈ diagnostics, diagnostic.isError = false := by
  simp

theorem result_eq_ok_iff (run : Run) (assembly : Assembly) :
    run.result = .ok assembly ↔
      (∀ diagnostic ∈ run.diagnostics, diagnostic.isError = false) ∧
      ∃ start, run.scan.origin = some start ∧
        assembly =
          { start, emitted := run.image.emit
            symbols := SymbolValues.ofTable start run.scan.symbols
            warnings := run.diagnostics } := by
  rw [← any_isError_eq_false_iff]
  simp only [result]
  cases run.scan.origin with
  | none => simp
  | some start =>
      cases run.diagnostics.any Diagnostic.isError with
      | true => simp
      | false =>
          constructor
          · intro built
            exact ⟨rfl, start, rfl, (Except.ok.inj built).symm⟩
          · rintro ⟨-, _, ⟨⟩, rfl⟩
            rfl

theorem result_eq_error_iff (run : Run) (failure : Failure) :
    run.result = .error failure ↔
      (run.scan.origin = none ∨ ∃ diagnostic ∈ run.diagnostics, diagnostic.isError) ∧
      failure =
        ⟨run.diagnostics,
          run.scan.origin.map fun start => ⟨start, run.image.emit.map (·.word)⟩⟩ := by
  rw [← List.any_eq_true]
  simp only [result]
  cases run.scan.origin with
  | none =>
      constructor
      · intro built
        exact ⟨.inl rfl, (Except.error.inj built).symm⟩
      · rintro ⟨-, rfl⟩
        rfl
  | some start =>
      cases run.diagnostics.any Diagnostic.isError with
      | true =>
          constructor
          · intro built
            exact ⟨.inr rfl, (Except.error.inj built).symm⟩
          · rintro ⟨-, rfl⟩
            rfl
      | false => simp

theorem outputDiagnostics_result (run : Run) :
    outputDiagnostics run.result = run.diagnostics := by
  cases outcome : run.result with
  | ok assembly =>
      rcases (run.result_eq_ok_iff assembly).mp outcome with ⟨-, start, -, rfl⟩
      rfl
  | error failure =>
      rcases (run.result_eq_error_iff failure).mp outcome with ⟨-, rfl⟩
      rfl

theorem outputBinary_result (run : Run) :
    outputBinary run.result =
      run.scan.origin.map fun start => ⟨start, run.image.emit.map (·.word)⟩ := by
  cases outcome : run.result with
  | ok assembly =>
      rcases (run.result_eq_ok_iff assembly).mp outcome with ⟨-, start, origin, rfl⟩
      rw [origin]
      rfl
  | error failure =>
      rcases (run.result_eq_error_iff failure).mp outcome with ⟨-, rfl⟩
      rfl

theorem emission_cases {run : Run} {diagnostic : Diagnostic}
    (reported : diagnostic ∈ run.emissionDiagnostics) :
    (∃ start length, diagnostic = .programError (.programTooLarge start length)) ∨
      ∃ cell value, cell ∈ run.image.cells.toList ∧
        diagnostic = .errorAt cell.line (.valueTooLarge value) := by
  unfold emissionDiagnostics at reported
  cases origin : run.scan.origin with
  | none =>
      rw [origin] at reported
      cases reported
  | some start =>
      rw [origin] at reported
      rcases List.mem_append.mp reported with tooLarge | oversized
      · split at tooLarge
        · exact .inl ⟨start, _, List.mem_singleton.mp tooLarge⟩
        · cases tooLarge
      · rcases List.mem_filterMap.mp oversized with ⟨cell, member, found⟩
        rcases Option.map_eq_some_iff.mp found with ⟨value, -, rfl⟩
        exact .inr ⟨cell, value, member, rfl⟩

/-! ## What is wrong is reported -/

variable {options : Options} {source : String}

theorem remark_mem_diagnostics {located : LocatedAction} {diagnostic : Diagnostic}
    (member : located ∈ (Outline.ofSource options source).located options.profile)
    (said : located.remark? options.profile
      (·.promptError? options.profile (ofSource options source).scan.labels) = some diagnostic) :
    diagnostic ∈ (ofSource options source).diagnostics := by
  rw [diagnostics, scan_diagnostics]
  apply List.mem_append_left
  apply List.mem_append_left
  apply List.mem_append_left
  exact List.mem_filterMap.mpr ⟨located, member, said⟩

theorem error_mem_diagnostics {placement : Placement} {diagnostic : Diagnostic}
    (member : placement ∈ (Outline.ofSource options source).placements options.profile)
    (wrong : placement.error? options.profile (ofSource options source).scan.labels =
      some diagnostic) :
    diagnostic ∈ (ofSource options source).diagnostics := by
  cases waiting : placement.deferred options.profile with
  | true =>
      rw [diagnostics, resolution_diagnostics]
      apply List.mem_append_left
      apply List.mem_append_right
      exact List.mem_filterMap.mpr ⟨placement, List.mem_filter.mpr ⟨member, waiting⟩, wrong⟩
  | false =>
      rcases List.mem_filterMap.mp member with ⟨located, locatedMember, places⟩
      have prompt : located.remark? options.profile
          (·.promptError? options.profile (ofSource options source).scan.labels) =
            some diagnostic := by
        rw [LocatedAction.remark?_of_placement places]
        simpa [Placement.promptError?, waiting] using wrong
      exact remark_mem_diagnostics locatedMember prompt

theorem oversized_mem_diagnostics {run : Run} {start : Address} {cell : Cell} {value : Nat}
    (origin : run.scan.origin = some start) (member : cell ∈ run.image.cells.toList)
    (oversized : cell.oversized? = some value) :
    .errorAt cell.line (.valueTooLarge value) ∈ run.diagnostics := by
  have found : Diagnostic.errorAt cell.line (.valueTooLarge value) ∈
      run.image.diagnostics start := by
    apply List.mem_append_right
    exact List.mem_filterMap.mpr ⟨cell, member, by rw [oversized]; rfl⟩
  rw [diagnostics, emissionDiagnostics, origin]
  exact List.mem_append_right _ found

theorem encoded_of_clean {start : Address} {placement : Placement}
    (origin : (ofSource options source).scan.origin = some start)
    (clean : ∀ diagnostic ∈ (ofSource options source).diagnostics, diagnostic.isError = false)
    (member : placement ∈ (Outline.ofSource options source).placements options.profile) :
    ∃ encoding,
      placement.encode options.profile (ofSource options source).scan.labels = .ok encoding ∧
      ∀ value ∈ encoding.words, value ≤ 0xFFFF := by
  cases encoded : placement.encode options.profile (ofSource options source).scan.labels with
  | error problem =>
      have wrong : placement.error? options.profile (ofSource options source).scan.labels =
          some (.errorAt placement.line problem) := by
        rw [Placement.error?, encoded]
      cases clean _ (error_mem_diagnostics member wrong)
  | ok encoding =>
      refine ⟨encoding, rfl, fun value valueMember => ?_⟩
      let cell : Cell := ⟨some value, placement.statement.cellKind, placement.line⟩
      have cellMember : cell ∈ (ofSource options source).image.cells.toList := by
        rw [image_cells]
        refine List.mem_flatMap.mpr ⟨placement, member, ?_⟩
        rw [Placement.cells, Placement.values, encoded]
        exact List.mem_map.mpr ⟨some value, List.mem_map.mpr ⟨value, valueMember, rfl⟩, rfl⟩
      apply Nat.le_of_not_lt
      intro large
      have oversized : cell.oversized? = some value := by
        simp only [Cell.oversized?, cell, Option.filter_some]
        exact if_pos (decide_eq_true large)
      cases clean _ (oversized_mem_diagnostics origin cellMember oversized)

end Run

end TwoPass
