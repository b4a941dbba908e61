import TwoPass.Proofs.Reports
import TwoPass.Proofs.SourceOrder

/-! # The outcome of an assembly

A program is assembled as a whole or not at all. Whatever leaves a word without its
value also leaves an error behind, and nothing but a missing end is worth a warning. -/

namespace TwoPass

/-! ## The end of a program -/

theorem SourceLine.not_endsProgram_of_blank {line : SourceLine} (profile : Profile)
    (blank : ¬ line.isSignificant) : ¬ line.EndsProgram profile := by
  rw [EndsProgram, tokens_of_blank blank]
  intro ends
  cases ends

theorem SourceLine.not_endsProgram_of_origin {line : SourceLine} {origin : Address}
    (profile : Profile) (read : Scan.readOrigin line.tokens = .ok origin) :
    ¬ line.EndsProgram profile := by
  rcases Scan.tokens_of_readOrigin read with ⟨start, tokens⟩
  have plain : profile.mayDefine ".orig" = false := by cases profile <;> decide
  rw [EndsProgram, tokens, Profile.takeLabel, plain]
  simp

namespace Outline

theorem Follows.exhausted_iff {profile : Profile} {origin : Address} {lines : List SourceLine}
    {outline : Outline} (follows : Follows profile origin lines outline)
    (kept : outline.ending ≠ .abandoned) :
    (∃ stage, outline.ending = .exhausted stage) ↔
      ∀ line ∈ lines, ¬ line.EndsProgram profile := by
  induction follows with
  | exhausted required => simp
  | finished line lines effects _ ends => simp [ends]
  | abandoned line lines effects problem _ _ => exact absurd rfl kept
  | proceeds line lines effects rest _ continues _ induction =>
      have later := induction kept
      simpa [continues] using later

theorem Follows.report_of_abandoned {profile : Profile} {origin : Address}
    {lines : List SourceLine} {outline : Outline} (follows : Follows profile origin lines outline)
    (ending : outline.ending = .abandoned) :
    ∃ line problem, ⟨line, .report problem⟩ ∈ outline.actions := by
  induction follows with
  | exhausted required => cases ending
  | finished line lines effects _ _ => cases ending
  | abandoned line lines effects problem _ reported =>
      exact ⟨line, problem, List.mem_map_of_mem reported⟩
  | proceeds line lines effects rest _ _ _ induction =>
      rcases induction ending with ⟨other, problem, member⟩
      exact ⟨other, problem, List.mem_append_right _ member⟩

variable {options : Options} {lines : List SourceLine}

theorem report_of_abandoned (ending : (ofLines options lines).ending = .abandoned) :
    ∃ line problem, ⟨line, .report problem⟩ ∈ (ofLines options lines).actions := by
  have opens := ofLines_opens options lines
  generalize ofLines options lines = outline at opens ending ⊢
  cases opens with
  | blank => cases ending
  | refused line problem => exact ⟨line, problem, List.mem_singleton_self _⟩
  | opened _ _ _ outline _ _ follows => exact follows.report_of_abandoned ending

theorem ending_of_no_origin (missing : (ofLines options lines).origin = none) :
    (ofLines options lines).ending = .abandoned ∨
      (ofLines options lines).ending = .exhausted .origin := by
  have opens := ofLines_opens options lines
  generalize ofLines options lines = outline at opens missing ⊢
  cases opens with
  | blank => exact .inr rfl
  | refused line problem => exact .inl rfl
  | opened _ _ origin outline _ _ follows => cases follows.origin_eq.symm.trans missing

theorem ofLines_exhausted_iff {start : Address}
    (accepted : (ofLines options lines).origin = some start)
    (kept : (ofLines options lines).ending ≠ .abandoned) :
    (∃ stage, (ofLines options lines).ending = .exhausted stage) ↔
      ∀ line ∈ lines, ¬ line.EndsProgram options.profile := by
  have opens := ofLines_opens options lines
  generalize ofLines options lines = outline at opens accepted kept ⊢
  cases opens with
  | blank => cases accepted
  | refused line problem => cases accepted
  | opened first rest origin outline significant read follows =>
      rw [follows.exhausted_iff kept]
      constructor
      · intro others line member
        by_cases matters : line.isSignificant
        · have listed : line ∈ first :: rest := by
            rw [← significant]
            exact List.mem_filter.mpr ⟨member, matters⟩
          rcases List.mem_cons.mp listed with rfl | later
          · exact SourceLine.not_endsProgram_of_origin options.profile read
          · exact others line later
        · exact SourceLine.not_endsProgram_of_blank options.profile matters
      · intro all line later
        have listed : line ∈ lines.filter SourceLine.isSignificant := by
          rw [significant]
          exact List.mem_cons_of_mem first later
        exact all line (List.mem_filter.mp listed).1

end Outline

/-! ## Errors -/

theorem Placement.error_eq_errorAt {placement : Placement} {profile : Profile} {labels : Labels}
    {diagnostic : Diagnostic} (wrong : placement.error? profile labels = some diagnostic) :
    ∃ problem, diagnostic = .errorAt placement.line problem := by
  unfold error? at wrong
  split at wrong
  · cases wrong
  · rename_i problem _
    exact ⟨problem, (Option.some.inj wrong).symm⟩

theorem LocatedAction.remark_eq_errorAt {located : LocatedAction} {profile : Profile}
    {labels : Labels} {diagnostic : Diagnostic}
    (said : located.remark? profile (·.promptError? profile labels) = some diagnostic) :
    ∃ problem, diagnostic = .errorAt located.action.line problem := by
  rcases located with ⟨position, line, effect⟩
  cases effect with
  | bind name =>
      simp only [remark?] at said
      split at said
      · cases said
      · rename_i problem _
        exact ⟨problem, (Option.some.inj said).symm⟩
  | place statement =>
      simp only [remark?, Placement.promptError?] at said
      split at said
      · cases said
      · exact Placement.error_eq_errorAt said
  | enter next => cases said
  | report problem => exact ⟨problem, (Option.some.inj said).symm⟩

theorem eq_nil_of_clean {diagnostics : List Diagnostic}
    (errors : ∀ diagnostic ∈ diagnostics, diagnostic.isError = true)
    (clean : ∀ diagnostic ∈ diagnostics, diagnostic.isError = false) : diagnostics = [] := by
  apply List.eq_nil_iff_forall_not_mem.mpr
  intro diagnostic member
  cases (errors diagnostic member).symm.trans (clean diagnostic member)

namespace Run

variable {options : Options} {source : String}

theorem report_mem_diagnostics {line : SourceLine} {problem : Problem}
    (member : ⟨line, .report problem⟩ ∈ (Outline.ofSource options source).actions) :
    .errorAt line problem ∈ (ofSource options source).diagnostics := by
  rw [← layout_actions options.profile {} (Outline.ofSource options source).actions] at member
  rcases List.mem_map.mp member with ⟨located, locatedMember, action⟩
  apply remark_mem_diagnostics locatedMember
  simp only [LocatedAction.remark?, action]

theorem ending_mem_diagnostics {diagnostic : Diagnostic}
    (member : diagnostic ∈ (Outline.ofSource options source).ending.diagnostics) :
    diagnostic ∈ (ofSource options source).diagnostics := by
  rw [diagnostics, scan_diagnostics]
  apply List.mem_append_left
  apply List.mem_append_left
  exact List.mem_append_right _ member

theorem error_of_no_origin (missing : (ofSource options source).scan.origin = none) :
    ∃ diagnostic ∈ (ofSource options source).diagnostics, diagnostic.isError = true := by
  rw [origin_eq] at missing
  rcases Outline.ending_of_no_origin missing with abandoned | exhausted
  · rcases Outline.report_of_abandoned abandoned with ⟨line, problem, member⟩
    exact ⟨_, report_mem_diagnostics member, rfl⟩
  · have ending : (Outline.ofSource options source).ending = .exhausted .origin := exhausted
    refine ⟨.programError .emptySource, ending_mem_diagnostics ?_, rfl⟩
    rw [ending]
    exact List.mem_singleton_self _

theorem diagnostics_of_clean
    (clean : ∀ diagnostic ∈ (ofSource options source).diagnostics, diagnostic.isError = false) :
    (ofSource options source).diagnostics =
      (Outline.ofSource options source).ending.diagnostics := by
  have noEmission : (ofSource options source).emissionDiagnostics = [] := by
    apply eq_nil_of_clean
    · intro diagnostic reported
      rcases emission_cases reported with ⟨start, length, rfl⟩ | ⟨cell, value, -, rfl⟩ <;> rfl
    · intro diagnostic reported
      exact clean diagnostic (List.mem_append_right _ reported)
  rw [diagnostics, scan_diagnostics, resolution_diagnostics, noEmission, List.append_nil] at clean ⊢
  have noErrors : (((Outline.ofSource options source).placements options.profile).filter
      (·.deferred options.profile)).filterMap
        (·.error? options.profile (ofSource options source).scan.labels) = [] := by
    apply eq_nil_of_clean
    · intro diagnostic reported
      rcases List.mem_filterMap.mp reported with ⟨placement, -, wrong⟩
      rcases Placement.error_eq_errorAt wrong with ⟨problem, rfl⟩
      rfl
    · intro diagnostic reported
      exact clean diagnostic (List.mem_append_right _ reported)
  have noRemarks : ((Outline.ofSource options source).located options.profile).filterMap
      (·.remark? options.profile
        (·.promptError? options.profile (ofSource options source).scan.labels)) = [] := by
    apply eq_nil_of_clean
    · intro diagnostic reported
      rcases List.mem_filterMap.mp reported with ⟨located, -, said⟩
      rcases LocatedAction.remark_eq_errorAt said with ⟨problem, rfl⟩
      rfl
    · intro diagnostic reported
      exact clean diagnostic (List.mem_append_left _ (List.mem_append_left _ reported))
  rw [noErrors, noRemarks, List.append_nil, List.nil_append]

theorem tooLarge_mem_diagnostics {run : Run} {start : Address}
    (accepted : run.scan.origin = some start) (nonempty : 0 < run.image.size)
    (beyond : 65536 < start.toNat + run.image.size) :
    .programError (.programTooLarge start run.image.size) ∈ run.diagnostics := by
  have last : start.offset? (run.image.size - 1) = none := by
    rw [Address.offset?, Address.ofNat?, dif_neg (by omega)]
  have found : .programError (.programTooLarge start run.image.size) ∈
      run.image.diagnostics start := by
    apply List.mem_append_left
    rw [if_pos ⟨nonempty, by rw [last]; rfl⟩]
    exact List.mem_singleton_self _
  rw [diagnostics, emissionDiagnostics, accepted]
  exact List.mem_append_right _ found

theorem room_of_clean {run : Run} {start : Address} (accepted : run.scan.origin = some start)
    (clean : ∀ diagnostic ∈ run.diagnostics, diagnostic.isError = false) :
    run.image.size = 0 ∨ start.toNat + run.image.size ≤ 65536 := by
  by_cases nonempty : 0 < run.image.size
  · right
    apply Nat.le_of_not_lt
    intro beyond
    cases clean _ (tooLarge_mem_diagnostics accepted nonempty beyond)
  · exact .inl (Nat.eq_zero_of_not_pos nonempty)

theorem cell_of_encoded {cell : Cell}
    (encoded : ∀ placement ∈ (Outline.ofSource options source).placements options.profile,
      ∃ encoding,
        placement.encode options.profile (ofSource options source).scan.labels = .ok encoding ∧
        ∀ value ∈ encoding.words, value ≤ 0xFFFF)
    (member : cell ∈ (ofSource options source).image.cells.toList) :
    ∃ value, cell.value = some value ∧ value ≤ 0xFFFF := by
  rw [image_cells] at member
  rcases List.mem_flatMap.mp member with ⟨placement, placed, own⟩
  rcases encoded placement placed with ⟨encoding, encoded, fits⟩
  rw [Placement.cells, Placement.values, encoded] at own
  rcases List.mem_map.mp own with ⟨content, held, rfl⟩
  rcases List.mem_map.mp held with ⟨value, valueMember, rfl⟩
  exact ⟨value, rfl, fits value valueMember⟩

theorem cell_of_clean {start : Address} {cell : Cell}
    (accepted : (ofSource options source).scan.origin = some start)
    (clean : ∀ diagnostic ∈ (ofSource options source).diagnostics, diagnostic.isError = false)
    (member : cell ∈ (ofSource options source).image.cells.toList) :
    ∃ value, cell.value = some value ∧ value ≤ 0xFFFF :=
  cell_of_encoded (fun _ => encoded_of_clean accepted clean) member

/-- A program without errors ends where it says so, or its lines run out after those
that are required. -/
theorem ending_of_clean
    (clean : ∀ diagnostic ∈ (ofSource options source).diagnostics, diagnostic.isError = false) :
    (Outline.ofSource options source).ending = .finished ∨
      (Outline.ofSource options source).ending = .exhausted (.body []) := by
  cases ending : (Outline.ofSource options source).ending with
  | finished => exact .inl rfl
  | abandoned =>
      rcases Outline.report_of_abandoned ending with ⟨line, problem, member⟩
      cases clean _ (report_mem_diagnostics member)
  | exhausted stage =>
      have said : Scan.exhausted stage ∈ (ofSource options source).diagnostics := by
        apply ending_mem_diagnostics
        rw [ending]
        exact List.mem_singleton_self _
      have harmless := clean _ said
      cases stage with
      | origin => cases harmless
      | body required =>
          cases required with
          | nil => exact .inr rfl
          | cons opening others => cases harmless

theorem warnings_of_clean
    (clean : ∀ diagnostic ∈ (ofSource options source).diagnostics, diagnostic.isError = false) :
    ((ofSource options source).diagnostics = [] ∨
      (ofSource options source).diagnostics = [.programWarning .missingEnd]) ∧
    ((ofSource options source).diagnostics = [.programWarning .missingEnd] ↔
      ∃ stage, (Outline.ofSource options source).ending = .exhausted stage) := by
  rw [diagnostics_of_clean clean]
  rcases ending_of_clean clean with ending | ending
  · rw [ending]
    simp [Ending.diagnostics]
  · rw [ending]
    simp [Ending.diagnostics, Scan.exhausted]

theorem result_ok_iff_clean :
    (∃ assembly, (ofSource options source).result = .ok assembly) ↔
      ∀ diagnostic ∈ (ofSource options source).diagnostics, diagnostic.isError = false := by
  constructor
  · rintro ⟨assembly, done⟩
    exact ((result_eq_ok_iff _ assembly).mp done).1
  · intro clean
    cases origin : (ofSource options source).scan.origin with
    | none =>
        rcases error_of_no_origin origin with ⟨diagnostic, member, wrong⟩
        cases wrong.symm.trans (clean diagnostic member)
    | some start =>
        exact ⟨_, (result_eq_ok_iff _ _).mpr ⟨clean, start, origin, rfl⟩⟩

theorem error_of_failure {failure : Failure}
    (failed : (ofSource options source).result = .error failure) :
    (∃ diagnostic ∈ failure.diagnostics, diagnostic.isError = true) ∧
      (failure.image = none ↔ (ofSource options source).scan.origin = none) := by
  rcases (result_eq_error_iff _ failure).mp failed with ⟨missing | wrong, rfl⟩
  · exact ⟨error_of_no_origin missing, Option.map_eq_none_iff⟩
  · exact ⟨wrong, Option.map_eq_none_iff⟩

theorem emit_length (run : Run) : (run.image.emit.map (·.word)).length = run.image.size := by
  rw [List.length_map, Image.emit, List.length_map, Array.length_toList, Image.size]

end Run

theorem Diagnostic.isError_iff (diagnostic : Diagnostic) :
    diagnostic.isError = true ↔ diagnostic.severity = .error :=
  beq_iff_eq

theorem Diagnostic.isError_eq_false_iff (diagnostic : Diagnostic) :
    diagnostic.isError = false ↔ diagnostic.severity ≠ .error :=
  beq_eq_false_iff_ne

/-- A program is assembled if nothing in it is an error. Then all of it is there, fits in
memory and is said to lack its end if it does; else an error is reported. -/
theorem assembled_whole_or_not_at_all (options : Options) (source : String) :
    let run := Run.ofSource options source
    let outline := Outline.ofSource options source
    ((∃ assembly, assemble options source = .ok assembly) ↔
      ∀ diagnostic ∈ run.diagnostics, diagnostic.severity ≠ .error) ∧
    (∀ assembly, assemble options source = .ok assembly →
      run.scan.origin = some assembly.start ∧
      (assembly.binary.words = [] ∨
        assembly.start.toNat + assembly.binary.words.length ≤ 65536) ∧
      (∀ cell ∈ run.image.cells.toList, ∃ value, cell.value = some value ∧ value ≤ 0xFFFF) ∧
      (assembly.warnings = [] ∨ assembly.warnings = [.programWarning .missingEnd]) ∧
      (assembly.warnings = [.programWarning .missingEnd] ↔
        ∃ stage, outline.ending = .exhausted stage) ∧
      ((∃ stage, outline.ending = .exhausted stage) ↔
        ∀ line ∈ SourceLine.ofText source, ¬ line.EndsProgram options.profile)) ∧
    ∀ failure, assemble options source = .error failure →
      (∃ diagnostic ∈ failure.diagnostics, diagnostic.severity = .error) ∧
      (failure.image = none ↔ run.scan.origin = none) := by
  intro run outline
  simp only [← Diagnostic.isError_iff, ← Diagnostic.isError_eq_false_iff]
  refine ⟨Run.result_ok_iff_clean, ?_, fun failure => Run.error_of_failure⟩
  intro assembly done
  rcases (run.result_eq_ok_iff assembly).mp done with ⟨clean, start, accepted, rfl⟩
  rcases Run.warnings_of_clean clean with ⟨few, missing⟩
  refine ⟨accepted, ?_, fun cell => Run.cell_of_clean accepted clean, few, missing, ?_⟩
  · rw [Assembly.binary, ← List.length_eq_zero_iff, run.emit_length]
    exact Run.room_of_clean accepted clean
  · apply Outline.ofLines_exhausted_iff ((Run.origin_eq options source).symm.trans accepted)
    intro abandoned
    rcases Run.ending_of_clean clean with ending | ending <;> cases abandoned.symm.trans ending

/-- The first program lacks its end and fills memory to the last word. The second has no
origin. -/
theorem outcomes_without_end_and_origin :
    let endless := ".orig xFFFF\nlast halt"
    let lost := "last halt\n.end"
    (∃ assembly, assemble {} endless = .ok assembly ∧
      assembly.warnings = [.programWarning .missingEnd] ∧
      (assembly.binary.words = [] ∨
        assembly.start.toNat + assembly.binary.words.length ≤ 65536)) ∧
    ∃ failure, assemble {} lost = .error failure ∧
      (∃ diagnostic ∈ failure.diagnostics, diagnostic.severity = .error) ∧
      failure.image = none := by
  intro endless lost
  constructor
  · have clean : ∀ diagnostic ∈ (Run.ofSource {} endless).diagnostics,
        diagnostic.severity ≠ .error := by
      decide +kernel
    have ending : (Outline.ofSource {} endless).ending = .exhausted (.body []) := by
      decide +kernel
    rcases assembled_whole_or_not_at_all {} endless with ⟨succeeds, whole, -⟩
    rcases succeeds.mpr clean with ⟨assembly, done⟩
    rcases whole assembly done with ⟨-, room, -, -, missing, -⟩
    exact ⟨assembly, done, missing.mpr ⟨.body [], ending⟩, room⟩
  · have missing : (Run.ofSource {} lost).scan.origin = none := by decide +kernel
    have fails : (assemble {} lost).isOk = false := by decide +kernel
    rcases assembled_whole_or_not_at_all {} lost with ⟨-, -, reported⟩
    cases failed : assemble {} lost with
    | ok assembly =>
        rw [failed] at fails
        cases fails
    | error failure =>
        rcases reported failure failed with ⟨wrong, imageless⟩
        exact ⟨failure, rfl, wrong, imageless.mpr missing⟩

end TwoPass
