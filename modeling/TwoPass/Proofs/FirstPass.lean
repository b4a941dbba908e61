import TwoPass.Proofs.Layout

/-! # What the first pass leaves

Each action adds to the cells, the fixups and the diagnostics, and moves the
position on. A whole program adds what its actions add, each at its own place. -/

namespace TwoPass

def Ending.diagnostics : Ending → List Diagnostic
  | .finished | .abandoned => []
  | .exhausted stage => [Scan.exhausted stage]

namespace Scan

def position (scan : Scan) : Position :=
  ⟨scan.image.size, scan.symbols⟩

/-! ## One action -/

theorem defineLabel_eq_bind (scan : Scan) (profile : Profile) (line : SourceLine)
    (name : String) :
    scan.defineLabel profile line name =
      match scan.symbols.bind profile name scan.image.size with
      | .ok symbols => { scan with symbols }
      | .error problem => scan.report line problem := by
  unfold defineLabel SymbolTable.bind
  split
  · cases scan.symbols.define? name scan.image.size <;> rfl
  · rfl

theorem place_eq_add (scan : Scan) (profile : Profile) (line : SourceLine)
    (statement : Statement) :
    let placement : Placement := ⟨scan.position, line, statement⟩
    scan.place profile statement.cellKind line statement =
      { scan with
        image := ⟨scan.image.cells ++ placement.cells profile (placement.known scan.start)⟩
        fixups := scan.fixups ++ if placement.deferred profile then [placement.fixup] else []
        diagnostics := scan.diagnostics ++
          (placement.error? profile (placement.known scan.start)).toList } := by
  intro placement
  have here : placement.encode profile (placement.known scan.start) =
      statement.encode profile ⟨scan.symbols, scan.start, .first⟩ scan.image.size := rfl
  simp only [place, Placement.cells, Placement.values, Placement.error?, here]
  cases encoded :
      statement.encode profile ⟨scan.symbols, scan.start, .first⟩ scan.image.size with
  | ok encoding =>
      have deferral : encoding.deferred = placement.deferred profile :=
        Statement.encode_first_deferred encoded
      have length : encoding.words.length = statement.size := Statement.encode_length encoded
      dsimp only
      rw [deferral]
      cases placement.deferred profile <;>
        simp [Image.push, length, Placement.fixup, placement, position]
  | error problem =>
      have prompt : placement.deferred profile = false := by
        apply Bool.eq_false_iff.mpr
        intro waiting
        rcases Statement.encode_of_awaits scan.start scan.image.size waiting with ⟨words, first⟩
        cases encoded.symm.trans first
      rw [prompt]
      simp [Image.push, report, placement]

theorem perform_origin (profile : Profile) (scan : Scan) (action : Action) :
    (scan.perform profile action).origin = scan.origin := by
  rcases action with ⟨line, effect⟩
  cases effect with
  | bind name =>
      simp only [perform, defineLabel_eq_bind]
      cases scan.symbols.bind profile name scan.image.size <;> rfl
  | place statement => simp only [perform, place_eq_add]
  | enter next => rfl
  | report problem => rfl

theorem perform_position (profile : Profile) (scan : Scan) (action : Action) :
    (scan.perform profile action).position = scan.position.after profile action.effect := by
  rcases action with ⟨line, effect⟩
  cases effect with
  | bind name =>
      simp only [perform, defineLabel_eq_bind, Position.after, position]
      cases scan.symbols.bind profile name scan.image.size <;> rfl
  | place statement =>
      simp only [perform, place_eq_add, position, Position.after, Image.size,
        ← Array.length_toList, Array.toList_appendList, List.length_append,
        Placement.cells_length]
  | enter next => rfl
  | report problem => rfl

theorem perform_cells (profile : Profile) (scan : Scan) (action : Action) :
    (scan.perform profile action).image.cells.toList =
      scan.image.cells.toList ++
        (LocatedAction.placement? ⟨scan.position, action⟩).toList.flatMap fun placement =>
          placement.cells profile (placement.known scan.start) := by
  rcases action with ⟨line, effect⟩
  cases effect with
  | bind name =>
      simp only [perform, defineLabel_eq_bind, LocatedAction.placement?]
      cases scan.symbols.bind profile name scan.image.size <;> simp [report]
  | place statement => simp [perform, place_eq_add, LocatedAction.placement?]
  | enter next => simp [perform, LocatedAction.placement?]
  | report problem => simp [perform, report, LocatedAction.placement?]

theorem perform_fixups (profile : Profile) (scan : Scan) (action : Action) :
    (scan.perform profile action).fixups =
      scan.fixups ++
        ((LocatedAction.placement? ⟨scan.position, action⟩).toList.filter
          (·.deferred profile)).map Placement.fixup := by
  rcases action with ⟨line, effect⟩
  cases effect with
  | bind name =>
      simp only [perform, defineLabel_eq_bind, LocatedAction.placement?]
      cases scan.symbols.bind profile name scan.image.size <;> simp [report]
  | place statement =>
      simp only [perform, place_eq_add, LocatedAction.placement?, Option.toList_some]
      cases waiting : Placement.deferred ⟨scan.position, line, statement⟩ profile <;>
        simp [waiting]
  | enter next => simp [perform, LocatedAction.placement?]
  | report problem => simp [perform, report, LocatedAction.placement?]

theorem perform_diagnostics (profile : Profile) (scan : Scan) (action : Action) :
    (scan.perform profile action).diagnostics =
      scan.diagnostics ++
        (LocatedAction.remark? ⟨scan.position, action⟩ profile
          (·.firstError? profile scan.start)).toList := by
  rcases action with ⟨line, effect⟩
  cases effect with
  | bind name =>
      simp only [perform, defineLabel_eq_bind, LocatedAction.remark?, position]
      cases scan.symbols.bind profile name scan.image.size <;> simp [report]
  | place statement =>
      simp only [perform, place_eq_add, LocatedAction.remark?, Placement.firstError?]
  | enter next => simp [perform, LocatedAction.remark?]
  | report problem => simp [perform, report, LocatedAction.remark?]

theorem perform_start (profile : Profile) (scan : Scan) (action : Action) :
    (scan.perform profile action).start = scan.start := by
  rw [start, perform_origin, start]

/-! ## A whole program

Every field is followed along the actions. The labels known to a statement and its
place are those that `layout` computes, because `position` keeps in step with it. -/

theorem performAll_origin (profile : Profile) (scan : Scan) (actions : List Action) :
    (scan.performAll profile actions).origin = scan.origin := by
  induction actions generalizing scan with
  | nil => rfl
  | cons action actions induction =>
      exact (induction (scan.perform profile action)).trans (scan.perform_origin profile action)

theorem performAll_position (profile : Profile) (scan : Scan) (actions : List Action) :
    (scan.performAll profile actions).position = scan.position.afterAll profile actions := by
  induction actions generalizing scan with
  | nil => rfl
  | cons action actions induction =>
      have rest := induction (scan.perform profile action)
      rw [perform_position] at rest
      exact rest

theorem performAll_cells (profile : Profile) (scan : Scan) (actions : List Action) :
    (scan.performAll profile actions).image.cells.toList =
      scan.image.cells.toList ++
        (placements profile scan.position actions).flatMap fun placement =>
          placement.cells profile (placement.known scan.start) := by
  induction actions generalizing scan with
  | nil => exact (List.append_nil _).symm
  | cons action actions induction =>
      have rest := induction (scan.perform profile action)
      rw [perform_cells, perform_position, perform_start, List.append_assoc,
        ← List.flatMap_append] at rest
      rw [placements_cons]
      exact rest

theorem performAll_fixups (profile : Profile) (scan : Scan) (actions : List Action) :
    (scan.performAll profile actions).fixups =
      scan.fixups ++
        ((placements profile scan.position actions).filter (·.deferred profile)).map
          Placement.fixup := by
  induction actions generalizing scan with
  | nil => exact (List.append_nil _).symm
  | cons action actions induction =>
      have rest := induction (scan.perform profile action)
      rw [perform_fixups, perform_position, List.append_assoc, ← List.map_append,
        ← List.filter_append] at rest
      rw [placements_cons]
      exact rest

theorem performAll_diagnostics (profile : Profile) (scan : Scan) (actions : List Action) :
    (scan.performAll profile actions).diagnostics =
      scan.diagnostics ++
        (layout profile scan.position actions).filterMap
          (·.remark? profile (·.firstError? profile scan.start)) := by
  induction actions generalizing scan with
  | nil => exact (List.append_nil _).symm
  | cons action actions induction =>
      have rest := induction (scan.perform profile action)
      rw [perform_diagnostics, perform_position, perform_start, List.append_assoc] at rest
      rw [layout, filterMap_cons_toList]
      exact rest

/-! ## The end of reading -/

theorem close_eq (scan : Scan) (ending : Ending) :
    scan.close ending = { scan with diagnostics := scan.diagnostics ++ ending.diagnostics } := by
  cases ending <;> simp [close, Ending.diagnostics]

variable (options : Options) (lines : List SourceLine)

theorem ofLines_origin :
    (ofLines options lines).origin = (Outline.ofLines options lines).origin := by
  rw [ofLines_eq_performAll, close_eq]
  exact performAll_origin _ _ _

theorem ofLines_symbols :
    (ofLines options lines).symbols = (Outline.ofLines options lines).symbols options.profile := by
  rw [ofLines_eq_performAll, close_eq]
  exact congrArg Position.symbols (performAll_position _ _ _)

theorem ofLines_cells :
    (ofLines options lines).image.cells.toList =
      ((Outline.ofLines options lines).placements options.profile).flatMap fun placement =>
        placement.cells options.profile (placement.known (ofLines options lines).start) := by
  have cells := performAll_cells options.profile
    { origin := (Outline.ofLines options lines).origin }
    (Outline.ofLines options lines).actions
  rw [start, ofLines_origin]
  rw [ofLines_eq_performAll, close_eq]
  exact cells

theorem ofLines_fixups :
    (ofLines options lines).fixups =
      (((Outline.ofLines options lines).placements options.profile).filter
        (·.deferred options.profile)).map Placement.fixup := by
  rw [ofLines_eq_performAll, close_eq]
  exact performAll_fixups _ _ _

theorem ofLines_diagnostics :
    (ofLines options lines).diagnostics =
      ((Outline.ofLines options lines).located options.profile).filterMap
          (·.remark? options.profile
            (·.firstError? options.profile (ofLines options lines).start)) ++
        (Outline.ofLines options lines).ending.diagnostics := by
  have diagnostics := performAll_diagnostics options.profile
    { origin := (Outline.ofLines options lines).origin } (Outline.ofLines options lines).actions
  rw [start, ofLines_origin]
  rw [ofLines_eq_performAll, close_eq]
  exact congrArg (· ++ _) diagnostics

end Scan

end TwoPass
