import Mathlib.Data.List.Nodup
import TwoPass.Proofs.Reports
import TwoPass.Proofs.SourceOrder
import TwoPass.Proofs.StatementProblems

/-! # Errors of encoding

A statement that is encoded in both passes could be reported twice, or not at all
if either pass left it to the other. It is reported once, with the problem that
encoding it with every label bound has. -/

namespace TwoPass

namespace Placement

def blamedBy (placement : Placement) (diagnostic : Diagnostic) : Bool :=
  diagnostic.location == .line placement.line && diagnostic.problem.blamesStatement

variable {placement other : Placement} {profile : Profile} {labels : Labels}
  {statements : List Placement} {diagnostic : Diagnostic}

theorem blamedBy_of_error (wrong : placement.error? profile labels = some diagnostic) :
    other.blamedBy diagnostic = decide (placement.line = other.line) := by
  unfold error? at wrong
  cases encoded : placement.encode profile labels with
  | ok encoding =>
      rw [encoded] at wrong
      cases wrong
  | error problem =>
      rw [encoded] at wrong
      cases wrong
      have blames : problem.blamesStatement = true :=
        Statement.encode_blames profile labels placement.position.offset _ problem encoded
      simp only [blamedBy, Diagnostic.errorAt, blames, Bool.and_true, beq_eq_decide,
        Location.line.injEq]

theorem filter_errors_of_elsewhere (profile : Profile) (labels : Labels)
    (elsewhere : ∀ other ∈ statements, other.line ≠ placement.line) :
    (statements.filterMap (·.error? profile labels)).filter placement.blamedBy = [] := by
  apply List.filter_eq_nil_iff.mpr
  intro diagnostic reported
  rcases List.mem_filterMap.mp reported with ⟨other, member, wrong⟩
  simp [blamedBy_of_error wrong, elsewhere other member]

theorem filter_errors_of_mem (profile : Profile) (labels : Labels)
    (above : statements.Pairwise fun first second => first.line.Above second.line)
    (member : placement ∈ statements) :
    (statements.filterMap (·.error? profile labels)).filter placement.blamedBy =
      (placement.error? profile labels).toList := by
  rcases List.append_of_mem member with ⟨before, after, rfl⟩
  rcases List.pairwise_append.mp above with ⟨-, rest, across⟩
  have beforeElsewhere : ∀ other ∈ before, other.line ≠ placement.line :=
    fun other otherMember => (across other otherMember placement List.mem_cons_self).ne
  have afterElsewhere : ∀ other ∈ after, other.line ≠ placement.line :=
    fun other otherMember => ((List.pairwise_cons.mp rest).1 other otherMember).ne.symm
  have own : (placement.error? profile labels).toList.filter placement.blamedBy =
      (placement.error? profile labels).toList := by
    apply List.filter_eq_self.mpr
    intro diagnostic reported
    rw [blamedBy_of_error (Option.mem_toList.mp reported)]
    exact decide_eq_true rfl
  rw [List.filterMap_append, filterMap_cons_toList, List.filter_append, List.filter_append,
    filter_errors_of_elsewhere profile labels beforeElsewhere,
    filter_errors_of_elsewhere profile labels afterElsewhere, own,
    List.nil_append, List.append_nil]

theorem filter_errors_of_filter (profile : Profile) (labels : Labels)
    (above : statements.Pairwise fun first second => first.line.Above second.line)
    (member : placement ∈ statements) (keep : Placement → Bool) :
    ((statements.filter keep).filterMap (·.error? profile labels)).filter placement.blamedBy =
      if keep placement then (placement.error? profile labels).toList else [] := by
  cases kept : keep placement with
  | true =>
      exact filter_errors_of_mem profile labels (above.filter keep)
        (List.mem_filter.mpr ⟨member, kept⟩)
  | false =>
      apply filter_errors_of_elsewhere
      intro other otherMember aligned
      rcases List.mem_filter.mp otherMember with ⟨otherMember, otherKept⟩
      have apart : (statements.map Placement.line).Nodup := by
        apply List.pairwise_map.mpr
        exact above.imp SourceLine.Above.ne
      rw [List.inj_on_of_nodup_map apart otherMember member aligned, kept] at otherKept
      cases otherKept

theorem error?_of_promptError? (wrong : placement.promptError? profile labels = some diagnostic) :
    placement.error? profile labels = some diagnostic := by
  unfold promptError? at wrong
  split at wrong
  · cases wrong
  · exact wrong

theorem filterMap_promptError? (profile : Profile) (labels : Labels)
    (statements : List Placement) :
    statements.filterMap (·.promptError? profile labels) =
      (statements.filter (!·.deferred profile)).filterMap (·.error? profile labels) := by
  rw [List.filterMap_filter]
  apply List.filterMap_congr
  intro placement _
  unfold promptError?
  cases placement.deferred profile <;> rfl

end Placement

/-! ## The first pass -/

theorem SymbolTable.bind_error {table : SymbolTable} {profile : Profile} {name : String}
    {offset : Nat} {problem : Problem} (failed : table.bind profile name offset = .error problem) :
    problem.blamesStatement = false := by
  unfold bind at failed
  split at failed
  · cases defined : table.define? name offset with
    | some bound => simp [defined] at failed
    | none =>
        simp only [defined, Except.error.injEq] at failed
        rw [← failed]
        rfl
  · cases failed
    rfl

namespace Outline

variable {outline : Outline} {profile : Profile} {labels : Labels}

theorem report_line_ne (ordered : outline.actions.Pairwise Action.Before)
    {position : Position} {line : SourceLine} {problem : Problem} {other : LocatedAction}
    {placement : Placement} (member : ⟨position, line, .report problem⟩ ∈ outline.located profile)
    (otherMember : other ∈ outline.located profile)
    (places : other.placement? = some placement) : line ≠ placement.line := by
  rcases other with ⟨otherPosition, otherLine, effect⟩
  cases effect with
  | place statement =>
      cases places
      intro aligned
      rcases located_apart ordered member otherMember (by simp) aligned with
        ⟨name, binds⟩ | ⟨name, binds⟩ <;> cases binds
  | _ => cases places

theorem filter_remark (ordered : outline.actions.Pairwise Action.Before)
    {located : LocatedAction} (member : located ∈ outline.located profile) :
    (located.remark? profile (·.promptError? profile labels)).filter
        (fun diagnostic => (outline.placements profile).any (·.blamedBy diagnostic)) =
      located.placement?.bind (·.promptError? profile labels) := by
  rcases located with ⟨position, line, effect⟩
  cases effect with
  | bind name =>
      simp only [LocatedAction.remark?, LocatedAction.placement?, Option.bind_none]
      cases bound : position.symbols.bind profile name position.offset with
      | ok symbols => rfl
      | error problem =>
          have innocent : problem.blamesStatement = false :=
            SymbolTable.bind_error bound
          simp [Option.filter_some, Placement.blamedBy, Diagnostic.errorAt, innocent]
  | place statement =>
      have placed : (⟨position, line, statement⟩ : Placement) ∈ outline.placements profile :=
        mem_placements_of_located member rfl
      simp only [LocatedAction.remark?, LocatedAction.placement?, Option.bind_some]
      cases wrong : Placement.promptError? ⟨position, line, statement⟩ profile labels with
      | none => rfl
      | some diagnostic =>
          have blamed : (outline.placements profile).any (·.blamedBy diagnostic) = true := by
            refine List.any_eq_true.mpr ⟨_, placed, ?_⟩
            rw [Placement.blamedBy_of_error (Placement.error?_of_promptError? wrong)]
            exact decide_eq_true rfl
          rw [Option.filter_some, blamed]
          rfl
  | enter next => rfl
  | report problem =>
      simp only [LocatedAction.remark?, LocatedAction.placement?, Option.bind_none]
      -- The problem may be of a kind that encoding has too, but no statement is on its line.
      have innocent : (outline.placements profile).any
          (·.blamedBy (.errorAt line problem)) = false := by
        apply List.any_eq_false.mpr
        intro placement placed blamed
        rcases List.mem_filterMap.mp placed with ⟨other, otherMember, places⟩
        have aligned : line = placement.line := by
          simp only [Placement.blamedBy, Diagnostic.errorAt, Bool.and_eq_true, beq_iff_eq,
            Location.line.injEq] at blamed
          exact blamed.1
        exact absurd aligned (report_line_ne ordered member otherMember places)
      rw [Option.filter_some, innocent]
      rfl

theorem filter_remarks (ordered : outline.actions.Pairwise Action.Before) :
    ((outline.located profile).filterMap
        (·.remark? profile (·.promptError? profile labels))).filter
          (fun diagnostic => (outline.placements profile).any (·.blamedBy diagnostic)) =
      ((outline.placements profile).filter (!·.deferred profile)).filterMap
        (·.error? profile labels) := by
  have prompt : ((outline.located profile).filterMap
      (·.remark? profile (·.promptError? profile labels))).filter
        (fun diagnostic => (outline.placements profile).any (·.blamedBy diagnostic)) =
      (outline.placements profile).filterMap (·.promptError? profile labels) := by
    rw [List.filter_filterMap, placements, TwoPass.placements, List.filterMap_filterMap]
    apply List.filterMap_congr
    intro located member
    exact filter_remark ordered member
  rw [prompt, Placement.filterMap_promptError?]

theorem filter_ending (ending : Ending) (statements : List Placement) :
    ending.diagnostics.filter (fun diagnostic => statements.any (·.blamedBy diagnostic)) = [] := by
  apply List.filter_eq_nil_iff.mpr
  intro diagnostic reported
  have afar : diagnostic.location = .program := by
    cases ending with
    | finished => cases reported
    | abandoned => cases reported
    | exhausted stage =>
        rw [List.mem_singleton.mp reported]
        rcases stage with _ | _ | _ <;> rfl
  simp [Placement.blamedBy, afar]

end Outline

/-! ## A whole run -/

namespace Run

theorem emission_innocent {run : Run} {diagnostic : Diagnostic}
    (reported : diagnostic ∈ run.emissionDiagnostics) :
    diagnostic.problem.blamesStatement = false := by
  rcases emission_cases reported with ⟨start, length, rfl⟩ | ⟨cell, value, -, rfl⟩ <;> rfl

variable (options : Options) (source : String)

theorem filter_scan_diagnostics :
    (ofSource options source).scan.diagnostics.filter (fun diagnostic =>
        ((Outline.ofSource options source).placements options.profile).any
          (·.blamedBy diagnostic)) =
      (((Outline.ofSource options source).placements options.profile).filter
        (!·.deferred options.profile)).filterMap
          (·.error? options.profile (ofSource options source).scan.labels) := by
  rw [scan_diagnostics, List.filter_append, Outline.filter_ending, List.append_nil]
  exact Outline.filter_remarks (Outline.ofSource_ordered options source)

theorem diagnostics_eq :
    (ofSource options source).diagnostics =
      (ofSource options source).scan.diagnostics ++
        (((Outline.ofSource options source).placements options.profile).filter
          (·.deferred options.profile)).filterMap
            (·.error? options.profile (ofSource options source).scan.labels) ++
        (ofSource options source).emissionDiagnostics := by
  rw [diagnostics, resolution_diagnostics]

variable {options source}

/-- Either pass reports the error of a statement, and the other one does not. -/
theorem filter_diagnostics {placement : Placement}
    (member : placement ∈ (Outline.ofSource options source).placements options.profile) :
    (ofSource options source).diagnostics.filter placement.blamedBy =
      (placement.error? options.profile (ofSource options source).scan.labels).toList := by
  have above := Outline.placements_above (Outline.ofSource_ordered options source) options.profile
  have fromScan : (ofSource options source).scan.diagnostics.filter placement.blamedBy =
      ((ofSource options source).scan.diagnostics.filter fun diagnostic =>
        ((Outline.ofSource options source).placements options.profile).any
          (·.blamedBy diagnostic)).filter placement.blamedBy := by
    rw [List.filter_filter]
    apply List.filter_congr
    intro diagnostic _
    cases blamed : placement.blamedBy diagnostic with
    | false => rfl
    | true => exact (List.any_eq_true.mpr ⟨placement, member, blamed⟩).symm
  have fromEmission : (ofSource options source).emissionDiagnostics.filter placement.blamedBy =
      [] := by
    apply List.filter_eq_nil_iff.mpr
    intro diagnostic reported
    simp [Placement.blamedBy, emission_innocent reported]
  rw [diagnostics_eq, List.filter_append, List.filter_append, fromScan, fromEmission,
    filter_scan_diagnostics, Placement.filter_errors_of_filter _ _ above member,
    Placement.filter_errors_of_filter _ _ above member]
  cases placement.deferred options.profile <;> simp

end Run

theorem Placement.error?_of_unbound {placement : Placement} {profile : Profile} {draft : Draft}
    {labels : Labels} {name : String} (read : placement.statement.draft profile = .ok draft)
    (labelled : draft.label? = some name)
    (unknown : labels.offset name = .error (.unknownLabel name)) :
    placement.error? profile labels = some (.errorAt placement.line (.unknownLabel name)) := by
  have failed : placement.encode profile labels = .error (.unknownLabel name) := by
    rw [encode, Statement.encode_eq_draft, read, ok_bind,
      Draft.resolve_of_unknown placement.position.offset labelled unknown]
    rfl
  rw [error?, failed]

/-- Each statement that cannot be encoded with every label bound is reported once, on
its own line, and no other statement is: in source order during the first pass, and
after everything that pass has to say for the statements that it defers. -/
theorem encoding_errors_reported_once (options : Options) (source : String) (start : Address)
    (accepted : (Run.ofSource options source).scan.origin = some start) :
    let scan := (Run.ofSource options source).scan
    let labels : Labels := ⟨scan.symbols, start, .second⟩
    let placements := (Outline.ofSource options source).placements options.profile
    let deferred := placements.filter (·.deferred options.profile)
    let prompt := placements.filter (!·.deferred options.profile)
    let reported := outputDiagnostics (assemble options source)
    (∀ placement ∈ placements,
      reported.filter placement.blamedBy =
        match placement.encode options.profile labels with
        | .ok _ => []
        | .error problem => [.errorAt placement.line problem]) ∧
    (placements.Pairwise fun first second => first.line.number < second.line.number) ∧
    scan.fixups = deferred.map Placement.fixup ∧
    (scan.diagnostics.filter fun diagnostic => placements.any (·.blamedBy diagnostic)) =
      prompt.filterMap (·.error? options.profile labels) ∧
    (∃ later, reported =
        scan.diagnostics ++ deferred.filterMap (·.error? options.profile labels) ++ later ∧
      ∀ diagnostic ∈ later, diagnostic.problem.blamesStatement = false) ∧
    ∀ placement ∈ placements, ∀ draft name,
      placement.statement.draft options.profile = .ok draft → draft.label? = some name →
        scan.symbols.offset? name = none →
          reported.filter placement.blamedBy =
            [.errorAt placement.line (.unknownLabel name)] := by
  intro scan labels placements deferred prompt reported
  have complete : scan.labels = labels := Scan.labels_eq accepted
  have everything : reported = (Run.ofSource options source).diagnostics :=
    Run.outputDiagnostics_result _
  rw [← complete, everything]
  refine ⟨?_, ?_, ?_, ?_, ?_, ?_⟩
  · intro placement member
    rw [Run.filter_diagnostics member, Placement.error?]
    cases placement.encode options.profile scan.labels <;> rfl
  · exact Outline.placements_above (Outline.ofSource_ordered options source) options.profile
  · exact Run.fixups_eq options source
  · exact Run.filter_scan_diagnostics options source
  · exact ⟨_, Run.diagnostics_eq options source, fun _ => Run.emission_innocent⟩
  · intro placement member draft name read labelled unbound
    have unknown : scan.labels.offset name = .error (.unknownLabel name) := by
      rw [Labels.offset, Scan.labels, unbound]
    rw [Run.filter_diagnostics member, Placement.error?_of_unbound read labelled unknown]
    rfl

/-- The branch waits for its label and is reported after the register that does not
exist, although its line comes first. -/
theorem lost_label_reported_once :
    let source := ".orig x3000\nbr lost\nnot r0, r9\nld r0, found\nfound halt\n.end"
    let lost : Placement := ⟨{}, ⟨1, "br lost"⟩, .instruction "br" ["lost"]⟩
    (Run.ofSource {} source).scan.origin = some ⟨0x3000⟩ ∧
    lost ∈ (Outline.ofSource {} source).placements .baseline ∧
    (outputDiagnostics (assemble {} source)).filter lost.blamedBy =
      [.errorAt lost.line (.unknownLabel "lost")] ∧
    outputDiagnostics (assemble {} source) =
      [.errorAt ⟨2, "not r0, r9"⟩ (.malformedRegister "r9"),
        .errorAt lost.line (.unknownLabel "lost")] := by
  intro source lost
  have accepted : (Run.ofSource {} source).scan.origin = some ⟨0x3000⟩ := by decide +kernel
  have member : lost ∈ (Outline.ofSource {} source).placements .baseline := by decide +kernel
  have read : Draft.label? <$> lost.statement.draft .baseline = .ok (some "lost") := rfl
  have unbound : (Run.ofSource {} source).scan.symbols.offset? "lost" = none := by
    decide +kernel
  rcases map_eq_ok.mp read with ⟨draft, drafted, labelled⟩
  rcases encoding_errors_reported_once {} source ⟨0x3000⟩ accepted with
    ⟨-, -, -, -, -, unknown⟩
  exact ⟨accepted, member, unknown lost member draft "lost" drafted labelled unbound,
    by decide +kernel⟩

end TwoPass
