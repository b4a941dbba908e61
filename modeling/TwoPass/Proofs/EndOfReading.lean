import TwoPass.Proofs.LineMeaning
import TwoPass.Proofs.Progress
import TwoPass.Proofs.SourceOrder

/-! # The end of reading

Reading ends on a line of one of four kinds, or where the lines run out. The outline of a
program goes no further than the line that reading ends on, so nothing that comes after
it has a part in the assembly, and no line after it is ever named. -/

namespace TwoPass

/-! ## Sections out of order -/

/-- Whether tokens open a section that may not come after the one that is open. -/
def Misplaced (current : Option Section) (tokens : List String) : Prop :=
  tokens = [".text"] ∧ current ≠ none ∨ tokens = [".data"] ∧ current = some .data

namespace Reading

variable (profile : Profile) (current : Option Section)

theorem ofDirective_abandon_iff (directive : Directive) (operands : List String) :
    (ofDirective profile current directive operands).flow = .abandon ↔
      operands = [] ∧
        (directive = .text ∧ current ≠ none ∨ directive = .data ∧ current = some .data) := by
  unfold ofDirective
  cases checked : directive.arity.check directive.name operands with
  | error problem =>
      refine ⟨nofun, ?_⟩
      rintro ⟨rfl, ⟨rfl, -⟩ | ⟨rfl, -⟩⟩ <;> cases checked
  | ok _ =>
      cases directive with
      | origin => simp [single]
      | finish => simp
      | text =>
          cases operands with
          | nil => rcases current with _ | _ | _ <;> simp [ofSection, single]
          | cons first rest => cases checked
      | data =>
          cases operands with
          | nil => rcases current with _ | _ | _ <;> simp [ofSection, single]
          | cons first rest => cases checked
      | global =>
          dsimp only
          split <;> simp [single]
      | storage kind =>
          dsimp only [ofStorage]
          split <;> simp [single]

theorem ofStatement_abandon_iff (tokens : List String) :
    (ofStatement profile current tokens).flow = .abandon ↔
      profile.sectioned ∧ Misplaced current tokens := by
  cases tokens with
  | nil => simp [ofStatement, Misplaced]
  | cons name operands =>
      rw [ofStatement]
      by_cases dotted : startsWith '.' name
      · rw [if_pos dotted]
        have found (directive : Directive) (spelled : name :: operands = [directive.name])
            (sectioned : profile.sectioned) : Directive.ofName? profile name = some directive :=
          (Directive.ofName?_eq_some_iff profile name directive).mpr
            ⟨(List.cons.inj spelled).1, fun _ => sectioned⟩
        cases named : Directive.ofName? profile name with
        | none =>
            constructor
            · intro abandons
              cases abandons
            · rintro ⟨sectioned, ⟨spelled, -⟩ | ⟨spelled, -⟩⟩
              · cases named.symm.trans (found .text spelled sectioned)
              · cases named.symm.trans (found .data spelled sectioned)
        | some directive =>
            rcases (Directive.ofName?_eq_some_iff profile name directive).mp named with
              ⟨rfl, allowed⟩
            refine (ofDirective_abandon_iff profile current directive operands).trans ?_
            constructor
            · rintro ⟨rfl, ⟨rfl, opened⟩ | ⟨rfl, opened⟩⟩
              · exact ⟨allowed rfl, .inl ⟨rfl, opened⟩⟩
              · exact ⟨allowed rfl, .inr ⟨rfl, opened⟩⟩
            · rintro ⟨sectioned, ⟨spelled, opened⟩ | ⟨spelled, opened⟩⟩
              · cases named.symm.trans (found .text spelled sectioned)
                exact ⟨(List.cons.inj spelled).2, .inl ⟨rfl, opened⟩⟩
              · cases named.symm.trans (found .data spelled sectioned)
                exact ⟨(List.cons.inj spelled).2, .inr ⟨rfl, opened⟩⟩
      · rw [if_neg dotted]
        constructor
        · intro abandons
          unfold ofInstruction at abandons
          split at abandons <;> cases abandons
        · rintro ⟨-, ⟨spelled, -⟩ | ⟨spelled, -⟩⟩ <;>
            exact absurd ((List.cons.inj spelled).1 ▸ rfl) dotted

theorem ofStatement_finish_iff (tokens : List String) :
    (ofStatement profile current tokens).flow = .finish ↔ tokens = [".end"] := by
  have possible := ofStatement_possible profile current tokens
  generalize ofStatement profile current tokens = reading at possible ⊢
  cases possible with
  | finish ends => exact ⟨fun _ => ends, fun _ => rfl⟩
  | nothing continues => exact ⟨nofun, fun ends => absurd ends continues⟩
  | single effect continues => exact ⟨nofun, fun ends => absurd ends continues⟩
  | abandon problem continues => exact ⟨nofun, fun ends => absurd ends continues⟩

theorem ofTokens_flow (tokens : List String) :
    (ofTokens profile current tokens).flow =
      (ofStatement profile current (profile.takeLabel tokens).statement).flow :=
  rfl

end Reading

/-! ## Lines on which reading ends -/

namespace Scan

inductive Stops (options : Options) (line : SourceLine) : Stage → Scan → Prop where
  | refused (scan : Scan) (problem : Problem) (significant : line.isSignificant)
      (failed : readOrigin line.tokens = .error problem) : Stops options line .origin scan
  | unmet (required : List OpeningLine) (scan : Scan) (opening : OpeningLine)
      (significant : line.isSignificant)
      (missing : Outline.unmet? required line = some opening) :
      Stops options line (.body required) scan
  | finished (required : List OpeningLine) (scan : Scan)
      (met : Outline.unmet? required line = none) (ends : line.EndsProgram options.profile) :
      Stops options line (.body required) scan
  | misplaced (required : List OpeningLine) (scan : Scan)
      (met : Outline.unmet? required line = none) (sectioned : options.profile.sectioned)
      (order : Misplaced scan.openSection (options.profile.takeLabel line.tokens).statement) :
      Stops options line (.body required) scan

variable {options : Options} {line : SourceLine} {stage : Stage} {scan : Scan}

theorem follow_eq_halt_iff (profile : Profile) (reading : Reading) :
    (∃ final, scan.follow profile stage line reading = .halt final) ↔
      reading.flow = .finish ∨ reading.flow = .abandon := by
  rcases reading with ⟨effects, flow⟩
  cases flow <;> simp [follow]

theorem Stops.significant (stops : Stops options line stage scan) : line.isSignificant := by
  have spoken (some : (options.profile.takeLabel line.tokens).statement ≠ []) :
      line.isSignificant := by
    apply SourceLine.isSignificant_of_tokens
    intro empty
    rw [empty] at some
    exact some rfl
  cases stops with
  | refused scan problem significant failed => exact significant
  | unmet required scan opening significant missing => exact significant
  | finished required scan met ends =>
      apply spoken
      rw [ends]
      exact List.cons_ne_nil _ _
  | misplaced required scan met sectioned order =>
      apply spoken
      rcases order with ⟨opens, -⟩ | ⟨opens, -⟩ <;> rw [opens] <;> exact List.cons_ne_nil _ _

theorem step_eq_halt_iff :
    (∃ final, scan.step options stage line = .halt final) ↔ Stops options line stage scan := by
  by_cases significant : line.isSignificant
  · cases stage with
    | origin =>
        rw [step_origin options scan line significant]
        cases read : readOrigin line.tokens with
        | ok origin =>
            refine ⟨nofun, fun stops => ?_⟩
            cases stops with
            | refused scan problem significant failed => cases read.symm.trans failed
        | error problem =>
            exact ⟨fun _ => .refused scan problem significant read, fun _ => ⟨_, rfl⟩⟩
    | body required =>
        rw [step_body options required scan line significant]
        cases met : Outline.unmet? required line with
        | some opening =>
            exact ⟨fun _ => .unmet required scan opening significant met, fun _ => ⟨_, rfl⟩⟩
        | none =>
            refine (follow_eq_halt_iff options.profile _).trans ?_
            rw [Reading.ofTokens_flow, Reading.ofStatement_finish_iff,
              Reading.ofStatement_abandon_iff]
            constructor
            · rintro (ends | ⟨sectioned, order⟩)
              · exact .finished required scan met ends
              · exact .misplaced required scan met sectioned order
            · intro stops
              cases stops with
              | unmet required scan opening _ missing => cases met.symm.trans missing
              | finished required scan _ ends => exact .inl ends
              | misplaced required scan _ sectioned order => exact .inr ⟨sectioned, order⟩
  · rw [step_blank options stage scan significant]
    exact ⟨nofun, fun stops => absurd stops.significant significant⟩

/-! ## The lines after it -/

theorem Stops.ofBody_eq {required : List OpeningLine}
    (stops : Stops options line (.body required) scan) (origin : Address)
    (later others : List SourceLine) :
    Outline.ofBody options.profile origin required scan.openSection (line :: later) =
      Outline.ofBody options.profile origin required scan.openSection (line :: others) := by
  cases stops with
  | unmet required scan opening _ missing => simp only [Outline.ofBody, missing]
  | finished required scan met ends =>
      have flow : (Reading.ofTokens options.profile scan.openSection line.tokens).flow =
          .finish := by
        rw [Reading.ofTokens_flow, Reading.ofStatement_finish_iff]
        exact ends
      simp only [Outline.ofBody, met, flow]
  | misplaced required scan met sectioned order =>
      have flow : (Reading.ofTokens options.profile scan.openSection line.tokens).flow =
          .abandon := by
        rw [Reading.ofTokens_flow, Reading.ofStatement_abandon_iff]
        exact ⟨sectioned, order⟩
      simp only [Outline.ofBody, met, flow]

theorem Reaches.outline_of_stops {read : List SourceLine}
    (reached : Reaches options read stage scan) (stops : Stops options line stage scan)
    (later : List SourceLine) :
    Outline.ofLines options (read ++ line :: later) =
      Outline.ofLines options (read ++ [line]) := by
  have significant := stops.significant
  cases reached.traced with
  | blank before =>
      have skipped : read.filter SourceLine.isSignificant = [] :=
        List.filter_eq_nil_iff.mpr before
      cases stops with
      | refused scan problem _ failed =>
          simp only [Outline.ofLines, List.filter_append, skipped, List.nil_append,
            List.filter_cons_of_pos significant, failed]
  | body origin required scan actions outline =>
      rw [outline, outline, List.filter_cons_of_pos significant,
        List.filter_cons_of_pos significant, stops.ofBody_eq]

theorem Reaches.line_mem_of_stops {read : List SourceLine}
    (reached : Reaches options read stage scan) (stops : Stops options line stage scan)
    (later : List SourceLine) {action : Action}
    (member : action ∈ (Outline.ofLines options (read ++ line :: later)).actions) :
    action.line ∈ read ++ [line] := by
  rw [reached.outline_of_stops stops] at member
  exact Outline.line_mem_of_ofLines member

end Scan

/-! ## Lines that are named -/

theorem Outline.matches_self {outline : Outline} {named : SourceLine → Prop}
    (lines : ∀ action ∈ outline.actions, named action.line) :
    outline.Matches (fun line _ => named line) outline :=
  ⟨rfl, List.forall₂_same.mpr fun action member => ⟨lines action member, rfl⟩, rfl⟩

namespace Run

variable {options : Options} {source : String} {named : SourceLine → Prop}
  (lines : ∀ action ∈ (Outline.ofSource options source).actions, named action.line)
include lines

theorem line_of_fixup {fixup : Fixup} (member : fixup ∈ (ofSource options source).scan.fixups) :
    named fixup.line := by
  rw [fixups_eq] at member
  rcases List.mem_map.mp member with ⟨placement, deferred, rfl⟩
  have same := placements_matches (Outline.matches_self lines)
  exact (List.forall₂_same.mp same placement (List.mem_filter.mp deferred).1).line

theorem line_of_cell {cell : Cell} (member : cell ∈ (ofSource options source).image.cells.toList) :
    named cell.line := by
  have same := cells_matches (Outline.matches_self lines)
  exact (List.forall₂_same.mp same cell member).line

theorem line_of_diagnostic {diagnostic : Diagnostic}
    (member : diagnostic ∈ (ofSource options source).diagnostics) {line : SourceLine}
    (located : diagnostic.location = .line line) : named line := by
  have same := diagnostics_matches (Outline.matches_self lines)
  have location := (List.forall₂_same.mp same diagnostic member).location
  rw [located] at location
  cases location with
  | line pair => exact pair

end Run

/-- Of a program that reading ends early in, only the lines up to the end are assembled. Reading
ends in one of four ways, whatever stands below has no effect on the outcome, and no statement,
word or diagnostic belongs to a line below. -/
theorem rest_is_not_read (options : Options) (source other : String)
    (read later otherLater : List SourceLine) (line : SourceLine) (stage : Stage)
    (scan final : Scan) (lines : SourceLine.ofText source = read ++ line :: later)
    (otherLines : SourceLine.ofText other = read ++ line :: otherLater)
    (reached : Scan.Reaches options read stage scan)
    (halts : scan.step options stage line = .halt final) :
    Scan.Stops options line stage scan ∧
    assemble options other = assemble options source ∧
    (∀ fixup ∈ (Run.ofSource options source).scan.fixups, fixup.line ∈ read ++ [line]) ∧
    (∀ cell ∈ (Run.ofSource options source).image.cells.toList, cell.line ∈ read ++ [line]) ∧
    ∀ diagnostic ∈ outputDiagnostics (assemble options source), ∀ named,
      diagnostic.location = .line named → named ∈ read ++ [line] := by
  have stops : Scan.Stops options line stage scan := Scan.step_eq_halt_iff.mp ⟨final, halts⟩
  have ended (later : List SourceLine) : Scan.ofLines options (read ++ line :: later) = final := by
    rw [reached.ofLines_eq_run, Scan.run, halts]
  have assembled : ∀ action ∈ (Outline.ofSource options source).actions,
      action.line ∈ read ++ [line] := by
    intro action member
    rw [Outline.ofSource, lines] at member
    exact reached.line_mem_of_stops stops later member
  refine ⟨stops, ?_, fun _ => Run.line_of_fixup assembled, fun _ => Run.line_of_cell assembled, ?_⟩
  · rw [assemble, assemble, Run.ofSource, Run.ofSource, lines, otherLines, ended, ended]
  · intro diagnostic member named located
    rw [assemble, Run.outputDiagnostics_result] at member
    exact Run.line_of_diagnostic assembled member located

/-- The label that is asked for stands below the end, and in the other program the
second part for code stands below the part for data. -/
theorem rest_below_end_and_sections :
    let ended := ".orig x3000\nbr lost\n.end"
    let continued := ".orig x3000\nbr lost\n.end\nlost halt\n.orig x4000"
    let abandoned := ".orig x3000\n.text\n.data\n.text"
    let resumed := ".orig x3000\n.text\n.data\n.text\nadd r9\n.end"
    assemble {} continued = assemble {} ended ∧
    outputDiagnostics (assemble {} continued) =
      [.errorAt ⟨1, "br lost"⟩ (.unknownLabel "lost")] ∧
    assemble ⟨.compact, .library⟩ resumed = assemble ⟨.compact, .library⟩ abandoned ∧
    ∀ diagnostic ∈ outputDiagnostics (assemble ⟨.compact, .library⟩ resumed), ∀ named,
      diagnostic.location = .line named → named ∈ SourceLine.ofText abandoned := by
  intro ended continued abandoned resumed
  refine ⟨?_, by decide +kernel, ?_⟩
  · let read : List SourceLine := [⟨0, ".orig x3000"⟩, ⟨1, "br lost"⟩]
    let line : SourceLine := ⟨2, ".end"⟩
    have comes : (Scan.readAll {} .origin {} read).map Prod.fst = some (.body []) := by
      decide +kernel
    rcases Option.map_eq_some_iff.mp comes with ⟨⟨stage, scan⟩, found, rfl⟩
    have reached : Scan.Reaches {} read (.body []) scan := Scan.Reaches.start.readAll _ found
    have ends : line.EndsProgram .baseline := by
      unfold SourceLine.EndsProgram
      decide +kernel
    have stops : Scan.Stops {} line (.body []) scan := .finished [] scan rfl ends
    rcases Scan.step_eq_halt_iff.mpr stops with ⟨final, halts⟩
    exact (rest_is_not_read {} ended continued read [] [⟨3, "lost halt"⟩, ⟨4, ".orig x4000"⟩] line
      _ scan final (by decide +kernel) (by decide +kernel) reached halts).2.1
  · let read : List SourceLine := [⟨0, ".orig x3000"⟩, ⟨1, ".text"⟩, ⟨2, ".data"⟩]
    let line : SourceLine := ⟨3, ".text"⟩
    let options : Options := ⟨.compact, .library⟩
    have comes : (Scan.readAll options .origin {} read).map
        (fun reached => (reached.1, reached.2.openSection)) = some (.body [], some .data) := by
      decide +kernel
    rcases Option.map_eq_some_iff.mp comes with ⟨⟨stage, scan⟩, found, both⟩
    rcases Prod.mk.inj both with ⟨rfl, opened⟩
    have reached : Scan.Reaches options read (.body []) scan :=
      Scan.Reaches.start.readAll _ found
    have order : Misplaced scan.openSection (Profile.takeLabel .compact line.tokens).statement := by
      rw [opened]
      exact .inl ⟨by decide +kernel, by decide⟩
    have stops : Scan.Stops options line (.body []) scan := .misplaced [] scan rfl rfl order
    rcases Scan.step_eq_halt_iff.mpr stops with ⟨final, halts⟩
    rcases rest_is_not_read options abandoned resumed read [] [⟨4, "add r9"⟩, ⟨5, ".end"⟩] line _
      scan final (by decide +kernel) (by decide +kernel) reached halts with
      ⟨-, same, -, -, lines⟩
    refine ⟨same, ?_⟩
    have whole : SourceLine.ofText abandoned = read ++ [line] := by decide +kernel
    rw [same, whole]
    exact lines

end TwoPass
