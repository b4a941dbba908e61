import TwoPass.Program.Trace
import TwoPass.Proofs.FixupOrder
import TwoPass.Proofs.Outcome
import TwoPass.Proofs.Progress

/-! # What a trace tells

A trace is kept while a program is assembled, and its counts are taken from different things
at different times: from the image and the fixups between the passes, from each fixup in the
second pass, from the words at the end. They agree since the second pass goes through the
fixups one by one and neither adds a cell nor takes one away. -/

namespace TwoPass

/-! ## Kinds of events -/

def Diagnostic.entry (diagnostic : Diagnostic) : TraceEntry :=
  let severity :=
    match diagnostic.severity with
    | .error => "Error"
    | .warning => "Warning"
  .message "DEBUG" (severity ++ ": " ++ diagnostic.text)

def TraceEntry.isReport : TraceEntry → Bool
  | .span _ _ _ => false
  | .message _ text =>
    "Error: ".toList.isPrefixOf text.toList || "Warning: ".toList.isPrefixOf text.toList

structure Patch where
  offset : Nat
  words : Nat
  deriving DecidableEq

namespace Event

def diagnostic? : Event → Option Diagnostic
  | .reported diagnostic => some diagnostic
  | _ => none

def patch? : Event → Option Patch
  | .patching words offset _ => some ⟨offset, words⟩
  | _ => none

def origin? : Event → Option Address
  | .originAccepted origin => some origin
  | _ => none

def emission? : Event → Option (Nat × Address)
  | .emitted words start => some (words, start)
  | _ => none

/-- Whether an event stands between the passes, where the fixups are counted. -/
def isCount : Event → Bool
  | .firstPassComplete _ _ | .resolving _ => true
  | _ => false

theorem isReport_entry (event : Event) : event.entry.isReport = event.diagnostic?.isSome := by
  cases event with
  | reported diagnostic =>
      rcases diagnostic with ⟨severity, location, problem⟩
      simp only [entry, TraceEntry.isReport, String.toList_append]
      cases severity <;> rfl
  | originAccepted origin =>
      simp only [entry, TraceEntry.isReport, String.toList_append]
      rfl
  | firstPassComplete words fixups =>
      simp only [entry, TraceEntry.isReport, String.toList_append]
      rfl
  | patching words offset statement =>
      simp only [entry, TraceEntry.isReport, String.toList_append]
      rfl
  | emitted words start =>
      simp only [entry, TraceEntry.isReport, String.toList_append]
      rfl
  | assembling options => rfl
  | resolving fixups => rfl

theorem filter_isReport (events : List Event) :
    (events.map entry).filter TraceEntry.isReport =
      (events.filterMap diagnostic?).map Diagnostic.entry := by
  induction events with
  | nil => rfl
  | cons event events induction =>
      rw [List.map_cons, List.filter_cons, isReport_entry, induction]
      cases event <;> rfl

end Event

/-! ## Events of the second pass -/

namespace Resolution

/-- A fixup is patched or reported, and never both. -/
theorem length_patches_add_length_diagnostics (resolutions : List Resolution) :
    ((resolutions.map event).filterMap Event.patch?).length +
      ((resolutions.map event).filterMap Event.diagnostic?).length = resolutions.length := by
  induction resolutions with
  | nil => rfl
  | cons resolution resolutions induction =>
      rcases resolution with ⟨fixup, outcome⟩
      cases outcome with
      | ok words =>
          simp only [List.map_cons, event, List.filterMap_cons, Event.patch?, Event.diagnostic?,
            List.length_cons]
          omega
      | error problem =>
          simp only [List.map_cons, event, List.filterMap_cons, Event.patch?, Event.diagnostic?,
            List.length_cons]
          omega

theorem diagnostic?_event (resolution : Resolution) :
    resolution.event.diagnostic? = resolution.diagnostic? := by
  unfold event diagnostic?
  cases resolution.outcome <;> rfl

theorem select_event {select : Event → α} {value : α} (resolution : Resolution)
    (patching : ∀ words offset statement, select (.patching words offset statement) = value)
    (reported : ∀ diagnostic, select (.reported diagnostic) = value) :
    select resolution.event = value := by
  rcases resolution with ⟨fixup, outcome⟩
  cases outcome with
  | ok words => exact patching _ _ _
  | error problem => exact reported _

theorem isError_of_event {resolution : Resolution} {diagnostic : Diagnostic}
    (reported : resolution.event.diagnostic? = some diagnostic) : diagnostic.isError := by
  rcases resolution with ⟨fixup, outcome⟩
  cases outcome with
  | ok words => cases reported
  | error problem =>
      cases reported
      rfl

theorem patch_of_fits {resolution : Resolution} (fits : resolution.Fits) {patch : Patch}
    (patches : resolution.event.patch? = some patch) :
    patch.offset = resolution.fixup.offset ∧ patch.words = resolution.fixup.length := by
  rcases resolution with ⟨fixup, outcome⟩
  cases outcome with
  | ok words =>
      cases patches
      exact ⟨rfl, (List.length_map some).symm.trans fits⟩
  | error problem => cases patches

end Resolution

/-! ## The trace in parts -/

def Scan.recorded (scan : Scan) : List Event :=
  scan.origin.toList.map .originAccepted ++ scan.diagnostics.map .reported

namespace Run

def emissionEvents (run : Run) : List Event :=
  run.emissionDiagnostics.map .reported ++ run.scan.origin.toList.map (.emitted run.image.size)

theorem events_eq (run : Run) :
    run.events =
      (.assembling run.options :: run.scan.recorded) ++
        .firstPassComplete run.scan.image.size run.scan.fixups.length ::
          .resolving run.scan.fixups.length ::
            (run.resolutions.map Resolution.event ++ run.emissionEvents) := by
  simp only [events, Scan.recorded, emissionEvents, emissionDiagnostics, List.append_assoc,
    List.cons_append, List.nil_append]
  cases run.scan.origin <;> rfl

/-- What is selected from a trace, where neither its start nor the counts between the
passes are. -/
theorem filterMap_events (run : Run) {select : Event → Option α}
    (assembling : select (.assembling run.options) = none)
    (complete : ∀ words fixups, select (.firstPassComplete words fixups) = none)
    (resolving : ∀ fixups, select (.resolving fixups) = none) :
    run.events.filterMap select =
      run.scan.origin.toList.filterMap (fun origin => select (.originAccepted origin)) ++
        run.scan.diagnostics.filterMap (fun diagnostic => select (.reported diagnostic)) ++
        run.resolutions.filterMap (fun resolution => select resolution.event) ++
        run.emissionDiagnostics.filterMap (fun diagnostic => select (.reported diagnostic)) ++
        run.scan.origin.toList.filterMap fun origin => select (.emitted run.image.size origin) := by
  rw [events_eq, List.filterMap_append, List.filterMap_cons_none assembling,
    List.filterMap_cons_none (complete _ _), List.filterMap_cons_none (resolving _),
    Scan.recorded, emissionEvents]
  simp only [List.filterMap_append, List.filterMap_map, List.append_assoc, Function.comp_def]

theorem diagnostics_of_events (run : Run) :
    run.events.filterMap Event.diagnostic? = run.diagnostics := by
  rw [filterMap_events run rfl (fun _ _ => rfl) fun _ => rfl]
  simp only [Resolution.diagnostic?_event]
  simp [Event.diagnostic?, diagnostics]

theorem patches_of_events (run : Run) :
    run.events.filterMap Event.patch? =
      (run.resolutions.map Resolution.event).filterMap Event.patch? := by
  rw [filterMap_events run rfl (fun _ _ => rfl) fun _ => rfl, List.filterMap_map]
  simp [Event.patch?, Function.comp_def]

theorem origins_of_events (run : Run) :
    run.events.filterMap Event.origin? = run.scan.origin.toList := by
  have between (resolution : Resolution) : resolution.event.origin? = none :=
    resolution.select_event (fun _ _ _ => rfl) fun _ => rfl
  rw [filterMap_events run rfl (fun _ _ => rfl) fun _ => rfl]
  simp only [between]
  simp [Event.origin?]

theorem emissions_of_events (run : Run) :
    run.events.filterMap Event.emission? =
      run.scan.origin.toList.map fun origin => (run.image.size, origin) := by
  have between (resolution : Resolution) : resolution.event.emission? = none :=
    resolution.select_event (fun _ _ _ => rfl) fun _ => rfl
  rw [filterMap_events run rfl (fun _ _ => rfl) fun _ => rfl]
  simp only [between]
  simp [Event.emission?]

/-- What a run emits is what it returns, and it emits once or not at all. -/
theorem emission_of_events (run : Run) :
    (∃ origin binary, run.events.filterMap Event.origin? = [origin] ∧
        run.events.filterMap Event.emission? = [(run.image.size, origin)] ∧
        outputBinary run.result = some binary ∧ binary.start = origin ∧
        binary.words.length = run.image.size) ∨
      (run.events.filterMap Event.origin? = [] ∧ run.events.filterMap Event.emission? = [] ∧
        outputBinary run.result = none) := by
  rw [origins_of_events, emissions_of_events, outputBinary_result]
  cases run.scan.origin with
  | none => exact .inr ⟨rfl, rfl, rfl⟩
  | some origin => exact .inl ⟨origin, ⟨origin, _⟩, rfl, rfl, rfl, rfl, run.emit_length⟩

theorem uncounted_of_outside {run : Run} {event : Event}
    (outside : event ∈ (.assembling run.options :: run.scan.recorded) ++ run.emissionEvents) :
    event.patch? = none ∧ event.isCount = false := by
  have reported (diagnostics : List Diagnostic) (member : event ∈ diagnostics.map .reported) :
      event.patch? = none ∧ event.isCount = false := by
    rcases List.mem_map.mp member with ⟨diagnostic, -, rfl⟩
    exact ⟨rfl, rfl⟩
  rcases List.mem_append.mp outside with before | after
  · rcases List.mem_cons.mp before with rfl | recorded
    · exact ⟨rfl, rfl⟩
    · rcases List.mem_append.mp recorded with accepted | found
      · rcases List.mem_map.mp accepted with ⟨origin, -, rfl⟩
        exact ⟨rfl, rfl⟩
      · exact reported _ found
  · rcases List.mem_append.mp after with found | emitted
    · exact reported _ found
    · rcases List.mem_map.mp emitted with ⟨origin, -, rfl⟩
      exact ⟨rfl, rfl⟩

/-! ## Ranges that are patched -/

variable (options : Options) (source : String)

theorem patches_pairwise :
    ((ofSource options source).events.filterMap Event.patch?).Pairwise
      fun first second => first.offset + first.words ≤ second.offset := by
  have ordered := fixups_pairwise options source
  rw [← fixups_of_resolutions, List.pairwise_map] at ordered
  rw [patches_of_events, List.filterMap_map, List.pairwise_filterMap]
  refine ordered.imp_of_mem fun {resolution other} member otherMember before => ?_
  intro first patches second otherPatches
  have fits := resolutions_fit options source
  rcases Resolution.patch_of_fits (fits resolution member) patches with ⟨offset, words⟩
  rcases Resolution.patch_of_fits (fits other otherMember) otherPatches with ⟨otherOffset, -⟩
  rw [offset, words, otherOffset]
  exact before

theorem patches_inside {patch : Patch}
    (member : patch ∈ (ofSource options source).events.filterMap Event.patch?) :
    patch.offset + patch.words ≤ (ofSource options source).scan.image.size := by
  rw [patches_of_events, List.filterMap_map] at member
  rcases List.mem_filterMap.mp member with ⟨resolution, present, patches⟩
  have fits := resolutions_fit options source resolution present
  rcases Resolution.patch_of_fits fits patches with ⟨offset, words⟩
  rw [offset, words]
  apply fixup_inside
  rw [← fixups_of_resolutions]
  exact List.mem_map_of_mem present

end Run

/-! ## A trace as it is kept

The events of the first pass are those of its last state. They stand there in the order
in which they came up, because a line adds to what has been recorded and the origin comes
before all else. -/

namespace Scan

theorem recorded_grows {scan after : Scan} (origin : after.origin = scan.origin)
    (found : scan.diagnostics <+: after.diagnostics) : scan.recorded <+: after.recorded := by
  rw [recorded, recorded, origin]
  exact (List.prefix_append_right_inj _).mpr (found.map _)

theorem recorded_performAll (profile : Profile) (scan : Scan) (actions : List Action) :
    scan.recorded <+: (scan.performAll profile actions).recorded := by
  apply recorded_grows (performAll_origin profile scan actions)
  rw [performAll_diagnostics]
  exact List.prefix_append _ _

theorem recorded_report (scan : Scan) (line : SourceLine) (problem : Problem) :
    scan.recorded <+: (scan.report line problem).recorded :=
  recorded_grows rfl (List.prefix_append _ _)

def OriginFirst (stage : Stage) (scan : Scan) : Prop :=
  stage = .origin → scan.recorded = []

theorem Advances.originFirst {options : Options} {line : SourceLine} {stage next : Stage}
    {scan after : Scan} (advances : Advances options line stage scan next after)
    (ordered : OriginFirst stage scan) : OriginFirst next after := by
  cases advances with
  | blank => exact ordered
  | opens =>
      intro first
      cases first
  | reads =>
      intro first
      cases first

theorem recorded_step (options : Options) {stage : Stage} {scan : Scan} (line : SourceLine)
    (ordered : OriginFirst stage scan) :
    scan.recorded <+: (scan.step options stage line).scan.recorded := by
  by_cases significant : line.isSignificant
  · cases stage with
    | origin =>
        -- An origin goes in front of what was recorded before it, which is nothing.
        rw [ordered rfl]
        exact List.nil_prefix
    | body required =>
        rw [step_body options required scan line significant]
        cases Outline.unmet? required line with
        | some opening => exact scan.recorded_report line _
        | none =>
            generalize Reading.ofTokens options.profile scan.openSection line.tokens = reading
            rcases reading with ⟨effects, flow⟩
            cases flow <;> exact scan.recorded_performAll options.profile _
  · rw [step_blank options stage scan significant]
    exact List.prefix_rfl

theorem recorded_run (options : Options) {stage : Stage} {scan : Scan} (lines : List SourceLine)
    (ordered : OriginFirst stage scan) :
    scan.recorded <+: (scan.run options stage lines).recorded := by
  induction lines generalizing stage scan with
  | nil => exact recorded_grows rfl (List.prefix_append _ _)
  | cons line lines induction =>
      have grown := recorded_step options line ordered
      rw [run]
      cases step : scan.step options stage line with
      | proceed next after =>
          rw [step] at grown
          exact grown.trans (induction ((advances_of_step step).originFirst ordered))
      | halt final =>
          rw [step] at grown
          exact grown

theorem Reaches.originFirst {options : Options} {read : List SourceLine} {stage : Stage}
    {scan : Scan} (reached : Reaches options read stage scan) : OriginFirst stage scan := by
  induction reached with
  | start => exact fun _ => rfl
  | proceeds line _ step induction => exact (advances_of_step step).originFirst induction

theorem Reaches.recorded_prefix {options : Options} {read : List SourceLine} {stage : Stage}
    {scan : Scan} (reached : Reaches options read stage scan) (rest : List SourceLine) :
    scan.recorded <+: (ofLines options (read ++ rest)).recorded := by
  rw [reached.ofLines_eq_run]
  exact recorded_run options rest reached.originFirst

end Scan

/-- A trace reads as the diagnostics that are returned and is in the order of the run. Its
counts agree with each other: as many fixups as are counted between the passes are patched
or reported after them, in ranges that follow one another, and as many words as there are
then are emitted and returned. -/
theorem trace_tells_the_run (options : Options) (source : String) :
    let run := Run.ofSource options source
    let outcome := assemble options source
    let during := run.resolutions.map Resolution.event
    (run.events.map Event.entry).filter TraceEntry.isReport =
      (outputDiagnostics outcome).map Diagnostic.entry ∧
    (∀ read rest stage scan, SourceLine.ofText source = read ++ rest →
      Scan.Reaches options read stage scan →
      .assembling options :: scan.recorded <+: run.events) ∧
    ∃ opening closing words fixups,
      run.events =
        opening ++ .firstPassComplete words fixups :: .resolving fixups :: (during ++ closing) ∧
      (∀ event ∈ opening ++ during ++ closing, event.isCount = false) ∧
      (∀ event ∈ opening ++ closing, event.patch? = none) ∧
      fixups =
        (during.filterMap Event.patch?).length + (during.filterMap Event.diagnostic?).length ∧
      (∀ diagnostic ∈ during.filterMap Event.diagnostic?, diagnostic.isError) ∧
      (run.events.filterMap Event.patch?).Pairwise
        (fun first second => first.offset + first.words ≤ second.offset) ∧
      (∀ patch ∈ run.events.filterMap Event.patch?, patch.offset + patch.words ≤ words) ∧
      ((∃ origin binary, run.events.filterMap Event.origin? = [origin] ∧
          run.events.filterMap Event.emission? = [(words, origin)] ∧
          outputBinary outcome = some binary ∧ binary.start = origin ∧
          binary.words.length = words) ∨
        (run.events.filterMap Event.origin? = [] ∧ run.events.filterMap Event.emission? = [] ∧
          outputBinary outcome = none)) := by
  intro run outcome during
  have counted : run.scan.fixups.length = run.resolutions.length := by
    rw [← Run.fixups_of_resolutions, List.length_map]
  have reported : outputDiagnostics outcome = run.diagnostics := run.outputDiagnostics_result
  have size : run.image.size = run.scan.image.size := Resolution.size_applyAll ..
  refine ⟨?_, ?_, .assembling run.options :: run.scan.recorded, run.emissionEvents,
    run.scan.image.size, run.scan.fixups.length, run.events_eq, ?_, ?_, ?_, ?_,
    Run.patches_pairwise options source, fun _ => Run.patches_inside options source, ?_⟩
  · rw [Event.filter_isReport, run.diagnostics_of_events, reported]
  · intro read rest stage scan lines reached
    have grown := reached.recorded_prefix rest
    rw [← lines] at grown
    rw [run.events_eq]
    exact ((List.prefix_append_right_inj [_]).mpr grown).trans (List.prefix_append _ _)
  · intro event member
    rw [List.append_assoc, List.mem_append, List.mem_append, ← or_left_comm] at member
    rcases member with between | outside
    · rcases List.mem_map.mp between with ⟨resolution, -, rfl⟩
      exact resolution.select_event (fun _ _ _ => rfl) fun _ => rfl
    · exact (Run.uncounted_of_outside (List.mem_append.mpr outside)).2
  · intro event outside
    exact (Run.uncounted_of_outside outside).1
  · rw [Resolution.length_patches_add_length_diagnostics, counted]
  · intro diagnostic member
    rcases List.mem_filterMap.mp member with ⟨event, between, reported⟩
    rcases List.mem_map.mp between with ⟨resolution, -, rfl⟩
    exact Resolution.isError_of_event reported
  · rw [← size]
    exact run.emission_of_events

/-- One of three fixups cannot be encoded and one has no cells, so that two patches
begin at the same offset. An error is on the way when the last line is still to be read,
and the end is missing. -/
theorem trace_of_faulty_program :
    let source := ".orig x3000\nbr lost\n.blkw 0 far\nld r0, far\n.fill 70000\nfar halt"
    let run := Run.ofSource {} source
    let outcome := assemble {} source
    let read : List SourceLine :=
      [⟨0, ".orig x3000"⟩, ⟨1, "br lost"⟩, ⟨2, ".blkw 0 far"⟩, ⟨3, "ld r0, far"⟩,
        ⟨4, ".fill 70000"⟩]
    (outputDiagnostics outcome).map (·.severity) = [.error, .warning, .error] ∧
    (run.events.map Event.entry).filter TraceEntry.isReport =
      (outputDiagnostics outcome).map Diagnostic.entry ∧
    (∃ stage scan, Scan.Reaches {} read stage scan ∧ scan.recorded.length = 2 ∧
      .assembling {} :: scan.recorded <+: run.events) ∧
    run.events.filterMap Event.patch? = [⟨1, 0⟩, ⟨1, 1⟩] ∧
    (run.events.filterMap Event.patch?).Pairwise
      (fun first second => first.offset + first.words ≤ second.offset) ∧
    run.events.filterMap Event.emission? = [(4, ⟨0x3000⟩)] ∧
    ∃ words binary, run.events.filterMap Event.emission? = [(words, binary.start)] ∧
      outputBinary outcome = some binary ∧ binary.words.length = words := by
  intro source run outcome read
  have emitted : run.events.filterMap Event.emission? = [(4, ⟨0x3000⟩)] := by decide +kernel
  have comes : (Scan.readAll {} .origin {} read).map (·.2.recorded.length) = some 2 := by
    decide +kernel
  rcases Option.map_eq_some_iff.mp comes with ⟨⟨stage, scan⟩, found, recorded⟩
  have reached : Scan.Reaches {} read stage scan := Scan.Reaches.start.readAll _ found
  rcases trace_tells_the_run {} source with
    ⟨reports, kept, opening, closing, words, fixups, -, -, -, -, -, ordered, -, final⟩
  refine ⟨by decide +kernel, reports, ⟨stage, scan, reached, recorded, ?_⟩, by decide +kernel,
    ordered, emitted, ?_⟩
  · have lines : SourceLine.ofText source = read ++ [⟨5, "far halt"⟩] := by decide +kernel
    exact kept read _ stage scan lines reached
  · rcases final with ⟨origin, binary, -, emission, returned, rfl, length⟩ | ⟨-, none, -⟩
    · exact ⟨words, binary, emission, returned, length⟩
    · cases emitted.symm.trans none

end TwoPass
