import TwoPass.Program.Assembly

/-! # The trace of a run

A run can be followed through a trace: each diagnostic where it was found, and
where the passes began and ended. -/

namespace TwoPass

inductive Event where
  | assembling (options : Options)
  | originAccepted (origin : Address)
  | reported (diagnostic : Diagnostic)
  | firstPassComplete (words fixups : Nat)
  | resolving (fixups : Nat)
  | patching (words offset : Nat) (statement : Statement)
  | emitted (words : Nat) (start : Address)

inductive TraceEntry where
  /-- A part of the run begins. -/
  | span (level name fields : String)
  | message (level text : String)
  deriving DecidableEq, Repr

def Role.name : Role → String
  | .primary => "Primary"
  | .library => "Library"

def Event.entry : Event → TraceEntry
  | .assembling options =>
    .span "INFO" "assemble" s!"profile={options.profile.name} role={options.role.name}"
  | .originAccepted origin => .message "DEBUG" s!"program starts at {origin.text}"
  | .reported diagnostic =>
    let severity :=
      match diagnostic.severity with
      | .error => "Error"
      | .warning => "Warning"
    .message "DEBUG" s!"{severity}: {diagnostic.text}"
  | .firstPassComplete words fixups =>
    .message "DEBUG" s!"first pass complete: {words} words, {fixups} fixups"
  | .resolving fixups => .span "DEBUG" "fixups" s!"count={fixups}"
  | .patching words offset statement =>
    .message "DEBUG" s!"patching {words} word(s) at offset {offset} for '{statement.text}'"
  | .emitted words start =>
    .message "DEBUG" s!"emitted {words} words starting at {start.text}"

def Resolution.event (resolution : Resolution) : Event :=
  let fixup := resolution.fixup
  match resolution.outcome with
  | .ok words => .patching words.length fixup.offset fixup.statement
  | .error problem => .reported (.errorAt fixup.line problem)

/-- The events of a run in order. The origin is the first thing that a program
gives, so it is accepted before anything is reported. -/
def Run.events (run : Run) : List Event :=
  let scan := run.scan
  let emission :=
    match scan.origin with
    | none => []
    | some origin => run.emissionDiagnostics.map .reported ++ [.emitted run.image.size origin]
  [.assembling run.options] ++ scan.origin.toList.map .originAccepted ++
    scan.diagnostics.map .reported ++
    [.firstPassComplete scan.image.size scan.fixups.length, .resolving scan.fixups.length] ++
    run.resolutions.map Resolution.event ++ emission

end TwoPass
