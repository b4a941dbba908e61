import TwoPass.Program.Binary
import TwoPass.Program.Scan

/-! # Assembling a program

After the first pass every fixup is encoded again with the complete symbol table,
and its cells are patched. Then the cells are checked and the words are emitted.
A program with an error yields no assembly, but every diagnostic. -/

namespace TwoPass

structure Resolution where
  fixup : Fixup
  outcome : Except Problem (List Nat)

namespace Resolution

/-- Put the words of a fixup in their cells, or mark the cells. -/
def apply (image : Image) (resolution : Resolution) : Image :=
  let fixup := resolution.fixup
  match resolution.outcome with
  | .ok words => image.patch fixup.offset words
  | .error _ => image.markFailed fixup.offset fixup.length

def diagnostic? (resolution : Resolution) : Option Diagnostic :=
  match resolution.outcome with
  | .ok _ => none
  | .error problem => some (.errorAt resolution.fixup.line problem)

end Resolution

def Scan.resolve (scan : Scan) (profile : Profile) : List Resolution :=
  let labels : Labels := ⟨scan.symbols, scan.start, .second⟩
  scan.fixups.map fun fixup =>
    let encoding := fixup.statement.encode profile labels fixup.offset
    ⟨fixup, encoding.map (·.words)⟩

/-- A word of the finished program, with the line it came from if it is an
instruction. -/
structure EmittedWord where
  word : Word
  source : Option String
  deriving DecidableEq, Repr

structure Assembly where
  start : Address
  emitted : List EmittedWord
  symbols : SymbolValues
  warnings : List Diagnostic

namespace Assembly

def binary (assembly : Assembly) : Binary :=
  ⟨assembly.start, assembly.emitted.map (·.word)⟩

def sourceLines (assembly : Assembly) : List (Address × String) :=
  assembly.emitted.zipIdx.filterMap fun (emitted, offset) => do
    let address ← assembly.start.offset? offset
    let source ← emitted.source
    return (address, source)

end Assembly

structure Failure where
  diagnostics : List Diagnostic
  /-- The image with a zero for each word that is wrong, if there was an origin. -/
  image : Option Binary

def Failure.message (failure : Failure) : String :=
  s!"assembly failed with {Diagnostic.errorCount failure.diagnostics} error(s)"

namespace Image

def emit (image : Image) : List EmittedWord :=
  image.cells.toList.map fun cell =>
    match cell.kind with
    | .instruction => ⟨cell.word, some cell.line.text⟩
    | .data => ⟨cell.word, none⟩

def diagnostics (image : Image) (origin : Address) : List Diagnostic :=
  let length := image.size
  let tooLarge :=
    if 0 < length ∧ (origin.offset? (length - 1)).isNone then
      [.programError (.programTooLarge origin length)]
    else
      []
  let oversized := image.cells.toList.filterMap fun cell =>
    cell.oversized?.map fun value => .errorAt cell.line (.valueTooLarge value)
  tooLarge ++ oversized

end Image

structure Run where
  options : Options
  scan : Scan
  resolutions : List Resolution
  /-- The image after the second pass. -/
  image : Image

namespace Run

def ofSource (options : Options) (source : String) : Run :=
  let scan := Scan.ofLines options (SourceLine.ofText source)
  let resolutions := scan.resolve options.profile
  { options, scan, resolutions, image := resolutions.foldl Resolution.apply scan.image }

def emissionDiagnostics (run : Run) : List Diagnostic :=
  match run.scan.origin with
  | some origin => run.image.diagnostics origin
  | none => []

def diagnostics (run : Run) : List Diagnostic :=
  run.scan.diagnostics ++ run.resolutions.filterMap (·.diagnostic?) ++ run.emissionDiagnostics

/-- The result of an assembly: a program only if nothing is an error. -/
def result (run : Run) : Except Failure Assembly :=
  let diagnostics := run.diagnostics
  match run.scan.origin with
  | none => .error ⟨diagnostics, none⟩
  | some start =>
    let emitted := run.image.emit
    if diagnostics.any Diagnostic.isError then
      .error ⟨diagnostics, some ⟨start, emitted.map (·.word)⟩⟩
    else
      .ok
        { start, emitted
          symbols := SymbolValues.ofTable start run.scan.symbols
          warnings := diagnostics }

end Run

def assemble (options : Options) (source : String) : Except Failure Assembly :=
  (Run.ofSource options source).result

end TwoPass
