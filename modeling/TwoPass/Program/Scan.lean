import TwoPass.Line.Token
import TwoPass.Program.Image
import TwoPass.Program.Statement

/-! # The first pass

The lines of a program are read in order. Labels are bound and statements are
encoded as they come; a statement that refers to a label further on is recorded
as a fixup. What is wrong with a line is reported and reading goes on, save for
the few problems that leave the rest without meaning. -/

namespace TwoPass

inductive Section where
  | text
  | data
  deriving DecidableEq, Repr

/-- A statement to be encoded again when all labels are bound. -/
structure Fixup where
  line : SourceLine
  offset : Nat
  length : Nat
  statement : Statement
  deriving DecidableEq, Repr

structure Scan where
  origin : Option Address := none
  symbols : SymbolTable := {}
  fixups : List Fixup := []
  image : Image := {}
  /-- The section that was opened last. Before the first, instructions are allowed
  and data is not. -/
  openSection : Option Section := none
  diagnostics : List Diagnostic := []

inductive Stage where
  | origin
  /-- A statement, and for as long as lines are required one of those. -/
  | body (required : List OpeningLine)
  deriving DecidableEq, Repr

inductive Step where
  | proceed (stage : Stage) (scan : Scan)
  | halt (scan : Scan)

namespace Scan

/-- The address of the first word. It is only consulted once it is known. -/
def start (scan : Scan) : Address :=
  scan.origin.getD ⟨0⟩

def report (scan : Scan) (line : SourceLine) (problem : Problem) : Scan :=
  { scan with diagnostics := scan.diagnostics ++ [.errorAt line problem] }

def defineLabel (scan : Scan) (profile : Profile) (line : SourceLine) (name : String) : Scan :=
  if isLabelName name && !profile.isRegister name then
    match scan.symbols.define? name scan.image.size with
    | some symbols => { scan with symbols }
    | none => scan.report line (.duplicateLabel name)
  else
    scan.report line (.invalidSymbol name)

/-- Encode a statement at the place of the next word. One that cannot be encoded
still takes up room, as far as its length is known, so that the words after it
keep their places. -/
def place (scan : Scan) (profile : Profile) (kind : CellKind) (line : SourceLine)
    (statement : Statement) : Scan :=
  let offset := scan.image.size
  match statement.encode profile ⟨scan.symbols, scan.start, .first⟩ offset with
  | .ok encoding =>
    let image := scan.image.push kind line (encoding.words.map some)
    if encoding.deferred then
      let fixup := ⟨line, offset, encoding.words.length, statement⟩
      { scan with image, fixups := scan.fixups ++ [fixup] }
    else
      { scan with image }
  | .error problem =>
    let image := scan.image.push kind line (List.replicate statement.failedLength none)
    { scan with image }.report line problem

def instruction (scan : Scan) (profile : Profile) (line : SourceLine) (mnemonic : String)
    (operands : List String) : Scan :=
  if scan.openSection = some .data then
    scan.report line (.instructionInDataSection mnemonic)
  else
    scan.place profile .instruction line (.instruction mnemonic operands)

/-- Place data, which must not stand among instructions if there are sections. -/
def storage (scan : Scan) (profile : Profile) (line : SourceLine) (kind : Storage)
    (operands : List String) : Scan :=
  if profile.sectioned ∧ scan.openSection ≠ some .data then
    scan.report line (.dataInTextSection kind.name)
  else
    scan.place profile .data line (.storage kind operands)

/-- Whether a section may be opened: text first, then data, each once. -/
def mayOpen (scan : Scan) (next : Section) : Bool :=
  match scan.openSection, next with
  | none, _ => true
  | some .text, .data => true
  | _, _ => false

def beginSection (scan : Scan) (stage : Stage) (line : SourceLine) (next : Section)
    (name : String) : Step :=
  if scan.mayOpen next then
    .proceed stage { scan with openSection := some next }
  else
    .halt (scan.report line (.sectionOrder name))

def directive (scan : Scan) (profile : Profile) (stage : Stage) (line : SourceLine)
    (directive : Directive) (operands : List String) : Step :=
  match directive.arity.check directive.name operands with
  | .error problem => .proceed stage (scan.report line problem)
  | .ok () =>
    match directive with
    | .origin => .proceed stage (scan.report line .duplicateOrigin)
    | .finish => .halt scan
    | .text => scan.beginSection stage line .text directive.name
    | .data => scan.beginSection stage line .data directive.name
    | .global =>
      match operands.find? (!isLabelName ·) with
      | some symbol => .proceed stage (scan.report line (.invalidSymbol symbol))
      | none => .proceed stage scan
    | .storage kind => .proceed stage (scan.storage profile line kind operands)

def unlabelled (scan : Scan) (profile : Profile) (stage : Stage) (line : SourceLine) :
    List String → Step
  | [] => .proceed stage scan
  | name :: operands =>
    if startsWith '.' name then
      match Directive.ofName? profile name with
      | some directive => scan.directive profile stage line directive operands
      | none => .proceed stage (scan.report line (.unknownMnemonic name))
    else
      .proceed stage (scan.instruction profile line name operands)

def statement (scan : Scan) (profile : Profile) (stage : Stage) (line : SourceLine)
    (tokens : List String) : Step :=
  let parts := profile.takeLabel tokens
  let bound :=
    match parts.label with
    | some name => scan.defineLabel profile line name
    | none => scan
  bound.unlabelled profile stage line parts.statement

def readOrigin : List String → Except Problem Address
  | [".orig", start] => Address.mk <$> Numeral.immediate .word start
  | _ => .error .missingOrigin

def step (options : Options) (stage : Stage) (scan : Scan) (line : SourceLine) : Step :=
  let text := normalize line.text.toList
  if text.isEmpty then
    .proceed stage scan
  else
    let tokens := tokenize text
    match stage with
    | .origin =>
      match readOrigin tokens with
      | .ok origin => .proceed (.body options.prologue) { scan with origin := some origin }
      | .error problem => .halt (scan.report line problem)
    | .body [] => scan.statement options.profile stage line tokens
    | .body (required :: others) =>
      if required.accepts text tokens then
        scan.statement options.profile (.body others) line tokens
      else
        .halt (scan.report line (.missingPrologue required.spelling))

def exhausted : Stage → Diagnostic
  | .origin => .programError .emptySource
  | .body [] => .programWarning .missingEnd
  | .body (required :: _) => .programError (.missingPrologue required.spelling)

def run (options : Options) (stage : Stage) (scan : Scan) : List SourceLine → Scan
  | [] => { scan with diagnostics := scan.diagnostics ++ [exhausted stage] }
  | line :: lines =>
    match scan.step options stage line with
    | .proceed stage scan => scan.run options stage lines
    | .halt scan => scan

def ofLines (options : Options) (lines : List SourceLine) : Scan :=
  run options .origin {} lines

end Scan

end TwoPass
