import TwoPass.Command.Arguments
import TwoPass.Command.FileAccess
import TwoPass.Program.Listing

/-! # Running the command

The command reads one program, assembles it and writes what was asked for, in a
fixed order and up to the first failure. -/

namespace TwoPass

inductive CommandFailure where
  | unreadable (name : FileName) (error : FileError)
  | unwritable (name : FileName) (error : FileError)
  | badInput (name : FileName) (diagnostics : List Diagnostic)

def CommandFailure.message : CommandFailure → String
  | .unreadable name error => s!"failed to read {name.shown}: {error.message}"
  | .unwritable name error => s!"failed to write {name.shown}: {error.message}"
  | .badInput name diagnostics =>
    s!"failed to assemble {name.shownWithNote}: {Diagnostic.errorCount diagnostics} error(s)"

structure Report where
  status : Nat
  output : String := ""
  errors : String := ""
  deriving DecidableEq, Repr

namespace Job

def products (job : Job) (assembly : Assembly) : List (FileName × List UInt8) :=
  [(job.output, assembly.binary.bytes)] ++
    job.symbols.toList.map (·, Utf8.bytes assembly.symbols.text) ++
    job.hex.toList.map (·, Utf8.bytes assembly.binary.objectText)

def readSource [Monad m] (files : FileAccess m) (job : Job) :
    m (Except CommandFailure String) := do
  match ← files.read job.input with
  | .error error => return .error (.unreadable job.input error)
  | .ok content =>
    match Utf8.text? content with
    | none => return .error (.unreadable job.input .notText)
    | some source => return .ok source

/-- Write files up to the first that cannot be written. -/
def writeProducts [Monad m] (files : FileAccess m) :
    List (FileName × List UInt8) → m (Except CommandFailure Unit)
  | [] => return .ok ()
  | (name, content) :: rest => do
    match ← files.write name content with
    | .ok () => writeProducts files rest
    | .error error => return .error (.unwritable name error)

def failed (said : String) (failure : CommandFailure) : Report where
  status := 1
  errors := s!"{said}{failure.message}\n"

def run [Monad m] (files : FileAccess m) (job : Job) : m Report := do
  match ← job.readSource files with
  | .error failure => return failed "" failure
  | .ok source =>
    match assemble job.options source with
    | .error failure =>
      let diagnostics := failure.diagnostics
      return failed (Diagnostic.render diagnostics) (.badInput job.input diagnostics)
    | .ok assembly =>
      let warnings := Diagnostic.render assembly.warnings
      match ← writeProducts files (job.products assembly) with
      | .error failure => return failed warnings failure
      | .ok () =>
        return { status := 0
                 output := if job.list then assembly.listing else ""
                 errors := warnings }

end Job

def versionText : String :=
  "asm16 0.1.0\n"

def helpText : String :=
  "\n".intercalate
    ["Assembler for two related 16-bit instruction sets",
     "",
     "Usage: asm16 [OPTIONS] --output <OUTPUT> <INPUT>",
     "",
     "Arguments:",
     "  <INPUT>  File from which assembly source is read",
     "",
     "Options:",
     "  -o, --output <OUTPUT>    File to which the object code is written",
     "      --profile <PROFILE>  Instruction set of the program (\"baseline\" or \"compact\") " ++
       "[default: baseline]",
     "      --library            Assemble system or library code rather than a user program " ++
       "(user programs for the compact instruction set must start with a fixed prologue)",
     "      --symbols <SYMBOLS>  File to which the symbol table is written",
     "      --hex <HEX>          File to which the object code is written as hexadecimal text",
     "      --list               When set, print a listing of the assembler output",
     "  -h, --help               Print help",
     "  -V, --version            Print version",
     ""]

def command [Monad m] (files : FileAccess m) (arguments : List String) : m Report :=
  match Request.ofArguments arguments with
  | .error error => return { status := 2, errors := s!"error: {error.message}\n" }
  | .ok .version => return { status := 0, output := versionText }
  | .ok .help => return { status := 0, output := helpText }
  | .ok (.assemble job) => job.run files

end TwoPass
