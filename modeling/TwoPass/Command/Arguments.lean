import TwoPass.Command.FileName
import TwoPass.Profile

/-! # Command line arguments

Arguments are read from left to right, and the first that is wrong decides. A
value may follow its option as the next argument or be attached to it. After `--`
every argument is the name of an input. -/

namespace TwoPass

structure Job where
  input : FileName
  output : FileName
  options : Options
  symbols : Option FileName
  hex : Option FileName
  list : Bool
  deriving DecidableEq, Repr

inductive Request where
  | assemble (job : Job)
  | version
  | help
  deriving DecidableEq, Repr

inductive UsageError where
  | unexpectedArgument (argument : String)
  | missingValue (option : String)
  | unexpectedValue (option : String)
  | invalidValue (option value : String)
  | repeated (option : String)
  | missingArgument (name : String)
  deriving DecidableEq, Repr

def UsageError.message : UsageError → String
  | .unexpectedArgument argument => s!"unexpected argument '{argument}' found"
  | .missingValue option => s!"a value is required for '{option}' but none was supplied"
  | .unexpectedValue option => s!"unexpected value for '{option}' found; no more were expected"
  | .invalidValue option value => s!"invalid value '{value}' for '{option}'"
  | .repeated option => s!"the argument '{option}' cannot be used multiple times"
  | .missingArgument name => s!"the required argument '{name}' was not provided"

inductive ValueOption where
  | output
  | profile
  | symbols
  | hex
  deriving DecidableEq, Repr

inductive FlagOption where
  | library
  | list
  | version
  | help
  deriving DecidableEq, Repr

inductive CommandOption where
  | value (option : ValueOption)
  | flag (option : FlagOption)
  deriving DecidableEq, Repr

namespace CommandOption

def long : List (String × CommandOption) :=
  [("--output", .value .output), ("--profile", .value .profile), ("--symbols", .value .symbols),
   ("--hex", .value .hex), ("--library", .flag .library), ("--list", .flag .list),
   ("--version", .flag .version), ("--help", .flag .help)]

def short : List (Char × CommandOption) :=
  [('o', .value .output), ('V', .flag .version), ('h', .flag .help)]

end CommandOption

structure Given where
  input : Option FileName := none
  output : Option FileName := none
  profile : Option Profile := none
  symbols : Option FileName := none
  hex : Option FileName := none
  library : Bool := false
  list : Bool := false
  deriving DecidableEq, Repr

namespace Given

/-- The file name in a value, which is not empty. -/
def fileName (option value : String) : Except UsageError FileName :=
  if value.isEmpty then .error (.invalidValue option value) else .ok (.ofText value)

def once (option : String) (present : Bool) : Except UsageError Unit :=
  if present then .error (.repeated option) else .ok ()

def setValue (given : Given) (option : ValueOption) (spelling value : String) :
    Except UsageError Given := do
  match option with
  | .output =>
    once spelling given.output.isSome
    return { given with output := some (← fileName spelling value) }
  | .symbols =>
    once spelling given.symbols.isSome
    return { given with symbols := some (← fileName spelling value) }
  | .hex =>
    once spelling given.hex.isSome
    return { given with hex := some (← fileName spelling value) }
  | .profile =>
    once spelling given.profile.isSome
    match Profile.ofName? value with
    | some profile => return { given with profile := some profile }
    | none => .error (.invalidValue spelling value)

def setInput (given : Given) (argument : String) : Except UsageError Given := do
  if given.input.isSome then
    .error (.unexpectedArgument argument)
  else
    return { given with input := some (← fileName "<INPUT>" argument) }

def job (given : Given) : Except UsageError Job :=
  match given.input, given.output with
  | none, _ => .error (.missingArgument "<INPUT>")
  | _, none => .error (.missingArgument "--output <OUTPUT>")
  | some input, some output =>
    .ok
      { input, output
        options :=
          { profile := given.profile.getD .baseline
            role := if given.library then .library else .primary }
        symbols := given.symbols
        hex := given.hex
        list := given.list }

end Given

inductive ArgumentForm where
  /-- Everything after this is input. -/
  | separator
  /-- An option spelled with two dashes, and a value attached with `=`. -/
  | long (name : String) (attached : Option String)
  /-- Option letters after one dash. -/
  | short (letters : List Char)
  | plain

def ArgumentForm.of (argument : String) : ArgumentForm :=
  match argument.toList with
  | ['-', '-'] => .separator
  | '-' :: '-' :: _ =>
    let name := argument.toList.takeWhile (· != '=')
    let attached :=
      match argument.toList.dropWhile (· != '=') with
      | [] => none
      | _ :: value => some (String.ofList value)
    .long (String.ofList name) attached
  | '-' :: letter :: letters => .short (letter :: letters)
  | _ => .plain

inductive ArgumentStep where
  | proceed (given : Given)
  | awaitValue (given : Given) (option : ValueOption) (spelling : String)
  | request (request : Request)

namespace Given

def setFlag (given : Given) (option : FlagOption) (spelling : String) :
    Except UsageError ArgumentStep := do
  match option with
  | .library =>
    once spelling given.library
    return .proceed { given with library := true }
  | .list =>
    once spelling given.list
    return .proceed { given with list := true }
  | .version => return .request .version
  | .help => return .request .help

def readLong (given : Given) (name : String) (attached : Option String) :
    Except UsageError ArgumentStep := do
  match CommandOption.long.lookup name, attached with
  | none, _ => .error (.unexpectedArgument name)
  | some (.value option), some value => return .proceed (← given.setValue option name value)
  | some (.value option), none => return .awaitValue given option name
  | some (.flag _), some _ => .error (.unexpectedValue name)
  | some (.flag option), none => given.setFlag option name

/-- Read the first option letter after a dash. The letters that follow an option
with a value are the value. No letter stands for an option that lets more letters
follow. -/
def readShort (given : Given) : List Char → Except UsageError ArgumentStep
  | [] => .ok (.proceed given)
  | letter :: rest => do
    let spelling := String.ofList ['-', letter]
    match CommandOption.short.lookup letter with
    | none => .error (.unexpectedArgument spelling)
    | some (.flag option) => given.setFlag option spelling
    | some (.value option) =>
      match rest with
      | [] => return .awaitValue given option spelling
      | '=' :: value => return .proceed (← given.setValue option spelling (String.ofList value))
      | value => return .proceed (← given.setValue option spelling (String.ofList value))

end Given

namespace Request

def readInputs (given : Given) (arguments : List String) : Except UsageError Request := do
  let given ← arguments.foldlM Given.setInput given
  return .assemble (← given.job)

/-- Read arguments, the first of which may have to be a value. -/
def read (given : Given) (awaited : Option (ValueOption × String)) :
    List String → Except UsageError Request
  | [] =>
    match awaited with
    | some (_, spelling) => .error (.missingValue spelling)
    | none => .assemble <$> given.job
  | argument :: rest =>
    match awaited, ArgumentForm.of argument with
    | some (option, spelling), .plain => do
      read (← given.setValue option spelling argument) none rest
    | some (_, spelling), _ => .error (.missingValue spelling)
    | none, .plain => do read (← given.setInput argument) none rest
    | none, .separator => readInputs given rest
    | none, .long name attached => do
      match ← given.readLong name attached with
      | .proceed given => read given none rest
      | .awaitValue given option spelling => read given (some (option, spelling)) rest
      | .request request => return request
    | none, .short letters => do
      match ← given.readShort letters with
      | .proceed given => read given none rest
      | .awaitValue given option spelling => read given (some (option, spelling)) rest
      | .request request => return request

def ofArguments (arguments : List String) : Except UsageError Request :=
  read {} none arguments

end Request

end TwoPass
