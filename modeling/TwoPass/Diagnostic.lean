import TwoPass.Line.Source
import TwoPass.Problem

/-! # Diagnostics

A diagnostic says how serious a problem is and where it lies. One that lies on a
line shows the line number, counted from one, and the line as written. -/

namespace TwoPass

inductive Severity where
  | warning
  | error
  deriving DecidableEq, Repr

inductive Location where
  | line (line : SourceLine)
  | address (address : Address)
  | program
  deriving DecidableEq, Repr

structure Diagnostic where
  severity : Severity
  location : Location
  problem : Problem
  deriving DecidableEq, Repr

namespace Diagnostic

def errorAt (line : SourceLine) (problem : Problem) : Diagnostic :=
  ⟨.error, .line line, problem⟩

def programError (problem : Problem) : Diagnostic :=
  ⟨.error, .program, problem⟩

def programWarning (problem : Problem) : Diagnostic :=
  ⟨.warning, .program, problem⟩

def isError (diagnostic : Diagnostic) : Bool :=
  diagnostic.severity == .error

def text (diagnostic : Diagnostic) : String :=
  let description :=
    match diagnostic.severity with
    | .warning => s!"warning: {diagnostic.problem.message}"
    | .error => diagnostic.problem.message
  match diagnostic.location with
  | .line line => s!"{line.number + 1}: {description}\n{line.text}"
  | .address address => s!"internal error at {address.text}: {description}"
  | .program => description

/-- The console form of diagnostics: a line break after each. -/
def render (diagnostics : List Diagnostic) : String :=
  String.join (diagnostics.map fun diagnostic => s!"{diagnostic.text}\n")

def errorCount (diagnostics : List Diagnostic) : Nat :=
  diagnostics.countP isError

end Diagnostic

end TwoPass
