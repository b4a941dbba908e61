import TwoPass.Command.FileName

/-! # Access to files

The command reads and writes whole files and needs nothing else of its
surroundings. -/

namespace TwoPass

inductive FileError where
  | notFound
  | notDirectory
  | isDirectory
  | notText
  | other (message : String)
  deriving DecidableEq, Repr

def FileError.message : FileError → String
  | .notFound => "No such file or directory (os error 2)"
  | .notDirectory => "Not a directory (os error 20)"
  | .isDirectory => "Is a directory (os error 21)"
  | .notText => "stream did not contain valid UTF-8"
  | .other message => message

/-- The ways to files in surroundings `m`. A failed access changes nothing. -/
structure FileAccess (m : Type → Type) where
  read : FileName → m (Except FileError (List UInt8))
  /-- Replace the content of a file, which need not exist yet. -/
  write : FileName → List UInt8 → m (Except FileError Unit)

end TwoPass
