import TwoPass.Command.Run

/-! # The command

Runs the assembler on the files of the machine. -/

namespace TwoPass

def fileErrorOf : IO.Error → FileError
  | .noFileOrDirectory _ _ _ => .notFound
  | .inappropriateType _ 20 _ => .notDirectory
  | .inappropriateType _ 21 _ => .isDirectory
  | error => .other (toString error)

def machineFiles : FileAccess IO where
  read name := do
    try
      return .ok (← IO.FS.readBinFile name.shown).toList
    catch error =>
      return .error (fileErrorOf error)
  write name content := do
    try
      IO.FS.writeBinFile name.shown ⟨content.toArray⟩
      return .ok ()
    catch error =>
      return .error (fileErrorOf error)

end TwoPass

def main (arguments : List String) : IO UInt32 := do
  let report ← TwoPass.command TwoPass.machineFiles arguments
  IO.print report.output
  IO.eprint report.errors
  return UInt32.ofNat report.status
