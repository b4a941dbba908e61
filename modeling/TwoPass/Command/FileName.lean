import TwoPass.Text.Pieces
import TwoPass.Text.Utf8

/-! # File names

A file name is a sequence of bytes that need not be text. Slashes divide it into
components. -/

namespace TwoPass

structure FileName where
  bytes : List UInt8
  deriving DecidableEq, Repr

namespace FileName

def ofText (text : String) : FileName :=
  ⟨Utf8.bytes text⟩

def slash : UInt8 := 0x2F

/-- The parts of a name between slashes, empty ones included. -/
def components (name : FileName) : List (List UInt8) :=
  pieces (· == slash) name.bytes

/-- A name to print, with the replacement character where it is not text. -/
def shown (name : FileName) : String :=
  Utf8.replacingFaults name.bytes

/-- A name to print, with a note if it is not text. -/
def shownWithNote (name : FileName) : String :=
  match Utf8.text? name.bytes with
  | some text => text
  | none => s!"{name.shown} (some non-Unicode characters changed to make it printable)"

end FileName

end TwoPass
