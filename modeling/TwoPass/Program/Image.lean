import TwoPass.Diagnostic

/-! # The memory image

While a program is read its words are collected in cells, one after another. A
cell can hold a value wider than a word, so that it is reported and not cut off
when the image is emitted. Each cell remembers the line that placed it. -/

namespace TwoPass

inductive CellKind where
  | instruction
  | data
  deriving DecidableEq, Repr

structure Cell where
  /-- The value, or nothing if the statement could not be encoded. -/
  value : Option Nat
  kind : CellKind
  line : SourceLine
  deriving DecidableEq, Repr

namespace Cell

def oversized? (cell : Cell) : Option Nat :=
  cell.value.filter (65536 ≤ ·)

/-- The word to emit, which is zero for want of a value that fits. -/
def word (cell : Cell) : Word :=
  match cell.value with
  | some value => if value < 65536 then BitVec.ofNat 16 value else 0
  | none => 0

end Cell

/-- The cells of a program by their offset from its start. -/
structure Image where
  cells : Array Cell := #[]
  deriving DecidableEq, Repr

namespace Image

def size (image : Image) : Nat :=
  image.cells.size

def push (image : Image) (kind : CellKind) (line : SourceLine) (values : List (Option Nat)) :
    Image :=
  ⟨image.cells ++ (values.map fun value => Cell.mk value kind line)⟩

def overwrite (image : Image) : (offset : Nat) → (values : List (Option Nat)) → Image
  | _, [] => image
  | offset, value :: values =>
    let changed : Image := ⟨image.cells.modify offset fun cell => { cell with value }⟩
    changed.overwrite (offset + 1) values

/-- Replace the values that stood in for labels. -/
def patch (image : Image) (offset : Nat) (words : List Nat) : Image :=
  image.overwrite offset (words.map some)

/-- Mark cells whose statement turned out not to be encodable. -/
def markFailed (image : Image) (offset length : Nat) : Image :=
  image.overwrite offset (List.replicate length none)

def line? (image : Image) (offset : Nat) : Option SourceLine :=
  image.cells[offset]?.map (·.line)

def codeLine? (image : Image) (offset : Nat) : Option SourceLine :=
  (image.cells[offset]?.filter (·.kind == .instruction)).map (·.line)

end Image

end TwoPass
