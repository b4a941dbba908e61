import TwoPass.Word.Address

/-! # Binaries

The loadable form of a program is its start address followed by its words. -/

namespace TwoPass

structure Binary where
  start : Address
  words : List Word
  deriving DecidableEq, Repr

/-- Cut a list into rows of a given length, of which the last may be shorter. -/
def rows (length : Nat) (items : List α) : List (List α) :=
  if items.isEmpty ∨ length = 0 then
    []
  else
    items.take length :: rows length (items.drop length)
termination_by items.length
decreasing_by
  rename_i nonempty
  cases items with
  | nil => simp at nonempty
  | cons head tail =>
    simp only [List.length_drop, List.length_cons]
    simp only [List.isEmpty_cons, Bool.false_eq_true, false_or] at nonempty
    omega

namespace Binary

def image (binary : Binary) : List Word :=
  binary.start.bits :: binary.words

/-- The two bytes of a word, the more significant first. -/
def wordBytes (word : Word) : List UInt8 :=
  [UInt8.ofBitVec (word.extractLsb' 8 8), UInt8.ofBitVec (word.extractLsb' 0 8)]

def bytes (binary : Binary) : List UInt8 :=
  binary.image.flatMap wordBytes

/-- The image as hexadecimal text, eight words to a line. -/
def objectText (binary : Binary) : String :=
  let lines := (rows 8 binary.image).map fun row =>
    " ".intercalate (row.map fun word => Hex.fixed 4 word.toNat) ++ "\n"
  String.join lines

end Binary

end TwoPass
