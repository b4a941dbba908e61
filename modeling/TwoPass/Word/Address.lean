import TwoPass.Word.Field
import TwoPass.Text.Hex

/-! # Addresses

Memory has 65536 words. Address arithmetic does not wrap: a place past the end of memory
has no address, and where only its number is asked for, the number stops at the largest
of 32 bits. -/

namespace TwoPass

structure Address where
  bits : Word
  deriving DecidableEq, Repr

namespace Address

def toNat (address : Address) : Nat :=
  address.bits.toNat

def ofNat? (value : Nat) : Option Address :=
  if bound : value < 65536 then
    some ⟨BitVec.ofNatLT value bound⟩
  else
    none

def offset? (address : Address) (offset : Nat) : Option Address :=
  ofNat? (address.toNat + offset)

/-- The number of the place `offset` words further on, be it in memory or past its end. -/
def advance (address : Address) (offset : Nat) : Nat :=
  min (address.toNat + offset) 0xFFFFFFFF

def text (address : Address) : String :=
  s!"x{Hex.fixed 4 address.toNat}"

theorem toNat_lt (address : Address) : address.toNat < 65536 :=
  address.bits.isLt

theorem advance_of_le {address : Address} {offset : Nat}
    (small : address.toNat + offset ≤ 0xFFFFFFFF) :
    address.advance offset = address.toNat + offset :=
  Nat.min_eq_left small

theorem advance_le_iff {address : Address} {offset bound : Nat} (small : bound < 0xFFFFFFFF) :
    address.advance offset ≤ bound ↔ address.toNat + offset ≤ bound := by
  unfold advance
  omega

example : (offset? ⟨0x3000⟩ 2) = some ⟨0x3002⟩ := rfl
example : (offset? ⟨0xFFFF⟩ 1) = none := rfl
example : advance ⟨0xFFFF⟩ 1 = 0x10000 := by decide
example : advance ⟨0x3000⟩ 0xFFFFFFFF = 0xFFFFFFFF := by decide

end Address

end TwoPass
